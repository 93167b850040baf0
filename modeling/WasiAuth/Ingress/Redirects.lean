import WasiAuth.Base.Url
import WasiAuth.Identity.Context

/-! # Redirect targets

A browser is sent back to these paths, so they are meant to stay on the application's origin. The validators refuse a
text that starts with two slashes and no other: against an https base the URL parser takes a backslash for a slash
(`Base.Url`). `authentication_redirect` repeats the path of the request, which may start with either.
-/

namespace WasiAuth

/-- The tests the validators share; the two of the services bound the length too. -/
def redirectTarget (maxBytes : Option Nat) (value : String) : Bool :=
  "/".toList.isPrefixOf value.toList && !"//".toList.isPrefixOf value.toList &&
    maxBytes.all (fun bytes => decide (value.utf8ByteSize ≤ bytes)) && !value.toList.any isControl

/-- postgres/oauth.rs:613 -/
def Oauth.safeRedirectPath (value : String) : Bool := redirectTarget (some 2048) value

/-- postgres/passkeys.rs:632 -/
def Passkeys.safeRedirectPath (value : String) : Bool := redirectTarget (some 2048) value

/-- postgres.rs:901 -/
def safeRedirect (value : String) : Bool := redirectTarget none value

/-- The path of an `http::Uri`: empty for an authority, an asterisk, or from a slash on; controls and spaces are never
part of it. -/
structure UriPath where
  text : String
  form : text = "" ∨ text = "*" ∨ text.toList.head? = some '/'
  visible : ∀ c ∈ text.toList, 0x20 < c.val

structure IngressResponse where
  status : Nat
  headers : List (String × String)
  body : String

/-- main.rs:1021 -/
def internalError : IngressResponse := ⟨502, [], "Trusted ingress could not reach the application."⟩

/-- main.rs:879; what `HeaderValue::from_str` takes is a parameter. -/
def authenticationRedirect (validHeaderValue : String → Bool) (path : UriPath) : IngressResponse :=
  let location := "/auth/required?next=" ++ path.text
  if validHeaderValue location then
    ⟨303, [("location", location), ("cache-control", "no-store"),
      ("set-cookie", "__Host-session=; Path=/; Max-Age=0; HttpOnly; SameSite=Lax; Secure"),
      ("set-cookie", "wasi_auth_dev_session=; Path=/; Max-Age=0; HttpOnly; SameSite=Lax")], ""⟩
  else internalError

/-- The response sends the browser to the login page with `next` as the target to come back to. -/
def IngressResponse.Emits (response : IngressResponse) (next : String) : Prop :=
  ("location", "/auth/required?next=" ++ next) ∈ response.headers

theorem text_of_emits {validHeaderValue : String → Bool} {path : UriPath} {next : String}
    (h : (authenticationRedirect validHeaderValue path).Emits next) : path.text = next := by
  by_cases hvalid : validHeaderValue ("/auth/required?next=" ++ path.text) = true
  · simpa [IngressResponse.Emits, authenticationRedirect, hvalid, eq_comm] using h
  · simp [IngressResponse.Emits, authenticationRedirect, hvalid, internalError] at h

/-! ## Where they lead -/

theorem https_special : (Url.defaultPort "https").isSome = true := by decide

variable {parseHost : List Char → Option String}

/-- Against an https origin, what starts with a slash stays unless another slash or a backslash follows. -/
theorem staysOnOrigin_slash {rest : List Char} (hplain : ∀ c ∈ rest, 0x20 ≤ c.val) :
    Url.StaysOnOrigin parseHost "https" ('/' :: rest) ↔ rest.head? ≠ some '/' ∧ rest.head? ≠ some '\\' := by
  rw [Url.staysOnOrigin_iff https_special (List.forall_mem_cons.2 ⟨by decide, hplain⟩) (by simp)]
  cases rest with
  | nil => simp [Url.startsWithTwoSlashes]
  | cons c rest => simp [Url.startsWithTwoSlashes, Url.isSlash]

theorem pair_prefix_cons {a b : Char} {rest : List Char} : [a, b] <+: a :: rest ↔ rest.head? = some b := by
  rw [List.cons_prefix_cons, List.head?_eq_some_iff]
  constructor
  · rintro ⟨-, tail, rfl⟩
    exact ⟨tail, rfl⟩
  · rintro ⟨tail, rfl⟩
    exact ⟨rfl, tail, rfl⟩

theorem plain_of_not_isControl {c : Char} (h : isControl c = false) : 0x20 ≤ c.val := by
  rw [isControl, Bool.or_eq_false_iff, decide_eq_false_iff_not] at h
  exact UInt32.not_lt.1 h.1

theorem staysOnOrigin_of_redirectTarget {maxBytes : Option Nat} {value : String}
    (h : redirectTarget maxBytes value = true) :
    Url.StaysOnOrigin parseHost "https" value.toList ↔ ¬ "/\\".toList <+: value.toList := by
  simp only [redirectTarget, Bool.and_eq_true, Bool.not_eq_true', List.any_eq_false] at h
  obtain ⟨⟨⟨hslash, hslashes⟩, -⟩, hcontrol⟩ := h
  obtain ⟨rest, hrest⟩ := List.isPrefixOf_iff_prefix.1 hslash
  have hvalue : value.toList = '/' :: rest := hrest.symm
  rw [hvalue] at hslashes hcontrol ⊢
  have hsecond : rest.head? ≠ some '/' := by
    rw [← Bool.not_eq_true, List.isPrefixOf_iff_prefix] at hslashes
    exact fun hhead => hslashes (pair_prefix_cons.2 hhead)
  rw [staysOnOrigin_slash fun c hc =>
    plain_of_not_isControl (Bool.not_eq_true _ ▸ hcontrol c (List.mem_cons_of_mem _ hc))]
  exact ⟨fun hstays hprefix => hstays.2 (pair_prefix_cons.1 hprefix),
    fun hprefix => ⟨hsecond, fun hhead => hprefix (pair_prefix_cons.2 hhead)⟩⟩

theorem staysOnOrigin_uriPath (path : UriPath) :
    Url.StaysOnOrigin parseHost "https" path.text.toList ↔
      ¬ "//".toList <+: path.text.toList ∧ ¬ "/\\".toList <+: path.text.toList := by
  have hplain : ∀ c ∈ path.text.toList, 0x20 ≤ c.val := fun c hc => UInt32.le_of_lt (path.visible c hc)
  rcases path.form with hempty | hasterisk | hslash
  · rw [hempty, Url.staysOnOrigin_iff https_special (by simp) (by simp)]
    decide
  · rw [hasterisk, Url.staysOnOrigin_iff https_special (by simp) (by simp)]
    decide
  · obtain ⟨rest, hrest⟩ := List.head?_eq_some_iff.1 hslash
    rw [hrest] at hplain ⊢
    rw [staysOnOrigin_slash (List.forall_mem_cons.1 hplain).2]
    exact and_congr (not_congr pair_prefix_cons.symm) (not_congr pair_prefix_cons.symm)

variable (parseHost)

/-- What a validator accepts stays on every https origin unless a backslash follows its first slash, and the path that
`authentication_redirect` sends along unless it starts with two slashes of either kind. -/
theorem redirect_stays_iff :
    (∀ value, Oauth.safeRedirectPath value = true ∨ Passkeys.safeRedirectPath value = true ∨ safeRedirect value = true →
      (Url.StaysOnOrigin parseHost "https" value.toList ↔ ¬ "/\\".toList <+: value.toList)) ∧
    ∀ (validHeaderValue : String → Bool) (path : UriPath) (next : String),
      (authenticationRedirect validHeaderValue path).Emits next →
        (Url.StaysOnOrigin parseHost "https" next.toList ↔
          ¬ "//".toList <+: path.text.toList ∧ ¬ "/\\".toList <+: path.text.toList) := by
  constructor
  · rintro value (hvalue | hvalue | hvalue) <;> exact staysOnOrigin_of_redirectTarget hvalue
  · intro validHeaderValue path next h
    rw [← text_of_emits h]
    exact staysOnOrigin_uriPath path

def plainHost (host : List Char) : Option String := some (String.ofList host)

theorem dashboard_stays : Url.StaysOnOrigin plainHost "https" "/dashboard?tab=1".toList :=
  ((redirect_stays_iff plainHost).1 "/dashboard?tab=1" (.inl (by decide +kernel))).2 (by decide +kernel)

def appOrigin : Url.Origin := ⟨"https", https_special, "app.example", ⟨none, nofun⟩⟩

/-- Every validator takes a target that leads to someone else's host, and so does the path of a request. -/
theorem exists_redirect_away : ∃ (value : String) (path : UriPath) (next : String),
    Oauth.safeRedirectPath value = true ∧ Passkeys.safeRedirectPath value = true ∧ safeRedirect value = true ∧
      (Url.resolve plainHost appOrigin value.toList).map Url.Origin.host = some "evil.example" ∧
      (authenticationRedirect (fun _ => true) path).Emits next ∧
      (Url.resolve plainHost appOrigin next.toList).map Url.Origin.host = some "evil.example" := by
  have hvisible : ("//evil.example/login".toList.all fun c => decide (0x20 < c.val)) = true := by decide +kernel
  have hform : "//evil.example/login".toList.head? = some '/' := by decide +kernel
  refine ⟨"/\\evil.example", ⟨"//evil.example/login", .inr (.inr hform), fun c hc =>
      of_decide_eq_true (List.all_eq_true.1 hvisible c hc)⟩, "//evil.example/login",
    by decide +kernel, by decide +kernel, by decide +kernel, by decide +kernel, ?_, by decide +kernel⟩
  exact List.mem_cons_self

end WasiAuth
