import WasiAuth.Ingress.Boundary

/-! # Credential extraction

`credential` and `cookie_value` themselves are modelled in `Ingress.Boundary`. The duplicates they refuse may stand in
one header or in several, so the sources are counted over the whole header map.
-/

namespace WasiAuth

open Relational

/-- The three places `credential` looks at (http.rs:908). -/
inductive CredentialSource
  | authorization (value : Bytes)
  | hostSession (value : String)
  | developmentSession (value : String)
deriving DecidableEq

/-- The credential of the source, if it is well formed: a text with the Bearer scheme and a token, or a cookie that is
not empty. -/
def CredentialSource.credential (http : Headers.Library HeaderName) : CredentialSource → Option HttpCredential
  | .authorization value => (http.toStr value).bind fun text =>
    if "Bearer ".toList.isPrefixOf text.toList ∧ text.toList.drop 7 ≠ [] then
      some (.bearer (String.ofList (text.toList.drop 7)))
    else none
  | .hostSession value | .developmentSession value => if value = "" then none else some (.sessionCookie value)

/-- All that a request carries, in the order of the checks. -/
def credentialSources (http : Headers.Library HeaderName) (headers : http.Map) (allowDevelopmentSessionCookie : Bool) :
    List CredentialSource :=
  (http.getAll headers .authorization).map .authorization ++
    (cookiesNamed http headers "__Host-session").map .hostSession ++
      if allowDevelopmentSessionCookie then (cookiesNamed http headers "wasi_auth_dev_session").map .developmentSession
      else []

/-- Every cookie header is a text. -/
def CookiesText (http : Headers.Library HeaderName) (headers : http.Map) : Prop :=
  ∀ header ∈ http.getAll headers .cookie, (http.toStr header).isSome

section Cookies
variable {ε : Type} {http : Headers.Library HeaderName} {headers : http.Map} {name : String}

/-- The only cookie of a name; a second one and an empty one are errors. -/
def onlyCookie : List String → Except (HttpBoundaryError ε) (Option String)
  | [] => .ok none
  | [value] => if value = "" then .error .invalidCredentials else .ok (some value)
  | _ => .error .invalidCredentials

def cookieParts (http : Headers.Library HeaderName) (header : Bytes) : List (List Char) :=
  ((http.toStr header).getD "").toList.splitOn ';'

theorem cookieStep_of_none {found : Option String} {cookie : List Char} (h : namedCookie name cookie = none) :
    cookieStep (ε := ε) name found cookie = .ok found := by
  unfold cookieStep
  unfold namedCookie at h
  cases hpair : cookiePair cookie with
  | none => rfl
  | some pair =>
    have hname : pair.1 ≠ name := by simpa [hpair] using h
    exact if_neg hname

theorem cookieStep_of_some {found : Option String} {cookie : List Char} {value : String}
    (h : namedCookie name cookie = some value) :
    cookieStep (ε := ε) name found cookie =
      if found.isSome ∨ value = "" then .error .invalidCredentials else .ok (some value) := by
  unfold cookieStep
  unfold namedCookie at h
  cases hpair : cookiePair cookie with
  | none => simp [hpair] at h
  | some pair =>
    obtain ⟨hname, rfl⟩ : pair.1 = name ∧ pair.2 = value := by simpa [hpair] using h
    exact if_pos hname

theorem foldlM_cookieStep_some (value : String) (parts : List (List Char)) :
    parts.foldlM (cookieStep (ε := ε) name) (some value) =
      if parts.flatMap (fun cookie => (namedCookie name cookie).toList) = [] then .ok (some value)
      else .error .invalidCredentials := by
  induction parts with
  | nil => rfl
  | cons cookie parts ih =>
    rw [List.foldlM_cons, List.flatMap_cons]
    cases hcookie : namedCookie name cookie with
    | none => rw [cookieStep_of_none hcookie, ok_bind, ih]; simp
    | some other => rw [cookieStep_of_some hcookie]; simp [error_bind]

theorem onlyCookie_cons (value : String) (rest : List String) :
    onlyCookie (ε := ε) (value :: rest) =
      if value = "" then .error .invalidCredentials
      else if rest = [] then .ok (some value) else .error .invalidCredentials := by
  cases rest with
  | nil => rfl
  | cons _ _ => simp [onlyCookie]

theorem foldlM_cookieStep_none (parts : List (List Char)) :
    parts.foldlM (cookieStep (ε := ε) name) none =
      onlyCookie (parts.flatMap fun cookie => (namedCookie name cookie).toList) := by
  induction parts with
  | nil => rfl
  | cons cookie parts ih =>
    rw [List.foldlM_cons, List.flatMap_cons]
    cases hcookie : namedCookie name cookie with
    | none => rw [cookieStep_of_none hcookie, ok_bind, ih]; simp
    | some value =>
      rw [cookieStep_of_some hcookie, Option.toList_some, List.singleton_append, onlyCookie_cons]
      by_cases hvalue : value = ""
      · simp [hvalue, error_bind]
      · rw [if_neg (by simpa using hvalue), if_neg hvalue, ok_bind, foldlM_cookieStep_some]

theorem foldlM_headers {values : List Bytes} (htext : ∀ header ∈ values, (http.toStr header).isSome)
    (found : Option String) :
    values.foldlM (fun found header => do
      let text ← okOr .invalidCredentials (http.toStr header)
      (text.toList.splitOn ';').foldlM (cookieStep (ε := ε) name) found) found =
    (values.flatMap (cookieParts http)).foldlM (cookieStep name) found := by
  induction values generalizing found with
  | nil => rfl
  | cons header values ih =>
    obtain ⟨text, hheader⟩ := Option.isSome_iff_exists.1 (htext header List.mem_cons_self)
    have hparts : cookieParts http header = text.toList.splitOn ';' := by rw [cookieParts, hheader, Option.getD_some]
    have hstep : okOr (HttpBoundaryError.invalidCredentials (ε := ε)) (http.toStr header) = .ok text :=
      okOr_eq_ok.2 hheader
    have hrest := fun found => ih (fun value hvalue => htext value (List.mem_cons_of_mem _ hvalue)) found
    simp only [List.foldlM_cons, List.flatMap_cons, List.foldlM_append, hparts, hstep, ok_bind, hrest]

theorem cookies_eq (htext : CookiesText http headers) :
    cookiesNamed http headers name =
      ((http.getAll headers .cookie).flatMap (cookieParts http)).flatMap fun cookie =>
        (namedCookie name cookie).toList := by
  rw [cookiesNamed, List.flatMap_assoc]
  refine List.flatMap_congr fun header hheader => ?_
  obtain ⟨text, hheader⟩ := Option.isSome_iff_exists.1 (htext header hheader)
  rw [headerCookies, cookieParts, hheader, Option.getD_some]

theorem cookieValue_eq (htext : CookiesText http headers) :
    cookieValue (ε := ε) http headers name = onlyCookie (cookiesNamed http headers name) := by
  rw [cookieValue, foldlM_headers htext, foldlM_cookieStep_none, cookies_eq htext]

end Cookies

section Extraction
variable {ε : Type} {http : Headers.Library HeaderName} {headers : http.Map} {development : Bool}

theorem onlyCookie_append {α : Type} (hosts developments : List String)
    (next : Option String → Except (HttpBoundaryError ε) α) :
    (do
      let hostCookie ← onlyCookie hosts
      let developmentCookie ← onlyCookie developments
      if hostCookie.isSome ∧ developmentCookie.isSome then .error .invalidCredentials
      else next (hostCookie.or developmentCookie)) = onlyCookie (hosts ++ developments) >>= next := by
  cases hosts with
  | nil =>
    simp only [onlyCookie, ok_bind, List.nil_append]
    refine congrArg _ (funext fun cookie => ?_)
    simp
  | cons host hosts =>
    rw [List.cons_append, onlyCookie_cons, onlyCookie_cons]
    by_cases hhost : host = ""
    · simp only [if_pos hhost, error_bind]
    simp only [if_neg hhost]
    cases hosts with
    | cons _ _ => simp [error_bind]
    | nil =>
      cases developments with
      | nil => simp [onlyCookie, ok_bind]
      | cons other rest =>
        rw [onlyCookie_cons]
        by_cases hother : other = "" <;> by_cases hrest : rest = [] <;> simp [hother, hrest, error_bind, ok_bind]

/-- One source at most. -/
def onlyCredential : List (Option HttpCredential) → Except (HttpBoundaryError ε) (Option HttpCredential)
  | [] => .ok none
  | [credential] => (okOr .invalidCredentials credential).map some
  | _ => .error .invalidCredentials

theorem onlyCookie_bind_pure (cookies : List String) :
    (do return (← onlyCookie (ε := ε) cookies).map HttpCredential.sessionCookie) =
      onlyCredential (cookies.map fun value => if value = "" then none else some (.sessionCookie value)) := by
  cases cookies with
  | nil => rfl
  | cons value rest =>
    rw [onlyCookie_cons]
    by_cases hvalue : value = ""
    · cases rest <;> simp [hvalue, onlyCredential, okOr, Except.map]
    · cases rest <;> simp [hvalue, error_bind, ok_bind, onlyCredential, okOr, Except.map, pure, Except.pure]

theorem credentialSources_map_credential :
    (credentialSources http headers development).map (CredentialSource.credential http) =
      (http.getAll headers .authorization).map (fun value => (CredentialSource.authorization value).credential http) ++
        (cookiesNamed http headers "__Host-session" ++
          if development then cookiesNamed http headers "wasi_auth_dev_session" else []).map fun value =>
            if value = "" then none else some (.sessionCookie value) := by
  cases development <;>
    simp only [credentialSources, List.map_append, List.map_map, List.append_assoc, if_true, Bool.false_eq_true,
      if_false, List.map_nil] <;> rfl

/-- The end of `credential`, where the cookies are read. -/
def chosenCredential (http : Headers.Library HeaderName) (authorization : Option Bytes) (sessionCookie : Option String) :
    Except (HttpBoundaryError ε) (Option HttpCredential) :=
  match authorization with
  | some value =>
    if sessionCookie.isSome then .error .invalidCredentials
    else do
      let text ← okOr .invalidCredentials (http.toStr value)
      if "Bearer ".toList.isPrefixOf text.toList ∧ text.toList.drop 7 ≠ [] then
        pure (some (.bearer (String.ofList (text.toList.drop 7))))
      else .error .invalidCredentials
  | none => pure (sessionCookie.map .sessionCookie)

theorem credential_eq_bind (htext : CookiesText http headers) :
    credential (ε := ε) http headers development =
      if 1 < (http.getAll headers .authorization).length then .error .invalidCredentials
      else onlyCookie (cookiesNamed http headers "__Host-session" ++
        if development then cookiesNamed http headers "wasi_auth_dev_session" else []) >>=
          chosenCredential http (http.getAll headers .authorization).head? := by
  rw [credential, cookieValue_eq htext, cookieValue_eq htext]
  refine congrArg (ite _ _) ?_
  cases development with
  | false => exact onlyCookie_append _ [] (chosenCredential http _)
  | true => exact onlyCookie_append _ _ (chosenCredential http _)

theorem chosenCredential_some_none (value : Bytes) :
    chosenCredential (ε := ε) http (some value) none =
      onlyCredential [(CredentialSource.authorization value).credential http] := by
  cases htext : http.toStr value with
  | none => simp [chosenCredential, onlyCredential, CredentialSource.credential, htext, okOr, error_bind, Except.map]
  | some text =>
    simp only [chosenCredential, onlyCredential, CredentialSource.credential, htext, okOr, ok_bind, Option.bind_some,
      Option.isSome_none, Bool.false_eq_true, if_false]
    by_cases hbearer : "Bearer ".toList.isPrefixOf text.toList ∧ text.toList.drop 7 ≠ []
    · rw [if_pos hbearer, if_pos hbearer]
      rfl
    · rw [if_neg hbearer, if_neg hbearer]
      rfl

theorem credential_eq (htext : CookiesText http headers) :
    credential (ε := ε) http headers development =
      onlyCredential ((credentialSources http headers development).map (CredentialSource.credential http)) := by
  rw [credentialSources_map_credential, credential_eq_bind htext]
  generalize cookiesNamed http headers "__Host-session" ++
    (if development then cookiesNamed http headers "wasi_auth_dev_session" else []) = cookies
  rcases http.getAll headers .authorization with _ | ⟨value, _ | ⟨other, rest⟩⟩
  · exact onlyCookie_bind_pure cookies
  · -- a cookie beside the Authorization header is one credential too many
    cases cookies with
    | nil => exact chosenCredential_some_none value
    | cons cookie cookies =>
      rw [onlyCookie_cons]
      by_cases hcookie : cookie = "" <;> by_cases hcookies : cookies = [] <;>
        simp [hcookie, hcookies, onlyCredential, chosenCredential, error_bind, ok_bind]
  · simp [onlyCredential]

variable (ε http headers development)

/-- The sources of all headers are counted: without one there is no credential, with one it is the credential if it is
well formed, and anything else is refused. -/
theorem credential_counts_sources (htext : CookiesText http headers) :
    (credential (ε := ε) http headers development = .ok none ↔ (credentialSources http headers development).length = 0) ∧
    (∀ found, credential (ε := ε) http headers development = .ok (some found) ↔
      (credentialSources http headers development).length = 1 ∧
        ∃ source ∈ credentialSources http headers development, source.credential http = some found) ∧
    (credential (ε := ε) http headers development = .error .invalidCredentials ↔
      (credentialSources http headers development).length ≠ 0 ∧
        ¬ ((credentialSources http headers development).length = 1 ∧
          ∃ source ∈ credentialSources http headers development, (source.credential http).isSome)) := by
  rw [credential_eq htext]
  rcases credentialSources http headers development with _ | ⟨source, _ | ⟨other, rest⟩⟩
  · simp [onlyCredential]
  · cases hsource : source.credential http <;> simp [onlyCredential, hsource, okOr, Except.map]
  · simp [onlyCredential]

/-- Two cookie headers, of which the second holds the session between two other cookies. -/
def twoCookieHeaders : List (HeaderName × Bytes) :=
  [(.cookie, utf8Bytes "theme=dark"), (.cookie, utf8Bytes "lang=en; __Host-session=opaque; flag")]

theorem twoCookieHeaders_session :
    credential (ε := Unit) .fields twoCookieHeaders true = .ok (some (.sessionCookie "opaque")) :=
  ((credential_counts_sources Unit .fields twoCookieHeaders true (by unfold CookiesText; decide +kernel)).2.1 _).2
    (by decide +kernel)

-- the same cookie in both headers is refused
example : credential (ε := Unit) .fields ((.cookie, utf8Bytes "__Host-session=opaque") :: twoCookieHeaders) true =
    .error .invalidCredentials := by
  decide +kernel

end Extraction

end WasiAuth
