import WasiAuth.Ingress.Boundary

/-! # The origins a policy is configured with

Outside https only loopback origins are meant to be taken, and only they switch the development session cookie on. Both
tests compare the start of the text with `http://localhost`, `http://127.0.0.1` and `http://[::1]`, so a host that
merely begins with one of the three names passes too.

The names the `http` crate accepts as methods and headers are parameters.
-/

namespace WasiAuth

/-! ## Configurations -/

/-- http.rs:349 -/
inductive CorsError
  | invalidConfiguration | preflightRejected
deriving DecidableEq

/-- What `Method::from_bytes` and `HeaderName::from_bytes` take. -/
structure HttpNames where
  validMethod : String → Bool
  validHeader : String → Bool

/-- http.rs:360 -/
structure CorsConfig where
  allowedOrigins : List String
  allowedMethods : List String
  allowedHeaders : List String
  allowCredentials : Bool
deriving DecidableEq

def startsWithHttps (origin : String) : Bool := "https://".toList.isPrefixOf origin.toList

/-- The test `CorsConfig::new` refuses an origin by. -/
def invalidCorsOrigin (origin : String) : Bool :=
  decide (origin = "*") || origin.toList.any isControl || (!startsWithHttps origin && !isLoopbackOrigin origin)

/-- http.rs:374 -/
def CorsConfig.new (names : HttpNames) (allowedOrigins allowedMethods allowedHeaders : List String)
    (allowCredentials : Bool) : Except CorsError CorsConfig :=
  let allowedOrigins := btreeSet allowedOrigins
  let allowedMethods := btreeSet (allowedMethods.map String.toUpper)
  let allowedHeaders := btreeSet (allowedHeaders.map String.toLower)
  if allowedOrigins.isEmpty || allowedMethods.isEmpty || allowedOrigins.any invalidCorsOrigin ||
      allowedMethods.any (fun method => !names.validMethod method) ||
      allowedHeaders.any (fun header => decide (header = "") || !names.validHeader header) then
    .error .invalidConfiguration
  else .ok ⟨allowedOrigins, allowedMethods, allowedHeaders, allowCredentials⟩

/-- `DEFAULT_MAX_REQUEST_BODY_BYTES`. -/
def defaultMaxRequestBodyBytes : Nat := 256 * 1024

/-- http.rs:653 -/
def TrustedIngressConfig.new (allowedBrowserOrigin : String) : Except ContextError TrustedIngressConfig :=
  if h : (decide (allowedBrowserOrigin ≠ "") && !allowedBrowserOrigin.toList.any isControl) = true then
    .ok ⟨defaultMaxRequestBodyBytes, allowedBrowserOrigin, false, h, nofun⟩
  else .error .invalidIdentifier

/-- http.rs:681 -/
def TrustedIngressConfig.withDevelopmentSessionCookie (self : TrustedIngressConfig) : TrustedIngressConfig :=
  { self with
    allowDevelopmentSessionCookie := isLoopbackOrigin self.allowedBrowserOrigin
    developmentOrigin := id }

/-! ## Origins by their grammar

An origin is a scheme, a host and an optional port; a host in brackets may hold colons. -/

def isOriginPort : List Char → Bool
  | [] => true
  | c :: digits => decide (c = ':') && digits.all Char.isDigit

def splitAuthority : List Char → Option (List Char × List Char)
  | '[' :: rest => (Text.splitOnce ']' rest).map fun split => ('[' :: split.1 ++ [']'], split.2)
  | authority => some (authority.takeWhile (· ≠ ':'), authority.dropWhile (· ≠ ':'))

/-- The host of an http origin. -/
def httpOriginHost (origin : String) : Option String :=
  if "http://".toList.isPrefixOf origin.toList then
    (splitAuthority (origin.toList.drop 7)).bind fun split =>
      if split.1 ≠ [] ∧ split.1.all (fun c => decide (c ∉ "/?#@\\".toList)) ∧ isOriginPort split.2 then
        some (String.ofList split.1)
      else none
  else none

def loopbackHosts : List String := ["localhost", "127.0.0.1", "[::1]"]

/-- An http origin whose host is exactly one of the loopback names. -/
def IsLoopbackHttpOrigin (origin : String) : Prop := ∃ host ∈ loopbackHosts, httpOriginHost origin = some host

def afterLoopback (origin : String) : List Char :=
  origin.toList.drop (7 + ((loopbackHosts.find? fun host => ("http://" ++ host).toList.isPrefixOf origin.toList).getD
    "").toList.length)

section Grammar
variable {origin : String} {host rest : List Char}

theorem exists_rest_of_isLoopbackOrigin (h : isLoopbackOrigin origin = true) :
    ∃ host ∈ loopbackHosts, ∃ rest, origin.toList = "http://".toList ++ (host.toList ++ rest) := by
  obtain ⟨loopback, hmem, hprefix⟩ := List.any_eq_true.1 h
  obtain ⟨rest, hrest⟩ := List.isPrefixOf_iff_prefix.1 hprefix
  simp only [List.mem_cons, List.not_mem_nil, or_false] at hmem
  rcases hmem with rfl | rfl | rfl
  · exact ⟨"localhost", by decide, rest, by rw [← hrest]; rfl⟩
  · exact ⟨"127.0.0.1", by decide, rest, by rw [← hrest]; rfl⟩
  · exact ⟨"[::1]", by decide, rest, by rw [← hrest]; rfl⟩

theorem eq_nil_of_mem_loopbackHosts {host : String} {more : List Char} (h : host ∈ loopbackHosts)
    (hmore : String.ofList (host.toList ++ more) ∈ loopbackHosts) : more = [] := by
  have hall : ∀ a ∈ loopbackHosts, ∀ b ∈ loopbackHosts, a.toList <+: b.toList → a = b := by decide +kernel
  have hsame := hall _ h _ hmore (by rw [String.toList_ofList]; exact List.prefix_append _ _)
  have hlists := congrArg String.toList hsame
  rwa [String.toList_ofList, eq_comm, List.append_right_eq_self] at hlists

theorem afterLoopback_eq {host : String} (h : host ∈ loopbackHosts)
    (horigin : origin.toList = "http://".toList ++ (host.toList ++ rest)) : afterLoopback origin = rest := by
  simp only [loopbackHosts, List.mem_cons, List.not_mem_nil, or_false] at h
  rcases h with rfl | rfl | rfl <;> simp [afterLoopback, loopbackHosts, horigin]

theorem takeWhile_of_isOriginPort (h : isOriginPort rest = true) : rest.takeWhile (· ≠ ':') = [] := by
  cases rest with
  | nil => rfl
  | cons c digits =>
    rw [isOriginPort, Bool.and_eq_true, decide_eq_true_eq] at h
    simp [h.1]

theorem splitAuthority_name {c : Char} {name : List Char} (hbracket : c ≠ '[') (hcolon : ':' ∉ c :: name) :
    splitAuthority (c :: name ++ rest) = some (c :: name ++ rest.takeWhile (· ≠ ':'), rest.dropWhile (· ≠ ':')) := by
  have hname : ∀ x ∈ c :: name, decide (x ≠ ':') = true := fun x hx => decide_eq_true (ne_of_mem_of_not_mem hx hcolon)
  rw [← List.takeWhile_append_of_pos hname, ← List.dropWhile_append_of_pos hname, List.cons_append]
  unfold splitAuthority
  split
  next h => exact absurd (List.cons.inj h).1 hbracket
  next h => rfl

theorem splitAuthority_address {address : List Char} (h : ']' ∉ address) :
    splitAuthority ('[' :: (address ++ ']' :: rest)) = some ('[' :: address ++ [']'], rest) := by
  rw [splitAuthority, Text.splitOnce_append rest h]
  rfl

/-- The host of an authority that starts with a loopback name is the name and perhaps more; without more, what follows
is the port. -/
theorem splitAuthority_loopback {host : String} (h : host ∈ loopbackHosts) (rest : List Char) :
    ∃ more port, splitAuthority (host.toList ++ rest) = some (host.toList ++ more, port) ∧
      (isOriginPort rest = true → more = []) ∧ (more = [] → port = rest) := by
  have hname : ∀ (c : Char) (name : List Char), c ≠ '[' → ':' ∉ c :: name →
      ∃ more port, splitAuthority (c :: name ++ rest) = some (c :: name ++ more, port) ∧
        (isOriginPort rest = true → more = []) ∧ (more = [] → port = rest) := by
    intro c name hbracket hcolon
    refine ⟨_, _, splitAuthority_name hbracket hcolon, takeWhile_of_isOriginPort, fun hmore => ?_⟩
    have hall := List.takeWhile_append_dropWhile (p := (· ≠ ':')) (l := rest)
    rwa [hmore] at hall
  simp only [loopbackHosts, List.mem_cons, List.not_mem_nil, or_false] at h
  rcases h with rfl | rfl | rfl
  · exact hname 'l' "ocalhost".toList (by decide) (by decide)
  · exact hname '1' "27.0.0.1".toList (by decide) (by decide)
  · have haddress : ']' ∉ "::1".toList := by decide
    exact ⟨[], rest, splitAuthority_address haddress, fun _ => rfl, fun _ => rfl⟩

/-- The prefix test and the grammar agree exactly on the texts in which a port, or nothing, follows the name. -/
theorem isLoopbackHttpOrigin_iff_port {host : String} (h : host ∈ loopbackHosts)
    (horigin : origin.toList = "http://".toList ++ (host.toList ++ rest)) :
    IsLoopbackHttpOrigin origin ↔ isOriginPort rest = true := by
  obtain ⟨more, port, hsplit, hmore, hport⟩ := splitAuthority_loopback h rest
  have hauthority : origin.toList.drop 7 = host.toList ++ rest := by rw [horigin]; rfl
  have hscheme : "http://".toList.isPrefixOf origin.toList = true := by
    rw [horigin, List.isPrefixOf_iff_prefix]
    exact List.prefix_append _ _
  have hhost : httpOriginHost origin =
      if host.toList ++ more ≠ [] ∧ (host.toList ++ more).all (fun c => decide (c ∉ "/?#@\\".toList)) ∧
          isOriginPort port then
        some (String.ofList (host.toList ++ more)) else none := by
    rw [httpOriginHost, if_pos hscheme, hauthority, hsplit, Option.bind_some]
  constructor
  · rintro ⟨name, hname, hsome⟩
    rw [hhost, Option.ite_none_right_eq_some] at hsome
    obtain ⟨⟨-, -, hisPort⟩, hsame⟩ := hsome
    rw [← Option.some.inj hsame] at hname
    rwa [← hport (eq_nil_of_mem_loopbackHosts h hname)]
  · intro hisPort
    obtain rfl := hmore hisPort
    obtain rfl := hport rfl
    have hchars : ∀ name ∈ loopbackHosts,
        name.toList ≠ [] ∧ name.toList.all (fun c => decide (c ∉ "/?#@\\".toList)) = true := by
      decide +kernel
    refine ⟨host, h, ?_⟩
    rw [hhost, List.append_nil, if_pos ⟨(hchars host h).1, (hchars host h).2, hisPort⟩, String.ofList_toList]

end Grammar

/-! ## The two tests -/

/-- Some configuration with the origin is accepted. -/
def CorsConfig.Accepts (names : HttpNames) (origin : String) : Prop :=
  ∃ origins methods headers credentials config,
    CorsConfig.new names origins methods headers credentials = .ok config ∧ origin ∈ config.allowedOrigins

/-- A trusted ingress configured with the origin takes the development session cookie. -/
def EnablesDevelopmentSessionCookie (origin : String) : Prop :=
  ∃ config, TrustedIngressConfig.new origin = .ok config ∧
    config.withDevelopmentSessionCookie.allowDevelopmentSessionCookie = true

theorem isLoopbackOrigin_of_accepts {names : HttpNames} {origin : String} (h : CorsConfig.Accepts names origin)
    (hhttps : startsWithHttps origin = false) : isLoopbackOrigin origin = true := by
  obtain ⟨origins, methods, headers, credentials, config, hnew, hmem⟩ := h
  simp only [CorsConfig.new] at hnew
  split at hnew
  · cases hnew
  next hvalid =>
    cases hnew
    have horigins : ∀ o ∈ btreeSet origins, invalidCorsOrigin o = false := by
      simp only [Bool.or_eq_true, not_or, Bool.not_eq_true, List.any_eq_false] at hvalid
      exact hvalid.1.1.2
    have horigin := horigins origin hmem
    simp only [invalidCorsOrigin, hhttps, Bool.or_eq_false_iff, Bool.not_false, Bool.true_and, Bool.not_eq_false']
      at horigin
    exact horigin.2

theorem isLoopbackOrigin_of_enables {origin : String} (h : EnablesDevelopmentSessionCookie origin) :
    isLoopbackOrigin origin = true := by
  obtain ⟨config, hnew, hallow⟩ := h
  unfold TrustedIngressConfig.new at hnew
  split at hnew
  · cases hnew
    exact hallow
  · cases hnew

/-- An origin that a CORS policy takes outside https, or that switches the development cookie on, is an http origin of a
loopback host exactly when nothing but a port follows the loopback name in it. -/
theorem loopback_origin_iff_port (names : HttpNames) (origin : String)
    (h : CorsConfig.Accepts names origin ∧ startsWithHttps origin = false ∨ EnablesDevelopmentSessionCookie origin) :
    IsLoopbackHttpOrigin origin ↔ isOriginPort (afterLoopback origin) = true := by
  have hloopback : isLoopbackOrigin origin = true := by
    rcases h with ⟨haccepts, hhttps⟩ | henables
    · exact isLoopbackOrigin_of_accepts haccepts hhttps
    · exact isLoopbackOrigin_of_enables henables
  obtain ⟨host, hhost, rest, horigin⟩ := exists_rest_of_isLoopbackOrigin hloopback
  rw [afterLoopback_eq hhost horigin]
  exact isLoopbackHttpOrigin_iff_port hhost horigin

def anyNames : HttpNames := ⟨fun _ => true, fun _ => true⟩

theorem loopback_origin_with_port : IsLoopbackHttpOrigin "http://127.0.0.1:3008" :=
  (loopback_origin_iff_port anyNames "http://127.0.0.1:3008" (.inr ⟨_, rfl, by decide +kernel⟩)).2 (by decide +kernel)

/-- A host of someone else that begins with a loopback name is taken with credentials, and switches the cookie on. -/
theorem exists_foreign_loopback_origin : ∃ (config : CorsConfig) (origin : String),
    CorsConfig.new anyNames [origin] ["get"] [] true = .ok config ∧ origin ∈ config.allowedOrigins ∧
      startsWithHttps origin = false ∧ EnablesDevelopmentSessionCookie origin ∧
      httpOriginHost origin = some "localhost.evil.example" ∧ ¬ IsLoopbackHttpOrigin origin := by
  have hhost : httpOriginHost "http://localhost.evil.example" = some "localhost.evil.example" := by decide +kernel
  refine ⟨⟨["http://localhost.evil.example"], ["GET"], [], true⟩, "http://localhost.evil.example", by decide +kernel,
    by decide, by decide +kernel, ⟨_, rfl, by decide +kernel⟩, hhost, ?_⟩
  rintro ⟨host, hmem, hsome⟩
  rw [hhost] at hsome
  rw [← Option.some.inj hsome] at hmem
  exact absurd hmem (by decide)

end WasiAuth
