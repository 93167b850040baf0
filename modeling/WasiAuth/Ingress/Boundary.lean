import WasiAuth.Base.Headers
import WasiAuth.Identity.Values
import WasiAuth.Ingress.Caches

/-! # The HTTP boundary

A mutation that carries a session cookie is let through with the origin and the CSRF token of the browser application
where the route's policy asks for them. Two of the six policies do, and of these one gives no context at all to a
request with a credential; "the application owns cookie and CSRF policy" (SUPPORT.md:72-73), and the native ingress
authenticates every request with `Optional` (trusted-ingress main.rs:458).

The authenticator is a parameter, and so is the `http` crate (`Headers.Library`): reading a header value as a text and
looking up the values of a name.
-/

namespace WasiAuth

open Relational

/-! ## Headers -/

/-- The names the boundary reads; names are compared without case. -/
inductive HeaderName
  | contentLength | requestId | authorization | cookie | origin | csrf
  | other (name : String)
deriving DecidableEq

/-- The parts of a request that the boundary reads. -/
structure HttpRequest (Map : Type) where
  method : Method
  headers : Map

/-! ## What the boundary asks -/

/-- http.rs:512 -/
inductive HttpBoundaryError (ε : Type)
  | bodyTooLarge | invalidContentLength | invalidRequestId | invalidCredentials | missingCredentials
  | authenticator (error : ε)
  | invalidContext (error : ContextError)
  | insufficientAssurance | csrf
deriving DecidableEq

/-- `Credential`, as it stands in the request. -/
inductive HttpCredential
  | bearer (token : String)
  | sessionCookie (value : String)
deriving DecidableEq

/-- http.rs:613 -/
inductive RoutePolicy
  /-- `Public`. -/
  | publicRoute
  | publicForm | optional | authenticated | sessionMutation | stepUp
deriving DecidableEq

/-- http.rs:629 -/
def RoutePolicy.requiredAssurance : RoutePolicy → Option AuthenticationAssurance
  | .publicRoute | .publicForm | .optional => none
  | .authenticated | .sessionMutation => some .aal1
  | .stepUp => some .aal2

/-- context.rs:136 -/
def AuthenticationAssurance.satisfies : (self required : AuthenticationAssurance) → Bool
  | .aal1, .aal2 => false
  | _, _ => true

/-- The origins `with_development_session_cookie` takes. -/
def isLoopbackOrigin (origin : String) : Bool :=
  ["http://localhost", "http://127.0.0.1", "http://[::1]"].any fun loopback => loopback.toList.isPrefixOf origin.toList

/-- http.rs:640 -/
structure TrustedIngressConfig where
  maxRequestBodyBytes : Nat
  allowedBrowserOrigin : String
  allowDevelopmentSessionCookie : Bool
  validOrigin : (decide (allowedBrowserOrigin ≠ "") && !allowedBrowserOrigin.toList.any isControl) = true
  developmentOrigin : allowDevelopmentSessionCookie = true → isLoopbackOrigin allowedBrowserOrigin = true

/-- http.rs:576 -/
structure AuthenticatedSession where
  principal : Principal
  organizationId : Option OrganizationId
  sessionId : SessionId
  assurance : AuthenticationAssurance
  issuedAtUnixSeconds : Nat
  expiresAtUnixSeconds : Nat
  decisionId : Option DecisionId
  policyRevision : Option PolicyRevision
  authorization : AuthorizationSnapshot

section Checks
variable {ε : Type} (http : Headers.Library HeaderName)

/-- `str::parse::<usize>`: a plus sign is taken. -/
def parseUsize (text : String) : Option Nat :=
  let digits := if text.toList.head? = some '+' then text.toList.tail else text.toList
  if digits ≠ [] ∧ digits.all Char.isDigit then
    (some (Nat.ofDigitChars 10 digits 0)).filter fun n => decide (n < 2 ^ 64)
  else none

/-- http.rs:866 -/
def validateContentLength (headers : http.Map) (limit : Nat) : Except (HttpBoundaryError ε) Unit :=
  match http.getAll headers .contentLength with
  | [] => .ok ()
  | [value] => do
    let length ← okOr .invalidContentLength ((http.toStr value).bind parseUsize)
    if limit < length then .error .bodyTooLarge else .ok ()
  | _ => .error .invalidContentLength

/-- http.rs:889 -/
def requestId (headers : http.Map) : Except (HttpBoundaryError ε) RequestId :=
  match http.getAll headers .requestId with
  | [value] => do
    let text ← okOr .invalidRequestId (http.toStr value)
    (Identifier.new text).mapError fun _ => .invalidRequestId
  | _ => .error .invalidRequestId

/-- `cookie.trim().split_once('=')`. -/
def cookiePair (cookie : List Char) : Option (String × String) :=
  (Text.splitOnce '=' (trim (String.ofList cookie)).toList).map fun (name, value) =>
    (String.ofList name, String.ofList value)

/-- One round of the loop over the cookies: a second cookie of the name, or an empty one, is an error. -/
def cookieStep (name : String) (found : Option String) (cookie : List Char) :
    Except (HttpBoundaryError ε) (Option String) :=
  match cookiePair cookie with
  | none => .ok found
  | some (cookieName, value) =>
    if cookieName = name then
      if found.isSome ∨ value = "" then .error .invalidCredentials else .ok (some value)
    else .ok found

/-- http.rs:947 -/
def cookieValue (headers : http.Map) (name : String) : Except (HttpBoundaryError ε) (Option String) :=
  (http.getAll headers .cookie).foldlM (fun found header => do
    let text ← okOr .invalidCredentials (http.toStr header)
    (text.toList.splitOn ';').foldlM (cookieStep name) found) none

/-- http.rs:908 -/
def credential (headers : http.Map) (allowDevelopmentSessionCookie : Bool) :
    Except (HttpBoundaryError ε) (Option HttpCredential) :=
  let authorization := http.getAll headers .authorization
  if 1 < authorization.length then .error .invalidCredentials
  else do
    let hostCookie ← cookieValue http headers "__Host-session"
    let developmentCookie ←
      if allowDevelopmentSessionCookie then cookieValue http headers "wasi_auth_dev_session" else .ok none
    if hostCookie.isSome ∧ developmentCookie.isSome then .error .invalidCredentials
    else
      let sessionCookie := hostCookie.or developmentCookie
      match authorization.head? with
      | some value =>
        if sessionCookie.isSome then .error .invalidCredentials
        else do
          let text ← okOr .invalidCredentials (http.toStr value)
          if "Bearer ".toList.isPrefixOf text.toList ∧ text.toList.drop 7 ≠ [] then
            pure (some (.bearer (String.ofList (text.toList.drop 7))))
          else .error .invalidCredentials
      | none => pure (sessionCookie.map .sessionCookie)

/-- http.rs:971 -/
def requiresCsrf (method : Method) : Bool := !decide (method = .get ∨ method = .head ∨ method = .options)

/-- http.rs:975 -/
def validateCsrf (headers : http.Map) (allowedOrigin : String) : Except (HttpBoundaryError ε) Unit := do
  let origin ← okOr .csrf (((http.get headers .origin).bind http.toStr).filter fun origin =>
    decide (origin = allowedOrigin))
  if origin ≠ allowedOrigin then .error .csrf
  else do
    let headerToken ← okOr .csrf ((http.get headers .csrf).bind http.toStr)
    let cookie ← cookieValue http headers "__Host-csrf"
    let cookieToken ← okOr .csrf cookie
    if headerToken.utf8ByteSize < 32 ∨ headerToken ≠ cookieToken then .error .csrf else .ok ()

end Checks

/-! ## The boundary -/

section Boundary
variable {ε : Type} (http : Headers.Library HeaderName)

/-- The context of the credential's session; the last half of `authenticate_request` (758-801). -/
def contextOf (authenticate : HttpCredential → Except ε AuthenticatedSession) (nowUnixSeconds : Nat)
    (policy : RoutePolicy) (requestId : RequestId) :
    Option HttpCredential → Except (HttpBoundaryError ε) (Option VerifiedRequestContext)
  | none =>
    if policy = .publicRoute ∨ policy = .publicForm ∨ policy = .optional then .ok none else .error .missingCredentials
  | some credential =>
    if policy = .publicRoute ∨ policy = .publicForm then .error .invalidCredentials
    else do
      let session ← (authenticate credential).mapError .authenticator
      if session.expiresAtUnixSeconds ≤ nowUnixSeconds then .error (.invalidContext .invalidLifetime)
      else if policy.requiredAssurance.any fun required => !session.assurance.satisfies required then
        .error .insufficientAssurance
      else do
        let auth ← (VerifiedAuthContext.fromValidated {
          principal := session.principal
          organizationId := session.organizationId
          sessionId := session.sessionId
          requestId := requestId
          assurance := session.assurance
          issuedAtUnixSeconds := session.issuedAtUnixSeconds
          expiresAtUnixSeconds := session.expiresAtUnixSeconds
          decisionId := session.decisionId
          policyRevision := session.policyRevision }).mapError .invalidContext
        pure (some ⟨auth, session.authorization⟩)

def HttpCredential.isBearer : HttpCredential → Bool
  | .bearer _ => true
  | .sessionCookie _ => false

/-- `browser_mutation`. -/
def browserMutation (method : Method) (policy : RoutePolicy) (credential : Option HttpCredential) : Bool :=
  requiresCsrf method && decide (policy = .publicForm ∨ policy = .sessionMutation) &&
    !credential.any HttpCredential.isBearer

/-- http.rs:739 -/
def authenticateRequest (config : TrustedIngressConfig) (authenticate : HttpCredential → Except ε AuthenticatedSession)
    (nowUnixSeconds : Nat) (request : HttpRequest http.Map) (policy : RoutePolicy) :
    Except (HttpBoundaryError ε) (Option VerifiedRequestContext) := do
  validateContentLength http request.headers config.maxRequestBodyBytes
  let requestId ← requestId http request.headers
  let credential ← credential http request.headers config.allowDevelopmentSessionCookie
  if browserMutation request.method policy credential then
    validateCsrf http request.headers config.allowedBrowserOrigin
  contextOf authenticate nowUnixSeconds policy requestId credential

/-! ## What a context went through -/

def namedCookie (name : String) (cookie : List Char) : Option String :=
  (cookiePair cookie).bind fun (cookieName, value) => if cookieName = name then some value else none

def headerCookies (name : String) (header : Bytes) : List String :=
  match http.toStr header with
  | none => []
  | some text => (text.toList.splitOn ';').flatMap fun cookie => (namedCookie name cookie).toList

/-- The cookies of a name, over all headers. -/
def cookiesNamed (headers : http.Map) (name : String) : List String :=
  (http.getAll headers .cookie).flatMap (headerCookies http name)

/-- The request names the browser application as its origin and repeats its only CSRF cookie in the header. -/
structure CsrfPassed (config : TrustedIngressConfig) (headers : http.Map) : Prop where
  origin : (http.get headers .origin).bind http.toStr = some config.allowedBrowserOrigin
  token : ∃ token, (http.get headers .csrf).bind http.toStr = some token ∧
    cookiesNamed http headers "__Host-csrf" = [token] ∧
    32 ≤ token.utf8ByteSize

variable {http} {config : TrustedIngressConfig} {headers : http.Map}

theorem cookieStep_eq_ok {name : String} (found : Option String) (cookie : List Char) (found' : Option String)
    (h : cookieStep (ε := ε) name found cookie = .ok found') :
    found'.toList = found.toList ++ (namedCookie name cookie).toList := by
  unfold cookieStep at h
  cases hpair : cookiePair cookie with
  | none =>
    rw [hpair] at h
    cases h
    simp [namedCookie, hpair]
  | some pair =>
    obtain ⟨cookieName, value⟩ := pair
    by_cases hname : cookieName = name
    · simp only [hpair, if_pos hname] at h
      -- a second cookie of the name ends the loop, so nothing was found before
      cases found with
      | some _ => simp at h
      | none =>
        split at h
        · cases h
        · cases h
          simp [namedCookie, hpair, hname]
    · simp only [hpair, if_neg hname] at h
      cases h
      simp [namedCookie, hpair, hname]

theorem cookies_of_cookieValue {name : String} {found : Option String}
    (h : cookieValue (ε := ε) http headers name = .ok found) : cookiesNamed http headers name = found.toList := by
  have hall := foldlM_collects (m := Option.toList) (g := headerCookies http name) (fun found header found' h => by
    obtain ⟨text, htext, h⟩ := bind_eq_ok.1 h
    rw [okOr_eq_ok] at htext
    rw [foldlM_collects cookieStep_eq_ok h, headerCookies, htext]) h
  exact hall.symm

theorem csrfPassed_of_validateCsrf
    (h : validateCsrf (ε := ε) http headers config.allowedBrowserOrigin = .ok ()) : CsrfPassed http config headers := by
  simp only [validateCsrf, bind_eq_ok, okOr_eq_ok, Option.filter_eq_some_iff, decide_eq_true_eq] at h
  obtain ⟨origin, ⟨horigin, rfl⟩, h⟩ := h
  rw [if_neg (not_not.2 rfl)] at h
  simp only [bind_eq_ok, okOr_eq_ok] at h
  obtain ⟨token, htoken, _, hcookie, cookieToken, rfl, h⟩ := h
  split at h
  · cases h
  next hsame =>
    obtain ⟨hlength, hsame⟩ := not_or.1 hsame
    refine ⟨horigin, token, htoken, ?_, Nat.le_of_not_lt hlength⟩
    rw [cookies_of_cookieValue hcookie, ← not_not.1 hsame]
    rfl

theorem authenticateRequest_eq_ok {authenticate : HttpCredential → Except ε AuthenticatedSession} {now : Nat}
    {request : HttpRequest http.Map} {policy : RoutePolicy} {context : VerifiedRequestContext} {value : String}
    (hcookie : credential (ε := ε) http request.headers config.allowDevelopmentSessionCookie =
      .ok (some (.sessionCookie value)))
    (h : authenticateRequest http config authenticate now request policy = .ok (some context)) :
    policy ≠ .publicRoute ∧ policy ≠ .publicForm ∧
      (requiresCsrf request.method = true → policy = .sessionMutation → CsrfPassed http config request.headers) := by
  simp only [authenticateRequest, bind_eq_ok, hcookie] at h
  obtain ⟨_, -, _, -, _, hc, h⟩ := h
  cases hc
  have hcontext : ∃ requestId, contextOf authenticate now policy requestId (some (.sessionCookie value)) =
      .ok (some context) := by
    split at h
    · obtain ⟨_, -, h⟩ := bind_eq_ok.1 h
      exact ⟨_, h⟩
    · exact ⟨_, h⟩
  obtain ⟨_, hcontext⟩ := hcontext
  simp only [contextOf] at hcontext
  split at hcontext
  · cases hcontext
  next hpolicy =>
    obtain ⟨hpublic, hform⟩ := not_or.1 hpolicy
    refine ⟨hpublic, hform, fun hmutation hsession => ?_⟩
    rw [if_pos (by simp [browserMutation, hmutation, hsession, HttpCredential.isBearer])] at h
    obtain ⟨_, hcsrf, -⟩ := bind_eq_ok.1 h
    exact csrfPassed_of_validateCsrf hcsrf

end Boundary

/-! ## Mutations with a session cookie -/

/-- A form post from anywhere: the browser adds the session cookie, and nothing names an origin. -/
def crossSitePost (http : Headers.Library HeaderName) : HttpRequest http.Map :=
  ⟨.post, http.insert (http.insert http.empty .requestId (utf8Bytes "request-1")) .cookie
    (utf8Bytes "__Host-session=opaque")⟩

def steppedUpSession : AuthenticatedSession where
  principal := ⟨⟨"user-1", by decide +kernel⟩, "https://issuer.example", false, by decide +kernel⟩
  organizationId := none
  sessionId := ⟨"session-1", by decide +kernel⟩
  assurance := .aal2
  issuedAtUnixSeconds := 0
  expiresAtUnixSeconds := 60
  decisionId := none
  policyRevision := none
  authorization := ⟨[], [], none, none, rfl, rfl, rfl, rfl⟩

section CrossSite
variable (http : Headers.Library HeaderName)

theorem getAll_crossSitePost {name : HeaderName} (hid : name ≠ .requestId) (hcookie : name ≠ .cookie) :
    http.getAll (crossSitePost http).headers name = [] := by
  rw [crossSitePost, http.getAll_insert_of_ne _ _ _ _ hcookie, http.getAll_insert_of_ne _ _ _ _ hid, http.getAll_empty]

theorem requestId_crossSitePost :
    requestId (ε := Unit) http (crossSitePost http).headers = .ok ⟨"request-1", by decide +kernel⟩ := by
  have hvalue : http.getAll (crossSitePost http).headers .requestId = [utf8Bytes "request-1"] := by
    rw [crossSitePost, http.getAll_insert_of_ne _ _ _ _ (by decide), http.getAll_insert_self]
  have htext : http.toStr (utf8Bytes "request-1") = some "request-1" := by
    rw [utf8Bytes_eq, http.toStr_visible _ (by decide)]
  simp only [requestId, hvalue, htext, okOr, ok_bind]
  decide +kernel

theorem credential_crossSitePost (development : Bool) :
    credential (ε := Unit) http (crossSitePost http).headers development = .ok (some (.sessionCookie "opaque")) := by
  have hvalue : http.getAll (crossSitePost http).headers .cookie = [utf8Bytes "__Host-session=opaque"] :=
    http.getAll_insert_self _ _ _
  have htext : http.toStr (utf8Bytes "__Host-session=opaque") = some "__Host-session=opaque" := by
    rw [utf8Bytes_eq, http.toStr_visible _ (by decide)]
  have hcookie (name : String) : cookieValue (ε := Unit) http (crossSitePost http).headers name =
      ("__Host-session=opaque".toList.splitOn ';').foldlM (cookieStep name) none := by
    simp only [cookieValue, hvalue, List.foldlM_cons, List.foldlM_nil, htext, okOr, ok_bind, bind_pure]
  have hhost : cookieValue (ε := Unit) http (crossSitePost http).headers "__Host-session" = .ok (some "opaque") := by
    rw [hcookie]
    decide +kernel
  have hdevelopment : cookieValue (ε := Unit) http (crossSitePost http).headers "wasi_auth_dev_session" = .ok none := by
    rw [hcookie]
    decide +kernel
  have hnone : http.getAll (crossSitePost http).headers .authorization = [] :=
    getAll_crossSitePost http (by decide) (by decide)
  simp only [credential, hnone, hhost, hdevelopment, ok_bind]
  cases development <;> rfl

/-- Under a policy that does not ask for the token, the post is answered with the session's context. -/
theorem authenticateRequest_crossSitePost (config : TrustedIngressConfig) {policy : RoutePolicy}
    (hpolicy : policy = .optional ∨ policy = .authenticated ∨ policy = .stepUp) :
    ∃ context, authenticateRequest (ε := Unit) http config (fun _ => .ok steppedUpSession) 0 (crossSitePost http)
      policy = .ok (some context) := by
  have hlength : validateContentLength (ε := Unit) http (crossSitePost http).headers config.maxRequestBodyBytes =
      .ok () := by
    rw [validateContentLength, getAll_crossSitePost http (by decide) (by decide)]
  have hguard : browserMutation (crossSitePost http).method policy (some (.sessionCookie "opaque")) = false := by
    rcases hpolicy with rfl | rfl | rfl <;> rfl
  simp only [authenticateRequest, hlength, requestId_crossSitePost, credential_crossSitePost, ok_bind, hguard]
  rcases hpolicy with rfl | rfl | rfl <;> exact ⟨_, rfl⟩

theorem get_crossSitePost {name : HeaderName} (hid : name ≠ .requestId) (hcookie : name ≠ .cookie) :
    http.get (crossSitePost http).headers name = none := by
  rw [Headers.Library.get, getAll_crossSitePost http hid hcookie, List.head?_nil]

theorem not_csrfPassed_crossSitePost (config : TrustedIngressConfig) :
    ¬ CsrfPassed http config (crossSitePost http).headers := by
  intro h
  have horigin := h.origin
  rw [get_crossSitePost http (by decide) (by decide)] at horigin
  cases horigin

end CrossSite

/-- A mutation with a session cookie is answered with a context only if it passes the origin and CSRF checks, exactly
under the policies that ask for them or take no credential. -/
theorem cookie_mutation_guarded_iff (http : Headers.Library HeaderName) (config : TrustedIngressConfig)
    (policy : RoutePolicy) :
    (∀ (ε : Type) (authenticate : HttpCredential → Except ε AuthenticatedSession) (now : Nat)
      (request : HttpRequest http.Map) (value : String) (context : VerifiedRequestContext),
      credential (ε := ε) http request.headers config.allowDevelopmentSessionCookie =
        .ok (some (.sessionCookie value)) →
      request.method ∉ [.get, .head, .options] →
      authenticateRequest http config authenticate now request policy = .ok (some context) →
        CsrfPassed http config request.headers) ↔
      policy = .publicRoute ∨ policy = .publicForm ∨ policy = .sessionMutation := by
  constructor
  · intro h
    by_contra hpolicy
    have hrest : policy = .optional ∨ policy = .authenticated ∨ policy = .stepUp := by
      cases policy <;> simp at hpolicy ⊢
    obtain ⟨context, hcontext⟩ := authenticateRequest_crossSitePost http config hrest
    exact not_csrfPassed_crossSitePost http config
      (h Unit _ 0 (crossSitePost http) "opaque" context (credential_crossSitePost http _) (by simp [crossSitePost])
        hcontext)
  · intro hpolicy ε authenticate now request value context hcookie hmethod h
    obtain ⟨hpublic, hform, hchecked⟩ := authenticateRequest_eq_ok hcookie h
    have hsession : policy = .sessionMutation := (hpolicy.resolve_left hpublic).resolve_left hform
    exact hchecked (by simpa [requiresCsrf] using hmethod) hsession

-- the post of the application itself passes
example : (authenticateRequest (ε := Unit) .fields ⟨1024, "https://app.example", false, by decide +kernel, nofun⟩
    (fun _ => .ok steppedUpSession) 0 ⟨.post, [(.requestId, utf8Bytes "request-1"),
      (.cookie, utf8Bytes "__Host-session=opaque; __Host-csrf=0123456789abcdef0123456789abcdef"),
      (.origin, utf8Bytes "https://app.example"), (.csrf, utf8Bytes "0123456789abcdef0123456789abcdef")]⟩
    .sessionMutation).isOk = true := by
  decide +kernel

/-- The policy of the native ingress gives the context of a session to a post from anywhere. -/
theorem exists_unguarded_mutation : ∃ (config : TrustedIngressConfig)
    (request : HttpRequest (List (HeaderName × Bytes))) (value : String) (context : VerifiedRequestContext),
    credential (ε := Unit) .fields request.headers config.allowDevelopmentSessionCookie =
      .ok (some (.sessionCookie value)) ∧
    request.method = .post ∧
    authenticateRequest (ε := Unit) .fields config (fun _ => .ok steppedUpSession) 0 request .optional =
      .ok (some context) ∧
    Headers.Library.get .fields request.headers .origin = none ∧
      Headers.Library.get .fields request.headers .csrf = none := by
  let config : TrustedIngressConfig := ⟨1024, "https://app.example", false, by decide +kernel, nofun⟩
  obtain ⟨context, hcontext⟩ := authenticateRequest_crossSitePost .fields config (.inl rfl)
  exact ⟨config, crossSitePost .fields, "opaque", context, credential_crossSitePost .fields _, rfl, hcontext,
    get_crossSitePost .fields (by decide) (by decide), get_crossSitePost .fields (by decide) (by decide)⟩

end WasiAuth
