import WasiAuth.Identity.Session

/-! # Verifying an access token

The JWT library is a parameter: `headerKid` and `decode` stand for its functions, and `decode` reads the
system clock while the verifier reads its own. Every path starts with the same decoding; what differs is what
is asked of the database afterwards, and `verify_eq_ok` says what `verify` asks.
-/

namespace WasiAuth

open Relational

/-! ## Keys and claims -/

/-- authentication/jwt.rs:92, the claims `verify` reads. -/
structure AccessTokenClaims where
  sub : String
  tenantId : Option String
  sessionId : Option String
  iat : Nat
  exp : Nat
deriving DecidableEq

inductive JwtErrorKind
  | expiredSignature | other
deriving DecidableEq

/-- The functions of the JWT library: the `kid` of a well-formed header, and the claims of a token whose
signature, algorithm, issuer, audience and expiry pass at the system time. -/
structure Jwt (DecodingKey : Type) where
  headerKid : (token : String) → Option String
  decode : (token : String) → DecodingKey → (issuer audience : String) → SigningAlgorithm → (systemSeconds : Nat) →
    Except JwtErrorKind AccessTokenClaims

def isKidChar (c : Char) : Bool := c.isAlphanum || c == '.' || c == '_' || c == '-'

/-- tokens.rs:1226 -/
def validKid (value : String) : Bool :=
  decide (value ≠ "") && decide (value.utf8ByteSize ≤ 128) && value.toList.all isKidChar

/-- tokens.rs:166 -/
structure JwtKey (DecodingKey : Type) where
  kid : String
  status : SigningKeyStatus
  algorithm : SigningAlgorithm
  decoding : DecodingKey

/-- The key ring, as far as verification reads it. Both constructors check the key ids. -/
structure JwtKeyRing (DecodingKey : Type) where
  keys : List (JwtKey DecodingKey)
  validKids : ∀ key ∈ keys, validKid key.kid = true
  distinctKids : (keys.map JwtKey.kid).Nodup

variable {DecodingKey : Type}

/-- tokens.rs:386 -/
def JwtKeyRing.verification (ring : JwtKeyRing DecodingKey) (kid : String) : Option (JwtKey DecodingKey) :=
  ring.keys.find? fun key => decide (key.kid = kid ∧ key.status ≠ .revoked)

/-- The characters of a key id lie between the hyphen and `z`. -/
theorem bounds_of_isKidChar {c : Char} (h : isKidChar c = true) : 0x2d ≤ c.toNat ∧ c.toNat ≤ 0x7a := by
  simp only [isKidChar] at h
  delta Char.isAlphanum Char.isAlpha Char.isUpper Char.isLower Char.isDigit at h
  simp only [Bool.or_eq_true, Bool.and_eq_true, decide_eq_true_eq, beq_iff_eq, UInt32.le_iff_toNat_le] at h
  rcases h with ((h | rfl) | rfl) | rfl
  · simp at h
    omega
  all_goals decide

theorem isControl_of_isKidChar {c : Char} (h : isKidChar c = true) : isControl c = false := by
  have hbounds := bounds_of_isKidChar h
  exact isControl_of_bounds (by omega)

theorem isWhitespace_of_isKidChar {c : Char} (h : isKidChar c = true) : isWhitespace c = false := by
  have hbounds := bounds_of_isKidChar h
  exact isWhitespace_of_bounds (by omega)

theorem validSigningKeyId_of_validKid {kid : String} (h : validKid kid = true) : validSigningKeyId kid = true := by
  simp only [validKid, validSigningKeyId, Bool.and_eq_true, List.all_eq_true, Bool.not_eq_true',
    List.any_eq_false] at h ⊢
  exact ⟨h.1, fun c hc => by simp [isControl_of_isKidChar (h.2 c hc)]⟩

theorem validKid_of_verification {ring : JwtKeyRing DecodingKey} {kid : String} {key : JwtKey DecodingKey}
    (h : ring.verification kid = some key) : validKid kid = true := by
  have hkid := List.find?_some h
  simp only [decide_eq_true_eq] at hkid
  exact hkid.1 ▸ ring.validKids key (List.mem_of_find?_eq_some h)

/-! ## The verifier -/

/-- tokens.rs:1217 -/
def validIssuerAndAudience (issuer audience : String) : Bool :=
  decide (issuer ≠ "") && decide (issuer.utf8ByteSize ≤ 2048) && !issuer.toList.any isControl &&
    (decide (audience ≠ "") && decide (audience.utf8ByteSize ≤ 256) && !audience.toList.any isControl)

/-- tokens.rs:488 -/
structure AccessTokenVerifier (DecodingKey : Type) where
  jwt : Jwt DecodingKey
  keys : JwtKeyRing DecodingKey
  issuer : String
  audience : String
  valid : validIssuerAndAudience issuer audience = true

/-- The time of a call: on the verifier's clock and on the system clock the JWT library reads. -/
structure CallTime where
  nowUnixSeconds : Nat
  systemSeconds : Nat

inductive WorkflowError
  | invalidToken | sessionExpired
deriving DecidableEq

/-- tokens.rs:1272 -/
inductive TokenServiceError
  | invalidToken | expiredToken | transport
deriving DecidableEq

/-- tokens.rs:1106 -/
structure DecodedAccessToken where
  claims : AccessTokenClaims
  sessionId : SessionId
  kid : String
deriving DecidableEq

/-- `access_token_key_id`; a `kid` of blanks counts as none. -/
def accessTokenKeyId (jwt : Jwt DecodingKey) (token : String) : Option String :=
  (jwt.headerKid token).filter fun kid => kid.toList.any fun c => !isWhitespace c

/-- `jwt_error_to_auth_error`. -/
def JwtErrorKind.workflowError : JwtErrorKind → WorkflowError
  | .expiredSignature => .sessionExpired
  | .other => .invalidToken

/-- tokens.rs:1112 -/
def decodeVerifiedAccessToken (v : AccessTokenVerifier DecodingKey) (time : CallTime) (token : String) :
    Except WorkflowError DecodedAccessToken :=
  match accessTokenKeyId v.jwt token with
  | none => .error .invalidToken
  | some kid =>
    match v.keys.verification kid with
    | none => .error .invalidToken
    | some key =>
      match v.jwt.decode token key.decoding v.issuer v.audience key.algorithm time.systemSeconds with
      | .error kind => .error kind.workflowError
      | .ok claims =>
        match (claims.sessionId.map Identifier.new).bind Except.toOption with
        | none => .error .invalidToken
        | some sessionId => .ok ⟨claims, sessionId, kid⟩

theorem validKid_of_decode {v : AccessTokenVerifier DecodingKey} {time : CallTime} {token : String}
    {decoded : DecodedAccessToken} (h : decodeVerifiedAccessToken v time token = .ok decoded) :
    accessTokenKeyId v.jwt token = some decoded.kid ∧ validKid decoded.kid = true := by
  unfold decodeVerifiedAccessToken at h
  split at h
  · cases h
  · rename_i hkid
    split at h
    · cases h
    · rename_i hkey
      split at h
      · cases h
      · split at h <;> cases h
        exact ⟨hkid, validKid_of_verification hkey⟩

/-- tokens.rs:1133 -/
def mapAccessTokenDecodeError : WorkflowError → TokenServiceError
  | .sessionExpired => .expiredToken
  | .invalidToken => .invalidToken

/-- tokens.rs:1201 -/
def mapVerificationStoreError : StoreError → TokenServiceError
  | .transport => .transport
  | .context | .unauthenticated => .invalidToken

/-- tokens.rs:458 -/
structure VerifiedAccessToken where
  userId : String
  organizationId : Option String
  sessionId : String
  permissions : List String
  roleIds : List String
  policyRevision : Option String
  assurance : AuthenticationAssurance
  systemAdministrator : Bool
  issuedAtSeconds : Nat
  expiresAtSeconds : Nat
  authorizationFingerprint : AuthorizationFingerprint
deriving DecidableEq

/-- tokens.rs:1144 -/
def VerifiedAccessToken.matchesClaims (cached : VerifiedAccessToken) (decoded : DecodedAccessToken) : Bool :=
  decide (cached.userId = decoded.claims.sub) && decide (cached.sessionId = decoded.sessionId.value) &&
    decide (cached.organizationId = decoded.claims.tenantId)

def VerifiedAccessToken.reissued (cached : VerifiedAccessToken) (claims : AccessTokenClaims) : VerifiedAccessToken :=
  { cached with issuedAtSeconds := claims.iat, expiresAtSeconds := claims.exp }

/-- tokens.rs:1156 -/
def verifiedAccessToken (claims : AccessTokenClaims) (sessionId : SessionId) (session : VerifiedSession) :
    Except TokenServiceError VerifiedAccessToken :=
  let context := session.context
  if claims.sub ≠ context.auth.principal.userId.value ∨
      claims.tenantId ≠ context.auth.organizationId.map Identifier.value then .error .invalidToken
  else
    .ok {
      userId := claims.sub
      organizationId := context.auth.organizationId.map Identifier.value
      sessionId := sessionId.value
      permissions := context.authorization.permissions
      roleIds := context.authorization.roleIds.map Identifier.value
      policyRevision := context.authorization.policyRevision.map Identifier.value
      assurance := context.auth.assurance
      systemAdministrator := context.auth.principal.systemAdministrator
      issuedAtSeconds := claims.iat
      expiresAtSeconds := claims.exp
      authorizationFingerprint := session.authorizationFingerprint }

/-- The full load that both `verify` and a cache miss end with. -/
def verifyDecoded (time : CallTime) (requestId : RequestId) (decoded : DecodedAccessToken) (db : Db) :
    Except TokenServiceError VerifiedAccessToken := do
  let session ← (loadVerifiedSessionForToken decoded.sessionId requestId time.nowUnixSeconds decoded.kid db).mapError
    mapVerificationStoreError
  verifiedAccessToken decoded.claims decoded.sessionId session

/-- `verify_access_token` (tokens.rs:1079) -/
def verify (v : AccessTokenVerifier DecodingKey) (time : CallTime) (token : String) (requestId : RequestId) (db : Db) :
    Except TokenServiceError VerifiedAccessToken := do
  let decoded ← (decodeVerifiedAccessToken v time token).mapError mapAccessTokenDecodeError
  verifyDecoded time requestId decoded db

/-- tokens.rs:562 -/
def verifyCached (v : AccessTokenVerifier DecodingKey) (time : CallTime) (token : String) (requestId : RequestId)
    (cached : Option VerifiedAccessToken) (db : Db) : Except TokenServiceError VerifiedAccessToken := do
  let decoded ← (decodeVerifiedAccessToken v time token).mapError mapAccessTokenDecodeError
  match cached.filter (·.matchesClaims decoded) with
  | none => verifyDecoded time requestId decoded db
  | some cached =>
    let fingerprint ← (loadAuthorizationFingerprintForToken decoded.sessionId time.nowUnixSeconds decoded.kid db).mapError
      mapVerificationStoreError
    if cached.authorizationFingerprint = fingerprint then pure (cached.reissued decoded.claims)
    else verifyDecoded time requestId decoded db

structure AuthorizationInvalidationEpoch where
  trackerId : Nat
  generation : Nat
deriving DecidableEq

/-- tokens.rs:615; it asks the database nothing. -/
def verifyInvalidationCached (v : AccessTokenVerifier DecodingKey) (time : CallTime) (token : String)
    (cached : VerifiedAccessToken) (cachedEpoch currentEpoch : AuthorizationInvalidationEpoch) :
    Except TokenServiceError (Option VerifiedAccessToken) :=
  if cachedEpoch ≠ currentEpoch then .ok none
  else
    match decodeVerifiedAccessToken v time token with
    | .error e => .error (mapAccessTokenDecodeError e)
    | .ok decoded =>
      if decoded.claims.exp ≤ time.nowUnixSeconds then .error .expiredToken
      else if cached.matchesClaims decoded then .ok (some (cached.reissued decoded.claims))
      else .ok none

/-! ## What each path asks -/

section Paths

variable {v : AccessTokenVerifier DecodingKey} {time : CallTime} {token : String} {requestId : RequestId} {db : Db}
  {decoded : DecodedAccessToken} {cached value : VerifiedAccessToken}

def ContextRow.accessToken (row : ContextRow) (decoded : DecodedAccessToken) : VerifiedAccessToken where
  userId := decoded.claims.sub
  organizationId := row.organizationId.map Uuid.text
  sessionId := decoded.sessionId.value
  permissions := btreeSet row.permissions
  roleIds := row.roleId.toList
  policyRevision := row.policyRevision
  assurance := row.assurance.authentication
  systemAdministrator := row.systemAdministrator
  issuedAtSeconds := decoded.claims.iat
  expiresAtSeconds := decoded.claims.exp
  authorizationFingerprint := row.fingerprint

/-- What `verify` asks of the database. -/
structure AcceptsWith (time : CallTime) (decoded : DecodedAccessToken) (db : Db) (row : ContextRow) : Prop where
  selected : ∃ id, Uuid.ofText? decoded.sessionId.value = some id ∧
    db.loadRequestContext id (unixMs time.nowUnixSeconds) decoded.kid = some row
  decodes : row.Decodes
  sub : decoded.claims.sub = row.userId.text
  tenant : decoded.claims.tenantId = row.organizationId.map Uuid.text

theorem verifiedAccessToken_of_reads {session : VerifiedSession} {row : ContextRow} (h : session.Reads row) :
    verifiedAccessToken decoded.claims decoded.sessionId session =
      if decoded.claims.sub ≠ row.userId.text ∨ decoded.claims.tenantId ≠ row.organizationId.map Uuid.text then
        .error .invalidToken
      else .ok (row.accessToken decoded) := by
  simp only [verifiedAccessToken, ContextRow.accessToken, h.fingerprint, h.userId, h.systemAdministrator,
    h.organizationId, h.assurance, h.permissions, h.roleIds, h.policyRevision]

theorem queryFirst_eq_ok {α β : Type} {sessionId : SessionId} {query : Uuid → Option α}
    {decode : α → Except ContextLoadError β} {b : β} : queryFirst sessionId query decode = .ok b ↔
      ∃ id row, Uuid.ofText? sessionId.value = some id ∧ query id = some row ∧ decode row = .ok b := by
  unfold queryFirst
  cases Uuid.ofText? sessionId.value with
  | none => simp
  | some id =>
    cases hq : query id with
    | none => simp [hq]
    | some row => simp [hq, mapError_eq_ok]

theorem verifyDecoded_eq_ok (hkid : validKid decoded.kid = true) :
    verifyDecoded time requestId decoded db = .ok value ↔
      ∃ row, AcceptsWith time decoded db row ∧ value = row.accessToken decoded := by
  simp only [verifyDecoded, loadVerifiedSessionForToken, validSigningKeyId_of_validKid hkid, if_true, bind_eq_ok,
    mapError_eq_ok, queryFirst_eq_ok]
  constructor
  · rintro ⟨session, ⟨id, row, hid, hrow, hsession⟩, h⟩
    rw [verifiedAccessToken_of_reads (reads_of_verifiedSession hsession)] at h
    split at h
    · cases h
    · rename_i hclaims
      cases h
      simp only [ne_eq, not_or, not_not] at hclaims
      exact ⟨row, ⟨⟨id, hid, hrow⟩, decodes_of_verifiedSession hsession, hclaims.1, hclaims.2⟩, rfl⟩
  · rintro ⟨row, ⟨⟨id, hid, hrow⟩, hdecodes, hsub, htenant⟩, rfl⟩
    obtain ⟨session, hsession⟩ := hdecodes requestId
    refine ⟨session, ⟨id, row, hid, hrow, hsession⟩, ?_⟩
    rw [verifiedAccessToken_of_reads (reads_of_verifiedSession hsession), if_neg (by simp [hsub, htenant])]

/-- What `verify` asks of a token: it decodes, and the database accepts it. -/
theorem verify_eq_ok : verify v time token requestId db = .ok value ↔
    ∃ decoded row, decodeVerifiedAccessToken v time token = .ok decoded ∧ AcceptsWith time decoded db row ∧
      value = row.accessToken decoded := by
  simp only [verify, bind_eq_ok, mapError_eq_ok]
  constructor
  · rintro ⟨decoded, hdecoded, h⟩
    obtain ⟨row, haccepts, hvalue⟩ := (verifyDecoded_eq_ok (validKid_of_decode hdecoded).2).1 h
    exact ⟨decoded, row, hdecoded, haccepts, hvalue⟩
  · rintro ⟨decoded, row, hdecoded, haccepts, hvalue⟩
    exact ⟨decoded, hdecoded, (verifyDecoded_eq_ok (validKid_of_decode hdecoded).2).2 ⟨row, haccepts, hvalue⟩⟩

theorem matchesClaims_eq_true : cached.matchesClaims decoded = true ↔
    cached.userId = decoded.claims.sub ∧ cached.sessionId = decoded.sessionId.value ∧
      cached.organizationId = decoded.claims.tenantId := by
  simp [VerifiedAccessToken.matchesClaims, and_assoc]

theorem verifyInvalidationCached_eq_some {cachedEpoch currentEpoch : AuthorizationInvalidationEpoch}
    (h : verifyInvalidationCached v time token cached cachedEpoch currentEpoch = .ok (some value)) :
    cachedEpoch = currentEpoch ∧ ∃ decoded, decodeVerifiedAccessToken v time token = .ok decoded ∧
      cached.matchesClaims decoded = true ∧ value = cached.reissued decoded.claims := by
  unfold verifyInvalidationCached at h
  split at h
  · cases h
  · rename_i hepoch
    refine ⟨not_not.1 hepoch, ?_⟩
    split at h
    · cases h
    · rename_i decoded hdecoded
      split at h
      · cases h
      · split at h <;> cases h
        rename_i hmatches
        exact ⟨decoded, hdecoded, hmatches, rfl⟩

theorem reissued_accessToken {row : ContextRow} {decoded₀ : DecodedAccessToken}
    (h : (row.accessToken decoded₀).matchesClaims decoded = true) :
    (row.accessToken decoded₀).reissued decoded.claims = row.accessToken decoded := by
  obtain ⟨huser, hsession, -⟩ := matchesClaims_eq_true.1 h
  simp only [ContextRow.accessToken] at huser hsession
  simp only [VerifiedAccessToken.reissued, ContextRow.accessToken, huser, hsession]

end Paths

end WasiAuth
