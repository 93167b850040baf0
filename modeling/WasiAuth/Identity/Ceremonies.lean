import WasiAuth.Identity.Values
import WasiAuth.Postgres.Factors

/-! # OAuth and passkey ceremonies

Each ceremony makes its checks, runs one statement that consumes the flow and writes the account, and turns the
row into a completion. The queries before the statement read the database of their own moment (`Reading`); it
may have changed when the statement runs.

The WebAuthn library, AES-GCM, SHA-256 and JSON are parameters. What happens to an answer on its way back from
the database is not modelled here. `Identity/CeremonyFailures.lean` says what a failed ceremony leaves.
-/

namespace WasiAuth

open Relational

/-! ## Flows -/

/-- postgres/flows.rs:362 -/
inductive FlowStoreError
  | invalidFlow | crypto
deriving DecidableEq

/-- postgres/flows.rs:121 -/
def FlowKind.asStr : FlowKind → String
  | .oauth => "oauth"
  | .webauthnRegistration => "webauthn_registration"
  | .webauthnAuthentication => "webauthn_authentication"

/-- SHA-256 and the decryption of AES-GCM. -/
structure FlowLibrary where
  sha256 : String → Bytes
  decrypt : (key associatedData nonce ciphertext : Bytes) → Option Bytes

/-- postgres/flows.rs:27 -/
structure FlowSealingKey where
  version : String
  key : Bytes
  validVersion : (decide (version ≠ "") && decide (version.utf8ByteSize ≤ 128) && !version.toList.any isControl) = true
  keyLength : key.length = 32

/-- postgres/flows.rs:321 -/
def flowAad (kind : FlowKind) (flowId : Uuid) : Bytes :=
  utf8Bytes "wasi-auth:flow:v1:" ++ utf8Bytes kind.asStr ++ [0x3a] ++ utf8Bytes flowId.text

/-- `open`. -/
def FlowSealingKey.openPayload (lib : FlowLibrary) (key : FlowSealingKey) (kind : FlowKind) (flowId : Uuid)
    (version : String) (sealed : Bytes) : Option Bytes :=
  if version ≠ key.version then none else openWith (lib.decrypt key.key (flowAad kind flowId)) sealed

/-- postgres/flows.rs:133 -/
structure PendingFlow where
  flowId : Uuid
  userId : Option String
  verifierHash : Bytes
  payload : Bytes

/-- `load_auth_flow.sql`. -/
def Db.loadAuthFlow (verifierHash : Bytes) (kind : FlowKind) (nowMs : Int) (db : Db) : Option Flow :=
  db.flows.rows.find? fun flow =>
    decide (flow.verifierHash = verifierHash ∧ flow.kind = kind ∧ flow.consumedAtMs = none ∧ nowMs ≤ flow.expiresAtMs)

/-- What a query sees: the time of the clock and the database. -/
structure Reading where
  nowUnixSeconds : Nat
  db : Db

/-- `EncryptedFlowStore::load` (postgres/flows.rs:278) -/
def loadFlow (lib : FlowLibrary) (key : FlowSealingKey) (kind : FlowKind) (verifier : String) (seen : Reading) :
    Except FlowStoreError PendingFlow :=
  if verifier.utf8ByteSize < 32 ∨ 512 < verifier.utf8ByteSize ∨ verifier.toList.any isControl = true then
    .error .invalidFlow
  else do
    let verifierHash := lib.sha256 verifier
    let flow ← okOr .invalidFlow (seen.db.loadAuthFlow verifierHash kind (unixMs seen.nowUnixSeconds))
    let payload ← okOr .crypto (key.openPayload lib kind flow.flowId flow.keyVersion flow.payloadCiphertext)
    pure ⟨flow.flowId, flow.userId.map Uuid.text, verifierHash, payload⟩

/-! ## Completions -/

/-- `OAuthCompletion` and `PasskeyCompletion`, which have the same fields. -/
structure Completion where
  sessionId : SessionId
  userId : String
  primaryEmail : String
  expiresAtMs : Nat
  redirectPath : String
deriving DecidableEq

/-- The completion for a row; `none` is `InvalidRow`. -/
def completion? (sessionId userId : Uuid) (primaryEmail : String) (expiresAtMs : Int) (redirectPath : String) :
    Option Completion :=
  match Identifier.new sessionId.text with
  | .error _ => none
  | .ok sessionId =>
    if expiresAtMs < 0 then none else some ⟨sessionId, userId.text, primaryEmail, expiresAtMs.toNat, redirectPath⟩

/-- A ceremony: the checks, the statement, and what is made of its row. An error of the statement is an error of
the transport, and the statement is then rolled back. -/
def perform {ε α ρ γ : Type} (prepared : Except ε α) (statement : α → Db → Except SqlError (ρ × Db)) (transport : ε)
    (respond : α → Db → ρ → Except ε γ) (db : Db) : Except ε γ × Db :=
  match prepared with
  | .error e => (.error e, db)
  | .ok p =>
    match statement p db with
    | .error _ => (.error transport, db)
    | .ok (r, db') => (respond p db r, db')

/-! ## OAuth -/

/-- postgres/oauth.rs:648 -/
inductive OAuthServiceError
  | invalidFlow | invalidIdentity | accountUnavailable | randomnessUnavailable | serialization | transport | invalidRow
deriving DecidableEq

/-- postgres/oauth.rs:153 -/
structure VerifiedOAuthIdentity where
  providerId : String
  providerSubject : String
  email : Option String
  emailVerified : Bool
  profile : String

/-- With the two fields of `StoredOAuthPayload` that a completion reads. -/
structure PendingOAuthFlow where
  flow : PendingFlow
  providerId : String
  redirectPath : String

structure OAuthDraws where
  userId : Option (BitVec 80)
  sessionId : Option (BitVec 80)
  auditId : Option (BitVec 80)

/-- `toVec` is `serde_json::to_vec` of a profile. -/
structure OAuthFlowService where
  toVec : String → Option Bytes
  sessionTtlSeconds : Nat
  sessionTtl : 300 ≤ sessionTtlSeconds ∧ sessionTtlSeconds ≤ 24 * 60 * 60

/-- postgres/oauth.rs:620 -/
def boundedSubject (value : String) : Bool :=
  decide (trim value ≠ "") && decide (value.utf8ByteSize ≤ 1024) && !value.toList.any isControl

/-- The same function in oauth.rs and passkeys.rs, here with `none` for the error. -/
def normalizeEmail (value : String) : Option String :=
  let normalized := (trim value).toList.map Char.toLower
  if 320 < (String.ofList normalized).utf8ByteSize ∨ normalized.head? = some '@' ∨ normalized.getLast? = some '@' ∨
      normalized.count '@' ≠ 1 ∨ normalized.any isControl = true then none
  else some (String.ofList normalized)

namespace OAuthFlowService

variable (service : OAuthFlowService) (pending : PendingOAuthFlow) (identity : VerifiedOAuthIdentity)
  (nowUnixSeconds : Nat) (draws : OAuthDraws)

/-- An email counts only if the provider has verified it. -/
def linkingEmail : Except OAuthServiceError (Option String) :=
  match identity.email with
  | some email => if identity.emailVerified then okOr .invalidIdentity ((normalizeEmail email).map some) else pure none
  | none => pure none

def prepare : Except OAuthServiceError CompleteOauthIdentity :=
  if identity.providerId ≠ pending.providerId ∨ boundedSubject identity.providerSubject = false then
    .error .invalidIdentity
  else do
    let email ← linkingEmail identity
    let profile ← okOr .serialization (service.toVec identity.profile)
    if 16 * 1024 < profile.length then .error .invalidIdentity
    else
      let userId ← okOr .randomnessUnavailable draws.userId
      let sessionId ← okOr .randomnessUnavailable draws.sessionId
      let _ ← okOr .randomnessUnavailable draws.auditId
      pure
        { verifierHash := pending.flow.verifierHash
          flowId := pending.flow.flowId
          providerId := identity.providerId
          providerSubject := identity.providerSubject
          email := email.map fun email => (email, email)
          profile := identity.profile
          userId := uuidV7 (saturatingMs nowUnixSeconds) userId
          sessionId := uuidV7 (saturatingMs nowUnixSeconds) sessionId
          expiresAtMs := expiryMs nowUnixSeconds (saturatingMs service.sessionTtlSeconds)
          nowMs := unixMs nowUnixSeconds }

def respond (redirectPath : String) : Option LoginOutcome → Except OAuthServiceError Completion
  | none => .error .invalidFlow
  | some .unavailable => .error .accountUnavailable
  | some (.completed sessionId userId primaryEmail expiresAtMs) =>
    okOr .invalidRow (completion? sessionId userId primaryEmail expiresAtMs redirectPath)

/-- postgres/oauth.rs:319 -/
def complete (db : Db) : Except OAuthServiceError Completion × Db :=
  perform (service.prepare pending identity nowUnixSeconds draws) completeOauthIdentity .transport
    (fun _ _ => respond pending.redirectPath) db

end OAuthFlowService

/-! ## Passkeys -/

/-- postgres/passkeys.rs:688 -/
inductive PasskeyServiceError
  | invalidInput | invalidResponse | invalidFlow | invalidSession | invalidCredentials | credentialConflict
  | counterConflict | randomnessUnavailable | serialization | flow (e : FlowStoreError) | transport | invalidRow
deriving DecidableEq

/-- postgres/passkeys.rs:138 -/
inductive StoredPasskeyFlow (RegistrationState AuthenticationState : Type)
  | registration (state : RegistrationState) (userId primaryEmail redirectPath : String)
  | authentication (state : AuthenticationState) (userId primaryEmail redirectPath : String)

structure WebauthnLibrary where
  RegistrationState : Type
  AuthenticationState : Type
  RegistrationResponse : Type
  AuthenticationResponse : Type
  PasskeyCredential : Type
  id : PasskeyCredential → Bytes
  counter : PasskeyCredential → Nat
  setCounter : Nat → PasskeyCredential → PasskeyCredential
  transports : PasskeyCredential → List String
  readFlow : Bytes → Option (StoredPasskeyFlow RegistrationState AuthenticationState)
  readRegistrationResponse : String → Option RegistrationResponse
  readAuthenticationResponse : String → Option AuthenticationResponse
  /-- `CredentialId::from_b64url(&response.id)`. -/
  credentialId : AuthenticationResponse → Option Bytes
  finishRegistration : RegistrationState → RegistrationResponse → Option PasskeyCredential
  /-- The new counter. -/
  finishAuthentication : AuthenticationState → AuthenticationResponse → PasskeyCredential → Option Nat
  writeCredential : PasskeyCredential → Option Bytes
  readCredential : Bytes → Option PasskeyCredential
  /-- The text of a JSON array of strings. -/
  writeTransports : List String → String

/-- postgres/passkeys.rs:159 -/
structure PasskeyService where
  flows : FlowLibrary
  webauthn : WebauthnLibrary
  key : FlowSealingKey
  sessionTtlSeconds : Nat
  sessionTtl : 300 ≤ sessionTtlSeconds ∧ sessionTtlSeconds ≤ 24 * 60 * 60

structure RegistrationRequest where
  sessionId : SessionId
  challengeId : String
  credentialJson : String
  requestId : RequestId
  displayName : String

structure AuthenticationRequest where
  challengeId : String
  credentialJson : String

structure AuthenticationDraws where
  sessionId : Option (BitVec 80)
  auditId : Option (BitVec 80)

/-- postgres/passkeys.rs:604 -/
def validateResponse (value : String) : Except PasskeyServiceError Unit :=
  if value = "" ∨ 64 * 1024 < value.utf8ByteSize then .error .invalidResponse else pure ()

/-- `load_passkey_credential.sql`. -/
def Db.loadPasskeyCredential (userId : Uuid) (credentialId : Bytes) (db : Db) : Option Passkey :=
  (db.passkeys.find? credentialId).filter fun passkey =>
    decide (passkey.userId = userId) && (db.users.find? userId).any fun user => decide (user.status = .active)

namespace PasskeyService

variable (service : PasskeyService)

/-- `load_flow`. -/
def loadPasskeyFlow (kind : FlowKind) (challengeId : String) (seen : Reading) :
    Except PasskeyServiceError
      (PendingFlow × StoredPasskeyFlow service.webauthn.RegistrationState service.webauthn.AuthenticationState) := do
  let flow ← (loadFlow service.flows service.key kind challengeId seen).mapError .flow
  let payload ← okOr .serialization (service.webauthn.readFlow flow.payload)
  pure (flow, payload)

def encodeCredential (credential : service.webauthn.PasskeyCredential) : Except PasskeyServiceError Bytes := do
  let encoded ← okOr .serialization (service.webauthn.writeCredential credential)
  if 128 * 1024 < encoded.length then .error .invalidResponse else pure encoded

/-! ### Registration -/

def prepareRegistration (request : RegistrationRequest) (sessionSeen flowSeen : Reading) (nowUnixSeconds : Nat)
    (auditId : Option (BitVec 80)) : Except PasskeyServiceError (String × CompletePasskeyRegistration) := do
  validateResponse request.credentialJson
  if trim request.displayName = "" ∨ 128 < request.displayName.utf8ByteSize ∨
      request.displayName.toList.any isControl = true then .error .invalidInput
  else
    let session ← (loadVerifiedSession request.sessionId request.requestId sessionSeen.nowUnixSeconds
      sessionSeen.db).mapError fun _ => PasskeyServiceError.invalidSession
    let (flow, payload) ← service.loadPasskeyFlow .webauthnRegistration request.challengeId flowSeen
    match payload with
    | .authentication .. => .error .invalidFlow
    | .registration state userId primaryEmail redirectPath =>
      if flow.userId ≠ some userId ∨ session.context.auth.principal.userId.value ≠ userId ∨
          session.primaryEmail ≠ primaryEmail then .error .invalidSession
      else
        let response ← okOr .invalidResponse (service.webauthn.readRegistrationResponse request.credentialJson)
        let credential ← okOr .invalidResponse (service.webauthn.finishRegistration state response)
        let encoded ← service.encodeCredential credential
        let _ ← okOr .randomnessUnavailable auditId
        let sessionId ← okOr .transport (Uuid.ofText? request.sessionId.value)
        pure (redirectPath,
          { verifierHash := flow.verifierHash
            flowId := flow.flowId
            sessionId := sessionId
            credentialId := service.webauthn.id credential
            publicKeyCose := encoded
            signCount := service.webauthn.counter credential
            transports := service.webauthn.writeTransports (service.webauthn.transports credential)
            nowMs := unixMs nowUnixSeconds
            displayName := trim request.displayName })

/-- The columns of a `registered` row are those of the session and its user, which the statement has found live
and of which it changes only the assurance and the revision. -/
def respondRegistration (prepared : String × CompletePasskeyRegistration) (db : Db) :
    Option PasskeyRegistrationOutcome → Except PasskeyServiceError Completion
  | none => .error .invalidFlow
  | some .credentialConflict => .error .credentialConflict
  | some .registered =>
    okOr .invalidRow ((db.liveSession prepared.2.sessionId prepared.2.nowMs).bind fun (session, user) =>
      completion? session.sessionId user.userId user.primaryEmail session.expiresAtMs prepared.1)

/-- postgres/passkeys.rs:304 -/
def finishRegistration (request : RegistrationRequest) (sessionSeen flowSeen : Reading) (nowUnixSeconds : Nat)
    (auditId : Option (BitVec 80)) (db : Db) : Except PasskeyServiceError Completion × Db :=
  perform (service.prepareRegistration request sessionSeen flowSeen nowUnixSeconds auditId)
    (fun prepared => completePasskeyRegistration prepared.2) .transport respondRegistration db

/-! ### Authentication -/

/-- `load_credential`; the query does not select `credential_id`, so the identifier inside the credential is not
compared with it. -/
def loadCredential (userId : String) (credentialId : Bytes) (seen : Reading) :
    Except PasskeyServiceError (service.webauthn.PasskeyCredential × Nat) := do
  let user ← okOr .transport (Uuid.ofText? userId)
  let passkey ← okOr .invalidCredentials (seen.db.loadPasskeyCredential user credentialId)
  let credential ← okOr .invalidRow (service.webauthn.readCredential passkey.publicKeyCose)
  if 2 ^ 32 ≤ passkey.signCount ∨ service.webauthn.counter credential ≠ passkey.signCount then .error .invalidRow
  else pure (credential, passkey.signCount)

/-- What is needed after the statement, the email and the redirect path of the flow, and the parameters of the
statement. -/
def prepareAuthentication (request : AuthenticationRequest) (flowSeen credentialSeen : Reading) (nowUnixSeconds : Nat)
    (draws : AuthenticationDraws) :
    Except PasskeyServiceError (String × String × CompletePasskeyAuthentication) := do
  validateResponse request.credentialJson
  let (flow, payload) ← service.loadPasskeyFlow .webauthnAuthentication request.challengeId flowSeen
  match payload with
  | .registration .. => .error .invalidFlow
  | .authentication state userId primaryEmail redirectPath =>
    if flow.userId ≠ some userId then .error .invalidFlow
    else
      let response ← okOr .invalidResponse (service.webauthn.readAuthenticationResponse request.credentialJson)
      let credentialId ← okOr .invalidResponse (service.webauthn.credentialId response)
      let (credential, storedCounter) ← service.loadCredential userId credentialId credentialSeen
      let newCounter ← okOr .invalidResponse (service.webauthn.finishAuthentication state response credential)
      let credential := service.webauthn.setCounter newCounter credential
      let encoded ← service.encodeCredential credential
      let sessionId ← okOr .randomnessUnavailable draws.sessionId
      let _ ← okOr .randomnessUnavailable draws.auditId
      let user ← okOr .transport (Uuid.ofText? userId)
      pure (primaryEmail, redirectPath,
        { verifierHash := flow.verifierHash
          flowId := flow.flowId
          userId := user
          credentialId := service.webauthn.id credential
          publicKeyCose := encoded
          previousSignCount := storedCounter
          signCount := service.webauthn.counter credential
          transports := service.webauthn.writeTransports (service.webauthn.transports credential)
          sessionId := uuidV7 (saturatingMs nowUnixSeconds) sessionId
          expiresAtMs := expiryMs nowUnixSeconds (saturatingMs service.sessionTtlSeconds)
          nowMs := unixMs nowUnixSeconds })

/-- The email is compared after the statement has created the session. -/
def respondAuthentication (prepared : String × String × CompletePasskeyAuthentication) :
    Option PasskeyAuthenticationOutcome → Except PasskeyServiceError Completion
  | none => .error .invalidFlow
  | some .counterConflict => .error .counterConflict
  | some (.authenticated sessionId userId primaryEmail expiresAtMs) => do
    let completion ← okOr .invalidRow (completion? sessionId userId primaryEmail expiresAtMs prepared.2.1)
    if completion.primaryEmail ≠ prepared.1 then .error .invalidCredentials else pure completion

/-- postgres/passkeys.rs:398 -/
def finishAuthentication (request : AuthenticationRequest) (flowSeen credentialSeen : Reading) (nowUnixSeconds : Nat)
    (draws : AuthenticationDraws) (db : Db) : Except PasskeyServiceError Completion × Db :=
  perform (service.prepareAuthentication request flowSeen credentialSeen nowUnixSeconds draws)
    (fun prepared => completePasskeyAuthentication prepared.2.2) .transport
    (fun prepared _ => respondAuthentication prepared) db

end PasskeyService

end WasiAuth
