import WasiAuth.Postgres.Queries

/-! # Second factors, passkeys, OAuth and refresh tokens

The statements that elevate a session to `aal2`, complete an external login, and issue or rotate the
refresh tokens of a session.
-/

namespace WasiAuth

/-! ## TOTP and recovery codes -/

/-- `start_totp_enrollment.sql`. -/
structure StartTotpEnrollment where
  sessionId : Uuid
  keyVersion : String
  secretCiphertext : Bytes
  nowMs : Int

def startTotpEnrollment (p : StartTotpEnrollment) (db : Db) : Except SqlError (Option Unit × Db) :=
  match db.liveSession p.sessionId p.nowMs with
  | none => .ok (none, db)
  | some (_, user) =>
    match db.totpFactors.find? user.userId with
    | none => do
      let factors ← db.totpFactors.insertOr .uniqueViolation
        { userId := user.userId, keyVersion := p.keyVersion, secretCiphertext := p.secretCiphertext,
          enabledAtMs := none, lastConsumedStep := none }
      pure (some (), { db with totpFactors := factors })
    | some factor =>
      -- `ON CONFLICT (user_id) DO UPDATE … WHERE enabled_at_ms IS NULL`
      if factor.enabledAtMs = none then
        let pending := { factor with keyVersion := p.keyVersion, secretCiphertext := p.secretCiphertext }
        .ok (some (), { db with totpFactors := db.totpFactors.set pending })
      else .ok (none, db)

/-- `confirm_totp_enrollment.sql`; `recoveryHashes` is the JSON list `$4`. -/
structure ConfirmTotpEnrollment where
  sessionId : Uuid
  secretCiphertext : Bytes
  nowMs : Int
  recoveryHashes : List Bytes
  step : Int

/-- `enabled_factor`, `deleted_recovery` and `new_recovery`: nothing happens without a pending factor
that has the ciphertext. -/
def Db.enableFactor (p : ConfirmTotpEnrollment) (user : Uuid) (db : Db) : Except SqlError Db :=
  match (db.totpFactors.find? user).filter fun f =>
      decide (f.secretCiphertext = p.secretCiphertext ∧ f.enabledAtMs = none) with
  | none => .ok db
  | some factor => do
    let codes ← (db.recoveryCodes.delete fun c => decide (c.userId = user)).insertAllOr .uniqueViolation
      (p.recoveryHashes.map fun h => { userId := user, codeHash := h, usedAtMs := none })
    let enabled := { factor with enabledAtMs := some p.nowMs, lastConsumedStep := some p.step }
    pure { db with totpFactors := db.totpFactors.set enabled, recoveryCodes := codes }

/-- The session is elevated whether or not a factor was enabled: `elevated_session` joins only `actor`
and a count. -/
def confirmTotpEnrollment (p : ConfirmTotpEnrollment) (db : Db) : Except SqlError (Option Unit × Db) :=
  match db.liveSession p.sessionId p.nowMs with
  | none => .ok (none, db)
  | some (_, user) => do
    let db ← db.enableFactor p user.userId
    pure (some (), db.elevateSession p.sessionId)

/-- `verify_totp_step_up.sql`. -/
structure VerifyTotpStepUp where
  sessionId : Uuid
  secretCiphertext : Bytes
  nowMs : Int
  step : Int

def verifyTotpStepUp (p : VerifyTotpStepUp) (db : Db) : Except SqlError (Option Unit × Db) :=
  match db.liveSession p.sessionId p.nowMs with
  | none => .ok (none, db)
  | some (_, user) =>
    match (db.totpFactors.find? user.userId).filter fun f =>
        f.enabledAtMs.isSome && decide (f.secretCiphertext = p.secretCiphertext) &&
          f.lastConsumedStep.all fun last => decide (last < p.step) with
    | none => .ok (none, db)
    | some factor =>
      let db := { db with totpFactors := db.totpFactors.set { factor with lastConsumedStep := some p.step } }
      .ok (some (), db.elevateSession p.sessionId)

/-- `use_recovery_code.sql`. -/
structure UseRecoveryCode where
  sessionId : Uuid
  codeHash : Bytes
  nowMs : Int

def useRecoveryCode (p : UseRecoveryCode) (db : Db) : Except SqlError (Option Unit × Db) :=
  match db.liveSession p.sessionId p.nowMs with
  | none => .ok (none, db)
  | some (_, user) =>
    match (db.recoveryCodes.find? (user.userId, p.codeHash)).filter fun c => c.usedAtMs.isNone with
    | none => .ok (none, db)
    | some code =>
      let db := { db with recoveryCodes := db.recoveryCodes.set { code with usedAtMs := some p.nowMs } }
      .ok (some (), db.elevateSession p.sessionId)

/-! ## Flows -/

/-- `create_auth_flow.sql`; `verifier_hash` is unique. -/
def createAuthFlow (flow : Flow) (db : Db) : Except SqlError (Unit × Db) :=
  if db.flows.rows.any fun f => decide (f.verifierHash = flow.verifierHash) then .error .uniqueViolation
  else do
    let flows ← db.flows.insertOr .uniqueViolation { flow with consumedAtMs := none }
    pure ((), { db with flows := flows })

/-- `candidate`: the flow is of this kind, unconsumed and in time. -/
def Db.flowCandidate (flowId : Uuid) (verifierHash : Bytes) (kind : FlowKind) (nowMs : Int) (db : Db) :
    Option Flow :=
  (db.flows.find? flowId).filter fun f =>
    decide (f.verifierHash = verifierHash ∧ f.kind = kind ∧ f.consumedAtMs = none ∧ nowMs ≤ f.expiresAtMs)

def Db.consumeFlow (flow : Flow) (nowMs : Int) (db : Db) : Db :=
  { db with flows := db.flows.set { flow with consumedAtMs := some nowMs } }

/-! ## OAuth -/

/-- `complete_oauth_identity.sql`; `email` is `($5, $6)`, absent when the provider gave none. -/
structure CompleteOauthIdentity where
  verifierHash : Bytes
  flowId : Uuid
  providerId : String
  providerSubject : String
  email : Option (String × String)
  profile : String
  userId : Uuid
  sessionId : Uuid
  expiresAtMs : Int
  nowMs : Int

inductive LoginOutcome
  | completed (sessionId userId : Uuid) (primaryEmail : String) (expiresAtMs : Int)
  | unavailable
deriving DecidableEq

/-- `selected_user`: the linked user, else the user with that email, else a new active one. -/
def Db.resolveOauthUser (p : CompleteOauthIdentity) (db : Db) : Except SqlError (Option User × Db) :=
  match (db.externalIdentities.find? (p.providerId, p.providerSubject)).bind fun i => db.users.find? i.userId with
  | some user => .ok (some user, db)
  | none =>
    match p.email with
    | none => .ok (none, db)
    | some (normalized, primary) =>
      match db.userByEmail normalized with
      | some user => .ok (some user, db)
      | none => do
        let user : User :=
          { userId := p.userId, normalizedEmail := normalized, primaryEmail := primary, status := .active,
            securityRevision := 1, createdAtMs := p.nowMs }
        let users ← db.users.insertOr .uniqueViolation user
        pure (some user, { db with users := users })

/-- The row of `linked_identity`. -/
def CompleteOauthIdentity.identity (p : CompleteOauthIdentity) (user : Uuid) : ExternalIdentity where
  providerId := p.providerId
  providerSubject := p.providerSubject
  userId := user
  email := p.email.map (·.2)
  profile := p.profile
  updatedAtMs := p.nowMs

/-- `linked_identity`: insert, or refresh a row that already belongs to the user. -/
def Db.linkIdentity (p : CompleteOauthIdentity) (user : User) (db : Db) : Except SqlError (Bool × Db) :=
  match db.externalIdentities.find? (p.providerId, p.providerSubject) with
  | some identity =>
    if identity.userId = user.userId then
      .ok (true, { db with externalIdentities := db.externalIdentities.set (p.identity user.userId) })
    else .ok (false, db)
  | none => do
    let identities ← db.externalIdentities.insertOr .uniqueViolation (p.identity user.userId)
    pure (true, { db with externalIdentities := identities })

def completeOauthIdentity (p : CompleteOauthIdentity) (db : Db) :
    Except SqlError (Option LoginOutcome × Db) :=
  match db.flowCandidate p.flowId p.verifierHash .oauth p.nowMs with
  | none => .ok (none, db)
  | some flow => do
    let (user?, db) ← (db.consumeFlow flow p.nowMs).resolveOauthUser p
    match user? with
    | none => pure (some .unavailable, db)
    | some user =>
      let (linked, db) ← db.linkIdentity p user
      if linked ∧ user.status = .active then
        let db ← db.insertSession
          (Db.newSession p.sessionId user.userId .aal1 user.securityRevision p.expiresAtMs p.nowMs)
        pure (some (.completed p.sessionId user.userId user.primaryEmail p.expiresAtMs), db)
      else pure (some .unavailable, db)

/-! ## Passkeys -/

/-- `complete_passkey_registration.sql`. -/
structure CompletePasskeyRegistration where
  verifierHash : Bytes
  flowId : Uuid
  sessionId : Uuid
  credentialId : Bytes
  publicKeyCose : Bytes
  signCount : Nat
  transports : String
  nowMs : Int
  displayName : String

inductive PasskeyRegistrationOutcome
  | registered
  | credentialConflict
deriving DecidableEq

def completePasskeyRegistration (p : CompletePasskeyRegistration) (db : Db) :
    Except SqlError (Option PasskeyRegistrationOutcome × Db) :=
  match db.liveSession p.sessionId p.nowMs with
  | none => .ok (none, db)
  | some (_, user) =>
    match (db.flowCandidate p.flowId p.verifierHash .webauthnRegistration p.nowMs).filter fun f =>
        decide (f.userId = some user.userId) with
    | none => .ok (none, db)
    | some flow =>
      let db := db.consumeFlow flow p.nowMs
      if (db.passkeys.find? p.credentialId).isSome then .ok (some .credentialConflict, db)
      else do
        let passkeys ← db.passkeys.insertOr .uniqueViolation
          { credentialId := p.credentialId, userId := user.userId, publicKeyCose := p.publicKeyCose,
            signCount := p.signCount, transports := p.transports, displayName := p.displayName,
            lastUsedAtMs := none }
        pure (some .registered, { db with passkeys := passkeys }.elevateSession p.sessionId)

/-- `complete_passkey_authentication.sql`. -/
structure CompletePasskeyAuthentication where
  verifierHash : Bytes
  flowId : Uuid
  userId : Uuid
  credentialId : Bytes
  publicKeyCose : Bytes
  previousSignCount : Nat
  signCount : Nat
  transports : String
  sessionId : Uuid
  expiresAtMs : Int
  nowMs : Int

inductive PasskeyAuthenticationOutcome
  | authenticated (sessionId userId : Uuid) (primaryEmail : String) (expiresAtMs : Int)
  | counterConflict
deriving DecidableEq

def completePasskeyAuthentication (p : CompletePasskeyAuthentication) (db : Db) :
    Except SqlError (Option PasskeyAuthenticationOutcome × Db) :=
  match (db.flowCandidate p.flowId p.verifierHash .webauthnAuthentication p.nowMs).filter fun f =>
      decide (f.userId = some p.userId) with
  | none => .ok (none, db)
  | some flow =>
    let db := db.consumeFlow flow p.nowMs
    match (db.passkeys.find? p.credentialId).filter fun k =>
        decide (k.userId = p.userId ∧ k.signCount = p.previousSignCount) with
    | none => .ok (some .counterConflict, db)
    | some passkey =>
      let used := { passkey with
        publicKeyCose := p.publicKeyCose, signCount := p.signCount, transports := p.transports
        lastUsedAtMs := some p.nowMs }
      let db := { db with passkeys := db.passkeys.set used }
      match (db.users.find? p.userId).filter fun u => decide (u.status = .active) with
      | none => .ok (none, db)
      | some user => do
        let db ← db.insertSession
          (Db.newSession p.sessionId user.userId .aal2 user.securityRevision p.expiresAtMs p.nowMs)
        pure (some (.authenticated p.sessionId user.userId user.primaryEmail p.expiresAtMs), db)

/-! ## Refresh tokens -/

/-- `issue_token_pair.sql`. -/
structure IssueTokenPair where
  sessionId : Uuid
  tokenHash : Bytes
  familyId : Uuid
  expiresAtMs : Int
  nowMs : Int

def freshRefreshToken (tokenHash : Bytes) (sessionId familyId : Uuid) (expiresAtMs : Int) : RefreshToken where
  tokenHash := tokenHash
  sessionId := sessionId
  familyId := familyId
  successorHash := none
  successorKeyVersion := none
  successorCiphertext := none
  replayUntilMs := none
  expiresAtMs := expiresAtMs
  rotatedAtMs := none
  revokedAtMs := none

def issueTokenPair (p : IssueTokenPair) (db : Db) : Except SqlError (Option Unit × Db) :=
  match db.liveSession p.sessionId p.nowMs with
  | none => .ok (none, db)
  | some (session, _) =>
    -- `ON CONFLICT (token_hash) DO NOTHING`
    if (db.refreshTokens.find? p.tokenHash).isSome then .ok (none, db)
    else do
      let tokens ← db.refreshTokens.insertOr .uniqueViolation
        (freshRefreshToken p.tokenHash session.sessionId p.familyId p.expiresAtMs)
      pure (some (), { db with refreshTokens := tokens })

/-- `rotate_refresh_token.sql`. -/
structure RotateRefreshToken where
  tokenHash : Bytes
  sessionId : Option Uuid
  successorHash : Bytes
  successorKeyVersion : String
  successorCiphertext : Bytes
  replayUntilMs : Int
  nowMs : Int
  expiresAtMs : Int
  sessionExpiresAtMs : Int

inductive RotationOutcome
  | rotated (keyVersion : String) (ciphertext : Bytes)
  | replayed (keyVersion : String) (ciphertext : Bytes)
  | reuseDetected
  | invalid
deriving DecidableEq

def rotateRefreshToken (p : RotateRefreshToken) (db : Db) : Except SqlError (RotationOutcome × Db) :=
  match (db.refreshTokens.find? p.tokenHash).bind fun token =>
      (db.sessions.find? token.sessionId).bind fun session =>
        (db.users.find? session.userId).map fun user => (token, session, user) with
  | none => .ok (.invalid, db)
  | some (token, session, user) =>
    if ¬ (p.sessionId.all fun id => decide (session.sessionId = id)) then .ok (.invalid, db)
    else
      let live := session.revokedAtMs.isNone && decide (p.nowMs < session.expiresAtMs) &&
        decide (user.securityRevision = session.userSecurityRevision) && decide (user.status = .active)
      if token.revokedAtMs.isSome then .ok (.invalid, db)
      else if token.rotatedAtMs.isNone then
        if decide (p.nowMs < token.expiresAtMs) && live then do
          let rotated := { token with
            rotatedAtMs := some p.nowMs, successorHash := some p.successorHash
            successorKeyVersion := some p.successorKeyVersion
            successorCiphertext := some p.successorCiphertext, replayUntilMs := some p.replayUntilMs }
          let tokens ← (db.refreshTokens.set rotated).insertOr .uniqueViolation
            (freshRefreshToken p.successorHash token.sessionId token.familyId p.expiresAtMs)
          let db := { db with refreshTokens := tokens }.updateSessions
            (fun s => decide (s.sessionId = token.sessionId ∧ s.revokedAtMs = none))
            fun s => { s with
              expiresAtMs := max s.expiresAtMs p.sessionExpiresAtMs, sessionRevision := s.sessionRevision + 1 }
          pure (.rotated p.successorKeyVersion p.successorCiphertext, db)
        else .ok (.invalid, db)
      else
        match token.successorKeyVersion, token.successorCiphertext with
        | some keyVersion, some ciphertext =>
          if (token.replayUntilMs.any fun until_ => decide (p.nowMs ≤ until_)) && live then
            .ok (.replayed keyVersion ciphertext, db)
          else .ok (revokeFamily token session db)
        | _, _ => .ok (revokeFamily token session db)
where
  /-- `revoked_family` and `revoked_session`; the outcome is reported only when the session was still
  unrevoked (`reuse_audit` joins `revoked_session`). -/
  revokeFamily (token : RefreshToken) (session : Session) (db : Db) : RotationOutcome × Db :=
    let revoked := (db.revokeRefreshTokens (fun t => decide (t.familyId = token.familyId)) p.nowMs).updateSessions
      (fun s => decide (s.sessionId = token.sessionId ∧ s.revokedAtMs = none))
      fun s => { s with revokedAtMs := some p.nowMs, sessionRevision := s.sessionRevision + 1 }
    (if session.revokedAtMs.isNone then .reuseDetected else .invalid, revoked)

end WasiAuth
