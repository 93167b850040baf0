import WasiAuth.Postgres.Queries

/-! # Accounts, passwords and sessions

The statements of registration, email verification, password login, reset and change, and session
revocation. Each definition takes the statement's parameters and the database and returns what the
statement returns together with the new database; `none` is an empty result. A `CTE` whose `FROM` is
empty writes nothing, and no `CTE` undoes another's writes, so a statement that returns nothing can
still have written.
-/

namespace WasiAuth

/-! ## Registration and verification -/

/-- `register_password.sql`; the mail key is `email-verification:<user>:v1` (workflows.rs:714). -/
structure RegisterPassword where
  idempotencyKey : String
  actorKey : String
  requestHash : Bytes
  userId : Uuid
  normalizedEmail : String
  primaryEmail : String
  passwordHash : String
  tokenHash : Bytes
  tokenExpiresAtMs : Int
  outboxId : Uuid
  keyVersion : String
  payloadCiphertext : Bytes
  nowMs : Int

/-- postgres.rs:626 -/
inductive RegistrationOutcome
  | created (userId : Uuid)
  | replayed (userId : Uuid)
  | idempotencyConflict
  | emailConflict
deriving DecidableEq

namespace RegisterPassword

/-- The rows `register_password.sql` inserts. -/
def user (p : RegisterPassword) : User :=
  { userId := p.userId, normalizedEmail := p.normalizedEmail, primaryEmail := p.primaryEmail,
    status := .pendingVerification, securityRevision := 1, createdAtMs := p.nowMs }

def password (p : RegisterPassword) : Password :=
  { userId := p.userId, passwordHash := p.passwordHash, lastAuthenticatedAtMs := none, revokedAtMs := none }

def token (p : RegisterPassword) : OneTimeToken :=
  { tokenHash := p.tokenHash, purpose := .emailVerification, userId := some p.userId,
    expiresAtMs := p.tokenExpiresAtMs, consumedAtMs := none }

def mailKey (p : RegisterPassword) : String := "email-verification:" ++ p.userId.text ++ ":v1"

def idempotencyRow (p : RegisterPassword) : Idempotency :=
  { idempotencyKey := p.idempotencyKey, actorKey := p.actorKey, operation := .registerPassword,
    requestHash := p.requestHash, response := p.userId }

end RegisterPassword

def insertRegistration (p : RegisterPassword) (db : Db) : Except SqlError (RegistrationOutcome × Db) := do
  let users ← db.users.insertOr .uniqueViolation p.user
  let passwords ← db.passwords.insertOr .uniqueViolation p.password
  let db ← Db.insertOneTimeToken p.token { db with users := users, passwords := passwords }
  let db ← db.insertMail p.outboxId p.mailKey p.keyVersion p.payloadCiphertext p.nowMs
  let idempotency ← db.idempotency.insertOr .uniqueViolation p.idempotencyRow
  pure (.created p.userId, { db with idempotency := idempotency })

/-- postgres.rs:458 -/
def registerPassword (p : RegisterPassword) (db : Db) : Except SqlError (RegistrationOutcome × Db) :=
  match db.idempotency.find? p.idempotencyKey with
  | some row =>
    if row.actorKey = p.actorKey ∧ row.operation = .registerPassword ∧ row.requestHash = p.requestHash then
      .ok (.replayed row.response, db)
    else .ok (.idempotencyConflict, db)
  | none =>
    -- `ON CONFLICT (normalized_email) DO NOTHING`
    if (db.userByEmail p.normalizedEmail).isSome then .ok (.emailConflict, db) else insertRegistration p db

/-- `resend_email_verification.sql`; the mail key is `email-verification-resend:<outbox>`
(workflows.rs:782). -/
structure ResendEmailVerification where
  normalizedEmail : String
  tokenHash : Bytes
  tokenExpiresAtMs : Int
  outboxId : Uuid
  keyVersion : String
  payloadCiphertext : Bytes
  nowMs : Int
  bucketKey : String

/-- `rate_bucket`: the attempt counted in the bucket, in a window of one hour. -/
def Db.countAttempt (bucketKey : String) (nowMs : Int) (db : Db) : RateLimitBucket :=
  match db.rateLimitBuckets.find? bucketKey with
  | none => { bucketKey := bucketKey, attemptCount := 1, windowExpiresAtMs := nowMs + 3600000 }
  | some bucket =>
    if bucket.windowExpiresAtMs ≤ nowMs then
      { bucket with attemptCount := 1, windowExpiresAtMs := nowMs + 3600000 }
    else { bucket with attemptCount := bucket.attemptCount + 1 }

/-- `INSERT … ON CONFLICT (bucket_key) DO UPDATE`. -/
def Db.putBucket (bucket : RateLimitBucket) (db : Db) : Except SqlError Db :=
  if (db.rateLimitBuckets.find? bucket.bucketKey).isSome then
    .ok { db with rateLimitBuckets := db.rateLimitBuckets.set bucket }
  else do
    let buckets ← db.rateLimitBuckets.insertOr .uniqueViolation bucket
    pure { db with rateLimitBuckets := buckets }

/-- workflows.rs:732 -/
def resendEmailVerification (p : ResendEmailVerification) (db : Db) : Except SqlError (Option Unit × Db) := do
  let bucket := db.countAttempt p.bucketKey p.nowMs
  let db ← db.putBucket bucket
  match (db.userByEmail p.normalizedEmail).filter fun u =>
      decide (u.status = .pendingVerification ∧ bucket.attemptCount ≤ 5) with
  | none => pure (none, db)
  | some user =>
    let db := db.consumeTokens
      (fun t => decide (t.userId = some user.userId ∧ t.purpose = .emailVerification)) p.nowMs
    let db ← db.insertOneTimeToken
      { tokenHash := p.tokenHash, purpose := .emailVerification, userId := some user.userId,
        expiresAtMs := p.tokenExpiresAtMs, consumedAtMs := none }
    let db ← db.insertMail p.outboxId ("email-verification-resend:" ++ p.outboxId.text) p.keyVersion
      p.payloadCiphertext p.nowMs
    pure (some (), db)

/-- The row `verify_email.sql`, `issue_password_session.sql` and `complete_password_reset.sql` return. -/
structure SessionCreated where
  sessionId : Uuid
  userId : Uuid
  expiresAtMs : Int
deriving DecidableEq

/-- `verify_email.sql`; `bootstrapEmails` is the JSON list `$7`. -/
structure VerifyEmail where
  tokenHash : Bytes
  nowMs : Int
  sessionId : Uuid
  expiresAtMs : Int
  bootstrapEmails : List String

/-- `INSERT INTO auth_system_administrators … ON CONFLICT (user_id) DO NOTHING`. -/
def Db.grantAdministrator (user : Uuid) (nowMs : Int) (db : Db) : Except SqlError Db :=
  if (db.systemAdministrators.find? user).isSome then .ok db
  else do
    let admins ← db.systemAdministrators.insertOr .uniqueViolation
      { userId := user, grantedBy := some user, grantedAtMs := nowMs, revokedAtMs := none }
    pure { db with systemAdministrators := admins }

/-- `bootstrap_administrator`. -/
def Db.bootstrapAdministrator (p : VerifyEmail) (user : User) (db : Db) : Except SqlError Db :=
  if user.normalizedEmail ∈ p.bootstrapEmails then db.grantAdministrator user.userId p.nowMs else .ok db

def verifyEmail (p : VerifyEmail) (db : Db) : Except SqlError (Option SessionCreated × Db) :=
  match db.tokenCandidate p.tokenHash .emailVerification p.nowMs with
  | none => .ok (none, db)
  | some token =>
    let consumed := db.consumeTokens (fun t => decide (t.tokenHash = p.tokenHash)) p.nowMs
    match (token.userId.bind fun id => db.users.find? id).filter fun u =>
        decide (u.status = .pendingVerification ∨ u.status = .active) with
    | none => .ok (none, consumed)
    | some user => do
      let db ← (consumed.setUser { user with status := .active }).bootstrapAdministrator p user
      let db ← db.insertSession
        (Db.newSession p.sessionId user.userId .aal1 user.securityRevision p.expiresAtMs p.nowMs)
      pure (some ⟨p.sessionId, user.userId, p.expiresAtMs⟩, db)

/-! ## Password login, reset and change -/

/-- `issue_password_session.sql`. -/
structure IssuePasswordSession where
  userId : Uuid
  normalizedEmail : String
  passwordHash : String
  sessionId : Uuid
  expiresAtMs : Int
  nowMs : Int

def issuePasswordSession (p : IssuePasswordSession) (db : Db) :
    Except SqlError (Option SessionCreated × Db) :=
  match db.users.find? p.userId, db.passwords.find? p.userId with
  | some user, some password =>
    if user.normalizedEmail = p.normalizedEmail ∧ user.status = .active ∧ password.revokedAtMs = none ∧
        password.passwordHash = p.passwordHash then do
      let db := db.setPassword { password with lastAuthenticatedAtMs := some p.nowMs }
      let db ← db.insertSession
        (Db.newSession p.sessionId user.userId .aal1 user.securityRevision p.expiresAtMs p.nowMs)
      pure (some ⟨p.sessionId, user.userId, p.expiresAtMs⟩, db)
    else .ok (none, db)
  | _, _ => .ok (none, db)

/-- `start_password_reset.sql`; the mail key is `password-reset:<outbox>` (workflows.rs:1321). -/
structure StartPasswordReset where
  normalizedEmail : String
  tokenHash : Bytes
  tokenExpiresAtMs : Int
  outboxId : Uuid
  keyVersion : String
  payloadCiphertext : Bytes
  nowMs : Int

/-- workflows.rs:1268 -/
def startPasswordReset (p : StartPasswordReset) (db : Db) : Except SqlError (Option Unit × Db) :=
  match (db.userByEmail p.normalizedEmail).filter fun u =>
      decide (u.status = .active) && (db.passwords.find? u.userId).any fun w => w.revokedAtMs.isNone with
  | none => .ok (none, db)
  | some user => do
    let db ← db.insertOneTimeToken
      { tokenHash := p.tokenHash, purpose := .passwordReset, userId := some user.userId,
        expiresAtMs := p.tokenExpiresAtMs, consumedAtMs := none }
    let db ← db.insertMail p.outboxId ("password-reset:" ++ p.outboxId.text) p.keyVersion
      p.payloadCiphertext p.nowMs
    pure (some (), db)

/-- `complete_password_reset.sql`. -/
structure CompletePasswordReset where
  tokenHash : Bytes
  nowMs : Int
  passwordHash : String
  sessionId : Uuid
  expiresAtMs : Int

def completePasswordReset (p : CompletePasswordReset) (db : Db) :
    Except SqlError (Option SessionCreated × Db) :=
  match db.tokenCandidate p.tokenHash .passwordReset p.nowMs with
  | none => .ok (none, db)
  | some token =>
    let consumed := db.consumeTokens (fun t => decide (t.tokenHash = p.tokenHash)) p.nowMs
    match token.userId.bind fun id => db.passwords.find? id with
    | none => .ok (none, consumed)
    | some password =>
      -- `updated_password` does not look at the user's status
      let updated := consumed.setPassword { password with passwordHash := p.passwordHash, revokedAtMs := none }
      match (db.users.find? password.userId).filter fun u => decide (u.status = .active) with
      | none => .ok (none, updated)
      | some user => do
        let db := updated.setUser { user with securityRevision := user.securityRevision + 1 }
        let ofUser := fun t : RefreshToken =>
          (db.sessions.find? t.sessionId).any fun s => decide (s.userId = user.userId)
        let db := (db.updateSessions (fun s => decide (s.userId = user.userId ∧ s.revokedAtMs = none))
          fun s => { s with revokedAtMs := some p.nowMs }).revokeRefreshTokens ofUser p.nowMs
        let db ← db.insertSession
          (Db.newSession p.sessionId user.userId .aal1 (user.securityRevision + 1) p.expiresAtMs p.nowMs)
        pure (some ⟨p.sessionId, user.userId, p.expiresAtMs⟩, db)

/-- `change_password.sql`. -/
structure ChangePassword where
  userId : Uuid
  sessionId : Uuid
  currentHash : String
  nextHash : String
  nowMs : Int

/-- workflows.rs:929 -/
def changePassword (p : ChangePassword) (db : Db) : Except SqlError (Option Unit × Db) :=
  match (db.liveSession p.sessionId p.nowMs).filter fun (session, _) => decide (session.userId = p.userId) with
  | none => .ok (none, db)
  | some (_, user) =>
    match (db.passwords.find? user.userId).filter fun w =>
        decide (w.passwordHash = p.currentHash ∧ w.revokedAtMs = none) with
    | none => .ok (none, db)
    | some password =>
      let secured := user.securityRevision + 1
      let ofUser := fun t : RefreshToken => decide (t.sessionId ≠ p.sessionId) &&
        (db.sessions.find? t.sessionId).any fun s => decide (s.userId = user.userId)
      let db := (db.setPassword { password with passwordHash := p.nextHash }).setUser
        { user with securityRevision := secured }
      let db := db.updateSessions (fun s => decide (s.sessionId = p.sessionId ∧ s.userId = user.userId))
        fun s => { s with userSecurityRevision := secured, sessionRevision := s.sessionRevision + 1 }
      let db := db.updateSessions
        (fun s => decide (s.userId = user.userId ∧ s.sessionId ≠ p.sessionId ∧ s.revokedAtMs = none))
        fun s => { s with revokedAtMs := some p.nowMs, sessionRevision := s.sessionRevision + 1 }
      .ok (some (), db.revokeRefreshTokens ofUser p.nowMs)

/-! ## Sessions -/

/-- `revoke_session.sql`. -/
structure RevokeSession where
  sessionId : Uuid
  actorSessionId : Uuid
  nowMs : Int

def revokeSession (p : RevokeSession) (db : Db) : Except SqlError (Option Unit × Db) :=
  match db.liveSession p.actorSessionId p.nowMs with
  | none => .ok (none, db)
  | some (_, user) =>
    match (db.sessions.find? p.sessionId).filter fun s =>
        decide (s.userId = user.userId ∧ s.revokedAtMs = none) with
    | none => .ok (none, db)
    | some _ =>
      let db := db.updateSessions (fun s => decide (s.sessionId = p.sessionId))
        fun s => { s with revokedAtMs := some p.nowMs, sessionRevision := s.sessionRevision + 1 }
      .ok (some (), db.revokeRefreshTokens (fun t => decide (t.sessionId = p.sessionId)) p.nowMs)

end WasiAuth
