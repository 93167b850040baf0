import WasiAuth.Postgres.Triggers

/-! # The query fragments the statements share

Most statements of `src/postgres/*.sql` start from the same join: the caller's session and its user,
both live. Tenant statements add the caller's membership and one permission of its role, administrator
statements a row of `auth_system_administrators`. Every fragment reads the snapshot the statement
starts from, and its joins are on primary keys, so each returns at most one row.
-/

namespace WasiAuth

/-- A `mail` row as the statements insert it. -/
def mailRow (outboxId : Uuid) (deduplicationKey keyVersion : String) (payloadCiphertext : Bytes)
    (nowMs : Int) : OutboxRow where
  outboxId := outboxId
  deduplicationKey := deduplicationKey
  payload := .mail keyVersion payloadCiphertext
  status := .pending
  attemptCount := 0
  availableAtMs := nowMs
  leaseId := none
  leasedUntilMs := none
  deliveredAtMs := none
  deliveryId := none
  lastErrorCode := none
  createdAtMs := nowMs

namespace Db

/-- `sessions JOIN users … WHERE session_id = $1 AND revoked_at_ms IS NULL AND expires_at_ms > now AND
user_security_revision = security_revision AND users.status = 'active'`. -/
def liveSession (sessionId : Uuid) (nowMs : Int) (db : Db) : Option (Session × User) :=
  (db.sessions.find? sessionId).bind fun session =>
    (db.users.find? session.userId).bind fun user =>
      if session.revokedAtMs = none ∧ nowMs < session.expiresAtMs ∧
          session.userSecurityRevision = user.securityRevision ∧ user.status = .active
      then some (session, user) else none

/-- The session is unrevoked and not expired, its user active and at the session's security revision. -/
theorem liveSession_eq_some {sessionId : Uuid} {nowMs : Int} {s : Session} {u : User} {db : Db} :
    db.liveSession sessionId nowMs = some (s, u) ↔
      db.sessions.find? sessionId = some s ∧ db.users.find? s.userId = some u ∧ s.revokedAtMs = none ∧
        nowMs < s.expiresAtMs ∧ s.userSecurityRevision = u.securityRevision ∧ u.status = .active := by
  simp only [liveSession, Option.bind_eq_some_iff]
  constructor
  · rintro ⟨s', hs, u', hu, h⟩
    split at h
    · rename_i hc
      cases h
      exact ⟨hs, hu, hc⟩
    · cases h
  · rintro ⟨hs, hu, hc⟩
    exact ⟨s, hs, u, hu, if_pos hc⟩

/-- `EXISTS (SELECT 1 FROM auth_role_permissions …)`. -/
def hasPermission (organization : Uuid) (roleId permission : String) (db : Db) : Bool :=
  (db.rolePermissions.find? ⟨organization, roleId, permission⟩).isSome

/-- The permissions of a role. The statements aggregate them in order; their readers keep a set. -/
def permissionsOf (organization : Uuid) (roleId : String) (db : Db) : List String :=
  (db.rolePermissions.rows.filter fun r => decide (r.organizationId = organization ∧ r.roleId = roleId)).map
    (·.permission)

def activeMembership (organization user : Uuid) (db : Db) : Option Membership :=
  (db.memberships.find? (organization, user)).filter (·.isActive)

/-- The caller's live session with an active membership in the organization. -/
def memberActor (sessionId organization : Uuid) (nowMs : Int) (db : Db) :
    Option (Session × User × Membership) :=
  (db.liveSession sessionId nowMs).bind fun (session, user) =>
    (db.activeMembership organization session.userId).map fun membership => (session, user, membership)

/-- `memberActor` at `aal2` or above, whose role holds `permission`. -/
def permittedActor (sessionId organization : Uuid) (permission : String) (nowMs : Int) (db : Db) :
    Option (Session × User × Membership) :=
  (db.memberActor sessionId organization nowMs).filter fun (session, _, membership) =>
    session.assurance.stepped && db.hasPermission organization membership.roleId permission

/-- The caller's live session at `aal2` or above, of a user with an unrevoked administrator row. -/
def administratorActor (sessionId : Uuid) (nowMs : Int) (db : Db) : Option (Session × User) :=
  (db.liveSession sessionId nowMs).filter fun (session, _) =>
    session.assurance.stepped &&
      ((db.systemAdministrators.find? session.userId).any fun admin => admin.revokedAtMs.isNone)

/-- `locked_organization`: the organization, when it is active. -/
def activeOrganization (organization : Uuid) (db : Db) : Option Organization :=
  (db.organizations.find? organization).filter fun org => decide (org.status = .active)

/-- `SELECT count(*) … role_id = 'owner' AND status = 'active'`. -/
def activeOwners (organization : Uuid) (db : Db) : Nat :=
  db.memberships.count fun m => decide (m.organizationId = organization) && m.isOwner

def userByEmail (normalizedEmail : String) (db : Db) : Option User :=
  db.users.rows.find? fun u => decide (u.normalizedEmail = normalizedEmail)

/-! ## Writes several statements share -/

/-- `UPDATE auth_users` of one row. -/
def setUser (user : User) (db : Db) : Db := { db with users := db.users.set user }

/-- `UPDATE auth_passwords` of one row. -/
def setPassword (password : Password) (db : Db) : Db := { db with passwords := db.passwords.set password }

/-- `UPDATE auth_organizations` of one row. -/
def setOrganization (org : Organization) (db : Db) : Db := { db with organizations := db.organizations.set org }

/-- `UPDATE auth_invitations` of one row. -/
def setInvitation (invitation : Invitation) (db : Db) : Db :=
  { db with invitations := db.invitations.set invitation }

/-- `UPDATE auth_sessions SET …` of the rows that satisfy `p`. -/
def updateSessions (p : Session → Bool) (f : Session → Session)
    (db : Db) (hf : ∀ s, (f s).sessionId = s.sessionId := by intro _; rfl) : Db :=
  { db with sessions := db.sessions.update p f hf }

/-- `selected_session`: the session now acts in the organization. -/
def selectOrganizationIn (sessionId user organization : Uuid) (db : Db) : Db :=
  db.updateSessions (fun s => decide (s.sessionId = sessionId ∧ s.userId = user)) fun s =>
    { s with selectedOrganizationId := some organization, sessionRevision := s.sessionRevision + 1 }

/-- `cleared_sessions`: the sessions no longer act in an organization. -/
def clearSessions (p : Session → Bool) (db : Db) : Db :=
  db.updateSessions p fun s =>
    { s with selectedOrganizationId := none, sessionRevision := s.sessionRevision + 1 }

/-- `cleared_sessions` of one user. -/
def clearUserSessions (user organization : Uuid) (db : Db) : Db :=
  db.clearSessions fun s => decide (s.userId = user ∧ s.selectedOrganizationId = some organization)

/-- `elevated_session`: a factor raised the session to `aal2`. -/
def elevateSession (sessionId : Uuid) (db : Db) : Db :=
  db.updateSessions (fun s => decide (s.sessionId = sessionId)) fun s =>
    { s with assurance := .aal2, sessionRevision := s.sessionRevision + 1 }

/-- `new_session`: a fresh session with no organization selected. -/
def newSession (sessionId user : Uuid) (assurance : Assurance) (securityRevision : Nat)
    (expiresAtMs nowMs : Int) : Session where
  sessionId := sessionId
  userId := user
  selectedOrganizationId := none
  assurance := assurance
  sessionRevision := 1
  userSecurityRevision := securityRevision
  expiresAtMs := expiresAtMs
  revokedAtMs := none
  createdAtMs := nowMs

def insertSession (session : Session) (db : Db) : Except SqlError Db := do
  let sessions ← db.sessions.insertOr .uniqueViolation session
  pure { db with sessions := sessions }

/-- `UPDATE auth_refresh_tokens SET revoked_at_ms = now` of the unrevoked rows of some sessions. -/
def revokeRefreshTokens (p : RefreshToken → Bool) (nowMs : Int) (db : Db) : Db :=
  { db with
    refreshTokens := db.refreshTokens.update (fun t => p t && t.revokedAtMs.isNone)
      fun t => { t with revokedAtMs := some nowMs } }

def insertOneTimeToken (token : OneTimeToken) (db : Db) : Except SqlError Db := do
  let tokens ← db.oneTimeTokens.insertOr .uniqueViolation token
  pure { db with oneTimeTokens := tokens }

/-- `UPDATE auth_one_time_tokens SET consumed_at_ms = now` of the unconsumed rows that satisfy `p`. -/
def consumeTokens (p : OneTimeToken → Bool) (nowMs : Int) (db : Db) : Db :=
  { db with
    oneTimeTokens := db.oneTimeTokens.update (fun t => p t && t.consumedAtMs.isNone)
      fun t => { t with consumedAtMs := some nowMs } }

/-- `token_candidate`: an unconsumed token of a purpose that has not expired. -/
def tokenCandidate (tokenHash : Bytes) (purpose : TokenPurpose) (nowMs : Int) (db : Db) :
    Option OneTimeToken :=
  (db.oneTimeTokens.find? tokenHash).filter fun t =>
    decide (t.purpose = purpose ∧ nowMs ≤ t.expiresAtMs ∧ t.consumedAtMs = none)

/-- `INSERT INTO auth_outbox` of a mail; `outbox_id` and `deduplication_key` are both unique. -/
def insertMail (outboxId : Uuid) (deduplicationKey keyVersion : String) (payloadCiphertext : Bytes)
    (nowMs : Int) (db : Db) : Except SqlError Db :=
  if db.hasDeduplicationKey deduplicationKey then .error .uniqueViolation
  else do
    let outbox ← db.outbox.insertOr .uniqueViolation
      (mailRow outboxId deduplicationKey keyVersion payloadCiphertext nowMs)
    pure { db with outbox := outbox }

end Db

end WasiAuth
