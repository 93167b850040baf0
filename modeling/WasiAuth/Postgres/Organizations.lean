import WasiAuth.Postgres.Queries

/-! # Organizations

`create_organization.sql`, `select_organization.sql`, `update_organization.sql` and
`archive_organization.sql`. A statement that changes memberships takes the values `gen_random_uuid()`
returns to its triggers as the parameter `uuids`.
-/

namespace WasiAuth

/-! ## Built-in roles -/

/-- `new_roles`. -/
def builtInRoles : List (String × String) :=
  [("owner", "Owner"), ("admin", "Administrator"), ("member", "Member"), ("viewer", "Viewer")]

/-- `new_permissions`. -/
def builtInPermissions : List (String × String) :=
  [("owner", "organization.view"), ("owner", "organization.update"), ("owner", "member.view"),
   ("owner", "member.invite"), ("owner", "member.manage"), ("owner", "role.view"), ("owner", "role.manage"),
   ("owner", "audit.view"), ("owner", "counter.view"), ("owner", "counter.change"), ("owner", "counter.reset"),
   ("owner", "dashboard.view"), ("owner", "dashboard.manage"), ("owner", "resource.view"),
   ("owner", "resource.manage"), ("owner", "query.view"), ("owner", "query.manage"),
   ("owner", "query.execute"), ("owner", "query.execute_mutation"), ("owner", "ownership.transfer"),
   ("owner", "vault.view"), ("owner", "vault.manage"), ("owner", "vault.reveal"),
   ("admin", "organization.view"), ("admin", "organization.update"), ("admin", "member.view"),
   ("admin", "member.invite"), ("admin", "member.manage"), ("admin", "role.view"), ("admin", "role.manage"),
   ("admin", "audit.view"), ("admin", "counter.view"), ("admin", "counter.change"), ("admin", "counter.reset"),
   ("admin", "dashboard.view"), ("admin", "dashboard.manage"), ("admin", "resource.view"),
   ("admin", "resource.manage"), ("admin", "query.view"), ("admin", "query.manage"),
   ("admin", "query.execute"), ("admin", "query.execute_mutation"),
   ("admin", "vault.view"), ("admin", "vault.manage"), ("admin", "vault.reveal"),
   ("member", "organization.view"), ("member", "member.view"), ("member", "role.view"),
   ("member", "counter.view"), ("member", "counter.change"), ("member", "dashboard.view"),
   ("member", "query.view"), ("member", "query.execute"),
   ("viewer", "organization.view"), ("viewer", "member.view"), ("viewer", "role.view"),
   ("viewer", "counter.view"), ("viewer", "dashboard.view")]

structure OrganizationView where
  organizationId : Uuid
  name : String
  slug : String
  status : OrganizationStatus
  createdAtMs : Int
  roleId : String
  permissions : List String
deriving DecidableEq

def OrganizationView.of (org : Organization) (roleId : String) (db : Db) : OrganizationView where
  organizationId := org.organizationId
  name := org.name
  slug := org.slug
  status := org.status
  createdAtMs := org.createdAtMs
  roleId := roleId
  permissions := db.permissionsOf org.organizationId roleId

namespace Statement

def modify (f : Db → Db) (st : Statement) : Statement := { st with db := f st.db }

end Statement

/-! ## Create -/

/-- `create_organization.sql`. The actor key `$2` and the session `$6` are the same session id
(organizations.rs:130-134). -/
structure CreateOrganization where
  idempotencyKey : String
  requestHash : Bytes
  organizationId : Uuid
  name : String
  slug : String
  sessionId : Uuid
  nowMs : Int
  uuids : Nat → Uuid

inductive CreateOrganizationOutcome
  | created (view : OrganizationView)
  | replayed (view : OrganizationView)
  | idempotencyConflict
  | slugConflict
  | unauthorized
deriving DecidableEq

/-- `new_organization`, `new_roles` and `new_permissions`; the insert queues the owner check. -/
def insertOrganization (org : Organization) (db : Db) : Except SqlError Statement := do
  let organizations ← db.organizations.insertOr .uniqueViolation org
  let roles ← db.roles.insertAllOr .uniqueViolation (builtInRoles.map fun (roleId, name) =>
    { organizationId := org.organizationId, roleId := roleId, name := name, builtIn := true })
  let rolePermissions ← db.rolePermissions.insertAllOr .uniqueViolation (builtInPermissions.map
    fun (roleId, permission) => ⟨org.organizationId, roleId, permission⟩)
  pure
    { db := { db with organizations := organizations, roles := roles, rolePermissions := rolePermissions }
      ownerChecks := [org.organizationId] }

/-- `replayed`: the stored organization, for a session whose user is an active member of it. -/
def replayOrganization (p : CreateOrganization) (row : Idempotency) (db : Db) : CreateOrganizationOutcome :=
  match db.organizations.find? row.response, db.sessions.find? p.sessionId with
  | some org, some session =>
    if (db.activeMembership org.organizationId session.userId).isSome then .replayed (.of org "owner" db)
    else .unauthorized
  | _, _ => .unauthorized

/-- The row `create_organization.sql` inserts. -/
def CreateOrganization.organization (p : CreateOrganization) (createdBy : Uuid) : Organization where
  organizationId := p.organizationId
  name := p.name
  slug := p.slug
  status := .active
  authorizationRevision := 1
  ownerCount := 0
  createdBy := createdBy
  createdAtMs := p.nowMs

/-- The `owner` row of `create_organization.sql`. -/
def CreateOrganization.owner (p : CreateOrganization) (user : Uuid) : Membership where
  organizationId := p.organizationId
  userId := user
  roleId := "owner"
  status := .active
  joinedAtMs := p.nowMs
  updatedAtMs := p.nowMs

def CreateOrganization.idempotencyRow (p : CreateOrganization) : Idempotency where
  idempotencyKey := p.idempotencyKey
  actorKey := p.sessionId.text
  operation := .createOrganization
  requestHash := p.requestHash
  response := p.organizationId

/-- The inserts of `create_organization.sql` for an eligible session. -/
def insertFounded (p : CreateOrganization) (session : Session) (user : User) (db : Db) :
    Except SqlError (CreateOrganizationOutcome × Db) := do
  let org := p.organization user.userId
  let st ← insertOrganization org db
  let st ← st.insertMembership (p.owner user.userId)
  let idempotency ← db.idempotency.insertOr .uniqueViolation p.idempotencyRow
  let st := st.modify fun db =>
    { db.selectOrganizationIn session.sessionId user.userId p.organizationId with idempotency := idempotency }
  let view := OrganizationView.of org "owner" st.db
  let db ← st.commit p.uuids
  pure (.created view, db)

/-- `slug_conflict`. -/
def Db.slugTaken (slug : String) (db : Db) : Bool := db.organizations.rows.any fun org => decide (org.slug = slug)

/-- organizations.rs:94 -/
def createOrganization (p : CreateOrganization) (db : Db) :
    Except SqlError (CreateOrganizationOutcome × Db) :=
  match db.idempotency.find? p.idempotencyKey with
  | some row =>
    if row.operation = .createOrganization ∧ row.actorKey = p.sessionId.text ∧ row.requestHash = p.requestHash then
      .ok (replayOrganization p row db, db)
    else .ok (.idempotencyConflict, db)
  | none =>
    if db.slugTaken p.slug then .ok (.slugConflict, db)
    else
      match db.liveSession p.sessionId p.nowMs with
      | none => .ok (.unauthorized, db)
      | some (session, user) => insertFounded p session user db

/-! ## Select, update, archive -/

/-- `select_organization.sql`. -/
structure SelectOrganization where
  sessionId : Uuid
  organizationId : Uuid
  nowMs : Int

/-- organizations.rs:186 -/
def selectOrganization (p : SelectOrganization) (db : Db) : Except SqlError (Option Uuid × Db) :=
  match db.memberActor p.sessionId p.organizationId p.nowMs, db.activeOrganization p.organizationId with
  | some (session, _, _), some _ =>
    .ok (some p.organizationId, db.selectOrganizationIn session.sessionId session.userId p.organizationId)
  | _, _ => .ok (none, db)

/-- `update_organization.sql`. -/
structure UpdateOrganization where
  sessionId : Uuid
  organizationId : Uuid
  name : String
  nowMs : Int

/-- management.rs:230 -/
def updateOrganization (p : UpdateOrganization) (db : Db) : Except SqlError (Option OrganizationView × Db) :=
  match db.permittedActor p.sessionId p.organizationId "organization.update" p.nowMs,
      db.activeOrganization p.organizationId with
  | some (_, _, membership), some org =>
    let updated := { org with name := p.name }
    .ok (some (.of updated membership.roleId db), db.setOrganization updated)
  | _, _ => .ok (none, db)

/-- `archive_organization.sql`. -/
structure ArchiveOrganization where
  sessionId : Uuid
  organizationId : Uuid
  nowMs : Int
  uuids : Nat → Uuid

/-- `revoked_invitations`. -/
def Db.revokeInvitations (p : Invitation → Bool) (db : Db) : Db :=
  { db with invitations := db.invitations.update p fun i => { i with status := .revoked } }

def Db.revokePendingInvitations (organization : Uuid) (db : Db) : Db :=
  db.revokeInvitations fun i => decide (i.organizationId = organization ∧ i.status = .pending)

/-- `consumed_tokens`: the invitation tokens of those invitations. -/
def Db.consumeInvitationTokens (organization : Uuid) (nowMs : Int) (db : Db) : Db :=
  db.consumeTokens (fun t => decide (t.purpose = .invitation) && db.invitations.rows.any fun i =>
    decide (i.organizationId = organization ∧ i.status = .pending ∧ i.tokenHash = t.tokenHash)) nowMs

/-- management.rs:589 -/
def archiveOrganization (p : ArchiveOrganization) (db : Db) : Except SqlError (Option OrganizationView × Db) :=
  match db.permittedActor p.sessionId p.organizationId "ownership.transfer" p.nowMs,
      db.activeOrganization p.organizationId with
  | some (_, _, membership), some org => do
    let archived := { org with
      status := .archived, authorizationRevision := org.authorizationRevision + 1 }
    let st : Statement :=
      { db := db.setOrganization archived, ownerChecks := [org.organizationId] }
    let st := st.modify fun db =>
      ((db.consumeInvitationTokens p.organizationId p.nowMs).revokePendingInvitations p.organizationId).clearSessions
        fun s => decide (s.selectedOrganizationId = some p.organizationId)
    let view := OrganizationView.of archived membership.roleId db
    let db ← st.commit p.uuids
    pure (some view, db)
  | _, _ => .ok (none, db)

end WasiAuth
