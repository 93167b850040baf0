import WasiAuth.Postgres.Organizations

/-! # Tenant management

Invitations, membership changes, custom roles and the administrator's disable switch.
-/

namespace WasiAuth

/-! ## Invitations -/

/-- `create_invitation.sql`; the mail key is `invitation:<invitation>` (management.rs:868-890). -/
structure CreateInvitation where
  sessionId : Uuid
  organizationId : Uuid
  normalizedEmail : String
  roleId : String
  invitationId : Uuid
  tokenHash : Bytes
  expiresAtMs : Int
  outboxId : Uuid
  keyVersion : String
  payloadCiphertext : Bytes
  nowMs : Int

/-- `auth_invitations.token_hash` is unique. -/
def Db.invitationHashTaken (tokenHash : Bytes) (except : Option Uuid) (db : Db) : Bool :=
  db.invitations.rows.any fun i => decide (i.tokenHash = tokenHash ∧ some i.invitationId ≠ except)

def invitationToken (tokenHash : Bytes) (expiresAtMs : Int) : OneTimeToken where
  tokenHash := tokenHash
  purpose := .invitation
  userId := none
  expiresAtMs := expiresAtMs
  consumedAtMs := none

/-- `assignable_role`: the role exists, and owner may be given only by a role with `ownership.transfer`. -/
def Db.mayInvite (organization : Uuid) (roleId actorRoleId : String) (db : Db) : Bool :=
  (db.roles.find? (organization, roleId)).isSome &&
    (decide (roleId ≠ "owner") || db.hasPermission organization actorRoleId "ownership.transfer")

/-- management.rs:820 -/
def createInvitation (p : CreateInvitation) (db : Db) : Except SqlError (Option Invitation × Db) :=
  match db.permittedActor p.sessionId p.organizationId "member.invite" p.nowMs with
  | none => .ok (none, db)
  | some (_, user, membership) =>
    if db.mayInvite p.organizationId p.roleId membership.roleId then do
      let invitation : Invitation :=
        { invitationId := p.invitationId, organizationId := p.organizationId,
          normalizedEmail := p.normalizedEmail, roleId := p.roleId, tokenHash := p.tokenHash,
          status := .pending, expiresAtMs := p.expiresAtMs, acceptedAtMs := none, acceptedBy := none,
          createdBy := user.userId }
      let revoked := db.revokeInvitations fun i =>
        decide (i.organizationId = p.organizationId ∧ i.normalizedEmail = p.normalizedEmail ∧ i.status = .pending)
      if db.invitationHashTaken p.tokenHash none then throw .uniqueViolation
      let invitations ← revoked.invitations.insertOr .uniqueViolation invitation
      let db ← { db with invitations := invitations }.insertOneTimeToken
        (invitationToken p.tokenHash p.expiresAtMs)
      let db ← db.insertMail p.outboxId ("invitation:" ++ p.invitationId.text) p.keyVersion
        p.payloadCiphertext p.nowMs
      pure (some invitation, db)
    else .ok (none, db)

/-- `locked_invitation` of `resend_invitation.sql` and `revoke_invitation.sql`. -/
def Db.pendingInvitation (invitationId organization : Uuid) (db : Db) : Option Invitation :=
  (db.invitations.find? invitationId).filter fun i =>
    decide (i.organizationId = organization ∧ i.status = .pending)

/-- `resend_invitation.sql`; the mail key is `invitation-resend:<outbox>`. -/
structure ResendInvitation where
  sessionId : Uuid
  organizationId : Uuid
  invitationId : Uuid
  tokenHash : Bytes
  expiresAtMs : Int
  outboxId : Uuid
  keyVersion : String
  payloadCiphertext : Bytes
  nowMs : Int

/-- management.rs:982 -/
def resendInvitation (p : ResendInvitation) (db : Db) : Except SqlError (Option Invitation × Db) :=
  match db.permittedActor p.sessionId p.organizationId "member.invite" p.nowMs,
      db.pendingInvitation p.invitationId p.organizationId with
  | some _, some invitation => do
    let db := db.consumeTokens
      (fun t => decide (t.tokenHash = invitation.tokenHash ∧ t.purpose = .invitation)) p.nowMs
    let rotated := { invitation with tokenHash := p.tokenHash, expiresAtMs := p.expiresAtMs }
    if db.invitationHashTaken p.tokenHash (some p.invitationId) then throw .uniqueViolation
    let db ← (db.setInvitation rotated).insertOneTimeToken
      (invitationToken p.tokenHash p.expiresAtMs)
    let db ← db.insertMail p.outboxId ("invitation-resend:" ++ p.outboxId.text) p.keyVersion
      p.payloadCiphertext p.nowMs
    pure (some rotated, db)
  | _, _ => .ok (none, db)

/-- `revoke_invitation.sql`. -/
structure RevokeInvitation where
  sessionId : Uuid
  organizationId : Uuid
  invitationId : Uuid
  nowMs : Int

/-- management.rs:940 -/
def revokeInvitation (p : RevokeInvitation) (db : Db) : Except SqlError (Option Invitation × Db) :=
  match db.permittedActor p.sessionId p.organizationId "member.invite" p.nowMs,
      db.pendingInvitation p.invitationId p.organizationId with
  | some _, some invitation =>
    let revoked := { invitation with status := .revoked }
    let db := db.consumeTokens
      (fun t => decide (t.tokenHash = invitation.tokenHash ∧ t.purpose = .invitation)) p.nowMs
    .ok (some revoked, db.setInvitation revoked)
  | _, _ => .ok (none, db)

/-- `accept_invitation.sql`. -/
structure AcceptInvitation where
  sessionId : Uuid
  tokenHash : Bytes
  nowMs : Int
  uuids : Nat → Uuid

/-- `eligible`: the pending invitation to the caller's own email, in an active organization; owner and
admin invitations need `aal2`. -/
def Db.eligibleInvitation (session : Session) (user : User) (tokenHash : Bytes) (nowMs : Int) (db : Db) :
    Option Invitation :=
  (db.invitations.rows.find? fun i => decide (i.tokenHash = tokenHash)).filter fun i =>
    decide (i.normalizedEmail = user.normalizedEmail) && (db.activeOrganization i.organizationId).isSome &&
      decide (i.status = .pending) && decide (nowMs < i.expiresAtMs) &&
        ((decide (i.roleId ≠ "owner") && decide (i.roleId ≠ "admin")) || session.assurance.stepped)

def invitedMembership (invitation : Invitation) (user : Uuid) (nowMs : Int) : Membership where
  organizationId := invitation.organizationId
  userId := user
  roleId := invitation.roleId
  status := .active
  joinedAtMs := nowMs
  updatedAtMs := nowMs

/-- management.rs:899 -/
def acceptInvitation (p : AcceptInvitation) (db : Db) : Except SqlError (Option OrganizationView × Db) :=
  match db.liveSession p.sessionId p.nowMs with
  | none => .ok (none, db)
  | some (session, user) =>
    match db.eligibleInvitation session user p.tokenHash p.nowMs with
    | none => .ok (none, db)
    | some invitation =>
      let accepted := { invitation with
        status := .accepted, acceptedAtMs := some p.nowMs, acceptedBy := some user.userId }
      let after := db.setInvitation accepted
      match (db.oneTimeTokens.find? p.tokenHash).filter fun t =>
          decide (t.purpose = .invitation ∧ t.consumedAtMs = none),
          db.organizations.find? invitation.organizationId with
      | some token, some org => do
        let after := { after with oneTimeTokens := after.oneTimeTokens.set { token with consumedAtMs := some p.nowMs } }
        let st ← Statement.upsertMembership (invitedMembership invitation user.userId p.nowMs) { db := after }
        let st := st.modify (·.selectOrganizationIn session.sessionId user.userId invitation.organizationId)
        let view := OrganizationView.of org invitation.roleId db
        let db ← st.commit p.uuids
        pure (some view, db)
      -- the invitation is marked accepted even when its token was consumed
      | _, _ => .ok (none, after)

/-! ## Membership changes -/

/-- `assign_membership_role.sql`. -/
structure AssignMembershipRole where
  sessionId : Uuid
  organizationId : Uuid
  userId : Uuid
  roleId : String
  nowMs : Int
  uuids : Nat → Uuid

structure MembershipView where
  organizationId : Uuid
  userId : Uuid
  roleId : String
  status : MembershipStatus
  joinedAtMs : Int
deriving DecidableEq

def MembershipView.of (m : Membership) : MembershipView :=
  ⟨m.organizationId, m.userId, m.roleId, m.status, m.joinedAtMs⟩

/-- `eligible`: `AND` binds tighter than `OR`. -/
def Db.mayAssign (target : Membership) (roleId : String) (canTransfer : Bool) (db : Db) : Bool :=
  (decide (target.roleId ≠ "owner") && decide (roleId ≠ "owner")) ||
    (canTransfer && (decide (roleId = "owner") || decide (target.roleId ≠ "owner") ||
      decide (1 < db.activeOwners target.organizationId)))

/-- management.rs:422 -/
def assignMembershipRole (p : AssignMembershipRole) (db : Db) :
    Except SqlError (Option MembershipView × Db) :=
  match db.permittedActor p.sessionId p.organizationId "member.manage" p.nowMs,
      db.activeOrganization p.organizationId, db.activeMembership p.organizationId p.userId,
      db.roles.find? (p.organizationId, p.roleId) with
  | some (_, _, actor), some _, some target, some role =>
    if db.mayAssign target role.roleId (db.hasPermission p.organizationId actor.roleId "ownership.transfer") then do
      let updated := { target with roleId := role.roleId, updatedAtMs := p.nowMs }
      let st ← Statement.updateMembership target updated { db := db }
      let db ← st.commit p.uuids
      pure (some (.of updated), db)
    else .ok (none, db)
  | _, _, _, _ => .ok (none, db)

/-- `removed` and `cleared_sessions` of `remove_membership.sql` and `leave_organization.sql`. -/
def removeMember (target : Membership) (nowMs : Int) (uuids : Nat → Uuid) (db : Db) : Except SqlError Db := do
  let st ← Statement.updateMembership target { target with status := .removed, updatedAtMs := nowMs } { db := db }
  (st.modify (·.clearUserSessions target.userId target.organizationId)).commit uuids

/-- `remove_membership.sql`. -/
structure RemoveMembership where
  sessionId : Uuid
  organizationId : Uuid
  userId : Uuid
  nowMs : Int
  uuids : Nat → Uuid

def removeMembership (p : RemoveMembership) (db : Db) : Except SqlError (Option Unit × Db) :=
  match db.permittedActor p.sessionId p.organizationId "member.manage" p.nowMs,
      db.activeOrganization p.organizationId, db.activeMembership p.organizationId p.userId with
  | some (_, _, actor), some _, some target =>
    if decide (target.roleId ≠ "owner") ||
        (db.hasPermission p.organizationId actor.roleId "ownership.transfer" &&
          decide (1 < db.activeOwners target.organizationId)) then do
      let db ← removeMember target p.nowMs p.uuids db
      pure (some (), db)
    else .ok (none, db)
  | _, _, _ => .ok (none, db)

/-- `leave_organization.sql`. -/
structure LeaveOrganization where
  sessionId : Uuid
  organizationId : Uuid
  nowMs : Int
  uuids : Nat → Uuid

/-- management.rs:545 -/
def leaveOrganization (p : LeaveOrganization) (db : Db) : Except SqlError (Option Unit × Db) :=
  match db.memberActor p.sessionId p.organizationId p.nowMs, db.activeOrganization p.organizationId with
  | some (_, _, target), some _ =>
    if decide (target.roleId ≠ "owner") || decide (1 < db.activeOwners target.organizationId) then do
      let db ← removeMember target p.nowMs p.uuids db
      pure (some (), db)
    else .ok (none, db)
  | _, _ => .ok (none, db)

/-- `transfer_ownership.sql`. -/
structure TransferOwnership where
  sessionId : Uuid
  organizationId : Uuid
  userId : Uuid
  nowMs : Int
  uuids : Nat → Uuid

/-- `demoted_actor`: an actor that was an owner in the snapshot becomes an admin. -/
def Statement.demoteOwner (actor : Membership) (nowMs : Int) (st : Statement) : Except SqlError Statement :=
  if actor.roleId = "owner" then st.updateMembership actor { actor with roleId := "admin", updatedAtMs := nowMs }
  else .ok st

/-- management.rs:506 -/
def transferOwnership (p : TransferOwnership) (db : Db) : Except SqlError (Option MembershipView × Db) :=
  match (db.permittedActor p.sessionId p.organizationId "ownership.transfer" p.nowMs).filter
        fun (session, _, _) => decide (session.userId ≠ p.userId),
      db.activeOrganization p.organizationId, db.activeMembership p.organizationId p.userId with
  | some (_, _, actor), some _, some target => do
    let promoted := { target with roleId := "owner", updatedAtMs := p.nowMs }
    let st ← Statement.updateMembership target promoted { db := db }
    let st ← st.demoteOwner actor p.nowMs
    let db ← st.commit p.uuids
    pure (some (.of promoted), db)
  | _, _, _ => .ok (none, db)

/-! ## Custom roles -/

/-- `upsert_role.sql`. -/
structure UpsertRole where
  sessionId : Uuid
  organizationId : Uuid
  roleId : String
  name : String
  permissions : List String
  nowMs : Int

/-- `saved_role`: a new custom role or a renamed one; a built-in role is left alone. `(organization_id,
name)` is unique. -/
def Db.saveRole (organization : Uuid) (roleId name : String) (db : Db) : Except SqlError (Option Db) :=
  let nameTaken := db.roles.rows.any fun r =>
    decide (r.organizationId = organization ∧ r.name = name ∧ r.roleId ≠ roleId)
  match db.roles.find? (organization, roleId) with
  | some role =>
    if role.builtIn then .ok none
    else if nameTaken then .error .uniqueViolation
    else .ok (some { db with roles := db.roles.set { role with name := name } })
  | none =>
    if nameTaken then .error .uniqueViolation
    else do
      let roles ← db.roles.insertOr .uniqueViolation
        { organizationId := organization, roleId := roleId, name := name, builtIn := false }
      pure (some { db with roles := roles })

/-- `revised`: the organization's authorization revision moves on. -/
def Db.bumpAuthorizationRevision (organization : Uuid) (db : Db) : Db :=
  { db with
    organizations := db.organizations.update (fun org => decide (org.organizationId = organization))
      fun org => { org with authorizationRevision := org.authorizationRevision + 1 } }

def Db.deleteRolePermissions (organization : Uuid) (roleId : String) (db : Db) : Db :=
  { db with
    rolePermissions := db.rolePermissions.delete fun r =>
      decide (r.organizationId = organization ∧ r.roleId = roleId) }

/-- management.rs:319 -/
def upsertRole (p : UpsertRole) (db : Db) : Except SqlError (Option Unit × Db) :=
  match db.permittedActor p.sessionId p.organizationId "role.manage" p.nowMs,
      db.activeOrganization p.organizationId with
  | some _, some _ => do
    match ← db.saveRole p.organizationId p.roleId p.name with
    | none => pure (none, db)
    | some saved =>
      let cleared := saved.deleteRolePermissions p.organizationId p.roleId
      let rolePermissions ← cleared.rolePermissions.insertAllOr .uniqueViolation
        (p.permissions.map fun permission => ⟨p.organizationId, p.roleId, permission⟩)
      pure (some (), { cleared with rolePermissions := rolePermissions }.bumpAuthorizationRevision p.organizationId)
  | _, _ => .ok (none, db)

/-- `delete_role.sql`. -/
structure DeleteRole where
  sessionId : Uuid
  organizationId : Uuid
  roleId : String
  nowMs : Int
  uuids : Nat → Uuid

inductive DeleteRoleOutcome
  | deleted (roleId name : String)
  | inUse (roleId name : String) (memberCount invitationCount : Nat)
deriving DecidableEq

/-- `retargeted_invitations`: the settled invitations of a role fall back to `member`. -/
def Db.retargetInvitations (organization : Uuid) (roleId : String) (db : Db) : Db :=
  { db with
    invitations := db.invitations.update
      (fun i => decide (i.organizationId = organization ∧ i.roleId = roleId ∧ i.status ≠ .pending))
      fun i => { i with roleId := "member" } }

/-- management.rs:376 -/
def deleteRole (p : DeleteRole) (db : Db) : Except SqlError (Option DeleteRoleOutcome × Db) :=
  match db.permittedActor p.sessionId p.organizationId "role.manage" p.nowMs,
      db.activeOrganization p.organizationId,
      (db.roles.find? (p.organizationId, p.roleId)).filter fun r => !r.builtIn with
  | some _, some _, some role =>
    let ofRole := fun m : Membership => decide (m.organizationId = p.organizationId ∧ m.roleId = p.roleId)
    let memberCount := db.memberships.count fun m => ofRole m && m.isActive
    let invitationCount := db.invitations.count fun i =>
      decide (i.organizationId = p.organizationId ∧ i.roleId = p.roleId ∧ i.status = .pending)
    if memberCount = 0 ∧ invitationCount = 0 then do
      let st ← Statement.updateMemberships (fun m => { m with roleId := "member", updatedAtMs := p.nowMs })
        (db.memberships.rows.filter fun m => ofRole m && !m.isActive) { db := db }
      let st := st.modify fun db =>
        let db := db.retargetInvitations p.organizationId p.roleId
        let db := { db with roles := db.roles.delete fun r => decide (r.key = (p.organizationId, p.roleId)) }
        -- `auth_role_permissions` cascades
        (db.deleteRolePermissions p.organizationId p.roleId).bumpAuthorizationRevision p.organizationId
      let db ← st.commit p.uuids
      pure (some (.deleted role.roleId role.name), db)
    else .ok (some (.inUse role.roleId role.name memberCount invitationCount), db)
  | _, _, _ => .ok (none, db)

/-! ## The administrator's disable switch -/

/-- `set_user_disabled.sql`. -/
structure SetUserDisabled where
  sessionId : Uuid
  userId : Uuid
  disabled : Bool
  nowMs : Int
  uuids : Nat → Uuid

/-- `owner_guard`: no membership of the user is the last active owner of its organization. -/
def Db.mayDisable (user : Uuid) (db : Db) : Bool :=
  db.memberships.rows.all fun m =>
    decide (m.userId ≠ user) || !m.isOwner || decide (1 < db.activeOwners m.organizationId)

/-- The status `updated_memberships` assigns: `active` and `blocked` swap. -/
def MembershipStatus.switch (disabled : Bool) : MembershipStatus → MembershipStatus
  | .active => if disabled then .blocked else .active
  | .blocked => if disabled then .blocked else .active
  | status => status

/-- management.rs:677 -/
def setUserDisabled (p : SetUserDisabled) (db : Db) : Except SqlError (Option User × Db) :=
  match db.administratorActor p.sessionId p.nowMs,
      (db.users.find? p.userId).filter fun u =>
        decide (u.status ≠ .anonymized) && (!p.disabled || db.mayDisable p.userId) with
  | some _, some user => do
    let updated := { user with
      status := if p.disabled then .disabled else .active, securityRevision := user.securityRevision + 1 }
    let st ← Statement.updateMemberships
      (fun m => { m with status := m.status.switch p.disabled, updatedAtMs := p.nowMs })
      (db.memberships.rows.filter fun m =>
        decide (m.userId = p.userId ∧ (m.status = .active ∨ m.status = .blocked)))
      { db := db.setUser updated }
    let st := st.modify fun db =>
      db.updateSessions (fun s => decide (s.userId = p.userId) && (p.disabled || s.revokedAtMs.isNone))
        fun s => { s with
          revokedAtMs := if p.disabled then some p.nowMs else s.revokedAtMs
          sessionRevision := s.sessionRevision + 1 }
    let db ← st.commit p.uuids
    pure (some updated, db)
  | _, _ => .ok (none, db)

end WasiAuth
