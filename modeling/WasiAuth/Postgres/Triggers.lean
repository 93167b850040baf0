import WasiAuth.Postgres.Schema

/-! # Membership writes and the triggers they fire

`auth_memberships` carries two row triggers and `auth_organizations` one deferred constraint trigger.
A `Statement` is a data-modifying statement in progress, with what PostgreSQL keeps for its end: `afterRows`
is the queue of `AFTER ROW` events, fired in order when the statement ends, and `ownerChecks` that of
`auth_organization_owner_invariant`, deferred to the commit (0004:57-87).

An `INSERT … ON CONFLICT DO UPDATE` fires the `BEFORE INSERT` trigger on the proposed row, finds the
conflicting row, and then fires the `BEFORE UPDATE` trigger on that row and queues only the update
(`upsertMembership`).
-/

namespace WasiAuth

/-- `TG_OP` with its `OLD` and `NEW` rows. -/
inductive RowEvent
  | insert (new : Membership)
  | update (old new : Membership)
  | delete (old : Membership)

/-- `role_id = 'owner' AND status = 'active'`. -/
def Membership.isOwner (m : Membership) : Bool := decide (m.roleId = "owner" ∧ m.status = .active)

def Membership.isActive (m : Membership) : Bool := decide (m.status = .active)

namespace RowEvent

def oldIsOwner : RowEvent → Bool
  | .insert _ => false
  | .update old _ | .delete old => old.isOwner

def newIsOwner : RowEvent → Bool
  | .insert new | .update _ new => new.isOwner
  | .delete _ => false

def previousActive : RowEvent → Bool
  | .insert _ => false
  | .update old _ | .delete old => old.isActive

def currentActive : RowEvent → Bool
  | .insert new | .update _ new => new.isActive
  | .delete _ => false

/-- The row that names the organization, the user and the transition time: `NEW`, or `OLD` of a delete. -/
def target : RowEvent → Membership
  | .insert new | .update _ new => new
  | .delete old => old

/-- An update that assigns `role_id` and `status` the values they had. -/
def unchanged : RowEvent → Bool
  | .update old new => decide (old.roleId = new.roleId ∧ old.status = new.status)
  | _ => false

end RowEvent

/-- A statement in progress: its writes so far and its queued trigger events. -/
structure Statement where
  db : Db
  afterRows : List RowEvent := []
  ownerChecks : List Uuid := []

/-! ## `BEFORE`: the owner count -/

/-- `UPDATE auth_organizations SET owner_count = n` for one row; the constraint trigger is queued. -/
def Statement.setOwnerCount (org : Organization) (n : Nat) (st : Statement) : Statement :=
  { st with
    db := { st.db with organizations := st.db.organizations.set { org with ownerCount := n } }
    ownerChecks := st.ownerChecks ++ [org.organizationId] }

/-- `auth_adjust_owner_count`, `BEFORE INSERT OR UPDATE OF role_id, status OR DELETE` (0010:100-142). -/
def Statement.adjustOwnerCount (e : RowEvent) (st : Statement) : Except SqlError Statement :=
  if e.oldIsOwner && !e.newIsOwner then
    match st.db.organizations.find? e.target.organizationId with
    | some org =>
      if 1 < org.ownerCount then .ok (st.setOwnerCount org (org.ownerCount - 1))
      else .error .organizationRequiresOwner
    | none => .error .organizationRequiresOwner
  else if e.newIsOwner && !e.oldIsOwner then
    match st.db.organizations.find? e.target.organizationId with
    | some org => .ok (st.setOwnerCount org (org.ownerCount + 1))
    | none => .error .foreignKeyViolation
  else .ok st

/-! ## Membership writes -/

/-- The row is written and its `AFTER` event queued. -/
def Statement.writeMembership (memberships : Relational.Table Membership.key) (e : RowEvent)
    (st : Statement) : Statement :=
  { st with db := { st.db with memberships := memberships }, afterRows := st.afterRows ++ [e] }

/-- `INSERT INTO auth_memberships`. -/
def Statement.insertMembership (new : Membership) (st : Statement) : Except SqlError Statement := do
  let st ← st.adjustOwnerCount (.insert new)
  let memberships ← st.db.memberships.insertOr .uniqueViolation new
  pure (st.writeMembership memberships (.insert new))

/-- `UPDATE auth_memberships SET role_id …, status …` of the row `old`. -/
def Statement.updateMembership (old new : Membership) (st : Statement) : Except SqlError Statement := do
  let st ← st.adjustOwnerCount (.update old new)
  pure (st.writeMembership (st.db.memberships.set new) (.update old new))

/-- `INSERT INTO auth_memberships … ON CONFLICT (organization_id, user_id) DO UPDATE SET role_id =
EXCLUDED.role_id, status = 'active', updated_at_ms = EXCLUDED.updated_at_ms`. -/
def Statement.upsertMembership (proposed : Membership) (st : Statement) : Except SqlError Statement := do
  match st.db.memberships.find? proposed.key with
  | none => st.insertMembership proposed
  | some old =>
    -- the conflict is found only after the `BEFORE INSERT` trigger has run
    let st ← st.adjustOwnerCount (.insert proposed)
    st.updateMembership old
      { old with roleId := proposed.roleId, status := .active, updatedAtMs := proposed.updatedAtMs }

/-- One `UPDATE` of several membership rows, row by row. -/
def Statement.updateMemberships (f : Membership → Membership) :
    List Membership → Statement → Except SqlError Statement
  | [], st => .ok st
  | m :: ms, st => do
    let st ← st.updateMembership m (f m)
    updateMemberships f ms st

/-! ## `AFTER`: the authorization revision and the relationship intent -/

def RelationshipOperation.text : RelationshipOperation → String
  | .grant => "grant"
  | .revoke => "revoke"

def membershipTuple (organization user : Uuid) : RelationshipTuple where
  resourceType := "organization"
  resourceId := organization.text
  relation := "member"
  subjectType := "user"
  subjectId := user.text

/-- `intent_deduplication_key`. -/
def intentKey (organization user : Uuid) (revision : Nat) (operation : RelationshipOperation) : String :=
  "relationship:organization:" ++ organization.text ++ ":member:user:" ++ user.text ++ ":" ++
    Nat.repr revision ++ ":" ++ operation.text

def intentRow (outboxId organization user : Uuid) (revision : Nat) (operation : RelationshipOperation)
    (transitionAt : Int) : OutboxRow where
  outboxId := outboxId
  deduplicationKey := intentKey organization user revision operation
  payload := .relationship operation (membershipTuple organization user) revision
  status := .pending
  attemptCount := 0
  availableAtMs := transitionAt
  leaseId := none
  leasedUntilMs := none
  deliveredAtMs := none
  deliveryId := none
  lastErrorCode := none
  createdAtMs := transitionAt

/-- `deduplication_key` is unique. -/
def Db.hasDeduplicationKey (db : Db) (key : String) : Bool :=
  db.outbox.rows.any fun row => decide (row.deduplicationKey = key)

/-- `INSERT INTO auth_outbox … ON CONFLICT (deduplication_key) DO NOTHING`. -/
def Db.insertOutboxOnce (row : OutboxRow) (db : Db) : Except SqlError Db :=
  if db.hasDeduplicationKey row.deduplicationKey then .ok db
  else do
    let outbox ← db.outbox.insertOr .uniqueViolation row
    pure { db with outbox := outbox }

/-- `auth_track_membership_authorization`, `AFTER` the same (0010:144-219); `outboxId` is what `gen_random_uuid()`
returns. -/
def Db.trackMembershipAuthorization (outboxId : Uuid) (e : RowEvent) (db : Db) : Except SqlError Db :=
  if e.unchanged then .ok db
  else
    match db.organizations.find? e.target.organizationId with
    | none => .error .foreignKeyViolation
    | some org =>
      let nextRevision := org.authorizationRevision + 1
      let db := { db with organizations := db.organizations.set { org with authorizationRevision := nextRevision } }
      if e.previousActive = e.currentActive then .ok db
      else
        let operation := if e.currentActive then .grant else .revoke
        db.insertOutboxOnce
          (intentRow outboxId e.target.organizationId e.target.userId nextRevision operation e.target.updatedAtMs)

/-- The queued `AFTER` triggers, in order; `uuids n` is the random id of the `n`-th. -/
def Db.fireAfterRows : (uuids : Nat → Uuid) → List RowEvent → Db → Except SqlError Db
  | _, [], db => .ok db
  | uuids, e :: es, db => do
    let db ← db.trackMembershipAuthorization (uuids 0) e
    fireAfterRows (fun n => uuids (n + 1)) es db

/-! ## Commit: the deferred owner check -/

/-- `auth_validate_owner_count` finds nothing to complain about. -/
def Db.ownerCheckPasses (db : Db) (organization : Uuid) : Bool :=
  match db.organizations.find? organization with
  | some org => decide (org.status = .active → 1 ≤ org.ownerCount)
  | none => true

/-- Fire the queued events, then check the owners. -/
def Statement.commit (uuids : Nat → Uuid) (st : Statement) : Except SqlError Db := do
  let db ← st.db.fireAfterRows uuids st.afterRows
  if st.ownerChecks.all db.ownerCheckPasses then pure db else throw .organizationRequiresOwner

end WasiAuth
