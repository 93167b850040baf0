import Mathlib.Data.List.Sort
import WasiAuth.Postgres.Queries

/-! # The outbox statements

`lease_outbox.sql`, `complete_outbox.sql`, `retry_outbox.sql` and `load_relationship_consistency.sql`.
-/

namespace WasiAuth

namespace OutboxRow

def tuple? (row : OutboxRow) : Option RelationshipTuple :=
  match row.payload with
  | .relationship _ tuple _ => some tuple
  | .mail .. => none

/-- A relationship row's `resource_revision`. -/
def revision? (row : OutboxRow) : Option Nat :=
  match row.payload with
  | .relationship _ _ revision => some revision
  | .mail .. => none

/-- The two rows are intents of one tuple and `earlier` comes first by `(resource_revision, outbox_id)`. -/
def precedes (earlier later : OutboxRow) : Bool :=
  match earlier.payload, later.payload with
  | .relationship _ t r, .relationship _ t' r' =>
    decide (t = t' ∧ (r < r' ∨ (r = r' ∧ earlier.outboxId < later.outboxId)))
  | _, _ => false

end OutboxRow

/-! ## Leasing -/

/-- `lease_outbox.sql`. `locked` marks the rows other transactions hold (`SKIP LOCKED`). -/
structure LeaseOutbox where
  kind : OutboxKind
  nowMs : Int
  limit : Nat
  leaseId : Uuid
  leasedUntilMs : Int
  locked : Uuid → Bool

/-- `candidates`: due or with an expired lease, and nothing undelivered before it. -/
def Db.leasable (p : LeaseOutbox) (row : OutboxRow) (db : Db) : Bool :=
  decide (row.payload.kind = p.kind ∧ row.availableAtMs ≤ p.nowMs) &&
    (decide (row.status = .pending) ||
      (decide (row.status = .leased) && row.leasedUntilMs.any fun until_ => decide (until_ ≤ p.nowMs))) &&
    !db.outbox.rows.any fun earlier => earlier.precedes row && decide (earlier.status ≠ .delivered)

/-- `ORDER BY available_at_ms, created_at_ms, outbox_id`. -/
def OutboxRow.leaseOrder (a b : OutboxRow) : Prop :=
  a.availableAtMs < b.availableAtMs ∨ (a.availableAtMs = b.availableAtMs ∧
    (a.createdAtMs < b.createdAtMs ∨ (a.createdAtMs = b.createdAtMs ∧ ¬ b.outboxId < a.outboxId)))

instance : DecidableRel OutboxRow.leaseOrder := fun _ _ => inferInstanceAs (Decidable (_ ∨ _))

/-- `candidates`. -/
def Db.leaseCandidates (p : LeaseOutbox) (db : Db) : List OutboxRow :=
  ((db.outbox.rows.filter fun row => db.leasable p row && !p.locked row.outboxId).insertionSort
    OutboxRow.leaseOrder).take p.limit

def OutboxRow.lease (p : LeaseOutbox) (row : OutboxRow) : OutboxRow :=
  { row with
    status := .leased
    leaseId := some p.leaseId
    leasedUntilMs := some p.leasedUntilMs
    attemptCount := row.attemptCount + 1 }

/-- The leased rows, as the statement returns them, and the new table. -/
def leaseOutbox (p : LeaseOutbox) (db : Db) : Except SqlError (List OutboxRow × Db) :=
  let candidates := db.leaseCandidates p
  .ok (candidates.map (·.lease p),
    { db with
      outbox := db.outbox.update (fun row => candidates.any fun c => decide (c.outboxId = row.outboxId))
        (·.lease p) })

/-! ## Settling a lease -/

/-- `WHERE outbox_id = $1 AND lease_id = $2 AND status = 'leased'`. -/
def OutboxRow.heldBy (outboxId leaseId : Uuid) (row : OutboxRow) : Bool :=
  decide (row.outboxId = outboxId ∧ row.leaseId = some leaseId ∧ row.status = .leased)

/-- `complete_outbox.sql`. -/
structure CompleteOutbox where
  outboxId : Uuid
  leaseId : Uuid
  nowMs : Int
  deliveryId : String

def OutboxRow.complete (p : CompleteOutbox) (row : OutboxRow) : OutboxRow :=
  { row with
    status := .delivered
    deliveredAtMs := some p.nowMs
    deliveryId := some p.deliveryId
    leaseId := none
    leasedUntilMs := none
    lastErrorCode := none }

/-- `true` when a row was updated. -/
def completeOutbox (p : CompleteOutbox) (db : Db) : Except SqlError (Bool × Db) :=
  .ok (db.outbox.rows.any (·.heldBy p.outboxId p.leaseId),
    { db with outbox := db.outbox.update (·.heldBy p.outboxId p.leaseId) (·.complete p) })

/-- `retry_outbox.sql`. -/
structure RetryOutbox where
  outboxId : Uuid
  leaseId : Uuid
  nowMs : Int
  availableAtMs : Int
  errorCode : String
  maxAttempts : Nat

def OutboxRow.retry (p : RetryOutbox) (row : OutboxRow) : OutboxRow :=
  { row with
    status := if p.maxAttempts ≤ row.attemptCount then .deadLetter else .pending
    availableAtMs := p.availableAtMs
    leaseId := none
    leasedUntilMs := none
    lastErrorCode := some p.errorCode }

def retryOutbox (p : RetryOutbox) (db : Db) : Except SqlError (Bool × Db) :=
  .ok (db.outbox.rows.any (·.heldBy p.outboxId p.leaseId),
    { db with outbox := db.outbox.update (·.heldBy p.outboxId p.leaseId) (·.retry p) })

/-! ## Consistency of a resource -/

def OutboxRow.ofResource (resourceType resourceId : String) (row : OutboxRow) : Bool :=
  row.tuple?.any fun t => decide (t.resourceType = resourceType ∧ t.resourceId = resourceId)

/-- `resource_revision DESC, delivered_at_ms DESC, outbox_id DESC`; PostgreSQL sorts nulls first when
descending. -/
def OutboxRow.newerDelivery (a b : OutboxRow) : Bool :=
  match a.revision?, b.revision? with
  | some r, some r' =>
    decide (r' < r) || (decide (r = r') && (newerTime a.deliveredAtMs b.deliveredAtMs ||
      (decide (a.deliveredAtMs = b.deliveredAtMs) && decide (¬ a.outboxId < b.outboxId))))
  | _, _ => true
where
  newerTime : Option Int → Option Int → Bool
    | none, some _ => true
    | some t, some t' => decide (t' < t)
    | _, none => false

/-- The row `load_relationship_consistency.sql` returns. -/
structure RelationshipConsistency where
  hasUnsettled : Bool
  consistencyToken : Option String
  resourceRevision : Option Nat
deriving DecidableEq

/-- `load_relationship_consistency.sql`. -/
def Db.loadRelationshipConsistency (resourceType resourceId : String) (db : Db) : RelationshipConsistency :=
  let rows := db.outbox.rows.filter (·.ofResource resourceType resourceId)
  { hasUnsettled := rows.any fun row => decide (row.status ≠ .delivered)
    consistencyToken :=
      (((rows.filter fun row => decide (row.status = .delivered) && row.deliveryId.isSome).insertionSort
        fun a b => a.newerDelivery b = true).head?).bind (·.deliveryId)
    resourceRevision := (rows.filterMap (·.revision?)).max? }

end WasiAuth
