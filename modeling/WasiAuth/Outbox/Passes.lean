import WasiAuth.Identity.Values
import WasiAuth.Outbox.Attempts

/-! # One pass of an outbox worker

A pass leases a batch and ends each lease with one statement. Other transactions commit between the statements, and
the provider answers as it likes; opening and parsing a mail payload is a parameter. The loop stops at the first row
that does not decode, at a delivery id that is not accepted and at a lost lease, and leaves the rows it has not
reached leased (`exists_left_leased`). `passes_settle` says when it leaves none: `leasesKept` looks at the state at
each turn, that is once the others have committed and before the row's own statement runs.
-/

namespace WasiAuth

open Relational Transition

/-! ## Ending a lease -/

inductive OutboxError
  | invalidBatch | invalidRow | invalidDeliveryId | invalidConsistencyToken | leaseLost | transport
deriving DecidableEq

/-- `true` for an id the workers record: not empty, bounded, without control characters. -/
def isProviderId (maxBytes : Nat) (value : String) : Bool :=
  decide (value ≠ "") && decide (value.utf8ByteSize ≤ maxBytes) && !value.toList.any isControl

/-- The statement that ends a lease. -/
inductive Settlement
  | complete (p : CompleteOutbox)
  | retry (p : RetryOutbox)

def Settlement.outboxId : Settlement → Uuid
  | .complete p => p.outboxId
  | .retry p => p.outboxId

def Settlement.leaseId : Settlement → Uuid
  | .complete p => p.leaseId
  | .retry p => p.leaseId

def Settlement.run : Settlement → Db → Except SqlError (Bool × Db)
  | .complete p, db => completeOutbox p db
  | .retry p, db => retryOutbox p db

def Settlement.command : Settlement → Command
  | .complete p => .completeOutbox p
  | .retry p => .retryOutbox p

/-- `MailDispatchReport` and `RelationshipDispatchReport`. -/
structure DispatchReport where
  leased : Nat
  delivered : Nat
  retried : Nat
  deadLettered : Nat
deriving DecidableEq

def DispatchReport.count (report : DispatchReport) (db : Db) : Settlement → DispatchReport
  | .complete _ => { report with delivered := report.delivered + 1 }
  | .retry p =>
    if (db.outbox.find? p.outboxId).any fun row => decide (row.status = .deadLetter) then
      { report with deadLettered := report.deadLettered + 1 }
    else { report with retried := report.retried + 1 }

/-- What happens at one row: the commands others commit first, and the statement the worker then runs. -/
structure Turn where
  others : List Command
  settlement : Except OutboxError Settlement

/-- The state at the turn: the others have committed, the worker's statement has not run. -/
def Turn.now (t : Turn) (db : Db) : Db := t.others.foldl Db.step db

/-- The state after the turn. -/
def Turn.next (t : Turn) (db : Db) : Db :=
  match t.settlement with
  | .ok s => (t.now db).step s.command
  | .error _ => t.now db

/-- The loop over the leases, with `?` after each statement. -/
def settleAll {α : Type} (turn : α → Turn) :
    List α → DispatchReport → Db → Except OutboxError DispatchReport × Db
  | [], report, db => (.ok report, db)
  | lease :: rest, report, db =>
    let db := (turn lease).now db
    match (turn lease).settlement with
    | .error e => (.error e, db)
    | .ok settlement =>
      match settlement.run db with
      | .error _ => (.error .transport, db)
      | .ok (false, db) => (.error .leaseLost, db)
      | .ok (true, db) => settleAll turn rest (report.count db settlement) db

/-- A pass: lease the rows, decode all of them, and settle them one by one. `turn` is given the decoded batch. -/
def dispatch {α : Type} (decode : OutboxRow → Except OutboxError α) (turn : List α → α → Turn) (p : LeaseOutbox)
    (db : Db) : Except OutboxError DispatchReport × Db :=
  match leaseOutbox p db with
  | .error _ => (.error .transport, db)
  | .ok (rows, db) =>
    match rows.mapM decode with
    | .error e => (.error e, db)
    | .ok leases => settleAll (turn leases) leases ⟨leases.length, 0, 0, 0⟩ db

/-! ## The mail worker -/

/-- `OutboxLease` of a mail. -/
structure MailLease where
  outboxId : Uuid
  deduplicationKey : String
  keyVersion : String
  payloadCiphertext : Bytes
  attemptCount : Nat
  leaseId : Uuid

/-- outbox.rs:511 -/
def decodeLease (row : OutboxRow) : Except OutboxError MailLease :=
  match row.payload, row.leaseId with
  | .mail keyVersion ciphertext, some leaseId =>
    if ciphertext = [] ∨ 256 * 1024 < ciphertext.length then .error .invalidRow
    else .ok ⟨row.outboxId, row.deduplicationKey, keyVersion, ciphertext, row.attemptCount, leaseId⟩
  | _, _ => .error .invalidRow

/-- outbox.rs:31 -/
def maxMailBatch : Nat := 25

/-- outbox.rs:30 -/
def mailLeaseMs : Int := 30000

/-- `LEASE_OUTBOX_SQL` as the mail worker calls it. -/
def mailLease (batchSize : Nat) (nowMs : Int) (leaseId : Uuid) (locked : Uuid → Bool) : LeaseOutbox where
  kind := .mail
  nowMs := nowMs
  limit := batchSize
  leaseId := leaseId
  leasedUntilMs := nowMs + mailLeaseMs
  locked := locked

/-- outbox.rs:479 -/
def mailRetry (lease : MailLease) (errorCode : String) (nowMs : Int) : RetryOutbox where
  outboxId := lease.outboxId
  leaseId := lease.leaseId
  nowMs := nowMs
  availableAtMs := nowMs + 1000 * 2 ^ min lease.attemptCount 10
  errorCode := errorCode
  maxAttempts := maxAttempts

/-- `message` opens and parses the payload, `send` is the provider's answer: a delivery id or a failure. -/
structure Mailing where
  Message : Type
  message : MailLease → Option Message
  send : MailLease → Message → Option String

def Mailing.deliveryId (m : Mailing) (lease : MailLease) : Option String := (m.message lease).bind (m.send lease)

/-- The `match` of `dispatch` (outbox.rs:239-262). -/
def mailSettlement (m : Mailing) (nowMs : Int) (lease : MailLease) : Except OutboxError Settlement :=
  match m.message lease with
  | some message =>
    match m.send lease message with
    | some deliveryId =>
      if isProviderId 512 deliveryId then .ok (.complete ⟨lease.outboxId, lease.leaseId, nowMs, deliveryId⟩)
      else .error .invalidDeliveryId
    | none => .ok (.retry (mailRetry lease "mail_transport" nowMs))
  | none => .ok (.retry (mailRetry lease "invalid_payload" nowMs))

def mailTurn (m : Mailing) (nowMs : Int) (others : Uuid → List Command) (lease : MailLease) : Turn :=
  ⟨others lease.outboxId, mailSettlement m nowMs lease⟩

/-- `MailOutboxWorker::dispatch` (outbox.rs:219) -/
def dispatchMail (m : Mailing) (batchSize : Nat) (nowMs : Int) (leaseId : Uuid) (locked : Uuid → Bool)
    (others : Uuid → List Command) (db : Db) : Except OutboxError DispatchReport × Db :=
  if batchSize = 0 ∨ maxMailBatch < batchSize then (.error .invalidBatch, db)
  else
    dispatch decodeLease (fun _ => mailTurn m nowMs others) (mailLease batchSize nowMs leaseId locked) db

/-! ## The relationship worker -/

/-- `OutboxLease` of a relationship. -/
structure RelationshipLease where
  row : OutboxRow
  leaseId : Uuid
  intent : RelationshipOutboxIntent

def relationshipLeaseOf (row : OutboxRow) : Except OutboxError RelationshipLease :=
  match decodeRelationshipLease row, row.leaseId with
  | some intent, some leaseId => .ok ⟨row, leaseId, intent⟩
  | _, _ => .error .invalidRow

/-- The checks of `SpiceDbRelationshipWriter::write` (spicedb.rs:573-583, 622-631): the receipt's token. `answer` is
the token in SpiceDB's response, or nothing where the call failed. -/
def write (answer : List RelationshipUpdate → Option String) (intents : List RelationshipOutboxIntent) :
    Option String :=
  if intents = [] ∨ 100 < intents.length then none
  else ((intents.mapM relationshipUpdate).bind answer).filter (isProviderId 4096)

/-- `complete_relationship`, `retry_relationship` (outbox.rs:811, 847) -/
def relationshipSettlement (nowMs : Int) (receipt : Option String) (lease : RelationshipLease) :
    Except OutboxError Settlement :=
  match receipt with
  | some token =>
    if isProviderId 4096 token then .ok (.complete ⟨lease.row.outboxId, lease.leaseId, nowMs, token⟩)
    else .error .invalidConsistencyToken
  | none => .ok (.retry (relationshipRetry lease.row lease.leaseId nowMs))

/-- `leases` is the whole batch, which is written in one call. -/
def relationshipTurn (answer : List RelationshipUpdate → Option String) (nowMs : Int) (others : Uuid → List Command)
    (leases : List RelationshipLease) (lease : RelationshipLease) : Turn :=
  ⟨others lease.row.outboxId, relationshipSettlement nowMs (write answer (leases.map (·.intent))) lease⟩

/-- `RelationshipOutboxWorker::dispatch` (outbox.rs:716) -/
def dispatchRelationships (answer : List RelationshipUpdate → Option String) (batchSize : Nat) (nowMs : Int)
    (leaseId : Uuid) (locked : Uuid → Bool) (others : Uuid → List Command) (db : Db) :
    Except OutboxError DispatchReport × Db :=
  if batchSize = 0 ∨ maxRelationshipBatch < batchSize then (.error .invalidBatch, db)
  else
    -- an empty batch is not sent, and has nothing to settle
    dispatch relationshipLeaseOf (relationshipTurn answer nowMs others)
      (relationshipLease batchSize nowMs leaseId locked) db

/-! ## Leases during a pass -/

def Db.holdsLease (db : Db) (outboxId leaseId : Uuid) : Bool := db.outbox.rows.any (·.heldBy outboxId leaseId)

/-- A lease statement that leases under `leaseId`. -/
def Command.leasesAs (leaseId : Uuid) : Command → Bool
  | .leaseOutbox p => decide (p.leaseId = leaseId)
  | _ => false

/-- At each turn at which a lease of this row or of a later one is held, the row's own is, and the row is `ready`. -/
def leasesKept {α : Type} (turn : α → Turn) (id : α → Uuid) (leaseId : Uuid) (ready : α → Bool) : List α → Db → Bool
  | [], _ => true
  | lease :: rest, db =>
    let now := (turn lease).now db
    (!((lease :: rest).any fun l => now.holdsLease (id l) leaseId) || now.holdsLease (id lease) leaseId && ready lease) &&
      leasesKept turn id leaseId ready rest ((turn lease).next db)

section Leases
variable {db db' : Db} {outboxId leaseId : Uuid} {row : OutboxRow} {c : Command}

theorem holdsLease_eq_true : db.holdsLease outboxId leaseId = true ↔
    ∃ row ∈ db.outbox, row.heldBy outboxId leaseId = true := List.any_eq_true

theorem mem_map_of_unselected {p : OutboxRow → Bool} {f : OutboxRow → OutboxRow} {rows : List OutboxRow}
    (hrow : row ∈ rows) (hp : p row = false) : row ∈ rows.map fun r => if p r then f r else r :=
  List.mem_map.2 ⟨row, hrow, by simp [hp]⟩

/-- A lease is only given by the statement that leases under its id. -/
theorem holdsLease_of_step (hc : c.leasesAs leaseId = false)
    (h : (db.step c).holdsLease outboxId leaseId = true) : db.holdsLease outboxId leaseId = true := by
  obtain ⟨row', hrow', hheld⟩ := holdsLease_eq_true.1 h
  obtain ⟨-, hlease, hstatus⟩ := heldBy_eq_true.1 hheld
  suffices hrow : row' ∈ db.outbox from holdsLease_eq_true.2 ⟨row', hrow, hheld⟩
  cases hdelivery : c.isDelivery with
  | false =>
    rcases step_cases (rfl : postgres.next db c = some (db.step c)) with hexec | hsame
    · obtain ⟨new, hrows, hnew⟩ := OutboxInserts.of_changes (execute_changes hdelivery hexec)
      rw [Table.mem_def, hrows, List.mem_append] at hrow'
      rcases hrow' with hrow | hrow'
      · exact hrow
      · rw [(hnew row' hrow').status] at hstatus
        cases hstatus
    · rwa [hsame] at hrow'
  | true =>
    cases c <;> cases hdelivery <;> obtain ⟨row, hrow, rfl⟩ := List.mem_map.1 hrow' <;> split at hlease
    · exact absurd (Option.some.inj hlease) (of_decide_eq_false hc)
    · rename_i hp
      simpa [hp, Table.mem_def] using hrow
    · cases hlease
    · rename_i hp
      simpa [hp, Table.mem_def] using hrow
    · cases hlease
    · rename_i hp
      simpa [hp, Table.mem_def] using hrow

theorem holdsLease_of_foldl : ∀ {others : List Command} {db : Db},
    (∀ c ∈ others, c.leasesAs leaseId = false) →
    (others.foldl Db.step db).holdsLease outboxId leaseId = true → db.holdsLease outboxId leaseId = true
  | [], _, _, h => h
  | c :: _, _, hothers, h =>
    holdsLease_of_step (hothers c List.mem_cons_self)
      (holdsLease_of_foldl (fun c hc => hothers c (List.mem_cons_of_mem _ hc)) h)

end Leases

/-! ## Settling a batch -/

section Settle
variable {db : Db} {leaseId : Uuid}

/-- The statement reports whether the lease was still held, ends it, and touches no other row. -/
structure Settlement.Ends (s : Settlement) (db db' : Db) : Prop where
  run : s.run db = .ok (db.holdsLease s.outboxId s.leaseId, db')
  ended : db'.holdsLease s.outboxId s.leaseId = false
  kept : ∀ row ∈ db.outbox, row.outboxId ≠ s.outboxId → row ∈ db'.outbox

/-- Both statements clear `lease_id` of the rows they select. -/
theorem unselected_of_mem_cleared {rows : List OutboxRow} {p : OutboxRow → Bool} {f : OutboxRow → OutboxRow}
    {row' : OutboxRow} {outboxId : Uuid} (hf : ∀ row, (f row).leaseId = none)
    (hrow' : row' ∈ rows.map fun row => if p row then f row else row) (hheld : row'.heldBy outboxId leaseId = true) :
    p row' = false := by
  obtain ⟨row, hrow, rfl⟩ := List.mem_map.1 hrow'
  cases hp : p row with
  | true =>
    have hlease := (heldBy_eq_true.1 hheld).2.1
    rw [hp, if_pos rfl, hf row] at hlease
    cases hlease
  | false => simp [hp]

theorem Settlement.exists_ends (s : Settlement) (db : Db) : ∃ db', s.Ends db db' := by
  have hother : ∀ row : OutboxRow, row.outboxId ≠ s.outboxId → row.heldBy s.outboxId s.leaseId = false :=
    fun row hid => Bool.eq_false_iff.2 fun hheld => hid (heldBy_eq_true.1 hheld).1
  cases s <;> refine ⟨_, rfl, Bool.eq_false_iff.2 fun hheld => ?_, fun row hrow hid =>
    mem_map_of_unselected hrow (hother row hid)⟩
  all_goals
    obtain ⟨row', hrow', hheld⟩ := holdsLease_eq_true.1 hheld
    have hcleared := unselected_of_mem_cleared (fun _ => rfl) hrow' hheld
    exact Bool.eq_false_iff.1 hcleared hheld

theorem Settlement.step_command {s : Settlement} {db' : Db} (h : s.Ends db db') : db.step s.command = db' := by
  have hrun := h.run
  cases s with
  | complete p =>
    have hexec : (Command.completeOutbox p).execute db = .ok db' := congrArg written hrun
    exact Option.some.inj (next_of_execute hexec)
  | retry p =>
    have hexec : (Command.retryOutbox p).execute db = .ok db' := congrArg written hrun
    exact Option.some.inj (next_of_execute hexec)

variable {α : Type} {turn : α → Turn} {id : α → Uuid} {ready : α → Bool}

/-- The turns of a batch: nobody else leases under its id, each statement is for its own lease, and a row is ready
exactly when it has a statement. -/
structure Turns (turn : α → Turn) (id : α → Uuid) (leaseId : Uuid) (ready : α → Bool) (leases : List α) : Prop where
  others : ∀ lease ∈ leases, ∀ c ∈ (turn lease).others, c.leasesAs leaseId = false
  own : ∀ lease ∈ leases, ∀ s, (turn lease).settlement = .ok s → s.outboxId = id lease ∧ s.leaseId = leaseId
  ready : ∀ lease ∈ leases, ready lease = true ↔ ∃ s, (turn lease).settlement = .ok s

theorem Turns.tail {lease : α} {leases : List α} (h : Turns turn id leaseId ready (lease :: leases)) :
    Turns turn id leaseId ready leases where
  others l hl := h.others l (List.mem_cons_of_mem _ hl)
  own l hl := h.own l (List.mem_cons_of_mem _ hl)
  ready l hl := h.ready l (List.mem_cons_of_mem _ hl)

theorem holdsLease_of_turn {t : Turn} {outboxId : Uuid} (h : (t.next db).holdsLease outboxId leaseId = true) :
    (t.now db).holdsLease outboxId leaseId = true := by
  unfold Turn.next at h
  split at h
  · rename_i s _
    exact holdsLease_of_step (by cases s <;> rfl) h
  · exact h

section Cons
variable {lease : α} {leases : List α} (hturns : Turns turn id leaseId ready (lease :: leases))
include hturns

theorem Turns.holdsLease_of_now {outboxId : Uuid} (h : ((turn lease).now db).holdsLease outboxId leaseId = true) :
    db.holdsLease outboxId leaseId = true :=
  holdsLease_of_foldl (hturns.others lease List.mem_cons_self) h

/-- The loop goes on with the row's lease ended, or it stops and has ended no lease. -/
theorem settleAll_cons (report : DispatchReport) (db : Db) :
    (((turn lease).now db).holdsLease (id lease) leaseId && ready lease) = true ∧
      ((turn lease).next db).holdsLease (id lease) leaseId = false ∧
        (∃ report', (settleAll turn (lease :: leases) report db).2 =
          (settleAll turn leases report' ((turn lease).next db)).2) ∨
    (((turn lease).now db).holdsLease (id lease) leaseId && ready lease) = false ∧
      (settleAll turn (lease :: leases) report db).2 = (turn lease).next db ∧
        ∀ outboxId, ((turn lease).next db).holdsLease outboxId leaseId =
          ((turn lease).now db).holdsLease outboxId leaseId := by
  have hready := hturns.ready lease List.mem_cons_self
  simp only [settleAll]
  cases hs : (turn lease).settlement with
  | error e =>
    refine .inr ⟨?_, ?_, fun _ => ?_⟩
    · refine Bool.and_eq_false_iff.2 (.inr (Bool.eq_false_iff.2 fun hr => ?_))
      obtain ⟨s, hok⟩ := hready.1 hr
      cases hs.symm.trans hok
    · simp only [Turn.next, hs]
    · simp only [Turn.next, hs]
  | ok s =>
    obtain ⟨hid, hlease⟩ := hturns.own lease List.mem_cons_self s hs
    obtain ⟨db', hends⟩ := s.exists_ends ((turn lease).now db)
    have hnext : (turn lease).next db = db' := by
      simp only [Turn.next, hs]
      exact Settlement.step_command hends
    have hrun := hends.run
    have hended := hends.ended
    rw [hid, hlease] at hrun hended
    rw [← hnext] at hrun hended
    cases hheld : ((turn lease).now db).holdsLease (id lease) leaseId with
    | true =>
      simp only [hrun, hheld, hready.2 ⟨s, hs⟩]
      exact .inl ⟨rfl, hended, _, rfl⟩
    | false =>
      simp only [hrun, hheld]
      refine .inr ⟨rfl, trivial, fun outboxId => Bool.eq_iff_iff.2 ⟨holdsLease_of_turn, fun hkeep => ?_⟩⟩
      obtain ⟨row, hrow, hrowHeld⟩ := holdsLease_eq_true.1 hkeep
      rw [hnext]
      refine holdsLease_eq_true.2 ⟨row, hends.kept row hrow fun hsame => ?_, hrowHeld⟩
      rw [hid, (heldBy_eq_true.1 hrowHeld).1] at hsame
      rw [← hsame, hkeep] at hheld
      cases hheld

end Cons

theorem holdsLease_of_settleAll {outboxId : Uuid} : ∀ {leases : List α} {report : DispatchReport} {db : Db},
    Turns turn id leaseId ready leases → (settleAll turn leases report db).2.holdsLease outboxId leaseId = true →
    db.holdsLease outboxId leaseId = true
  | [], _, _, _, h => h
  | lease :: leases, report, db, hturns, h => by
    refine hturns.holdsLease_of_now (holdsLease_of_turn ?_)
    rcases settleAll_cons hturns report db with ⟨-, -, report', hrest⟩ | ⟨-, hrest, -⟩
    · rw [hrest] at h
      exact holdsLease_of_settleAll hturns.tail h
    · rwa [hrest] at h

/-- Once no lease of the rest is held, there is nothing to keep. -/
theorem leasesKept_of_ended : ∀ {leases : List α} {db : Db}, Turns turn id leaseId ready leases →
    (∀ lease ∈ leases, db.holdsLease (id lease) leaseId = false) → leasesKept turn id leaseId ready leases db = true
  | [], _, _, _ => rfl
  | lease :: leases, db, hturns, hended => by
    have hnow : ∀ l ∈ lease :: leases, ((turn lease).now db).holdsLease (id l) leaseId = false := fun l hl =>
      Bool.eq_false_iff.2 fun h => Bool.eq_false_iff.1 (hended l hl) (hturns.holdsLease_of_now h)
    have hnone : ((lease :: leases).any fun l => ((turn lease).now db).holdsLease (id l) leaseId) = false :=
      List.any_eq_false.2 fun l hl => Bool.eq_false_iff.1 (hnow l hl)
    simp only [leasesKept, hnone, Bool.not_false, Bool.true_or, Bool.true_and]
    refine leasesKept_of_ended hturns.tail fun l hl => Bool.eq_false_iff.2 fun h => ?_
    exact Bool.eq_false_iff.1 (hnow l (List.mem_cons_of_mem _ hl)) (holdsLease_of_turn h)

/-- **Settling a batch.** The pass ends every lease of the batch exactly when, at each turn at which one is left, it
still has the row's own and a statement for it. -/
theorem settleAll_ends_iff : ∀ {leases : List α} {report : DispatchReport} {db : Db},
    Turns turn id leaseId ready leases →
    ((∀ lease ∈ leases, (settleAll turn leases report db).2.holdsLease (id lease) leaseId = false) ↔
      leasesKept turn id leaseId ready leases db = true)
  | [], _, _, _ => by simp [leasesKept]
  | lease :: leases, report, db, hturns => by
    rcases settleAll_cons hturns report db with ⟨hgoes, hended, report', hrest⟩ | ⟨hstops, hrest, hsame⟩
    · have hfirst : (settleAll turn leases report' ((turn lease).next db)).2.holdsLease (id lease) leaseId = false :=
        Bool.eq_false_iff.2 fun h => Bool.eq_false_iff.1 hended (holdsLease_of_settleAll hturns.tail h)
      simp only [leasesKept, hgoes, Bool.or_true, Bool.true_and]
      rw [hrest, List.forall_mem_cons, settleAll_ends_iff hturns.tail]
      exact and_iff_right hfirst
    · -- the loop stops here, so what is held now stays held
      simp only [leasesKept, hstops, Bool.or_false, Bool.and_eq_true, Bool.not_eq_true', List.any_eq_false]
      rw [hrest]
      refine ⟨fun h => ⟨fun l hl => ?_, ?_⟩, fun h l hl => ?_⟩
      · rw [← hsame, h l hl]
        exact Bool.false_ne_true
      · exact leasesKept_of_ended hturns.tail fun l hl => h l (List.mem_cons_of_mem _ hl)
      · rw [hsame]
        exact Bool.eq_false_iff.2 (h.1 l hl)

end Settle

/-! ## The two workers -/

section Dispatch
variable {db : Db} {p : LeaseOutbox} {row : OutboxRow}

theorem holdsLease_of_leaseOutbox (hrow : row ∈ db.leaseCandidates p) :
    (db.step (.leaseOutbox p)).holdsLease row.outboxId p.leaseId = true := by
  have hselected : ((db.leaseCandidates p).any fun c => decide (c.outboxId = row.outboxId)) = true :=
    List.any_eq_true.2 ⟨row, hrow, decide_eq_true rfl⟩
  refine holdsLease_eq_true.2 ⟨row.lease p, ?_, heldBy_eq_true.2 ⟨rfl, rfl, rfl⟩⟩
  exact List.mem_map.2 ⟨row, (mem_leaseCandidates hrow).1, by simp only [hselected, if_true]⟩

/-- The rows of a batch decode, and its leases are kept. -/
def BatchKept {α : Type} (decode : OutboxRow → Except OutboxError α) (turn : List α → α → Turn) (id : α → Uuid)
    (ready : α → Bool) (p : LeaseOutbox) (db : Db) : Prop :=
  ∃ leases, ((db.leaseCandidates p).map (·.lease p)).mapM decode = .ok leases ∧
    leasesKept (turn leases) id p.leaseId ready leases (db.step (.leaseOutbox p)) = true

theorem dispatch_ends_iff {α : Type} {decode : OutboxRow → Except OutboxError α} {turn : List α → α → Turn}
    {id : α → Uuid} {ready : α → Bool} (hid : ∀ row lease, decode row = .ok lease → id lease = row.outboxId)
    (hturns : ∀ leases, ((db.leaseCandidates p).map (·.lease p)).mapM decode = .ok leases →
      Turns (turn leases) id p.leaseId ready leases) :
    (∀ row ∈ db.leaseCandidates p, (dispatch decode turn p db).2.holdsLease row.outboxId p.leaseId = false) ↔
      BatchKept decode turn id ready p db := by
  obtain ⟨db₁, hlease⟩ : ∃ db₁, leaseOutbox p db = .ok ((db.leaseCandidates p).map (·.lease p), db₁) := ⟨_, rfl⟩
  have hdb₁ : db.step (.leaseOutbox p) = db₁ := Option.some.inj (next_of_execute (congrArg written hlease))
  simp only [BatchKept, dispatch, hlease, hdb₁]
  cases hdecode : ((db.leaseCandidates p).map (·.lease p)).mapM decode with
  | error e =>
    -- there is a row, or nothing could fail to decode, and it stays leased
    refine iff_of_false (fun h => ?_) (by rintro ⟨leases, h, -⟩; cases h)
    obtain ⟨row, hrow⟩ : ∃ row, row ∈ db.leaseCandidates p := by
      refine List.exists_mem_of_ne_nil _ fun hnil => ?_
      rw [hnil] at hdecode
      cases hdecode
    exact Bool.eq_false_iff.1 (h row hrow) (hdb₁ ▸ holdsLease_of_leaseOutbox hrow)
  | ok leases =>
    have hpairs := List.forall₂_map_left_iff.1 (forall₂_of_mapM hdecode)
    have hids : leases.map id = (db.leaseCandidates p).map (·.outboxId) := by
      refine (List.forall₂_eq_eq_eq ▸ List.forall₂_map_left_iff.2 (List.forall₂_map_right_iff.2 ?_) :)
      exact hpairs.flip.imp fun lease row h => hid _ _ h
    have hmem (q : Uuid → Prop) : (∀ row ∈ db.leaseCandidates p, q row.outboxId) ↔ ∀ lease ∈ leases, q (id lease) := by
      rw [← List.forall_mem_map (f := OutboxRow.outboxId), ← hids, List.forall_mem_map]
    rw [hmem fun outboxId => (settleAll (turn leases) leases ⟨leases.length, 0, 0, 0⟩ db₁).2.holdsLease outboxId
      p.leaseId = false, settleAll_ends_iff (hturns leases hdecode)]
    simp

variable {m : Mailing} {nowMs : Int} {leaseId : Uuid} {others : Uuid → List Command}

theorem decodeLease_eq_ok {lease : MailLease} (h : decodeLease row = .ok lease) :
    lease.outboxId = row.outboxId ∧ row.leaseId = some lease.leaseId := by
  simp only [decodeLease] at h
  split at h
  · rename_i hlease
    split at h
    · cases h
    · cases h
      exact ⟨rfl, hlease⟩
  · cases h

theorem relationshipLeaseOf_eq_ok {lease : RelationshipLease} (h : relationshipLeaseOf row = .ok lease) :
    lease.row = row ∧ row.leaseId = some lease.leaseId := by
  simp only [relationshipLeaseOf] at h
  split at h
  · rename_i hlease
    cases h
    exact ⟨rfl, hlease⟩
  · cases h

theorem leaseId_of_mapM {α : Type} {decode : OutboxRow → Except OutboxError α} {lid : α → Uuid} {leases : List α}
    (hlid : ∀ row lease, decode row = .ok lease → row.leaseId = some (lid lease))
    (h : ((db.leaseCandidates p).map (·.lease p)).mapM decode = .ok leases) :
    ∀ lease ∈ leases, lid lease = p.leaseId := by
  intro lease hlease
  obtain ⟨row, hrow, hdecode⟩ := (exists_mem_of_forall₂ (forall₂_of_mapM h)).2 lease hlease
  obtain ⟨candidate, -, rfl⟩ := List.mem_map.1 hrow
  exact (Option.some.inj (hlid _ _ hdecode)).symm

theorem mailSettlement_own {lease : MailLease} {s : Settlement} (h : mailSettlement m nowMs lease = .ok s) :
    s.outboxId = lease.outboxId ∧ s.leaseId = lease.leaseId := by
  simp only [mailSettlement] at h
  split at h
  · split at h
    · split at h
      · cases h
        exact ⟨rfl, rfl⟩
      · cases h
    · cases h
      exact ⟨rfl, rfl⟩
  · cases h
    exact ⟨rfl, rfl⟩

/-- The provider has not accepted the mail, or has accepted it under an id that can be recorded. -/
def Mailing.accepted (m : Mailing) (lease : MailLease) : Bool := (m.deliveryId lease).all (isProviderId 512)

theorem accepted_iff {lease : MailLease} : m.accepted lease = true ↔ ∃ s, mailSettlement m nowMs lease = .ok s := by
  simp only [Mailing.accepted, mailSettlement, Mailing.deliveryId]
  cases m.message lease with
  | none => simp
  | some message =>
    cases hsend : m.send lease message with
    | none => simp [hsend]
    | some d => cases hd : isProviderId 512 d <;> simp [hsend, hd]

theorem relationshipSettlement_own {lease : RelationshipLease} {receipt : Option String} {s : Settlement}
    (h : relationshipSettlement nowMs receipt lease = .ok s) :
    s.outboxId = lease.row.outboxId ∧ s.leaseId = lease.leaseId := by
  simp only [relationshipSettlement] at h
  split at h
  · split at h
    · cases h
      exact ⟨rfl, rfl⟩
    · cases h
  · cases h
    exact ⟨rfl, rfl⟩

theorem exists_relationshipSettlement (answer : List RelationshipUpdate → Option String)
    (intents : List RelationshipOutboxIntent) (lease : RelationshipLease) :
    ∃ s, relationshipSettlement nowMs (write answer intents) lease = .ok s := by
  cases hreceipt : write answer intents with
  | none => exact ⟨_, rfl⟩
  | some token =>
    have htoken : isProviderId 4096 token = true := by
      simp only [write] at hreceipt
      split at hreceipt
      · cases hreceipt
      · exact (Option.filter_eq_some_iff.1 hreceipt).2
    exact ⟨_, if_pos htoken⟩

variable {locked : Uuid → Bool} {batchSize : Nat}

theorem dispatchMail_ends_iff (hpos : 0 < batchSize) (hmax : batchSize ≤ maxMailBatch)
    (hothers : ∀ id, ∀ c ∈ others id, c.leasesAs leaseId = false) :
    (∀ row ∈ db.leaseCandidates (mailLease batchSize nowMs leaseId locked),
        (dispatchMail m batchSize nowMs leaseId locked others db).2.holdsLease row.outboxId leaseId = false) ↔
      BatchKept decodeLease (fun _ => mailTurn m nowMs others) MailLease.outboxId m.accepted
        (mailLease batchSize nowMs leaseId locked) db := by
  rw [dispatchMail, if_neg (by omega)]
  refine dispatch_ends_iff (fun _ _ h => (decodeLease_eq_ok h).1) fun leases hleases =>
    { others := fun lease _ => hothers lease.outboxId
      own := fun lease hlease s hs => ?_
      ready := fun lease _ => accepted_iff }
  have hlid := leaseId_of_mapM (fun _ _ h => (decodeLease_eq_ok h).2) hleases lease hlease
  exact ⟨(mailSettlement_own hs).1, (mailSettlement_own hs).2.trans hlid⟩

theorem dispatchRelationships_ends_iff {answer : List RelationshipUpdate → Option String} (hpos : 0 < batchSize)
    (hmax : batchSize ≤ maxRelationshipBatch) (hothers : ∀ id, ∀ c ∈ others id, c.leasesAs leaseId = false) :
    (∀ row ∈ db.leaseCandidates (relationshipLease batchSize nowMs leaseId locked),
        (dispatchRelationships answer batchSize nowMs leaseId locked others db).2.holdsLease row.outboxId leaseId =
          false) ↔
      BatchKept relationshipLeaseOf (relationshipTurn answer nowMs others) (·.row.outboxId) (fun _ => true)
        (relationshipLease batchSize nowMs leaseId locked) db := by
  rw [dispatchRelationships, if_neg (by omega)]
  refine dispatch_ends_iff (fun _ _ h => congrArg OutboxRow.outboxId (relationshipLeaseOf_eq_ok h).1)
    fun leases hleases =>
      { others := fun lease _ => hothers lease.row.outboxId
        own := fun lease hlease s hs => ?_
        ready := fun lease _ => iff_of_true rfl (exists_relationshipSettlement answer _ lease) }
  have hlid := leaseId_of_mapM (fun _ _ h => (relationshipLeaseOf_eq_ok h).2) hleases lease hlease
  exact ⟨(relationshipSettlement_own hs).1, (relationshipSettlement_own hs).2.trans hlid⟩

/-- **What a pass leaves leased.** Where nobody else leases under the id the pass has drawn, a pass ends every lease of
its batch exactly when all rows decode and, at each turn at which a lease of the row or of a later one is still held,
the row's own is; for the mail worker the delivery id of the provider must be accepted at these turns, too. -/
theorem passes_settle (db : Db) (nowMs : Int) (leaseId : Uuid) (locked : Uuid → Bool) (others : Uuid → List Command)
    (hothers : ∀ id, ∀ c ∈ others id, c.leasesAs leaseId = false) :
    (∀ m batchSize, 0 < batchSize → batchSize ≤ maxMailBatch →
      ((∀ row ∈ db.leaseCandidates (mailLease batchSize nowMs leaseId locked),
          (dispatchMail m batchSize nowMs leaseId locked others db).2.holdsLease row.outboxId leaseId = false) ↔
        BatchKept decodeLease (fun _ => mailTurn m nowMs others) MailLease.outboxId m.accepted
          (mailLease batchSize nowMs leaseId locked) db)) ∧
      ∀ answer batchSize, 0 < batchSize → batchSize ≤ maxRelationshipBatch →
        ((∀ row ∈ db.leaseCandidates (relationshipLease batchSize nowMs leaseId locked),
            (dispatchRelationships answer batchSize nowMs leaseId locked others db).2.holdsLease row.outboxId leaseId =
              false) ↔
          BatchKept relationshipLeaseOf (relationshipTurn answer nowMs others) (·.row.outboxId) (fun _ => true)
            (relationshipLease batchSize nowMs leaseId locked) db) :=
  ⟨fun _ _ hpos hmax => dispatchMail_ends_iff hpos hmax hothers,
    fun _ _ hpos hmax => dispatchRelationships_ends_iff hpos hmax hothers⟩

end Dispatch

/-! ## Two passes -/

/-- Another worker looks for expired leases before each statement of the pass. -/
def takeover (nowMs : Int) (_ : Uuid) : List Command :=
  [.leaseOutbox (relationshipLease 1 nowMs ⟨701⟩ fun _ => false)]

/-- The member's grant is taken over at its turn, the last one; mails are leased in between. -/
def lateTakeover (outboxId : Uuid) : List Command :=
  .leaseOutbox (mailLease 25 30000 ⟨702⟩ fun _ => false) :: if outboxId = ⟨300⟩ then takeover 30000 outboxId else []

/-- The pass ends the founder's lease, and the member's is no longer its own. -/
theorem passes_settle_acme : ∃ db, Reachable postgres db ∧
    (db.leaseCandidates (relationshipLease 100 0 ⟨700⟩ fun _ => false)).length = 2 ∧
    ∀ row ∈ db.leaseCandidates (relationshipLease 100 0 ⟨700⟩ fun _ => false),
      (dispatchRelationships (fun _ => none) 100 0 ⟨700⟩ (fun _ => false) lateTakeover db).2.holdsLease
        row.outboxId ⟨700⟩ = false := by
  obtain ⟨db, hreach, htest⟩ := exists_reachable_of_run postgres (foundAcme ++ joinAcme)
    (fun db =>
      decide ((db.leaseCandidates (relationshipLease 100 0 ⟨700⟩ fun _ => false)).length = 2) &&
      match ((db.leaseCandidates (relationshipLease 100 0 ⟨700⟩ fun _ => false)).map
        (·.lease (relationshipLease 100 0 ⟨700⟩ fun _ => false))).mapM relationshipLeaseOf with
      | .ok leases => leasesKept (relationshipTurn (fun _ => none) 0 lateTakeover leases) (·.row.outboxId) ⟨700⟩
          (fun _ => true) leases (db.step (.leaseOutbox (relationshipLease 100 0 ⟨700⟩ fun _ => false)))
      | .error _ => false) (by decide +kernel)
  obtain ⟨htwo, htest⟩ := Bool.and_eq_true_iff.1 htest
  have hothers : ∀ id, ∀ c ∈ lateTakeover id, c.leasesAs ⟨700⟩ = false := by
    intro id c hc
    unfold lateTakeover takeover at hc
    split at hc <;> simp only [List.mem_cons, List.not_mem_nil, or_false] at hc
    · rcases hc with rfl | rfl <;> rfl
    · rw [hc]
      rfl
  refine ⟨db, hreach, of_decide_eq_true htwo,
    ((passes_settle db 0 ⟨700⟩ (fun _ => false) lateTakeover hothers).2 _ 100 (by decide) (by decide)).2 ?_⟩
  split at htest
  · exact ⟨_, ‹_›, htest⟩
  · cases htest

def delivering : Mailing := ⟨Unit, fun _ => some (), fun _ _ => some "id"⟩

/-- A mail whose ciphertext is empty, as the table allows, keeps the batch leased; so does a lease that another worker
takes over, for the rows after it. -/
theorem exists_left_leased : ∃ db, Reachable postgres db ∧
    (∃ row ∈ db.leaseCandidates (mailLease 25 0 ⟨700⟩ fun _ => false),
      (dispatchMail delivering 25 0 ⟨700⟩ (fun _ => false) (fun _ => []) db).2.holdsLease
        row.outboxId ⟨700⟩ = true) ∧
    ∃ row ∈ db.leaseCandidates (relationshipLease 100 0 ⟨700⟩ fun _ => false),
      (dispatchRelationships (fun _ => none) 100 0 ⟨700⟩ (fun _ => false) (takeover 30000) db).2.holdsLease
        row.outboxId ⟨700⟩ = true := by
  obtain ⟨db, hreach, hleft⟩ := exists_reachable_of_run postgres (foundAcme ++ joinAcme)
    (fun db =>
      (db.leaseCandidates (mailLease 25 0 ⟨700⟩ fun _ => false)).any (fun row =>
        (dispatchMail delivering 25 0 ⟨700⟩ (fun _ => false) (fun _ => []) db).2.holdsLease
          row.outboxId ⟨700⟩) &&
      (db.leaseCandidates (relationshipLease 100 0 ⟨700⟩ fun _ => false)).any fun row =>
        (dispatchRelationships (fun _ => none) 100 0 ⟨700⟩ (fun _ => false) (takeover 30000) db).2.holdsLease
          row.outboxId ⟨700⟩) (by decide +kernel)
  obtain ⟨hmail, hrelationship⟩ := Bool.and_eq_true_iff.1 hleft
  exact ⟨db, hreach, List.any_eq_true.1 hmail, List.any_eq_true.1 hrelationship⟩

end WasiAuth
