import WasiAuth.Postgres.Leases
import WasiAuth.Relationships.Wire

/-! # Relationship workers and SpiceDB

`RelationshipOutboxWorker::dispatch` (outbox.rs:716-779) as the steps of a pass: lease a batch, send one
write, wait, and complete or retry the rows one by one. Any number of passes run at once, against the same
database and the same SpiceDB, and a pass may stop anywhere. A write that has been sent is applied once, at
any later time, whatever became of the pass that sent it.

SpiceDB's tokens are totally ordered by the order of its committed writes: the token of a write is the
text of its position in the log.
-/

namespace WasiAuth

open Relational Transition

/-! ## The state -/

/-- The texts of SpiceDB's tokens. -/
structure ZedTokens where
  text : Nat → String
  inj : Function.Injective text

/-- `a` is at least as fresh as `b`. -/
def ZedTokens.AtLeastAsFresh (zed : ZedTokens) (a b : String) : Prop :=
  ∃ m n, a = zed.text m ∧ b = zed.text n ∧ n ≤ m

inductive Phase
  /-- leased, nothing sent yet -/
  | ready
  /-- the write has been sent -/
  | awaiting
  /-- the write was acknowledged under `token`; the rows in `rest` are still to be completed -/
  | completing (token : String) (rest : List OutboxRow)
  /-- the write failed; the rows in `rest` are still to be returned -/
  | retrying (rest : List OutboxRow)
  | ended

/-- One call of `dispatch`. -/
structure Pass where
  leases : List OutboxRow
  nowMs : Int
  phase : Phase

/-- A `WriteRelationships` request: the pass that sent it and the rows it carries. -/
structure Write where
  pass : Nat
  leases : List OutboxRow

/-- The database, the passes, and SpiceDB. -/
structure World where
  db : Db
  passes : List Pass
  inFlight : List Write
  /-- the committed writes, oldest first -/
  applied : List Write

def Write.updates (w : Write) : List RelationshipUpdate := w.leases.filterMap (·.update?)

/-- One update of SpiceDB's tuple store: `TOUCH` creates the relationship, `DELETE` removes it. -/
def RelationshipUpdate.apply (r : Relationship) (present : Bool) (u : RelationshipUpdate) : Bool :=
  if u.relationship = r then decide (u.operation = .touch) else present

/-- SpiceDB has the relationship. -/
def World.holds (w : World) (r : Relationship) : Bool :=
  (w.applied.flatMap Write.updates).foldl (RelationshipUpdate.apply r) false

/-! ## The steps -/

inductive Action
  | command (c : Command)
  | lease (batchSize : Nat) (nowMs : Int) (leaseId : Uuid) (locked : Uuid → Bool)
  | send (pass : Nat)
  | apply (write : Nat)
  | receive (pass write : Nat)
  | fail (pass : Nat)
  | complete (pass : Nat)
  | retry (pass : Nat)
  | crash (pass : Nat)

/-- outbox.rs:33 -/
def relationshipLeaseMs : Int := 30000

/-- outbox.rs:35 -/
def maxRelationshipBatch : Nat := 100

/-- outbox.rs:36 -/
def maxAttempts : Nat := 8

/-- `LEASE_OUTBOX_SQL` as the relationship worker calls it. -/
def relationshipLease (batchSize : Nat) (nowMs : Int) (leaseId : Uuid) (locked : Uuid → Bool) : LeaseOutbox where
  kind := .relationship
  nowMs := nowMs
  limit := batchSize
  leaseId := leaseId
  leasedUntilMs := nowMs + relationshipLeaseMs
  locked := locked

/-- The retry of a row after `1000 · 2^min(attempts, 10)` milliseconds. -/
def relationshipRetry (lease : OutboxRow) (leaseId : Uuid) (nowMs : Int) : RetryOutbox where
  outboxId := lease.outboxId
  leaseId := leaseId
  nowMs := nowMs
  availableAtMs := nowMs + 1000 * 2 ^ min lease.attemptCount 10
  errorCode := "provider_failure"
  maxAttempts := maxAttempts

def World.setPhase (w : World) (i : Nat) (phase : Phase) : World :=
  { w with passes := w.passes.modify i fun pass => { pass with phase := phase } }

/-- The pass, when it is in a phase that `f` handles. -/
def World.inPhase (w : World) (i : Nat) (f : Pass → Option World) : Option World := (w.passes[i]?).bind f

/-- The statement settles its row, or the lease was lost and the pass returns an error. -/
def World.settle (w : World) (i : Nat) (result : Except SqlError (Bool × Db)) (next : Phase) : Option World :=
  match result with
  | .ok (settled, db) => some (World.setPhase { w with db := db } i (if settled then next else .ended))
  | .error _ => some (w.setPhase i .ended)

/-- `lease_relationships` (outbox.rs:781) -/
def World.lease (w : World) (batchSize : Nat) (nowMs : Int) (leaseId : Uuid) (locked : Uuid → Bool) : Option World :=
  if batchSize = 0 ∨ maxRelationshipBatch < batchSize then none
  else
    match leaseOutbox (relationshipLease batchSize nowMs leaseId locked) w.db with
    | .ok (leases, db) => some { w with db := db, passes := w.passes ++ [⟨leases, nowMs, .ready⟩] }
    | .error _ => none

/-- `write` up to the transport (spicedb.rs:573-603). Nothing to send ends the pass; an intent that is no valid
request fails it before it is sent. -/
def World.send (w : World) (i : Nat) : Option World :=
  w.inPhase i fun pass =>
    match pass.phase with
    | .ready =>
      if pass.leases = [] then some (w.setPhase i .ended)
      else if pass.leases.all (·.update?.isSome) then
        some (World.setPhase { w with inFlight := w.inFlight ++ [⟨i, pass.leases⟩] } i .awaiting)
      else some (w.setPhase i (.retrying pass.leases))
    | _ => none

/-- SpiceDB commits a write. -/
def World.apply (w : World) (k : Nat) : Option World :=
  (w.inFlight[k]?).map fun write =>
    { w with inFlight := w.inFlight.eraseIdx k, applied := w.applied ++ [write] }

/-- The `Ok(receipt)` arm (outbox.rs:753-759): the acknowledgement of the pass's own write, the `n`-th SpiceDB
committed. -/
def World.receive (zed : ZedTokens) (w : World) (i n : Nat) : Option World :=
  w.inPhase i fun pass =>
    match pass.phase with
    | .awaiting =>
      if (w.applied[n]?).any fun write => decide (write.pass = i) then
        some (w.setPhase i (.completing (zed.text n) pass.leases))
      else none
    | _ => none

/-- The `Err(_)` arm (outbox.rs:760-774): an error, a timeout, or a response that is not understood. -/
def World.fail (w : World) (i : Nat) : Option World :=
  w.inPhase i fun pass =>
    match pass.phase with
    | .awaiting => some (w.setPhase i (.retrying pass.leases))
    | _ => none

/-- `complete_relationship` (outbox.rs:811) -/
def World.complete (w : World) (i : Nat) : Option World :=
  w.inPhase i fun pass =>
    match pass.phase with
    | .completing token (lease :: rest) =>
      lease.leaseId.bind fun leaseId =>
        w.settle i (completeOutbox ⟨lease.outboxId, leaseId, pass.nowMs, token⟩ w.db) (.completing token rest)
    | _ => none

/-- `retry_relationship` (outbox.rs:847) -/
def World.retry (w : World) (i : Nat) : Option World :=
  w.inPhase i fun pass =>
    match pass.phase with
    | .retrying (lease :: rest) =>
      lease.leaseId.bind fun leaseId =>
        w.settle i (retryOutbox (relationshipRetry lease leaseId pass.nowMs) w.db) (.retrying rest)
    | _ => none

def World.next (zed : ZedTokens) (w : World) : Action → Option World
  | .command c => if c.isDelivery then none else some { w with db := w.db.step c }
  | .lease batchSize nowMs leaseId locked => w.lease batchSize nowMs leaseId locked
  | .send i => w.send i
  | .apply k => w.apply k
  | .receive i n => w.receive zed i n
  | .fail i => w.fail i
  | .complete i => w.complete i
  | .retry i => w.retry i
  | .crash i => some (w.setPhase i .ended)

/-- The workers, the database and SpiceDB, from an empty database. -/
def relationshipSystem (zed : ZedTokens) : System World Action where
  init := ⟨Db.empty, [], [], []⟩
  next := World.next zed

/-! ## What is behind a delivered row -/

variable {zed : ZedTokens} {w w' : World} {db' : Db}

/-- The row was completed with the token of a committed write that carried it. -/
def World.Backed (zed : ZedTokens) (w : World) (row : OutboxRow) : Prop :=
  ∃ n write lease, row.deliveryId = some (zed.text n) ∧ w.applied[n]? = some write ∧ lease ∈ write.leases ∧
    lease.Redelivered row

/-- A token to be stored is that of the pass's own write. -/
def World.Acknowledged (zed : ZedTokens) (w : World) (pass : Pass) : Prop :=
  ∀ {token rest}, pass.phase = .completing token rest → ∃ n write, w.applied[n]? = some write ∧
    token = zed.text n ∧ write.leases = pass.leases ∧ ∀ lease ∈ rest, lease ∈ pass.leases

/-- The invariant of every reachable state. -/
structure World.Sound (zed : ZedTokens) (w : World) : Prop where
  reachable : Reachable postgres w.db
  leased : ∀ pass ∈ w.passes, ∀ lease ∈ pass.leases,
    lease.payload.kind = .relationship ∧ ∃ row ∈ w.db.outbox, lease.Redelivered row
  distinct : ∀ pass ∈ w.passes, pass.leases.Pairwise fun a b => ∀ t, a.tuple? = some t → b.tuple? ≠ some t
  sent : ∀ write, write ∈ w.inFlight ∨ write ∈ w.applied →
    ∃ pass, w.passes[write.pass]? = some pass ∧ write.leases = pass.leases
  acknowledged : ∀ pass ∈ w.passes, w.Acknowledged zed pass
  delivered : ∀ row ∈ w.db.outbox, row.status = .delivered → w.Backed zed row

namespace World

theorem getElem?_setPhase (w : World) (i : Nat) (phase : Phase) (j : Nat) :
    (w.setPhase i phase).passes[j]? =
      (w.passes[j]?).map fun pass => if i = j then { pass with phase := phase } else pass := by
  simp only [setPhase, List.getElem?_modify]
  rfl

theorem mem_setPhase {i : Nat} {phase : Phase} {pass' : Pass} (h : pass' ∈ (w.setPhase i phase).passes) :
    ∃ pass ∈ w.passes, pass'.leases = pass.leases ∧
      (pass' = pass ∨ w.passes[i]? = some pass ∧ pass'.phase = phase) := by
  obtain ⟨j, hj⟩ := List.mem_iff_getElem?.1 h
  rw [getElem?_setPhase, Option.map_eq_some_iff] at hj
  obtain ⟨pass, hpass, rfl⟩ := hj
  refine ⟨pass, List.mem_of_getElem? hpass, ?_⟩
  split
  · rename_i hij
    exact ⟨rfl, .inr ⟨hij ▸ hpass, rfl⟩⟩
  · exact ⟨rfl, .inl rfl⟩

namespace Sound
variable (h : w.Sound zed)
include h

/-- A pass moves to a phase that knows no more than SpiceDB has committed. -/
theorem setPhase {i : Nat} {phase : Phase}
    (hphase : ∀ pass, w.passes[i]? = some pass → w.Acknowledged zed { pass with phase := phase }) :
    (w.setPhase i phase).Sound zed where
  reachable := h.reachable
  leased pass' hpass' lease hlease := by
    obtain ⟨pass, hpass, hleases, -⟩ := mem_setPhase hpass'
    exact h.leased pass hpass lease (hleases ▸ hlease)
  distinct pass' hpass' := by
    obtain ⟨pass, hpass, hleases, -⟩ := mem_setPhase hpass'
    exact hleases ▸ h.distinct pass hpass
  sent write hwrite := by
    obtain ⟨pass, hpass, hleases⟩ := h.sent write hwrite
    refine ⟨_, by rw [getElem?_setPhase, hpass]; rfl, ?_⟩
    split <;> exact hleases
  acknowledged pass' hpass' := by
    obtain ⟨pass, hpass, hleases, rfl | ⟨hi, hp⟩⟩ := mem_setPhase hpass'
    · exact h.acknowledged _ hpass
    · intro token rest hcompleting
      rw [hleases]
      exact hphase pass hi (hp.symm.trans hcompleting)
  delivered := h.delivered

theorem setPhase_of_not {i : Nat} {phase : Phase}
    (hphase : ∀ token rest, phase ≠ .completing token rest) : (w.setPhase i phase).Sound zed :=
  h.setPhase fun _ _ token rest hc => absurd hc (hphase token rest)

theorem withDb {c : Command} (hn : postgres.next w.db c = some db')
    (hd : ∀ row ∈ db'.outbox, row.status = .delivered → row ∈ w.db.outbox ∨ w.Backed zed row) :
    Sound zed { w with db := db' } where
  reachable := h.reachable.step trivial hn
  leased pass hpass lease hlease := by
    obtain ⟨hkind, row, hrow, hsame⟩ := h.leased pass hpass lease hlease
    obtain ⟨f, new, hrows, hf⟩ := OutboxGrows.of_next hn
    refine ⟨hkind, f row, ?_, hsame.trans (hf row)⟩
    rw [Table.mem_def, hrows]
    exact List.mem_append_left _ (List.mem_map_of_mem hrow)
  distinct := h.distinct
  sent := h.sent
  acknowledged := h.acknowledged
  delivered row hrow hstatus := by
    rcases hd row hrow hstatus with hrow | hback
    · exact h.delivered row hrow hstatus
    · exact hback

/-! ## One step -/

theorem command {c : Command} (hc : c.isDelivery = false) :
    Sound zed { w with db := w.db.step c } := by
  refine h.withDb (c := c) rfl fun row hrow hstatus => .inl ?_
  rcases step_cases (c := c) rfl with hexec | hsame
  · obtain ⟨new, hrows, hnew⟩ := OutboxAppends.of_changes (execute_changes hc hexec)
    rw [Table.mem_def, hrows, List.mem_append] at hrow
    rcases hrow with hrow | hrow
    · exact hrow
    · simp [hnew row hrow] at hstatus
  · rwa [hsame] at hrow

omit h in
theorem mem_of_delivered {db : Db} {p : OutboxRow → Bool} {f : OutboxRow → OutboxRow}
    (hf : ∀ row, (f row).outboxId = row.outboxId) (hnot : ∀ row, (f row).status ≠ .delivered) {row : OutboxRow}
    (hrow : row ∈ db.outbox.update p f hf) (hstatus : row.status = .delivered) : row ∈ db.outbox := by
  obtain ⟨old, hold, rfl⟩ := List.mem_map.1 hrow
  cases hp : p old with
  | true => simp [hp, hnot old] at hstatus
  | false => simpa [hp, Table.mem_def] using hold

theorem addPass {leases : List OutboxRow} {nowMs : Int}
    (hleased : ∀ lease ∈ leases, lease.payload.kind = .relationship ∧ lease ∈ w.db.outbox)
    (hdistinct : leases.Pairwise fun a b => ∀ t, a.tuple? = some t → b.tuple? ≠ some t) :
    Sound zed { w with passes := w.passes ++ [⟨leases, nowMs, .ready⟩] } where
  reachable := h.reachable
  leased pass hpass lease hlease := by
    rcases List.mem_append.1 hpass with hpass | hpass
    · exact h.leased pass hpass lease hlease
    · rw [List.mem_singleton.1 hpass] at hlease
      exact ⟨(hleased lease hlease).1, lease, (hleased lease hlease).2, rfl, rfl, rfl⟩
  distinct pass hpass := by
    rcases List.mem_append.1 hpass with hpass | hpass
    · exact h.distinct pass hpass
    · rw [List.mem_singleton.1 hpass]
      exact hdistinct
  sent write hwrite := by
    obtain ⟨pass, hpass, hleases⟩ := h.sent write hwrite
    exact ⟨pass, by rw [List.getElem?_append_left (List.getElem?_eq_some_iff.1 hpass).1, hpass], hleases⟩
  acknowledged pass hpass := by
    rcases List.mem_append.1 hpass with hpass | hpass
    · exact h.acknowledged pass hpass
    · rw [List.mem_singleton.1 hpass]
      intro token rest hc
      cases hc
  delivered := h.delivered

theorem lease {batchSize : Nat} {nowMs : Int} {leaseId : Uuid} {locked : Uuid → Bool}
    (hn : w.lease batchSize nowMs leaseId locked = some w') : w'.Sound zed := by
  unfold World.lease at hn
  split at hn
  · cases hn
  · have hkind : (relationshipLease batchSize nowMs leaseId locked).kind = .relationship := rfl
    generalize relationshipLease batchSize nowMs leaseId locked = p at hn hkind
    cases hn
    have hdb : Sound zed { w with db := _ } := h.withDb (c := .leaseOutbox p) rfl fun row hrow hstatus =>
      .inl (mem_of_delivered (by intro _; rfl) (by intro _; simp [OutboxRow.lease]) hrow hstatus)
    refine hdb.addPass (fun lease hlease => ?_) (List.pairwise_map.2 (pairwise_leaseCandidates p w.db))
    obtain ⟨row, hrow, rfl⟩ := List.mem_map.1 hlease
    obtain ⟨hmem, hleasable⟩ := mem_leaseCandidates hrow
    refine ⟨(kind_of_leasable hleasable).trans hkind, List.mem_map.2 ⟨row, hmem, if_pos ?_⟩⟩
    exact List.any_eq_true.2 ⟨row, hrow, by simp⟩

theorem settle {c : Command} {i : Nat} {settled : Bool} {phase : Phase}
    (hn : postgres.next w.db c = some db')
    (hd : ∀ row ∈ db'.outbox, row.status = .delivered → row ∈ w.db.outbox ∨ w.Backed zed row)
    (hphase : ∀ pass, w.passes[i]? = some pass → w.Acknowledged zed { pass with phase := phase })
    (hw : w.settle i (.ok (settled, db')) phase = some w') : w'.Sound zed := by
  cases hw
  refine (h.withDb hn hd).setPhase fun pass hpass => ?_
  cases settled with
  | true => exact hphase pass hpass
  | false => intro token rest hc; cases hc

theorem complete {i : Nat} (hn : w.complete i = some w') : w'.Sound zed := by
  obtain ⟨pass, hpass, hn⟩ := Option.bind_eq_some_iff.1 hn
  split at hn
  · rename_i token lease rest hphase
    obtain ⟨leaseId, -, hn⟩ := Option.bind_eq_some_iff.1 hn
    have hmem := List.mem_of_getElem? hpass
    obtain ⟨n, write, happlied, rfl, hleases, hrest⟩ := h.acknowledged pass hmem hphase
    have hlease : lease ∈ pass.leases := hrest lease (by simp)
    refine h.settle (c := .completeOutbox ⟨lease.outboxId, leaseId, pass.nowMs, zed.text n⟩) rfl
      (fun row hrow hstatus => ?_) (fun pass' hpass' => ?_) hn
    · obtain ⟨old, hold, rfl⟩ := List.mem_map.1 hrow
      cases hp : old.heldBy lease.outboxId leaseId with
      | false => exact .inl (by simpa [hp, Table.mem_def] using hold)
      | true =>
        -- the row being completed is the one the pass leased
        obtain ⟨-, row, hrow', hsame⟩ := h.leased pass hmem lease hlease
        obtain rfl : row = old :=
          Table.eq_of_key hrow' hold (hsame.outboxId.trans (heldBy_eq_true.1 hp).1.symm)
        simp only [hp, if_true]
        exact .inr ⟨n, write, lease, rfl, happlied, hleases ▸ hlease, hsame.trans ⟨rfl, rfl, rfl⟩⟩
    · obtain rfl : pass' = pass := Option.some.inj (hpass'.symm.trans hpass)
      rintro token' rest' ⟨⟩
      exact ⟨n, write, happlied, rfl, hleases, fun l hl => hrest l (by simp [hl])⟩
  · cases hn

theorem retry {i : Nat} (hn : w.retry i = some w') : w'.Sound zed := by
  obtain ⟨pass, hpass, hn⟩ := Option.bind_eq_some_iff.1 hn
  split at hn
  · rename_i lease rest hphase
    obtain ⟨leaseId, -, hn⟩ := Option.bind_eq_some_iff.1 hn
    refine h.settle (c := .retryOutbox (relationshipRetry lease leaseId pass.nowMs)) rfl
      (fun row hrow hstatus => .inl ?_) (fun pass' hpass' token rest hc => ?_) hn
    · refine mem_of_delivered (by intro _; rfl) (fun row hdel => ?_) hrow hstatus
      simp only [OutboxRow.retry] at hdel
      split at hdel <;> cases hdel
    · cases hc
  · cases hn

theorem send {i : Nat} (hn : w.send i = some w') : w'.Sound zed := by
  obtain ⟨pass, hpass, hn⟩ := Option.bind_eq_some_iff.1 hn
  split at hn
  · split at hn
    · cases hn; exact h.setPhase_of_not (by simp)
    · split at hn
      · cases hn
        have hsent : Sound zed { w with inFlight := w.inFlight ++ [⟨i, pass.leases⟩] } :=
          { h with
            sent := fun write hwrite => by
              rw [List.mem_append, List.mem_singleton] at hwrite
              rcases hwrite with (hwrite | rfl) | hwrite
              · exact h.sent write (.inl hwrite)
              · exact ⟨pass, hpass, rfl⟩
              · exact h.sent write (.inr hwrite) }
        exact hsent.setPhase_of_not (by simp)
      · cases hn; exact h.setPhase_of_not (by simp)
  · cases hn

theorem apply {k : Nat} (hn : w.apply k = some w') : w'.Sound zed := by
  obtain ⟨write, hwrite, rfl⟩ := Option.map_eq_some_iff.1 hn
  -- the log only grows, so what was read from it stays
  have hlog {n : Nat} {write' : Write} (hn : w.applied[n]? = some write') :
      (w.applied ++ [write])[n]? = some write' := by
    rw [List.getElem?_append_left (List.getElem?_eq_some_iff.1 hn).1, hn]
  refine
    { h with
      sent := fun write' hwrite' => ?_
      acknowledged := fun pass hpass => ?_
      delivered := fun row hrow hs => ?_ }
  · rcases hwrite' with hwrite' | hwrite'
    · exact h.sent write' (.inl (List.mem_of_mem_eraseIdx hwrite'))
    · rcases List.mem_append.1 hwrite' with hwrite' | hwrite'
      · exact h.sent write' (.inr hwrite')
      · rw [List.mem_singleton.1 hwrite']
        exact h.sent write (.inl (List.mem_of_getElem? hwrite))
  · intro token rest hc
    obtain ⟨n, write', happlied, htoken⟩ := h.acknowledged pass hpass hc
    exact ⟨n, write', hlog happlied, htoken⟩
  · obtain ⟨n, write', lease, hid, happlied, hlease⟩ := h.delivered row hrow hs
    exact ⟨n, write', lease, hid, hlog happlied, hlease⟩

theorem receive {i n : Nat} (hn : w.receive zed i n = some w') : w'.Sound zed := by
  obtain ⟨pass, hpass, hn⟩ := Option.bind_eq_some_iff.1 hn
  split at hn
  · split at hn
    · rename_i hany
      cases hn
      obtain ⟨write, happlied, hi⟩ := (Option.any_eq_true _ _).1 hany
      refine h.setPhase fun pass' hpass' => ?_
      obtain rfl : pass' = pass := Option.some.inj (hpass'.symm.trans hpass)
      rintro token rest ⟨⟩
      obtain ⟨pass', hpass', hleases⟩ := h.sent write (.inr (List.mem_of_getElem? happlied))
      rw [of_decide_eq_true hi, hpass] at hpass'
      cases hpass'
      exact ⟨n, write, happlied, rfl, hleases, fun _ hl => hl⟩
    · cases hn
  · cases hn

theorem fail {i : Nat} (hn : w.fail i = some w') : w'.Sound zed := by
  obtain ⟨pass, -, hn⟩ := Option.bind_eq_some_iff.1 hn
  split at hn
  · cases hn; exact h.setPhase_of_not (by simp)
  · cases hn

theorem next {a : Action} (hn : w.next zed a = some w') : w'.Sound zed := by
  cases a with
  | command c =>
    simp only [World.next] at hn
    split at hn
    · cases hn
    · rename_i hc
      cases hn
      exact h.command (Bool.eq_false_iff.2 hc)
  | lease => exact h.lease hn
  | send => exact h.send hn
  | apply => exact h.apply hn
  | receive => exact h.receive hn
  | fail => exact h.fail hn
  | complete => exact h.complete hn
  | retry => exact h.retry hn
  | crash => cases hn; exact h.setPhase_of_not (by simp)

end Sound

end World

/-- What a step does outside the passes: it runs one statement, or commits one write, or neither. -/
theorem effect_of_next {a : Action} (h : w.next zed a = some w') :
    (w'.applied = w.applied ∧ (w'.db = w.db ∨ ∃ c, postgres.next w.db c = some w'.db)) ∨
    ∃ k write, a = .apply k ∧ w.inFlight[k]? = some write ∧ w'.applied = w.applied ++ [write] ∧ w'.db = w.db := by
  cases a with
  | command c =>
    simp only [World.next] at h
    split at h <;> cases h
    exact .inl ⟨rfl, .inr ⟨c, rfl⟩⟩
  | lease =>
    simp only [World.next, World.lease] at h
    split at h
    · cases h
    · cases h; exact .inl ⟨rfl, .inr ⟨.leaseOutbox _, rfl⟩⟩
  | apply k =>
    obtain ⟨write, hwrite, rfl⟩ := Option.map_eq_some_iff.1 h
    exact .inr ⟨k, write, rfl, hwrite, rfl, rfl⟩
  | crash => cases h; exact .inl ⟨rfl, .inl rfl⟩
  | send | receive | fail =>
    obtain ⟨pass, -, h⟩ := Option.bind_eq_some_iff.1 h
    repeat' split at h
    all_goals cases h
    all_goals exact .inl ⟨rfl, .inl rfl⟩
  | complete =>
    obtain ⟨pass, -, h⟩ := Option.bind_eq_some_iff.1 h
    split at h
    · obtain ⟨leaseId, -, h⟩ := Option.bind_eq_some_iff.1 h
      cases h; exact .inl ⟨rfl, .inr ⟨.completeOutbox _, rfl⟩⟩
    · cases h
  | retry =>
    obtain ⟨pass, -, h⟩ := Option.bind_eq_some_iff.1 h
    split at h
    · obtain ⟨leaseId, -, h⟩ := Option.bind_eq_some_iff.1 h
      cases h; exact .inl ⟨rfl, .inr ⟨.retryOutbox _, rfl⟩⟩
    · cases h

theorem sound_init : (relationshipSystem zed).init.Sound zed where
  reachable := .refl _
  leased pass hpass := absurd hpass List.not_mem_nil
  distinct pass hpass := absurd hpass List.not_mem_nil
  sent write hwrite := by simp [relationshipSystem] at hwrite
  acknowledged pass hpass := absurd hpass List.not_mem_nil
  delivered row hrow := absurd hrow (Table.not_mem_empty row)

/-- **Every delivered row is backed** by a committed write that carried it, in every run. -/
theorem sound_of_reachableBy {ok : World → Action → Prop} (h : ReachableBy (relationshipSystem zed) ok w) :
    w.Sound zed :=
  h.invariant (I := World.Sound zed) sound_init fun hs _ hn => hs.next hn

end WasiAuth
