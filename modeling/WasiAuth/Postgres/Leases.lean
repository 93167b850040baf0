import WasiAuth.Postgres.Intents

/-! # The lease protocol of the outbox

A row is leased only when every earlier row of its tuple is delivered (the `NOT EXISTS` of
`lease_outbox.sql`), and a later insert never lands before a leased row because its revision is larger than
every revision of the tuple so far (`revision_lt_of_order`). Leases expire, are taken over and are settled
late, by any number of workers; nothing but the conditions of the three statements is used.
-/

namespace WasiAuth

open Relational Relation Transition

variable {db db' : Db} {row earlier later : OutboxRow}

/-! ## The order of a tuple -/

theorem precedes_iff : earlier.precedes later = true ↔ ∃ op t r op' r',
    earlier.payload = .relationship op t r ∧ later.payload = .relationship op' t r' ∧
      (r < r' ∨ r = r' ∧ earlier.outboxId < later.outboxId) := by
  unfold OutboxRow.precedes
  split
  · rename_i op t r op' t' r' he hl
    simp only [decide_eq_true_eq, he, hl, OutboxPayload.relationship.injEq]
    constructor
    · rintro ⟨rfl, h⟩
      exact ⟨op, t, r, op', r', ⟨rfl, rfl, rfl⟩, ⟨rfl, rfl, rfl⟩, h⟩
    · rintro ⟨_, _, _, _, _, ⟨rfl, rfl, rfl⟩, ⟨rfl, rfl, rfl⟩, h⟩
      exact ⟨rfl, h⟩
  · rename_i hne
    simp only [Bool.false_eq_true, false_iff]
    rintro ⟨op, t, r, op', r', he, hl, -⟩
    exact hne _ _ _ _ _ _ he hl

theorem tuple?_eq_some {t : RelationshipTuple} : row.tuple? = some t ↔ ∃ op r, row.payload = .relationship op t r := by
  unfold OutboxRow.tuple?
  cases row.payload with
  | mail => simp
  | relationship op t' r => simp

/-- Of two rows of one tuple one precedes the other. -/
theorem precedes_total {a b : OutboxRow} {t : RelationshipTuple} (ha : a.tuple? = some t) (hb : b.tuple? = some t)
    (hne : a.outboxId ≠ b.outboxId) : a.precedes b = true ∨ b.precedes a = true := by
  obtain ⟨op, r, ha⟩ := tuple?_eq_some.1 ha
  obtain ⟨op', r', hb⟩ := tuple?_eq_some.1 hb
  rcases Nat.lt_trichotomy r r' with h | rfl | h
  · exact .inl (precedes_iff.2 ⟨op, t, r, op', r', ha, hb, .inl h⟩)
  · rcases Uuid.lt_or_lt_of_ne hne with hid | hid
    · exact .inl (precedes_iff.2 ⟨op, t, r, op', r, ha, hb, .inr ⟨rfl, hid⟩⟩)
    · exact .inr (precedes_iff.2 ⟨op', t, r, op, r, hb, ha, .inr ⟨rfl, hid⟩⟩)
  · exact .inr (precedes_iff.2 ⟨op', t, r', op, r, hb, ha, .inl h⟩)

theorem OutboxRow.Redelivered.precedes {earlier' later' : OutboxRow} (he : earlier.Redelivered earlier')
    (hl : later.Redelivered later') : earlier'.precedes later' = earlier.precedes later := by
  unfold OutboxRow.precedes
  rw [he.payload, hl.payload, he.outboxId, hl.outboxId]

theorem revision_lt_of_order (h : Tracked db []) {rows new : List OutboxRow} (hrows : db.outbox.rows = rows ++ new)
    {a b : OutboxRow} (ha : a ∈ rows) (hb : b ∈ new) {op op' : RelationshipOperation} {t : RelationshipTuple}
    {r r' : Nat} (hpa : a.payload = .relationship op t r) (hpb : b.payload = .relationship op' t r') : r < r' := by
  have hordered := h.ordered
  rw [hrows, List.pairwise_append] at hordered
  exact hordered.2.2 a ha b hb hpa hpb rfl rfl

/-! ## What the three statements do to a row -/

/-- A write of delivery columns: it touches no delivered row, and leases only a row all of whose
predecessors are delivered. -/
structure Redelivers (db : Db) (p : OutboxRow → Bool) (f : OutboxRow → OutboxRow) : Prop where
  same : ∀ row : OutboxRow, row.Redelivered (f row)
  undelivered : ∀ row ∈ db.outbox, p row = true → row.status ≠ .delivered
  inOrder : ∀ row ∈ db.outbox, p row = true → (f row).status = .leased →
    ∀ earlier ∈ db.outbox, earlier.precedes row = true → earlier.status = .delivered

/-- A row is leased once all before it are delivered. -/
theorem leasable_eq_true {p : LeaseOutbox} (h : db.leasable p row = true) : row.status ≠ .delivered ∧
    ∀ earlier ∈ db.outbox, earlier.precedes row = true → earlier.status = .delivered := by
  simp only [Db.leasable, Bool.and_eq_true, Bool.or_eq_true, decide_eq_true_eq, Bool.not_eq_eq_eq_not,
    Bool.not_true, List.any_eq_false] at h
  obtain ⟨⟨-, hstatus⟩, hearlier⟩ := h
  refine ⟨?_, fun earlier he hpre => ?_⟩
  · rcases hstatus with hs | ⟨hs, -⟩ <;> simp [hs]
  · by_contra hne
    exact hearlier earlier he ⟨hpre, hne⟩

theorem kind_of_leasable {p : LeaseOutbox} (h : db.leasable p row = true) : row.payload.kind = p.kind := by
  simp only [Db.leasable, Bool.and_eq_true, decide_eq_true_eq] at h
  exact h.1.1.1

theorem mem_leaseCandidates {p : LeaseOutbox} (h : row ∈ db.leaseCandidates p) :
    row ∈ db.outbox ∧ db.leasable p row = true := by
  have hmem := (List.mem_insertionSort _).1 (List.mem_of_mem_take h)
  obtain ⟨hrow, hcond⟩ := List.mem_filter.1 hmem
  exact ⟨hrow, (Bool.and_eq_true_iff.1 hcond).1⟩

theorem mem_leaseCandidates_of_any {p : LeaseOutbox} (hrow : row ∈ db.outbox)
    (h : ((db.leaseCandidates p).any fun c => decide (c.outboxId = row.outboxId)) = true) :
    row ∈ db.leaseCandidates p := by
  obtain ⟨c, hc, hid⟩ := List.any_eq_true.1 h
  obtain rfl : c = row := Table.eq_of_key (mem_leaseCandidates hc).1 hrow (of_decide_eq_true hid)
  exact hc

theorem heldBy_eq_true {outboxId leaseId : Uuid} : row.heldBy outboxId leaseId = true ↔
    row.outboxId = outboxId ∧ row.leaseId = some leaseId ∧ row.status = .leased := by
  simp [OutboxRow.heldBy]

theorem redelivers_lease (p : LeaseOutbox) : Redelivers db
    (fun row => (db.leaseCandidates p).any fun c => decide (c.outboxId = row.outboxId)) (·.lease p) where
  same _ := ⟨rfl, rfl, rfl⟩
  undelivered _ hrow hp := (leasable_eq_true (mem_leaseCandidates (mem_leaseCandidates_of_any hrow hp)).2).1
  inOrder _ hrow hp _ := (leasable_eq_true (mem_leaseCandidates (mem_leaseCandidates_of_any hrow hp)).2).2

theorem redelivers_complete (p : CompleteOutbox) :
    Redelivers db (·.heldBy p.outboxId p.leaseId) (·.complete p) where
  same _ := ⟨rfl, rfl, rfl⟩
  undelivered row _ hp := by simp [(heldBy_eq_true.1 hp).2.2]
  inOrder row _ _ hleased := by cases hleased

theorem redelivers_retry (p : RetryOutbox) : Redelivers db (·.heldBy p.outboxId p.leaseId) (·.retry p) where
  same _ := ⟨rfl, rfl, rfl⟩
  undelivered row _ hp := by simp [(heldBy_eq_true.1 hp).2.2]
  inOrder row _ _ hleased := by
    simp only [OutboxRow.retry] at hleased
    split at hleased <;> cases hleased

theorem execute_redelivers {c : Command} (hc : c.isDelivery = true) (h : c.execute db = .ok db') :
    ∃ p f hf, Redelivers db p f ∧ db' = { db with outbox := db.outbox.update p f hf } := by
  cases c <;> cases hc <;> cases h
  · exact ⟨_, _, _, redelivers_lease _, rfl⟩
  · exact ⟨_, _, _, redelivers_complete _, rfl⟩
  · exact ⟨_, _, _, redelivers_retry _, rfl⟩

/-! ## The invariant -/

/-- An intent is leased only when all before it on its resource are delivered. -/
def Db.LeasedInOrder (db : Db) : Prop :=
  ∀ row ∈ db.outbox, row.status = .leased → ∀ earlier ∈ db.outbox, earlier.precedes row = true →
    earlier.status = .delivered

theorem Db.LeasedInOrder.append (h : db.LeasedInOrder) (ha : OutboxAppends db db') (ht : Tracked db' []) :
    db'.LeasedInOrder := by
  obtain ⟨new, hrows, hnew⟩ := ha
  intro row hrow hleased earlier hearlier hpre
  rw [Table.mem_def, hrows, List.mem_append] at hrow hearlier
  rcases hrow with hrow | hrow
  · rcases hearlier with hearlier | hearlier
    · exact h row hrow hleased earlier hearlier hpre
    · -- a new row carries the largest revision of its tuple
      obtain ⟨op, t, r, op', r', hpe, hpr, hlt⟩ := precedes_iff.1 hpre
      have hrev := revision_lt_of_order ht hrows hrow hearlier hpr hpe
      omega
  · simp [hnew row hrow] at hleased

/-- A redelivery leases no row before an earlier one. -/
theorem Db.LeasedInOrder.redeliver {p : OutboxRow → Bool} {f : OutboxRow → OutboxRow}
    {hf : ∀ row, (f row).outboxId = row.outboxId} (h : db.LeasedInOrder) (hr : Redelivers db p f) :
    Db.LeasedInOrder { db with outbox := db.outbox.update p f hf } := by
  have hsame (row : OutboxRow) : row.Redelivered (if p row then f row else row) := by
    split
    · exact hr.same row
    · exact ⟨rfl, rfl, rfl⟩
  intro row' hrow' hleased earlier' hearlier' hpre
  obtain ⟨row, hrow, rfl⟩ := List.mem_map.1 hrow'
  obtain ⟨earlier, hearlier, rfl⟩ := List.mem_map.1 hearlier'
  rw [(hsame earlier).precedes (hsame row)] at hpre
  have hdelivered : earlier.status = .delivered := by
    cases hp : p row with
    | true => exact hr.inOrder row hrow hp (by simpa [hp] using hleased) earlier hearlier hpre
    | false => exact h row hrow (by simpa [hp] using hleased) earlier hearlier hpre
  have hskip : p earlier = false := Bool.eq_false_iff.2 fun hp => hr.undelivered earlier hearlier hp hdelivered
  simpa [hskip] using hdelivered

theorem Db.LeasedInOrder.next {c : Command} (h : db.LeasedInOrder) (ht : Tracked db' [])
    (hn : postgres.next db c = some db') : db'.LeasedInOrder := by
  rcases step_cases hn with hexec | rfl
  · cases hc : c.isDelivery with
    | false => exact h.append (.of_changes (execute_changes hc hexec)) ht
    | true =>
      obtain ⟨p, f, hf, hr, rfl⟩ := execute_redelivers hc hexec
      exact h.redeliver hr
  · exact h

theorem leasedInOrder_of_reachable (h : Reachable postgres db) : db.LeasedInOrder := by
  have hboth : Tracked db [] ∧ db.LeasedInOrder := by
    refine h.invariant (I := fun db => Tracked db [] ∧ db.LeasedInOrder)
      ⟨tracked_empty, fun row hrow => absurd hrow (Table.not_mem_empty row)⟩ fun hs _ hn => ?_
    exact ⟨hs.1.next hn, hs.2.next (hs.1.next hn) hn⟩
  exact hboth.2

/-! ## One batch -/

theorem nodup_leaseCandidates (p : LeaseOutbox) (db : Db) : (db.leaseCandidates p).Nodup := by
  have hrows : db.outbox.rows.Nodup := List.Nodup.of_map _ db.outbox.nodup
  refine List.Nodup.sublist (List.take_sublist _ _) ?_
  exact (List.perm_insertionSort _ _).nodup_iff.2 (hrows.filter _)

/-- Two candidates of one tuple would each have to wait for the other. -/
theorem pairwise_leaseCandidates (p : LeaseOutbox) (db : Db) :
    (db.leaseCandidates p).Pairwise fun a b => ∀ t, a.tuple? = some t → b.tuple? ≠ some t := by
  refine (nodup_leaseCandidates p db).imp_of_mem fun {a b} ha hb hne t hta htb => ?_
  obtain ⟨ha, hla⟩ := mem_leaseCandidates ha
  obtain ⟨hb, hlb⟩ := mem_leaseCandidates hb
  obtain ⟨hua, hea⟩ := leasable_eq_true hla
  obtain ⟨hub, heb⟩ := leasable_eq_true hlb
  have hids : a.outboxId ≠ b.outboxId := fun he => hne (Table.eq_of_key ha hb he)
  rcases precedes_total hta htb hids with hpre | hpre
  · exact hua (heb a ha hpre)
  · exact hub (hea b hb hpre)

/-! ## The protocol -/

/-- What the outbox guarantees in a state, whatever its workers do next. -/
structure Db.OutboxSafe (db : Db) : Prop where
  /-- per tuple at most one row is leased -/
  oneLeased : ∀ a ∈ db.outbox, ∀ b ∈ db.outbox, a.status = .leased → b.status = .leased →
    ∀ t, a.tuple? = some t → b.tuple? = some t → a = b
  /-- a leased row has all its predecessors delivered -/
  leasedInOrder : db.LeasedInOrder
  /-- no batch holds two rows of a tuple -/
  batch : ∀ p batch db', leaseOutbox p db = .ok (batch, db') →
    batch.Pairwise fun a b => ∀ t, a.tuple? = some t → b.tuple? ≠ some t
  /-- a delivered row stays as it is, whatever command comes next -/
  delivered : ∀ c db', postgres.next db c = some db' → ∀ row ∈ db.outbox, row.status = .delivered → row ∈ db'.outbox
  /-- completing changes only the row that is leased under the given lease -/
  complete : ∀ p r db', completeOutbox p db = .ok (r, db') → ∀ row ∈ db.outbox, row ∉ db'.outbox →
    row.outboxId = p.outboxId ∧ row.leaseId = some p.leaseId ∧ row.status = .leased
  /-- so does retrying -/
  retry : ∀ p r db', retryOutbox p db = .ok (r, db') → ∀ row ∈ db.outbox, row ∉ db'.outbox →
    row.outboxId = p.outboxId ∧ row.leaseId = some p.leaseId ∧ row.status = .leased
  /-- no row disappears, however long the run goes on -/
  kept : ∀ db', Steps postgres anyStep db db' → ∀ row ∈ db.outbox, ∃ row' ∈ db'.outbox, row.Redelivered row'

theorem selected_of_not_mem_update {p : OutboxRow → Bool} {f : OutboxRow → OutboxRow}
    (hf : ∀ row, (f row).outboxId = row.outboxId) (hrow : row ∈ db.outbox)
    (hgone : row ∉ db.outbox.update p f hf) : p row = true := by
  by_contra hp
  have hmem : (if p row then f row else row) ∈ db.outbox.update p f hf := Table.mem_update_of_mem hrow
  exact hgone (by simpa [hp] using hmem)

/-- A delivered row stays. -/
theorem delivered_of_next {c : Command} (hn : postgres.next db c = some db') (hrow : row ∈ db.outbox)
    (hd : row.status = .delivered) : row ∈ db'.outbox := by
  rcases step_cases hn with hexec | rfl
  · cases hc : c.isDelivery with
    | false =>
      obtain ⟨new, hrows, -⟩ := OutboxAppends.of_changes (execute_changes hc hexec)
      rw [Table.mem_def, hrows]
      exact List.mem_append_left _ hrow
    | true =>
      obtain ⟨p, f, hf, hr, rfl⟩ := execute_redelivers hc hexec
      by_contra hgone
      exact hr.undelivered row hrow (selected_of_not_mem_update hf hrow hgone) hd
  · exact hrow

/-- **The lease protocol is safe** in every reachable state. -/
theorem outboxSafe_of_reachable (h : Reachable postgres db) : db.OutboxSafe where
  oneLeased a ha b hb hla hlb t hta htb := by
    by_contra hne
    have hids : a.outboxId ≠ b.outboxId := fun he => hne (Table.eq_of_key ha hb he)
    have hord := leasedInOrder_of_reachable h
    rcases precedes_total hta htb hids with hpre | hpre
    · simp [hord b hb hlb a ha hpre] at hla
    · simp [hord a ha hla b hb hpre] at hlb
  leasedInOrder := leasedInOrder_of_reachable h
  batch p batch db' hb := by
    cases hb
    exact List.pairwise_map.2 (pairwise_leaseCandidates p db)
  delivered _ _ hn _ hrow hd := delivered_of_next hn hrow hd
  complete p r db' hc row hrow hgone := by
    cases hc
    exact heldBy_eq_true.1 (selected_of_not_mem_update (by intro _; rfl) hrow hgone)
  retry p r db' hc row hrow hgone := by
    cases hc
    exact heldBy_eq_true.1 (selected_of_not_mem_update (by intro _; rfl) hrow hgone)
  kept db' hrun row hrow := by
    obtain ⟨f, new, hrows, hf⟩ := OutboxGrows.of_run hrun
    refine ⟨f row, ?_, hf row⟩
    rw [Table.mem_def, hrows]
    exact List.mem_append_left _ (List.mem_map_of_mem hrow)

/-- A worker has leased the founder's grant. -/
theorem outboxSafe_while_leased : ∃ db, Reachable postgres db ∧ (∃ row ∈ db.outbox, row.status = .leased) ∧
    db.OutboxSafe := by
  obtain ⟨db, hreach, hany⟩ := exists_reachable_of_run postgres
    (foundAcme ++ [.leaseOutbox
      { kind := .relationship, nowMs := 0, limit := 100, leaseId := ⟨7⟩, leasedUntilMs := 30000
        locked := fun _ => false }])
    (fun db => db.outbox.rows.any fun row => decide (row.status = .leased)) (by decide +kernel)
  obtain ⟨row, hrow, hleased⟩ := List.any_eq_true.1 hany
  exact ⟨db, hreach, ⟨row, hrow, of_decide_eq_true hleased⟩, outboxSafe_of_reachable hreach⟩

end WasiAuth
