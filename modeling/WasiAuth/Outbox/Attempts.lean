import WasiAuth.Relationships.Worker

/-! # How often an outbox row is leased

`lease_outbox.sql` counts an attempt and `retry_outbox.sql` compares the count with `MAX_ATTEMPTS`. A row waits only
while it has attempts left, so only the lease of an expired lease can go over the bound: nothing compares the count
there. A pass that ends between the two statements leaves such a row (`leaseCount_le_iff`).
-/

namespace WasiAuth

open Relational Transition

/-! ## Counting leases -/

/-- The row is among the `candidates` (lease_outbox.sql:1-33). -/
def Command.leases (id : Uuid) (db : Db) : Command → Bool
  | .leaseOutbox p => (db.leaseCandidates p).any fun row => decide (row.outboxId = id)
  | _ => false

/-- How often a run leases the row. -/
def Db.leaseCount (id : Uuid) (db : Db) (cmds : List Command) : Nat :=
  postgres.count (fun db c => c.leases id db) db cmds

/-- `MAX_ATTEMPTS`, as both workers retry (outbox.rs:490-508, 848-866). -/
def Command.ofWorker : Command → Bool
  | .retryOutbox p => decide (p.maxAttempts = maxAttempts)
  | _ => true

/-- The statement takes over the expired lease of a row that has no attempts left. -/
def Command.leasesSpent (db : Db) : Command → Bool
  | .leaseOutbox p =>
    (db.leaseCandidates p).any fun row => decide (row.status = .leased ∧ maxAttempts ≤ row.attemptCount)
  | _ => false

section Count
variable {db db' : Db} {id : Uuid} {row row' : OutboxRow} {c : Command}

theorem leases_eq_false_of_not_delivery (hc : c.isDelivery = false) : c.leases id db = false := by
  cases c <;> first | rfl | cases hc

theorem leases_eq_false_of_absent (h : db.outbox.find? id = none) : c.leases id db = false := by
  cases c
  case leaseOutbox p =>
    refine List.any_eq_false.2 fun row hrow hid => ?_
    exact Table.find?_eq_none.1 h row (mem_leaseCandidates hrow).1 (of_decide_eq_true hid)
  all_goals rfl

/-! ## What a statement does to the count -/

/-- A row after the statement is new, or it has one attempt more if the statement leased it. -/
theorem attempt_of_next (h : postgres.next db c = some db') (hrow' : row' ∈ db'.outbox) :
    row'.IsNew ∧ db.outbox.find? row'.outboxId = none ∨
      ∃ row ∈ db.outbox, row.outboxId = row'.outboxId ∧
        row'.attemptCount = row.attemptCount + (c.leases row.outboxId db).toNat := by
  cases hc : c.isDelivery with
  | false =>
    have hleases : c.leases row'.outboxId db = false := leases_eq_false_of_not_delivery hc
    rcases step_cases h with hexec | rfl
    · obtain ⟨new, hrows, hnew⟩ := OutboxInserts.of_changes (execute_changes hc hexec)
      rw [Table.mem_def, hrows, List.mem_append] at hrow'
      rcases hrow' with hold | hrow'
      · exact .inr ⟨row', hold, rfl, by rw [hleases]; rfl⟩
      · refine .inl ⟨hnew row' hrow', Table.find?_eq_none.2 fun row hrow hid => ?_⟩
        have hnodup := db'.outbox.nodup
        rw [hrows, List.map_append, List.nodup_append] at hnodup
        exact hnodup.2.2 _ (List.mem_map_of_mem hrow) _ (List.mem_map_of_mem hrow') hid
    · exact .inr ⟨row', hrow', rfl, by rw [hleases]; rfl⟩
  | true =>
    right
    cases c <;> cases hc <;> cases h <;> obtain ⟨row, hrow, rfl⟩ := List.mem_map.1 hrow' <;> refine ⟨row, hrow, ?_⟩
    · -- the rows a lease updates are those it counts
      rename_i p
      have hleases : (Command.leaseOutbox p).leases row.outboxId db =
          (db.leaseCandidates p).any fun c => decide (c.outboxId = row.outboxId) := rfl
      rw [hleases]
      cases hp : (db.leaseCandidates p).any fun c => decide (c.outboxId = row.outboxId) with
      | true => exact ⟨by simp [hp, OutboxRow.lease], by simp [hp, OutboxRow.lease]⟩
      | false => exact ⟨by simp [hp], by simp [hp]⟩
    all_goals split <;> exact ⟨rfl, rfl⟩

theorem pending_of_next (hworker : c.ofWorker = true) (h : postgres.next db c = some db') (hrow' : row' ∈ db'.outbox)
    (hpending : row'.status = .pending) : row' ∈ db.outbox ∨ row'.attemptCount < maxAttempts := by
  cases hc : c.isDelivery with
  | false =>
    rcases step_cases h with hexec | rfl
    · obtain ⟨new, hrows, hnew⟩ := OutboxInserts.of_changes (execute_changes hc hexec)
      rw [Table.mem_def, hrows, List.mem_append] at hrow'
      rcases hrow' with hold | hrow'
      · exact .inl hold
      · exact .inr (by rw [(hnew row' hrow').attemptCount]; decide)
    · exact .inl hrow'
  | true =>
    cases c <;> cases hc <;> cases h <;> obtain ⟨row, hrow, rfl⟩ := List.mem_map.1 hrow' <;> split at hpending
    · cases hpending
    · rename_i hp
      exact .inl (by simpa [hp, Table.mem_def] using hrow)
    · cases hpending
    · rename_i hp
      exact .inl (by simpa [hp, Table.mem_def] using hrow)
    · rename_i p hp
      have hmax : p.maxAttempts = maxAttempts := of_decide_eq_true hworker
      simp only [OutboxRow.retry, hmax] at hpending
      split at hpending
      · cases hpending
      · rename_i hleft
        exact .inr (by simpa [hp, OutboxRow.retry] using hleft)
    · rename_i hp
      exact .inl (by simpa [hp, Table.mem_def] using hrow)

theorem absent_of_next (h : postgres.next db c = some db') (habsent : db'.outbox.find? id = none) :
    db.outbox.find? id = none := by
  obtain ⟨f, new, hrows, hf⟩ := OutboxGrows.of_next h
  refine Table.find?_eq_none.2 fun row hrow hid => ?_
  have hmem : f row ∈ db'.outbox := by
    rw [Table.mem_def, hrows]
    exact List.mem_append_left _ (List.mem_map_of_mem hrow)
  exact Table.find?_eq_none.1 habsent (f row) hmem ((hf row).outboxId.trans hid)

end Count

/-! ## Every run -/

section Runs
variable {db db' : Db} {id : Uuid} {row : OutboxRow} {c : Command} {cmds : List Command}

/-- After the commands, `attempt_count` is the number of leases, and a row that waits has attempts left. -/
structure Attempts (cmds : List Command) (db : Db) : Prop where
  counts : ∀ row ∈ db.outbox, row.attemptCount = Db.empty.leaseCount row.outboxId cmds
  absent : ∀ id, db.outbox.find? id = none → Db.empty.leaseCount id cmds = 0
  waiting : ∀ row ∈ db.outbox, row.status = .pending → row.attemptCount < maxAttempts

theorem leaseCount_snoc (hrun : postgres.run postgres.init cmds = some db) :
    Db.empty.leaseCount id (cmds ++ [c]) = Db.empty.leaseCount id cmds + (c.leases id db).toNat :=
  System.count_append hrun

theorem Attempts.next (h : Attempts cmds db) (hrun : postgres.run postgres.init cmds = some db)
    (hworker : c.ofWorker = true) (hn : postgres.next db c = some db') : Attempts (cmds ++ [c]) db' where
  counts row' hrow' := by
    rw [leaseCount_snoc hrun]
    rcases attempt_of_next hn hrow' with ⟨hnew, habsent⟩ | ⟨row, hrow, hid, hcount⟩
    · rw [h.absent _ habsent, leases_eq_false_of_absent habsent, hnew.attemptCount]
      rfl
    · rw [hcount, h.counts row hrow, hid]
  absent id habsent := by
    have hbefore := absent_of_next hn habsent
    rw [leaseCount_snoc hrun, h.absent id hbefore, leases_eq_false_of_absent hbefore]
    rfl
  waiting row' hrow' hpending := by
    rcases pending_of_next hworker hn hrow' hpending with hrow | hleft
    · exact h.waiting row' hrow hpending
    · exact hleft

theorem attempts_of_run (hrun : postgres.run postgres.init cmds = some db) (hworker : ∀ c ∈ cmds, c.ofWorker = true) :
    Attempts cmds db := by
  refine System.run_trace (I := fun cmds db => (∀ c ∈ cmds, c.ofWorker = true) → Attempts cmds db) (fun _ => ?_)
    (fun hrun ih hn hworker => ?_) hrun hworker
  · exact ⟨fun row hrow => absurd hrow (Table.not_mem_empty row), fun _ _ => rfl,
      fun row hrow => absurd hrow (Table.not_mem_empty row)⟩
  · refine (ih fun c hc => hworker c (List.mem_append_left _ hc)).next hrun ?_ hn
    exact hworker _ (List.mem_append_right _ (List.mem_singleton_self _))

theorem lt_of_leases (h : Attempts cmds db) (hspent : c.leasesSpent db = false) (hleases : c.leases id db = true) :
    Db.empty.leaseCount id cmds < maxAttempts := by
  cases c
  case leaseOutbox p =>
    obtain ⟨row, hcandidate, hid⟩ := List.any_eq_true.1 hleases
    obtain ⟨hrow, hleasable⟩ := mem_leaseCandidates hcandidate
    have hstatus : row.status = .pending ∨ row.status = .leased := by
      simp only [Db.leasable, Bool.and_eq_true, Bool.or_eq_true, decide_eq_true_eq] at hleasable
      exact hleasable.1.2.imp_right And.left
    rw [← of_decide_eq_true hid, ← h.counts row hrow]
    rcases hstatus with hpending | hleased
    · exact h.waiting row hrow hpending
    · have hleft := List.any_eq_false.1 hspent row hcandidate
      simp only [decide_eq_true_eq, not_and, not_le] at hleft
      exact hleft hleased
  all_goals cases hleases

theorem run_postgres : ∀ (cmds : List Command) (db : Db), postgres.run db cmds = some (cmds.foldl Db.step db)
  | [], _ => rfl
  | c :: cmds, db => run_postgres cmds (db.step c)

/-- **The bound on leases.** No row is leased more often than `MAX_ATTEMPTS` says, exactly in the runs in which no
statement takes over the expired lease of a row that has no attempts left. -/
theorem leaseCount_le_iff {cmds : List Command} (hworker : ∀ c ∈ cmds, c.ofWorker = true) :
    (∀ id, Db.empty.leaseCount id cmds ≤ maxAttempts) ↔
      ∀ before c after db, cmds = before ++ c :: after → postgres.run postgres.init before = some db →
        c.leasesSpent db = false := by
  constructor
  · rintro hbound before c after db rfl hrun
    refine Bool.eq_false_iff.2 fun hspent => ?_
    cases c
    case leaseOutbox p =>
      obtain ⟨row, hcandidate, hrow⟩ := List.any_eq_true.1 hspent
      have hattempts := attempts_of_run hrun fun c hc => hworker c (List.mem_append_left _ hc)
      have hcount := hattempts.counts row (mem_leaseCandidates hcandidate).1
      have hleases : (Command.leaseOutbox p).leases row.outboxId db = true :=
        List.any_eq_true.2 ⟨row, hcandidate, decide_eq_true rfl⟩
      have hmore := hbound row.outboxId
      rw [Db.leaseCount, show Db.empty = postgres.init from rfl, System.count_append hrun, System.count,
        hleases] at hmore
      have hspent := (of_decide_eq_true hrow).2
      simp only [Bool.toNat_true] at hmore
      rw [Db.leaseCount, show Db.empty = postgres.init from rfl] at hcount
      omega
    all_goals cases hspent
  · -- the last command leases within the bound, or leaves the count as it was
    intro hspent id
    induction cmds using List.reverseRecOn with
    | nil => exact Nat.zero_le _
    | append_singleton cmds c ih =>
      have hrun := run_postgres cmds postgres.init
      have hworker' : ∀ c ∈ cmds, c.ofWorker = true := fun c hc => hworker c (List.mem_append_left _ hc)
      rw [leaseCount_snoc hrun]
      cases hleases : c.leases id (cmds.foldl Db.step postgres.init) with
      | true => exact lt_of_leases (attempts_of_run hrun hworker') (hspent cmds c [] _ rfl hrun) hleases
      | false =>
        refine ih hworker' fun before c' after db hsplit hrun' => ?_
        exact hspent before c' (after ++ [c]) db (by rw [hsplit]; simp) hrun'

/-- One worker after the other leases the founder's verification mail and stops before it settles it. -/
def leaseAndStop (passes : Nat) : List Command :=
  foundAcme ++ (List.range passes).map fun n =>
    .leaseOutbox
      { kind := .mail, nowMs := 30000 * n, limit := 25, leaseId := ⟨BitVec.ofNat 128 (500 + n)⟩
        leasedUntilMs := 30000 * n + 30000, locked := fun _ => false }

theorem leaseCount_leaseAndStop : Db.empty.leaseCount ⟨101⟩ (leaseAndStop 9) = 9 := by decide +kernel

theorem ofWorker_leaseAndStop : ∀ c ∈ leaseAndStop 9, c.ofWorker = true := by decide +kernel

theorem leasesSpent_of_count {cmds : List Command}
    (h : postgres.count (fun db c => c.leasesSpent db) postgres.init cmds = 0) :
    ∀ before c after db, cmds = before ++ c :: after → postgres.run postgres.init before = some db →
      c.leasesSpent db = false := by
  rintro before c after db rfl hrun
  rw [System.count_append hrun, System.count] at h
  cases hspent : c.leasesSpent db with
  | false => rfl
  | true => simp [hspent] at h

/-- Eight workers stay within the bound; the ninth takes over the lease of a row that has no attempts left. -/
theorem leaseAndStop_leasesSpent :
    (∀ id, Db.empty.leaseCount id (leaseAndStop 8) ≤ maxAttempts) ∧ Db.empty.leaseCount ⟨101⟩ (leaseAndStop 8) = 8 ∧
    ¬ ∀ before c after db, leaseAndStop 9 = before ++ c :: after → postgres.run postgres.init before = some db →
      c.leasesSpent db = false := by
  have hworker : ∀ c ∈ leaseAndStop 8, c.ofWorker = true := by decide +kernel
  refine ⟨(leaseCount_le_iff hworker).2 (leasesSpent_of_count (by decide +kernel)), by decide +kernel, fun hspent => ?_⟩
  have hbound := (leaseCount_le_iff ofWorker_leaseAndStop).2 hspent ⟨101⟩
  rw [leaseCount_leaseAndStop] at hbound
  exact absurd hbound (by decide)

/-- A mail is leased for the ninth time, in a run in which every retry passes `MAX_ATTEMPTS`. -/
theorem exists_maxAttempts_lt_leaseCount :
    ∃ cmds id, (∀ c ∈ cmds, c.ofWorker = true) ∧ maxAttempts < Db.empty.leaseCount id cmds :=
  ⟨leaseAndStop 9, ⟨101⟩, ofWorker_leaseAndStop, by rw [leaseCount_leaseAndStop]; decide⟩

end Runs

end WasiAuth
