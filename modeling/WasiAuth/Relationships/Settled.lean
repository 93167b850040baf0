import Mathlib.Data.Finset.Max
import WasiAuth.Relationships.Consistency

/-! # Settled tuples

When every intent of a tuple is delivered, SpiceDB should hold the tuple exactly when the last intent is a
grant. The last update of the tuple in SpiceDB's log decides, so the promise is that this update belongs to
the last intent. It does as long as the writes of a tuple are committed in the order of their revisions
(`settled_tuple_holds_iff`). A write that was delayed past the expiry of its lease breaks it: another worker
delivers the same grant and then the revocation, and the late `TOUCH` brings the tuple back
(`revoked_tuple_present`).
-/

namespace WasiAuth

open Relational Transition

variable {zed : ZedTokens} {w w' : World} {t : RelationshipTuple}

/-! ## The log decides -/

theorem relationship_inj {t t' : RelationshipTuple} (h : t.relationship = t'.relationship) : t = t' := by
  cases t
  cases t'
  simpa [RelationshipTuple.relationship, and_assoc] using h

/-- The rows SpiceDB has applied, in order. -/
def World.log (w : World) : List OutboxRow := w.applied.flatMap Write.leases

theorem holds_eq (w : World) (r : Relationship) :
    w.holds r = (w.log.filterMap (·.update?)).foldl (RelationshipUpdate.apply r) false := by
  simp only [World.holds, World.log, List.filterMap_flatMap]
  rfl

def SendsTuple (row : OutboxRow) : Prop :=
  ∀ {op t r}, row.payload = .relationship op t r → row.update? = some ⟨updateOperation op, t.relationship⟩

/-- The update of a row with the largest revision decides, when the rows of the tuple come in order. -/
theorem foldl_updates {log : List OutboxRow} {op : RelationshipOperation} {r : Nat}
    (hrows : ∀ row ∈ log, (∃ op t r, row.payload = .relationship op t r) ∧ SendsTuple row)
    (horder : log.Pairwise fun a b => sameTuple a b = true → a.revision ≤ b.revision)
    (htop : ∃ top ∈ log, top.payload = .relationship op t r)
    (hmax : ∀ row ∈ log, ∀ {op' r'}, row.payload = .relationship op' t r' → r' ≤ r ∧ (r' = r → op' = op)) :
    (log.filterMap (·.update?)).foldl (RelationshipUpdate.apply t.relationship) false = decide (op = .grant) := by
  -- from the last row back: either it is of the tuple, or it changes nothing
  induction log using List.reverseRecOn with
  | nil => simp at htop
  | append_singleton log x ih =>
    obtain ⟨⟨opx, tx, rx, hpx⟩, hsend⟩ := hrows x (by simp)
    rw [List.filterMap_append, List.foldl_append, List.filterMap_cons, hsend hpx]
    simp only [List.filterMap_nil, List.foldl_cons, List.foldl_nil]
    obtain ⟨top, htop, hptop⟩ := htop
    rw [List.mem_append, List.mem_singleton] at htop
    by_cases htx : tx = t
    · subst htx
      obtain ⟨hle, hop⟩ := hmax x (by simp) hpx
      have hrx : rx = r := by
        rcases htop with htop | rfl
        · have := (List.pairwise_append.1 horder).2.2 top htop x (by simp)
            (by simp [sameTuple, (revision_of_payload hptop).2.2, (revision_of_payload hpx).2.2])
          rw [(revision_of_payload hptop).1, (revision_of_payload hpx).1] at this
          omega
        · rw [hpx] at hptop
          cases hptop
          rfl
      rw [hop hrx]
      cases op <;> simp [RelationshipUpdate.apply, updateOperation]
    · have hne : tx.relationship ≠ t.relationship := fun h => htx (relationship_inj h)
      simp only [RelationshipUpdate.apply, hne, if_false]
      refine ih (fun row hrow => hrows row (by simp [hrow])) (List.pairwise_append.1 horder).1 ?_
        fun row hrow => hmax row (by simp [hrow])
      rcases htop with htop | rfl
      · exact ⟨top, htop, hptop⟩
      · rw [hpx] at hptop
        cases hptop
        exact absurd rfl htx

theorem foldl_updates_of_none {log : List OutboxRow}
    (hrows : ∀ row ∈ log, (∃ op t r, row.payload = .relationship op t r) ∧ SendsTuple row)
    (hnone : ∀ row ∈ log, row.tuple? ≠ some t) :
    (log.filterMap (·.update?)).foldl (RelationshipUpdate.apply t.relationship) false = false := by
  induction log using List.reverseRecOn with
  | nil => rfl
  | append_singleton log x ih =>
    obtain ⟨⟨opx, tx, rx, hpx⟩, hsend⟩ := hrows x (by simp)
    have htx : tx ≠ t := fun h => hnone x (by simp) (h ▸ (revision_of_payload hpx).2.2)
    rw [List.filterMap_append, List.foldl_append, List.filterMap_cons, hsend hpx]
    simp only [List.filterMap_nil, List.foldl_cons, List.foldl_nil]
    have hne : tx.relationship ≠ t.relationship := fun h => htx (relationship_inj h)
    simp only [RelationshipUpdate.apply, hne, if_false]
    exact ih (fun row hrow => hrows row (by simp [hrow])) fun row hrow => hnone row (by simp [hrow])

/-! ## The log of a run -/

theorem World.Sound.of_mem_log (h : w.Sound zed) {lease : OutboxRow} (hl : lease ∈ w.log) :
    (∃ op t r, lease.payload = .relationship op t r) ∧ ∃ row ∈ w.db.outbox, lease.Redelivered row := by
  obtain ⟨write, hwrite, hlease⟩ := List.mem_flatMap.1 hl
  obtain ⟨pass, hpass, hleases⟩ := h.sent write (.inr hwrite)
  obtain ⟨hkind, hrow⟩ := h.leased pass (List.mem_of_getElem? hpass) lease (hleases ▸ hlease)
  refine ⟨?_, hrow⟩
  cases hpay : lease.payload with
  | mail => rw [hpay] at hkind; cases hkind
  | relationship op t r => exact ⟨op, t, r, rfl⟩

theorem World.Sound.sendsTuple (h : w.Sound zed) {lease : OutboxRow} (hl : lease ∈ w.log) : SendsTuple lease := by
  intro op t r hpay
  obtain ⟨-, row, hrow, hsame⟩ := h.of_mem_log hl
  obtain ⟨organization, user, -, rfl, -⟩ :=
    (tracked_of_reachable h.reachable).placed row hrow (hsame.payload.trans hpay)
  exact update?_of_payload hpay

theorem World.Sound.log_ordered (h : w.Sound zed) (ho : w.Ordered sameTuple) :
    w.log.Pairwise fun a b => sameTuple a b = true → a.revision ≤ b.revision := by
  refine List.pairwise_flatMap.2 ⟨fun write hwrite => ?_, ho⟩
  obtain ⟨pass, hpass, hleases⟩ := h.sent write (.inr hwrite)
  rw [hleases]
  refine (h.distinct pass (List.mem_of_getElem? hpass)).imp fun hne hsame => ?_
  obtain ⟨t, ha, hb⟩ := (Option.any_eq_true _ _).1 hsame
  exact absurd (of_decide_eq_true hb) (hne t ha)

theorem World.Sound.mem_log_of_delivered (h : w.Sound zed) {row : OutboxRow} (hrow : row ∈ w.db.outbox)
    (hd : row.status = .delivered) : ∃ lease ∈ w.log, lease.Redelivered row := by
  obtain ⟨n, write, lease, -, happlied, hlease, hsame⟩ := h.delivered row hrow hd
  exact ⟨lease, List.mem_flatMap.2 ⟨write, List.mem_of_getElem? happlied, hlease⟩, hsame⟩

theorem eq_of_same_revision {db : Db} (h : Tracked db []) {a b : OutboxRow} (ha : a ∈ db.outbox)
    (hb : b ∈ db.outbox) {op op' : RelationshipOperation} {r : Nat} (hpa : a.payload = .relationship op t r)
    (hpb : b.payload = .relationship op' t r) : a = b := by
  have hres {row : OutboxRow} {op : RelationshipOperation} (hp : row.payload = .relationship op t r) :
      row.ofResource t.resourceType t.resourceId = true := by
    simp [OutboxRow.ofResource, (revision_of_payload hp).2.2]
  have hrev := (revision_of_payload hpa).1.trans (revision_of_payload hpb).1.symm
  exact eq_of_revision h ha hb (hres hpa) (hres hpb) hrev

theorem exists_last_intent (db : Db) {row : OutboxRow} (hrow : row ∈ db.outbox) (ht : row.tuple? = some t) :
    ∃ top ∈ db.outbox, ∃ op r, top.payload = .relationship op t r ∧
      ∀ other ∈ db.outbox, ∀ {op' r'}, other.payload = .relationship op' t r' → r' ≤ r := by
  let rows := (db.outbox.rows.filter fun row => decide (row.tuple? = some t)).toFinset
  have hmem {x : OutboxRow} : x ∈ rows ↔ x ∈ db.outbox ∧ x.tuple? = some t := by
    simp [rows, Table.mem_def]
  obtain ⟨top, htop, hmax⟩ := rows.exists_max_image OutboxRow.revision ⟨row, hmem.2 ⟨hrow, ht⟩⟩
  obtain ⟨htop, htt⟩ := hmem.1 htop
  obtain ⟨op, r, hpay⟩ := tuple?_eq_some.1 htt
  refine ⟨top, htop, op, r, hpay, fun other hother op' r' hpay' => ?_⟩
  have hle := hmax other (hmem.2 ⟨hother, (revision_of_payload hpay').2.2⟩)
  rwa [(revision_of_payload hpay).1, (revision_of_payload hpay').1] at hle

/-- SpiceDB holds a tuple whose intents are all delivered exactly when the last of them is a grant. -/
theorem holds_iff_of_all_delivered (h : w.Sound zed) (ho : w.Ordered sameTuple)
    (hall : ∀ row ∈ w.db.outbox, row.tuple? = some t → row.status = .delivered) :
    w.holds t.relationship = true ↔ ∃ row ∈ w.db.outbox, ∃ r, row.payload = .relationship .grant t r ∧
      ∀ other ∈ w.db.outbox, ∀ {op' r'}, other.payload = .relationship op' t r' → r' ≤ r := by
  have htracked := tracked_of_reachable h.reachable
  have hrows : ∀ lease ∈ w.log, (∃ op t r, lease.payload = .relationship op t r) ∧ SendsTuple lease :=
    fun lease hl => ⟨(h.of_mem_log hl).1, h.sendsTuple hl⟩
  rw [holds_eq]
  by_cases hex : ∃ row ∈ w.db.outbox, row.tuple? = some t
  · obtain ⟨row, hrow, ht⟩ := hex
    obtain ⟨top, htop, op, r, hpay, hmax⟩ := exists_last_intent w.db hrow ht
    obtain ⟨lease, hlease, hsame⟩ := h.mem_log_of_delivered htop (hall top htop (revision_of_payload hpay).2.2)
    rw [foldl_updates hrows (h.log_ordered ho) ⟨lease, hlease, hsame.payload.symm.trans hpay⟩ ?_, decide_eq_true_iff]
    · constructor
      · rintro rfl
        exact ⟨top, htop, r, hpay, hmax⟩
      · rintro ⟨row', hrow', r', hpay', hmax'⟩
        obtain rfl : r = r' := Nat.le_antisymm (hmax' top htop hpay) (hmax row' hrow' hpay')
        obtain rfl := eq_of_same_revision htracked htop hrow' hpay hpay'
        rw [hpay] at hpay'
        cases hpay'
        rfl
    · intro lease' hlease' op' r' hpay'
      obtain ⟨-, row', hrow', hsame'⟩ := h.of_mem_log hlease'
      have hpay'' := hsame'.payload.trans hpay'
      refine ⟨hmax row' hrow' hpay'', ?_⟩
      rintro rfl
      obtain rfl := eq_of_same_revision htracked htop hrow' hpay hpay''
      rw [hpay] at hpay''
      cases hpay''
      rfl
  · have hnone : ∀ lease ∈ w.log, lease.tuple? ≠ some t := by
      intro lease hlease ht
      obtain ⟨-, row, hrow, hsame⟩ := h.of_mem_log hlease
      exact hex ⟨row, hrow, hsame.tuple?.trans ht⟩
    rw [foldl_updates_of_none hrows hnone]
    simp only [Bool.false_eq_true, false_iff]
    rintro ⟨row, hrow, r, hpay, -⟩
    exact hex ⟨row, hrow, (revision_of_payload hpay).2.2⟩

/-! ## Later states -/

/-- The outbox as a later state sees it: no row is lost, and a delivered row is unchanged. -/
structure World.Continues (w w' : World) : Prop where
  grows : OutboxGrows w.db w'.db
  delivered : ∀ row ∈ w.db.outbox, row.status = .delivered → row ∈ w'.db.outbox

theorem World.Continues.of_same (hsame : w'.db = w.db) : w.Continues w' :=
  ⟨.of_appends (.of_eq (by rw [hsame])), fun _ hrow _ => by rwa [hsame]⟩

theorem World.Continues.refl (w : World) : w.Continues w := .of_same rfl

theorem World.Continues.trans {w₁ w₂ w₃ : World} (h : w₁.Continues w₂) (h' : w₂.Continues w₃) : w₁.Continues w₃ :=
  ⟨h.grows.trans h'.grows, fun row hrow hd => h'.delivered row (h.delivered row hrow hd) hd⟩

theorem World.Continues.of_next {a : Action} (hn : w.next zed a = some w') : w.Continues w' := by
  rcases effect_of_next hn with ⟨-, hsame | ⟨c, hc⟩⟩ | ⟨k, write, -, -, -, hsame⟩
  · exact .of_same hsame
  · exact ⟨.of_next hc, fun row hrow hd => delivered_of_next hc hrow hd⟩
  · exact .of_same hsame

theorem World.Continues.of_steps {ok : World → Action → Prop} (h : Steps (relationshipSystem zed) ok w w') :
    w.Continues w' :=
  h.relation (I := fun _ => True) .refl .trans (fun _ _ _ => trivial) (fun _ _ hn => .of_next hn) trivial

theorem World.Continues.all_delivered (h : w.Continues w')
    (hall : ∀ row ∈ w.db.outbox, row.tuple? = some t → row.status = .delivered)
    (hnone : ∀ row ∈ w'.db.outbox, row.tuple? = some t → ∃ row' ∈ w.db.outbox, row'.outboxId = row.outboxId) :
    ∀ row ∈ w'.db.outbox, row.tuple? = some t → row.status = .delivered := by
  intro row hrow ht
  obtain ⟨row', hrow', hid⟩ := hnone row hrow ht
  obtain ⟨f, new, hrows, hf⟩ := h.grows
  have hmem : f row' ∈ w'.db.outbox := by
    rw [Table.mem_def, hrows]
    exact List.mem_append_left _ (List.mem_map_of_mem hrow')
  obtain rfl : f row' = row := Table.eq_of_key hmem hrow ((hf row').outboxId.trans hid)
  have hd := hall row' hrow' ((hf row').tuple?.symm.trans ht)
  have hsame : row' = f row' := Table.eq_of_key (h.delivered row' hrow' hd) hmem (hf row').outboxId.symm
  rwa [← hsame]

/-- **A settled tuple is in SpiceDB exactly when its last intent is a grant**, now and as long as no further
intent is created, in every run whose writes reach SpiceDB, per tuple, in the order of their revisions. -/
theorem settled_tuple_holds_iff
    (h : ReachableBy (relationshipSystem zed) (fun w a => appliesInOrder sameTuple w a = true) w)
    (hall : ∀ row ∈ w.db.outbox, row.tuple? = some t → row.status = .delivered)
    (hlater : Steps (relationshipSystem zed) (fun w a => appliesInOrder sameTuple w a = true) w w')
    (hnone : ∀ row ∈ w'.db.outbox, row.tuple? = some t → ∃ row' ∈ w.db.outbox, row'.outboxId = row.outboxId) :
    w'.holds t.relationship = true ↔ ∃ row ∈ w'.db.outbox, ∃ r, row.payload = .relationship .grant t r ∧
      ∀ other ∈ w'.db.outbox, ∀ {op' r'}, other.payload = .relationship op' t r' → r' ≤ r := by
  have hreach : ReachableBy (relationshipSystem zed) (fun w a => appliesInOrder sameTuple w a = true) w' :=
    h.trans hlater
  exact holds_iff_of_all_delivered (sound_of_reachableBy hreach) (ordered_of_reachableBy hreach)
    ((World.Continues.of_steps hlater).all_delivered hall hnone)

def joinedTuple : RelationshipTuple := membershipTuple ⟨3⟩ ⟨11⟩

/-- Both grants are delivered in order, and the tuple of the second member is there. -/
theorem joined_tuple_holds : ∃ w, ReachableBy (relationshipSystem decimalTokens)
      (fun w a => appliesInOrder sameTuple w a = true) w ∧ w.holds joinedTuple.relationship = true := by
  obtain ⟨w, hreach, hw⟩ := exists_reachableBy_of_run (relationshipSystem decimalTokens)
    (appliesInOrder sameTuple) (deliverBoth 0 0 0 1)
    (fun w => decide ((∀ row ∈ w.db.outbox.rows, row.tuple? = some joinedTuple → row.status = .delivered) ∧
      ∃ row ∈ w.db.outbox.rows, row.payload = .relationship .grant joinedTuple 3 ∧
        ∀ other ∈ w.db.outbox.rows, other.revision ≤ 3)) (by decide +kernel) (fun h => h)
  obtain ⟨hall, row, hrow, hpay, hmax⟩ := of_decide_eq_true hw
  refine ⟨w, hreach, (settled_tuple_holds_iff hreach hall (.refl w) fun row hrow _ => ⟨row, hrow, rfl⟩).2 ?_⟩
  refine ⟨row, hrow, 3, hpay, fun other hother op r hpay' => ?_⟩
  exact (revision_of_payload hpay').1 ▸ hmax other hother

/-- The first worker's write is delayed past its lease. A second worker delivers the same grants, the
member is removed, the revocation is delivered, and only then is the first write committed. -/
def lateTouch : List Action :=
  (foundAcme ++ joinAcme).map .command ++ [.lease 100 0 ⟨21⟩ fun _ => false, .send 0,
    .lease 100 30000 ⟨22⟩ fun _ => false, .send 1, .apply 1, .receive 1 0, .complete 1, .complete 1,
    .command (.removeMembership
      { sessionId := ⟨2⟩, organizationId := ⟨3⟩, userId := ⟨11⟩, nowMs := 40000
        uuids := uuidsFrom 400 }),
    .lease 100 50000 ⟨23⟩ fun _ => false, .send 2, .apply 1, .receive 2 1, .complete 2, .apply 0]

/-- All intents are delivered and the last is a revocation, yet SpiceDB holds the tuple. -/
theorem revoked_tuple_present : ∃ w, Reachable (relationshipSystem decimalTokens) w ∧
    (∀ row ∈ w.db.outbox, row.tuple? = some joinedTuple → row.status = .delivered) ∧
    (∃ row ∈ w.db.outbox, row.payload = .relationship .revoke joinedTuple 4 ∧
      ∀ other ∈ w.db.outbox, other.revision ≤ 4) ∧ w.holds joinedTuple.relationship = true := by
  obtain ⟨w, hreach, hw⟩ := exists_reachable_of_run (relationshipSystem decimalTokens) lateTouch
    (fun w => decide ((∀ row ∈ w.db.outbox.rows, row.tuple? = some joinedTuple → row.status = .delivered) ∧
      (∃ row ∈ w.db.outbox.rows, row.payload = .relationship .revoke joinedTuple 4 ∧
        ∀ other ∈ w.db.outbox.rows, other.revision ≤ 4) ∧ w.holds joinedTuple.relationship = true))
    (by decide +kernel)
  exact ⟨w, hreach, of_decide_eq_true hw⟩

end WasiAuth
