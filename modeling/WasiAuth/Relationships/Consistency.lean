import WasiAuth.Relationships.Worker

/-! # The order of the writes, and fresh tokens

The lease order of the outbox is per tuple and ends at the database: a write carries no fence, and SpiceDB
commits what reaches it. `appliesInOrder` says that the writes reach SpiceDB in the order of their revisions.

`load_relationship_consistency` returns the token recorded under the largest revision of a resource. As long
as the writes of a resource are committed in the order of their revisions that token is the freshest
(`consistencyToken_atLeastAsFresh`); two workers that deliver different tuples of one resource can commit
them the other way round (`stale_consistency_token`).
-/

namespace WasiAuth

open Relational Transition

variable {zed : ZedTokens} {w w' : World} {same : OutboxRow → OutboxRow → Bool}

/-! ## Writes in the order of their revisions -/

def OutboxRow.revision (row : OutboxRow) : Nat := row.revision?.getD 0

/-- Two intents for one resource. -/
def sameResource (a b : OutboxRow) : Bool :=
  a.tuple?.any fun t => b.tuple?.any fun t' =>
    decide (t.resourceType = t'.resourceType ∧ t.resourceId = t'.resourceId)

/-- Two intents for one tuple. -/
def sameTuple (a b : OutboxRow) : Bool := a.tuple?.any fun t => decide (b.tuple? = some t)

/-- No committed write carries a later intent than one of this write, among those `same` relates. -/
def World.inOrder (same : OutboxRow → OutboxRow → Bool) (w : World) (write : Write) : Bool :=
  w.applied.all fun earlier => earlier.leases.all fun a => write.leases.all fun b =>
    !same a b || decide (a.revision ≤ b.revision)

def appliesInOrder (same : OutboxRow → OutboxRow → Bool) (w : World) : Action → Bool
  | .apply k => (w.inFlight[k]?).all (w.inOrder same)
  | _ => true

/-- The committed writes are in the order of their revisions. -/
def World.Ordered (same : OutboxRow → OutboxRow → Bool) (w : World) : Prop :=
  w.applied.Pairwise fun x y => ∀ a ∈ x.leases, ∀ b ∈ y.leases, same a b = true → a.revision ≤ b.revision

theorem inOrder_iff {write : Write} : w.inOrder same write = true ↔
    ∀ earlier ∈ w.applied, ∀ a ∈ earlier.leases, ∀ b ∈ write.leases, same a b = true → a.revision ≤ b.revision := by
  simp only [World.inOrder, List.all_eq_true, Bool.or_eq_true, Bool.not_eq_eq_eq_not, Bool.not_true,
    decide_eq_true_eq]
  refine forall₂_congr fun earlier _ => forall₂_congr fun a _ => forall₂_congr fun b _ => ?_
  cases same a b <;> simp

theorem World.Ordered.next {a : Action} (h : w.Ordered same)
    (hok : appliesInOrder same w a = true) (hn : w.next zed a = some w') : w'.Ordered same := by
  rcases effect_of_next hn with ⟨hsame, -⟩ | ⟨k, write, rfl, hwrite, happlied, -⟩
  · unfold World.Ordered
    rwa [hsame]
  · simp only [appliesInOrder, hwrite, Option.all_some] at hok
    unfold World.Ordered
    rw [happlied, List.pairwise_append]
    refine ⟨h, List.pairwise_singleton _ _, fun earlier hearlier y hy => ?_⟩
    rw [List.mem_singleton.1 hy]
    exact inOrder_iff.1 hok earlier hearlier

theorem ordered_of_reachableBy
    (h : ReachableBy (relationshipSystem zed) (fun w a => appliesInOrder same w a = true) w) : w.Ordered same := by
  have hinit : (relationshipSystem zed).init.Ordered same := List.Pairwise.nil
  exact h.invariant hinit fun hs hok hn => hs.next hok hn

/-! ## The token of a resource -/

section Token

variable {resourceType resourceId : String} {a b row : OutboxRow}

theorem revision_of_payload {op : RelationshipOperation} {t : RelationshipTuple} {r : Nat}
    (h : row.payload = .relationship op t r) : row.revision = r ∧ row.revision? = some r ∧ row.tuple? = some t := by
  simp [OutboxRow.revision, OutboxRow.revision?, OutboxRow.tuple?, h]

theorem OutboxRow.Redelivered.revision (h : a.Redelivered b) : b.revision = a.revision := by
  simp only [OutboxRow.revision, OutboxRow.revision?, h.payload]

theorem OutboxRow.Redelivered.tuple? (h : a.Redelivered b) : b.tuple? = a.tuple? := by
  simp only [OutboxRow.tuple?, h.payload]

theorem ofResource_eq_true (h : row.ofResource resourceType resourceId = true) : ∃ op t r,
    row.payload = .relationship op t r ∧ t.resourceType = resourceType ∧ t.resourceId = resourceId := by
  obtain ⟨t, ht, hres⟩ := (Option.any_eq_true _ _).1 h
  obtain ⟨op, r, hpay⟩ := tuple?_eq_some.1 ht
  exact ⟨op, t, r, hpay, of_decide_eq_true hres⟩

theorem sameResource_of_ofResource (ha : a.ofResource resourceType resourceId = true)
    (hb : b.ofResource resourceType resourceId = true) : sameResource a b = true := by
  obtain ⟨op, t, r, hpa, rfl, rfl⟩ := ofResource_eq_true ha
  obtain ⟨op', t', r', hpb, htype, hid⟩ := ofResource_eq_true hb
  simp [sameResource, (revision_of_payload hpa).2.2, (revision_of_payload hpb).2.2, htype, hid]

theorem revision_of_newerDelivery (ha : a.ofResource resourceType resourceId = true)
    (hb : b.ofResource resourceType resourceId = true) :
    (a.newerDelivery b = true → b.revision ≤ a.revision) ∧ (¬ a.newerDelivery b = true → a.revision ≤ b.revision) := by
  obtain ⟨op, t, r, hpa, -⟩ := ofResource_eq_true ha
  obtain ⟨op', t', r', hpb, -⟩ := ofResource_eq_true hb
  obtain ⟨hra, hra', -⟩ := revision_of_payload hpa
  obtain ⟨hrb, hrb', -⟩ := revision_of_payload hpb
  simp only [OutboxRow.newerDelivery, hra', hrb', hra, hrb, Bool.or_eq_true, Bool.and_eq_true, not_or,
    decide_eq_true_eq]
  constructor
  · intro h
    omega
  · intro h
    omega

theorem exists_token_of_delivered {db : Db} (hrow : row ∈ db.outbox)
    (hres : row.ofResource resourceType resourceId = true) (hstatus : row.status = .delivered)
    (hid : row.deliveryId.isSome = true) :
    ∃ top ∈ db.outbox, top.ofResource resourceType resourceId = true ∧ top.status = .delivered ∧
      (db.loadRelationshipConsistency resourceType resourceId).consistencyToken = top.deliveryId ∧
        row.revision ≤ top.revision := by
  let rows := (db.outbox.rows.filter (·.ofResource resourceType resourceId)).filter
    fun row => decide (row.status = .delivered) && row.deliveryId.isSome
  have hmem {x : OutboxRow} (hx : x ∈ rows) : x ∈ db.outbox ∧ x.ofResource resourceType resourceId = true ∧
      x.status = .delivered := by
    obtain ⟨hx, hdel⟩ := List.mem_filter.1 hx
    obtain ⟨hx, hof⟩ := List.mem_filter.1 hx
    exact ⟨hx, hof, by simpa using (Bool.and_eq_true_iff.1 hdel).1⟩
  have hrows : row ∈ rows :=
    List.mem_filter.2 ⟨List.mem_filter.2 ⟨hrow, hres⟩, by simp [hstatus, hid]⟩
  obtain ⟨top, htop, hhead, hmax⟩ := exists_head?_insertionSort (r := fun a b => a.newerDelivery b = true)
    (m := OutboxRow.revision) (l := rows)
    (fun a ha b hb => (revision_of_newerDelivery (hmem ha).2.1 (hmem hb).2.1).1)
    (fun a ha b hb => (revision_of_newerDelivery (hmem ha).2.1 (hmem hb).2.1).2) (List.ne_nil_of_mem hrows)
  obtain ⟨hmem, hof, hdel⟩ := hmem htop
  refine ⟨top, hmem, hof, hdel, ?_, hmax row hrows⟩
  show ((rows.insertionSort _).head?).bind _ = _
  rw [hhead]
  rfl

theorem eq_of_revision {db : Db} (h : Tracked db []) (ha : a ∈ db.outbox) (hb : b ∈ db.outbox)
    (hra : a.ofResource resourceType resourceId = true) (hrb : b.ofResource resourceType resourceId = true)
    (hrev : a.revision = b.revision) : a = b := by
  by_contra hne
  obtain ⟨op, t, r, hpa, rfl, rfl⟩ := ofResource_eq_true hra
  obtain ⟨op', t', r', hpb, htype, hid⟩ := ofResource_eq_true hrb
  rw [(revision_of_payload hpa).1, (revision_of_payload hpb).1] at hrev
  rcases h.ordered_or ha hb hne with hlt | hlt
  · exact absurd (hlt hpa hpb htype.symm hid.symm) (by omega)
  · exact absurd (hlt hpb hpa htype hid) (by omega)

theorem index_le_of_revision_lt {m n : Nat} {x y : Write} (ho : w.Ordered sameResource) (hx : w.applied[m]? = some x)
    (hy : w.applied[n]? = some y) (ha : a ∈ x.leases) (hb : b ∈ y.leases) (hsame : sameResource b a = true)
    (hlt : a.revision < b.revision) : m ≤ n := by
  by_contra hmn
  have hpair := List.pairwise_iff_getElem.1 ho n m (List.getElem?_eq_some_iff.1 hy).1
    (List.getElem?_eq_some_iff.1 hx).1 (by omega)
  rw [(List.getElem?_eq_some_iff.1 hx).2, (List.getElem?_eq_some_iff.1 hy).2] at hpair
  have := hpair b hb a ha hsame
  omega

end Token

/-- **The returned token is fresh** in every run whose writes reach SpiceDB, per resource, in the order of
their revisions: it is at least as fresh as every token recorded by a delivered intent of the resource. -/
theorem consistencyToken_atLeastAsFresh
    (h : ReachableBy (relationshipSystem zed) (fun w a => appliesInOrder sameResource w a = true) w)
    (resourceType resourceId : String) :
    ∀ row ∈ w.db.outbox, row.ofResource resourceType resourceId = true → row.status = .delivered →
      ∀ recorded, row.deliveryId = some recorded →
        ∃ token, (w.db.loadRelationshipConsistency resourceType resourceId).consistencyToken = some token ∧
          zed.AtLeastAsFresh token recorded := by
  intro row hrow hres hstatus recorded hrecorded
  have hsound := sound_of_reachableBy h
  obtain ⟨top, htop, htopres, htopstatus, htoken, hle⟩ :=
    exists_token_of_delivered hrow hres hstatus (by simp [hrecorded])
  obtain ⟨n, x, lease, hid, hx, hlease, hsame⟩ := hsound.delivered row hrow hstatus
  obtain ⟨m, y, lease', hid', hy, hlease', hsame'⟩ := hsound.delivered top htop htopstatus
  refine ⟨zed.text m, htoken.trans hid', m, n, rfl, Option.some.inj (hrecorded.symm.trans hid), ?_⟩
  rcases Nat.lt_or_eq_of_le hle with hlt | heq
  · refine index_le_of_revision_lt (ordered_of_reachableBy h) hx hy hlease hlease' ?_ ?_
    · have hboth := sameResource_of_ofResource htopres hres
      rwa [sameResource, hsame.tuple?, hsame'.tuple?] at hboth
    · rwa [hsame.revision, hsame'.revision] at hlt
  · obtain rfl := eq_of_revision (tracked_of_reachable hsound.reachable) hrow htop hres htopres heq
    exact le_of_eq (zed.inj (Option.some.inj (hid.symm.trans hid')))

/-! ## A stale token -/

def decimalTokens : ZedTokens where
  text := Nat.repr
  inj m n h := Text.toDigits_inj (by rw [← Nat.toList_repr, ← Nat.toList_repr, h])

def leaseOne (leaseId : Uuid) (nowMs : Int) : Action := .lease 1 nowMs leaseId fun _ => false

/-- Two workers deliver the two grants of the organization, one each; the writes are committed in the
order `first`, `second` of their positions in flight. -/
def deliverBoth (first second : Nat) (index₀ index₁ : Nat) : List Action :=
  (foundAcme ++ joinAcme).map .command ++ [leaseOne ⟨21⟩ 0, leaseOne ⟨22⟩ 0, .send 0, .send 1, .apply first,
    .apply second, .receive 0 index₀, .receive 1 index₁, .complete 0, .complete 1]

/-- The founder's grant (revision 2) is committed after the second member's (revision 3): nothing is
unsettled and the token returned is the older of the two. -/
theorem stale_consistency_token : ∃ w, Reachable (relationshipSystem decimalTokens) w ∧
    (w.db.loadRelationshipConsistency "organization" (Uuid.text ⟨3⟩)).hasUnsettled = false ∧
    ∃ row ∈ w.db.outbox, row.ofResource "organization" (Uuid.text ⟨3⟩) = true ∧ row.status = .delivered ∧
      row.deliveryId = some "1" ∧
        (w.db.loadRelationshipConsistency "organization" (Uuid.text ⟨3⟩)).consistencyToken = some "0" ∧
          ¬ decimalTokens.AtLeastAsFresh "0" "1" := by
  obtain ⟨w, hreach, hw⟩ := exists_reachable_of_run (relationshipSystem decimalTokens) (deliverBoth 1 0 1 0)
    (fun w => decide ((w.db.loadRelationshipConsistency "organization" (Uuid.text ⟨3⟩)).hasUnsettled = false ∧
      (∃ row ∈ w.db.outbox.rows, row.ofResource "organization" (Uuid.text ⟨3⟩) = true ∧ row.status = .delivered ∧
        row.deliveryId = some "1") ∧
      (w.db.loadRelationshipConsistency "organization" (Uuid.text ⟨3⟩)).consistencyToken = some "0"))
    (by decide +kernel)
  obtain ⟨hsettled, ⟨row, hrow, hres, hstatus, hid⟩, htoken⟩ := of_decide_eq_true hw
  refine ⟨w, hreach, hsettled, row, hrow, hres, hstatus, hid, htoken, ?_⟩
  rintro ⟨m, n, hm, hn, hle⟩
  obtain rfl : 0 = m := decimalTokens.inj hm
  obtain rfl : 1 = n := decimalTokens.inj hn
  omega

/-- In the order of the revisions the token is the newer one. -/
theorem fresh_token_in_order : ∃ w, ReachableBy (relationshipSystem decimalTokens)
      (fun w a => appliesInOrder sameResource w a = true) w ∧
    ∃ row ∈ w.db.outbox, row.deliveryId = some "0" ∧
      ∃ token, (w.db.loadRelationshipConsistency "organization" (Uuid.text ⟨3⟩)).consistencyToken = some token ∧
        decimalTokens.AtLeastAsFresh token "0" := by
  obtain ⟨w, hreach, hw⟩ := exists_reachableBy_of_run (relationshipSystem decimalTokens)
    (appliesInOrder sameResource) (deliverBoth 0 0 0 1)
    (fun w => decide (∃ row ∈ w.db.outbox.rows, row.ofResource "organization" (Uuid.text ⟨3⟩) = true ∧
      row.status = .delivered ∧ row.deliveryId = some "0")) (by decide +kernel) (fun h => h)
  obtain ⟨row, hrow, hres, hstatus, hid⟩ := of_decide_eq_true hw
  exact ⟨w, hreach, row, hrow, hid, consistencyToken_atLeastAsFresh hreach _ _ row hrow hres hstatus "0" hid⟩

end WasiAuth
