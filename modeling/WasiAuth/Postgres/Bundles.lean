import WasiAuth.Postgres.Commands

/-! # Publishing a policy bundle

`publish_policy_bundle.sql` retires the active bundle in one CTE and activates the published one in another, and
neither reads the other. PostgreSQL may run them in either order and checks `auth_one_active_policy_idx` at each row
write, so the statement succeeds in both orders only when there is nothing to retire. `rotate_signing_key.sql` has
the same two writes and orders them with `change_guard`.
-/

namespace WasiAuth

open Relational Transition

/-- At most one bundle is active. -/
def Db.OneActiveBundle (db : Db) : Prop :=
  ∀ b ∈ db.policyBundles, ∀ b' ∈ db.policyBundles, b.status = .active → b'.status = .active → b = b'

/-- `auth_policy_bundles.checksum` is unique. -/
def Db.UniqueChecksums (db : Db) : Prop :=
  ∀ b ∈ db.policyBundles, ∀ b' ∈ db.policyBundles, b.checksum = b'.checksum → b = b'

def Db.ActiveBundleIs (b : PolicyBundle) (db : Db) : Prop :=
  ∀ b', b' ∈ db.policyBundles ∧ b'.status = .active ↔ b' = b

/-- Nothing stands in the way of the bundle: no other bundle is active, and its revision is free or it is stored
already. -/
def PublishPolicyBundle.Unopposed (p : PublishPolicyBundle) (db : Db) : Prop :=
  (∀ b ∈ db.policyBundles, b.status = .active → b.checksum = p.checksum) ∧
    ((∃ b ∈ db.policyBundles, b.checksum = p.checksum) ∨
      ∀ b ∈ db.policyBundles, b.policyRevision ≠ p.policyRevision)

section Publish
variable {db db' : Db} {p : PublishPolicyBundle} {user : Uuid}

def Db.bundleByChecksum (checksum : Bytes) (db : Db) : Option PolicyBundle :=
  db.policyBundles.rows.find? fun b => decide (b.checksum = checksum)

theorem bundleByChecksum_eq_some {checksum : Bytes} {b : PolicyBundle} (h : db.bundleByChecksum checksum = some b) :
    b ∈ db.policyBundles ∧ b.checksum = checksum :=
  ⟨List.mem_of_find?_eq_some h, by simpa using List.find?_some h⟩

theorem bundleByChecksum_eq_none {checksum : Bytes} (h : db.bundleByChecksum checksum = none) :
    ∀ b ∈ db.policyBundles, b.checksum ≠ checksum := by
  simpa [Db.bundleByChecksum, List.find?_eq_none, Table.mem_def] using h

/-- No other revision is active. -/
theorem otherActiveBundle_eq_false {revision : String} :
    db.otherActiveBundle revision = false ↔
      ∀ b ∈ db.policyBundles, b.status = .active → b.policyRevision = revision := by
  simp only [Db.otherActiveBundle, List.any_eq_false, decide_eq_true_eq, not_and, Table.mem_def]
  exact ⟨fun h b hb hact => not_not.1 fun hne => h b hb hne hact, fun h b hb hne hact => hne (h b hb hact)⟩

def PublishPolicyBundle.row (p : PublishPolicyBundle) (user : Uuid) : PolicyBundle where
  policyRevision := p.policyRevision
  cedarSchema := p.cedarSchema
  cedarPolicy := p.cedarPolicy
  entities := p.entities
  checksum := p.checksum
  status := .active
  createdBy := user
  createdAtMs := p.nowMs
  activatedAtMs := some p.nowMs

def PublishPolicyBundle.reactivated (p : PublishPolicyBundle) (b : PolicyBundle) : PolicyBundle :=
  { b with status := .active, activatedAtMs := some p.nowMs }

/-- `published` in the table as it is: it needs every active bundle to have the checksum, and a free revision. -/
theorem unopposed_of_putBundle {b : PolicyBundle} (h : db.putBundle p user = .ok (b, db')) : p.Unopposed db := by
  unfold Db.putBundle at h
  split at h
  · rename_i stored hfind
    obtain ⟨hstored, hsum⟩ := bundleByChecksum_eq_some hfind
    split at h
    · cases h
    · rename_i hother
      rw [Bool.not_eq_true, otherActiveBundle_eq_false] at hother
      refine ⟨fun b hb hact => ?_, .inl ⟨stored, hstored, hsum⟩⟩
      rw [Table.eq_of_key hb hstored (hother b hb hact), hsum]
  · rename_i hnone
    split at h
    · cases h
    · rename_i hother
      rw [Bool.not_eq_true, otherActiveBundle_eq_false] at hother
      obtain ⟨bundles, hins, -⟩ := bind_eq_ok.1 h
      have hfree := Table.find?_eq_none.1 (Table.insertOr_eq_ok hins).1
      exact ⟨fun b hb hact => absurd (hother b hb hact) (hfree b hb), .inr hfree⟩

/-- With nothing in the way `published` succeeds, and its bundle is the active one. -/
theorem putBundle_of_unopposed (hunique : db.UniqueChecksums) (h : p.Unopposed db) (user : Uuid) :
    ∃ b db', db.putBundle p user = .ok (b, db') ∧ b.checksum = p.checksum ∧ db'.ActiveBundleIs b := by
  obtain ⟨hactive, hfree⟩ := h
  unfold Db.putBundle
  cases hfind : db.policyBundles.rows.find? fun b => decide (b.checksum = p.checksum) with
  | some stored =>
    obtain ⟨hstored, hsum⟩ := bundleByChecksum_eq_some hfind
    have honly (b : PolicyBundle) (hb : b ∈ db.policyBundles) (hact : b.status = .active) : b = stored :=
      hunique b hb stored hstored ((hactive b hb hact).trans hsum.symm)
    have hother : db.otherActiveBundle stored.policyRevision = false :=
      otherActiveBundle_eq_false.2 fun b hb hact => by rw [honly b hb hact]
    refine ⟨p.reactivated stored, { db with policyBundles := db.policyBundles.set (p.reactivated stored) }, ?_, hsum,
      fun b' => ⟨?_, ?_⟩⟩
    · simp only [hother, Bool.false_eq_true, if_false]
      rfl
    · rintro ⟨hb', hact⟩
      rcases Table.mem_set.1 hb' with ⟨hb', hne⟩ | ⟨rfl, -⟩
      · exact absurd (congrArg PolicyBundle.policyRevision (honly b' hb' hact)) hne
      · rfl
    · rintro rfl
      exact ⟨Table.mem_set.2 (.inr ⟨rfl, stored, hstored, rfl⟩), rfl⟩
  | none =>
    have hnone := bundleByChecksum_eq_none hfind
    have hinactive (b : PolicyBundle) (hb : b ∈ db.policyBundles) (hact : b.status = .active) : False :=
      hnone b hb (hactive b hb hact)
    have hother : db.otherActiveBundle p.policyRevision = false :=
      otherActiveBundle_eq_false.2 fun b hb hact => (hinactive b hb hact).elim
    have hfree : db.policyBundles.find? (p.row user).policyRevision = none := by
      refine Table.find?_eq_none.2 (hfree.resolve_left ?_)
      rintro ⟨b, hb, hsum⟩
      exact hnone b hb hsum
    obtain ⟨bundles, hins⟩ := Table.exists_insertOr (e := SqlError.uniqueViolation) hfree
    refine ⟨p.row user, { db with policyBundles := bundles }, ?_, rfl, fun b' => ⟨?_, ?_⟩⟩
    · simp only [hother, Bool.false_eq_true, if_false]
      exact bind_eq_ok.2 ⟨bundles, hins, rfl⟩
    · rintro ⟨hb', hact⟩
      rcases (Table.mem_of_insertOr hins).1 hb' with hb' | rfl
      · exact (hinactive b' hb' hact).elim
      · rfl
    · rintro rfl
      exact ⟨(Table.mem_of_insertOr hins).2 (.inr rfl), rfl⟩

/-- Without another active bundle `retired` has no row to write. -/
theorem retireBundles_eq_self {checksum : Bytes}
    (h : ∀ b ∈ db.policyBundles, b.status = .active → b.checksum = checksum) (db' : Db) :
    db.retireBundles checksum db' = db' := by
  have hnone (revision : String) : ((db.policyBundles.find? revision).any fun old =>
      decide (old.status = .active ∧ old.checksum ≠ checksum)) = false := by
    cases hfind : db.policyBundles.find? revision with
    | none => rfl
    | some old =>
      simp only [Option.any_some, decide_eq_false_iff_not, not_and, not_not]
      exact h old (Table.find?_eq_some.1 hfind).1
  have hrows : (db.retireBundles checksum db').policyBundles = db'.policyBundles := by
    refine Table.ext_rows ((List.map_congr_left fun b _ => ?_).trans (List.map_id' _))
    exact if_neg (Bool.not_eq_true _ ▸ hnone b.policyRevision)
  calc db.retireBundles checksum db'
      = { db' with policyBundles := (db.retireBundles checksum db').policyBundles } := rfl
    _ = db' := by rw [hrows]

/-- **Publishing in every order.** For an administrator, both orders of the two CTEs succeed and leave the published
bundle as the only active one exactly when nothing stands in its way. -/
theorem publish_in_every_order_iff {actor : Session × User} (hunique : db.UniqueChecksums)
    (hactor : db.administratorActor p.sessionId p.nowMs = some actor) :
    (∀ retireFirst, ∃ b db', publishPolicyBundle { p with retireFirst := retireFirst } db = .ok (some b, db') ∧
      b.checksum = p.checksum ∧ db'.ActiveBundleIs b) ↔ p.Unopposed db := by
  constructor
  · intro h
    -- `published` first meets the table as it is
    obtain ⟨b, db', hpublish, -⟩ := h false
    unfold publishPolicyBundle at hpublish
    dsimp only at hpublish
    rw [hactor] at hpublish
    obtain ⟨⟨bundle, published⟩, hput, -⟩ := bind_eq_ok.1 hpublish
    exact unopposed_of_putBundle hput
  · intro h retireFirst
    obtain ⟨b, db', hput, hsum, hactive⟩ := putBundle_of_unopposed hunique h actor.2.userId
    refine ⟨b, db', ?_, hsum, hactive⟩
    unfold publishPolicyBundle
    dsimp only
    rw [hactor]
    refine bind_eq_ok.2 ⟨(b, db'), ?_, ?_⟩
    · rw [retireBundles_eq_self h.1, ite_self]
      exact hput
    · rw [retireBundles_eq_self h.1, ite_self]
      rfl

end Publish

def publishBundle (revision : String) (checksum : Bytes) (retireFirst : Bool) : PublishPolicyBundle where
  sessionId := ⟨2⟩
  policyRevision := revision
  cedarSchema := "schema"
  cedarPolicy := "policy"
  entities := "[]"
  checksum := checksum
  nowMs := 0
  retireFirst := retireFirst

/-- The first bundle, and, when of two bundles the second is active, that one again. -/
theorem unopposed_bundles_in_every_order :
    (∃ db, Reachable postgres db ∧ db.policyBundles.rows = [] ∧ ∀ retireFirst, ∃ b db',
      publishPolicyBundle (publishBundle "sha256:01" [1] retireFirst) db = .ok (some b, db') ∧
        b.checksum = [1] ∧ db'.ActiveBundleIs b) ∧
    ∃ db, Reachable postgres db ∧ db.policyBundles.rows.length = 2 ∧ ∀ retireFirst, ∃ b db',
      publishPolicyBundle (publishBundle "sha256:02" [2] retireFirst) db = .ok (some b, db') ∧
        b.checksum = [2] ∧ db'.ActiveBundleIs b := by
  refine ⟨?_, ?_⟩
  · obtain ⟨db, hreach, htest⟩ := exists_reachable_of_run postgres foundAcme
      (fun db => (db.administratorActor ⟨2⟩ 0).isSome && decide (db.policyBundles.rows = [])) (by decide +kernel)
    obtain ⟨hactor, hempty⟩ := Bool.and_eq_true_iff.1 htest
    obtain ⟨actor, hactor⟩ := Option.isSome_iff_exists.1 hactor
    have hempty : db.policyBundles.rows = [] := of_decide_eq_true hempty
    have hnone (b : PolicyBundle) : ¬ b ∈ db.policyBundles := by simp [Table.mem_def, hempty]
    exact ⟨db, hreach, hempty, (publish_in_every_order_iff (p := publishBundle "sha256:01" [1] true)
      (fun b hb => absurd hb (hnone b)) hactor).2
        ⟨fun b hb => absurd hb (hnone b), .inr fun b hb => absurd hb (hnone b)⟩⟩
  · obtain ⟨db, hreach, htest⟩ := exists_reachable_of_run postgres
      (foundAcme ++ [.publishPolicyBundle (publishBundle "sha256:01" [1] true),
        .publishPolicyBundle (publishBundle "sha256:02" [2] true)])
      (fun db => (db.administratorActor ⟨2⟩ 0).isSome && decide (db.policyBundles.rows.length = 2 ∧
        (∀ b ∈ db.policyBundles.rows, ∀ b' ∈ db.policyBundles.rows, b.checksum = b'.checksum → b = b') ∧
        (∀ b ∈ db.policyBundles.rows, b.status = .active → b.checksum = [2]) ∧
        ∃ b ∈ db.policyBundles.rows, b.checksum = [2]))
      (by decide +kernel)
    obtain ⟨hactor, hbundles⟩ := Bool.and_eq_true_iff.1 htest
    obtain ⟨actor, hactor⟩ := Option.isSome_iff_exists.1 hactor
    obtain ⟨htwo, hunique, hactive, hstored⟩ := of_decide_eq_true hbundles
    exact ⟨db, hreach, htwo, (publish_in_every_order_iff (p := publishBundle "sha256:02" [2] true) hunique hactor).2
      ⟨hactive, .inl hstored⟩⟩

/-- A second bundle, with `published` before `retired`: the first is still active when the second is inserted. -/
theorem second_bundle_published_first : ∃ db, Reachable postgres db ∧ db.OneActiveBundle ∧
    (db.administratorActor ⟨2⟩ 0).isSome ∧
      publishPolicyBundle (publishBundle "sha256:02" [2] false) db = .error .uniqueViolation := by
  obtain ⟨db, hreach, htest⟩ := exists_reachable_of_run postgres
    (foundAcme ++ [.publishPolicyBundle (publishBundle "sha256:01" [1] true)])
    (fun db => decide (db.policyBundles.rows.length ≤ 1) && (db.administratorActor ⟨2⟩ 0).isSome &&
      match publishPolicyBundle (publishBundle "sha256:02" [2] false) db with
      | .error .uniqueViolation => true
      | _ => false)
    (by decide +kernel)
  simp only [Bool.and_eq_true, decide_eq_true_eq] at htest
  obtain ⟨⟨hone, hactor⟩, herror⟩ := htest
  refine ⟨db, hreach, fun b hb b' hb' _ _ => ?_, hactor, ?_⟩
  · obtain ⟨i, hi, rfl⟩ := List.mem_iff_getElem.1 hb
    obtain ⟨j, hj, rfl⟩ := List.mem_iff_getElem.1 hb'
    have hij : i = j := by omega
    subst hij
    rfl
  · split at herror
    · assumption
    · cases herror

end WasiAuth
