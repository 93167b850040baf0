import WasiAuth.Postgres.Tenant

/-! # Every active organization has an owner

`auth_organizations.owner_count` caches the number of active owners, `auth_adjust_owner_count` keeps it in
step with `auth_memberships` row by row, and two checks read only the cache: a removal needs a count above
one, and the deferred constraint a count of at least one. So the law rests on the cache being right
(`Owned.counted`).

One path breaks it. `accept_invitation.sql` upserts, and an upsert that meets a row counts the proposed
owner before it is known not to be inserted. `ownerless_after_second_acceptance` runs into an active
organization without an owner; `activeOrganization_has_owner` shows that no other path does.
-/

namespace WasiAuth

open Relational Relation Transition

/-- The organization has an active owner. -/
def Db.HasOwner (db : Db) (organization : Uuid) : Prop :=
  ∃ m ∈ db.memberships, m.organizationId = organization ∧ m.roleId = "owner" ∧ m.status = .active

instance (db : Db) (organization : Uuid) : Decidable (db.HasOwner organization) :=
  inferInstanceAs (Decidable (∃ m ∈ db.memberships.rows, _))

theorem hasOwner_of_activeOwners {db : Db} {organization : Uuid} (h : 1 ≤ db.activeOwners organization) :
    db.HasOwner organization := by
  obtain ⟨m, hm, hown⟩ := Table.count_pos.1 h
  obtain ⟨horg, hrole, hact⟩ : m.organizationId = organization ∧ m.roleId = "owner" ∧ m.status = .active := by
    simpa [Membership.isOwner] using hown
  exact ⟨m, hm, horg, hrole, hact⟩

/-- The owner counts of a statement in progress are right, and an active organization without an owner
is queued for the check at the commit. -/
structure Statement.Owned (st : Statement) : Prop where
  counted : ∀ o ∈ st.db.organizations, o.ownerCount = st.db.activeOwners o.organizationId
  owned : ∀ o ∈ st.db.organizations, o.status = .active → 1 ≤ o.ownerCount ∨ o.organizationId ∈ st.ownerChecks
  placed : ∀ m ∈ st.db.memberships, ∃ o, st.db.organizations.find? m.organizationId = some o

def Db.Owned (db : Db) : Prop := Statement.Owned { db := db }

variable {db db' : Db} {st st' : Statement} {clean : Prop}

/-! ## One write -/

/-- A comparison of a count with its cache that holds on when both move alike. -/
structure Tracks (R : Nat → Nat → Prop) : Prop where
  zero : R 0 0
  move : ∀ {n c n' c' lost won}, R n c → n' + lost = n + won → c' + lost = c + won → R n' c'

theorem tracks_eq : Tracks fun n c => c = n := ⟨rfl, fun h hn hc => by omega⟩

/-- The number of active owners of each organization compares with its count, and every membership has its
organization. -/
structure Statement.Counted (R : Nat → Nat → Prop) (st : Statement) : Prop where
  counts : ∀ o ∈ st.db.organizations, R (st.db.activeOwners o.organizationId) o.ownerCount
  placed : ∀ m ∈ st.db.memberships, ∃ o, st.db.organizations.find? m.organizationId = some o

/-- An active organization whose count is zero is queued for the check. -/
def Statement.Queued (st : Statement) : Prop :=
  ∀ o ∈ st.db.organizations, o.status = .active → 1 ≤ o.ownerCount ∨ o.organizationId ∈ st.ownerChecks

section Write
variable {R : Nat → Nat → Prop}

theorem Statement.Counted.of_keepsMembers (h : st.Counted R) (hk : KeepsMembers st.db db') :
    Statement.Counted R { st with db := db' } where
  counts o' ho' := by
    obtain ⟨o, ho, hadv⟩ := hk.organization_of_after (Table.find?_of_mem ho')
    obtain ⟨hmem, hid⟩ := Table.find?_eq_some.1 ho
    rw [hadv.ownerCount, ← hid]
    simp only [Db.activeOwners, hk.memberships]
    exact h.counts o hmem
  placed m hm := by
    obtain ⟨o, ho⟩ := h.placed m (hk.memberships ▸ hm)
    obtain ⟨o', ho', -⟩ := hk.organization_of_before ho
    exact ⟨o', ho'⟩

theorem Statement.Queued.of_keepsMembers (h : st.Queued) (hk : KeepsMembers st.db db') :
    Statement.Queued { st with db := db' } := by
  intro o' ho' hact
  obtain ⟨o, ho, hadv⟩ := hk.organization_of_after (Table.find?_of_mem ho')
  obtain ⟨hmem, hid⟩ := Table.find?_eq_some.1 ho
  rw [hadv.ownerCount, ← hid]
  exact h o hmem (hadv.active hact)

/-- What the trigger does to the count of one organization: it adds what the event adds and takes what it
takes. -/
structure OrganizationRecount (e : RowEvent) (st' : Statement) (o o' : Organization) : Prop where
  organizationId : o'.organizationId = o.organizationId
  status : o'.status = o.status
  ownerCount : o'.ownerCount + (if o.organizationId = e.target.organizationId ∧ e.oldIsOwner then 1 else 0) =
    o.ownerCount + if o.organizationId = e.target.organizationId ∧ e.newIsOwner then 1 else 0
  queued : o'.ownerCount = o.ownerCount ∨ o.organizationId ∈ st'.ownerChecks

theorem OrganizationRecount.of_insert {new : Membership} {o o' : Organization}
    (h : OrganizationRecount (.insert new) st' o o') :
    o'.ownerCount = o.ownerCount ∨ o'.ownerCount = o.ownerCount + 1 ∧ new.isOwner = true := by
  have hcount := h.ownerCount
  rw [if_neg (by simp [RowEvent.oldIsOwner])] at hcount
  split at hcount
  · exact .inr ⟨hcount, ‹_ ∧ _›.2⟩
  · exact .inl hcount

theorem recount_of_setOwnerCount {e : RowEvent} {org : Organization} {n : Nat}
    (horg : st.db.organizations.find? e.target.organizationId = some org)
    (hn : n + (if e.oldIsOwner then 1 else 0) = org.ownerCount + if e.newIsOwner then 1 else 0)
    {o' : Organization} (ho' : o' ∈ (st.setOwnerCount org n).db.organizations) :
    ∃ o ∈ st.db.organizations, OrganizationRecount e (st.setOwnerCount org n) o o' := by
  obtain ⟨hmem, hid⟩ := Table.find?_eq_some.1 horg
  rcases Table.mem_set.1 ho' with ⟨ho', hne⟩ | ⟨rfl, -⟩
  · have hne : o'.organizationId ≠ e.target.organizationId := fun he => hne (he.trans hid.symm)
    exact ⟨o', ho', rfl, rfl, by simp [hne], .inl rfl⟩
  · exact ⟨org, hmem, rfl, rfl, by simpa [hid] using hn, .inr (by simp [Statement.setOwnerCount])⟩

/-- The event is counted for its organization, and the queue of checks only grows. -/
theorem recount_of_adjustOwnerCount {e : RowEvent} (h : st.adjustOwnerCount e = .ok st') :
    (∀ o' ∈ st'.db.organizations, ∃ o ∈ st.db.organizations, OrganizationRecount e st' o o') ∧
      ∀ id ∈ st.ownerChecks, id ∈ st'.ownerChecks := by
  have hqueue (org : Organization) (n : Nat) : ∀ id ∈ st.ownerChecks, id ∈ (st.setOwnerCount org n).ownerChecks :=
    fun id hid => List.mem_append_left _ hid
  unfold Statement.adjustOwnerCount at h
  split at h
  · rename_i hlost
    simp only [Bool.and_eq_true, Bool.not_eq_eq_eq_not, Bool.not_true] at hlost
    split at h
    · rename_i org horg
      split at h
      · cases h
        refine ⟨fun o' ho' => recount_of_setOwnerCount horg ?_ ho', hqueue _ _⟩
        simp only [hlost, if_true, Bool.false_eq_true, if_false]
        omega
      · cases h
    · cases h
  · split at h
    · rename_i hwon
      simp only [Bool.and_eq_true, Bool.not_eq_eq_eq_not, Bool.not_true] at hwon
      split at h
      · rename_i org horg
        cases h
        refine ⟨fun o' ho' => recount_of_setOwnerCount horg ?_ ho', hqueue _ _⟩
        simp [hwon]
      · cases h
    · rename_i hlost hwon
      cases h
      have hsame : e.oldIsOwner = e.newIsOwner := by
        revert hlost hwon
        cases e.oldIsOwner <;> cases e.newIsOwner <;> simp
      exact ⟨fun o ho => ⟨o, ho, rfl, rfl, by rw [hsame], .inl rfl⟩, fun _ => id⟩

theorem Statement.Queued.adjustOwnerCount {e : RowEvent} (h : st.Queued) (hadj : st.adjustOwnerCount e = .ok st') :
    st'.Queued := by
  obtain ⟨hrecount, hqueue⟩ := recount_of_adjustOwnerCount hadj
  intro o' ho' hact
  obtain ⟨o, ho, hrec⟩ := hrecount o' ho'
  rw [hrec.organizationId]
  rcases hrec.queued with hsame | hq
  · rw [hsame]
    exact (h o ho (hrec.status ▸ hact)).imp_right (hqueue _)
  · exact .inr hq

/-- A membership write keeps the counts when the table moves by what the event says. -/
theorem Statement.Counted.write {e : RowEvent} {memberships : Table Membership.key} (hR : Tracks R) (h : st.Counted R)
    (hadj : st.adjustOwnerCount e = .ok st')
    (hcount : ∀ id, memberships.count (fun m => decide (m.organizationId = id) && m.isOwner) +
        (if id = e.target.organizationId ∧ e.oldIsOwner then 1 else 0) =
      st.db.activeOwners id + if id = e.target.organizationId ∧ e.newIsOwner then 1 else 0)
    (hplaced : ∀ m ∈ memberships, ∃ o, st.db.organizations.find? m.organizationId = some o) :
    (st'.writeMembership memberships e).Counted R := by
  obtain ⟨hrecount, -⟩ := recount_of_adjustOwnerCount hadj
  refine ⟨fun o' ho' => ?_, fun m hm => ?_⟩
  · obtain ⟨o, ho, hrec⟩ := hrecount o' ho'
    rw [hrec.organizationId]
    exact hR.move (h.counts o ho) (hcount o.organizationId) hrec.ownerCount
  · obtain ⟨o, ho⟩ := hplaced m hm
    exact (recounted_of_adjustOwnerCount hadj).organization_of_before ho

theorem Statement.Counted.insert {new : Membership} {org : Organization} (hR : Tracks R) (h : st.Counted R)
    (horg : st.db.organizations.find? new.organizationId = some org) (hins : st.insertMembership new = .ok st') :
    st'.Counted R := by
  obtain ⟨st₁, memberships, hadj, hm, rfl⟩ := insertMembership_eq_ok hins
  refine h.write hR hadj (fun id => ?_) fun m hmem => ?_
  · rw [Table.count_of_insertOr hm]
    simp only [RowEvent.oldIsOwner, RowEvent.newIsOwner, RowEvent.target, Db.activeOwners, eq_comm (a := id)]
    simp
  · rcases (Table.mem_of_insertOr hm).1 hmem with hmem | rfl
    · exact h.placed m hmem
    · exact ⟨org, horg⟩

/-- An update moves the count and the owners alike. -/
theorem Statement.Counted.update {old new : Membership} (hR : Tracks R) (h : st.Counted R)
    (hold : old ∈ st.db.memberships) (hkey : new.key = old.key) (hupd : st.updateMembership old new = .ok st') :
    st'.Counted R := by
  obtain ⟨st₁, hadj, rfl⟩ := updateMembership_eq_ok hupd
  have horg : new.organizationId = old.organizationId := congrArg Prod.fst hkey
  refine h.write hR hadj (fun id => ?_) fun m hmem => ?_
  · have hset := Table.count_set hold hkey.symm fun m => decide (m.organizationId = id) && m.isOwner
    simpa [RowEvent.oldIsOwner, RowEvent.newIsOwner, RowEvent.target, Db.activeOwners, horg, eq_comm (a := id)]
      using hset
  · rcases Table.mem_set.1 hmem with ⟨hmem, -⟩ | ⟨rfl, -⟩
    · exact h.placed m hmem
    · rw [horg]
      exact h.placed old hold

/-- A new organization has no owner yet, and its count is zero. -/
theorem Statement.Counted.create {org : Organization} (hR : Tracks R) (h : Statement.Counted R { db := db })
    (hn : org.ownerCount = 0) (hins : insertOrganization org db = .ok st') : st'.Counted R := by
  obtain ⟨_, _, _, ho, -, rfl⟩ := insertOrganization_eq_ok hins
  have hnew : db.organizations.find? org.organizationId = none := (Table.insertOr_eq_ok ho).1
  refine ⟨fun o hmem => ?_, fun m hm => ?_⟩
  · rcases (Table.mem_of_insertOr ho).1 hmem with hmem | rfl
    · exact h.counts o hmem
    · have hnone : db.activeOwners o.organizationId = 0 := by
        refine Nat.eq_zero_of_not_pos fun hpos => ?_
        obtain ⟨m, hm, horg, -⟩ := hasOwner_of_activeOwners hpos
        obtain ⟨o', ho'⟩ := h.placed m hm
        simp [horg, hnew] at ho'
      have hzero : R (db.activeOwners o.organizationId) o.ownerCount := by
        rw [hnone, hn]
        exact hR.zero
      exact hzero
  · obtain ⟨o, ho'⟩ := h.placed m hm
    exact ⟨o, Table.find?_insertOr_of_some ho ho'⟩

theorem Statement.Queued.create {org : Organization} (h : Statement.Queued { db := db })
    (hins : insertOrganization org db = .ok st') : st'.Queued := by
  obtain ⟨_, _, _, ho, -, rfl⟩ := insertOrganization_eq_ok hins
  intro o hmem hact
  rcases (Table.mem_of_insertOr ho).1 hmem with hmem | rfl
  · exact (h o hmem hact).imp_right (by simp)
  · exact .inr (by simp)

/-! ## One statement -/

/-- The proposed row of an upsert is counted before it is known not to be inserted, so either it is no owner or
the comparison has to bear a count that is too high. -/
theorem Statement.Counted.step (hR : Tracks R) (h : st.Counted R)
    (hpropose : clean ∨ ∀ {n c}, R n c → R n (c + 1)) (hs : Statement.Step clean st st') : st'.Counted R := by
  cases hs with
  | routine hr => exact h.of_keepsMembers hr.quiet.toKeepsMembers
  | create hn hins => exact h.create hR hn hins
  | insert horg hins => exact h.insert hR horg hins
  | update hupd hold hkey => exact h.update hR hold hkey hupd
  | @propose _ _ new hown hadj =>
    obtain ⟨hrecount, -⟩ := recount_of_adjustOwnerCount hadj
    have hcounted := recounted_of_adjustOwnerCount hadj
    refine ⟨fun o' ho' => ?_, fun m hm => ?_⟩
    · obtain ⟨o, ho, hrec⟩ := hrecount o' ho'
      rw [hrec.organizationId]
      simp only [Db.activeOwners, hcounted.memberships]
      rcases hrec.of_insert with hcount | ⟨hcount, howner⟩
      · rw [hcount]
        exact h.counts o ho
      · rcases hpropose with hclean | hbear
        · simp [hown hclean] at howner
        · rw [hcount]
          exact hbear (h.counts o ho)
    · obtain ⟨o, ho⟩ := h.placed m (hcounted.memberships ▸ hm)
      exact hcounted.organization_of_before ho

theorem Statement.Queued.step (h : st.Queued) (hs : Statement.Step clean st st') : st'.Queued := by
  cases hs with
  | routine hr => exact h.of_keepsMembers hr.quiet.toKeepsMembers
  | create _ hins => exact Statement.Queued.create h hins
  | insert _ hins =>
    obtain ⟨_, _, hadj, -, rfl⟩ := insertMembership_eq_ok hins
    have hqueued := h.adjustOwnerCount hadj
    exact hqueued
  | update hupd =>
    obtain ⟨_, hadj, rfl⟩ := updateMembership_eq_ok hupd
    have hqueued := h.adjustOwnerCount hadj
    exact hqueued
  | propose _ hadj => exact h.adjustOwnerCount hadj

theorem Statement.Counted.steps (hR : Tracks R) (h : st.Counted R) (hpropose : clean ∨ ∀ {n c}, R n c → R n (c + 1))
    (hs : ReflTransGen (Statement.Step clean) st st') : st'.Counted R := by
  induction hs with
  | refl => exact h
  | tail _ hstep ih => exact ih.step hR hpropose hstep

theorem Statement.Queued.steps (h : st.Queued) (hs : ReflTransGen (Statement.Step clean) st st') : st'.Queued := by
  induction hs with
  | refl => exact h
  | tail _ hstep ih => exact ih.step hstep

theorem Statement.Counted.commit {uuids : Nat → Uuid} (h : st.Counted R) (hc : st.commit uuids = .ok db') :
    Statement.Counted R { db := db' } := by
  have hfired := h.of_keepsMembers (keepsMembers_of_fire (commit_eq_ok hc).1).1
  exact ⟨hfired.counts, hfired.placed⟩

theorem Statement.Queued.commit {uuids : Nat → Uuid} (h : st.Queued) (hc : st.commit uuids = .ok db') :
    Statement.Queued { db := db' } := by
  obtain ⟨hfire, hchecks⟩ := commit_eq_ok hc
  have hfired := h.of_keepsMembers (keepsMembers_of_fire hfire).1
  intro o ho hact
  refine .inl ?_
  rcases hfired o ho hact with hpos | hqueued
  · exact hpos
  · have hpass := hchecks _ hqueued
    rw [Db.ownerCheckPasses, Table.find?_of_mem ho] at hpass
    exact of_decide_eq_true hpass hact

/-- Every step that accepts no owner again keeps the counts right. -/
theorem counted_of_next {c : Command} (hR : Tracks R) (h : Statement.Counted R { db := db })
    (hpropose : c.acceptsOwnerAgain db = false ∨ ∀ {n c}, R n c → R n (c + 1))
    (hn : postgres.next db c = some db') : Statement.Counted R { db := db' } := by
  rcases step_changes hn with (hr | ⟨hw, hcommit⟩) | ⟨-, hd⟩
  · exact h.of_keepsMembers hr.quiet.toKeepsMembers
  · exact (h.steps hR hpropose hw).commit hcommit
  · exact h.of_keepsMembers (.of_eq (by rw [hd.others]) (by rw [hd.others]) (by rw [hd.others]))

/-- After every step an active organization counts an owner. -/
theorem queued_of_next {c : Command} (h : Statement.Queued { db := db }) (hn : postgres.next db c = some db') :
    Statement.Queued { db := db' } := by
  rcases step_changes hn with (hr | ⟨hw, hcommit⟩) | ⟨-, hd⟩
  · exact h.of_keepsMembers hr.quiet.toKeepsMembers
  · exact (h.steps hw).commit hcommit
  · exact h.of_keepsMembers (.of_eq (by rw [hd.others]) (by rw [hd.others]) (by rw [hd.others]))

end Write

/-! ## Every run -/

theorem Db.Owned.step {c : Command} (h : db.Owned) (hc : c.acceptsOwnerAgain db = false)
    (hn : postgres.next db c = some db') : db'.Owned := by
  have hcounted := counted_of_next tracks_eq ⟨h.counted, h.placed⟩ (.inl hc) hn
  exact ⟨hcounted.counts, queued_of_next h.owned hn, hcounted.placed⟩

theorem owned_empty : Db.empty.Owned :=
  ⟨fun o ho => absurd ho (Table.not_mem_empty o), fun o ho => absurd ho (Table.not_mem_empty o),
    fun m hm => absurd hm (Table.not_mem_empty m)⟩

/-- **An active organization has an owner** in every run that never accepts an owner invitation for a user
who already has a membership row in that organization. -/
theorem activeOrganization_has_owner
    (h : ReachableBy postgres (fun db c => c.acceptsOwnerAgain db = false) db) :
    ∀ o ∈ db.organizations, o.status = .active → db.HasOwner o.organizationId := by
  have howned : db.Owned := h.invariant (I := Db.Owned) owned_empty fun hs hok hn => hs.step hok hn
  intro o ho hact
  rcases howned.owned o ho hact with hpos | hq
  · exact hasOwner_of_activeOwners (howned.counted o ho ▸ hpos)
  · cases hq

/-- The founder invites the own email into a role and accepts. -/
def inviteSelf (roleId : String) (invitationId outboxId : Uuid) (tokenHash : Bytes) (firstUuid : Nat) : List Command :=
  [inviteToAcme "a@example.com" roleId invitationId outboxId tokenHash 0,
    .acceptInvitation { sessionId := ⟨2⟩, tokenHash := tokenHash, nowMs := 0, uuids := uuidsFrom firstUuid }]

/-- A second user has accepted an invitation. -/
theorem acme_has_owner : ∃ db, ReachableBy postgres (fun db c => c.acceptsOwnerAgain db = false) db ∧
    db.memberships.rows.length = 2 ∧ ∃ o ∈ db.organizations, o.status = .active ∧ db.HasOwner o.organizationId := by
  obtain ⟨db, hreach, htest⟩ := exists_reachableBy_of_run postgres (fun db c => !c.acceptsOwnerAgain db)
    (foundAcme ++ joinAcme)
    (fun db => decide (db.memberships.rows.length = 2) && db.organizations.rows.any fun o => decide (o.status = .active))
    (by decide +kernel)
    (by simp : ∀ {db c}, (!Command.acceptsOwnerAgain c db) = true → c.acceptsOwnerAgain db = false)
  obtain ⟨htwo, hany⟩ := Bool.and_eq_true_iff.1 htest
  obtain ⟨o, ho, hact⟩ := List.any_eq_true.1 hany
  have hact : o.status = .active := of_decide_eq_true hact
  exact ⟨db, hreach, of_decide_eq_true htwo, o, ho, hact, activeOrganization_has_owner hreach o ho hact⟩

/-- The owner accepts an owner invitation and then a member invitation. The first acceptance counts a
second owner that does not exist; the second demotes the only one. -/
theorem ownerless_after_second_acceptance : ∃ db, Reachable postgres db ∧
    ∃ o ∈ db.organizations, o.status = .active ∧ ¬ db.HasOwner o.organizationId := by
  obtain ⟨db, hreach, hany⟩ := exists_reachable_of_run postgres
    (foundAcme ++ inviteSelf "owner" ⟨4⟩ ⟨102⟩ [2] 300 ++ inviteSelf "member" ⟨5⟩ ⟨103⟩ [3] 400)
    (fun db => db.organizations.rows.any fun o => decide (o.status = .active ∧ ¬ db.HasOwner o.organizationId))
    (by decide +kernel)
  obtain ⟨o, ho, hown⟩ := List.any_eq_true.1 hany
  exact ⟨db, hreach, o, ho, of_decide_eq_true hown⟩

end WasiAuth
