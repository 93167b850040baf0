import WasiAuth.Postgres.Archived
import WasiAuth.Postgres.Owners

/-! # When an administrator can disable a user

`set_user_disabled.sql` refuses to block the last active owner of an organization. Its guard counts owners in
`auth_memberships`, and then `auth_adjust_owner_count` decides again from the cached `owner_count`. The two can only
disagree in one direction: in every run the cache is at least the count (`covered_of_run`), so what the guard lets
through the triggers let through. Neither of the two looks at the status of the organization.
-/

namespace WasiAuth

open Relational Relation Transition

/-- The user is the only active owner of the organization. -/
def Db.OnlyOwner (user organization : Uuid) (db : Db) : Prop :=
  ∃ m ∈ db.memberships, m.key = (organization, user) ∧ m.isOwner = true ∧
    ∀ other ∈ db.memberships, other.organizationId = organization → other.isOwner = true → other.userId = user

instance (user organization : Uuid) (db : Db) : Decidable (db.OnlyOwner user organization) :=
  inferInstanceAs (Decidable (∃ m ∈ db.memberships.rows, _ ∧ _ ∧ ∀ other ∈ db.memberships.rows, _))

/-! ## The guard -/

/-- The guard of the statement: the user is nowhere the only owner. -/
theorem mayDisable_iff {user : Uuid} {db : Db} :
    db.mayDisable user = true ↔ ∀ organization, ¬ db.OnlyOwner user organization := by
  simp only [Db.mayDisable, List.all_eq_true, Bool.or_eq_true, decide_eq_true_eq, Bool.not_eq_true']
  constructor
  · rintro h organization ⟨m, hm, hkey, howner, honly⟩
    have horg : m.organizationId = organization := congrArg Prod.fst hkey
    rcases h m hm with (huser | hnot) | hmore
    · exact huser (congrArg Prod.snd hkey)
    · rw [howner] at hnot
      cases hnot
    · obtain ⟨a, ha, b, hb, hpa, hpb, hne⟩ := Table.one_lt_count.1 hmore
      simp only [Bool.and_eq_true, decide_eq_true_eq, horg] at hpa hpb
      refine hne (db.memberships.eq_of_key ha hb (Prod.ext (hpa.1.trans hpb.1.symm) ?_))
      exact (honly a ha hpa.1 hpa.2).trans (honly b hb hpb.1 hpb.2).symm
  · intro h m hm
    by_cases huser : m.userId = user
    · cases howner : m.isOwner with
      | false => exact .inl (.inr rfl)
      | true =>
        refine .inr (by_contra fun hless => h m.organizationId ⟨m, hm, Prod.ext rfl huser, howner, ?_⟩)
        intro other hother horg hown
        refine by_contra fun hne => hless (Table.one_lt_count.2 ⟨m, hm, other, hother, ?_, ?_, ?_⟩)
        · simp [howner]
        · simp [horg, hown]
        · exact fun heq => hne (heq ▸ huser)
    · exact .inl (.inl huser)

/-! ## The cache in every run -/

theorem tracks_le : Tracks (· ≤ ·) := ⟨Nat.le_refl 0, fun h hn hc => by omega⟩

theorem covered_of_run {db : Db} (h : Reachable postgres db) : Statement.Counted (· ≤ ·) { db := db } := by
  refine h.invariant (I := fun db => Statement.Counted (· ≤ ·) { db := db }) ?_ fun hs _ hn =>
    counted_of_next tracks_le hs (.inr fun hle => Nat.le_succ_of_le hle) hn
  exact ⟨fun o ho => absurd ho (Table.not_mem_empty o), fun m hm => absurd hm (Table.not_mem_empty m)⟩

/-! ## The triggers go through -/

/-- The ids `gen_random_uuid()` returns to `n` triggers are new and distinct. -/
structure FreshIds (n : Nat) (uuids : Nat → Uuid) (db : Db) : Prop where
  unused : ∀ i < n, db.outbox.find? (uuids i) = none
  distinct : ∀ i < n, ∀ j < n, uuids i = uuids j → i = j

instance (n : Nat) (uuids : Nat → Uuid) (db : Db) : Decidable (FreshIds n uuids db) :=
  decidable_of_iff ((∀ i < n, db.outbox.find? (uuids i) = none) ∧ ∀ i < n, ∀ j < n, uuids i = uuids j → i = j)
    ⟨fun h => ⟨h.1, h.2⟩, fun h => ⟨h.unused, h.distinct⟩⟩

section Triggers
variable {db db' : Db} {st st' : Statement} {uuids : Nat → Uuid}

theorem exists_insertOutboxOnce {row : OutboxRow} (hfree : db.outbox.find? row.outboxId = none) :
    ∃ db', db.insertOutboxOnce row = .ok db' ∧
      ∀ id, id ≠ row.outboxId → db.outbox.find? id = none → db'.outbox.find? id = none := by
  unfold Db.insertOutboxOnce
  split
  · exact ⟨db, rfl, fun _ _ h => h⟩
  · obtain ⟨outbox, hins⟩ := Table.exists_insertOr (e := SqlError.uniqueViolation) hfree
    refine ⟨{ db with outbox := outbox }, by rw [hins]; rfl, fun id hid h => ?_⟩
    rw [Table.find?_of_insertOr hins, if_neg hid]
    exact h

theorem exists_track {outboxId : Uuid} {e : RowEvent} {org : Organization}
    (horg : db.organizations.find? e.target.organizationId = some org) (hfree : db.outbox.find? outboxId = none) :
    ∃ db', db.trackMembershipAuthorization outboxId e = .ok db' ∧
      ∀ id, id ≠ outboxId → db.outbox.find? id = none → db'.outbox.find? id = none := by
  unfold Db.trackMembershipAuthorization
  split
  · exact ⟨db, rfl, fun _ _ h => h⟩
  · rw [horg]
    dsimp only
    split
    · exact ⟨_, rfl, fun _ _ h => h⟩
    · exact exists_insertOutboxOnce hfree

/-- The triggers succeed if their organizations exist and the ids are new. -/
theorem exists_fire : ∀ {es : List RowEvent} {uuids : Nat → Uuid} {db : Db},
    (∀ e ∈ es, ∃ org, db.organizations.find? e.target.organizationId = some org) → FreshIds es.length uuids db →
      ∃ db', db.fireAfterRows uuids es = .ok db'
  | [], _, db, _, _ => ⟨db, rfl⟩
  | e :: es, uuids, db, horgs, hfresh => by
    obtain ⟨org, horg⟩ := horgs e (by simp)
    obtain ⟨db₁, h₁, hrest⟩ := exists_track horg (hfresh.unused 0 (by simp))
    have hkeeps := (keepsMembers_of_track h₁).1
    have horgs' : ∀ e' ∈ es, ∃ org, db₁.organizations.find? e'.target.organizationId = some org := by
      intro e' he'
      obtain ⟨o, ho⟩ := horgs e' (by simp [he'])
      obtain ⟨o', ho', -⟩ := hkeeps.organization_of_before ho
      exact ⟨o', ho'⟩
    have hfresh' : FreshIds es.length (fun n => uuids (n + 1)) db₁ := by
      refine ⟨fun i hi => hrest _ (fun hid => ?_) (hfresh.unused (i + 1) ?_), fun i hi j hj hij => ?_⟩
      · have hzero := hfresh.distinct (i + 1) (by simpa using hi) 0 (by simp) hid
        omega
      · simpa using hi
      · have hsame := hfresh.distinct (i + 1) (by simpa using hi) (j + 1) (by simpa using hj) hij
        omega
    obtain ⟨db', h'⟩ := exists_fire horgs' hfresh'
    exact ⟨db', by rw [Db.fireAfterRows, h₁]; exact h'⟩

/-- The commit of a statement in this state goes through: the events have their organizations, and no organization
whose count was written is without an owner. -/
structure Statement.Committable (st : Statement) : Prop where
  events : ∀ e ∈ st.afterRows, ∃ org, st.db.organizations.find? e.target.organizationId = some org
  checks : ∀ id ∈ st.ownerChecks, ∃ org, st.db.organizations.find? id = some org ∧ 1 ≤ org.ownerCount

theorem Statement.Committable.exists_commit (h : st.Committable)
    (hfresh : FreshIds st.afterRows.length uuids st.db) :
    ∃ db', st.commit uuids = .ok db' := by
  obtain ⟨db', hfire⟩ := exists_fire h.events hfresh
  have hkeeps := (keepsMembers_of_fire hfire).1
  have hpass : st.ownerChecks.all db'.ownerCheckPasses = true := by
    refine List.all_eq_true.2 fun id hid => ?_
    obtain ⟨org, horg, hpos⟩ := h.checks id hid
    obtain ⟨org', horg', hadv⟩ := hkeeps.organization_of_before horg
    rw [Db.ownerCheckPasses, horg']
    exact decide_eq_true fun _ => hadv.ownerCount ▸ hpos
  refine ⟨db', ?_⟩
  rw [Statement.commit, hfire]
  simp only [ok_bind, hpass, if_true]
  rfl

/-- The membership can be taken from the owners of its organization, if it is one of them. -/
def Statement.Yields (m : Membership) (st : Statement) : Prop :=
  ∃ org, st.db.organizations.find? m.organizationId = some org ∧ (m.isOwner = true → 1 < org.ownerCount)

theorem find?_setOwnerCount {org : Organization} {n : Nat}
    (hrow : st.db.organizations.find? org.organizationId = some org) (id : Uuid) :
    (st.setOwnerCount org n).db.organizations.find? id =
      if id = org.organizationId then some { org with ownerCount := n } else st.db.organizations.find? id := by
  have hset : (st.setOwnerCount org n).db.organizations = st.db.organizations.set { org with ownerCount := n } := rfl
  rw [hset]
  by_cases hid : id = org.organizationId
  · rw [if_pos hid, hid]
    exact Table.find?_set_self (r := { org with ownerCount := n }) hrow
  · rw [if_neg hid]
    exact Table.find?_set_ne hid

theorem Statement.Committable.updateSessions {q : Session → Bool} {f : Session → Session}
    {hf : ∀ s, (f s).sessionId = s.sessionId} (h : st.Committable) :
    (st.modify fun db => db.updateSessions q f hf).Committable :=
  ⟨h.events, h.checks⟩

theorem Statement.Committable.setOwnerCount {org : Organization} {n : Nat} (h : st.Committable)
    (hrow : st.db.organizations.find? org.organizationId = some org) (hn : 1 ≤ n) :
    (st.setOwnerCount org n).Committable := by
  constructor
  · intro e he
    rw [find?_setOwnerCount hrow]
    split
    · exact ⟨_, rfl⟩
    · exact h.events e he
  · intro id hcheck
    rw [find?_setOwnerCount hrow]
    by_cases hid : id = org.organizationId
    · exact ⟨_, if_pos hid, hn⟩
    · rw [if_neg hid]
      rcases List.mem_append.1 hcheck with hcheck | hcheck
      · exact h.checks id hcheck
      · exact absurd (List.mem_singleton.1 hcheck) hid

theorem Statement.Committable.writeMembership {e : RowEvent} {memberships : Table Membership.key} {org : Organization}
    (h : st.Committable) (horg : st.db.organizations.find? e.target.organizationId = some org) :
    (st.writeMembership memberships e).Committable := by
  refine ⟨fun e' he' => ?_, h.checks⟩
  rcases List.mem_append.1 he' with he' | he'
  · exact h.events e' he'
  · rw [List.mem_singleton.1 he']
    exact ⟨org, horg⟩

theorem updateMembership_of_adjust {old new : Membership} (hadj : st.adjustOwnerCount (.update old new) = .ok st') :
    st.updateMembership old new = .ok (st'.writeMembership (st'.db.memberships.set new) (.update old new)) := by
  rw [Statement.updateMembership, hadj]
  rfl

/-- A membership that is no owner's afterwards is written, and only its own organization's count moves. -/
theorem exists_updateMembership {old new : Membership} (hnew : new.isOwner = false)
    (horg : new.organizationId = old.organizationId) (hy : st.Yields old) (hst : st.Committable) :
    ∃ st', st.updateMembership old new = .ok st' ∧ st'.Committable ∧
      ∀ m, m.organizationId ≠ old.organizationId → st.Yields m → st'.Yields m := by
  obtain ⟨org, hfind, hmore⟩ := hy
  have hid : org.organizationId = old.organizationId := (Table.find?_eq_some.1 hfind).2
  cases hown : old.isOwner with
  | false =>
    have hadj : st.adjustOwnerCount (.update old new) = .ok st := by
      simp [Statement.adjustOwnerCount, RowEvent.oldIsOwner, RowEvent.newIsOwner, hown, hnew]
    have hevent : st.db.organizations.find? new.organizationId = some org := horg ▸ hfind
    exact ⟨_, updateMembership_of_adjust hadj, hst.writeMembership hevent, fun _ _ h => h⟩
  | true =>
    have hadj : st.adjustOwnerCount (.update old new) = .ok (st.setOwnerCount org (org.ownerCount - 1)) := by
      simp [Statement.adjustOwnerCount, RowEvent.oldIsOwner, RowEvent.newIsOwner, RowEvent.target, hown, hnew, horg,
        hfind, hmore hown]
    have hrow : st.db.organizations.find? org.organizationId = some org := hid ▸ hfind
    have hpos : 1 ≤ org.ownerCount - 1 := by
      have hmore := hmore hown
      omega
    have hevent := find?_setOwnerCount (n := org.ownerCount - 1) hrow new.organizationId
    rw [if_pos (horg.trans hid.symm)] at hevent
    refine ⟨_, updateMembership_of_adjust hadj, (hst.setOwnerCount hrow hpos).writeMembership hevent, ?_⟩
    rintro m hne ⟨o, ho, hm⟩
    have hother := find?_setOwnerCount (n := org.ownerCount - 1) hrow m.organizationId
    rw [if_neg fun hsame => hne (hsame.trans hid), ho] at hother
    exact ⟨o, hother, hm⟩

/-- So do updates in different organizations that leave an owner in each. -/
theorem exists_updateMemberships {f : Membership → Membership} (hf : ∀ m, (f m).organizationId = m.organizationId) :
    ∀ {ms : List Membership} {st : Statement}, (∀ m ∈ ms, (f m).isOwner = false) →
      (ms.map Membership.organizationId).Nodup → (∀ m ∈ ms, st.Yields m) → st.Committable →
        ∃ st', Statement.updateMemberships f ms st = .ok st' ∧ st'.Committable ∧
          st'.afterRows.length = st.afterRows.length + ms.length
  | [], st, _, _, _, hst => ⟨st, rfl, hst, rfl⟩
  | m :: ms, st, hown, hnd, hy, hst => by
    obtain ⟨hhead, hnd⟩ := List.nodup_cons.1 hnd
    obtain ⟨st₁, h₁, hst₁, hrest⟩ := exists_updateMembership (hown m (by simp)) (hf m) (hy m (by simp)) hst
    have hy₁ : ∀ x ∈ ms, st₁.Yields x := fun x hx =>
      hrest x (fun hsame => hhead (hsame ▸ List.mem_map_of_mem hx)) (hy x (by simp [hx]))
    obtain ⟨st', h', hst', hlen⟩ := exists_updateMemberships hf (fun x hx => hown x (by simp [hx])) hnd hy₁ hst₁
    refine ⟨st', by rw [Statement.updateMemberships, h₁]; exact h', hst', ?_⟩
    obtain ⟨st₂, h₂, rfl⟩ := updateMembership_eq_ok h₁
    rw [hlen, Statement.writeMembership, (recounted_of_adjustOwnerCount h₂).afterRows]
    simp only [List.length_append, List.length_cons, List.length_nil]
    omega

end Triggers

/-! ## The statement -/

section Disable
variable {db : Db} {p : SetUserDisabled} {user : User}

def User.disabledRow (user : User) : User :=
  { user with status := .disabled, securityRevision := user.securityRevision + 1 }

theorem switched_nodup : ((p.switched db).map Membership.organizationId).Nodup := by
  have hkeys : ((p.switched db).map Membership.key).Nodup :=
    db.memberships.nodup.sublist (List.Sublist.map _ List.filter_sublist)
  have huser : (p.switched db).map Membership.key =
      ((p.switched db).map Membership.organizationId).map fun id => (id, p.userId) := by
    rw [List.map_map]
    refine List.map_congr_left fun m hm => Prod.ext rfl ?_
    exact (of_decide_eq_true (List.mem_filter.1 hm).2).1
  rw [huser] at hkeys
  exact hkeys.of_map

theorem switch_isOwner (hdisabled : p.disabled = true) {m : Membership} (hm : m ∈ p.switched db) :
    (p.switch m).isOwner = false := by
  have hstatus := (of_decide_eq_true (List.mem_filter.1 hm).2).2
  rcases hstatus with hstatus | hstatus <;>
    simp [SetUserDisabled.switch, Membership.isOwner, MembershipStatus.switch, hstatus, hdisabled]

/-- A user who may be disabled leaves every organization an owner. -/
theorem yields_of_mayDisable (hcovered : Statement.Counted (· ≤ ·) { db := db }) (hmay : db.mayDisable p.userId = true)
    {m : Membership} (hm : m ∈ p.switched db) : Statement.Yields m { db := db } := by
  obtain ⟨hmem, hm⟩ := List.mem_filter.1 hm
  obtain ⟨org, horg⟩ := hcovered.placed m hmem
  refine ⟨org, horg, fun howner => ?_⟩
  have hguard := List.all_eq_true.1 hmay m hmem
  simp only [(of_decide_eq_true hm).1, howner, ne_eq, not_true, decide_false, Bool.not_true, Bool.or_self,
    Bool.false_or, decide_eq_true_eq] at hguard
  obtain ⟨hrow, hid⟩ := Table.find?_eq_some.1 horg
  have hcount := hcovered.counts org hrow
  rw [hid] at hcount
  exact lt_of_lt_of_le hguard hcount

/-- An administrator with new ids disables whom the guard lets through. -/
theorem exists_setUserDisabled {actor : Session × User} (hcovered : Statement.Counted (· ≤ ·) { db := db })
    (hactor : db.administratorActor p.sessionId p.nowMs = some actor) (huser : db.users.find? p.userId = some user)
    (hstatus : user.status ≠ .anonymized) (hdisabled : p.disabled = true)
    (hfresh : FreshIds (p.switched db).length p.uuids db)
    (hmay : db.mayDisable p.userId = true) :
    ∃ db', setUserDisabled p db = .ok (some user.disabledRow, db') := by
  have hlocked : ((db.users.find? p.userId).filter fun u =>
      decide (u.status ≠ .anonymized) && (!p.disabled || db.mayDisable p.userId)) = some user := by
    simp [huser, hstatus, hmay]
  have hrow : ({ user with
      status := if p.disabled then .disabled else .active, securityRevision := user.securityRevision + 1 } : User) =
      user.disabledRow := by
    rw [hdisabled]
    rfl
  have hstart : Statement.Committable { db := db.setUser user.disabledRow } := ⟨by simp, by simp⟩
  have hyields : ∀ m ∈ p.switched db, Statement.Yields m { db := db.setUser user.disabledRow } :=
    fun m hm => yields_of_mayDisable hcovered hmay hm
  obtain ⟨st, hst, hcommittable, hlen⟩ := exists_updateMemberships (f := p.switch) (fun _ => rfl)
    (fun m hm => switch_isOwner hdisabled hm) switched_nodup hyields hstart
  obtain ⟨_, hdb⟩ := updateMemberships_others hst
  have hids : FreshIds st.afterRows.length p.uuids st.db := by
    have hlen : st.afterRows.length = (p.switched db).length := by simpa using hlen
    rw [hlen]
    refine ⟨fun i hi => ?_, hfresh.distinct⟩
    rw [hdb]
    exact hfresh.unused i hi
  -- `revoked_sessions` is written after the memberships and fires no trigger
  have hcommit : ∀ (q : Session → Bool) (f : Session → Session) (hf : ∀ s, (f s).sessionId = s.sessionId),
      ∃ db', (st.modify fun db => db.updateSessions q f hf).commit p.uuids = .ok db' :=
    fun q f hf => hcommittable.updateSessions.exists_commit ⟨hids.unused, hids.distinct⟩
  unfold setUserDisabled
  rw [hactor, hlocked]
  dsimp only
  rw [hrow]
  exact (hcommit _ _ _).imp fun db' hc => bind_eq_ok.2 ⟨st, hst, bind_eq_ok.2 ⟨db', hc, rfl⟩⟩

theorem mayDisable_of_setUserDisabled {row : User} {db' : Db} (hdisabled : p.disabled = true)
    (h : setUserDisabled p db = .ok (some row, db')) : db.mayDisable p.userId = true := by
  rcases setUserDisabled_cases h with ⟨h, -⟩ | ⟨_, -, -, hmay, -⟩
  · cases h
  · exact hmay hdisabled

end Disable

/-- In every reachable state an administrator's request to disable a user succeeds exactly when the user is not the
only active owner of an organization, be it active or archived. -/
theorem disable_succeeds_iff {db : Db} {p : SetUserDisabled} {actor : Session × User} {user : User}
    (h : Reachable postgres db) (hactor : db.administratorActor p.sessionId p.nowMs = some actor)
    (huser : db.users.find? p.userId = some user) (hstatus : user.status ≠ .anonymized) (hdisabled : p.disabled = true)
    (hfresh : FreshIds (p.switched db).length p.uuids db) :
    (∃ db', setUserDisabled p db = .ok (some user.disabledRow, db')) ↔
      ∀ o ∈ db.organizations, ¬ db.OnlyOwner p.userId o.organizationId := by
  have hcovered := covered_of_run h
  constructor
  · rintro ⟨db', hok⟩ o -
    exact mayDisable_iff.1 (mayDisable_of_setUserDisabled hdisabled hok) o.organizationId
  · intro hnone
    refine exists_setUserDisabled hcovered hactor huser hstatus hdisabled hfresh (mayDisable_iff.2 ?_)
    rintro organization ⟨m, hm, hkey, hrest⟩
    obtain ⟨o, ho⟩ := hcovered.placed m hm
    obtain ⟨hmem, hid⟩ := Table.find?_eq_some.1 ho
    have horg : organization = o.organizationId := (congrArg Prod.fst hkey).symm.trans hid.symm
    exact hnone o hmem (horg ▸ ⟨m, hm, hkey, hrest⟩)

def disableUser (user : Uuid) : SetUserDisabled where
  sessionId := ⟨2⟩
  userId := user
  disabled := true
  nowMs := 0
  uuids := uuidsFrom 600

def SetUserDisabled.authorized (p : SetUserDisabled) (db : Db) : Bool :=
  (db.administratorActor p.sessionId p.nowMs).isSome &&
    ((db.users.find? p.userId).any fun user => decide (user.status ≠ .anonymized)) &&
      decide (FreshIds (p.switched db).length p.uuids db)

/-- An administrator calls with new ids, for a user that is not anonymized. -/
theorem authorized_eq_true {p : SetUserDisabled} {db : Db} (h : p.authorized db = true) :
    ∃ actor user, db.administratorActor p.sessionId p.nowMs = some actor ∧ db.users.find? p.userId = some user ∧
      user.status ≠ .anonymized ∧ FreshIds (p.switched db).length p.uuids db := by
  simp only [SetUserDisabled.authorized, Bool.and_eq_true, decide_eq_true_eq] at h
  obtain ⟨⟨hactor, huser⟩, hfresh⟩ := h
  obtain ⟨actor, hactor⟩ := Option.isSome_iff_exists.1 hactor
  obtain ⟨user, huser, hstatus⟩ := (Option.any_eq_true _ _).1 huser
  exact ⟨actor, user, hactor, huser, of_decide_eq_true hstatus, hfresh⟩

theorem member_disabled : ∃ db user db', Reachable postgres db ∧
    setUserDisabled (disableUser ⟨11⟩) db = .ok (some (User.disabledRow user), db') := by
  obtain ⟨db, hreach, htest⟩ := exists_reachable_of_run postgres (foundAcme ++ joinAcme)
    (fun db => (disableUser ⟨11⟩).authorized db &&
      db.organizations.rows.all fun o => decide (¬ db.OnlyOwner ⟨11⟩ o.organizationId)) (by decide +kernel)
  obtain ⟨hauth, hnone⟩ := Bool.and_eq_true_iff.1 htest
  obtain ⟨actor, user, hactor, huser, hstatus, hfresh⟩ := authorized_eq_true hauth
  have hnone : ∀ o ∈ db.organizations, ¬ db.OnlyOwner (disableUser ⟨11⟩).userId o.organizationId :=
    fun o ho => of_decide_eq_true (List.all_eq_true.1 hnone o ho)
  obtain ⟨db', hok⟩ := (disable_succeeds_iff hreach hactor huser hstatus rfl hfresh).2 hnone
  exact ⟨db, user, db', hreach, hok⟩

/-- The founder has archived the only organization, and still cannot be disabled. -/
theorem archived_owner_not_disabled : ∃ db actor user db', Reachable postgres db ∧
    db.administratorActor (disableUser ⟨1⟩).sessionId (disableUser ⟨1⟩).nowMs = some actor ∧
      db.users.find? (disableUser ⟨1⟩).userId = some user ∧ user.status ≠ .anonymized ∧
        FreshIds ((disableUser ⟨1⟩).switched db).length (disableUser ⟨1⟩).uuids db ∧
          (∀ o ∈ db.organizations, o.status = .active → ¬ db.OnlyOwner ⟨1⟩ o.organizationId) ∧
            setUserDisabled (disableUser ⟨1⟩) db = .ok (none, db') := by
  obtain ⟨db, hreach, htest⟩ := exists_reachable_of_run postgres (foundAcme ++ archiveAcme)
    (fun db => (disableUser ⟨1⟩).authorized db &&
      (db.organizations.rows.all fun o => decide (o.status = .active → ¬ db.OnlyOwner ⟨1⟩ o.organizationId)) &&
        (setUserDisabled (disableUser ⟨1⟩) db).toOption.any fun r => r.1.isNone) (by decide +kernel)
  simp only [Bool.and_eq_true] at htest
  obtain ⟨⟨hauth, hnone⟩, hrefused⟩ := htest
  obtain ⟨actor, user, hactor, huser, hstatus, hfresh⟩ := authorized_eq_true hauth
  obtain ⟨⟨r, db'⟩, hok, hr⟩ := exists_ok_of_any hrefused
  have hr : r = none := Option.isNone_iff_eq_none.1 hr
  exact ⟨db, actor, user, db', hreach, hactor, huser, hstatus, hfresh,
    fun o ho => of_decide_eq_true (List.all_eq_true.1 hnone o ho), hr ▸ hok⟩

end WasiAuth
