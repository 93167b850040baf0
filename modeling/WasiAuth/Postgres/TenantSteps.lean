import WasiAuth.Postgres.Tenant

/-! # The outcomes of the tenant statements

For every statement that manages a tenant, a lemma `<command>_cases` says all it can do: nothing, or the writes
it makes for a caller that passed its checks. The triggers at the end of a statement write organizations and the
outbox, and of the organizations only the one the statement is about (`SameExcept`).
-/

namespace WasiAuth

open Relational Relation

/-! ## The writes statements are made of -/

section Writes
variable {db db₂ db' : Db} {st st₂ st' : Statement}

theorem updateMembership_others {old new : Membership} (h : st.updateMembership old new = .ok st') :
    ∃ organizations, st'.db =
      { st.db with organizations := organizations, memberships := st.db.memberships.set new } := by
  obtain ⟨st₁, h₁, rfl⟩ := updateMembership_eq_ok h
  refine ⟨st₁.db.organizations, ?_⟩
  simp only [Statement.writeMembership]
  rw [(recounted_of_adjustOwnerCount h₁).others]

theorem insertMembership_others {new : Membership} (h : st.insertMembership new = .ok st') :
    ∃ organizations memberships, st.db.memberships.insertOr SqlError.uniqueViolation new = .ok memberships ∧
      st'.db = { st.db with organizations := organizations, memberships := memberships } := by
  obtain ⟨st₁, memberships, h₁, hins, rfl⟩ := insertMembership_eq_ok h
  refine ⟨st₁.db.organizations, memberships, hins, ?_⟩
  simp only [Statement.writeMembership]
  rw [(recounted_of_adjustOwnerCount h₁).others]

theorem updateMemberships_others {f : Membership → Membership} : ∀ {ms : List Membership} {st st' : Statement},
    Statement.updateMemberships f ms st = .ok st' → ∃ organizations, st'.db =
      { st.db with
        organizations := organizations
        memberships := ms.foldl (fun memberships m => memberships.set (f m)) st.db.memberships }
  | [], _, _, h => by cases h; exact ⟨_, rfl⟩
  | _ :: _, _, _, h => by
    obtain ⟨st₁, h₁, h⟩ := bind_eq_ok.1 h
    obtain ⟨_, hdb⟩ := updateMembership_others h₁
    obtain ⟨organizations, hdb'⟩ := updateMemberships_others h
    exact ⟨organizations, by rw [hdb', hdb]; rfl⟩

/-- The membership table after an upsert of the proposed row: it has that row, or the row that was there with the
proposed role. -/
def Upserted (proposed : Membership) (t t' : Table Membership.key) : Prop :=
  t.insertOr SqlError.uniqueViolation proposed = .ok t' ∨
    ∃ old, t.find? proposed.key = some old ∧
      t' = t.set { old with roleId := proposed.roleId, status := .active, updatedAtMs := proposed.updatedAtMs }

theorem upsertMembership_others {proposed : Membership} (h : st.upsertMembership proposed = .ok st') :
    ∃ organizations memberships, st'.db =
        { st.db with organizations := organizations, memberships := memberships } ∧
      Upserted proposed st.db.memberships memberships := by
  unfold Statement.upsertMembership at h
  split at h
  · obtain ⟨organizations, memberships, hins, hdb⟩ := insertMembership_others h
    exact ⟨organizations, memberships, hdb, .inl hins⟩
  · rename_i old hfind
    obtain ⟨st₁, h₁, h⟩ := bind_eq_ok.1 h
    obtain ⟨organizations, hdb⟩ := updateMembership_others h
    rw [(recounted_of_adjustOwnerCount h₁).others] at hdb
    exact ⟨organizations, _, hdb, .inr ⟨old, hfind, rfl⟩⟩

/-- The upserted membership is active with the proposed role. -/
theorem activeMembership_of_upserted {proposed : Membership} (hactive : proposed.status = .active)
    (h : Upserted proposed db.memberships db'.memberships) :
    ∃ m, db'.activeMembership proposed.organizationId proposed.userId = some m ∧ m.roleId = proposed.roleId := by
  have hkey : (proposed.organizationId, proposed.userId) = proposed.key := rfl
  rcases h with hins | ⟨old, hold, hset⟩
  · refine ⟨proposed, ?_, rfl⟩
    rw [Db.activeMembership, Table.find?_of_insertOr hins, if_pos hkey]
    exact Option.filter_eq_some_iff.2 ⟨rfl, decide_eq_true hactive⟩
  · have hold' : old.key = proposed.key := (Table.find?_eq_some.1 hold).2
    refine ⟨{ old with roleId := proposed.roleId, status := .active, updatedAtMs := proposed.updatedAtMs }, ?_, rfl⟩
    rw [Db.activeMembership, hkey, hset, ← hold']
    rw [← hold'] at hold
    exact Option.filter_eq_some_iff.2 ⟨Table.find?_set_self (r := { old with
      roleId := proposed.roleId, status := .active, updatedAtMs := proposed.updatedAtMs }) hold, decide_eq_true rfl⟩

/-- The triggers write organizations and the outbox. -/
theorem fire_others {es : List RowEvent} {uuids : Nat → Uuid} (h : db.fireAfterRows uuids es = .ok db') :
    ∃ organizations outbox, db' = { db with organizations := organizations, outbox := outbox } := by
  refine fire_induction (R := fun db db' => ∃ organizations outbox,
    db' = { db with organizations := organizations, outbox := outbox })
    (fun _ => ⟨_, _, rfl⟩) ?_ (fun e _ {_ _ _} h => ?_) h
  · rintro _ _ _ ⟨_, _, rfl⟩ ⟨organizations, outbox, rfl⟩
    exact ⟨organizations, outbox, rfl⟩
  · rcases track_cases h with rfl | ⟨_, _, -, -, rfl⟩ <;> exact ⟨_, _, rfl⟩

theorem commit_others {uuids : Nat → Uuid} (h : st.commit uuids = .ok db') :
    ∃ organizations outbox, db' = { st.db with organizations := organizations, outbox := outbox } :=
  fire_others (commit_eq_ok h).1

theorem insertOutboxOnce_congr {row : OutboxRow} (hsame : db₂.outbox = db.outbox)
    (h : db₂.insertOutboxOnce row = .ok db') : db.insertOutboxOnce row = .ok { db with outbox := db'.outbox } := by
  unfold Db.insertOutboxOnce Db.hasDeduplicationKey at h ⊢
  rw [hsame] at h
  split at h
  · cases h
    rw [if_pos ‹_›, hsame]
  · obtain ⟨outbox, hins, h⟩ := bind_eq_ok.1 h
    cases h
    rw [if_neg ‹_›, hins]
    rfl

/-- An inserted owner is counted before the row is there, and granted at the next revision when the statement
ends. -/
theorem owned_of_commit {m : Membership} {org : Organization} {uuids : Nat → Uuid} (h : st.insertMembership m = .ok st')
    (hc : st₂.commit uuids = .ok db') (howner : m.isOwner = true) (hnone : st.afterRows = [])
    (horg : st.db.organizations.find? m.organizationId = some org) (horgs : st₂.db.organizations = st'.db.organizations)
    (hqueue : st₂.afterRows = st'.afterRows) (houtbox : st₂.db.outbox = db.outbox) :
    db'.organizations.find? m.organizationId = some { org with
      authorizationRevision := org.authorizationRevision + 1, ownerCount := org.ownerCount + 1 } ∧
    db.insertOutboxOnce (intentRow (uuids 0) m.organizationId m.userId (org.authorizationRevision + 1) .grant
      m.updatedAtMs) = .ok { db with outbox := db'.outbox } := by
  have hid : m.organizationId = org.organizationId := (Table.find?_eq_some.1 horg).2.symm
  rw [hid] at horg ⊢
  have hactive : m.isActive = true := decide_eq_true (of_decide_eq_true howner).2
  obtain ⟨st₁, memberships, hadjust, -, rfl⟩ := insertMembership_eq_ok h
  simp only [Statement.adjustOwnerCount, RowEvent.oldIsOwner, RowEvent.newIsOwner, RowEvent.target, howner, hid,
    horg, Bool.false_and, Bool.false_eq_true, if_false, Bool.not_false, Bool.and_self, if_true] at hadjust
  cases hadjust
  have hcounted : st₂.db.organizations.find? org.organizationId =
      some { org with ownerCount := org.ownerCount + 1 } := by
    rw [horgs]
    exact Table.find?_set_self (r := { org with ownerCount := org.ownerCount + 1 }) horg
  have hfire := (commit_eq_ok hc).1
  rw [hqueue] at hfire
  simp only [Statement.writeMembership, Statement.setOwnerCount, hnone, List.nil_append] at hfire
  obtain ⟨db₁, htrack, hfire⟩ := bind_eq_ok.1 hfire
  cases hfire
  simp only [Db.trackMembershipAuthorization, RowEvent.unchanged, RowEvent.target, hid, hcounted,
    RowEvent.previousActive, RowEvent.currentActive, hactive, Bool.false_eq_true, if_false, if_true] at htrack
  refine ⟨?_, insertOutboxOnce_congr (by exact houtbox) htrack⟩
  obtain ⟨outbox, hdb⟩ : ∃ outbox, db' = { st₂.db with
      organizations := st₂.db.organizations.set { org with
        authorizationRevision := org.authorizationRevision + 1, ownerCount := org.ownerCount + 1 }
      outbox := outbox } := by
    rcases insertOutboxOnce_eq_ok htrack with rfl | ⟨outbox, -, rfl⟩ <;> exact ⟨_, rfl⟩
  rw [hdb]
  exact Table.find?_set_self (r := { org with
    authorizationRevision := org.authorizationRevision + 1, ownerCount := org.ownerCount + 1 }) hcounted

end Writes

/-! ## The organizations a statement touches -/

def ArchivedIn (t : Table Organization.organizationId) (id : Uuid) : Prop :=
  ∃ o, t.find? id = some o ∧ o.status = .archived

/-- The rows of the other organizations are as they were, and no organization is archived or taken back. -/
structure SameExcept (id : Uuid) (t t' : Table Organization.organizationId) : Prop where
  others : ∀ k, k ≠ id → t'.find? k = t.find? k
  archived : ∀ k, ArchivedIn t' k ↔ ArchivedIn t k

namespace SameExcept
variable {id : Uuid} {t t' t₁ t₂ t₃ : Table Organization.organizationId}

theorem refl (t : Table Organization.organizationId) : SameExcept id t t := ⟨fun _ _ => rfl, fun _ => Iff.rfl⟩

theorem trans (h : SameExcept id t₁ t₂) (h' : SameExcept id t₂ t₃) : SameExcept id t₁ t₃ :=
  ⟨fun k hk => (h'.others k hk).trans (h.others k hk), fun k => (h'.archived k).trans (h.archived k)⟩

theorem of_others (hothers : ∀ k, k ≠ id → t'.find? k = t.find? k) (hid : ArchivedIn t' id ↔ ArchivedIn t id) :
    SameExcept id t t' := by
  refine ⟨hothers, fun k => ?_⟩
  by_cases hk : k = id
  · rw [hk]
    exact hid
  · rw [ArchivedIn, ArchivedIn, hothers k hk]

theorem set {o old : Organization} (hold : t.find? o.organizationId = some old) (hs : o.status = old.status) :
    SameExcept o.organizationId t (t.set o) := by
  refine of_others (fun _ hk => Table.find?_set_ne hk) ?_
  rw [ArchivedIn, ArchivedIn, Table.find?_set_self hold, hold]
  simp [hs]

theorem insert {o : Organization} (h : t.insertOr SqlError.uniqueViolation o = .ok t') (hs : o.status = .active) :
    SameExcept o.organizationId t t' := by
  refine of_others (fun k hk => by rw [Table.find?_of_insertOr h, if_neg hk]) ?_
  rw [ArchivedIn, ArchivedIn, Table.find?_of_insertOr h, if_pos rfl, (Table.insertOr_eq_ok h).1]
  simp [hs]

end SameExcept

theorem sameExcept_of_setOwnerCount {st : Statement} {id : Uuid} {org : Organization} {n : Nat}
    (horg : st.db.organizations.find? id = some org) :
    SameExcept id st.db.organizations (st.setOwnerCount org n).db.organizations := by
  have hid : org.organizationId = id := (Table.find?_eq_some.1 horg).2
  rw [← hid] at horg ⊢
  have hset : SameExcept org.organizationId st.db.organizations
      (st.db.organizations.set { org with ownerCount := n }) := .set (o := { org with ownerCount := n }) horg rfl
  exact hset

theorem sameExcept_of_adjustOwnerCount {st st' : Statement} {e : RowEvent} (h : st.adjustOwnerCount e = .ok st') :
    SameExcept e.target.organizationId st.db.organizations st'.db.organizations := by
  unfold Statement.adjustOwnerCount at h
  split at h
  · split at h
    · rename_i horg
      split at h
      · cases h; exact sameExcept_of_setOwnerCount horg
      · cases h
    · cases h
  · split at h
    · split at h
      · rename_i horg
        cases h; exact sameExcept_of_setOwnerCount horg
      · cases h
    · cases h; exact .refl _

/-- A statement about one organization: it has written no other, and its queued events are about it. -/
structure Statement.Within (db : Db) (id : Uuid) (st : Statement) : Prop where
  organizations : SameExcept id db.organizations st.db.organizations
  events : ∀ e ∈ st.afterRows, e.target.organizationId = id

namespace Statement.Within
variable {db db' : Db} {id : Uuid} {st st' : Statement}

theorem adjustOwnerCount {e : RowEvent} (h : st.Within db id) (hs : st.adjustOwnerCount e = .ok st')
    (he : e.target.organizationId = id) : st'.Within db id :=
  ⟨h.organizations.trans (he ▸ sameExcept_of_adjustOwnerCount hs),
    by rw [(recounted_of_adjustOwnerCount hs).afterRows]; exact h.events⟩

theorem writeMembership {e : RowEvent} {memberships : Table Membership.key} (h : st.Within db id)
    (he : e.target.organizationId = id) : (st.writeMembership memberships e).Within db id := by
  refine ⟨h.organizations, fun e' he' => ?_⟩
  rcases List.mem_append.1 he' with he' | he'
  · exact h.events e' he'
  · rw [List.mem_singleton.1 he']
    exact he

theorem updateMembership {old new : Membership} (h : st.Within db id) (hs : st.updateMembership old new = .ok st')
    (hnew : new.organizationId = id) : st'.Within db id := by
  obtain ⟨st₁, h₁, rfl⟩ := updateMembership_eq_ok hs
  exact (h.adjustOwnerCount h₁ hnew).writeMembership hnew

theorem updateMemberships {f : Membership → Membership} : ∀ {ms : List Membership} {st st' : Statement},
    st.Within db id → (∀ m ∈ ms, (f m).organizationId = id) → Statement.updateMemberships f ms st = .ok st' →
      st'.Within db id
  | [], _, _, h, _, hs => by cases hs; exact h
  | m :: ms, _, _, h, hms, hs => by
    obtain ⟨st₁, h₁, hs⟩ := bind_eq_ok.1 hs
    exact updateMemberships (h.updateMembership h₁ (hms m (by simp))) (fun x hx => hms x (by simp [hx])) hs

theorem upsertMembership {proposed : Membership} (h : st.Within db id) (hp : proposed.organizationId = id)
    (hs : st.upsertMembership proposed = .ok st') : st'.Within db id := by
  unfold Statement.upsertMembership at hs
  split at hs
  · obtain ⟨st₁, _, h₁, -, rfl⟩ := insertMembership_eq_ok hs
    exact (h.adjustOwnerCount h₁ hp).writeMembership hp
  · rename_i old hfind
    obtain ⟨st₁, h₁, hs⟩ := bind_eq_ok.1 hs
    have hold : old.organizationId = proposed.organizationId :=
      congrArg Prod.fst (Table.find?_eq_some.1 hfind).2
    exact (h.adjustOwnerCount h₁ hp).updateMembership hs (hold.trans hp)

theorem modify {f : Db → Db} (h : st.Within db id) (hf : SameExcept id st.db.organizations (f st.db).organizations) :
    (st.modify f).Within db id :=
  ⟨h.organizations.trans hf, h.events⟩

end Statement.Within

section Commit
variable {db db' : Db} {id : Uuid} {st : Statement}

theorem sameExcept_of_track {outboxId : Uuid} {e : RowEvent}
    (h : db.trackMembershipAuthorization outboxId e = .ok db') :
    SameExcept e.target.organizationId db.organizations db'.organizations := by
  rcases track_cases h with rfl | ⟨org, _, horg, -, rfl⟩
  · exact .refl _
  · have hid : org.organizationId = e.target.organizationId := (Table.find?_eq_some.1 horg).2
    rw [← hid] at horg ⊢
    exact .set (o := { org with authorizationRevision := org.authorizationRevision + 1 }) horg rfl

theorem sameExcept_of_fire {es : List RowEvent} {uuids : Nat → Uuid} (he : ∀ e ∈ es, e.target.organizationId = id)
    (h : db.fireAfterRows uuids es = .ok db') : SameExcept id db.organizations db'.organizations :=
  fire_induction (R := fun db db' => SameExcept id db.organizations db'.organizations) (fun _ => .refl _) .trans
    (fun e hmem {_ _ _} h => he e hmem ▸ sameExcept_of_track h) h

theorem Statement.Within.commit {uuids : Nat → Uuid} (h : st.Within db id) (hc : st.commit uuids = .ok db') :
    SameExcept id db.organizations db'.organizations :=
  h.organizations.trans (sameExcept_of_fire h.events (commit_eq_ok hc).1)

/-- Memberships of several organizations may be switched by one statement; none of these changes its status. -/
theorem archivedIn_of_updateMemberships {f : Membership → Membership} {k : Uuid} : ∀ {ms : List Membership}
    {st st' : Statement}, Statement.updateMemberships f ms st = .ok st' →
      (ArchivedIn st'.db.organizations k ↔ ArchivedIn st.db.organizations k)
  | [], _, _, h => by cases h; exact Iff.rfl
  | m :: ms, st, _, h => by
    obtain ⟨st₁, h₁, h⟩ := bind_eq_ok.1 h
    obtain ⟨st₂, h₂, rfl⟩ := updateMembership_eq_ok h₁
    exact (archivedIn_of_updateMemberships h).trans ((sameExcept_of_adjustOwnerCount h₂).archived k)

theorem archivedIn_of_fire {k : Uuid} {es : List RowEvent} {uuids : Nat → Uuid}
    (h : db.fireAfterRows uuids es = .ok db') : ArchivedIn db'.organizations k ↔ ArchivedIn db.organizations k :=
  fire_induction (R := fun db db' => ArchivedIn db'.organizations k ↔ ArchivedIn db.organizations k) (fun _ => Iff.rfl)
    (fun h h' => h'.trans h) (fun _ _ {_ _ _} h => (sameExcept_of_track h).archived k) h

theorem within_start (id : Uuid) (db : Db) : Statement.Within db id { db := db } := ⟨.refl _, by simp⟩

end Commit

/-! ## Invitations -/

section Invitations
variable {db db' : Db}

def Invitation.acceptedRow (i : Invitation) (nowMs : Int) (user : Uuid) : Invitation :=
  { i with status := .accepted, acceptedAtMs := some nowMs, acceptedBy := some user }

def Db.invitationTokenOf (tokenHash : Bytes) (db : Db) : Option OneTimeToken :=
  (db.oneTimeTokens.find? tokenHash).filter fun t => decide (t.purpose = .invitation ∧ t.consumedAtMs = none)

/-- All that `accept_invitation.sql` can do. -/
inductive Acceptance (p : AcceptInvitation) (db : Db) : Option OrganizationView → Db → Prop
  | refused (h : ∀ session user, db.liveSession p.sessionId p.nowMs = some (session, user) →
      db.eligibleInvitation session user p.tokenHash p.nowMs = none) : Acceptance p db none db
  /-- The invitation is taken although its token is missing or consumed. -/
  | untokened {session : Session} {user : User} {invitation : Invitation}
      (hlive : db.liveSession p.sessionId p.nowMs = some (session, user))
      (hinv : db.eligibleInvitation session user p.tokenHash p.nowMs = some invitation)
      (htoken : db.invitationTokenOf p.tokenHash = none) :
      Acceptance p db none (db.setInvitation (invitation.acceptedRow p.nowMs user.userId))
  | accepted {session : Session} {user : User} {invitation : Invitation} {token : OneTimeToken} {org : Organization}
      {organizations : Table Organization.organizationId} {memberships : Table Membership.key}
      {outbox : Table OutboxRow.outboxId}
      (hlive : db.liveSession p.sessionId p.nowMs = some (session, user))
      (hinv : db.eligibleInvitation session user p.tokenHash p.nowMs = some invitation)
      (htoken : db.invitationTokenOf p.tokenHash = some token)
      (horg : db.activeOrganization invitation.organizationId = some org)
      (hm : Upserted (invitedMembership invitation user.userId p.nowMs) db.memberships memberships)
      (ho : SameExcept invitation.organizationId db.organizations organizations) :
      Acceptance p db (some (.of org invitation.roleId db))
        { db.selectOrganizationIn session.sessionId user.userId invitation.organizationId with
          invitations := db.invitations.set (invitation.acceptedRow p.nowMs user.userId)
          oneTimeTokens := db.oneTimeTokens.set { token with consumedAtMs := some p.nowMs }
          memberships := memberships
          organizations := organizations
          outbox := outbox }

/-- An eligible invitation is pending, of an active organization and for the caller's email. -/
theorem eligibleInvitation_eq_some {session : Session} {user : User} {tokenHash : Bytes} {nowMs : Int} {i : Invitation}
    (h : db.eligibleInvitation session user tokenHash nowMs = some i) :
    i ∈ db.invitations ∧ i.tokenHash = tokenHash ∧ i.normalizedEmail = user.normalizedEmail ∧
      (db.activeOrganization i.organizationId).isSome ∧ i.status = .pending ∧ nowMs < i.expiresAtMs ∧
        (i.roleId = "owner" → session.assurance.stepped = true) := by
  obtain ⟨hfind, hi⟩ := Option.filter_eq_some_iff.1 h
  have hhash : i.tokenHash = tokenHash := by simpa using List.find?_some hfind
  simp only [Bool.and_eq_true, Bool.or_eq_true, decide_eq_true_eq] at hi
  obtain ⟨⟨⟨⟨hemail, horg⟩, hstatus⟩, hexp⟩, hrole⟩ := hi
  refine ⟨List.mem_of_find?_eq_some hfind, hhash, hemail, horg, hstatus, hexp, fun howner => ?_⟩
  exact hrole.resolve_left fun hne => hne.1 howner

/-- The outcomes of `accept_invitation.sql`. -/
theorem acceptInvitation_cases {p r} (h : acceptInvitation p db = .ok (r, db')) : Acceptance p db r db' := by
  unfold acceptInvitation at h
  split at h
  · rename_i hnone
    cases h
    exact .refused fun _ _ hlive => by simp [hnone] at hlive
  · rename_i session user hlive
    split at h
    · rename_i hnone
      cases h
      refine .refused fun s u hlive' => ?_
      cases hlive.symm.trans hlive'
      exact hnone
    · rename_i invitation hinv
      obtain ⟨-, -, -, horg, -⟩ := eligibleInvitation_eq_some hinv
      obtain ⟨org, horg⟩ := Option.isSome_iff_exists.1 horg
      obtain ⟨hfind, -⟩ := Option.filter_eq_some_iff.1 horg
      dsimp only at h
      split at h
      · rename_i token org' htoken horg'
        cases hfind.symm.trans horg'
        obtain ⟨st, hst, h⟩ := bind_eq_ok.1 h
        obtain ⟨db₁, hc, h⟩ := bind_eq_ok.1 h
        cases h
        have hwithin : st.Within db invitation.organizationId :=
          Statement.Within.upsertMembership ⟨.refl _, by simp⟩ rfl hst
        have hsame := (hwithin.modify (f := (·.selectOrganizationIn session.sessionId user.userId
          invitation.organizationId)) (.refl _)).commit hc
        obtain ⟨_, memberships, hdb, hm⟩ := upsertMembership_others hst
        obtain ⟨organizations, outbox, rfl⟩ := commit_others hc
        have hrow := @Acceptance.accepted p db session user invitation token org organizations memberships outbox hlive
          hinv htoken horg hm hsame
        simp only [Statement.modify, hdb, Db.selectOrganizationIn, Db.updateSessions, Db.setInvitation] at hrow ⊢
        exact hrow
      · rename_i hno
        cases h
        refine .untokened hlive hinv ?_
        cases htoken : db.invitationTokenOf p.tokenHash with
        | none => rfl
        | some token => exact absurd hfind (hno token org htoken)

end Invitations

/-! ## Memberships -/

section Memberships
variable {db db' : Db}

/-- One membership row of the organization is rewritten, and the triggers run. -/
structure Rewritten (new : Membership) (db db' : Db) : Prop where
  organizations : SameExcept new.organizationId db.organizations db'.organizations
  others : ∃ outbox, db' =
    { db with organizations := db'.organizations, memberships := db.memberships.set new, outbox := outbox }

theorem rewritten_of_commit {st : Statement} {old new : Membership} {uuids : Nat → Uuid}
    (hst : Statement.updateMembership old new { db := db } = .ok st) (hc : st.commit uuids = .ok db') :
    Rewritten new db db' := by
  refine ⟨((within_start _ db).updateMembership hst rfl).commit hc, ?_⟩
  obtain ⟨_, hdb⟩ := updateMembership_others hst
  obtain ⟨organizations, outbox, rfl⟩ := commit_others hc
  exact ⟨outbox, by rw [hdb]⟩

/-- The outcomes of `assign_membership_role.sql`. -/
theorem assignMembershipRole_cases {p r} (h : assignMembershipRole p db = .ok (r, db')) : r = none ∧ db' = db ∨
      ∃ session user actor org target role,
        db.permittedActor p.sessionId p.organizationId "member.manage" p.nowMs = some (session, user, actor) ∧
          db.activeOrganization p.organizationId = some org ∧
            db.activeMembership p.organizationId p.userId = some target ∧
              db.roles.find? (p.organizationId, p.roleId) = some role ∧
                db.mayAssign target role.roleId
                  (db.hasPermission p.organizationId actor.roleId "ownership.transfer") = true ∧
                  Rewritten { target with roleId := role.roleId, updatedAtMs := p.nowMs } db db' := by
  unfold assignMembershipRole at h
  split at h
  · rename_i session user actor org target role hactor horg htarget hrole
    split at h
    · rename_i hmay
      obtain ⟨st, hst, h⟩ := bind_eq_ok.1 h
      obtain ⟨db₁, hc, h⟩ := bind_eq_ok.1 h
      cases h
      exact .inr ⟨session, user, actor, org, target, role, hactor, horg, htarget, hrole, hmay,
        rewritten_of_commit hst hc⟩
    · cases h; exact .inl ⟨rfl, rfl⟩
  · cases h; exact .inl ⟨rfl, rfl⟩

/-- A membership is removed, and its user's sessions leave the organization. -/
structure Removed (target : Membership) (nowMs : Int) (db db' : Db) : Prop where
  organizations : SameExcept target.organizationId db.organizations db'.organizations
  others : ∃ outbox, db' =
    { db.clearUserSessions target.userId target.organizationId with
      organizations := db'.organizations
      memberships := db.memberships.set { target with status := .removed, updatedAtMs := nowMs }
      outbox := outbox }

theorem removeMember_cases {target : Membership} {nowMs : Int} {uuids : Nat → Uuid}
    (h : removeMember target nowMs uuids db = .ok db') : Removed target nowMs db db' := by
  obtain ⟨st, hst, hc⟩ := bind_eq_ok.1 h
  have hwithin : st.Within db target.organizationId := (within_start _ db).updateMembership hst rfl
  refine ⟨(hwithin.modify (f := (·.clearUserSessions target.userId target.organizationId)) (.refl _)).commit hc, ?_⟩
  obtain ⟨_, hdb⟩ := updateMembership_others hst
  obtain ⟨organizations, outbox, rfl⟩ := commit_others hc
  refine ⟨outbox, ?_⟩
  simp only [Statement.modify, hdb, Db.clearUserSessions, Db.clearSessions, Db.updateSessions]

/-- The outcomes of `remove_membership.sql`. -/
theorem removeMembership_cases {p r} (h : removeMembership p db = .ok (r, db')) : r = none ∧ db' = db ∨
      ∃ session user actor org target,
        db.permittedActor p.sessionId p.organizationId "member.manage" p.nowMs = some (session, user, actor) ∧
          db.activeOrganization p.organizationId = some org ∧
            db.activeMembership p.organizationId p.userId = some target ∧ Removed target p.nowMs db db' := by
  unfold removeMembership at h
  split at h
  · rename_i session user actor org target hactor horg htarget
    split at h
    · obtain ⟨db₁, hr, h⟩ := bind_eq_ok.1 h
      cases h
      exact .inr ⟨session, user, actor, org, target, hactor, horg, htarget, removeMember_cases hr⟩
    · cases h; exact .inl ⟨rfl, rfl⟩
  · cases h; exact .inl ⟨rfl, rfl⟩

/-- The outcomes of `leave_organization.sql`. -/
theorem leaveOrganization_cases {p r} (h : leaveOrganization p db = .ok (r, db')) : r = none ∧ db' = db ∨
      ∃ session user target org, db.memberActor p.sessionId p.organizationId p.nowMs = some (session, user, target) ∧
        db.activeOrganization p.organizationId = some org ∧ Removed target p.nowMs db db' := by
  unfold leaveOrganization at h
  split at h
  · rename_i session user target org hactor horg
    split at h
    · obtain ⟨db₁, hr, h⟩ := bind_eq_ok.1 h
      cases h
      exact .inr ⟨session, user, target, org, hactor, horg, removeMember_cases hr⟩
    · cases h; exact .inl ⟨rfl, rfl⟩
  · cases h; exact .inl ⟨rfl, rfl⟩

/-- The rows a transfer writes: the new owner and, when the actor was one, the former. -/
def TransferOwnership.memberships (p : TransferOwnership) (target actor : Membership) (t : Table Membership.key) :
    Table Membership.key :=
  let promoted := t.set { target with roleId := "owner", updatedAtMs := p.nowMs }
  if actor.roleId = "owner" then promoted.set { actor with roleId := "admin", updatedAtMs := p.nowMs } else promoted

theorem permittedActor_eq_some {sessionId organization : Uuid} {permission : String} {nowMs : Int} {session : Session}
    {user : User} {actor : Membership}
    (h : db.permittedActor sessionId organization permission nowMs = some (session, user, actor)) :
    db.memberActor sessionId organization nowMs = some (session, user, actor) ∧ session.assurance.stepped = true ∧
      db.hasPermission organization actor.roleId permission = true := by
  obtain ⟨hactor, hok⟩ := Option.filter_eq_some_iff.1 h
  simp only [Bool.and_eq_true] at hok
  exact ⟨hactor, hok⟩

theorem organizationId_of_memberActor {sessionId organization : Uuid} {nowMs : Int} {session : Session} {user : User}
    {actor : Membership} (h : db.memberActor sessionId organization nowMs = some (session, user, actor)) :
    actor ∈ db.memberships ∧ actor.organizationId = organization ∧ actor.userId = session.userId ∧
      actor.status = .active := by
  obtain ⟨hmem, hkey, hact⟩ := activeMembership_eq_some (memberActor_eq_some h).2
  exact ⟨hmem, congrArg Prod.fst hkey, congrArg Prod.snd hkey, hact⟩

/-- The outcomes of `transfer_ownership.sql`. -/
theorem transferOwnership_cases {p r} (h : transferOwnership p db = .ok (r, db')) : r = none ∧ db' = db ∨
      ∃ session user actor org target outbox,
        db.permittedActor p.sessionId p.organizationId "ownership.transfer" p.nowMs = some (session, user, actor) ∧
          session.userId ≠ p.userId ∧ db.activeOrganization p.organizationId = some org ∧
            db.activeMembership p.organizationId p.userId = some target ∧
              SameExcept p.organizationId db.organizations db'.organizations ∧
                db' = { db with
                  organizations := db'.organizations
                  memberships := p.memberships target actor db.memberships
                  outbox := outbox } := by
  unfold transferOwnership at h
  split at h
  · rename_i session user actor org target hactor horg htarget
    obtain ⟨hactor, hother⟩ := Option.filter_eq_some_iff.1 hactor
    obtain ⟨st₁, h₁, h⟩ := bind_eq_ok.1 h
    obtain ⟨st₂, h₂, h⟩ := bind_eq_ok.1 h
    obtain ⟨db₁, hc, h⟩ := bind_eq_ok.1 h
    cases h
    have htargetOrg : target.organizationId = p.organizationId :=
      congrArg Prod.fst (activeMembership_eq_some htarget).2.1
    have hactorOrg := (organizationId_of_memberActor (permittedActor_eq_some hactor).1).2.1
    have hpromoted : st₁.Within db p.organizationId := (within_start _ db).updateMembership h₁ htargetOrg
    obtain ⟨_, hdb₁⟩ := updateMembership_others h₁
    have hdemoted : st₂.Within db p.organizationId ∧ ∃ organizations, st₂.db =
        { db with
          organizations := organizations
          memberships := p.memberships target actor db.memberships } := by
      unfold Statement.demoteOwner at h₂
      unfold TransferOwnership.memberships
      split at h₂
      · obtain ⟨organizations, hdb₂⟩ := updateMembership_others h₂
        refine ⟨hpromoted.updateMembership h₂ hactorOrg, organizations, ?_⟩
        rw [hdb₂, hdb₁, if_pos ‹_›]
      · cases h₂
        exact ⟨hpromoted, _, by rw [hdb₁, if_neg ‹_›]⟩
    obtain ⟨hwithin, _, hdb₂⟩ := hdemoted
    have hsame := hwithin.commit hc
    obtain ⟨organizations, outbox, rfl⟩ := commit_others hc
    exact .inr ⟨session, user, actor, org, target, outbox, hactor, by simpa using hother, horg, htarget, hsame,
      by rw [hdb₂]⟩
  · cases h; exact .inl ⟨rfl, rfl⟩

end Memberships

/-! ## Organizations -/

section Organizations
variable {db db' : Db}

/-- The organization once the triggers of the owner's membership have counted the owner and moved the revision. -/
def CreateOrganization.ownedRow (p : CreateOrganization) (createdBy : Uuid) : Organization :=
  { p.organization createdBy with authorizationRevision := 2, ownerCount := 1 }

/-- The intent that `auth_track_membership_authorization` writes for the owner's membership. -/
def CreateOrganization.ownerIntent (p : CreateOrganization) (user : Uuid) : OutboxRow :=
  intentRow (p.uuids 0) p.organizationId user 2 .grant p.nowMs

def builtInRoleRows (organization : Uuid) : List Role :=
  builtInRoles.map fun (roleId, name) =>
    { organizationId := organization, roleId := roleId, name := name, builtIn := true }

def builtInPermissionRows (organization : Uuid) : List RolePermission :=
  builtInPermissions.map fun (roleId, permission) => ⟨organization, roleId, permission⟩

/-- `create_organization.sql` has founded an organization: each row it writes and each row its triggers write, with
nothing changed in the other tables but the organization that the founder's session selects. -/
structure Founded (p : CreateOrganization) (session : Session) (user : User) (view : OrganizationView)
    (db db' : Db) : Prop where
  live : db.liveSession p.sessionId p.nowMs = some (session, user)
  fresh : db.idempotency.find? p.idempotencyKey = none
  slug : ∀ org ∈ db.organizations, org.slug ≠ p.slug
  organization : db.organizations.find? p.organizationId = none
  organizations : SameExcept p.organizationId db.organizations db'.organizations
  owned : db'.organizations.find? p.organizationId = some (p.ownedRow user.userId)
  roles : db.roles.insertAllOr SqlError.uniqueViolation (builtInRoleRows p.organizationId) = .ok db'.roles
  rolePermissions : db.rolePermissions.insertAllOr SqlError.uniqueViolation
    (builtInPermissionRows p.organizationId) = .ok db'.rolePermissions
  memberships : db.memberships.insertOr SqlError.uniqueViolation (p.owner user.userId) = .ok db'.memberships
  idempotency : db.idempotency.insertOr SqlError.uniqueViolation p.idempotencyRow = .ok db'.idempotency
  outbox : db.insertOutboxOnce (p.ownerIntent user.userId) = .ok { db with outbox := db'.outbox }
  view : view = .of (p.organization user.userId) "owner" db'
  others : db' = { db.selectOrganizationIn session.sessionId user.userId p.organizationId with
    organizations := db'.organizations
    roles := db'.roles
    rolePermissions := db'.rolePermissions
    memberships := db'.memberships
    idempotency := db'.idempotency
    outbox := db'.outbox }

/-- The outcomes of `create_organization.sql`: a replay, a refusal, or a new organization. -/
theorem createOrganization_cases {p r} (h : createOrganization p db = .ok (r, db')) :
    (∃ row, db.idempotency.find? p.idempotencyKey = some row ∧ db' = db ∧
      r = if row.operation = .createOrganization ∧ row.actorKey = p.sessionId.text ∧ row.requestHash = p.requestHash
        then replayOrganization p row db else .idempotencyConflict) ∨
      db.idempotency.find? p.idempotencyKey = none ∧ db' = db ∧ (r = .slugConflict ∨ r = .unauthorized) ∨
        ∃ session user view, r = .created view ∧ Founded p session user view db db' := by
  unfold createOrganization at h
  split at h
  · rename_i row hrow
    split at h
    · rename_i hsame
      cases h
      exact .inl ⟨row, hrow, rfl, by rw [if_pos hsame]⟩
    · rename_i hother
      cases h
      exact .inl ⟨row, hrow, rfl, by rw [if_neg hother]⟩
  · rename_i hfresh
    split at h
    · cases h; exact .inr (.inl ⟨hfresh, rfl, .inl rfl⟩)
    · rename_i hslug
      split at h
      · cases h; exact .inr (.inl ⟨hfresh, rfl, .inr rfl⟩)
      · rename_i session user hlive
        obtain ⟨st₁, h₁, h⟩ := bind_eq_ok.1 h
        obtain ⟨st₂, h₂, h⟩ := bind_eq_ok.1 h
        obtain ⟨idempotency, hidem, h⟩ := bind_eq_ok.1 h
        obtain ⟨db₃, hc, h⟩ := bind_eq_ok.1 h
        cases h
        obtain ⟨organizations, horgs, h₁⟩ := bind_eq_ok.1 h₁
        obtain ⟨roles, hroles, h₁⟩ := bind_eq_ok.1 h₁
        obtain ⟨rolePermissions, hpermissions, h₁⟩ := bind_eq_ok.1 h₁
        cases h₁
        have hstart : Statement.Within db p.organizationId
            { db := { db with organizations := organizations, roles := roles, rolePermissions := rolePermissions }
              ownerChecks := [p.organizationId] } :=
          ⟨.insert (o := p.organization user.userId) horgs rfl, by simp⟩
        have hwithin : st₂.Within db p.organizationId := by
          obtain ⟨st', _, hadj, -, rfl⟩ := insertMembership_eq_ok h₂
          exact (hstart.adjustOwnerCount hadj rfl).writeMembership rfl
        have hinserted : organizations.find? p.organizationId = some (p.organization user.userId) := by
          rw [Table.find?_of_insertOr horgs p.organizationId]
          exact if_pos rfl
        obtain ⟨_, memberships, hmem, hdb⟩ := insertMembership_others h₂
        have houtbox : st₂.db.outbox = db.outbox := by rw [hdb]
        have hrows : db'.organizations.find? p.organizationId = some (p.ownedRow user.userId) ∧
            db.insertOutboxOnce (p.ownerIntent user.userId) = .ok { db with outbox := db'.outbox } :=
          owned_of_commit h₂ hc (by rfl) rfl hinserted rfl rfl houtbox
        have hsame := Statement.Within.commit (hwithin.modify (f := fun db =>
          { db.selectOrganizationIn session.sessionId user.userId p.organizationId with idempotency := idempotency })
          (.refl _)) hc
        obtain ⟨organizations', outbox, rfl⟩ := commit_others hc
        simp only [Statement.modify, hdb] at hsame ⊢
        refine .inr (.inr ⟨session, user, _, rfl, hlive, hfresh, fun org ho hs => ?_, (Table.insertOr_eq_ok horgs).1,
          hsame, hrows.1, hroles, hpermissions, hmem, hidem, hrows.2, rfl, rfl⟩)
        exact hslug (List.any_eq_true.2 ⟨org, ho, by simp [hs]⟩)

end Organizations

/-! ## Roles -/

section Roles
variable {db db' : Db}

theorem sameExcept_bump (db : Db) (id : Uuid) :
    SameExcept id db.organizations (db.bumpAuthorizationRevision id).organizations := by
  refine .of_others (fun k hk => ?_) ?_
  · rw [Db.bumpAuthorizationRevision, Table.find?_update]
    cases hfind : db.organizations.find? k with
    | none => rfl
    | some o => simp [(Table.find?_eq_some.1 hfind).2, hk]
  · rw [ArchivedIn, ArchivedIn, Db.bumpAuthorizationRevision, Table.find?_update]
    cases hfind : db.organizations.find? id with
    | none => simp
    | some o => simp [(Table.find?_eq_some.1 hfind).2]

def DeleteRole.formerMembers (p : DeleteRole) (db : Db) : List Membership :=
  db.memberships.rows.filter fun m =>
    decide (m.organizationId = p.organizationId ∧ m.roleId = p.roleId) && !m.isActive

def DeleteRole.reassign (p : DeleteRole) (m : Membership) : Membership :=
  { m with roleId := "member", updatedAtMs := p.nowMs }

/-- The outcomes of `delete_role.sql`. -/
theorem deleteRole_cases {p r} (h : deleteRole p db = .ok (r, db')) : db' = db ∨
      ∃ session user actor org role outbox,
        db.permittedActor p.sessionId p.organizationId "role.manage" p.nowMs = some (session, user, actor) ∧
          db.activeOrganization p.organizationId = some org ∧
            db.roles.find? (p.organizationId, p.roleId) = some role ∧ role.builtIn = false ∧
              SameExcept p.organizationId db.organizations db'.organizations ∧
                db' = { ((db.retargetInvitations p.organizationId p.roleId).deleteRolePermissions
                    p.organizationId p.roleId) with
                  roles := db.roles.delete fun r => decide (r.key = (p.organizationId, p.roleId))
                  organizations := db'.organizations
                  memberships := (p.formerMembers db).foldl (fun t m => t.set (p.reassign m)) db.memberships
                  outbox := outbox } := by
  unfold deleteRole at h
  split at h
  · rename_i hactor horg hrole
    obtain ⟨hrole, hcustom⟩ := Option.filter_eq_some_iff.1 hrole
    dsimp only at h
    split at h
    · obtain ⟨st, hst, h⟩ := bind_eq_ok.1 h
      obtain ⟨db₁, hc, h⟩ := bind_eq_ok.1 h
      cases h
      have hwithin : st.Within db p.organizationId := by
        refine (within_start _ db).updateMemberships (fun m hm => ?_) hst
        have hm := (List.mem_filter.1 hm).2
        simp only [Bool.and_eq_true, decide_eq_true_eq] at hm
        exact hm.1.1
      obtain ⟨_, hdb⟩ := updateMemberships_others hst
      have hsame := Statement.Within.commit (hwithin.modify (by exact sameExcept_bump _ _)) hc
      obtain ⟨organizations, outbox, rfl⟩ := commit_others hc
      refine .inr ⟨_, _, _, _, _, outbox, hactor, horg, hrole, by simpa using hcustom, hsame, ?_⟩
      simp only [Statement.modify, hdb, Db.bumpAuthorizationRevision, Db.deleteRolePermissions,
        Db.retargetInvitations]
      rfl
    · cases h; exact .inl rfl
  · cases h; exact .inl rfl

end Roles

/-! ## The disable switch -/

section Disable
variable {db db' : Db}

def SetUserDisabled.switched (p : SetUserDisabled) (db : Db) : List Membership :=
  db.memberships.rows.filter fun m => decide (m.userId = p.userId ∧ (m.status = .active ∨ m.status = .blocked))

def SetUserDisabled.switch (p : SetUserDisabled) (m : Membership) : Membership :=
  { m with status := m.status.switch p.disabled, updatedAtMs := p.nowMs }

def SetUserDisabled.stop (p : SetUserDisabled) (s : Session) : Session :=
  { s with
    revokedAtMs := if p.disabled then some p.nowMs else s.revokedAtMs
    sessionRevision := s.sessionRevision + 1 }

theorem SetUserDisabled.stop_sessionId (p : SetUserDisabled) (s : Session) : (p.stop s).sessionId = s.sessionId := rfl

def SetUserDisabled.switchUser (p : SetUserDisabled) (user : User) : User :=
  { user with status := if p.disabled then .disabled else .active, securityRevision := user.securityRevision + 1 }

theorem SetUserDisabled.switch_key (p : SetUserDisabled) (m : Membership) : (p.switch m).key = m.key := rfl

def SetUserDisabled.switchAll (p : SetUserDisabled) (t : Table Membership.key) : Table Membership.key :=
  t.update (fun m => decide (m.userId = p.userId ∧ (m.status = .active ∨ m.status = .blocked))) p.switch
    p.switch_key

/-- The outcomes of `set_user_disabled.sql`. -/
theorem setUserDisabled_cases {p r} (h : setUserDisabled p db = .ok (r, db')) : r = none ∧ db' = db ∨
      ∃ user, r = some (p.switchUser user) ∧ db.users.find? p.userId = some user ∧
        (p.disabled = true → db.mayDisable p.userId = true) ∧
          (∀ k, ArchivedIn db'.organizations k ↔ ArchivedIn db.organizations k) ∧
            db' = { db with
              users := db.users.set (p.switchUser user)
              sessions := db.sessions.update
                (fun s => decide (s.userId = p.userId) && (p.disabled || s.revokedAtMs.isNone)) p.stop
                p.stop_sessionId
              organizations := db'.organizations
              memberships := p.switchAll db.memberships
              outbox := db'.outbox } := by
  unfold setUserDisabled at h
  split at h
  · rename_i user _ hlocked
    obtain ⟨hfind, hguard⟩ := Option.filter_eq_some_iff.1 hlocked
    obtain ⟨st, hst, h⟩ := bind_eq_ok.1 h
    obtain ⟨db₁, hc, h⟩ := bind_eq_ok.1 h
    cases h
    have harchived : ∀ k, ArchivedIn db'.organizations k ↔ ArchivedIn db.organizations k := fun k =>
      (archivedIn_of_fire (commit_eq_ok hc).1).trans (archivedIn_of_updateMemberships hst)
    have hrows : (p.switched db).foldl (fun t m => t.set (p.switch m)) db.memberships = p.switchAll db.memberships :=
      Table.foldl_set_eq_update p.switch_key (.refl _)
    obtain ⟨_, hdb⟩ := updateMemberships_others hst
    obtain ⟨organizations, outbox, rfl⟩ := commit_others hc
    refine .inr ⟨user, rfl, hfind, fun hd => ?_, harchived, ?_⟩
    · simpa [hd] using (Bool.and_eq_true_iff.1 hguard).2
    · rw [← hrows]
      simp only [Statement.modify, hdb, Db.setUser, Db.updateSessions]
      rfl
  · cases h; exact .inl ⟨rfl, rfl⟩

end Disable

end WasiAuth
