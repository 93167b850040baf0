import Mathlib.Logic.Relation
import WasiAuth.Postgres.Quiet

/-! # Statements that write memberships, and what any command can do

A statement that writes `auth_memberships` is a sequence of `Statement.Step`s from the snapshot, followed
by its commit. `step_changes` sorts the commands into the three kinds every invariant is proved for:

| kind | commands |
|---|---|
| `Delivery` | lease, complete and retry of the outbox |
| `Changes.routine` | all others that leave memberships alone (`Quiet.lean`) |
| `Changes.statement` | create, accept, assign, remove, leave, transfer, delete role, disable or enable |

The steps of a statement name one irregularity. An upsert that meets a row fires the `BEFORE INSERT`
trigger for a row that is then not inserted (`Step.propose`); `clean` excludes the case in which that
proposed row is an owner.
-/

namespace WasiAuth

open Relational Relation

/-- A step of a statement that writes memberships. -/
inductive Statement.Step (clean : Prop) : Statement → Statement → Prop
  | routine {st : Statement} {db' : Db} (h : Routine st.db db') : Step clean st { st with db := db' }
  | create {db : Db} {st' : Statement} {org : Organization} (hn : org.ownerCount = 0)
      (h : insertOrganization org db = .ok st') : Step clean { db := db } st'
  | insert {st st' : Statement} {new : Membership} {org : Organization}
      (horg : st.db.organizations.find? new.organizationId = some org)
      (h : st.insertMembership new = .ok st') : Step clean st st'
  | update {st st' : Statement} {old new : Membership} (h : st.updateMembership old new = .ok st')
      (hold : old ∈ st.db.memberships) (hkey : new.key = old.key)
      (hfresh : ∀ e ∈ st.afterRows, e.target.key ≠ new.key) : Step clean st st'
  | propose {st st' : Statement} {new : Membership} (hclean : clean → new.isOwner = false)
      (h : st.adjustOwnerCount (.insert new) = .ok st') : Step clean st st'

structure OutboxRow.Redelivered (row row' : OutboxRow) : Prop where
  outboxId : row'.outboxId = row.outboxId
  deduplicationKey : row'.deduplicationKey = row.deduplicationKey
  payload : row'.payload = row.payload

theorem OutboxRow.Redelivered.trans {a b c : OutboxRow} (h : a.Redelivered b) (h' : b.Redelivered c) :
    a.Redelivered c :=
  ⟨h'.outboxId.trans h.outboxId, h'.deduplicationKey.trans h.deduplicationKey, h'.payload.trans h.payload⟩

/-- Lease, complete and retry rewrite delivery columns of outbox rows. -/
structure Delivery (db db' : Db) : Prop where
  others : db' = { db with outbox := db'.outbox }
  rows : ∃ f : OutboxRow → OutboxRow, db'.outbox.rows = db.outbox.rows.map f ∧
    ∀ row : OutboxRow, row.Redelivered (f row)

def Command.isDelivery : Command → Bool
  | .leaseOutbox _ | .completeOutbox _ | .retryOutbox _ => true
  | _ => false

/-- What a command changes of the tenants. -/
inductive Changes (clean : Prop) (db db' : Db) : Prop
  | routine (h : Routine db db')
  | statement {st : Statement} {uuids : Nat → Uuid} (hw : ReflTransGen (Statement.Step clean) { db := db } st)
      (hc : st.commit uuids = .ok db')

/-- An `accept_invitation` that takes an owner invitation of an organization its user already has a row
in, whatever that row's status. -/
def Command.acceptsOwnerAgain (c : Command) (db : Db) : Bool :=
  match c with
  | .acceptInvitation p =>
    (db.liveSession p.sessionId p.nowMs).any fun (session, user) =>
      (db.eligibleInvitation session user p.tokenHash p.nowMs).any fun invitation =>
        decide (invitation.roleId = "owner") &&
          (db.memberships.find? (invitation.organizationId, user.userId)).isSome
  | _ => false

/-! ## Effects of the membership writes -/

section Writes

variable {db db' : Db} {st st' : Statement} {clean : Prop}

/-- `auth_adjust_owner_count` writes organizations only, and of them only the count. -/
structure Recounted (st st' : Statement) : Prop where
  afterRows : st'.afterRows = st.afterRows
  others : st'.db = { st.db with organizations := st'.db.organizations }
  organizations : ∃ count : Organization → Nat, ∀ id,
    st'.db.organizations.find? id = (st.db.organizations.find? id).map fun o => { o with ownerCount := count o }

theorem Recounted.memberships (h : Recounted st st') : st'.db.memberships = st.db.memberships := by rw [h.others]

theorem Recounted.refl (st : Statement) : Recounted st st :=
  ⟨rfl, rfl, Organization.ownerCount, fun _ => by simp⟩

theorem Recounted.setOwnerCount {org : Organization} (horg : org ∈ st.db.organizations) (n : Nat) :
    Recounted st (st.setOwnerCount org n) := by
  refine ⟨rfl, rfl, fun o => if o.organizationId = org.organizationId then n else o.ownerCount, fun id => ?_⟩
  simp only [Statement.setOwnerCount]
  rw [Table.set_eq_update (f := fun o : Organization => { o with ownerCount := n }) (fun _ => rfl)
    (Table.find?_of_mem horg), Table.find?_update]
  cases st.db.organizations.find? id with
  | none => rfl
  | some o => by_cases h : o.organizationId = org.organizationId <;> simp [h]

/-- The trigger changes owner counts only. -/
theorem recounted_of_adjustOwnerCount {e : RowEvent} (h : st.adjustOwnerCount e = .ok st') : Recounted st st' := by
  unfold Statement.adjustOwnerCount at h
  split at h
  · split at h
    · rename_i horg
      split at h
      · cases h; exact .setOwnerCount (Table.find?_eq_some.1 horg).1 _
      · cases h
    · cases h
  · split at h
    · split at h
      · rename_i horg
        cases h; exact .setOwnerCount (Table.find?_eq_some.1 horg).1 _
      · cases h
    · cases h; exact .refl _

theorem insertMembership_eq_ok {new : Membership} (h : st.insertMembership new = .ok st') :
    ∃ st₁ memberships, st.adjustOwnerCount (.insert new) = .ok st₁ ∧
      st.db.memberships.insertOr SqlError.uniqueViolation new = .ok memberships ∧
        st' = st₁.writeMembership memberships (.insert new) := by
  obtain ⟨st₁, h₁, h⟩ := bind_eq_ok.1 h
  obtain ⟨memberships, hm, h⟩ := bind_eq_ok.1 h
  cases h
  exact ⟨st₁, memberships, h₁, (recounted_of_adjustOwnerCount h₁).memberships ▸ hm, rfl⟩

theorem updateMembership_eq_ok {old new : Membership} (h : st.updateMembership old new = .ok st') :
    ∃ st₁, st.adjustOwnerCount (.update old new) = .ok st₁ ∧
      st' = st₁.writeMembership (st.db.memberships.set new) (.update old new) := by
  obtain ⟨st₁, h₁, h⟩ := bind_eq_ok.1 h
  cases h
  exact ⟨st₁, h₁, by rw [(recounted_of_adjustOwnerCount h₁).memberships]⟩

theorem insertOrganization_eq_ok {org : Organization} (h : insertOrganization org db = .ok st') :
    ∃ organizations roles rolePermissions,
      db.organizations.insertOr SqlError.uniqueViolation org = .ok organizations ∧
        (∀ r : RolePermission, r.organizationId ≠ org.organizationId →
          (r ∈ rolePermissions ↔ r ∈ db.rolePermissions)) ∧
            st' =
              { db := { db with organizations := organizations, roles := roles, rolePermissions := rolePermissions }
                ownerChecks := [org.organizationId] } := by
  obtain ⟨organizations, ho, h⟩ := bind_eq_ok.1 h
  obtain ⟨roles, -, h⟩ := bind_eq_ok.1 h
  obtain ⟨rolePermissions, hp, h⟩ := bind_eq_ok.1 h
  cases h
  refine ⟨organizations, roles, rolePermissions, ho, fun r hr => ?_, rfl⟩
  rw [Table.mem_of_insertAllOr hp]
  refine or_iff_left fun hnew => hr ?_
  obtain ⟨_, -, rfl⟩ := List.mem_map.1 hnew
  rfl

theorem organization_of_insertOrganization {org : Organization} (h : insertOrganization org db = .ok st') :
    st'.db.organizations.find? org.organizationId = some org := by
  obtain ⟨organizations, -, -, ho, -, rfl⟩ := insertOrganization_eq_ok h
  simp [Table.find?_of_insertOr ho]

theorem rows_of_updateMembership {old new : Membership} (h : st.updateMembership old new = .ok st') :
    st'.db.memberships = st.db.memberships.set new ∧ st'.afterRows = st.afterRows ++ [.update old new] := by
  obtain ⟨st₁, h₁, rfl⟩ := updateMembership_eq_ok h
  exact ⟨rfl, by rw [← (recounted_of_adjustOwnerCount h₁).afterRows]; rfl⟩

/-- An `UPDATE` of several rows is one step per row: the rows have different keys, so no row is
updated twice. -/
theorem steps_of_updateMemberships {f : Membership → Membership} (hf : ∀ m, (f m).key = m.key) :
    ∀ {ms : List Membership} {st st' : Statement}, Statement.updateMemberships f ms st = .ok st' →
      (ms.map Membership.key).Nodup → (∀ m ∈ ms, m ∈ st.db.memberships) →
        (∀ m ∈ ms, ∀ e ∈ st.afterRows, e.target.key ≠ m.key) → ReflTransGen (Statement.Step clean) st st'
  | [], st, st', h, _, _, _ => by cases h; exact .refl
  | m :: ms, st, st', h, hnd, hmem, hfresh => by
    obtain ⟨st₁, h₁, h⟩ := bind_eq_ok.1 h
    obtain ⟨hrows, hqueue⟩ := rows_of_updateMembership h₁
    obtain ⟨hm, hnd⟩ := List.nodup_cons.1 hnd
    have hne (x : Membership) (hx : x ∈ ms) : x.key ≠ (f m).key := by
      rw [hf]
      exact fun he => hm (List.mem_map.2 ⟨x, hx, he⟩)
    refine .head (.update h₁ (hmem m (by simp)) (hf m) ?_) (steps_of_updateMemberships hf h hnd ?_ ?_)
    · rw [hf]
      exact hfresh m (by simp)
    · intro x hx
      rw [hrows]
      exact Table.mem_set.2 (.inl ⟨hmem x (by simp [hx]), hne x hx⟩)
    · intro x hx e he
      rw [hqueue, List.mem_append, List.mem_singleton] at he
      rcases he with he | rfl
      · exact hfresh x (by simp [hx]) e he
      · exact (hne x hx).symm

theorem steps_of_update_filter {f : Membership → Membership} {p : Membership → Bool}
    (h : Statement.updateMemberships f (st.db.memberships.rows.filter p) st = .ok st')
    (hf : ∀ m, (f m).key = m.key) (hrows : st.afterRows = []) : ReflTransGen (Statement.Step clean) st st' :=
  steps_of_updateMemberships hf h (st.db.memberships.nodup.sublist (List.Sublist.map _ List.filter_sublist))
    (fun _ hm => List.mem_of_mem_filter hm) (by simp [hrows])

/-- An upsert inserts the membership or updates the one that is there. -/
theorem steps_of_upsertMembership {proposed : Membership} {org : Organization} (hrows : st.afterRows = [])
    (horg : st.db.organizations.find? proposed.organizationId = some org)
    (hclean : clean → (st.db.memberships.find? proposed.key).isSome → proposed.isOwner = false)
    (h : st.upsertMembership proposed = .ok st') : ReflTransGen (Statement.Step clean) st st' := by
  unfold Statement.upsertMembership at h
  split at h
  · exact .single (.insert horg h)
  · rename_i old hfind
    obtain ⟨st₁, h₁, h⟩ := bind_eq_ok.1 h
    have hcounted := recounted_of_adjustOwnerCount h₁
    obtain ⟨hold, hkey⟩ := Table.find?_eq_some.1 hfind
    refine .head (.propose (fun hc => hclean hc (by simp [hfind])) h₁) (.single (.update h ?_ rfl ?_))
    · rwa [hcounted.memberships]
    · simp [hcounted.afterRows, hrows]

theorem Recounted.organization_of_before (h : Recounted st st') {id : Uuid} {o : Organization}
    (ho : st.db.organizations.find? id = some o) : ∃ o', st'.db.organizations.find? id = some o' := by
  obtain ⟨count, hcount⟩ := h.organizations
  exact ⟨_, by rw [hcount, ho]; rfl⟩

/-- No step deletes an organization. -/
theorem organization_of_step (h : Statement.Step clean st st') {id : Uuid} {o : Organization}
    (ho : st.db.organizations.find? id = some o) : ∃ o', st'.db.organizations.find? id = some o' := by
  cases h with
  | routine h =>
    obtain ⟨o', ho', -⟩ := h.quiet.organization_of_before ho
    exact ⟨o', ho'⟩
  | create _ h =>
    obtain ⟨_, _, _, hins, -, rfl⟩ := insertOrganization_eq_ok h
    exact ⟨o, Table.find?_insertOr_of_some hins ho⟩
  | insert _ h =>
    obtain ⟨st₁, memberships, h₁, -, rfl⟩ := insertMembership_eq_ok h
    exact (recounted_of_adjustOwnerCount h₁).organization_of_before ho
  | update h =>
    obtain ⟨st₁, h₁, rfl⟩ := updateMembership_eq_ok h
    exact (recounted_of_adjustOwnerCount h₁).organization_of_before ho
  | propose _ h => exact (recounted_of_adjustOwnerCount h).organization_of_before ho

theorem organization_of_steps (h : ReflTransGen (Statement.Step clean) st st') {id : Uuid} {o : Organization}
    (ho : st.db.organizations.find? id = some o) : ∃ o', st'.db.organizations.find? id = some o' := by
  induction h with
  | refl => exact ⟨o, ho⟩
  | tail _ hstep ih =>
    obtain ⟨o₁, ho₁⟩ := ih
    exact organization_of_step hstep ho₁

theorem step_modify {f : Db → Db} (h : Routine st.db (f st.db)) : Statement.Step clean st (st.modify f) :=
  .routine h

end Writes

/-! ## The commit -/

section Commit

variable {db db' : Db} {st : Statement}

theorem insertOutboxOnce_eq_ok {row : OutboxRow} (h : db.insertOutboxOnce row = .ok db') :
    db' = db ∨ ∃ outbox, db.outbox.insertOr SqlError.uniqueViolation row = .ok outbox ∧
      db' = { db with outbox := outbox } := by
  unfold Db.insertOutboxOnce at h
  split at h
  · cases h; exact .inl rfl
  · obtain ⟨outbox, hins, h⟩ := bind_eq_ok.1 h
    cases h
    exact .inr ⟨outbox, hins, rfl⟩

structure OutboxRow.IsNew (row : OutboxRow) : Prop where
  status : row.status = .pending
  attemptCount : row.attemptCount = 0
  leaseId : row.leaseId = none

/-- The `AFTER` trigger moves a revision and may add an intent. -/
theorem track_cases {outboxId : Uuid} {e : RowEvent} (h : db.trackMembershipAuthorization outboxId e = .ok db') :
    db' = db ∨ ∃ org outbox, db.organizations.find? e.target.organizationId = some org ∧
      (outbox = db.outbox ∨ ∃ row, row.IsNew ∧ db.outbox.insertOr SqlError.uniqueViolation row = .ok outbox) ∧
        db' = { db with
          organizations := db.organizations.set { org with authorizationRevision := org.authorizationRevision + 1 }
          outbox := outbox } := by
  unfold Db.trackMembershipAuthorization at h
  split at h
  · cases h; exact .inl rfl
  · split at h
    · cases h
    · rename_i org horg
      dsimp only at h
      split at h
      · cases h; exact .inr ⟨org, _, horg, .inl rfl, rfl⟩
      · rcases insertOutboxOnce_eq_ok h with rfl | ⟨outbox, hins, rfl⟩
        · exact .inr ⟨org, _, horg, .inl rfl, rfl⟩
        · exact .inr ⟨org, outbox, horg, .inr ⟨_, ⟨rfl, rfl, rfl⟩, hins⟩, rfl⟩

/-- What the trigger does for every row, it does for the whole queue. -/
theorem fire_induction {R : Db → Db → Prop} (hrefl : ∀ db, R db db)
    (htrans : ∀ {db₁ db₂ db₃}, R db₁ db₂ → R db₂ db₃ → R db₁ db₃) :
    ∀ {es : List RowEvent} {uuids : Nat → Uuid} {db : Db},
      (∀ e ∈ es, ∀ {outboxId db db'}, db.trackMembershipAuthorization outboxId e = .ok db' → R db db') →
        db.fireAfterRows uuids es = .ok db' → R db db'
  | [], _, _, _, h => by cases h; exact hrefl _
  | e :: _, _, _, hstep, h => by
    obtain ⟨db₁, h₁, h⟩ := bind_eq_ok.1 h
    exact htrans (hstep e (by simp) h₁) (fire_induction hrefl htrans (fun e he => hstep e (by simp [he])) h)

theorem keepsMembers_of_track {outboxId : Uuid} {e : RowEvent}
    (h : db.trackMembershipAuthorization outboxId e = .ok db') :
    KeepsMembers db db' ∧ db'.users = db.users ∧ db'.sessions = db.sessions := by
  rcases track_cases h with rfl | ⟨org, _, horg, -, rfl⟩
  · exact ⟨.of_eq rfl rfl rfl, rfl, rfl⟩
  · exact ⟨(Routine.bumpOrganization horg).quiet.toKeepsMembers.trans (.of_eq rfl rfl rfl), rfl, rfl⟩

theorem keepsMembers_of_fire {es : List RowEvent} {uuids : Nat → Uuid} (h : db.fireAfterRows uuids es = .ok db') :
    KeepsMembers db db' ∧ db'.users = db.users ∧ db'.sessions = db.sessions := by
  refine fire_induction (R := fun db db' => KeepsMembers db db' ∧ db'.users = db.users ∧ db'.sessions = db.sessions)
    (fun _ => ⟨.of_eq rfl rfl rfl, rfl, rfl⟩) ?_ (fun _ _ {_ _ _} h => keepsMembers_of_track h) h
  rintro _ _ _ ⟨hk, hu, hs⟩ ⟨hk', hu', hs'⟩
  exact ⟨hk.trans hk', hu'.trans hu, hs'.trans hs⟩

/-- A commit fires the queued triggers, and every organization to be checked then has an owner. -/
theorem commit_eq_ok {uuids : Nat → Uuid} (h : st.commit uuids = .ok db') :
    st.db.fireAfterRows uuids st.afterRows = .ok db' ∧ ∀ id ∈ st.ownerChecks, db'.ownerCheckPasses id = true := by
  obtain ⟨db₁, hfire, h⟩ := bind_eq_ok.1 h
  split at h
  · rename_i hall
    cases h
    exact ⟨hfire, by simpa using hall⟩
  · cases h

end Commit

/-! ## The commands -/

section Commands

variable {db db' : Db} {clean : Prop}

theorem activeMembership_eq_some {organization user : Uuid} {m : Membership}
    (h : db.activeMembership organization user = some m) :
    m ∈ db.memberships ∧ m.key = (organization, user) ∧ m.status = .active := by
  obtain ⟨hfind, hact⟩ := Option.filter_eq_some_iff.1 h
  obtain ⟨hm, hkey⟩ := Table.find?_eq_some.1 hfind
  exact ⟨hm, hkey, by simpa [Membership.isActive] using hact⟩

theorem memberActor_eq_some {sessionId organization : Uuid} {nowMs : Int} {s : Session} {u : User} {m : Membership}
    (h : db.memberActor sessionId organization nowMs = some (s, u, m)) :
    db.liveSession sessionId nowMs = some (s, u) ∧ db.activeMembership organization s.userId = some m := by
  simp only [Db.memberActor, Option.bind_eq_some_iff, Option.map_eq_some_iff] at h
  obtain ⟨⟨s', u'⟩, hlive, m', hm, he⟩ := h
  cases he
  exact ⟨hlive, hm⟩

theorem changes_createOrganization {p r} (h : createOrganization p db = .ok (r, db')) : Changes clean db db' := by
  unfold createOrganization at h
  split at h
  · split at h <;> cases h <;> exact .routine (.refl _)
  · split at h
    · cases h; exact .routine (.refl _)
    · split at h
      · cases h; exact .routine (.refl _)
      · rename_i session user _
        obtain ⟨st₁, h₁, h⟩ := bind_eq_ok.1 h
        obtain ⟨st₂, h₂, h⟩ := bind_eq_ok.1 h
        obtain ⟨idempotency, -, h⟩ := bind_eq_ok.1 h
        obtain ⟨db₃, hc, h⟩ := bind_eq_ok.1 h
        cases h
        refine .statement (.head (.create rfl h₁) (.head (.insert (organization_of_insertOrganization h₁) h₂)
          (.single (step_modify ?_)))) hc
        exact .of_writes ((Writes.single .selectOrganizationIn).tail (.others rfl rfl))

/-- The count is in doubt only where an owner is accepted again. -/
theorem changes_acceptInvitation {p r} (h : acceptInvitation p db = .ok (r, db')) :
    Changes ((Command.acceptInvitation p).acceptsOwnerAgain db = false) db db' := by
  unfold acceptInvitation at h
  split at h
  · cases h; exact .routine (.refl _)
  · rename_i session user hlive
    split at h
    · cases h; exact .routine (.refl _)
    · rename_i invitation hinv
      dsimp only at h
      split at h
      · rename_i org _ horg
        obtain ⟨st, hst, h⟩ := bind_eq_ok.1 h
        obtain ⟨db₁, hc, h⟩ := bind_eq_ok.1 h
        cases h
        refine .statement (.head (.routine ?_) (.trans (steps_of_upsertMembership rfl horg ?_ hst)
          (.single (step_modify (.of_write .selectOrganizationIn))))) hc
        · exact .elsewhere rfl rfl rfl
        · intro hclean hsome
          by_contra howner
          have hrole : invitation.roleId = "owner" := by
            simpa [Membership.isOwner, invitedMembership] using howner
          have hrow : (db.memberships.find? (invitation.organizationId, user.userId)).isSome := hsome
          simp [Command.acceptsOwnerAgain, hlive, hinv, hrole, hrow] at hclean
      · cases h; exact .routine (.of_write .setInvitation)

theorem changes_assignMembershipRole {p r} (h : assignMembershipRole p db = .ok (r, db')) : Changes clean db db' := by
  unfold assignMembershipRole at h
  split at h
  · rename_i hm _
    split at h
    · obtain ⟨st, hst, h⟩ := bind_eq_ok.1 h
      obtain ⟨db₁, hc, h⟩ := bind_eq_ok.1 h
      cases h
      exact .statement (.single (.update hst (activeMembership_eq_some hm).1 rfl (by simp))) hc
    · cases h; exact .routine (.refl _)
  · cases h; exact .routine (.refl _)

theorem changes_removeMember {target : Membership} {nowMs : Int} {uuids : Nat → Uuid} (hm : target ∈ db.memberships)
    (h : removeMember target nowMs uuids db = .ok db') : Changes clean db db' := by
  obtain ⟨st, hst, hc⟩ := bind_eq_ok.1 h
  exact .statement (.head (.update hst hm rfl (by simp)) (.single (step_modify (.of_write .clearUserSessions)))) hc

theorem changes_removeMembership {p r} (h : removeMembership p db = .ok (r, db')) : Changes clean db db' := by
  unfold removeMembership at h
  split at h
  · rename_i hm
    split at h
    · obtain ⟨db₁, hr, h⟩ := bind_eq_ok.1 h
      cases h
      exact changes_removeMember (activeMembership_eq_some hm).1 hr
    · cases h; exact .routine (.refl _)
  · cases h; exact .routine (.refl _)

theorem changes_leaveOrganization {p r} (h : leaveOrganization p db = .ok (r, db')) : Changes clean db db' := by
  unfold leaveOrganization at h
  split at h
  · rename_i hactor _
    split at h
    · obtain ⟨db₁, hr, h⟩ := bind_eq_ok.1 h
      cases h
      exact changes_removeMember (activeMembership_eq_some (memberActor_eq_some hactor).2).1 hr
    · cases h; exact .routine (.refl _)
  · cases h; exact .routine (.refl _)

theorem changes_transferOwnership {p r} (h : transferOwnership p db = .ok (r, db')) : Changes clean db db' := by
  unfold transferOwnership at h
  split at h
  · rename_i session user actor org target hactor _ htarget
    obtain ⟨st₁, h₁, h⟩ := bind_eq_ok.1 h
    obtain ⟨st₂, h₂, h⟩ := bind_eq_ok.1 h
    obtain ⟨db₁, hc, h⟩ := bind_eq_ok.1 h
    cases h
    obtain ⟨hmem, hkey, -⟩ := activeMembership_eq_some htarget
    have hpromote : Statement.Step clean { db := db } st₁ := .update h₁ hmem rfl (by simp)
    obtain ⟨hrows, hqueue⟩ := rows_of_updateMembership h₁
    unfold Statement.demoteOwner at h₂
    split at h₂
    · obtain ⟨hactor, hself⟩ := Option.filter_eq_some_iff.1 hactor
      obtain ⟨-, hmember⟩ := memberActor_eq_some (Option.filter_eq_some_iff.1 hactor).1
      obtain ⟨hmem', hkey', -⟩ := activeMembership_eq_some hmember
      -- the actor is not the target, so its row still stands in the snapshot's version
      have hne : actor.key ≠ target.key := by
        rw [hkey, hkey']
        simpa using hself
      refine .statement (.head hpromote (.single (.update h₂ ?_ rfl ?_))) hc
      · rw [hrows]
        exact Table.mem_set.2 (.inl ⟨hmem', hne⟩)
      · rw [hqueue]
        intro e he
        rw [List.mem_singleton.1 he]
        exact hne.symm
    · cases h₂
      exact .statement (.single hpromote) hc
  · cases h; exact .routine (.refl _)

theorem changes_deleteRole {p r} (h : deleteRole p db = .ok (r, db')) : Changes clean db db' := by
  unfold deleteRole at h
  split at h
  · rename_i org _ _ horg _
    dsimp only at h
    split at h
    · obtain ⟨st, hst, h⟩ := bind_eq_ok.1 h
      obtain ⟨db₁, hc, h⟩ := bind_eq_ok.1 h
      cases h
      have hsteps : ReflTransGen (Statement.Step clean) { db := db } st :=
        steps_of_update_filter hst (fun _ => rfl) rfl
      obtain ⟨ho, hid, -⟩ := activeOrganization_eq_some horg
      obtain ⟨o', ho'⟩ := organization_of_steps hsteps (hid ▸ ho)
      refine .statement (hsteps.tail (step_modify ?_)) hc
      refine .after (.revise ho' fun r hr => ?_) (.elsewhere rfl rfl rfl)
      simp [Table.mem_delete, hr]
    · cases h; exact .routine (.refl _)
  · cases h; exact .routine (.refl _)

theorem changes_setUserDisabled {p r} (h : setUserDisabled p db = .ok (r, db')) : Changes clean db db' := by
  unfold setUserDisabled at h
  split at h
  · rename_i user _ huser
    obtain ⟨st, hst, h⟩ := bind_eq_ok.1 h
    obtain ⟨db₁, hc, h⟩ := bind_eq_ok.1 h
    cases h
    have hsteps : ReflTransGen (Statement.Step clean) { db := db.setUser _ } st :=
      steps_of_update_filter hst (by intro _; rfl) rfl
    refine .statement (.head (.routine ?_) (hsteps.tail (step_modify ?_))) hc
    · have hfind := (Option.filter_eq_some_iff.1 huser).1
      have huser : db.users.find? user.userId = some user := (Table.find?_eq_some.1 hfind).2 ▸ hfind
      exact .setUser huser rfl
    · exact .updateSessions (fun _ => rfl) fun _ => rfl
  · cases h; exact .routine (.refl _)

theorem delivery_of_update {p : OutboxRow → Bool} {f : OutboxRow → OutboxRow}
    {hf : ∀ row, (f row).outboxId = row.outboxId}
    (hrow : ∀ row : OutboxRow, row.Redelivered (f row)) :
    Delivery db { db with outbox := db.outbox.update p f hf } := by
  refine ⟨rfl, fun row => if p row then f row else row, rfl, fun row => ?_⟩
  dsimp only
  split
  · exact hrow row
  · exact ⟨rfl, rfl, rfl⟩

/-- Every statement but the three of the outbox is routine, or a run of membership writes. -/
theorem execute_changes {c : Command} (hc : c.isDelivery = false) (h : c.execute db = .ok db') :
    Changes (c.acceptsOwnerAgain db = false) db db' := by
  by_cases hs : c.sharesWrites = true
  · exact .routine (.of_writes (writes_of_execute hs h))
  by_cases ho : c.ownsCredentials = true
  · exact .routine (routine_of_execute ho h)
  cases c <;> simp only [Command.execute, written_eq_ok] at h <;> obtain ⟨r, h⟩ := h
  case createOrganization => exact changes_createOrganization h
  case acceptInvitation => exact changes_acceptInvitation h
  case assignMembershipRole => exact changes_assignMembershipRole h
  case removeMembership => exact changes_removeMembership h
  case leaveOrganization => exact changes_leaveOrganization h
  case transferOwnership => exact changes_transferOwnership h
  case deleteRole => exact changes_deleteRole h
  case setUserDisabled => exact changes_setUserDisabled h
  all_goals first | exact absurd rfl hs | exact absurd rfl ho | cases hc

theorem execute_delivery {c : Command} (hc : c.isDelivery = true) (h : c.execute db = .ok db') : Delivery db db' := by
  cases c <;> cases hc <;> cases h <;> exact delivery_of_update fun _ => ⟨rfl, rfl, rfl⟩

/-- So is every step of the database, or it is a delivery. -/
theorem step_changes {c : Command} (h : postgres.next db c = some db') :
    Changes (c.acceptsOwnerAgain db = false) db db' ∨ c.isDelivery = true ∧ Delivery db db' := by
  rcases step_cases h with h | rfl
  · cases hc : c.isDelivery with
    | false => exact .inl (execute_changes hc h)
    | true => exact .inr ⟨rfl, execute_delivery hc h⟩
  · exact .inl (.routine (.refl _))

end Commands

/-! ## The outbox along a run -/

section Outbox

variable {db db' db₁ db₂ db₃ : Db} {st st' : Statement} {clean : Prop}

/-- New rows are added at the end of the table; the others stay as they are. -/
def OutboxInserts (db db' : Db) : Prop :=
  ∃ new, db'.outbox.rows = db.outbox.rows ++ new ∧ ∀ row ∈ new, row.IsNew

namespace OutboxInserts

theorem of_eq (h : db'.outbox = db.outbox) : OutboxInserts db db' := ⟨[], by rw [h, List.append_nil], by simp⟩

theorem trans (h : OutboxInserts db₁ db₂) (h' : OutboxInserts db₂ db₃) : OutboxInserts db₁ db₃ := by
  obtain ⟨new, hrows, hnew⟩ := h
  obtain ⟨new', hrows', hnew'⟩ := h'
  refine ⟨new ++ new', by rw [hrows', hrows, List.append_assoc], fun row hrow => ?_⟩
  rcases List.mem_append.1 hrow with hrow | hrow
  · exact hnew row hrow
  · exact hnew' row hrow

theorem of_quiet (h : Quiet db db') : OutboxInserts db db' := by
  obtain ⟨new, hrows, hnew⟩ := h.outbox
  refine ⟨new, hrows, fun row hrow => ?_⟩
  obtain ⟨_, _, _, _, _, rfl, _⟩ := hnew row hrow
  exact ⟨rfl, rfl, rfl⟩

theorem of_recounted (h : Recounted st st') : OutboxInserts st.db st'.db := of_eq (by rw [h.others])

theorem of_step (h : Statement.Step clean st st') : OutboxInserts st.db st'.db := by
  cases h with
  | routine h => exact of_quiet h.quiet
  | create _ h =>
    obtain ⟨_, _, _, -, -, rfl⟩ := insertOrganization_eq_ok h
    exact of_eq rfl
  | insert _ h =>
    obtain ⟨st₁, memberships, h₁, -, rfl⟩ := insertMembership_eq_ok h
    exact (of_recounted (recounted_of_adjustOwnerCount h₁)).trans (of_eq rfl)
  | update h =>
    obtain ⟨st₁, h₁, rfl⟩ := updateMembership_eq_ok h
    exact (of_recounted (recounted_of_adjustOwnerCount h₁)).trans (of_eq rfl)
  | propose _ h => exact of_recounted (recounted_of_adjustOwnerCount h)

theorem of_steps (h : ReflTransGen (Statement.Step clean) st st') : OutboxInserts st.db st'.db := by
  induction h with
  | refl => exact of_eq rfl
  | tail _ hstep ih => exact ih.trans (of_step hstep)

theorem of_fire {es : List RowEvent} {uuids : Nat → Uuid} (h : db.fireAfterRows uuids es = .ok db') :
    OutboxInserts db db' := by
  refine fire_induction (fun _ => of_eq rfl) trans (fun e _ {outboxId db db'} h => ?_) h
  rcases track_cases h with rfl | ⟨_, _, -, rfl | ⟨row, hnew, hins⟩, rfl⟩
  · exact of_eq rfl
  · exact of_eq rfl
  · refine ⟨_, (Table.insertOr_eq_ok hins).2, fun row hrow => ?_⟩
    rw [List.mem_singleton.1 hrow]
    exact hnew

theorem of_changes (h : Changes clean db db') : OutboxInserts db db' := by
  rcases h with hr | ⟨hw, hc⟩
  · exact of_quiet hr.quiet
  · exact (of_steps hw).trans (of_fire (commit_eq_ok hc).1)

end OutboxInserts

/-- New rows wait at the end of the table; the others stay as they are. -/
def OutboxAppends (db db' : Db) : Prop :=
  ∃ new, db'.outbox.rows = db.outbox.rows ++ new ∧ ∀ row ∈ new, row.status = .pending

namespace OutboxAppends

theorem of_eq (h : db'.outbox = db.outbox) : OutboxAppends db db' := ⟨[], by rw [h, List.append_nil], by simp⟩

theorem of_changes (h : Changes clean db db') : OutboxAppends db db' := by
  obtain ⟨new, hrows, hnew⟩ := OutboxInserts.of_changes h
  exact ⟨new, hrows, fun row hrow => (hnew row hrow).status⟩

end OutboxAppends

/-- No row disappears and none changes its identity, its key or its payload. -/
def OutboxGrows (db db' : Db) : Prop :=
  ∃ (f : OutboxRow → OutboxRow) (new : List OutboxRow),
    db'.outbox.rows = db.outbox.rows.map f ++ new ∧ ∀ row : OutboxRow, row.Redelivered (f row)

namespace OutboxGrows

theorem of_appends (h : OutboxAppends db db') : OutboxGrows db db' := by
  obtain ⟨new, hrows, -⟩ := h
  exact ⟨id, new, by rw [hrows, List.map_id], fun _ => ⟨rfl, rfl, rfl⟩⟩

theorem trans (h : OutboxGrows db₁ db₂) (h' : OutboxGrows db₂ db₃) : OutboxGrows db₁ db₃ := by
  obtain ⟨f, new, hrows, hf⟩ := h
  obtain ⟨f', new', hrows', hf'⟩ := h'
  refine ⟨f' ∘ f, new.map f' ++ new', by rw [hrows', hrows]; simp, fun row => ?_⟩
  exact (hf row).trans (hf' (f row))

theorem of_next {c : Command} (h : postgres.next db c = some db') : OutboxGrows db db' := by
  rcases step_changes h with hc | ⟨-, hd⟩
  · exact of_appends (.of_changes hc)
  · obtain ⟨f, hrows, hf⟩ := hd.rows
    exact ⟨f, [], by rw [hrows, List.append_nil], hf⟩

theorem of_run (h : Transition.Steps postgres Transition.anyStep db db') : OutboxGrows db db' :=
  h.relation (I := fun _ => True) (fun _ => of_appends (.of_eq rfl)) trans (fun _ _ _ => trivial)
    (fun _ _ hn => of_next hn) trivial

end OutboxGrows

end Outbox

end WasiAuth
