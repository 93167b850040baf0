import WasiAuth.Management.AccessModel
import WasiAuth.Postgres.Footprints

/-! # Where owners come from

Four statements can turn a membership into an owner's: the one that creates the organization, `assign`, `transfer`
and `accept`. The first three check their caller when they run. An accepted invitation was checked when it was
created, so its origin is a fact about the history of the run (`InvitedByOwner`).

`upsert_role.sql` writes whatever permissions it is sent. That no custom role ever holds `ownership.transfer` is the
work of the checks before it, so the runs considered are those whose `upsert_role` parameters passed them
(`Command.Issued`).
-/

namespace WasiAuth

open Relational Transition

/-! ## The reserved permission -/

/-- The parameters of a role upsert come from `upsert_role`. -/
def Command.Issued (parseUuid : String → Option Uuid) : Command → Prop
  | .upsertRole p => ∃ request nowMs, upsertRoleParameters parseUuid request nowMs = .ok p
  | _ => True

/-- The owner role of the organization, as the organization was created with it. -/
def Db.BuiltInOwner (organization : Uuid) (db : Db) : Prop :=
  ∃ role ∈ db.roles, role.key = (organization, "owner") ∧ role.builtIn = true

/-- Only the role `owner` may transfer the ownership. -/
def Db.TransferReserved (db : Db) : Prop :=
  ∀ row ∈ db.rolePermissions, row.permission = "ownership.transfer" →
    row.roleId = "owner" ∧ db.BuiltInOwner row.organizationId

section Reserved
variable {db db' : Db}

theorem transferReserved_of_same (hr : db'.roles = db.roles) (hp : db'.rolePermissions = db.rolePermissions)
    (h : db.TransferReserved) : db'.TransferReserved := by
  intro row hrow ht
  rw [hp] at hrow
  obtain ⟨hid, role, hrole, hkey⟩ := h row hrow ht
  exact ⟨hid, role, hr ▸ hrole, hkey⟩

theorem builtInPermissions_transfer : ∀ x ∈ builtInPermissions, x.2 = "ownership.transfer" → x.1 = "owner" := by
  decide

theorem transferReserved_createOrganization {p r}
    (hres : db.TransferReserved) (h : createOrganization p db = .ok (r, db')) : db'.TransferReserved := by
  rcases createOrganization_cases h with ⟨_, -, rfl, -⟩ | ⟨-, rfl, -⟩ | ⟨session, user, view, -, hf⟩
  · exact hres
  · exact hres
  · intro row hrow ht
    rcases (Table.mem_of_insertAllOr hf.rolePermissions).1 hrow with hrow | hrow
    · obtain ⟨hid, role, hrole, hkey⟩ := hres row hrow ht
      exact ⟨hid, role, (Table.mem_of_insertAllOr hf.roles).2 (.inl hrole), hkey⟩
    · obtain ⟨x, hx, rfl⟩ := List.mem_map.1 hrow
      refine ⟨builtInPermissions_transfer x hx ht, ⟨p.organizationId, "owner", "Owner", true⟩, ?_, rfl, rfl⟩
      refine (Table.mem_of_insertAllOr hf.roles).2 (.inr ?_)
      simp [builtInRoleRows, builtInRoles]

theorem mem_of_savedRole {organization : Uuid} {roleId name : String} {t t' : Table Role.key} {role : Role}
    (h : SavedRole organization roleId name t t') (hrole : role ∈ t) (hb : role.builtIn = true) : role ∈ t' := by
  rcases h with ⟨custom, hcustom, hb', rfl⟩ | hins
  · refine Table.mem_set.2 (.inl ⟨hrole, fun hkey => ?_⟩)
    have hkey : role.key = custom.key := hkey
    rw [t.eq_of_key hrole (Table.find?_eq_some.1 hcustom).1 hkey, hb'] at hb
    cases hb
  · exact (Table.mem_of_insertOr hins).2 (.inl hrole)

theorem transferReserved_upsertRole {parseUuid : String → Option Uuid} {p : UpsertRole} {r : Option Unit}
    (hissued : Command.Issued parseUuid (.upsertRole p)) (hres : db.TransferReserved)
    (h : upsertRole p db = .ok (r, db')) : db'.TransferReserved := by
  obtain ⟨request, nowMs, hparams⟩ := hissued
  obtain ⟨-, hnot⟩ := upsertRoleParameters_not_transfer hparams
  rcases upsertRole_cases h with ⟨-, rfl⟩ | ⟨_, _, _, _, roles, permissions, -, -, hsaved, hins, rfl⟩
  · exact hres
  · intro row hrow ht
    rcases (Table.mem_of_insertAllOr hins).1 hrow with hrow | hrow
    · obtain ⟨hid, role, hrole, hkey, hb⟩ := hres row (Table.mem_delete.1 hrow).1 ht
      exact ⟨hid, role, mem_of_savedRole hsaved hrole hb, hkey, hb⟩
    · obtain ⟨permission, hpermission, rfl⟩ := List.mem_map.1 hrow
      have ht : permission = "ownership.transfer" := ht
      exact absurd (ht ▸ hpermission) hnot

theorem transferReserved_deleteRole {p r} (hres : db.TransferReserved)
    (h : deleteRole p db = .ok (r, db')) : db'.TransferReserved := by
  rcases deleteRole_cases h with rfl | ⟨_, _, _, _, custom, _, -, -, hcustom, hb', -, hdb⟩
  · exact hres
  · have hroles : db'.roles = db.roles.delete fun r => decide (r.key = (p.organizationId, p.roleId)) := by
      rw [hdb]
    have hpermissions : db'.rolePermissions = db.rolePermissions.delete fun r =>
        decide (r.organizationId = p.organizationId ∧ r.roleId = p.roleId) := by
      rw [hdb]
      rfl
    intro row hrow ht
    rw [hpermissions] at hrow
    obtain ⟨hid, role, hrole, hkey, hb⟩ := hres row (Table.mem_delete.1 hrow).1 ht
    refine ⟨hid, role, ?_, hkey, hb⟩
    rw [hroles]
    refine Table.mem_delete.2 ⟨hrole, decide_eq_false fun hdeleted => ?_⟩
    -- the deleted role is a custom one
    obtain ⟨hmem, hk⟩ := Table.find?_eq_some.1 hcustom
    rw [db.roles.eq_of_key hrole hmem (hdeleted.trans hk.symm), hb'] at hb
    cases hb

theorem transferReserved_of_next {parseUuid : String → Option Uuid} {c : Command} (hissued : c.Issued parseUuid)
    (hres : db.TransferReserved) (h : postgres.next db c = some db') : db'.TransferReserved := by
  have hframe := frame_of_next h
  rcases step_cases h with h | rfl
  · have hsame : .roles ∉ c.writes → .rolePermissions ∉ c.writes → db'.TransferReserved :=
      fun hr hp => transferReserved_of_same (hframe.roles hr) (hframe.rolePermissions hp) hres
    cases c <;> simp only [Command.execute, written_eq_ok] at h <;> obtain ⟨r, h⟩ := h
    case createOrganization => exact transferReserved_createOrganization hres h
    case upsertRole => exact transferReserved_upsertRole hissued hres h
    case deleteRole => exact transferReserved_deleteRole hres h
    all_goals exact hsame (by simp [Command.writes]) (by simp [Command.writes])
  · exact hres

end Reserved

/-! ## Owner invitations -/

/-- An `aal2` session of an active member whose role holds `ownership.transfer`. -/
def Db.OwnerActor (sessionId organization : Uuid) (nowMs : Int) (db : Db) : Prop :=
  ∃ session user actor, db.memberActor sessionId organization nowMs = some (session, user, actor) ∧
    session.assurance.stepped = true ∧ db.hasPermission organization actor.roleId "ownership.transfer" = true

/-- The command creates the owner invitation, for a caller that may transfer ownership. -/
def Command.InvitesOwner (c : Command) (i : Invitation) (db : Db) : Prop :=
  ∃ p created db', c = .createInvitation p ∧ WasiAuth.createInvitation p db = .ok (some created, db') ∧
    created.invitationId = i.invitationId ∧ created.organizationId = i.organizationId ∧ created.roleId = "owner" ∧
      db.OwnerActor p.sessionId i.organizationId p.nowMs

/-- Somewhere in the history the invitation was created by a caller that could transfer ownership then. -/
def InvitedByOwner (cmds : List Command) (i : Invitation) : Prop :=
  ∃ before c after db, cmds = before ++ c :: after ∧ postgres.run postgres.init before = some db ∧ c.InvitesOwner i db

/-- The same invitation, unless it now offers the owner role and did not before. -/
def Invitation.SameOffer (i i' : Invitation) : Prop :=
  i.invitationId = i'.invitationId ∧ i.organizationId = i'.organizationId ∧ (i'.roleId = "owner" → i.roleId = "owner")

theorem Invitation.SameOffer.refl (i : Invitation) : i.SameOffer i := ⟨rfl, rfl, id⟩

section Invitations
variable {db db' : Db} {i : Invitation}

theorem ownerActor_of_permittedActor {sessionId organization : Uuid} {permission : String} {nowMs : Int}
    {session : Session} {user : User} {actor : Membership}
    (h : db.permittedActor sessionId organization permission nowMs = some (session, user, actor))
    (ht : db.hasPermission organization actor.roleId "ownership.transfer" = true) :
    db.OwnerActor sessionId organization nowMs := by
  obtain ⟨hactor, hstepped, -⟩ := permittedActor_eq_some h
  exact ⟨session, user, actor, hactor, hstepped, ht⟩

theorem ownerInvitation_createInvitation {p r}
    (h : createInvitation p db = .ok (r, db')) (hi : i ∈ db'.invitations) (howner : i.roleId = "owner") :
    (∃ i₀ ∈ db.invitations, i₀.SameOffer i) ∨ (Command.createInvitation p).InvitesOwner i db := by
  have hrun := h
  rcases createInvitation_cases h with
    ⟨-, rfl⟩ | ⟨session, user, actor, invitations, _, _, hactor, hmay, -, hins, -, -, rfl, rfl⟩
  · exact .inl ⟨i, hi, .refl i⟩
  · rcases (Table.mem_of_insertOr hins).1 hi with hi | rfl
    · have hi : i ∈ db.invitations.update p.replaces (fun i => { i with status := .revoked }) fun _ => rfl := hi
      exact .inl (Table.Stems.update .refl (fun i => ⟨rfl, rfl, id⟩) i hi)
    · have hrole : p.roleId = "owner" := howner
      simp only [Db.mayInvite, hrole, Bool.and_eq_true, Bool.or_eq_true, decide_eq_true_eq] at hmay
      have ht := hmay.2.resolve_left (· rfl)
      exact .inr ⟨p, _, _, rfl, hrun, rfl, rfl, hrole, ownerActor_of_permittedActor hactor ht⟩

theorem sameOffer_setInvitation {i' : Invitation} (hi : i ∈ db.invitations) (h : i.SameOffer i') :
    Table.Stems Invitation.SameOffer db.invitations (db.setInvitation i').invitations :=
  .set .refl hi h

theorem sameOffer_of_next {c : Command} (hc : ∀ p, c ≠ .createInvitation p) (h : postgres.next db c = some db') :
    Table.Stems Invitation.SameOffer db.invitations db'.invitations := by
  have hframe := frame_of_next h
  replace h := step_cases h
  rcases h with h | rfl
  · have hsame : .invitations ∉ c.writes → Table.Stems Invitation.SameOffer db.invitations db'.invitations :=
      fun hi => .of_eq .refl (hframe.invitations hi)
    cases c <;> simp only [Command.execute, written_eq_ok] at h <;> obtain ⟨r, h⟩ := h
    case createInvitation p => exact absurd rfl (hc p)
    case resendInvitation p =>
      rcases resendInvitation_cases h with ⟨-, rfl⟩ | ⟨_, _, _, invitation, _, _, -, hpending, -, -, -, -, rfl⟩
      · exact .of_eq .refl rfl
      · have hold := (Table.find?_eq_some.1 (pendingInvitation_eq_some hpending).1).1
        exact .set .refl hold ⟨rfl, rfl, id⟩
    case revokeInvitation p =>
      rcases revokeInvitation_cases h with ⟨-, rfl⟩ | ⟨_, _, _, invitation, -, hpending, -, rfl⟩
      · exact .of_eq .refl rfl
      · have hold := (Table.find?_eq_some.1 (pendingInvitation_eq_some hpending).1).1
        exact sameOffer_setInvitation hold ⟨rfl, rfl, id⟩
    case acceptInvitation p =>
      cases acceptInvitation_cases h with
      | refused => exact .of_eq .refl rfl
      | untokened hlive hinv =>
        exact sameOffer_setInvitation (eligibleInvitation_eq_some hinv).1 ⟨rfl, rfl, id⟩
      | accepted hlive hinv => exact .set .refl (eligibleInvitation_eq_some hinv).1 ⟨rfl, rfl, id⟩
    case archiveOrganization p =>
      rcases archiveOrganization_cases h with ⟨-, rfl⟩ | ⟨_, _, _, org, -, -, rfl⟩
      · exact .of_eq .refl rfl
      · have hset : Table.Stems Invitation.SameOffer db.invitations (db.invitations.update
            (fun i => decide (i.organizationId = p.organizationId ∧ i.status = .pending))
            (fun i => { i with status := .revoked }) fun _ => rfl) := .update .refl fun i => ⟨rfl, rfl, id⟩
        exact hset
    case deleteRole p =>
      rcases deleteRole_cases h with rfl | ⟨_, _, _, _, _, outbox, -, -, -, -, -, hdb⟩
      · exact .of_eq .refl rfl
      · rw [hdb]
        have hset : Table.Stems Invitation.SameOffer db.invitations (db.invitations.update
            (fun i => decide (i.organizationId = p.organizationId ∧ i.roleId = p.roleId ∧ i.status ≠ .pending))
            (fun i => { i with roleId := "member" }) fun _ => rfl) :=
          .update .refl fun i => ⟨rfl, rfl, fun hr => absurd hr (by simp)⟩
        exact hset
    all_goals exact hsame (by simp [Command.writes])
  · exact .of_eq .refl rfl

theorem ownerInvitation_of_next {c : Command} (h : postgres.next db c = some db') (hi : i ∈ db'.invitations)
    (howner : i.roleId = "owner") : (∃ i₀ ∈ db.invitations, i₀.SameOffer i) ∨ c.InvitesOwner i db := by
  by_cases hc : ∃ p, c = .createInvitation p
  · obtain ⟨p, rfl⟩ := hc
    rcases step_cases h with h | rfl
    · obtain ⟨_, h⟩ := written_eq_ok.1 h
      exact ownerInvitation_createInvitation h hi howner
    · exact .inl ⟨i, hi, .refl i⟩
  · exact .inl (sameOffer_of_next (fun p hp => hc ⟨p, hp⟩) h i hi)

theorem InvitedByOwner.extend {cmds : List Command} {c : Command} {i i' : Invitation} (h : InvitedByOwner cmds i)
    (hsame : i.SameOffer i') : InvitedByOwner (cmds ++ [c]) i' := by
  obtain ⟨before, d, after, db, rfl, hrun, p, created, db', rfl, hcreate, hid, horg, hrole, hactor⟩ := h
  refine ⟨before, _, after ++ [c], db, by simp, hrun, p, created, db', rfl, hcreate, hid.trans hsame.1,
    horg.trans hsame.2.1, hrole, ?_⟩
  rw [← hsame.2.1]
  exact hactor

/-- Every owner invitation of a run was created by a caller that could transfer ownership. -/
theorem invitedByOwner_of_run {cmds : List Command} (h : postgres.run postgres.init cmds = some db) :
    ∀ i ∈ db.invitations, i.roleId = "owner" → InvitedByOwner cmds i := by
  refine System.run_trace (I := fun cmds db => ∀ i ∈ db.invitations, i.roleId = "owner" → InvitedByOwner cmds i)
    (by simp [postgres, Db.empty]) (fun hrun ih hnext i hi howner => ?_) h
  rcases ownerInvitation_of_next hnext hi howner with ⟨i₀, hi₀, hsame⟩ | hinvites
  · exact (ih i₀ hi₀ (hsame.2.2 howner)).extend hsame
  · exact ⟨_, _, [], _, rfl, hrun, hinvites⟩

end Invitations

/-! ## Memberships -/

/-- The membership of that organization and user is an owner's after the step and was not before. -/
def GetsOwner (k : Uuid × Uuid) (db db' : Db) : Prop :=
  (∃ m ∈ db'.memberships, m.key = k ∧ m.roleId = "owner") ∧ ∀ m ∈ db.memberships, m.key = k → m.roleId ≠ "owner"

/-- The ways to become an owner in a state that `cmds` led to. -/
inductive OwnerOrigin (cmds : List Command) (db : Db) (k : Uuid × Uuid) : Command → Prop
  | created {p : CreateOrganization} {view : OrganizationView} {db' : Db} {session : Session} {user : User}
      (hcreated : createOrganization p db = .ok (.created view, db'))
      (hlive : db.liveSession p.sessionId p.nowMs = some (session, user)) (hk : k = (p.organizationId, user.userId)) :
      OwnerOrigin cmds db k (.createOrganization p)
  | assigned {p : AssignMembershipRole} (hactor : db.OwnerActor p.sessionId p.organizationId p.nowMs)
      (hk : k = (p.organizationId, p.userId)) : OwnerOrigin cmds db k (.assignMembershipRole p)
  | transferred {p : TransferOwnership} (hactor : db.OwnerActor p.sessionId p.organizationId p.nowMs)
      (hk : k = (p.organizationId, p.userId)) : OwnerOrigin cmds db k (.transferOwnership p)
  | accepted {p : AcceptInvitation} {session : Session} {user : User} {i : Invitation}
      (hlive : db.liveSession p.sessionId p.nowMs = some (session, user)) (haal2 : session.assurance.stepped = true)
      (hinv : db.eligibleInvitation session user p.tokenHash p.nowMs = some i) (howner : i.roleId = "owner")
      (hinvited : InvitedByOwner cmds i) (hk : k = (i.organizationId, user.userId)) :
      OwnerOrigin cmds db k (.acceptInvitation p)

/-- The same membership, unless it now is an owner's and was not before. -/
def Membership.SameGrant (m m' : Membership) : Prop := m.key = m'.key ∧ (m'.roleId = "owner" → m.roleId = "owner")

theorem Membership.SameGrant.refl (m : Membership) : m.SameGrant m := ⟨rfl, id⟩

section Memberships
variable {db db' : Db} {k : Uuid × Uuid} {cmds : List Command}

theorem not_getsOwner_of_stems (h : Table.Stems Membership.SameGrant db.memberships db'.memberships) :
    ¬ GetsOwner k db db' := by
  rintro ⟨⟨m', hm', hk, howner⟩, hnone⟩
  obtain ⟨m, hm, hkey, hrole⟩ := h m' hm'
  exact hnone m hm (hkey.trans hk) (hrole howner)

theorem not_getsOwner_self : ¬ GetsOwner k db db := not_getsOwner_of_stems (.of_eq .refl rfl)

theorem getsOwner_of_set {m : Membership} (hm : db'.memberships = db.memberships.set m) (h : GetsOwner k db db') :
    k = m.key ∧ m.roleId = "owner" := by
  obtain ⟨⟨m', hm', hk, howner⟩, hnone⟩ := h
  rw [hm] at hm'
  rcases Table.mem_set.1 hm' with ⟨hold, -⟩ | ⟨rfl, -⟩
  · exact absurd howner (hnone m' hold hk)
  · exact ⟨hk.symm, howner⟩

theorem getsOwner_of_insertOr {m : Membership}
    (hm : db.memberships.insertOr SqlError.uniqueViolation m = .ok db'.memberships) (h : GetsOwner k db db') :
    k = m.key ∧ m.roleId = "owner" := by
  obtain ⟨⟨m', hm', hk, howner⟩, hnone⟩ := h
  rcases (Table.mem_of_insertOr hm).1 hm' with hold | rfl
  · exact absurd howner (hnone m' hold hk)
  · exact ⟨hk.symm, howner⟩

theorem getsOwner_of_upserted {m : Membership} (hm : Upserted m db.memberships db'.memberships)
    (h : GetsOwner k db db') : k = m.key ∧ m.roleId = "owner" := by
  rcases hm with hm | ⟨old, hold, hm⟩
  · exact getsOwner_of_insertOr hm h
  · obtain ⟨hk, howner⟩ := getsOwner_of_set hm h
    have hkey : old.key = m.key := (Table.find?_eq_some.1 hold).2
    exact ⟨hk.trans hkey, howner⟩

theorem owner_assignMembershipRole {p r}
    (h : assignMembershipRole p db = .ok (r, db')) (hgets : GetsOwner k db db') :
    OwnerOrigin cmds db k (.assignMembershipRole p) := by
  rcases assignMembershipRole_cases h with ⟨-, rfl⟩ | ⟨_, _, actor, _, target, role, hactor, -, htarget, -, hmay, hw⟩
  · exact absurd hgets not_getsOwner_self
  · obtain ⟨_, hdb⟩ := hw.others
    obtain ⟨hk, howner⟩ := getsOwner_of_set (congrArg Db.memberships hdb) hgets
    have howner : role.roleId = "owner" := howner
    simp only [Db.mayAssign, howner, ne_eq, not_true, decide_false, Bool.and_false, Bool.false_or,
      Bool.and_eq_true] at hmay
    have hkey : target.key = (p.organizationId, p.userId) := (activeMembership_eq_some htarget).2.1
    exact .assigned (ownerActor_of_permittedActor hactor hmay.1) (hk.trans hkey)

theorem owner_transferOwnership {p r}
    (h : transferOwnership p db = .ok (r, db')) (hgets : GetsOwner k db db') :
    OwnerOrigin cmds db k (.transferOwnership p) := by
  rcases transferOwnership_cases h with ⟨-, rfl⟩ | ⟨_, _, actor, _, target, _, hactor, -, -, htarget, -, hdb⟩
  · exact absurd hgets not_getsOwner_self
  · have hkey : target.key = (p.organizationId, p.userId) := (activeMembership_eq_some htarget).2.1
    refine .transferred (ownerActor_of_permittedActor hactor (permittedActor_eq_some hactor).2.2) ?_
    obtain ⟨⟨m, hm, hk, howner⟩, hnone⟩ := hgets
    have hm : m ∈ p.memberships target actor db.memberships := by rw [hdb] at hm; exact hm
    -- the former owner's row is written after the new one's, with the role `admin`
    have hpromoted : m ∈ db.memberships.set { target with roleId := "owner", updatedAtMs := p.nowMs } := by
      unfold TransferOwnership.memberships at hm
      split at hm
      · rcases Table.mem_set.1 hm with ⟨hm, -⟩ | ⟨rfl, -⟩
        · exact hm
        · simp at howner
      · exact hm
    rcases Table.mem_set.1 hpromoted with ⟨hold, -⟩ | ⟨rfl, -⟩
    · exact absurd howner (hnone m hold hk)
    · exact hk.symm.trans hkey

theorem sameGrant_of_removed {target : Membership} {nowMs : Int} (hmem : target ∈ db.memberships)
    (h : Removed target nowMs db db') : Table.Stems Membership.SameGrant db.memberships db'.memberships := by
  obtain ⟨_, hdb⟩ := h.others
  rw [hdb]
  exact .set .refl hmem ⟨rfl, id⟩

theorem sameGrant_deleteRole {p r} (h : deleteRole p db = .ok (r, db')) :
    Table.Stems Membership.SameGrant db.memberships db'.memberships := by
  rcases deleteRole_cases h with rfl | ⟨_, _, _, _, _, _, -, -, -, -, -, hdb⟩
  · exact .of_eq .refl rfl
  · have hrows : db'.memberships = (p.formerMembers db).foldl (fun t m => t.set (p.reassign m)) db.memberships := by
      rw [hdb]
    rw [hrows]
    exact .foldl_set .refl (fun _ => rfl) fun m => ⟨rfl, fun howner => absurd howner (by simp [DeleteRole.reassign])⟩

theorem ownerOrigin_of_next {c : Command} (hrun : postgres.run postgres.init cmds = some db)
    (h : postgres.next db c = some db') (hgets : GetsOwner k db db') : OwnerOrigin cmds db k c := by
  have hframe := frame_of_next h
  rcases step_cases h with h | rfl
  · have hnot : Table.Stems Membership.SameGrant db.memberships db'.memberships → OwnerOrigin cmds db k c :=
      fun hstems => absurd hgets (not_getsOwner_of_stems hstems)
    cases c <;> simp only [Command.execute, written_eq_ok] at h <;> obtain ⟨r, h⟩ := h
    case createOrganization =>
      have hexecuted := h
      rcases createOrganization_cases h with ⟨_, -, rfl, -⟩ | ⟨-, rfl, -⟩ | ⟨_, _, _, rfl, hf⟩
      · exact hnot (.of_eq .refl rfl)
      · exact hnot (.of_eq .refl rfl)
      · exact .created hexecuted hf.live (getsOwner_of_insertOr hf.memberships hgets).1
    case acceptInvitation =>
      cases acceptInvitation_cases h with
      | refused => exact hnot (.of_eq .refl rfl)
      | untokened => exact hnot (.of_eq .refl rfl)
      | accepted hlive hinv _ _ hm _ =>
        obtain ⟨hk, howner⟩ := getsOwner_of_upserted hm hgets
        obtain ⟨hmem, -, -, -, -, -, haal2⟩ := eligibleInvitation_eq_some hinv
        exact .accepted hlive (haal2 howner) hinv howner (invitedByOwner_of_run hrun _ hmem howner) hk
    case assignMembershipRole => exact owner_assignMembershipRole h hgets
    case transferOwnership => exact owner_transferOwnership h hgets
    case removeMembership =>
      rcases removeMembership_cases h with ⟨-, rfl⟩ | ⟨_, _, _, _, target, -, -, htarget, hremoved⟩
      · exact hnot (.of_eq .refl rfl)
      · exact hnot (sameGrant_of_removed (activeMembership_eq_some htarget).1 hremoved)
    case leaveOrganization =>
      rcases leaveOrganization_cases h with ⟨-, rfl⟩ | ⟨_, _, target, _, hactor, -, hremoved⟩
      · exact hnot (.of_eq .refl rfl)
      · exact hnot (sameGrant_of_removed (organizationId_of_memberActor hactor).1 hremoved)
    case deleteRole => exact hnot (sameGrant_deleteRole h)
    case setUserDisabled =>
      rcases setUserDisabled_cases h with ⟨-, rfl⟩ | ⟨_, -, -, -, -, hdb⟩
      · exact hnot (.of_eq .refl rfl)
      · rw [hdb] at hnot
        dsimp only [SetUserDisabled.switchAll] at hnot
        exact hnot (.update .refl fun m => ⟨rfl, id⟩)
    all_goals exact hnot (.of_eq .refl (hframe.memberships (by simp [Command.writes])))
  · exact absurd hgets not_getsOwner_self

theorem transferReserved_of_run {parseUuid : String → Option Uuid}
    (h : postgres.run postgres.init cmds = some db) (hissued : ∀ c ∈ cmds, c.Issued parseUuid) :
    db.TransferReserved := by
  refine System.run_trace (I := fun cmds db => (∀ c ∈ cmds, c.Issued parseUuid) → db.TransferReserved)
    (fun _ _ hrow => absurd hrow (Table.not_mem_empty _)) (fun _ ih hnext hissued => ?_) h hissued
  exact transferReserved_of_next (hissued _ (by simp)) (ih fun c hc => hissued c (by simp [hc])) hnext

end Memberships

/-! ## Every run -/

/-- In a run whose role upserts passed the checks of `upsert_role`: whoever becomes an owner founded the
organization, was made one by a caller that could transfer ownership, or accepted, at `aal2`, an invitation that
such a caller had created; and only a built-in owner role holds `ownership.transfer`. -/
theorem owner_grants {parseUuid : String → Option Uuid} {cmds : List Command} {db : Db}
    (hrun : postgres.run postgres.init cmds = some db) (hissued : ∀ c ∈ cmds, c.Issued parseUuid) :
    (∀ c db' k, postgres.next db c = some db' → GetsOwner k db db' → OwnerOrigin cmds db k c) ∧
      ∀ organization roleId, db.hasPermission organization roleId "ownership.transfer" = true →
        roleId = "owner" ∧ db.BuiltInOwner organization := by
  refine ⟨fun c db' k hnext hgets => ownerOrigin_of_next hrun hnext hgets, fun organization roleId hp => ?_⟩
  obtain ⟨row, hrow⟩ := Option.isSome_iff_exists.1 hp
  obtain ⟨hmem, hkey⟩ := Table.find?_eq_some.1 hrow
  have hkey : row = ⟨organization, roleId, "ownership.transfer"⟩ := hkey
  subst hkey
  exact transferReserved_of_run hrun hissued _ hmem rfl

/-- The founder saves a role that may look at the audit log, and then makes the second user an owner. -/
def auditorRole : UpsertRoleRequest where
  sessionId := ⟨2⟩
  organizationId := "00000000-0000-0000-0000-000000000003"
  roleId := "auditor"
  name := " Auditor "
  permissions := ["audit.view", "audit.view"]

def passOn : TransferOwnership where
  sessionId := ⟨2⟩
  organizationId := ⟨3⟩
  userId := ⟨11⟩
  nowMs := 0
  uuids := uuidsFrom 400

/-- `Uuid::parse_str`, as far as the call below needs it. -/
def parseAcme (text : String) : Option Uuid := if text = (⟨3⟩ : Uuid).text then some ⟨3⟩ else none

theorem second_owner_granted : ∃ p db db', upsertRoleParameters parseAcme auditorRole 0 = .ok p ∧
    postgres.run postgres.init (foundAcme ++ joinAcme ++ [.upsertRole p]) = some db ∧
      postgres.next db (.transferOwnership passOn) = some db' ∧ GetsOwner (⟨3⟩, ⟨11⟩) db db' ∧
        OwnerOrigin (foundAcme ++ joinAcme ++ [.upsertRole p]) db (⟨3⟩, ⟨11⟩) (.transferOwnership passOn) := by
  obtain ⟨p, hp, h⟩ := exists_ok_of_any (x := upsertRoleParameters parseAcme auditorRole 0)
    (p := fun p => (postgres.run postgres.init (foundAcme ++ joinAcme ++ [.upsertRole p])).any fun db =>
      ((db.memberships.find? (⟨3⟩, ⟨11⟩)).any fun m => decide (m.roleId = "member")) &&
        ((db.step (.transferOwnership passOn)).memberships.find? (⟨3⟩, ⟨11⟩)).any fun m => decide (m.roleId = "owner"))
    (by decide +kernel)
  obtain ⟨db, hrun, h⟩ := (Option.any_eq_true _ _).1 h
  obtain ⟨hbefore, hafter⟩ := Bool.and_eq_true_iff.1 h
  obtain ⟨m, hm, hmember⟩ := (Option.any_eq_true _ _).1 hbefore
  obtain ⟨m', hm', howner⟩ := (Option.any_eq_true _ _).1 hafter
  obtain ⟨hmem', hkey'⟩ := Table.find?_eq_some.1 hm'
  have hgets : GetsOwner (⟨3⟩, ⟨11⟩) db (db.step (.transferOwnership passOn)) := by
    refine ⟨⟨m', hmem', hkey', of_decide_eq_true howner⟩, fun x hx hkey howner => ?_⟩
    obtain ⟨hmem, hk⟩ := Table.find?_eq_some.1 hm
    rw [db.memberships.eq_of_key hx hmem (hkey.trans hk.symm), of_decide_eq_true hmember] at howner
    simp at howner
  have hissued : ∀ c ∈ foundAcme ++ joinAcme ++ [.upsertRole p], c.Issued parseAcme := by
    simp [foundAcme, joinAcme, inviteToAcme, Command.Issued]
    exact ⟨auditorRole, 0, hp⟩
  exact ⟨p, db, _, hp, hrun, rfl, hgets, (owner_grants hrun hissued).1 _ _ _ rfl hgets⟩

end WasiAuth
