import WasiAuth.Postgres.Footprints

/-! # Archived organizations

Every statement that manages a tenant locks the organization and requires it to be active, except three:
`create_invitation.sql`, `resend_invitation.sql` and `revoke_invitation.sql` ask only for the caller's membership and
permission. Archiving leaves the memberships as they are, so the last two are harmless only as long as an archived
organization has no pending invitation, and the first one is what gives it one (`Command.invitesArchived`).
-/

namespace WasiAuth

open Relational Transition

/-- The rows of the organization in the five tenant tables are the same. -/
structure TenantSame (id : Uuid) (db db' : Db) : Prop where
  organizations : db.organizations.SamePart Organization.organizationId id db'.organizations
  roles : db.roles.SamePart Role.organizationId id db'.roles
  rolePermissions : db.rolePermissions.SamePart RolePermission.organizationId id db'.rolePermissions
  memberships : db.memberships.SamePart Membership.organizationId id db'.memberships
  invitations : db.invitations.SamePart Invitation.organizationId id db'.invitations

/-- Commands on an existing organization. -/
def Command.managesTenant : Command → Bool
  | .createInvitation _ | .resendInvitation _ | .revokeInvitation _ | .acceptInvitation _ | .upsertRole _
  | .deleteRole _ | .assignMembershipRole _ | .removeMembership _ | .leaveOrganization _ | .transferOwnership _
  | .updateOrganization _ | .archiveOrganization _ | .selectOrganization _ => true
  | _ => false

/-- A `create_invitation` for an archived organization by an actor that may invite to the role. -/
def Command.invitesArchived (c : Command) (db : Db) : Bool :=
  match c with
  | .createInvitation p =>
    ((db.organizations.find? p.organizationId).any fun o => decide (o.status = .archived)) &&
      (db.permittedActor p.sessionId p.organizationId "member.invite" p.nowMs).any fun (_, _, actor) =>
        db.mayInvite p.organizationId p.roleId actor.roleId
  | _ => false

section Commands
variable {db db' : Db} {id : Uuid}

theorem TenantSame.refl (id : Uuid) (db : Db) : TenantSame id db db :=
  ⟨.refl _, .refl _, .refl _, .refl _, .refl _⟩

theorem SameExcept.samePart {other : Uuid} {t t' : Table Organization.organizationId} (h : SameExcept other t t')
    (hne : id ≠ other) : t.SamePart Organization.organizationId id t' := by
  intro o ho
  have hsame := h.others id hne
  constructor
  · intro hmem
    exact (Table.find?_eq_some.1 (hsame.symm.trans (Table.find?_eq_some.2 ⟨hmem, ho⟩))).1
  · intro hmem
    exact (Table.find?_eq_some.1 (hsame.trans (Table.find?_eq_some.2 ⟨hmem, ho⟩))).1

/-- An active organization is not the archived one. -/
theorem ne_of_activeOrganization {other : Uuid} {org : Organization} (harch : ArchivedIn db.organizations id)
    (h : db.activeOrganization other = some org) : other ≠ id := by
  rintro rfl
  obtain ⟨o, ho, hstatus⟩ := harch
  obtain ⟨hfind, hactive⟩ := Option.filter_eq_some_iff.1 h
  cases hfind.symm.trans ho
  rw [of_decide_eq_true hactive] at hstatus
  cases hstatus

theorem samePart_setMembership {t : Table Membership.key} {m : Membership} (hne : m.organizationId ≠ id) :
    t.SamePart Membership.organizationId id (t.set m) :=
  .set hne fun _ _ hkey horg => hne ((congrArg Prod.fst hkey).symm.trans horg)

theorem samePart_setInvitation {t : Table Invitation.invitationId} {i i' : Invitation} (hi : i ∈ t)
    (hid : i'.invitationId = i.invitationId) (horg : i'.organizationId = i.organizationId)
    (hne : i.organizationId ≠ id) : t.SamePart Invitation.organizationId id (t.set i') := by
  refine .set (horg ▸ hne) fun old hold hkey => ?_
  rw [Table.eq_of_key hold hi (hkey.trans hid)]
  exact hne

theorem samePart_revokeInvitations {q : Invitation → Bool} (hq : ∀ i, q i = true → i.organizationId ≠ id) :
    db.invitations.SamePart Invitation.organizationId id (db.revokeInvitations q).invitations := by
  apply Table.SamePart.update hq <;> exact fun _ => rfl

theorem samePart_setPending {organization invitationId : Uuid} {i i' : Invitation}
    (hpending : ∀ i ∈ db.invitations, i.organizationId = id → i.status ≠ .pending)
    (hi : db.pendingInvitation organization invitationId = some i) (hid : i'.invitationId = i.invitationId)
    (horg : i'.organizationId = i.organizationId) :
    db.invitations.SamePart Invitation.organizationId id (db.invitations.set i') := by
  obtain ⟨hfind, -, -, hstatus⟩ := pendingInvitation_eq_some hi
  have hmem := (Table.find?_eq_some.1 hfind).1
  exact samePart_setInvitation hmem hid horg fun h => hpending _ hmem h hstatus

section Active
variable (harch : ArchivedIn db.organizations id)
include harch

theorem samePart_setOrganization {other : Uuid} {org o : Organization} (h : db.activeOrganization other = some org)
    (ho : o.organizationId = org.organizationId) :
    db.organizations.SamePart Organization.organizationId id (db.organizations.set o) := by
  have hne : o.organizationId ≠ id := by
    rw [ho, (activeOrganization_eq_some h).2.1]
    exact ne_of_activeOrganization harch h
  exact .set hne fun _ _ hkey horg => hne (hkey.symm.trans horg)

theorem tenantSame_createInvitation {p : CreateInvitation} {r : Option Invitation}
    (hc : (Command.createInvitation p).invitesArchived db = false) (h : createInvitation p db = .ok (r, db')) :
    TenantSame id db db' := by
  rcases createInvitation_cases h with ⟨-, rfl⟩ | ⟨_, _, actor, _, _, _, hactor, hmay, -, hins, -, -, -, rfl⟩
  · exact .refl _ _
  · have hne : p.organizationId ≠ id := by
      rintro rfl
      obtain ⟨o, ho, hstatus⟩ := harch
      simp [Command.invitesArchived, ho, hstatus, hactor, hmay] at hc
    have hreplaced : db.invitations.SamePart Invitation.organizationId id
        (db.revokeInvitations p.replaces).invitations :=
      samePart_revokeInvitations fun i hi => (of_decide_eq_true hi).1 ▸ hne
    exact ⟨.refl _, .refl _, .refl _, .refl _, hreplaced.trans (.insertOr hne hins)⟩

theorem tenantSame_acceptInvitation {p r} (h : acceptInvitation p db = .ok (r, db')) : TenantSame id db db' := by
  have hne : ∀ {session : Session} {user : User} {invitation : Invitation},
      db.eligibleInvitation session user p.tokenHash p.nowMs = some invitation → invitation.organizationId ≠ id := by
    intro session user invitation hinv
    obtain ⟨-, -, -, hactive, -⟩ := eligibleInvitation_eq_some hinv
    obtain ⟨org, horg⟩ := Option.isSome_iff_exists.1 hactive
    exact ne_of_activeOrganization harch horg
  have hset : ∀ {session : Session} {user : User} {invitation : Invitation},
      db.eligibleInvitation session user p.tokenHash p.nowMs = some invitation →
        db.invitations.SamePart Invitation.organizationId id
          (db.invitations.set (invitation.acceptedRow p.nowMs user.userId)) :=
    fun hinv => samePart_setInvitation (eligibleInvitation_eq_some hinv).1 rfl rfl (hne hinv)
  cases acceptInvitation_cases h with
  | refused => exact .refl _ _
  | untokened _ hinv _ => exact ⟨.refl _, .refl _, .refl _, .refl _, hset hinv⟩
  | @accepted session user invitation token org _ memberships _ _ hinv _ _ hm ho =>
    have hmember : db.memberships.SamePart Membership.organizationId id memberships := by
      rcases hm with hins | ⟨old, hold, rfl⟩
      · exact .insertOr (hne hinv) hins
      · have horg : old.organizationId = invitation.organizationId :=
          congrArg Prod.fst (Table.find?_eq_some.1 hold).2
        exact samePart_setMembership (horg ▸ hne hinv)
    exact ⟨ho.samePart (hne hinv).symm, .refl _, .refl _, hmember, hset hinv⟩

omit harch in
theorem tenantSame_of_removed {target : Membership} {nowMs : Int} (h : Removed target nowMs db db')
    (hne : target.organizationId ≠ id) : TenantSame id db db' := by
  have horganizations := h.organizations.samePart (Ne.symm hne)
  obtain ⟨_, hdb⟩ := h.others
  rw [hdb]
  exact ⟨horganizations, .refl _, .refl _, samePart_setMembership hne, .refl _⟩

theorem tenantSame_transferOwnership {p r} (h : transferOwnership p db = .ok (r, db')) : TenantSame id db db' := by
  rcases transferOwnership_cases h with ⟨-, rfl⟩ | ⟨_, _, actor, _, target, _, hactor, -, horg, htarget, hsame, hdb⟩
  · exact .refl _ _
  · have hne := ne_of_activeOrganization harch horg
    have htargetOrg : target.organizationId = p.organizationId :=
      congrArg Prod.fst (activeMembership_eq_some htarget).2.1
    have hactorOrg := (organizationId_of_memberActor (permittedActor_eq_some hactor).1).2.1
    have hpromoted : db.memberships.SamePart Membership.organizationId id
        (db.memberships.set { target with roleId := "owner", updatedAtMs := p.nowMs }) :=
      samePart_setMembership (htargetOrg ▸ hne)
    have hmember :
        db.memberships.SamePart Membership.organizationId id (p.memberships target actor db.memberships) := by
      unfold TransferOwnership.memberships
      dsimp only
      split
      · exact hpromoted.trans (samePart_setMembership (hactorOrg ▸ hne))
      · exact hpromoted
    have horganizations := hsame.samePart hne.symm
    rw [hdb]
    exact ⟨horganizations, .refl _, .refl _, hmember, .refl _⟩

omit harch in
theorem samePart_deleteRolePermissions {organization : Uuid} {roleId : String} (hne : organization ≠ id) :
    db.rolePermissions.SamePart RolePermission.organizationId id
      (db.deleteRolePermissions organization roleId).rolePermissions :=
  .delete fun _ hr horg => hne ((of_decide_eq_true hr).1.symm.trans horg)

theorem tenantSame_upsertRole {p r} (h : upsertRole p db = .ok (r, db')) : TenantSame id db db' := by
  rcases upsertRole_cases h with ⟨-, rfl⟩ | ⟨_, _, _, _, roles, permissions, -, horg, hsaved, hins, rfl⟩
  · exact .refl _ _
  · have hne := ne_of_activeOrganization harch horg
    have hroles : db.roles.SamePart Role.organizationId id roles := by
      rcases hsaved with ⟨role, hrole, -, rfl⟩ | hins
      · have hid : role.organizationId = p.organizationId := congrArg Prod.fst (Table.find?_eq_some.1 hrole).2
        exact .set (hid ▸ hne) fun _ _ hkey horg => hne (hid ▸ (congrArg Prod.fst hkey).symm.trans horg)
      · exact .insertOr hne hins
    have hpermissions : db.rolePermissions.SamePart RolePermission.organizationId id permissions := by
      refine (samePart_deleteRolePermissions hne).trans (.insertAllOr (fun row hrow => ?_) hins)
      obtain ⟨_, -, rfl⟩ := List.mem_map.1 hrow
      exact hne
    exact ⟨(sameExcept_bump db _).samePart hne.symm, hroles, hpermissions, .refl _, .refl _⟩

theorem tenantSame_deleteRole {p r} (h : deleteRole p db = .ok (r, db')) : TenantSame id db db' := by
  rcases deleteRole_cases h with rfl | ⟨_, _, _, _, _, _, -, horg, -, -, hsame, hdb⟩
  · exact .refl _ _
  · have hne := ne_of_activeOrganization harch horg
    have hmember : db.memberships.SamePart Membership.organizationId id
        ((p.formerMembers db).foldl (fun t m => t.set (p.reassign m)) db.memberships) := by
      have hrows : (p.formerMembers db).foldl (fun t m => t.set (p.reassign m)) db.memberships =
          db.memberships.update
            (fun m => decide (m.organizationId = p.organizationId ∧ m.roleId = p.roleId) && !m.isActive) p.reassign :=
        Table.foldl_set_eq_update (f := p.reassign) (fun _ => rfl) (List.Perm.refl _)
      rw [hrows]
      refine .update (fun m hm => ?_) fun _ => rfl
      rw [(of_decide_eq_true (Bool.and_eq_true_iff.1 hm).1).1]
      exact hne
    have hinvitations : db.invitations.SamePart Invitation.organizationId id
        (db.invitations.update
          (fun i => decide (i.organizationId = p.organizationId ∧ i.roleId = p.roleId ∧ i.status ≠ .pending))
          (fun i => { i with roleId := "member" }) fun _ => rfl) :=
      .update (fun i hi horg => hne ((of_decide_eq_true hi).1.symm.trans horg)) fun _ => rfl
    have hroles : db.roles.SamePart Role.organizationId id
        (db.roles.delete fun r => decide (r.key = (p.organizationId, p.roleId))) :=
      .delete fun role hr horg => hne ((congrArg Prod.fst (of_decide_eq_true hr)).symm.trans horg)
    have horganizations := hsame.samePart hne.symm
    rw [hdb]
    exact ⟨horganizations, hroles, samePart_deleteRolePermissions hne, hmember, hinvitations⟩

end Active

/-- No tenant-management command touches an archived organization without pending invitations, unless it invites to
it. -/
theorem tenantSame_of_next {c : Command} (hm : c.managesTenant = true) (hc : c.invitesArchived db = false)
    (harch : ArchivedIn db.organizations id)
    (hpending : ∀ i ∈ db.invitations, i.organizationId = id → i.status ≠ .pending)
    (h : postgres.next db c = some db') : TenantSame id db db' := by
  rcases step_cases h with h | rfl
  · cases c <;> simp only [Command.execute, written_eq_ok] at h <;> obtain ⟨r, h⟩ := h
    case createInvitation => exact tenantSame_createInvitation harch hc h
    case resendInvitation =>
      rcases resendInvitation_cases h with ⟨-, rfl⟩ | ⟨_, _, _, _, _, _, -, hinv, -, -, -, -, rfl⟩
      · exact .refl _ _
      · exact ⟨.refl _, .refl _, .refl _, .refl _, samePart_setPending hpending hinv rfl rfl⟩
    case revokeInvitation =>
      rcases revokeInvitation_cases h with ⟨-, rfl⟩ | ⟨_, _, _, _, -, hinv, -, rfl⟩
      · exact .refl _ _
      · exact ⟨.refl _, .refl _, .refl _, .refl _, samePart_setPending hpending hinv rfl rfl⟩
    case acceptInvitation => exact tenantSame_acceptInvitation harch h
    case assignMembershipRole p _ =>
      rcases assignMembershipRole_cases h with ⟨-, rfl⟩ | ⟨_, _, _, _, target, _, -, horg, htarget, -, -, hrewrite⟩
      · exact .refl _ _
      · have hid : target.organizationId = p.organizationId := congrArg Prod.fst (activeMembership_eq_some htarget).2.1
        have hne : target.organizationId ≠ id := hid ▸ ne_of_activeOrganization harch horg
        have horganizations := hrewrite.organizations.samePart (Ne.symm hne)
        obtain ⟨_, hdb⟩ := hrewrite.others
        rw [hdb]
        exact ⟨horganizations, .refl _, .refl _, samePart_setMembership hne, .refl _⟩
    case removeMembership p _ =>
      rcases removeMembership_cases h with ⟨-, rfl⟩ | ⟨_, _, _, _, target, -, horg, htarget, hremoved⟩
      · exact .refl _ _
      · have hid : target.organizationId = p.organizationId := congrArg Prod.fst (activeMembership_eq_some htarget).2.1
        exact tenantSame_of_removed hremoved (hid ▸ ne_of_activeOrganization harch horg)
    case leaveOrganization =>
      rcases leaveOrganization_cases h with ⟨-, rfl⟩ | ⟨_, _, target, _, hactor, horg, hremoved⟩
      · exact .refl _ _
      · have hid := (organizationId_of_memberActor hactor).2.1
        exact tenantSame_of_removed hremoved (hid ▸ ne_of_activeOrganization harch horg)
    case transferOwnership => exact tenantSame_transferOwnership harch h
    case upsertRole => exact tenantSame_upsertRole harch h
    case deleteRole => exact tenantSame_deleteRole harch h
    case updateOrganization =>
      rcases updateOrganization_cases h with ⟨-, rfl⟩ | ⟨_, _, _, org, -, horg, rfl⟩
      · exact .refl _ _
      · exact ⟨samePart_setOrganization harch horg rfl, .refl _, .refl _, .refl _, .refl _⟩
    case archiveOrganization p _ =>
      rcases archiveOrganization_cases h with ⟨-, rfl⟩ | ⟨_, _, _, org, -, horg, rfl⟩
      · exact .refl _ _
      · have hinvitations : db.invitations.SamePart Invitation.organizationId id
            (db.revokePendingInvitations p.organizationId).invitations :=
          samePart_revokeInvitations fun i hi => (of_decide_eq_true hi).1 ▸ ne_of_activeOrganization harch horg
        exact ⟨samePart_setOrganization harch horg rfl, .refl _, .refl _, .refl _, hinvitations⟩
    case selectOrganization =>
      rcases selectOrganization_cases h with ⟨-, rfl⟩ | ⟨_, _, _, _, -, -, rfl⟩
      · exact .refl _ _
      · exact ⟨.refl _, .refl _, .refl _, .refl _, .refl _⟩
    all_goals cases hm
  · exact .refl _ _

end Commands

/-! ## Every run -/

section Runs
variable {db db' : Db} {id : Uuid}

/-- An archived organization stays archived, and only `archive_organization.sql` archives one. -/
theorem archivedIn_of_next {c : Command} (h : postgres.next db c = some db') :
    (∀ id, ArchivedIn db'.organizations id ↔ ArchivedIn db.organizations id) ∨
      ∃ p org, c = .archiveOrganization p ∧ db.activeOrganization p.organizationId = some org ∧
        db'.organizations = db.organizations.set org.archivedRow ∧
          db'.invitations = (db.revokePendingInvitations p.organizationId).invitations := by
  have hframe := frame_of_next h
  rcases step_cases h with h | rfl
  · have hsame : .organizations ∉ c.writes → ∀ id, ArchivedIn db'.organizations id ↔ ArchivedIn db.organizations id :=
      fun hw id => by rw [hframe.organizations hw]
    cases c <;> simp only [Command.execute, written_eq_ok] at h <;> obtain ⟨r, h⟩ := h
    case archiveOrganization =>
      rcases archiveOrganization_cases h with ⟨-, rfl⟩ | ⟨_, _, _, org, -, horg, rfl⟩
      · exact .inl fun _ => Iff.rfl
      · exact .inr ⟨_, org, rfl, horg, rfl, rfl⟩
    case createOrganization =>
      rcases createOrganization_cases h with ⟨_, -, rfl, -⟩ | ⟨-, rfl, -⟩ | ⟨_, _, _, -, hfounded⟩
      · exact .inl fun _ => Iff.rfl
      · exact .inl fun _ => Iff.rfl
      · exact .inl hfounded.organizations.archived
    case updateOrganization p _ =>
      rcases updateOrganization_cases h with ⟨-, rfl⟩ | ⟨_, _, _, org, -, horg, rfl⟩
      · exact .inl fun _ => Iff.rfl
      · have hrow := Table.find?_of_mem (Table.find?_eq_some.1 (Option.filter_eq_some_iff.1 horg).1).1
        exact .inl (SameExcept.set (o := { org with name := p.name }) hrow rfl).archived
    case acceptInvitation =>
      cases acceptInvitation_cases h with
      | refused => exact .inl fun _ => Iff.rfl
      | untokened => exact .inl fun _ => Iff.rfl
      | accepted _ _ _ _ _ ho => exact .inl ho.archived
    case assignMembershipRole =>
      rcases assignMembershipRole_cases h with ⟨-, rfl⟩ | ⟨_, _, _, _, _, _, -, -, -, -, -, hrewrite⟩
      · exact .inl fun _ => Iff.rfl
      · exact .inl hrewrite.organizations.archived
    case removeMembership =>
      rcases removeMembership_cases h with ⟨-, rfl⟩ | ⟨_, _, _, _, _, -, -, -, hremoved⟩
      · exact .inl fun _ => Iff.rfl
      · exact .inl hremoved.organizations.archived
    case leaveOrganization =>
      rcases leaveOrganization_cases h with ⟨-, rfl⟩ | ⟨_, _, _, _, -, -, hremoved⟩
      · exact .inl fun _ => Iff.rfl
      · exact .inl hremoved.organizations.archived
    case transferOwnership =>
      rcases transferOwnership_cases h with ⟨-, rfl⟩ | ⟨_, _, _, _, _, _, -, -, -, -, hsame, -⟩
      · exact .inl fun _ => Iff.rfl
      · exact .inl hsame.archived
    case upsertRole =>
      rcases upsertRole_cases h with ⟨-, rfl⟩ | ⟨_, _, _, _, _, _, -, -, -, -, rfl⟩
      · exact .inl fun _ => Iff.rfl
      · exact .inl (sameExcept_bump db _).archived
    case deleteRole =>
      rcases deleteRole_cases h with rfl | ⟨_, _, _, _, _, _, -, -, -, -, hsame, -⟩
      · exact .inl fun _ => Iff.rfl
      · exact .inl hsame.archived
    case setUserDisabled =>
      rcases setUserDisabled_cases h with ⟨-, rfl⟩ | ⟨_, -, -, -, harchived, -⟩
      · exact .inl fun _ => Iff.rfl
      · exact .inl harchived
    all_goals exact .inl (hsame (by simp [Command.writes]))
  · exact .inl fun _ => Iff.rfl

/-- An archived organization stays archived. -/
theorem stays_archived {c : Command} (h : postgres.next db c = some db') (harch : ArchivedIn db.organizations id) :
    ArchivedIn db'.organizations id := by
  rcases archivedIn_of_next h with hsame | ⟨p, org, -, horg, hset, -⟩
  · exact (hsame id).2 harch
  · have hne := ne_of_activeOrganization harch horg
    have hid : org.archivedRow.organizationId = p.organizationId :=
      (Table.find?_eq_some.1 (Option.filter_eq_some_iff.1 horg).1).2
    rw [ArchivedIn, hset, Table.find?_set_ne fun heq => hne (hid.symm.trans heq.symm)]
    exact harch

def Db.ArchivedSettled (db : Db) : Prop :=
  ∀ id, ArchivedIn db.organizations id → ∀ i ∈ db.invitations, i.organizationId = id → i.status ≠ .pending

/-- No step leaves or puts a pending invitation in an archived organization. -/
theorem archivedSettled_of_next {c : Command} (hsettled : db.ArchivedSettled) (hc : c.invitesArchived db = false)
    (h : postgres.next db c = some db') : db'.ArchivedSettled := by
  -- the invitations of an organization that was archived before the step are as they were
  have hbefore : ∀ id, ArchivedIn db.organizations id → ∀ i ∈ db'.invitations, i.organizationId = id →
      i.status ≠ .pending := by
    intro id harch i hi horg
    cases hm : c.managesTenant with
    | true =>
      exact hsettled id harch i (((tenantSame_of_next hm hc harch (hsettled id harch) h).invitations i horg).1 hi) horg
    | false =>
      have hw : .invitations ∉ c.writes := by
        cases c <;> simp [Command.managesTenant] at hm <;> simp [Command.writes]
      exact hsettled id harch i ((frame_of_next h).invitations hw ▸ hi) horg
  intro id harch i hi horg
  rcases archivedIn_of_next h with hsame | ⟨p, org, -, hactive, hset, hrevoked⟩
  · exact hbefore id ((hsame id).1 harch) i hi horg
  · by_cases hid : id = p.organizationId
    · rw [hrevoked] at hi
      obtain ⟨j, -, ⟨-, rfl⟩ | ⟨hkept, rfl⟩⟩ := mem_revokeInvitations hi
      · exact fun hp => by cases hp
      · exact fun hp => of_decide_eq_false hkept ⟨horg.trans hid, hp⟩
    · have horgId : org.archivedRow.organizationId = p.organizationId :=
        (Table.find?_eq_some.1 (Option.filter_eq_some_iff.1 hactive).1).2
      rw [ArchivedIn, hset, Table.find?_set_ne fun heq => hid (heq.trans horgId)] at harch
      exact hbefore id harch i hi horg

/-- In a run that never invites to an archived organization, tenant management leaves every archived organization as
it is. -/
theorem archived_organization_frozen {org : Organization}
    (hreach : ReachableBy postgres (fun db c => c.invitesArchived db = false) db) (horg : org ∈ db.organizations)
    (harch : org.status = .archived)
    (hrun : Steps postgres (fun db c => c.invitesArchived db = false) db db') :
    (∀ i ∈ db'.invitations, i.organizationId = org.organizationId → i.status ≠ .pending) ∧
      ∀ c : Command, c.managesTenant = true → c.invitesArchived db' = false →
        TenantSame org.organizationId db' (db'.step c) := by
  have hsettled : db.ArchivedSettled := ReachableBy.invariant
    (fun _ _ _ hi => (List.not_mem_nil hi).elim) (fun hs hc hn => archivedSettled_of_next hs hc hn) hreach
  have harchived : ArchivedIn db.organizations org.organizationId := ⟨org, Table.find?_of_mem horg, harch⟩
  obtain ⟨hsettled', harchived'⟩ := Steps.invariant
    (I := fun db => db.ArchivedSettled ∧ ArchivedIn db.organizations org.organizationId)
    (fun hI hc hn => ⟨archivedSettled_of_next hI.1 hc hn, stays_archived hn hI.2⟩) hrun ⟨hsettled, harchived⟩
  exact ⟨hsettled' _ harchived', fun c hm hc => tenantSame_of_next hm hc harchived' (hsettled' _ harchived') rfl⟩

end Runs

/-! ## An invitation to an archived organization -/

def archiveAcme : List Command :=
  [.archiveOrganization
    { sessionId := ⟨2⟩, organizationId := ⟨3⟩, nowMs := 0, uuids := uuidsFrom 600 }]

def inviteLate : Command :=
  inviteToAcme "b@example.com" "member" ⟨4⟩ ⟨102⟩ [2] 0

theorem archived_acme_frozen : ∃ db, ∃ org ∈ db.organizations, org.status = .archived ∧
    ReachableBy postgres (fun db c => c.invitesArchived db = false) db ∧
    TenantSame org.organizationId db (db.step (.leaveOrganization
      { sessionId := ⟨2⟩, organizationId := ⟨3⟩, nowMs := 0, uuids := uuidsFrom 700 })) := by
  obtain ⟨db, hreach, hany⟩ := exists_reachableBy_of_run postgres (fun db c => !c.invitesArchived db)
    (foundAcme ++ archiveAcme) (fun db => db.organizations.rows.any fun o => decide (o.status = .archived))
    (by decide +kernel) (by simp : ∀ {db c}, (!Command.invitesArchived c db) = true → c.invitesArchived db = false)
  obtain ⟨org, horg, harch⟩ := List.any_eq_true.1 hany
  have harch : org.status = .archived := of_decide_eq_true harch
  exact ⟨db, org, horg, harch, hreach, (archived_organization_frozen hreach horg harch (.refl db)).2 _ rfl rfl⟩

theorem archived_acme_invited : ∃ db, Reachable postgres db ∧ ∃ org ∈ db.organizations, org.status = .archived ∧
    inviteLate.managesTenant = true ∧ ¬ TenantSame org.organizationId db (db.step inviteLate) ∧
    ∃ i ∈ (db.step inviteLate).invitations, i.organizationId = org.organizationId ∧ i.status = .pending := by
  obtain ⟨db, hreach, hany⟩ := exists_reachable_of_run postgres (foundAcme ++ archiveAcme)
    (fun db => db.organizations.rows.any fun o => decide (o.status = .archived) &&
      (db.step inviteLate).invitations.rows.any fun i => decide (i.organizationId = o.organizationId ∧
        i.status = .pending ∧ i ∉ db.invitations.rows)) (by decide +kernel)
  obtain ⟨org, horg, hany⟩ := List.any_eq_true.1 hany
  obtain ⟨harch, hany⟩ := Bool.and_eq_true_iff.1 hany
  obtain ⟨i, hi, hnew⟩ := List.any_eq_true.1 hany
  obtain ⟨hid, hpending, hnew⟩ := of_decide_eq_true hnew
  exact ⟨db, hreach, org, horg, of_decide_eq_true harch, rfl, fun hsame => hnew ((hsame.invitations i hid).1 hi),
    i, hi, hid, hpending⟩

end WasiAuth
