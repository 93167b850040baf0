import WasiAuth.Postgres.TenantSteps

/-! # The tables each statement writes

`Command.writes` lists, for every statement, the tables it may write; `frame_of_next` shows that a step leaves
every other table as it was. An invariant about one table then needs an argument only for the statements that
list it.
-/

namespace WasiAuth

open Relational Relation

inductive TableName
  | users | externalIdentities | passwords | passkeys | totpFactors | recoveryCodes | flows | sessions
  | refreshTokens | oneTimeTokens | organizations | roles | rolePermissions | memberships | invitations
  | systemAdministrators | signingKeys | policyBundles | idempotency | rateLimitBuckets | outbox
deriving DecidableEq

/-- The table, emptied if `w` names it. -/
def unlisted {κ α : Type} {key : α → κ} (w : List TableName) (name : TableName) (t : Table key) : Table key :=
  bif w.elem name then .empty else t

theorem unlisted_of_not_mem {κ α : Type} {key : α → κ} {w : List TableName} {name : TableName} {t : Table key}
    (h : name ∉ w) : unlisted w name t = t := by
  simp [unlisted, h]

/-- The tables that `w` does not name. -/
def Db.without (w : List TableName) (db : Db) : Db where
  users := unlisted w .users db.users
  externalIdentities := unlisted w .externalIdentities db.externalIdentities
  passwords := unlisted w .passwords db.passwords
  passkeys := unlisted w .passkeys db.passkeys
  totpFactors := unlisted w .totpFactors db.totpFactors
  recoveryCodes := unlisted w .recoveryCodes db.recoveryCodes
  flows := unlisted w .flows db.flows
  sessions := unlisted w .sessions db.sessions
  refreshTokens := unlisted w .refreshTokens db.refreshTokens
  oneTimeTokens := unlisted w .oneTimeTokens db.oneTimeTokens
  organizations := unlisted w .organizations db.organizations
  roles := unlisted w .roles db.roles
  rolePermissions := unlisted w .rolePermissions db.rolePermissions
  memberships := unlisted w .memberships db.memberships
  invitations := unlisted w .invitations db.invitations
  systemAdministrators := unlisted w .systemAdministrators db.systemAdministrators
  signingKeys := unlisted w .signingKeys db.signingKeys
  policyBundles := unlisted w .policyBundles db.policyBundles
  idempotency := unlisted w .idempotency db.idempotency
  rateLimitBuckets := unlisted w .rateLimitBuckets db.rateLimitBuckets
  outbox := unlisted w .outbox db.outbox

/-- Only tables of `w` have changed. -/
def Frame (w : List TableName) (db db' : Db) : Prop := db'.without w = db.without w

/-- The tables that the statement names as targets. -/
def Command.writes : Command → List TableName
  | .registerPassword _ => [.users, .passwords, .oneTimeTokens, .outbox, .idempotency]
  | .resendEmailVerification _ => [.rateLimitBuckets, .oneTimeTokens, .outbox]
  | .verifyEmail _ => [.oneTimeTokens, .users, .systemAdministrators, .sessions]
  | .issuePasswordSession _ => [.passwords, .sessions]
  | .startPasswordReset _ => [.oneTimeTokens, .outbox]
  | .completePasswordReset _ => [.oneTimeTokens, .passwords, .users, .sessions, .refreshTokens]
  | .changePassword _ => [.passwords, .users, .sessions, .refreshTokens]
  | .revokeSession _ => [.sessions, .refreshTokens]
  | .startTotpEnrollment _ => [.totpFactors]
  | .confirmTotpEnrollment _ => [.totpFactors, .recoveryCodes, .sessions]
  | .verifyTotpStepUp _ => [.totpFactors, .sessions]
  | .useRecoveryCode _ => [.recoveryCodes, .sessions]
  | .createAuthFlow _ => [.flows]
  | .completeOauthIdentity _ => [.flows, .users, .externalIdentities, .sessions]
  | .completePasskeyRegistration _ => [.flows, .passkeys, .sessions]
  | .completePasskeyAuthentication _ => [.flows, .passkeys, .sessions]
  | .issueTokenPair _ => [.refreshTokens]
  | .rotateRefreshToken _ => [.refreshTokens, .sessions]
  | .createOrganization _ =>
    [.organizations, .roles, .rolePermissions, .memberships, .sessions, .idempotency, .outbox]
  | .selectOrganization _ => [.sessions]
  | .updateOrganization _ => [.organizations]
  | .archiveOrganization _ => [.organizations, .oneTimeTokens, .invitations, .sessions]
  | .createInvitation _ => [.invitations, .oneTimeTokens, .outbox]
  | .resendInvitation _ => [.invitations, .oneTimeTokens, .outbox]
  | .revokeInvitation _ => [.invitations, .oneTimeTokens]
  | .acceptInvitation _ => [.invitations, .oneTimeTokens, .memberships, .organizations, .sessions, .outbox]
  | .assignMembershipRole _ => [.memberships, .organizations, .outbox]
  | .removeMembership _ => [.memberships, .organizations, .sessions, .outbox]
  | .leaveOrganization _ => [.memberships, .organizations, .sessions, .outbox]
  | .transferOwnership _ => [.memberships, .organizations, .outbox]
  | .upsertRole _ => [.roles, .rolePermissions, .organizations]
  | .deleteRole _ => [.memberships, .organizations, .outbox, .invitations, .roles, .rolePermissions]
  | .setUserDisabled _ => [.users, .memberships, .organizations, .sessions, .outbox]
  | .rotateSigningKey _ => [.signingKeys]
  | .syncSigningKeys _ => [.signingKeys]
  | .publishPolicyBundle _ => [.policyBundles]
  | .leaseOutbox _ => [.outbox]
  | .completeOutbox _ => [.outbox]
  | .retryOutbox _ => [.outbox]

namespace Frame

variable {db db' : Db} {w : List TableName}

theorem refl (db : Db) : Frame w db db := rfl

variable (h : Frame w db db')
include h

theorem rows {κ α : Type} {key : α → κ} {name : TableName} (hw : name ∉ w)
    (table : Db → Table key) (htable : ∀ db, table (db.without w) = unlisted w name (table db)) :
    table db' = table db :=
  calc table db' = table (db'.without w) := by rw [htable, unlisted_of_not_mem hw]
    _ = table (db.without w) := congrArg table h
    _ = table db := by rw [htable, unlisted_of_not_mem hw]

theorem users (hw : .users ∉ w) : db'.users = db.users :=
  h.rows hw Db.users fun _ => rfl

theorem signingKeys (hw : .signingKeys ∉ w) : db'.signingKeys = db.signingKeys :=
  h.rows hw Db.signingKeys fun _ => rfl

theorem organizations (hw : .organizations ∉ w) : db'.organizations = db.organizations :=
  h.rows hw Db.organizations fun _ => rfl

theorem invitations (hw : .invitations ∉ w) : db'.invitations = db.invitations :=
  h.rows hw Db.invitations fun _ => rfl

theorem oneTimeTokens (hw : .oneTimeTokens ∉ w) : db'.oneTimeTokens = db.oneTimeTokens :=
  h.rows hw Db.oneTimeTokens fun _ => rfl

theorem roles (hw : .roles ∉ w) : db'.roles = db.roles :=
  h.rows hw Db.roles fun _ => rfl

theorem rolePermissions (hw : .rolePermissions ∉ w) : db'.rolePermissions = db.rolePermissions :=
  h.rows hw Db.rolePermissions fun _ => rfl

theorem flows (hw : .flows ∉ w) : db'.flows = db.flows :=
  h.rows hw Db.flows fun _ => rfl

theorem sessions (hw : .sessions ∉ w) : db'.sessions = db.sessions :=
  h.rows hw Db.sessions fun _ => rfl

theorem refreshTokens (hw : .refreshTokens ∉ w) : db'.refreshTokens = db.refreshTokens :=
  h.rows hw Db.refreshTokens fun _ => rfl

theorem memberships (hw : .memberships ∉ w) : db'.memberships = db.memberships :=
  h.rows hw Db.memberships fun _ => rfl

theorem idempotency (hw : .idempotency ∉ w) : db'.idempotency = db.idempotency :=
  h.rows hw Db.idempotency fun _ => rfl

end Frame

/-! ## Every step -/

section Steps
variable {db db' : Db}

/-- Every outcome of a statement is the tables it found with others in the place of those it lists. -/
theorem frame_of_execute {c : Command} (h : c.execute db = .ok db') : Frame c.writes db db' := by
  cases c <;> simp only [Command.execute, written_eq_ok] at h <;> obtain ⟨r, h⟩ := h
  case registerPassword =>
    rcases registerPassword_cases h with rfl | hreg
    · exact .refl _
    · rw [hreg.others]; rfl
  case resendEmailVerification =>
    obtain ⟨_, rfl | ⟨_, _, _, _, -, -, rfl⟩⟩ := resendEmailVerification_cases h <;> exact rfl
  case verifyEmail =>
    rcases verifyEmail_cases h with ⟨-, rfl⟩ | ⟨_, -, ⟨-, rfl⟩ | ⟨_, _, _, -, -, -, -, -, rfl⟩⟩ <;> exact rfl
  case issuePasswordSession =>
    rcases issuePasswordSession_cases h with ⟨-, rfl⟩ | ⟨_, _, _, -, -, -, -, -, -, -, -, rfl⟩ <;> exact rfl
  case startPasswordReset =>
    rcases startPasswordReset_cases h with rfl | ⟨_, _, _, -, -, rfl⟩ <;> exact rfl
  case completePasswordReset =>
    rcases completePasswordReset_cases h with
      ⟨-, rfl⟩ | ⟨_, _, -, ⟨-, rfl⟩ | ⟨_, _, _, -, -, -, -, -, rfl⟩⟩ <;> exact rfl
  case changePassword =>
    rcases changePassword_cases h with ⟨-, rfl⟩ | ⟨_, _, _, _, -, -, -, -, -, -, rfl⟩ <;> exact rfl
  case revokeSession =>
    rcases revokeSession_cases h with ⟨-, rfl⟩ | ⟨_, -, rfl⟩ <;> exact rfl
  case startTotpEnrollment =>
    rcases startTotpEnrollment_cases h with ⟨-, rfl⟩ | ⟨_, _, -, -, ⟨_, -, rfl⟩ | ⟨_, -, -, rfl⟩⟩ <;> exact rfl
  case confirmTotpEnrollment =>
    rcases confirmTotpEnrollment_cases h with ⟨-, -, rfl⟩ | ⟨_, _, db₁, -, -, hfactor, rfl⟩
    · exact .refl _
    · rcases enableFactor_cases hfactor with ⟨-, rfl⟩ | ⟨_, _, -, -, -, -, rfl⟩ <;> exact rfl
  case verifyTotpStepUp =>
    rcases verifyTotpStepUp_cases h with ⟨-, rfl⟩ | ⟨_, _, _, -, -, -, -, -, -, rfl⟩ <;> exact rfl
  case useRecoveryCode =>
    rcases useRecoveryCode_cases h with ⟨-, rfl⟩ | ⟨_, _, _, -, -, -, -, rfl⟩ <;> exact rfl
  case createAuthFlow =>
    obtain ⟨_, -, rfl⟩ := createAuthFlow_eq_ok h
    exact rfl
  case completeOauthIdentity =>
    rcases completeOauthIdentity_cases h with ⟨-, rfl⟩ | ⟨_, _, _, -, -, ⟨-, rfl⟩ | ⟨_, _, -, -, -, rfl⟩⟩ <;> exact rfl
  case completePasskeyRegistration =>
    rcases completePasskeyRegistration_cases h with ⟨-, rfl | ⟨_, -, rfl⟩⟩ | ⟨_, _, _, _, -, -, -, -, rfl⟩ <;> exact rfl
  case completePasskeyAuthentication =>
    rcases completePasskeyAuthentication_cases h with
      ⟨-, rfl⟩ | ⟨_, -, -, ⟨-, rfl⟩ | ⟨_, -, -, ⟨-, rfl, -⟩ | ⟨_, -, -, -, hins⟩⟩⟩
    · exact .refl _
    · exact rfl
    · exact rfl
    · obtain ⟨_, -, rfl⟩ := insertSession_eq_ok hins
      exact rfl
  case issueTokenPair =>
    rcases issueTokenPair_cases h with ⟨-, rfl⟩ | ⟨_, _, _, -, -, -, rfl⟩ <;> exact rfl
  case rotateRefreshToken =>
    cases rotateRefreshToken_cases h with
    | invalid => exact .refl _
    | rotated => exact rfl
    | replayed => exact .refl _
    | reuse => exact rfl
  case createOrganization =>
    rcases createOrganization_cases h with ⟨_, -, rfl, -⟩ | ⟨-, rfl, -⟩ | ⟨_, _, _, -, hfounded⟩
    · exact .refl _
    · exact .refl _
    · rw [hfounded.others]; rfl
  case selectOrganization =>
    rcases selectOrganization_cases h with ⟨-, rfl⟩ | ⟨_, _, _, _, -, -, rfl⟩ <;> exact rfl
  case updateOrganization =>
    rcases updateOrganization_cases h with ⟨-, rfl⟩ | ⟨_, _, _, _, -, -, rfl⟩ <;> exact rfl
  case archiveOrganization =>
    rcases archiveOrganization_cases h with ⟨-, rfl⟩ | ⟨_, _, _, _, -, -, rfl⟩ <;> exact rfl
  case createInvitation =>
    rcases createInvitation_cases h with ⟨-, rfl⟩ | ⟨_, _, _, _, _, _, -, -, -, -, -, -, -, rfl⟩ <;> exact rfl
  case resendInvitation =>
    rcases resendInvitation_cases h with ⟨-, rfl⟩ | ⟨_, _, _, _, _, _, -, -, -, -, -, -, rfl⟩ <;> exact rfl
  case revokeInvitation =>
    rcases revokeInvitation_cases h with ⟨-, rfl⟩ | ⟨_, _, _, _, -, -, -, rfl⟩ <;> exact rfl
  case acceptInvitation =>
    cases acceptInvitation_cases h with
    | refused => exact rfl
    | untokened => exact rfl
    | accepted => exact rfl
  case assignMembershipRole =>
    rcases assignMembershipRole_cases h with ⟨-, rfl⟩ | ⟨_, _, _, _, _, _, -, -, -, -, -, hrow⟩
    · exact rfl
    · obtain ⟨_, hdb⟩ := hrow.others
      rw [hdb]; rfl
  case removeMembership =>
    rcases removeMembership_cases h with ⟨-, rfl⟩ | ⟨_, _, _, _, _, -, -, -, hrow⟩
    · exact rfl
    · obtain ⟨_, hdb⟩ := hrow.others
      rw [hdb]; rfl
  case leaveOrganization =>
    rcases leaveOrganization_cases h with ⟨-, rfl⟩ | ⟨_, _, _, _, -, -, hrow⟩
    · exact rfl
    · obtain ⟨_, hdb⟩ := hrow.others
      rw [hdb]; rfl
  case transferOwnership =>
    rcases transferOwnership_cases h with ⟨-, rfl⟩ | ⟨_, _, _, _, _, _, -, -, -, -, -, hdb⟩
    · exact rfl
    · rw [hdb]; rfl
  case upsertRole =>
    rcases upsertRole_cases h with ⟨-, rfl⟩ | ⟨_, _, _, _, _, _, -, -, -, -, rfl⟩ <;> exact rfl
  case deleteRole =>
    rcases deleteRole_cases h with rfl | ⟨_, _, _, _, _, _, -, -, -, -, -, hdb⟩
    · exact rfl
    · rw [hdb]; rfl
  case setUserDisabled =>
    rcases setUserDisabled_cases h with ⟨-, rfl⟩ | ⟨_, -, -, -, -, hdb⟩
    · exact rfl
    · rw [hdb]; rfl
  case rotateSigningKey =>
    obtain ⟨_, rfl⟩ := rotateSigningKey_others h
    exact rfl
  case syncSigningKeys =>
    obtain ⟨_, rfl⟩ := syncSigningKeys_others h
    exact rfl
  case publishPolicyBundle =>
    obtain ⟨_, rfl⟩ := publishPolicyBundle_others h
    exact rfl
  all_goals cases h; exact rfl

theorem frame_of_next {c : Command} (h : postgres.next db c = some db') : Frame c.writes db db' := by
  rcases step_cases h with h | rfl
  · exact frame_of_execute h
  · exact .refl _

end Steps

/-! ## The memberships along a step -/

/-- Commands that end memberships. -/
def Command.endsMembership : Command → Bool
  | .removeMembership _ | .leaveOrganization _ | .setUserDisabled _ => true
  | _ => false

/-- The writes to `auth_memberships` that statements other than the disable switch make. -/
inductive MemberWrite (c : Command) (t t' : Table Membership.key) : Prop
  | insert {m : Membership} (hm : m.status = .active) (h : t.insertOr SqlError.uniqueViolation m = .ok t')
  | activate {m : Membership} (h : t' = t.set m) (hm : m.status = .active)
  | remove {m : Membership} (hc : c.endsMembership = true) (h : t' = t.set m) (hm : m.status = .removed)
  | reassign {p : Membership → Bool} {f : Membership → Membership} (hkey : ∀ m, (f m).key = m.key)
      (hf : ∀ m, (f m).status = m.status) (h : t' = t.update p f hkey)

section Members
variable {db db' : Db} {c : Command}

theorem memberWrite_of_removed {target : Membership} {nowMs : Int} (hc : c.endsMembership = true)
    (h : Removed target nowMs db db') : MemberWrite c db.memberships db'.memberships := by
  obtain ⟨_, hdb⟩ := h.others
  exact .remove hc (congrArg Db.memberships hdb) rfl

/-- What a step does to the memberships, one row at a time. -/
theorem memberWrites_of_next (hc : ∀ p, c ≠ .setUserDisabled p) (h : postgres.next db c = some db') :
    ReflTransGen (MemberWrite c) db.memberships db'.memberships := by
  have hframe := frame_of_next h
  rcases step_cases h with h | rfl
  · cases c <;> simp only [Command.execute, written_eq_ok] at h <;> obtain ⟨r, h⟩ := h
    case createOrganization =>
      rcases createOrganization_cases h with ⟨_, -, rfl, -⟩ | ⟨-, rfl, -⟩ | ⟨_, _, _, -, hfounded⟩
      · exact .refl
      · exact .refl
      · exact .single (.insert rfl hfounded.memberships)
    case acceptInvitation =>
      cases acceptInvitation_cases h with
      | refused => exact .refl
      | untokened => exact .refl
      | accepted _ _ _ _ hm =>
        rcases hm with hins | ⟨_, -, hset⟩
        · exact .single (.insert rfl hins)
        · exact .single (.activate hset rfl)
    case assignMembershipRole =>
      rcases assignMembershipRole_cases h with ⟨-, rfl⟩ | ⟨_, _, _, _, target, _, -, -, htarget, -, -, hrewritten⟩
      · exact .refl
      · obtain ⟨_, hdb⟩ := hrewritten.others
        exact .single (.activate (congrArg Db.memberships hdb) (activeMembership_eq_some htarget).2.2)
    case transferOwnership =>
      rcases transferOwnership_cases h with ⟨-, rfl⟩ | ⟨_, _, actor, _, target, _, hactor, -, -, htarget, -, hdb⟩
      · exact .refl
      · have htarget := (activeMembership_eq_some htarget).2.2
        have hactor := (organizationId_of_memberActor (permittedActor_eq_some hactor).1).2.2.2
        rw [hdb]
        simp only [TransferOwnership.memberships]
        split
        · refine .head (.activate rfl ?_) (.single (.activate rfl ?_))
          · exact htarget
          · exact hactor
        · refine .single (.activate rfl ?_)
          exact htarget
    case removeMembership =>
      rcases removeMembership_cases h with ⟨-, rfl⟩ | ⟨_, _, _, _, _, -, -, -, hremoved⟩
      · exact .refl
      · exact .single (memberWrite_of_removed rfl hremoved)
    case leaveOrganization =>
      rcases leaveOrganization_cases h with ⟨-, rfl⟩ | ⟨_, _, _, _, -, -, hremoved⟩
      · exact .refl
      · exact .single (memberWrite_of_removed rfl hremoved)
    case deleteRole =>
      rcases deleteRole_cases h with rfl | ⟨_, _, _, _, _, _, -, -, -, -, -, hdb⟩
      · exact .refl
      · rw [hdb]
        dsimp only
        unfold DeleteRole.formerMembers
        rw [Table.foldl_set_eq_update (f := DeleteRole.reassign _) (fun _ => rfl) (.refl _)]
        exact .single (.reassign (f := DeleteRole.reassign _) (fun _ => rfl) (fun _ => rfl) rfl)
    case setUserDisabled => exact absurd rfl (hc _)
    all_goals rw [hframe.memberships (by simp [Command.writes])]
  · exact .refl

end Members

end WasiAuth
