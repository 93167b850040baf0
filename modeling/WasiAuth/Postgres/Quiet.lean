import WasiAuth.Postgres.Writes

/-! # Commands that leave memberships alone

Most commands do not touch `auth_memberships`. `Quiet` says everything such a command can do to the
tenant tables: an organization keeps its owner count and its revision does not go back, a change of a
role's permissions comes with a higher authorization revision of that organization, and the outbox only
gains mail. Every invariant about organizations, memberships and relationship intents is then proved
once for `Quiet` instead of once per command.
-/

namespace WasiAuth

open Relational Relation

/-- The roles of the organization hold the permissions they held. -/
def SamePermissions (db db' : Db) (organization : Uuid) : Prop :=
  ∀ r : RolePermission, r.organizationId = organization → (r ∈ db'.rolePermissions ↔ r ∈ db.rolePermissions)

/-- The authorization revision of the organization increases. -/
def RevisionGrows (db db' : Db) (organization : Uuid) : Prop :=
  ∃ o o', db.organizations.find? organization = some o ∧ db'.organizations.find? organization = some o' ∧
    o.authorizationRevision < o'.authorizationRevision

/-- Memberships stay; organizations advance; a change of permissions comes with a higher revision. -/
structure KeepsMembers (db db' : Db) : Prop where
  memberships : db'.memberships = db.memberships
  organizations : ∀ id, Option.Rel Organization.Advances (db.organizations.find? id) (db'.organizations.find? id)
  permissions : ∀ id, SamePermissions db db' id ∨ RevisionGrows db db' id

theorem optionRel_refl (o : Option Organization) : Option.Rel Organization.Advances o o := by
  cases o with
  | none => exact .none
  | some o => exact .some (.refl o)

namespace KeepsMembers

variable {db db' db₁ db₂ db₃ : Db}

theorem of_eq (hm : db'.memberships = db.memberships) (ho : db'.organizations = db.organizations)
    (hp : db'.rolePermissions = db.rolePermissions) : KeepsMembers db db' where
  memberships := hm
  organizations id := by rw [ho]; exact optionRel_refl _
  permissions id := .inl fun r _ => by rw [hp]

theorem organization_of_before (h : KeepsMembers db db') {id : Uuid} {o : Organization}
    (ho : db.organizations.find? id = some o) :
    ∃ o', db'.organizations.find? id = some o' ∧ o.Advances o' := by
  have hrel := h.organizations id
  rw [ho] at hrel
  cases h' : db'.organizations.find? id with
  | none => rw [h'] at hrel; cases hrel
  | some o' =>
    rw [h'] at hrel
    cases hrel with
    | some hadv => exact ⟨o', rfl, hadv⟩

theorem organization_of_after (h : KeepsMembers db db') {id : Uuid} {o' : Organization}
    (ho : db'.organizations.find? id = some o') :
    ∃ o, db.organizations.find? id = some o ∧ o.Advances o' := by
  have hrel := h.organizations id
  rw [ho] at hrel
  cases h' : db.organizations.find? id with
  | none => rw [h'] at hrel; cases hrel
  | some o =>
    rw [h'] at hrel
    cases hrel with
    | some hadv => exact ⟨o, rfl, hadv⟩

theorem trans (h : KeepsMembers db₁ db₂) (h' : KeepsMembers db₂ db₃) : KeepsMembers db₁ db₃ where
  memberships := h'.memberships.trans h.memberships
  organizations id := by
    cases h₃ : db₃.organizations.find? id with
    | none =>
      cases h₁ : db₁.organizations.find? id with
      | none => exact .none
      | some o =>
        obtain ⟨o₂, h₂, -⟩ := h.organization_of_before h₁
        obtain ⟨o₃, h₃', -⟩ := h'.organization_of_before h₂
        simp [h₃] at h₃'
    | some o₃ =>
      obtain ⟨o₂, h₂, hadv'⟩ := h'.organization_of_after h₃
      obtain ⟨o₁, h₁, hadv⟩ := h.organization_of_after h₂
      rw [h₁]
      exact .some (hadv.trans hadv')
  permissions id := by
    rcases h.permissions id with hs | ⟨o, o', ho, ho', hlt⟩
    · rcases h'.permissions id with hs' | ⟨o, o', ho, ho', hlt⟩
      · exact .inl fun r hr => (hs' r hr).trans (hs r hr)
      · obtain ⟨o₁, ho₁, hadv⟩ := h.organization_of_after ho
        exact .inr ⟨o₁, o', ho₁, ho', hadv.revision.trans_lt hlt⟩
    · obtain ⟨o₃, ho₃, hadv⟩ := h'.organization_of_before ho'
      exact .inr ⟨o, o₃, ho, ho₃, hlt.trans_le hadv.revision⟩

end KeepsMembers

/-- Memberships stay, and the outbox gets mail only. -/
structure Quiet (db db' : Db) : Prop extends KeepsMembers db db' where
  outbox : ∃ new, db'.outbox.rows = db.outbox.rows ++ new ∧ ∀ row ∈ new, row.IsNewMail

namespace Quiet

variable {db₁ db₂ db₃ : Db}

theorem of_same {db db' : Db} (h : db'.tenancy = db.tenancy) : Quiet db db' where
  toKeepsMembers := .of_eq (congrArg TenancyTables.memberships h) (congrArg TenancyTables.organizations h)
    (congrArg TenancyTables.rolePermissions h)
  outbox := by
    have houtbox : db'.outbox = db.outbox := congrArg TenancyTables.outbox h
    exact ⟨[], by simp [houtbox], by simp⟩

theorem trans (h : Quiet db₁ db₂) (h' : Quiet db₂ db₃) : Quiet db₁ db₃ where
  toKeepsMembers := h.toKeepsMembers.trans h'.toKeepsMembers
  outbox := by
    obtain ⟨new, hrows, hnew⟩ := h.outbox
    obtain ⟨new', hrows', hnew'⟩ := h'.outbox
    refine ⟨new ++ new', by rw [hrows', hrows, List.append_assoc], fun row hrow => ?_⟩
    rcases List.mem_append.1 hrow with hrow | hrow
    · exact hnew row hrow
    · exact hnew' row hrow

end Quiet

/-- Users keep their email and sessions their user and creation time; neither is ever deleted. -/
structure KeepsAccounts (db db' : Db) : Prop where
  users : ∀ {id u}, db.users.find? id = some u →
    ∃ u', db'.users.find? id = some u' ∧ u'.primaryEmail = u.primaryEmail
  sessions : ∀ {id s}, db.sessions.find? id = some s →
    ∃ s', db'.sessions.find? id = some s' ∧ s'.userId = s.userId ∧ s'.createdAtMs = s.createdAtMs

namespace KeepsAccounts

variable {db db' db₁ db₂ db₃ : Db}

theorem of_eq (hu : db'.users = db.users) (hs : db'.sessions = db.sessions) : KeepsAccounts db db' where
  users h := ⟨_, by rw [hu]; exact h, rfl⟩
  sessions h := ⟨_, by rw [hs]; exact h, rfl, rfl⟩

theorem trans (h : KeepsAccounts db₁ db₂) (h' : KeepsAccounts db₂ db₃) : KeepsAccounts db₁ db₃ where
  users hu := by
    obtain ⟨u₂, hu₂, he⟩ := h.users hu
    obtain ⟨u₃, hu₃, he'⟩ := h'.users hu₂
    exact ⟨u₃, hu₃, he'.trans he⟩
  sessions hs := by
    obtain ⟨s₂, hs₂, hu, hc⟩ := h.sessions hs
    obtain ⟨s₃, hs₃, hu', hc'⟩ := h'.sessions hs₂
    exact ⟨s₃, hs₃, hu'.trans hu, hc'.trans hc⟩

theorem updateSessions {p : Session → Bool} {f : Session → Session} {hf : ∀ s, (f s).sessionId = s.sessionId}
    (hu : ∀ s, (f s).userId = s.userId) (hc : ∀ s, (f s).createdAtMs = s.createdAtMs) :
    KeepsAccounts db (db.updateSessions p f hf) where
  users h := ⟨_, h, rfl⟩
  sessions h := by
    refine ⟨_, by rw [Db.updateSessions, Table.find?_update, h]; rfl, ?_⟩
    dsimp only
    split <;> simp [hu, hc]

theorem insertSession {s : Session} {sessions : Table Session.sessionId}
    (h : db.sessions.insertOr SqlError.uniqueViolation s = .ok sessions) :
    KeepsAccounts db { db with sessions := sessions } :=
  ⟨fun hu => ⟨_, hu, rfl⟩, fun h₀ => ⟨_, Table.find?_insertOr_of_some h h₀, rfl, rfl⟩⟩

theorem insertUser {u : User} {users : Table User.userId}
    (h : db.users.insertOr SqlError.uniqueViolation u = .ok users) :
    KeepsAccounts db { db with users := users } :=
  ⟨fun h₀ => ⟨_, Table.find?_insertOr_of_some h h₀, rfl⟩, fun hs => ⟨_, hs, rfl, rfl⟩⟩

theorem setUser {u u' : User} (hu : db.users.find? u'.userId = some u) (he : u'.primaryEmail = u.primaryEmail) :
    KeepsAccounts db (db.setUser u') := by
  refine ⟨fun {id u₀} h₀ => ?_, fun hs => ⟨_, hs, rfl, rfl⟩⟩
  by_cases hid : id = u'.userId
  · subst hid
    rw [hu] at h₀
    cases h₀
    exact ⟨u', Table.find?_set_self hu, he⟩
  · exact ⟨u₀, by simp [Db.setUser, Table.find?_set_ne hid, h₀], rfl⟩

end KeepsAccounts

/-! ## The shared writes -/

/-- A statement that does not write memberships. -/
structure Routine (db db' : Db) : Prop where
  quiet : Quiet db db'
  accounts : KeepsAccounts db db'

namespace Routine

variable {db db' db₁ db₂ db₃ : Db}

/-- The tables that are written are others. -/
theorem elsewhere (ht : db'.tenancy = db.tenancy) (hu : db'.users = db.users) (hs : db'.sessions = db.sessions) :
    Routine db db' :=
  ⟨.of_same ht, .of_eq hu hs⟩

theorem refl (db : Db) : Routine db db := elsewhere rfl rfl rfl

theorem trans (h : Routine db₁ db₂) (h' : Routine db₂ db₃) : Routine db₁ db₃ :=
  ⟨h.quiet.trans h'.quiet, h.accounts.trans h'.accounts⟩

/-- `trans`, read from the last write back to the first. -/
theorem after (h' : Routine db₂ db₃) (h : Routine db₁ db₂) : Routine db₁ db₃ := h.trans h'

theorem insertMail {outbox : Table OutboxRow.outboxId} (h : db.Mailed outbox) :
    Routine db { db with outbox := outbox } := by
  obtain ⟨row, hnew, hins⟩ := h
  refine ⟨⟨.of_eq rfl rfl rfl, [row], (Table.insertOr_eq_ok hins).2, fun row hrow => ?_⟩, .of_eq rfl rfl⟩
  rw [List.mem_singleton.1 hrow]
  exact hnew

theorem insertSession {s : Session} {sessions : Table Session.sessionId}
    (h : db.sessions.insertOr SqlError.uniqueViolation s = .ok sessions) : Routine db { db with sessions := sessions } :=
  ⟨.of_same rfl, .insertSession h⟩

theorem updateSessions {p : Session → Bool} {f : Session → Session} {hf : ∀ s, (f s).sessionId = s.sessionId}
    (hu : ∀ s, (f s).userId = s.userId := by intro _; rfl)
    (hc : ∀ s, (f s).createdAtMs = s.createdAtMs := by intro _; rfl) :
    Routine db (db.updateSessions p f hf) :=
  ⟨.of_same rfl, .updateSessions hu hc⟩

theorem setUser {u u' : User} (hu : db.users.find? u'.userId = some u) (he : u'.primaryEmail = u.primaryEmail) :
    Routine db (db.setUser u') :=
  ⟨.of_same rfl, .setUser hu he⟩

theorem setOrganization {o o' : Organization} (ho : db.organizations.find? o'.organizationId = some o)
    (hadv : o.Advances o') : Routine db (db.setOrganization o') := by
  refine ⟨⟨⟨rfl, fun id => ?_, fun id => .inl fun _ _ => Iff.rfl⟩, [], by simp [Db.setOrganization], by simp⟩,
    .of_eq rfl rfl⟩
  by_cases hid : id = o'.organizationId
  · subst hid
    simp only [Db.setOrganization, ho, Table.find?_set_self ho]
    exact .some hadv
  · simp only [Db.setOrganization, Table.find?_set_ne hid]
    exact optionRel_refl _

theorem bumpOrganization {id : Uuid} {o : Organization} (ho : db.organizations.find? id = some o) :
    Routine db (db.setOrganization { o with authorizationRevision := o.authorizationRevision + 1 }) := by
  have hfind : db.organizations.find? o.organizationId = some o := Table.find?_of_mem (Table.find?_eq_some.1 ho).1
  exact .setOrganization hfind ⟨rfl, Nat.le_succ _, fun h => h⟩

/-- Permissions of one organization change together with its authorization revision. -/
theorem revise {organization : Uuid} {o : Organization} {permissions : Table (id : RolePermission → _)}
    (ho : db.organizations.find? organization = some o)
    (hp : ∀ r : RolePermission, r.organizationId ≠ organization → (r ∈ permissions ↔ r ∈ db.rolePermissions)) :
    Routine db (Db.bumpAuthorizationRevision organization { db with rolePermissions := permissions }) := by
  have hfind (id : Uuid) : (Db.bumpAuthorizationRevision organization
      { db with rolePermissions := permissions }).organizations.find? id =
        (db.organizations.find? id).map fun org =>
          if org.organizationId = organization then
            { org with authorizationRevision := org.authorizationRevision + 1 } else org := by
    simp only [Db.bumpAuthorizationRevision, Table.find?_update, decide_eq_true_eq]
  refine ⟨⟨⟨rfl, fun id => ?_, fun id => ?_⟩, [], by simp [Db.bumpAuthorizationRevision], by simp⟩, .of_eq rfl rfl⟩
  · rw [hfind]
    cases db.organizations.find? id with
    | none => exact .none
    | some org =>
      refine .some ?_
      dsimp only
      split
      · exact ⟨rfl, Nat.le_succ _, fun h => h⟩
      · exact .refl _
  · by_cases hid : id = organization
    · subst hid
      refine .inr ⟨o, _, ho, by rw [hfind, ho]; rfl, ?_⟩
      simp [(Table.find?_eq_some.1 ho).2]
    · exact .inl fun r hr => hp r (hr ▸ hid)

/-- Every shared write is routine. -/
theorem of_write (h : SharedWrite db db') : Routine db db' := by
  cases h with
  | others ha ht => exact elsewhere ht (congrArg AccountTables.users ha) (congrArg AccountTables.sessions ha)
  | insertUser h => exact ⟨.of_same rfl, .insertUser h⟩
  | setUser hu he => exact setUser hu he
  | insertSession h => exact insertSession h
  | updateSessions h => exact updateSessions (fun s => (h s).userId) fun s => (h s).createdAtMs
  | revokeRefreshTokens => exact elsewhere rfl rfl rfl
  | insertOneTimeToken => exact elsewhere rfl rfl rfl
  | consumeTokens => exact elsewhere rfl rfl rfl
  | insertMail h => exact insertMail h
  | setOrganization ho hadv => exact setOrganization ho hadv
  | revise ho hp => exact revise ho hp

theorem of_writes (h : Writes db db') : Routine db db' := by
  induction h with
  | refl => exact refl _
  | tail _ hw ih => exact ih.trans (of_write hw)

theorem elevateSession {sessionId : Uuid} : Routine db (db.elevateSession sessionId) := updateSessions

end Routine

/-! ## Factors, passkeys and refresh tokens -/

/-- So are the statements with writes of their own to the account tables. -/
theorem routine_of_execute {db db' : Db} {c : Command} (hc : c.ownsCredentials = true) (h : c.execute db = .ok db') :
    Routine db db' := by
  cases c <;> simp only [Command.execute, written_eq_ok] at h <;> obtain ⟨r, h⟩ := h
  case startTotpEnrollment =>
    rcases startTotpEnrollment_cases h with ⟨-, rfl⟩ | ⟨_, _, -, -, ⟨_, -, rfl⟩ | ⟨_, -, -, rfl⟩⟩
    · exact .refl _
    · exact .elsewhere rfl rfl rfl
    · exact .elsewhere rfl rfl rfl
  case confirmTotpEnrollment =>
    rcases confirmTotpEnrollment_cases h with ⟨-, -, rfl⟩ | ⟨_, _, db₁, -, -, henable, rfl⟩
    · exact .refl _
    · rcases enableFactor_cases henable with ⟨-, rfl⟩ | ⟨_, _, -, -, -, -, rfl⟩
      · exact .elevateSession
      · exact .after .elevateSession (.elsewhere rfl rfl rfl)
  case verifyTotpStepUp =>
    rcases verifyTotpStepUp_cases h with ⟨-, rfl⟩ | ⟨_, _, _, -, -, -, -, -, -, rfl⟩
    · exact .refl _
    · exact .after .elevateSession (.elsewhere rfl rfl rfl)
  case useRecoveryCode =>
    rcases useRecoveryCode_cases h with ⟨-, rfl⟩ | ⟨_, _, _, -, -, -, -, rfl⟩
    · exact .refl _
    · exact .after .elevateSession (.elsewhere rfl rfl rfl)
  case completePasskeyRegistration =>
    rcases completePasskeyRegistration_cases h with ⟨-, rfl | ⟨_, -, rfl⟩⟩ | ⟨_, _, _, _, -, -, -, -, rfl⟩
    · exact .refl _
    · exact .of_write .consumeFlow
    · exact .after .elevateSession (.elsewhere rfl rfl rfl)
  case completePasskeyAuthentication =>
    rcases completePasskeyAuthentication_cases h with
      ⟨-, rfl⟩ | ⟨_, -, -, ⟨-, rfl⟩ | ⟨_, -, -, ⟨-, rfl, -⟩ | ⟨_, -, -, -, hins⟩⟩⟩
    · exact .refl _
    · exact .of_write .consumeFlow
    · exact .elsewhere rfl rfl rfl
    · obtain ⟨_, hsession, rfl⟩ := insertSession_eq_ok hins
      exact .after (.insertSession hsession) (.elsewhere rfl rfl rfl)
  case issueTokenPair =>
    rcases issueTokenPair_cases h with ⟨-, rfl⟩ | ⟨_, _, _, -, -, -, rfl⟩
    · exact .refl _
    · exact .elsewhere rfl rfl rfl
  case rotateRefreshToken =>
    cases rotateRefreshToken_cases h with
    | invalid => exact .refl _
    | rotated => exact .after .updateSessions (.elsewhere rfl rfl rfl)
    | replayed => exact .refl _
    | reuse => exact .of_writes .revokeFamily
  all_goals cases hc

end WasiAuth
