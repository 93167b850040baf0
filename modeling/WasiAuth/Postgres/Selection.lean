import WasiAuth.Identity.Session
import WasiAuth.Postgres.Archived

/-! # The organization a session acts in

`select_organization`, `create_organization` and `accept_invitation` write the selection of a live session, for a
member of an active organization. What ends a membership or an organization clears the selections in it, and what
blocks a user's memberships revokes the user's sessions. So an unrevoked session acts only where its user is a member
(`Db.SelectionsHold`), and `load_request_context.sql` loses no live session to its join over the tenant.
-/

namespace WasiAuth

open Relational Transition

/-- The organization is active, and the user is an active member of it. -/
def Db.ActsIn (db : Db) (organization user : Uuid) : Prop :=
  (∃ org, db.activeOrganization organization = some org) ∧ ∃ m, db.activeMembership organization user = some m

/-- An unrevoked session acts where its user may. -/
def Db.SelectionsHold (db : Db) : Prop :=
  ∀ s ∈ db.sessions, s.revokedAtMs = none → ∀ o, s.selectedOrganizationId = some o → db.ActsIn o s.userId

/-! ## The sessions -/

/-- Every selection of an unrevoked session was there before. -/
def SelectionsStem (t t' : Table Session.sessionId) : Prop :=
  ∀ s' ∈ t', s'.revokedAtMs = none → ∀ o, s'.selectedOrganizationId = some o →
    ∃ s ∈ t, s.revokedAtMs = none ∧ s.userId = s'.userId ∧ s.selectedOrganizationId = some o

/-- The session is of the same user, no revocation is lifted, and the selection is kept or cleared. -/
structure Session.KeepsSelection (s s' : Session) : Prop where
  userId : s'.userId = s.userId
  revoked : s'.revokedAtMs = none → s.revokedAtMs = none
  selected : s'.selectedOrganizationId = s.selectedOrganizationId ∨ s'.selectedOrganizationId = none

namespace SelectionsStem

variable {db db' : Db} {t t' t₁ t₂ t₃ : Table Session.sessionId}

theorem refl (t : Table Session.sessionId) : SelectionsStem t t := fun s hs hopen _ ho => ⟨s, hs, hopen, rfl, ho⟩

theorem trans (h : SelectionsStem t₁ t₂) (h' : SelectionsStem t₂ t₃) : SelectionsStem t₁ t₃ := by
  intro s₃ hs₃ hopen o ho
  obtain ⟨s₂, hs₂, hopen₂, huser₂, ho₂⟩ := h' s₃ hs₃ hopen o ho
  obtain ⟨s₁, hs₁, hopen₁, huser₁, ho₁⟩ := h s₂ hs₂ hopen₂ o ho₂
  exact ⟨s₁, hs₁, hopen₁, huser₁.trans huser₂, ho₁⟩

theorem after (h' : SelectionsStem t₂ t₃) (h : SelectionsStem t₁ t₂) : SelectionsStem t₁ t₃ := h.trans h'

theorem map {p : Session → Bool} {f : Session → Session}
    (hrows : t'.rows = t.rows.map fun s => if p s then f s else s) (h : ∀ s : Session, s.KeepsSelection (f s)) :
    SelectionsStem t t' := by
  intro s' hs' hopen o ho
  rw [Table.mem_def, hrows] at hs'
  obtain ⟨s, hs, rfl⟩ := List.mem_map.1 hs'
  refine ⟨s, hs, ?_⟩
  split at hopen
  · rename_i hp
    rw [if_pos hp] at ho ⊢
    rcases (h s).selected with hkept | hcleared
    · exact ⟨(h s).revoked hopen, (h s).userId.symm, hkept ▸ ho⟩
    · rw [hcleared] at ho
      cases ho
  · rename_i hp
    rw [if_neg hp] at ho ⊢
    exact ⟨hopen, rfl, ho⟩

theorem insertOr {new : Session} (hnew : new.selectedOrganizationId = none)
    (h : t.insertOr SqlError.uniqueViolation new = .ok t') : SelectionsStem t t' := by
  intro s' hs' hopen o ho
  rcases (Table.mem_of_insertOr h).1 hs' with hs | rfl
  · exact ⟨s', hs, hopen, rfl, ho⟩
  · rw [hnew] at ho
    cases ho

theorem elevateSession {sessionId : Uuid} : SelectionsStem db.sessions (db.elevateSession sessionId).sessions :=
  map rfl fun _ => ⟨rfl, id, .inl rfl⟩

theorem clearSessions {p : Session → Bool} : SelectionsStem db.sessions (db.clearSessions p).sessions :=
  map rfl fun _ => ⟨rfl, id, .inr rfl⟩

end SelectionsStem

def Command.selects : Command → Bool
  | .createOrganization _ | .selectOrganization _ | .acceptInvitation _ => true
  | _ => false

section Sessions
variable {db db' : Db}

theorem selectionsStem_removed {target : Membership} {nowMs : Int} (h : Removed target nowMs db db') :
    SelectionsStem db.sessions db'.sessions := by
  obtain ⟨outbox, hdb⟩ := h.others
  rw [hdb]
  exact .clearSessions

/-- No other command selects an organization. -/
theorem selectionsStem_of_next {c : Command} (hc : c.selects = false) (h : postgres.next db c = some db') :
    SelectionsStem db.sessions db'.sessions := by
  have hframe := frame_of_next h
  rcases step_cases h with h | rfl
  · have hsame : .sessions ∉ c.writes → SelectionsStem db.sessions db'.sessions := fun hw => by
      rw [hframe.sessions hw]
      exact .refl _
    cases c <;> simp only [Command.execute, written_eq_ok] at h <;> obtain ⟨r, h⟩ := h
    case verifyEmail =>
      rcases verifyEmail_cases h with ⟨-, rfl⟩ | ⟨_, -, ⟨-, rfl⟩ | ⟨_, _, _, -, -, -, hins, -, rfl⟩⟩
      · exact .refl _
      · exact .refl _
      · exact .insertOr rfl hins
    case issuePasswordSession =>
      rcases issuePasswordSession_cases h with ⟨-, rfl⟩ | ⟨_, _, _, -, -, -, -, -, -, hins, -, rfl⟩
      · exact .refl _
      · exact .insertOr rfl hins
    case completePasswordReset =>
      rcases completePasswordReset_cases h with ⟨-, rfl⟩ | ⟨_, _, -, ⟨-, rfl⟩ | ⟨_, _, _, -, -, -, hins, -, rfl⟩⟩
      · exact .refl _
      · exact .refl _
      · exact .after (.insertOr rfl hins) (.map rfl fun s => ⟨rfl, by rintro ⟨⟩, .inl rfl⟩)
    case changePassword =>
      rcases changePassword_cases h with ⟨-, rfl⟩ | ⟨_, _, _, _, -, -, -, -, -, -, rfl⟩
      · exact .refl _
      · exact .after (.map rfl fun s => ⟨rfl, by rintro ⟨⟩, .inl rfl⟩) (.map rfl fun s => ⟨rfl, id, .inl rfl⟩)
    case revokeSession =>
      rcases revokeSession_cases h with ⟨-, rfl⟩ | ⟨_, -, rfl⟩
      · exact .refl _
      · exact .map rfl fun s => ⟨rfl, by rintro ⟨⟩, .inl rfl⟩
    case confirmTotpEnrollment =>
      rcases confirmTotpEnrollment_cases h with ⟨-, -, rfl⟩ | ⟨_, _, db₁, -, -, hfactor, rfl⟩
      · exact .refl _
      · rcases enableFactor_cases hfactor with ⟨-, rfl⟩ | ⟨_, _, -, -, -, -, rfl⟩ <;> exact .elevateSession
    case verifyTotpStepUp =>
      rcases verifyTotpStepUp_cases h with ⟨-, rfl⟩ | ⟨_, _, _, -, -, -, -, -, -, rfl⟩
      · exact .refl _
      · exact .elevateSession
    case useRecoveryCode =>
      rcases useRecoveryCode_cases h with ⟨-, rfl⟩ | ⟨_, _, _, -, -, -, -, rfl⟩
      · exact .refl _
      · exact .elevateSession
    case completeOauthIdentity =>
      rcases completeOauthIdentity_cases h with ⟨-, rfl⟩ | ⟨_, _, _, -, -, ⟨-, rfl⟩ | ⟨_, _, -, -, hins, rfl⟩⟩
      · exact .refl _
      · exact .refl _
      · exact .insertOr rfl hins
    case completePasskeyRegistration =>
      rcases completePasskeyRegistration_cases h with ⟨-, rfl | ⟨_, -, rfl⟩⟩ | ⟨_, _, _, _, -, -, -, -, rfl⟩
      · exact .refl _
      · exact .refl _
      · exact .elevateSession
    case completePasskeyAuthentication =>
      rcases completePasskeyAuthentication_cases h with
        ⟨-, rfl⟩ | ⟨_, -, -, ⟨-, rfl⟩ | ⟨_, -, -, ⟨-, rfl, -⟩ | ⟨_, -, -, -, hins⟩⟩⟩
      · exact .refl _
      · exact .refl _
      · exact .refl _
      · obtain ⟨sessions, hinserted, rfl⟩ := insertSession_eq_ok hins
        exact .insertOr rfl hinserted
    case rotateRefreshToken =>
      cases rotateRefreshToken_cases h with
      | invalid => exact .refl _
      | rotated => exact .map rfl fun s => ⟨rfl, id, .inl rfl⟩
      | replayed => exact .refl _
      | reuse => exact .map rfl fun s => ⟨rfl, by rintro ⟨⟩, .inl rfl⟩
    case archiveOrganization =>
      rcases archiveOrganization_cases h with ⟨-, rfl⟩ | ⟨_, _, _, _, -, -, rfl⟩
      · exact .refl _
      · exact .clearSessions
    case removeMembership =>
      rcases removeMembership_cases h with ⟨-, rfl⟩ | ⟨_, _, _, _, _, -, -, -, hremoved⟩
      · exact .refl _
      · exact selectionsStem_removed hremoved
    case leaveOrganization =>
      rcases leaveOrganization_cases h with ⟨-, rfl⟩ | ⟨_, _, _, _, -, -, hremoved⟩
      · exact .refl _
      · exact selectionsStem_removed hremoved
    case setUserDisabled p =>
      rcases setUserDisabled_cases h with ⟨-, rfl⟩ | ⟨_, -, -, -, -, hdb⟩
      · exact .refl _
      · rw [hdb]
        refine .map rfl fun s => ⟨rfl, fun hopen => ?_, .inl rfl⟩
        simp only [SetUserDisabled.stop] at hopen
        split at hopen
        · cases hopen
        · exact hopen
    case createOrganization => cases hc
    case selectOrganization => cases hc
    case acceptInvitation => cases hc
    all_goals exact hsame (by simp [Command.writes])
  · exact .refl _

end Sessions

/-! ## Members and organizations -/

def Membership.StaysActive (m m' : Membership) : Prop := m.isActive = true → m'.isActive = true

section Members
variable {db db' : Db}

theorem staysActive_refl (m : Membership) : m.StaysActive m := id

/-- Memberships stay active. -/
theorem members_of_next {c : Command} (hc : c.endsMembership = false) (h : postgres.next db c = some db') :
    db.memberships.Evolves Membership.StaysActive db'.memberships := by
  have hwrites := memberWrites_of_next (by rintro p rfl; cases hc) h
  generalize db'.memberships = t at hwrites ⊢
  induction hwrites with
  | refl => exact .of_eq staysActive_refl rfl
  | tail _ hwrite ih =>
    refine .trans (fun h h' hm => h' (h hm)) ih ?_
    cases hwrite with
    | insert _ hins => exact .insertOr staysActive_refl hins
    | activate hset hm => exact hset ▸ .set staysActive_refl fun _ _ _ => by simp [Membership.isActive, hm]
    | remove hends => simp [hc] at hends
    | reassign hkey hf hset =>
      exact hset ▸ .update staysActive_refl fun m _ => by simp [Membership.StaysActive, Membership.isActive, hf]

theorem organization_of_next {c : Command} {id : Uuid} {o : Organization} (h : postgres.next db c = some db')
    (ho : db.organizations.find? id = some o) : ∃ o', db'.organizations.find? id = some o' := by
  rcases step_changes h with hroutine | ⟨-, hdelivery⟩
  · cases hroutine with
    | routine hroutine =>
      obtain ⟨o', ho', -⟩ := hroutine.quiet.organization_of_before ho
      exact ⟨o', ho'⟩
    | statement hw hc =>
      obtain ⟨o₁, ho₁⟩ := organization_of_steps hw ho
      obtain ⟨o', ho', -⟩ := (keepsMembers_of_fire (commit_eq_ok hc).1).1.organization_of_before ho₁
      exact ⟨o', ho'⟩
  · exact ⟨o, by rw [hdelivery.others]; exact ho⟩

/-- An active organization stays active unless it is archived. -/
theorem activeOrganization_of_next {c : Command} {id : Uuid} {o : Organization} (h : postgres.next db c = some db')
    (ho : db.activeOrganization id = some o) :
    (∃ o', db'.activeOrganization id = some o') ∨ ∃ p, c = .archiveOrganization p ∧ p.organizationId = id := by
  obtain ⟨hfind, rfl, hactive⟩ := activeOrganization_eq_some ho
  rcases archivedIn_of_next h with hsame | ⟨p, org, rfl, horg, horganizations, -⟩
  · obtain ⟨o', ho'⟩ := organization_of_next h hfind
    refine .inl ⟨o', Option.filter_eq_some_iff.2 ⟨ho', decide_eq_true ?_⟩⟩
    cases hstatus : o'.status with
    | active => rfl
    | archived =>
      obtain ⟨o₁, ho₁, harchived⟩ := (hsame _).1 ⟨o', ho', hstatus⟩
      cases hfind.symm.trans ho₁
      rw [hactive] at harchived
      cases harchived
  · by_cases hid : p.organizationId = o.organizationId
    · exact .inr ⟨p, rfl, hid⟩
    · have horgId : org.archivedRow.organizationId = p.organizationId := (activeOrganization_eq_some horg).2.1
      refine .inl ⟨o, ?_⟩
      rw [Db.activeOrganization, horganizations, Table.find?_set_ne (by rw [horgId]; exact Ne.symm hid)]
      exact ho

end Members

/-! ## Every run -/

section Run
variable {db db' : Db}

/-- Selections that were there hold if those the step ends are cleared. -/
theorem Db.SelectionsHold.of_stem (h : db.SelectionsHold) (hstem : SelectionsStem db.sessions db'.sessions)
    (hkeep : ∀ s' ∈ db'.sessions, s'.revokedAtMs = none → ∀ o, s'.selectedOrganizationId = some o →
      db.ActsIn o s'.userId → db'.ActsIn o s'.userId) : db'.SelectionsHold := by
  intro s' hs' hopen o ho
  obtain ⟨s, hs, hopen₀, huser, ho₀⟩ := hstem s' hs' hopen o ho
  exact hkeep s' hs' hopen o ho (huser ▸ h s hs hopen₀ o ho₀)

theorem Db.SelectionsHold.of_select {sessionId user organization : Uuid} (h : db.SelectionsHold)
    (hsessions : db'.sessions = (db.selectOrganizationIn sessionId user organization).sessions)
    (hkeep : ∀ o u, db.ActsIn o u → db'.ActsIn o u) (hacts : db'.ActsIn organization user) : db'.SelectionsHold := by
  intro s' hs' hopen o ho
  rw [hsessions] at hs'
  obtain ⟨s, hs, rfl⟩ := List.mem_map.1 hs'
  split at ho
  · rename_i hselected
    obtain ⟨-, huser⟩ := of_decide_eq_true hselected
    cases ho
    rw [if_pos hselected, huser]
    exact hacts
  · rename_i hother
    rw [if_neg hother] at hopen ⊢
    exact hkeep o s.userId (h s hs hopen o ho)

theorem activeMembership_of_evolves {o u : Uuid} {m : Membership}
    (h : db.memberships.Evolves Membership.StaysActive db'.memberships) (hm : db.activeMembership o u = some m) :
    ∃ m', db'.activeMembership o u = some m' := by
  obtain ⟨hfind, hactive⟩ := Option.filter_eq_some_iff.1 hm
  obtain ⟨m', hm', hstays⟩ := h hfind
  exact ⟨m', Option.filter_eq_some_iff.2 ⟨hm', hstays hactive⟩⟩

/-- Whoever acts in an organization goes on to, unless it is archived or a membership ends. -/
theorem actsIn_of_next {c : Command} {o u : Uuid} (h : postgres.next db c = some db') (hc : c.endsMembership = false)
    (hacts : db.ActsIn o u) : db'.ActsIn o u ∨ ∃ p, c = .archiveOrganization p ∧ p.organizationId = o := by
  obtain ⟨⟨org, horg⟩, m, hm⟩ := hacts
  rcases activeOrganization_of_next h horg with horg' | harchive
  · exact .inl ⟨horg', activeMembership_of_evolves (members_of_next hc h) hm⟩
  · exact .inr harchive

theorem actsIn_of_removed {target : Membership} {nowMs : Int} {o u : Uuid} (hr : Removed target nowMs db db')
    (horg : ∀ org, db.activeOrganization o = some org → ∃ org', db'.activeOrganization o = some org')
    (hne : ¬ (target.userId = u ∧ target.organizationId = o)) (hacts : db.ActsIn o u) : db'.ActsIn o u := by
  obtain ⟨⟨org, hactive⟩, m, hm⟩ := hacts
  obtain ⟨_, hdb⟩ := hr.others
  have hmemberships : db'.memberships =
      db.memberships.set { target with status := .removed, updatedAtMs := nowMs } := by
    rw [hdb]
  refine ⟨horg org hactive, m, ?_⟩
  rw [Db.activeMembership, hmemberships, Table.find?_set_ne]
  · exact hm
  · intro hkey
    obtain ⟨ho, hu⟩ := Prod.mk.inj hkey
    exact hne ⟨hu.symm, ho.symm⟩

theorem not_selected_of_cleared {p : Session → Bool} {s' : Session} {o : Uuid}
    (hs' : s' ∈ (db.clearSessions p).sessions) (ho : s'.selectedOrganizationId = some o) : p s' = false := by
  obtain ⟨s, -, rfl⟩ := List.mem_map.1 hs'
  cases hp : p s with
  | true =>
    rw [if_pos hp] at ho
    cases ho
  | false => rwa [if_neg Bool.false_ne_true]

theorem members_setUserDisabled {p r} (h : setUserDisabled p db = .ok (r, db')) :
    db.memberships.Evolves (fun m m' => (m.userId = p.userId → p.disabled = false) → m.StaysActive m')
      db'.memberships := by
  rcases setUserDisabled_cases h with ⟨-, rfl⟩ | ⟨_, -, -, -, -, hdb⟩
  · exact .of_eq (fun _ _ => id) rfl
  · rw [hdb]
    dsimp only [SetUserDisabled.switchAll]
    refine .update (fun _ _ => id) fun m hm henabled hactive => ?_
    have hstatus : m.status = .active := of_decide_eq_true hactive
    have hdisabled := henabled (of_decide_eq_true hm).1
    simp [Membership.isActive, SetUserDisabled.switch, MembershipStatus.switch, hstatus, hdisabled]

theorem enabled_of_unrevoked {p : SetUserDisabled} {s' : Session}
    (hs' : s' ∈ db.sessions.update
      (fun s => decide (s.userId = p.userId) && (p.disabled || s.revokedAtMs.isNone)) p.stop p.stop_sessionId)
    (hopen : s'.revokedAtMs = none) (huser : s'.userId = p.userId) : p.disabled = false := by
  obtain ⟨s, -, rfl⟩ := List.mem_map.1 hs'
  cases hdisabled : p.disabled with
  | false => rfl
  | true =>
    have hsame : s.userId = p.userId := by
      split at huser <;> exact huser
    simp [hsame, hdisabled, SetUserDisabled.stop] at hopen

section Statements
variable (hold : db.SelectionsHold)
include hold

theorem selectionsHold_archiveOrganization {p r} (hexec : archiveOrganization p db = .ok (r, db'))
    (h : postgres.next db (.archiveOrganization p) = some db') : db'.SelectionsHold := by
  rcases archiveOrganization_cases hexec with ⟨-, rfl⟩ | ⟨_, _, _, _, -, -, hdb⟩
  · exact hold
  · refine hold.of_stem (selectionsStem_of_next rfl h) fun s' hs' _ o ho hacts => ?_
    rcases actsIn_of_next h rfl hacts with hacts | ⟨_, hp, hid⟩
    · exact hacts
    · cases hp
      rw [hdb] at hs'
      exact absurd (hid ▸ ho) (of_decide_eq_false (not_selected_of_cleared hs' ho))

theorem selectionsHold_of_removed {target : Membership} {nowMs : Int} {c : Command} (hc : c.selects = false)
    (hnot : ∀ p, c ≠ .archiveOrganization p) (h : postgres.next db c = some db') (hr : Removed target nowMs db db') :
    db'.SelectionsHold := by
  refine hold.of_stem (selectionsStem_of_next hc h) fun s' hs' _ o ho => actsIn_of_removed hr (fun org horg => ?_) ?_
  · exact (activeOrganization_of_next h horg).resolve_right fun ⟨p, hp, _⟩ => hnot p hp
  · -- the sessions of the former member act nowhere
    rintro ⟨huser, rfl⟩
    obtain ⟨_, hdb⟩ := hr.others
    rw [hdb] at hs'
    exact of_decide_eq_false (not_selected_of_cleared hs' ho) ⟨huser.symm, ho⟩

theorem selectionsHold_setUserDisabled {p r} (hexec : setUserDisabled p db = .ok (r, db'))
    (h : postgres.next db (.setUserDisabled p) = some db') : db'.SelectionsHold := by
  have hmembers := members_setUserDisabled hexec
  rcases setUserDisabled_cases hexec with ⟨-, rfl⟩ | ⟨_, -, -, -, -, hdb⟩
  · exact hold
  · refine hold.of_stem (selectionsStem_of_next rfl h) fun s' hs' hopen o ho hacts => ?_
    obtain ⟨⟨org, horg⟩, m, hm⟩ := hacts
    refine ⟨(activeOrganization_of_next h horg).resolve_right fun ⟨_, hp, _⟩ => (nomatch hp), ?_⟩
    obtain ⟨hfind, hactive⟩ := Option.filter_eq_some_iff.1 hm
    obtain ⟨m', hm', hstays⟩ := hmembers hfind
    have huser : m.userId = s'.userId := congrArg Prod.snd (Table.find?_eq_some.1 hfind).2
    rw [hdb] at hs'
    refine ⟨m', Option.filter_eq_some_iff.2 ⟨hm', hstays (fun hsame => ?_) hactive⟩⟩
    exact enabled_of_unrevoked hs' hopen (huser.symm.trans hsame)

theorem selectionsHold_createOrganization {p r} (hexec : createOrganization p db = .ok (r, db'))
    (h : postgres.next db (.createOrganization p) = some db') : db'.SelectionsHold := by
  rcases createOrganization_cases hexec with ⟨_, -, rfl, -⟩ | ⟨-, rfl, -⟩ | ⟨session, user, _, -, hfounded⟩
  · exact hold
  · exact hold
  · refine hold.of_select (by rw [hfounded.others]) (fun o u hacts => ?_) ⟨?_, ?_⟩
    · exact (actsIn_of_next h rfl hacts).resolve_right fun ⟨_, hp, _⟩ => nomatch hp
    · exact ⟨_, Option.filter_eq_some_iff.2 ⟨hfounded.owned, rfl⟩⟩
    · have hfind := Table.find?_of_insertOr hfounded.memberships (p.owner user.userId).key
      rw [if_pos rfl] at hfind
      exact ⟨_, Option.filter_eq_some_iff.2 ⟨hfind, rfl⟩⟩

theorem selectionsHold_acceptInvitation {p r} (hexec : acceptInvitation p db = .ok (r, db'))
    (h : postgres.next db (.acceptInvitation p) = some db') : db'.SelectionsHold := by
  have hkeep : ∀ o u, db.ActsIn o u → db'.ActsIn o u := fun o u hacts =>
    (actsIn_of_next h rfl hacts).resolve_right fun ⟨_, hp, _⟩ => nomatch hp
  cases acceptInvitation_cases hexec with
  | refused => exact hold
  | untokened => exact hold
  | @accepted _ user invitation _ _ _ memberships _ _ _ _ horg hm =>
    have hupserted : Upserted (invitedMembership invitation user.userId p.nowMs) db.memberships
        ({ db with memberships := memberships } : Db).memberships := hm
    obtain ⟨m, hactive, -⟩ := activeMembership_of_upserted rfl hupserted
    refine hold.of_select rfl hkeep ⟨?_, m, hactive⟩
    exact (activeOrganization_of_next h horg).resolve_right fun ⟨_, hp, _⟩ => nomatch hp

/-- Every step keeps the selections valid. -/
theorem selectionsHold_of_next {c : Command} (h : postgres.next db c = some db') : db'.SelectionsHold := by
  rcases step_cases h with hexec | rfl
  · cases c <;> simp only [Command.execute, written_eq_ok] at hexec <;> obtain ⟨r, hexec⟩ := hexec
    case archiveOrganization => exact selectionsHold_archiveOrganization hold hexec h
    case selectOrganization =>
      rcases selectOrganization_cases hexec with ⟨-, rfl⟩ | ⟨_, _, actor, org, hactor, horg, rfl⟩
      · exact hold
      · exact hold.of_select rfl (fun _ _ hacts => hacts) ⟨⟨org, horg⟩, actor, (memberActor_eq_some hactor).2⟩
    case createOrganization => exact selectionsHold_createOrganization hold hexec h
    case acceptInvitation => exact selectionsHold_acceptInvitation hold hexec h
    case setUserDisabled => exact selectionsHold_setUserDisabled hold hexec h
    case removeMembership =>
      rcases removeMembership_cases hexec with ⟨-, rfl⟩ | ⟨_, _, _, _, _, -, -, -, hremoved⟩
      · exact hold
      · exact selectionsHold_of_removed hold rfl (by rintro _ ⟨⟩) h hremoved
    case leaveOrganization =>
      rcases leaveOrganization_cases hexec with ⟨-, rfl⟩ | ⟨_, _, _, _, -, -, hremoved⟩
      · exact hold
      · exact selectionsHold_of_removed hold rfl (by rintro _ ⟨⟩) h hremoved
    all_goals
      refine hold.of_stem (selectionsStem_of_next rfl h) fun _ _ _ _ _ hacts =>
        (actsIn_of_next h rfl hacts).resolve_right ?_
      rintro ⟨_, ⟨⟩, _⟩
  · exact hold

end Statements

theorem selectionsHold_of_reachable (h : Reachable postgres db) : db.SelectionsHold := by
  refine ReachableBy.invariant (fun s hs => ?_) (fun hold _ hn => selectionsHold_of_next hold hn) h
  exact absurd hs (Table.not_mem_empty s)

theorem mayAct_of_actsIn {s : Session} (h : ∀ o, s.selectedOrganizationId = some o → db.ActsIn o s.userId) :
    db.mayAct s = true := by
  cases hselected : s.selectedOrganizationId with
  | none => simp [Db.mayAct, hselected]
  | some o =>
    obtain ⟨⟨org, horg⟩, m, hm⟩ := h o hselected
    obtain ⟨hfind, rfl, hactive⟩ := activeOrganization_eq_some horg
    simp [Db.mayAct, Db.selectedOrganization, Db.selectedMembership, hselected, hm, hfind, hactive]

end Run

end WasiAuth
