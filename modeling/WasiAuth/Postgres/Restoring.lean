import WasiAuth.Postgres.Disabling

/-! # What enabling a user brings back

`set_user_disabled.sql` writes one status for a user and swaps two for the memberships. Enabling turns every `blocked`
membership of the user into an `active` one, which brings back what disabling blocked because nothing is blocked
while its user is not disabled: no other statement blocks a membership, and none but this one ends the status
`disabled` (`blockedDisabled_of_run`). The status of the user is not brought back that way: whatever it was, it comes
back as `active`.
-/

namespace WasiAuth

open Relational Relation Transition

/-- A user is `disabled` until an administrator enables it. -/
def User.StaysDisabled (u u' : User) : Prop := u.status = .disabled → u'.status = .disabled

def BlockedBefore (t t' : Table Membership.key) : Prop :=
  ∀ m' ∈ t', m'.status = .blocked → ∃ m ∈ t, m.status = .blocked ∧ m.userId = m'.userId

/-- A membership is blocked only while its user is disabled. -/
def Db.BlockedDisabled (db : Db) : Prop :=
  ∀ m ∈ db.memberships, m.status = .blocked → ∃ u, db.users.find? m.userId = some u ∧ u.status = .disabled

/-! ## Statements other than the switch -/

section Users
variable {db db' : Db}

theorem staysDisabled_refl (u : User) : u.StaysDisabled u := id

theorem staysDisabled_set {u v : User} (hu : db.users.find? v.userId = some u) (hstatus : u.status ≠ .disabled) :
    db.users.Evolves User.StaysDisabled (db.users.set v) := by
  refine .set staysDisabled_refl fun old hold hdisabled => absurd hdisabled ?_
  cases hu.symm.trans hold
  exact hstatus

/-- No other command enables a user. -/
theorem users_of_next {c : Command} (hc : ∀ p, c ≠ .setUserDisabled p) (h : postgres.next db c = some db') :
    db.users.Evolves User.StaysDisabled db'.users := by
  have hframe := frame_of_next h
  rcases step_cases h with h | rfl
  · cases c <;> simp only [Command.execute, written_eq_ok] at h <;> obtain ⟨r, h⟩ := h
    case registerPassword =>
      rcases registerPassword_cases h with rfl | hreg
      · exact .of_eq staysDisabled_refl rfl
      · exact .insertOr staysDisabled_refl hreg.users
    case verifyEmail =>
      rcases verifyEmail_cases h with
        ⟨-, rfl⟩ | ⟨_, -, ⟨-, rfl⟩ | ⟨user, _, _, -, huser, hstatus, -, -, rfl⟩⟩
      · exact .of_eq staysDisabled_refl rfl
      · exact .of_eq staysDisabled_refl rfl
      · refine staysDisabled_set (v := { user with status := .active }) huser fun hdisabled => ?_
        rcases hstatus with hstatus | hstatus <;> rw [hdisabled] at hstatus <;> cases hstatus
    case completePasswordReset =>
      rcases completePasswordReset_cases h with
        ⟨-, rfl⟩ | ⟨_, _, -, ⟨-, rfl⟩ | ⟨user, _, _, -, huser, hstatus, -, -, rfl⟩⟩
      · exact .of_eq staysDisabled_refl rfl
      · exact .of_eq staysDisabled_refl rfl
      · exact staysDisabled_set (v := { user with securityRevision := user.securityRevision + 1 }) huser
          (by rw [hstatus]; decide)
    case changePassword =>
      rcases changePassword_cases h with ⟨-, rfl⟩ | ⟨session, user, _, _, hlive, -, -, -, -, -, rfl⟩
      · exact .of_eq staysDisabled_refl rfl
      · obtain ⟨-, huser, -, -, -, hstatus⟩ := Db.liveSession_eq_some.1 hlive
        have hid : user.userId = session.userId := (Table.find?_eq_some.1 huser).2
        exact staysDisabled_set (v := { user with securityRevision := user.securityRevision + 1 }) (hid ▸ huser)
          (by rw [hstatus]; decide)
    case completeOauthIdentity =>
      rcases completeOauthIdentity_cases h with
        ⟨-, rfl⟩ | ⟨_, users, _, -, husers, ⟨-, rfl⟩ | ⟨_, _, -, -, -, rfl⟩⟩
      · exact .of_eq staysDisabled_refl rfl
      all_goals
        rcases husers with hsame | ⟨_, hins⟩
        · exact .of_eq staysDisabled_refl hsame
        · exact .insertOr staysDisabled_refl hins
    case setUserDisabled => exact absurd rfl (hc _)
    all_goals exact .of_eq staysDisabled_refl (hframe.users (by simp [Command.writes]))
  · exact .of_eq staysDisabled_refl rfl

end Users

namespace BlockedBefore
variable {t t' : Table Membership.key} {m : Membership}

theorem of_eq (h : t' = t) : BlockedBefore t t' := fun m' hm' hblocked => ⟨m', h ▸ hm', hblocked, rfl⟩

theorem trans {t₁ t₂ t₃ : Table Membership.key} (h : BlockedBefore t₁ t₂) (h' : BlockedBefore t₂ t₃) :
    BlockedBefore t₁ t₃ := by
  intro m₃ hm₃ hblocked
  obtain ⟨m₂, hm₂, hblocked₂, huser₂⟩ := h' m₃ hm₃ hblocked
  obtain ⟨m₁, hm₁, hblocked₁, huser₁⟩ := h m₂ hm₂ hblocked₂
  exact ⟨m₁, hm₁, hblocked₁, huser₁.trans huser₂⟩

theorem insertOr (hm : m.status ≠ .blocked) (h : t.insertOr SqlError.uniqueViolation m = .ok t') :
    BlockedBefore t t' := by
  intro m' hm' hblocked
  rcases (Table.mem_of_insertOr h).1 hm' with hold | rfl
  · exact ⟨m', hold, hblocked, rfl⟩
  · exact absurd hblocked hm

theorem set (hm : m.status ≠ .blocked) : BlockedBefore t (t.set m) := by
  intro m' hm' hblocked
  rcases Table.mem_set.1 hm' with ⟨hold, -⟩ | ⟨rfl, -⟩
  · exact ⟨m', hold, hblocked, rfl⟩
  · exact absurd hblocked hm

/-- An `UPDATE` of other columns. -/
theorem update {p : Membership → Bool} {f : Membership → Membership} (hkey : ∀ m, (f m).key = m.key)
    (hf : ∀ m, (f m).status = m.status) : BlockedBefore t (t.update p f hkey) := by
  intro m' hm' hblocked
  obtain ⟨m, hm, rfl⟩ := Table.mem_update.1 hm'
  refine ⟨m, hm, ?_⟩
  by_cases hp : p m = true
  · rw [if_pos hp] at hblocked ⊢
    exact ⟨(hf m).symm.trans hblocked, (congrArg Prod.snd (hkey m)).symm⟩
  · rw [if_neg hp] at hblocked ⊢
    exact ⟨hblocked, rfl⟩

end BlockedBefore

/-- No other command blocks a membership. -/
theorem blockedBefore_of_next {db db' : Db} {c : Command} (hc : ∀ p, c ≠ .setUserDisabled p)
    (h : postgres.next db c = some db') : BlockedBefore db.memberships db'.memberships := by
  have hwrites := memberWrites_of_next hc h
  generalize db'.memberships = t at hwrites ⊢
  induction hwrites with
  | refl => exact .of_eq rfl
  | tail _ hwrite ih =>
    refine ih.trans ?_
    cases hwrite with
    | insert hm hins => exact .insertOr (by simp [hm]) hins
    | activate hset hm => exact hset ▸ .set (by simp [hm])
    | remove _ hset hm => exact hset ▸ .set (by simp [hm])
    | reassign hkey hf hset => exact hset ▸ .update hkey hf

/-! ## The switch -/

section Switch
variable {db db' : Db} {p : SetUserDisabled}

theorem status_switched (m : Membership) :
    (if decide (m.userId = p.userId ∧ (m.status = .active ∨ m.status = .blocked)) = true then p.switch m
      else m).status =
        if m.userId = p.userId then m.status.switch p.disabled else m.status := by
  by_cases huser : m.userId = p.userId
  · cases hstatus : m.status <;> simp [huser, hstatus, SetUserDisabled.switch, MembershipStatus.switch]
  · simp [huser]

theorem mem_switchAll {m' : Membership} {t : Table Membership.key} (h : m' ∈ p.switchAll t) :
    ∃ m ∈ t, m.userId = m'.userId ∧
      m'.status = if m.userId = p.userId then m.status.switch p.disabled else m.status := by
  obtain ⟨m, hm, rfl⟩ := Table.mem_update.1 h
  refine ⟨m, hm, ?_, status_switched m⟩
  split <;> rfl

theorem find?_switchAll (t : Table Membership.key) (k : Uuid × Uuid) :
    ((p.switchAll t).find? k).map Membership.status =
      (t.find? k).map fun m => if m.userId = p.userId then m.status.switch p.disabled else m.status := by
  rw [SetUserDisabled.switchAll, Table.find?_update, Option.map_map]
  exact congrArg (fun f => (t.find? k).map f) (funext status_switched)

theorem blockedDisabled_setUserDisabled {r : Option User} (hinv : db.BlockedDisabled)
    (h : setUserDisabled p db = .ok (r, db')) : db'.BlockedDisabled := by
  rcases setUserDisabled_cases h with ⟨-, rfl⟩ | ⟨user, -, hfind, -, -, hdb⟩
  · exact hinv
  · have hid : user.userId = p.userId := (Table.find?_eq_some.1 hfind).2
    intro m' hm' hblocked
    rw [hdb] at hm' ⊢
    obtain ⟨m, hm, huser, hstatus⟩ := mem_switchAll hm'
    rw [hblocked] at hstatus
    rw [← huser]
    by_cases hp : m.userId = p.userId
    · rw [if_pos hp] at hstatus
      have hdisabled : p.disabled = true := by
        cases hd : p.disabled with
        | true => rfl
        | false => cases hs : m.status <;> simp [hd, hs, MembershipStatus.switch] at hstatus
      have hrow : db.users.find? (p.switchUser user).userId = some user := by
        rw [SetUserDisabled.switchUser, hid]
        exact hfind
      refine ⟨p.switchUser user, ?_, by simp [SetUserDisabled.switchUser, hdisabled]⟩
      rw [hp, ← hid]
      exact Table.find?_set_self hrow
    · rw [if_neg hp] at hstatus
      obtain ⟨u, hu, hdisabled⟩ := hinv m hm hstatus.symm
      have hne : m.userId ≠ (p.switchUser user).userId := fun hsame => hp (hsame.trans hid)
      exact ⟨u, by rw [Table.find?_set_ne hne, hu], hdisabled⟩

end Switch

/-- No step leaves an enabled user a blocked membership. -/
theorem blockedDisabled_of_next {db db' : Db} {c : Command} (hinv : db.BlockedDisabled)
    (h : postgres.next db c = some db') : db'.BlockedDisabled := by
  by_cases hc : ∃ p, c = .setUserDisabled p
  · obtain ⟨p, rfl⟩ := hc
    rcases step_cases h with h | rfl
    · obtain ⟨_, h⟩ := written_eq_ok.1 h
      exact blockedDisabled_setUserDisabled hinv h
    · exact hinv
  · have hc : ∀ p, c ≠ .setUserDisabled p := fun p hp => hc ⟨p, hp⟩
    intro m' hm' hblocked
    obtain ⟨m, hm, hblocked, huser⟩ := blockedBefore_of_next hc h m' hm' hblocked
    obtain ⟨u, hu, hdisabled⟩ := hinv m hm hblocked
    obtain ⟨u', hu', hstays⟩ := users_of_next hc h hu
    exact ⟨u', huser ▸ hu', hstays hdisabled⟩

theorem blockedDisabled_of_run {db : Db} (h : Reachable postgres db) : db.BlockedDisabled :=
  h.invariant (I := Db.BlockedDisabled) (fun m hm => absurd hm (Table.not_mem_empty m)) fun hinv _ hn =>
    blockedDisabled_of_next hinv hn

/-! ## Disabling and enabling -/

theorem user_of_setUserDisabled {db db' : Db} {p : SetUserDisabled} {row : User}
    (h : setUserDisabled p db = .ok (some row, db')) :
    (db'.users.find? p.userId).map User.status = some (if p.disabled then .disabled else .active) := by
  rcases setUserDisabled_cases h with ⟨hnone, -⟩ | ⟨user, -, hfind, -, -, hdb⟩
  · cases hnone
  · have hid : (p.switchUser user).userId = p.userId := (Table.find?_eq_some.1 hfind).2
    have hrow : db.users.find? (p.switchUser user).userId = some user := hid ▸ hfind
    rw [hdb, ← hid, Table.find?_set_self hrow]
    rfl

theorem statuses_of_setUserDisabled {db db' : Db} {p : SetUserDisabled} {row : User}
    (h : setUserDisabled p db = .ok (some row, db')) (k : Uuid × Uuid) :
    (db'.memberships.find? k).map Membership.status =
      ((db.memberships.find? k).map Membership.status).map fun status =>
        if k.2 = p.userId then status.switch p.disabled else status := by
  rcases setUserDisabled_cases h with ⟨hnone, -⟩ | ⟨_, -, -, -, -, hdb⟩
  · cases hnone
  · rw [hdb, find?_switchAll]
    cases hfind : db.memberships.find? k with
    | none => rfl
    | some m =>
      have huser : m.userId = k.2 := congrArg Prod.snd (Table.find?_eq_some.1 hfind).2
      simp only [Option.map_some, huser]

/-- Disabling a user and then enabling it brings back the status of every membership, and the status of the user
exactly when the user was active. -/
theorem disable_enable_restores_iff {db db₁ db₂ : Db} {p q : SetUserDisabled} {user row₁ row₂ : User}
    (h : Reachable postgres db) (huser : db.users.find? p.userId = some user) (hstatus : user.status ≠ .disabled)
    (hp : p.disabled = true) (hdisable : setUserDisabled p db = .ok (some row₁, db₁))
    (hq : q.disabled = false) (hsame : q.userId = p.userId)
    (henable : setUserDisabled q db₁ = .ok (some row₂, db₂)) :
    (∀ k, (db₂.memberships.find? k).map Membership.status = (db.memberships.find? k).map Membership.status) ∧
      ((db₂.users.find? p.userId).map User.status = some user.status ↔ user.status = .active) := by
  constructor
  · intro k
    rw [statuses_of_setUserDisabled henable k, statuses_of_setUserDisabled hdisable k, hp, hq, hsame]
    cases hfind : db.memberships.find? k with
    | none => rfl
    | some m =>
      obtain ⟨hm, hkey⟩ := Table.find?_eq_some.1 hfind
      by_cases hk : k.2 = p.userId
      · have hblocked : m.status ≠ .blocked := by
          intro hblocked
          obtain ⟨u, hu, hdisabled⟩ := blockedDisabled_of_run h m hm hblocked
          have hmember : m.userId = p.userId := (congrArg Prod.snd hkey).trans hk
          rw [hmember, huser] at hu
          cases hu
          exact hstatus hdisabled
        cases hm : m.status <;> simp_all [MembershipStatus.switch]
      · simp [hk]
  · have henabled := user_of_setUserDisabled henable
    rw [hsame, hq] at henabled
    rw [henabled]
    simp [eq_comm]

def enableUser (user : Uuid) : SetUserDisabled :=
  { disableUser user with disabled := false, uuids := uuidsFrom 700 }

/-- The founder disables a user of that status and enables it again, with success. -/
def Db.switchesBack (user : Uuid) (status : UserStatus) (db : Db) : Bool :=
  ((db.users.find? user).any fun u => decide (u.status = status)) &&
    (setUserDisabled (disableUser user) db).toOption.any fun r => r.1.isSome &&
      (setUserDisabled (enableUser user) r.2).toOption.any fun r => r.1.isSome

/-- Both switches succeed for a user with this status. -/
theorem switchesBack_eq_true {user : Uuid} {status : UserStatus} {db : Db} (h : db.switchesBack user status = true) :
    ∃ u row₁ row₂ db₁ db₂, db.users.find? user = some u ∧ u.status = status ∧
      setUserDisabled (disableUser user) db = .ok (some row₁, db₁) ∧
        setUserDisabled (enableUser user) db₁ = .ok (some row₂, db₂) := by
  obtain ⟨huser, hswitch⟩ := Bool.and_eq_true_iff.1 h
  obtain ⟨u, hu, hstatus⟩ := (Option.any_eq_true _ _).1 huser
  obtain ⟨⟨r₁, db₁⟩, h₁, hswitch⟩ := exists_ok_of_any hswitch
  obtain ⟨hsome₁, henable⟩ := Bool.and_eq_true_iff.1 hswitch
  obtain ⟨⟨r₂, db₂⟩, h₂, hsome₂⟩ := exists_ok_of_any henable
  obtain ⟨row₁, rfl⟩ := Option.isSome_iff_exists.1 hsome₁
  obtain ⟨row₂, rfl⟩ := Option.isSome_iff_exists.1 hsome₂
  exact ⟨u, row₁, row₂, db₁, db₂, hu, of_decide_eq_true hstatus, h₁, h₂⟩

/-- A member is disabled, enabled, and active as before. -/
theorem member_restored : ∃ db db₁ db₂ row₁ row₂, Reachable postgres db ∧
    setUserDisabled (disableUser ⟨11⟩) db = .ok (some row₁, db₁) ∧
      setUserDisabled (enableUser ⟨11⟩) db₁ = .ok (some row₂, db₂) ∧
        (db₂.users.find? ⟨11⟩).map User.status = some .active ∧
          ∀ k, (db₂.memberships.find? k).map Membership.status = (db.memberships.find? k).map Membership.status := by
  obtain ⟨db, hreach, htest⟩ := exists_reachable_of_run postgres (foundAcme ++ joinAcme)
    (fun db => db.switchesBack ⟨11⟩ .active) (by decide +kernel)
  obtain ⟨u, row₁, row₂, db₁, db₂, hu, hstatus, h₁, h₂⟩ := switchesBack_eq_true htest
  have hnot : u.status ≠ .disabled := by rw [hstatus]; decide
  obtain ⟨hmemberships, huser⟩ := disable_enable_restores_iff (q := enableUser ⟨11⟩) hreach hu hnot rfl h₁ rfl rfl h₂
  exact ⟨db, db₁, db₂, row₁, row₂, hreach, h₁, h₂, hstatus ▸ huser.2 hstatus, hmemberships⟩

/-- A user has registered and not yet verified the email. Disabled and enabled, the user is active. -/
theorem exists_unverified_enabled : ∃ db db₁ db₂ user row₁ row₂, Reachable postgres db ∧
    db.users.find? ⟨11⟩ = some user ∧ user.status = .pendingVerification ∧
      setUserDisabled (disableUser ⟨11⟩) db = .ok (some row₁, db₁) ∧
        setUserDisabled (enableUser ⟨11⟩) db₁ = .ok (some row₂, db₂) ∧
          (db₂.users.find? ⟨11⟩).map User.status = some .active := by
  obtain ⟨db, hreach, htest⟩ := exists_reachable_of_run postgres (foundAcme ++ joinAcme.take 1)
    (fun db => db.switchesBack ⟨11⟩ .pendingVerification) (by decide +kernel)
  obtain ⟨u, row₁, row₂, db₁, db₂, hu, hstatus, h₁, h₂⟩ := switchesBack_eq_true htest
  exact ⟨db, db₁, db₂, u, row₁, row₂, hreach, hu, hstatus, h₁, h₂, user_of_setUserDisabled h₂⟩

end WasiAuth
