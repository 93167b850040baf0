import WasiAuth.Postgres.Revocation

/-! # Second factors and assurance

Which commands write the TOTP factors and the recovery codes or raise a session to `aal2`: `FactorStep` says
it once. Four raise a session. A TOTP step-up and a recovery code ask for a factor that is enrolled already; a
confirmed TOTP enrollment and a registered passkey raise the session that enrols, and neither statement asks
whether the user has another factor. So a password alone reaches `aal2` on an account with a second factor, by
enrolling one more (`passkey_registration_raises`).
-/

namespace WasiAuth

open Relational Relation Transition

/-! ## Commands and factors -/

/-- No factor, no recovery code and no session's assurance has changed. -/
structure LeavesFactors (db db' : Db) : Prop where
  assurance : db.sessions.Evolves (fun s s' => s'.assurance = s.assurance) db'.sessions
  totpFactors : db'.totpFactors = db.totpFactors
  recoveryCodes : db'.recoveryCodes = db.recoveryCodes

/-- What a command can do to factors, recovery codes and assurance. -/
inductive FactorStep (db db' : Db) : Command → Prop
  | leaves {c : Command} (h : LeavesFactors db db') : FactorStep db db' c
  | start {p : StartTotpEnrollment} {r : Option Unit} (h : startTotpEnrollment p db = .ok (r, db')) :
      FactorStep db db' (.startTotpEnrollment p)
  | confirm {p : ConfirmTotpEnrollment} {r : Option Unit} (h : confirmTotpEnrollment p db = .ok (r, db')) :
      FactorStep db db' (.confirmTotpEnrollment p)
  | verify {p : VerifyTotpStepUp} {r : Option Unit} (h : verifyTotpStepUp p db = .ok (r, db')) :
      FactorStep db db' (.verifyTotpStepUp p)
  | recover {p : UseRecoveryCode} {r : Option Unit} (h : useRecoveryCode p db = .ok (r, db')) :
      FactorStep db db' (.useRecoveryCode p)
  | register {p : CompletePasskeyRegistration} {r : Option PasskeyRegistrationOutcome}
      (h : completePasskeyRegistration p db = .ok (r, db')) : FactorStep db db' (.completePasskeyRegistration p)

namespace LeavesFactors

variable {db db' db₁ db₂ db₃ : Db}

theorem of_same (hs : db'.sessions = db.sessions) (ht : db'.totpFactors = db.totpFactors)
    (hc : db'.recoveryCodes = db.recoveryCodes) : LeavesFactors db db' :=
  ⟨.of_eq (fun _ => rfl) hs, ht, hc⟩

theorem refl (db : Db) : LeavesFactors db db := of_same rfl rfl rfl

theorem trans (h : LeavesFactors db₁ db₂) (h' : LeavesFactors db₂ db₃) : LeavesFactors db₁ db₃ where
  assurance := h.assurance.trans (fun ha ha' => ha'.trans ha) h'.assurance
  totpFactors := h'.totpFactors.trans h.totpFactors
  recoveryCodes := h'.recoveryCodes.trans h.recoveryCodes

theorem of_sessions {sessions : Table Session.sessionId}
    (h : db.sessions.Evolves (fun s s' => s'.assurance = s.assurance) sessions) :
    LeavesFactors db { db with sessions := sessions } :=
  ⟨h, rfl, rfl⟩

theorem of_keepsCredentials (h : KeepsCredentials db db') : LeavesFactors db db' := by
  refine ⟨fun _ _ hs => ?_, h.totpFactors, h.recoveryCodes⟩
  obtain ⟨s', hs', hcontinues⟩ := h.sessions hs
  exact ⟨s', hs', hcontinues.assurance⟩

theorem insertSession {s : Session} (h : db.insertSession s = .ok db') : LeavesFactors db db' := by
  obtain ⟨sessions, hins, h⟩ := bind_eq_ok.1 h
  cases h
  exact of_sessions (.insertOr (fun _ => rfl) hins)

theorem rotateRefreshToken {p r} (h : rotateRefreshToken p db = .ok (r, db')) : LeavesFactors db db' := by
  cases rotateRefreshToken_cases h with
  | invalid => exact refl _
  | @rotated token _ _ tokens hf =>
    have htokens : LeavesFactors db { db with refreshTokens := tokens } := of_same rfl rfl rfl
    exact htokens.trans (of_sessions (.update (fun _ => rfl) fun _ _ => rfl))
  | replayed => exact refl _
  | reuse => exact of_keepsCredentials (.of_writes .revokeFamily)

end LeavesFactors

section Inversion

variable {db db' : Db} {c : Command}

/-- Five commands are about factors or raise a session. -/
theorem factorStep_of_execute (h : c.execute db = .ok db') : FactorStep db db' c := by
  cases hc : c.ownsCredentials with
  | false => exact .leaves (.of_keepsCredentials (keepsCredentials_of_execute hc h))
  | true =>
    cases c <;> simp only [Command.execute, written_eq_ok] at h <;> obtain ⟨r, h⟩ := h
    case startTotpEnrollment => exact .start h
    case confirmTotpEnrollment => exact .confirm h
    case verifyTotpStepUp => exact .verify h
    case useRecoveryCode => exact .recover h
    case completePasskeyRegistration => exact .register h
    case completePasskeyAuthentication =>
      rcases completePasskeyAuthentication_cases h with
        ⟨-, rfl⟩ | ⟨_, -, -, ⟨-, rfl⟩ | ⟨_, -, -, ⟨-, rfl, -⟩ | ⟨_, -, -, -, hins⟩⟩⟩
      · exact .leaves (.refl _)
      · exact .leaves (.of_same rfl rfl rfl)
      · exact .leaves (.of_same rfl rfl rfl)
      · refine .leaves (.trans ?_ (.insertSession hins))
        exact .of_same rfl rfl rfl
    case issueTokenPair =>
      rcases issueTokenPair_cases h with ⟨-, rfl⟩ | ⟨_, _, _, -, -, -, rfl⟩
      · exact .leaves (.refl _)
      · exact .leaves (.of_same rfl rfl rfl)
    case rotateRefreshToken => exact .leaves (.rotateRefreshToken h)
    all_goals cases hc

theorem factorStep_of_next (h : postgres.next db c = some db') : FactorStep db db' c := by
  rcases step_cases h with h | rfl
  · exact factorStep_of_execute h
  · exact .leaves (.refl _)

end Inversion

/-! ## Recovery codes belong to enabled factors -/

/-- A factor that has consumed a step is enabled, and so is the factor of a user with recovery codes. -/
structure Db.Enrolling (db : Db) : Prop where
  consumed : ∀ factor ∈ db.totpFactors, factor.lastConsumedStep.isSome → factor.enabledAtMs.isSome
  codes : ∀ code ∈ db.recoveryCodes, db.Enrolled code.userId

namespace Db.Enrolling

variable {db db' : Db}

theorem empty : Db.empty.Enrolling :=
  ⟨fun _ h => absurd h (Table.not_mem_empty _), fun _ h => absurd h (Table.not_mem_empty _)⟩

section Steps
variable (h : db.Enrolling)
include h

/-- Enrolled users stay enrolled, so only new codes and steps are to be checked. -/
theorem of_lasting (hl : Lasting db db')
    (hconsumed : ∀ factor ∈ db'.totpFactors, factor.lastConsumedStep.isSome → factor.enabledAtMs.isSome)
    (hcodes : ∀ code ∈ db'.recoveryCodes, ∃ old ∈ db.recoveryCodes, old.userId = code.userId) : db'.Enrolling := by
  refine ⟨hconsumed, fun code hcode => ?_⟩
  obtain ⟨old, hold, huser⟩ := hcodes code hcode
  exact huser ▸ hl.enrolled (h.codes old hold)

theorem leaves (hstep : LeavesFactors db db') : db'.Enrolling := by
  refine ⟨?_, fun code hcode => ?_⟩
  · rw [hstep.totpFactors]
    exact h.consumed
  · rw [hstep.recoveryCodes] at hcode
    obtain ⟨factor, hfind, henabled⟩ := h.codes code hcode
    exact ⟨factor, by rw [hstep.totpFactors]; exact hfind, henabled⟩

theorem start {p r} (hstep : startTotpEnrollment p db = .ok (r, db')) : db'.Enrolling := by
  have hl := Lasting.startTotpEnrollment hstep
  rcases startTotpEnrollment_cases hstep with ⟨-, rfl⟩ | ⟨_, _, -, -, ⟨_, hins, rfl⟩ | ⟨factor, hfind, -, rfl⟩⟩
  · exact h
  · refine h.of_lasting hl (fun factor hf => ?_) fun code hcode => ⟨code, hcode, rfl⟩
    rcases (Table.mem_of_insertOr hins).1 hf with hf | rfl
    · exact h.consumed factor hf
    · exact fun hs => by cases hs
  · refine h.of_lasting hl (fun new hf => ?_) fun code hcode => ⟨code, hcode, rfl⟩
    rcases Table.mem_set.1 hf with ⟨hf, -⟩ | ⟨rfl, -⟩
    · exact h.consumed new hf
    · exact h.consumed factor (Table.find?_eq_some.1 hfind).1

theorem confirm {p r} (hstep : confirmTotpEnrollment p db = .ok (r, db')) : db'.Enrolling := by
  have hl := Lasting.confirmTotpEnrollment hstep
  rcases confirmTotpEnrollment_cases hstep with ⟨-, -, rfl⟩ | ⟨_, user, db₁, -, -, henable, rfl⟩
  · exact h
  · rcases enableFactor_cases henable with ⟨-, rfl⟩ | ⟨factor, codes, hfind, -, -, hcodes, rfl⟩
    · exact h.of_lasting hl h.consumed fun code hcode => ⟨code, hcode, rfl⟩
    · refine ⟨fun new hf => ?_, fun code hcode => ?_⟩
      · rcases Table.mem_set.1 hf with ⟨hf, -⟩ | ⟨rfl, -⟩
        · exact h.consumed new hf
        · exact fun _ => rfl
      · rcases (Table.mem_of_insertAllOr hcodes).1 hcode with hcode | hcode
        · exact hl.enrolled (h.codes code (Table.mem_delete.1 hcode).1)
        · -- a new code is one of the user whose factor was enabled
          obtain ⟨hash, -, rfl⟩ := List.mem_map.1 hcode
          obtain ⟨hmem, hkey⟩ := Table.find?_eq_some.1 hfind
          refine ⟨{ factor with enabledAtMs := some p.nowMs, lastConsumedStep := some p.step }, ?_, rfl⟩
          exact Table.find?_eq_some.2 ⟨Table.mem_set.2 (.inr ⟨rfl, factor, hmem, rfl⟩), hkey⟩

theorem verify {p r} (hstep : verifyTotpStepUp p db = .ok (r, db')) : db'.Enrolling := by
  have hl := Lasting.verifyTotpStepUp hstep
  rcases verifyTotpStepUp_cases hstep with ⟨-, rfl⟩ | ⟨_, _, factor, -, -, hfind, henabled, -, -, rfl⟩
  · exact h
  · refine h.of_lasting hl (fun new hf => ?_) fun code hcode => ⟨code, hcode, rfl⟩
    rcases Table.mem_set.1 hf with ⟨hf, -⟩ | ⟨rfl, -⟩
    · exact h.consumed new hf
    · exact fun _ => henabled

theorem recover {p r} (hstep : useRecoveryCode p db = .ok (r, db')) : db'.Enrolling := by
  have hl := Lasting.useRecoveryCode hstep
  rcases useRecoveryCode_cases hstep with ⟨-, rfl⟩ | ⟨_, _, code, -, -, hfind, -, rfl⟩
  · exact h
  · refine h.of_lasting hl h.consumed fun new hcode => ?_
    rcases Table.mem_set.1 hcode with ⟨hcode, -⟩ | ⟨rfl, -⟩
    · exact ⟨new, hcode, rfl⟩
    · exact ⟨code, (Table.find?_eq_some.1 hfind).1, rfl⟩

theorem step {c : Command} (hstep : FactorStep db db' c) : db'.Enrolling := by
  cases hstep with
  | leaves hleaves => exact h.leaves hleaves
  | start hs => exact h.start hs
  | confirm hs => exact h.confirm hs
  | verify hs => exact h.verify hs
  | recover hs => exact h.recover hs
  | register hs =>
    rcases completePasskeyRegistration_cases hs with ⟨-, rfl | ⟨_, -, rfl⟩⟩ | ⟨_, _, _, _, -, -, -, -, rfl⟩
    · exact h
    · exact ⟨h.consumed, h.codes⟩
    · exact ⟨h.consumed, h.codes⟩

end Steps

theorem of_reachableBy {ok : Db → Command → Prop} (h : ReachableBy postgres ok db) : db.Enrolling :=
  h.invariant .empty fun hs _ hn => hs.step (factorStep_of_next hn)

end Db.Enrolling

/-! ## Raising a session -/

def Db.hasFactor (db : Db) (user : Uuid) : Bool :=
  ((db.totpFactors.find? user).any fun factor => factor.enabledAtMs.isSome) ||
    db.passkeys.rows.any fun passkey => decide (passkey.userId = user)

/-- A session that was at `aal1` is at `aal2`. -/
structure Raises (db db' : Db) (sessionId : Uuid) (session : Session) : Prop where
  before : db.sessions.find? sessionId = some session
  aal1 : session.assurance = .aal1
  after : ∃ session', db'.sessions.find? sessionId = some session' ∧ session'.assurance = .aal2

/-- A command has accepted, for a session of the user, a TOTP code or a recovery code of a factor that was
enabled before it. -/
inductive AcceptsFactor (db db' : Db) (sessionId user : Uuid) : Command → Prop
  | totp {p : VerifyTotpStepUp} {factor : TotpFactor} (hid : p.sessionId = sessionId)
      (h : verifyTotpStepUp p db = .ok (some (), db')) (hfind : db.totpFactors.find? user = some factor)
      (henabled : factor.enabledAtMs.isSome) (hcipher : factor.secretCiphertext = p.secretCiphertext)
      (hfresh : ∀ last ∈ factor.lastConsumedStep, last < p.step) :
      AcceptsFactor db db' sessionId user (.verifyTotpStepUp p)
  | recovery {p : UseRecoveryCode} {code : RecoveryCode} (hid : p.sessionId = sessionId)
      (h : useRecoveryCode p db = .ok (some (), db')) (hfind : db.recoveryCodes.find? (user, p.codeHash) = some code)
      (hunused : code.usedAtMs = none) (henrolled : db.Enrolled user) :
      AcceptsFactor db db' sessionId user (.useRecoveryCode p)

def Command.enrollingSession (db : Db) : Command → Option (Session × User)
  | .confirmTotpEnrollment p => db.liveSession p.sessionId p.nowMs
  | .completePasskeyRegistration p => db.liveSession p.sessionId p.nowMs
  | _ => none

/-- An enrollment by a session at `aal1` is the first one of its user. -/
def enrollsFirst (db : Db) (c : Command) : Prop :=
  ∀ live ∈ c.enrollingSession db, live.1.assurance = .aal1 → db.hasFactor live.2.userId = false

instance (db : Db) (c : Command) : Decidable (enrollsFirst db c) :=
  inferInstanceAs (Decidable (∀ live ∈ c.enrollingSession db, live.1.assurance = .aal1 →
    db.hasFactor live.2.userId = false))

section Raises

variable {db db' : Db} {sessionId : Uuid} {session : Session}

theorem not_raises (h : db.sessions.Evolves (fun s s' => s'.assurance = s.assurance) db'.sessions) :
    ¬ Raises db db' sessionId session := by
  rintro ⟨hbefore, haal1, s', hafter, haal2⟩
  obtain ⟨s₁, hs₁, hsame⟩ := h hbefore
  rw [hafter] at hs₁
  cases hs₁
  rw [haal2, haal1] at hsame
  cases hsame

theorem not_raises_of_sessions (h : db'.sessions = db.sessions) : ¬ Raises db db' sessionId session :=
  not_raises (.of_eq (fun _ => rfl) h)

theorem Raises.elevateSession (hfind : db.sessions.find? sessionId = some session) (haal1 : session.assurance = .aal1) :
    Raises db (db.elevateSession sessionId) sessionId session := by
  have hid : session.sessionId = sessionId := (Table.find?_eq_some.1 hfind).2
  refine ⟨hfind, haal1, ?_⟩
  simp [Db.elevateSession, Db.updateSessions, Table.find?_update, hfind, hid]

/-- `elevateSession` raises the session it names and no other. -/
theorem Raises.eq_of_elevateSession {db₁ : Db} {elevated : Uuid}
    (h : Raises db (db₁.elevateSession elevated) sessionId session) (hsessions : db₁.sessions = db.sessions) :
    sessionId = elevated := by
  obtain ⟨hbefore, haal1, s', hafter, haal2⟩ := h
  have hid : session.sessionId = sessionId := (Table.find?_eq_some.1 hbefore).2
  simp only [Db.elevateSession, Db.updateSessions, Table.find?_update, hsessions, hbefore, Option.map_some,
    Option.some.injEq] at hafter
  by_contra hne
  rw [if_neg (by simpa [hid] using hne)] at hafter
  rw [← hafter, haal1] at haal2
  cases haal2

theorem Raises.live {nowMs : Int} {s : Session} {u : User} (h : Raises db db' sessionId session)
    (hlive : db.liveSession sessionId nowMs = some (s, u)) : s = session ∧ u.userId = session.userId := by
  obtain ⟨hs, hu, -⟩ := Db.liveSession_eq_some.1 hlive
  rw [h.before] at hs
  cases hs
  exact ⟨rfl, (Table.find?_eq_some.1 hu).2⟩

theorem sessions_of_enableFactor {p : ConfirmTotpEnrollment} {user : Uuid} (h : db.enableFactor p user = .ok db') :
    db'.sessions = db.sessions := by
  rcases enableFactor_cases h with ⟨-, rfl⟩ | ⟨_, _, -, -, -, -, rfl⟩ <;> rfl

theorem Raises.not_enrollsFirst {c : Command} {nowMs : Int} {s : Session} {u : User}
    (h : Raises db db' sessionId session) (hlive : db.liveSession sessionId nowMs = some (s, u))
    (hc : c.enrollingSession db = some (s, u)) (hf : db.hasFactor session.userId = true) : ¬ enrollsFirst db c := by
  obtain ⟨rfl, huser⟩ := h.live hlive
  intro hok
  have hnone := hok (s, u) hc h.aal1
  rw [huser, hf] at hnone
  cases hnone

/-- **Raising a session.** In every run whose enrollments by sessions at `aal1` are all the first of their
user, a session of a user with a factor is raised only by a code of an enabled factor. -/
theorem raised_by_enrolled_factor {c : Command} (hreach : ReachableBy postgres enrollsFirst db)
    (hok : enrollsFirst db c) (hn : postgres.next db c = some db') (h : Raises db db' sessionId session)
    (hf : db.hasFactor session.userId = true) : AcceptsFactor db db' sessionId session.userId c := by
  cases factorStep_of_next hn with
  | leaves hleaves => exact absurd h (not_raises hleaves.assurance)
  | start hs =>
    rcases startTotpEnrollment_cases hs with ⟨-, rfl⟩ | ⟨_, _, -, -, ⟨_, -, rfl⟩ | ⟨_, -, -, rfl⟩⟩ <;>
      exact absurd h (not_raises_of_sessions rfl)
  | @confirm p _ hs =>
    rcases confirmTotpEnrollment_cases hs with ⟨-, -, rfl⟩ | ⟨s, u, db₁, -, hlive, henable, rfl⟩
    · exact absurd h (not_raises_of_sessions rfl)
    · obtain rfl := h.eq_of_elevateSession (sessions_of_enableFactor henable)
      exact absurd hok (h.not_enrollsFirst hlive hlive hf)
  | @verify p _ hs =>
    rcases verifyTotpStepUp_cases hs with ⟨-, rfl⟩ | ⟨s, u, factor, rfl, hlive, hfind, henabled, hcipher, hlast, rfl⟩
    · exact absurd h (not_raises_of_sessions rfl)
    · obtain rfl := h.eq_of_elevateSession rfl
      obtain ⟨rfl, huser⟩ := h.live hlive
      exact .totp rfl hs (huser ▸ hfind) henabled hcipher hlast
  | @recover p _ hs =>
    rcases useRecoveryCode_cases hs with ⟨-, rfl⟩ | ⟨s, u, code, rfl, hlive, hfind, hunused, rfl⟩
    · exact absurd h (not_raises_of_sessions rfl)
    · obtain rfl := h.eq_of_elevateSession rfl
      obtain ⟨rfl, huser⟩ := h.live hlive
      obtain ⟨hmem, hkey⟩ := Table.find?_eq_some.1 hfind
      have hcode : code.userId = u.userId := congrArg Prod.fst hkey
      have henrolled := (Db.Enrolling.of_reachableBy hreach).codes code hmem
      exact .recovery rfl hs (huser ▸ hfind) hunused (huser ▸ hcode ▸ henrolled)
  | @register p _ hs =>
    rcases completePasskeyRegistration_cases hs with ⟨-, rfl | ⟨_, -, rfl⟩⟩ | ⟨s, u, _, _, -, -, hlive, -, rfl⟩
    · exact absurd h (not_raises_of_sessions rfl)
    · exact absurd h (not_raises_of_sessions rfl)
    · obtain rfl := h.eq_of_elevateSession rfl
      exact absurd hok (h.not_enrollsFirst hlive hlive hf)

end Raises

/-- The test of `Raises`, for a command on a session of the founder's. -/
def raisesFounder (sessionId : Uuid) (c : Command) (db : Db) : Bool :=
  ((db.sessions.find? sessionId).any fun s => decide (s.assurance = .aal1 ∧ s.userId = ⟨1⟩)) &&
    (((db.step c).sessions.find? sessionId).any fun s => decide (s.assurance = .aal2)) && db.hasFactor ⟨1⟩

theorem raises_of_raisesFounder {sessionId : Uuid} {c : Command} {db : Db} (h : raisesFounder sessionId c db = true) :
    ∃ session, Raises db (db.step c) sessionId session ∧ db.hasFactor session.userId = true := by
  simp only [raisesFounder, Bool.and_eq_true] at h
  obtain ⟨⟨hbefore, hafter⟩, hfactor⟩ := h
  obtain ⟨s, hs, hfacts⟩ := (Option.any_eq_true _ _).1 hbefore
  obtain ⟨haal1, huser⟩ := of_decide_eq_true hfacts
  obtain ⟨s', hs', haal2⟩ := (Option.any_eq_true _ _).1 hafter
  exact ⟨s, ⟨hs, haal1, s', hs', of_decide_eq_true haal2⟩, huser ▸ hfactor⟩

/-- The founder's second session steps up with the TOTP factor. -/
theorem second_login_steps_up : ∃ db session, ReachableBy postgres enrollsFirst db ∧
    Raises db (db.step (.verifyTotpStepUp ⟨⟨5⟩, [7], 0, 1⟩)) ⟨5⟩ session ∧ db.hasFactor session.userId = true ∧
      AcceptsFactor db (db.step (.verifyTotpStepUp ⟨⟨5⟩, [7], 0, 1⟩)) ⟨5⟩ session.userId
        (.verifyTotpStepUp ⟨⟨5⟩, [7], 0, 1⟩) := by
  obtain ⟨db, hreach, hp⟩ := exists_reachableBy_of_run postgres (fun db c => decide (enrollsFirst db c))
    (foundAcme ++ secondLogin) (fun db : Db => raisesFounder ⟨5⟩ (.verifyTotpStepUp ⟨⟨5⟩, [7], 0, 1⟩) db)
    (by decide +kernel) (fun h => of_decide_eq_true h)
  obtain ⟨session, hraises, hfactor⟩ := raises_of_raisesFounder hp
  exact ⟨db, session, hreach, hraises, hfactor,
    raised_by_enrolled_factor hreach (fun _ hlive => by cases hlive) rfl hraises hfactor⟩

def secondRegistration : CompletePasskeyRegistration :=
  { verifierHash := [30], flowId := ⟨40⟩, sessionId := ⟨5⟩, credentialId := [31], publicKeyCose := [], signCount := 0
    transports := "[]", nowMs := 0, displayName := "laptop" }

/-- The founder has a TOTP factor; the second session, a password login, registers a passkey and is raised. -/
theorem passkey_registration_raises : ∃ db session, Reachable postgres db ∧ db.hasFactor session.userId = true ∧
    Raises db (db.step (.completePasskeyRegistration secondRegistration)) ⟨5⟩ session ∧
      ¬ AcceptsFactor db (db.step (.completePasskeyRegistration secondRegistration)) ⟨5⟩ session.userId
        (.completePasskeyRegistration secondRegistration) := by
  obtain ⟨db, hreach, hp⟩ := exists_reachable_of_run postgres
    (foundAcme ++ secondLogin ++
      [.createAuthFlow ⟨⟨40⟩, .webauthnRegistration, some ⟨1⟩, [30], "v1", [], 1000000, none⟩])
    (fun db : Db => raisesFounder ⟨5⟩ (.completePasskeyRegistration secondRegistration) db) (by decide +kernel)
  obtain ⟨session, hraises, hfactor⟩ := raises_of_raisesFounder hp
  exact ⟨db, session, hreach, hfactor, hraises, fun h => by cases h⟩

end WasiAuth
