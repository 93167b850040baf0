import WasiAuth.Identity.Session
import WasiAuth.Postgres.Lasting

/-! # Sessions that are over

A password change, a completed reset and the administrator's disable switch end the sessions of a user
(`Secures`). They mark them revoked; a revoked session is refused by every query and statement that asks for
a live one (`refuses_of_revoked`), and no command takes a revocation back (`Lasting`), so the security
revision and the user's status, which the same queries compare, are not needed to keep it out.
-/

namespace WasiAuth

open Relational Transition

def RotationOutcome.accepted : RotationOutcome → Bool
  | .rotated .. | .replayed .. => true
  | .reuseDetected | .invalid => false

/-- No context, no token pair and no rotation for the session. -/
structure Db.Refuses (db : Db) (sessionId : Uuid) : Prop where
  context : ∀ nowMs keyId, db.loadRequestContext sessionId nowMs keyId = none
  issue : ∀ p : IssueTokenPair, p.sessionId = sessionId → issueTokenPair p db = .ok (none, db)
  refresh : ∀ (p : RotateRefreshToken) (token : RefreshToken), db.refreshTokens.find? p.tokenHash = some token →
    token.sessionId = sessionId → ∀ r db', rotateRefreshToken p db = .ok (r, db') → r.accepted = false

section Revoked

variable {db db' : Db} {id : Uuid} {s : Session}
  (hs : db.sessions.find? id = some s) (hr : s.revokedAtMs.isSome)
include hs hr

theorem liveSession_of_revoked (nowMs : Int) :
    db.liveSession id nowMs = none := by
  cases hlive : db.liveSession id nowMs with
  | none => rfl
  | some live =>
    obtain ⟨hs', -, hnone, -⟩ := Db.liveSession_eq_some.1 hlive
    rw [hs] at hs'
    cases hs'
    simp [hnone] at hr

/-- No rotation succeeds for a revoked session. -/
theorem accepted_of_revoked {p : RotateRefreshToken} {token : RefreshToken} {r : RotationOutcome}
   
    (ht : db.refreshTokens.find? p.tokenHash = some token) (hid : token.sessionId = id)
    (h : rotateRefreshToken p db = .ok (r, db')) : r.accepted = false := by
  -- the candidate's session is `s`, so a rotation or a replay would have found it live
  have hdead {token' : RefreshToken} {session : Session} {user : User}
      (hc : RotationCandidate p db token' session user) : ¬ p.accepts session user := by
    have htoken := hc.findToken
    rw [ht] at htoken
    cases htoken
    have hsession := hc.findSession
    rw [hid, hs] at hsession
    cases hsession
    rintro ⟨hnone, -⟩
    simp [hnone] at hr
  cases rotateRefreshToken_cases h with
  | invalid => rfl
  | rotated hc hlive => exact absurd hlive (hdead hc)
  | replayed hc hlive => exact absurd hlive (hdead hc)
  | reuse => split <;> rfl

/-- A revoked session gets no context and no token. -/
theorem refuses_of_revoked : db.Refuses id where
  context nowMs keyId := by simp [Db.loadRequestContext, liveSession_of_revoked hs hr]
  issue p hp := by
    subst hp
    simp [issueTokenPair, liveSession_of_revoked hs hr]
  refresh _ _ ht hid _ _ h := accepted_of_revoked hs hr ht hid h

theorem Lasting.refuses (h : Lasting db db') :
    db'.Refuses id := by
  obtain ⟨s', hs', hlasts⟩ := h.sessions hs
  exact refuses_of_revoked hs' (hlasts.revoked hr)

end Revoked

/-! ## The statements that end sessions -/

/-- A statement that has ended the sessions of a user, all but `kept`. -/
inductive Secures (db : Db) : (user : Uuid) → (kept : Option Uuid) → (db' : Db) → Prop
  | changed {p : ChangePassword} {db' : Db} (h : changePassword p db = .ok (some (), db')) :
      Secures db p.userId (some p.sessionId) db'
  | reset {p : CompletePasswordReset} {created : SessionCreated} {db' : Db}
      (h : completePasswordReset p db = .ok (some created, db')) : Secures db created.userId none db'
  | disabled {p : SetUserDisabled} {updated : User} {db' : Db} (hd : p.disabled = true)
      (h : setUserDisabled p db = .ok (some updated, db')) : Secures db p.userId none db'

section Secures

variable {db db' : Db} {id user : Uuid} {s : Session}

/-- After an update that revokes the rows it selects, among them this one unless it was revoked before. -/
theorem revoked_of_update {p : Session → Bool} {f : Session → Session} {sessions : Table Session.sessionId}
    (hf : ∀ s, (f s).sessionId = s.sessionId) (hrev : ∀ s, (f s).revokedAtMs.isSome)
    (hs : sessions.find? id = some s) (hp : s.revokedAtMs = none → p s = true) :
    ∃ s', (sessions.update p f hf).find? id = some s' ∧ s'.revokedAtMs.isSome := by
  refine ⟨_, by rw [Table.find?_update, hs]; rfl, ?_⟩
  dsimp only
  split
  · exact hrev s
  · rename_i hsel
    exact Option.isSome_iff_ne_none.2 fun hr => hsel (hp hr)

theorem revoked_of_changePassword {p : ChangePassword} (h : changePassword p db = .ok (some (), db'))
    (hs : db.sessions.find? id = some s) (hu : s.userId = p.userId) (hne : id ≠ p.sessionId) :
    ∃ s', db'.sessions.find? id = some s' ∧ s'.revokedAtMs.isSome := by
  have hid : s.sessionId = id := (Table.find?_eq_some.1 hs).2
  rcases changePassword_cases h with ⟨h, -⟩ | ⟨session, user, _, _, hlive, hsame, -, -, -, -, rfl⟩
  · cases h
  · obtain ⟨-, hfind, -⟩ := Db.liveSession_eq_some.1 hlive
    have huser : user.userId = p.userId := (Table.find?_eq_some.1 hfind).2.trans hsame
    refine revoked_of_update (s := s) p.stop_sessionId (fun _ => rfl) ?_ fun hr => ?_
    · simp only [Table.find?_update, hs, Option.map_some]
      simp [hid, hne]
    · simp [hr, hu, hid, hne, huser]

theorem revoked_of_completePasswordReset {p : CompletePasswordReset} {created : SessionCreated}
    (h : completePasswordReset p db = .ok (some created, db')) (hs : db.sessions.find? id = some s)
    (hu : s.userId = created.userId) : ∃ s', db'.sessions.find? id = some s' ∧ s'.revokedAtMs.isSome := by
  rcases completePasswordReset_cases h with ⟨h, -⟩ | ⟨_, _, -, ⟨h, -⟩ | ⟨user, _, _, -, -, -, hins, hr, rfl⟩⟩
  · cases h
  · cases h
  · cases hr
    obtain ⟨s₁, hs₁, hr₁⟩ := @revoked_of_update id s (fun s => decide (s.userId = user.userId ∧ s.revokedAtMs = none))
      p.stop _ p.stop_sessionId (fun _ => rfl) hs fun hr => by simp [hr, hu]
    exact ⟨s₁, Table.find?_insertOr_of_some hins hs₁, hr₁⟩

theorem revoked_of_setUserDisabled {p : SetUserDisabled} {updated : User} (hd : p.disabled = true)
    (h : setUserDisabled p db = .ok (some updated, db')) (hs : db.sessions.find? id = some s)
    (hu : s.userId = p.userId) : ∃ s', db'.sessions.find? id = some s' ∧ s'.revokedAtMs.isSome := by
  rcases setUserDisabled_cases h with ⟨h, -⟩ | ⟨_, -, -, -, -, hdb⟩
  · cases h
  · rw [hdb]
    exact revoked_of_update p.stop_sessionId (fun _ => by simp [SetUserDisabled.stop, hd]) hs fun hr => by simp [hr, hu]

/-- Every session of the user is revoked but the one that is kept. -/
theorem Secures.revoked {kept : Option Uuid} (h : Secures db user kept db') (hs : db.sessions.find? id = some s)
    (hu : s.userId = user) (hkept : kept ≠ some id) :
    ∃ s', db'.sessions.find? id = some s' ∧ s'.revokedAtMs.isSome := by
  cases h with
  | changed h => exact revoked_of_changePassword h hs hu fun he => hkept (by rw [he])
  | reset h => exact revoked_of_completePasswordReset h hs hu
  | disabled hd h => exact revoked_of_setUserDisabled hd h hs hu

/-- **Ended sessions stay out.** After a password change, a completed reset or a disable of a user, a session
that existed before it, other than the one that made the change, is refused in every later state. -/
theorem ended_sessions_are_refused {db₁ db₂ : Db} {kept : Option Uuid} (h : Secures db user kept db₁)
    (hs : db.sessions.find? id = some s) (hu : s.userId = user) (hkept : kept ≠ some id)
    (hrun : Steps postgres anyStep db₁ db₂) : db₂.Refuses id := by
  obtain ⟨s₁, hs₁, hr₁⟩ := h.revoked hs hu hkept
  exact (Lasting.of_run hrun).refuses hs₁ hr₁

end Secures

def secondLogin : List Command :=
  [.issuePasswordSession
      { userId := ⟨1⟩, normalizedEmail := "a@example.com", passwordHash := "hash", sessionId := ⟨5⟩
        expiresAtMs := 1000000, nowMs := 0 },
    .issueTokenPair { sessionId := ⟨5⟩, tokenHash := [20], familyId := ⟨6⟩, expiresAtMs := 1000000, nowMs := 0 }]

def founderChange : ChangePassword :=
  { userId := ⟨1⟩, sessionId := ⟨2⟩, currentHash := "hash", nextHash := "next", nowMs := 10 }

/-- The second session is refused after the change, also once the account has been enabled anew. -/
theorem second_login_is_refused : ∃ db db₁ db₂ s, Reachable postgres db ∧ Secures db ⟨1⟩ (some ⟨2⟩) db₁ ∧
    db.sessions.find? ⟨5⟩ = some s ∧ s.userId = ⟨1⟩ ∧ s.revokedAtMs = none ∧ Steps postgres anyStep db₁ db₂ ∧
      db₂.Refuses ⟨5⟩ := by
  obtain ⟨db, hreach, hp⟩ := exists_reachable_of_run postgres (foundAcme ++ secondLogin)
    (fun db : Db =>
      ((changePassword founderChange db).toOption.any fun r : Option Unit × Db => decide (r.1 = some ())) &&
        (db.sessions.find? ⟨5⟩).any fun s : Session => decide (s.userId = ⟨1⟩ ∧ s.revokedAtMs = none))
    (by decide +kernel)
  obtain ⟨hchange, hsession⟩ := Bool.and_eq_true_iff.1 hp
  obtain ⟨s, hs, hsession⟩ := (Option.any_eq_true _ _).1 hsession
  obtain ⟨hu, hlive⟩ := of_decide_eq_true hsession
  obtain ⟨⟨r, db₁⟩, hresult, hr⟩ := exists_ok_of_any hchange
  obtain rfl : r = some () := of_decide_eq_true hr
  have hsecures : Secures db ⟨1⟩ (some ⟨2⟩) db₁ := .changed hresult
  have hrun : Steps postgres anyStep db₁ (db₁.step (.setUserDisabled
      { sessionId := ⟨2⟩, userId := ⟨1⟩, disabled := false, nowMs := 30, uuids := fun n => ⟨BitVec.ofNat 128 n⟩ })) :=
    (Steps.refl db₁).step trivial rfl
  exact ⟨db, db₁, _, s, hreach, hsecures, hs, hu, hlive, hrun,
    ended_sessions_are_refused hsecures hs hu (by decide) hrun⟩

end WasiAuth
