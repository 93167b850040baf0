import WasiAuth.Postgres.Commands

/-! # The outcomes of the statements that open and end sessions

For every statement that logs a user in, changes a password or revokes a session, a lemma `<command>_cases` says all it
can do: nothing, what it consumes although it refuses, or the writes it makes for a caller that passed its checks.
-/

namespace WasiAuth

open Relational

section Logins
variable {db db' : Db}

theorem insertSession_eq_ok {s : Session} (h : db.insertSession s = .ok db') :
    ∃ sessions, db.sessions.insertOr SqlError.uniqueViolation s = .ok sessions ∧
      db' = { db with sessions := sessions } := by
  obtain ⟨sessions, hins, h⟩ := bind_eq_ok.1 h
  cases h
  exact ⟨sessions, hins, rfl⟩

theorem bootstrapAdministrator_eq_ok {p : VerifyEmail} {user : User} (h : db.bootstrapAdministrator p user = .ok db') :
    ∃ administrators, db' = { db with systemAdministrators := administrators } := by
  unfold Db.bootstrapAdministrator Db.grantAdministrator at h
  split at h
  · split at h
    · cases h; exact ⟨_, rfl⟩
    · obtain ⟨administrators, -, h⟩ := bind_eq_ok.1 h
      cases h
      exact ⟨administrators, rfl⟩
  · cases h; exact ⟨_, rfl⟩

def Db.useToken (tokenHash : Bytes) (nowMs : Int) (db : Db) : Db :=
  db.consumeTokens (fun t => decide (t.tokenHash = tokenHash)) nowMs

theorem tokenCandidate_eq_some {tokenHash : Bytes} {purpose : TokenPurpose} {nowMs : Int} {token : OneTimeToken} :
    db.tokenCandidate tokenHash purpose nowMs = some token ↔ db.oneTimeTokens.find? tokenHash = some token ∧
      token.purpose = purpose ∧ nowMs ≤ token.expiresAtMs ∧ token.consumedAtMs = none := by
  simp only [Db.tokenCandidate, Option.filter_eq_some_iff, decide_eq_true_eq]

theorem flowCandidate_eq_some {flowId : Uuid} {verifierHash : Bytes} {kind : FlowKind} {nowMs : Int} {flow : Flow} :
    db.flowCandidate flowId verifierHash kind nowMs = some flow ↔ db.flows.find? flowId = some flow ∧
      flow.verifierHash = verifierHash ∧ flow.kind = kind ∧ flow.consumedAtMs = none ∧ nowMs ≤ flow.expiresAtMs := by
  simp only [Db.flowCandidate, Option.filter_eq_some_iff, decide_eq_true_eq]

/-- The outcomes of `verify_email.sql`. -/
theorem verifyEmail_cases {p r} (h : verifyEmail p db = .ok (r, db')) : r = none ∧ db' = db ∨
      ∃ token, db.tokenCandidate p.tokenHash .emailVerification p.nowMs = some token ∧
        (r = none ∧ db' = db.useToken p.tokenHash p.nowMs ∨
          ∃ user administrators sessions, token.userId = some user.userId ∧ db.users.find? user.userId = some user ∧
            (user.status = .pendingVerification ∨ user.status = .active) ∧
            db.sessions.insertOr SqlError.uniqueViolation (Db.newSession p.sessionId user.userId .aal1
              user.securityRevision p.expiresAtMs p.nowMs) = .ok sessions ∧
              r = some ⟨p.sessionId, user.userId, p.expiresAtMs⟩ ∧
                db' = { (db.useToken p.tokenHash p.nowMs).setUser { user with status := .active } with
                  systemAdministrators := administrators
                  sessions := sessions }) := by
  unfold verifyEmail at h
  split at h
  · cases h; exact .inl ⟨rfl, rfl⟩
  · rename_i token htoken
    refine .inr ⟨token, htoken, ?_⟩
    dsimp only at h
    split at h
    · cases h; exact .inl ⟨rfl, rfl⟩
    · rename_i user hfind
      obtain ⟨hfind, hstatus⟩ := Option.filter_eq_some_iff.1 hfind
      obtain ⟨id, hid, hfind⟩ := Option.bind_eq_some_iff.1 hfind
      obtain rfl : user.userId = id := (Table.find?_eq_some.1 hfind).2
      obtain ⟨db₁, h₁, h⟩ := bind_eq_ok.1 h
      obtain ⟨db₂, h₂, h⟩ := bind_eq_ok.1 h
      cases h
      obtain ⟨administrators, rfl⟩ := bootstrapAdministrator_eq_ok h₁
      obtain ⟨sessions, hins, rfl⟩ := insertSession_eq_ok h₂
      exact .inr ⟨user, administrators, sessions, hid, hfind, of_decide_eq_true hstatus, hins, rfl, rfl⟩

/-- The outcomes of `issue_password_session.sql`. -/
theorem issuePasswordSession_cases {p r} (h : issuePasswordSession p db = .ok (r, db')) : r = none ∧ db' = db ∨
      ∃ user password sessions, db.users.find? p.userId = some user ∧ db.passwords.find? p.userId = some password ∧
        user.normalizedEmail = p.normalizedEmail ∧ user.status = .active ∧ password.revokedAtMs = none ∧
          password.passwordHash = p.passwordHash ∧
            db.sessions.insertOr SqlError.uniqueViolation (Db.newSession p.sessionId user.userId .aal1
              user.securityRevision p.expiresAtMs p.nowMs) = .ok sessions ∧
              r = some ⟨p.sessionId, user.userId, p.expiresAtMs⟩ ∧
                db' = { db.setPassword { password with lastAuthenticatedAtMs := some p.nowMs } with
                  sessions := sessions } := by
  unfold issuePasswordSession at h
  split at h
  · rename_i user password huser hpassword
    split at h
    · rename_i hchecks
      obtain ⟨hemail, hactive, hrevoked, hhash⟩ := hchecks
      obtain ⟨db₁, h₁, h⟩ := bind_eq_ok.1 h
      cases h
      obtain ⟨sessions, hins, rfl⟩ := insertSession_eq_ok h₁
      exact .inr ⟨user, password, sessions, huser, hpassword, hemail, hactive, hrevoked, hhash, hins, rfl, rfl⟩
    · cases h; exact .inl ⟨rfl, rfl⟩
  · cases h; exact .inl ⟨rfl, rfl⟩

def CompletePasswordReset.stop (p : CompletePasswordReset) (s : Session) : Session :=
  { s with revokedAtMs := some p.nowMs }

theorem CompletePasswordReset.stop_sessionId (p : CompletePasswordReset) (s : Session) :
    (p.stop s).sessionId = s.sessionId := rfl

/-- The outcomes of `complete_password_reset.sql`. -/
theorem completePasswordReset_cases {p r} (h : completePasswordReset p db = .ok (r, db')) : r = none ∧ db' = db ∨
      ∃ token passwords, db.tokenCandidate p.tokenHash .passwordReset p.nowMs = some token ∧
        (r = none ∧ db' = { db.useToken p.tokenHash p.nowMs with passwords := passwords } ∨
          ∃ user sessions refreshTokens, token.userId = some user.userId ∧ db.users.find? user.userId = some user ∧
            user.status = .active ∧
              (db.sessions.update (fun s => decide (s.userId = user.userId ∧ s.revokedAtMs = none)) p.stop
                p.stop_sessionId).insertOr SqlError.uniqueViolation (Db.newSession p.sessionId user.userId .aal1
                  (user.securityRevision + 1) p.expiresAtMs p.nowMs) = .ok sessions ∧
                r = some ⟨p.sessionId, user.userId, p.expiresAtMs⟩ ∧
                  db' = { db.useToken p.tokenHash p.nowMs with
                    passwords := passwords
                    users := db.users.set { user with securityRevision := user.securityRevision + 1 }
                    sessions := sessions
                    refreshTokens := refreshTokens }) := by
  unfold completePasswordReset at h
  split at h
  · cases h; exact .inl ⟨rfl, rfl⟩
  · rename_i token htoken
    dsimp only at h
    split at h
    · cases h; exact .inr ⟨token, _, htoken, .inl ⟨rfl, rfl⟩⟩
    · rename_i password hpassword
      obtain ⟨id, hid, hpassword⟩ := Option.bind_eq_some_iff.1 hpassword
      obtain rfl : password.userId = id := (Table.find?_eq_some.1 hpassword).2
      split at h
      · cases h; exact .inr ⟨token, _, htoken, .inl ⟨rfl, rfl⟩⟩
      · rename_i user hfind
        obtain ⟨hfind, hactive⟩ := Option.filter_eq_some_iff.1 hfind
        have huser : user.userId = password.userId := (Table.find?_eq_some.1 hfind).2
        obtain ⟨db₁, h₁, h⟩ := bind_eq_ok.1 h
        cases h
        obtain ⟨sessions, hins, rfl⟩ := insertSession_eq_ok h₁
        rw [← huser] at hid hfind
        exact .inr ⟨token, _, htoken, .inr ⟨user, sessions, _, hid, hfind, of_decide_eq_true hactive, hins, rfl, rfl⟩⟩

/-- The session the password is changed in: it goes on under the new security revision. -/
def ChangePassword.renew (secured : Nat) (s : Session) : Session :=
  { s with userSecurityRevision := secured, sessionRevision := s.sessionRevision + 1 }

def ChangePassword.stop (p : ChangePassword) (s : Session) : Session :=
  { s with revokedAtMs := some p.nowMs, sessionRevision := s.sessionRevision + 1 }

theorem ChangePassword.renew_sessionId (secured : Nat) (s : Session) : (renew secured s).sessionId = s.sessionId := rfl

theorem ChangePassword.stop_sessionId (p : ChangePassword) (s : Session) : (p.stop s).sessionId = s.sessionId := rfl

/-- The outcomes of `change_password.sql`. -/
theorem changePassword_cases {p r} (h : changePassword p db = .ok (r, db')) : r = none ∧ db' = db ∨
      ∃ session user password refreshTokens, db.liveSession p.sessionId p.nowMs = some (session, user) ∧
        session.userId = p.userId ∧ db.passwords.find? user.userId = some password ∧
          password.passwordHash = p.currentHash ∧ password.revokedAtMs = none ∧ r = some () ∧
            db' = { db with
              passwords := db.passwords.set { password with passwordHash := p.nextHash }
              users := db.users.set { user with securityRevision := user.securityRevision + 1 }
              sessions := (db.sessions.update
                  (fun s => decide (s.sessionId = p.sessionId ∧ s.userId = user.userId))
                  (ChangePassword.renew (user.securityRevision + 1)) (ChangePassword.renew_sessionId _)).update
                (fun s => decide (s.userId = user.userId ∧ s.sessionId ≠ p.sessionId ∧ s.revokedAtMs = none)) p.stop
                p.stop_sessionId
              refreshTokens := refreshTokens } := by
  unfold changePassword at h
  split at h
  · cases h; exact .inl ⟨rfl, rfl⟩
  · rename_i session user hlive
    obtain ⟨hlive, huser⟩ := Option.filter_eq_some_iff.1 hlive
    split at h
    · cases h; exact .inl ⟨rfl, rfl⟩
    · rename_i password hpassword
      obtain ⟨hpassword, hchecks⟩ := Option.filter_eq_some_iff.1 hpassword
      obtain ⟨hhash, hrevoked⟩ := of_decide_eq_true hchecks
      cases h
      exact .inr ⟨session, user, password, _, hlive, of_decide_eq_true huser, hpassword, hhash, hrevoked, rfl, rfl⟩

def RevokeSession.stop (p : RevokeSession) (s : Session) : Session :=
  { s with revokedAtMs := some p.nowMs, sessionRevision := s.sessionRevision + 1 }

theorem RevokeSession.stop_sessionId (p : RevokeSession) (s : Session) : (p.stop s).sessionId = s.sessionId := rfl

/-- The outcomes of `revoke_session.sql`. -/
theorem revokeSession_cases {p r} (h : revokeSession p db = .ok (r, db')) : r = none ∧ db' = db ∨
      ∃ refreshTokens, r = some () ∧ db' = { db with
        sessions := db.sessions.update (fun s => decide (s.sessionId = p.sessionId)) p.stop p.stop_sessionId
        refreshTokens := refreshTokens } := by
  unfold revokeSession at h
  split at h
  · cases h; exact .inl ⟨rfl, rfl⟩
  · split at h
    · cases h; exact .inl ⟨rfl, rfl⟩
    · cases h; exact .inr ⟨_, rfl, rfl⟩

/-! ## External identities -/

theorem resolveOauthUser_eq_ok {p : CompleteOauthIdentity} {user : Option User}
    (h : db.resolveOauthUser p = .ok (user, db')) :
    ∃ users, db' = { db with users := users } ∧
      (users = db.users ∨ ∃ new, db.users.insertOr SqlError.uniqueViolation new = .ok users) := by
  unfold Db.resolveOauthUser at h
  split at h
  · cases h; exact ⟨_, rfl, .inl rfl⟩
  · split at h
    · cases h; exact ⟨_, rfl, .inl rfl⟩
    · split at h
      · cases h; exact ⟨_, rfl, .inl rfl⟩
      · obtain ⟨users, hins, h⟩ := bind_eq_ok.1 h
        cases h
        exact ⟨users, rfl, .inr ⟨_, hins⟩⟩

/-- The provider's subject is an identity of the user: of no one else before the statement, and of the user after. -/
structure Identified (p : CompleteOauthIdentity) (userId : Uuid) (db db' : Db) : Prop where
  known : ∀ i, db.externalIdentities.find? (p.providerId, p.providerSubject) = some i → i.userId = userId
  linked : ∃ i, db'.externalIdentities.find? (p.providerId, p.providerSubject) = some i ∧ i.userId = userId

theorem linkIdentity_eq_ok {p : CompleteOauthIdentity} {user : User} {linked : Bool}
    (h : db.linkIdentity p user = .ok (linked, db')) :
    ∃ identities, db' = { db with externalIdentities := identities } ∧
      (linked = true → Identified p user.userId db db') := by
  unfold Db.linkIdentity at h
  split at h
  · rename_i identity hfind
    split at h <;> cases h
    · rename_i huser
      refine ⟨_, rfl, fun _ => ⟨fun i hi => ?_, p.identity user.userId, ?_, rfl⟩⟩
      · rw [hfind] at hi
        cases hi
        exact huser
      · exact Table.find?_set_self (r := p.identity user.userId) hfind
    · exact ⟨_, rfl, fun hlinked => by cases hlinked⟩
  · rename_i hfind
    obtain ⟨identities, hins, h⟩ := bind_eq_ok.1 h
    cases h
    refine ⟨identities, rfl, fun _ => ⟨fun i hi => ?_, p.identity user.userId, ?_, rfl⟩⟩
    · rw [hfind] at hi
      cases hi
    · rw [Table.find?_of_insertOr hins]
      exact if_pos rfl

/-- The outcomes of `complete_oauth_identity.sql`. -/
theorem completeOauthIdentity_cases {p r} (h : completeOauthIdentity p db = .ok (r, db')) : r = none ∧ db' = db ∨
      ∃ flow users identities, db.flowCandidate p.flowId p.verifierHash .oauth p.nowMs = some flow ∧
        (users = db.users ∨ ∃ new, db.users.insertOr SqlError.uniqueViolation new = .ok users) ∧
        (r = some .unavailable ∧
            db' = { db.consumeFlow flow p.nowMs with users := users, externalIdentities := identities } ∨
          ∃ (user : User) (sessions : Table Session.sessionId), Identified p user.userId db db' ∧
            r = some (.completed p.sessionId user.userId user.primaryEmail p.expiresAtMs) ∧
              db.sessions.insertOr SqlError.uniqueViolation (Db.newSession p.sessionId user.userId .aal1
                user.securityRevision p.expiresAtMs p.nowMs) = .ok sessions ∧
                db' = { db.consumeFlow flow p.nowMs with
                  users := users, externalIdentities := identities, sessions := sessions }) := by
  unfold completeOauthIdentity at h
  split at h
  · cases h; exact .inl ⟨rfl, rfl⟩
  · rename_i flow hflow
    obtain ⟨⟨user?, db₁⟩, h₁, h⟩ := bind_eq_ok.1 h
    obtain ⟨users, rfl, husers⟩ := resolveOauthUser_eq_ok h₁
    dsimp only at h
    split at h
    · cases h; exact .inr ⟨flow, users, _, hflow, husers, .inl ⟨rfl, rfl⟩⟩
    · rename_i user
      obtain ⟨⟨linked, db₂⟩, h₂, h⟩ := bind_eq_ok.1 h
      obtain ⟨identities, rfl, hlinked⟩ := linkIdentity_eq_ok h₂
      dsimp only at h
      split at h
      · rename_i hactive
        obtain ⟨db₃, h₃, h⟩ := bind_eq_ok.1 h
        cases h
        obtain ⟨sessions, hins, rfl⟩ := insertSession_eq_ok h₃
        have hid := hlinked hactive.1
        exact .inr ⟨flow, users, identities, hflow, husers,
          .inr ⟨user, sessions, ⟨hid.known, hid.linked⟩, rfl, hins, rfl⟩⟩
      · cases h; exact .inr ⟨flow, users, identities, hflow, husers, .inl ⟨rfl, rfl⟩⟩

end Logins

end WasiAuth
