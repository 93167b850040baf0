import Mathlib.Logic.Relation
import WasiAuth.Postgres.Outcomes

/-! # What the statements write

The statements of `src/postgres/*.sql` share a small set of writes. `SharedWrite` names them, and a statement that makes
no other is a sequence of them (`writes_of_execute`). What such a statement keeps is then proved once per write, not
once per statement. Eight statements have writes of their own (TOTP factors, recovery codes, passkeys, the elevation of
a session, issue and rotation of refresh tokens); for each of them a lemma `<command>_cases` says all it can do.

The tables fall into three groups. `Db.accounts` are those about users and their credentials, `Db.tenancy`
those about organizations and deliveries; a write to any other table is `SharedWrite.others`.
-/

namespace WasiAuth

open Relational Relation

structure AccountTables where
  users : Table User.userId
  sessions : Table Session.sessionId
  refreshTokens : Table RefreshToken.tokenHash
  oneTimeTokens : Table OneTimeToken.tokenHash
  totpFactors : Table TotpFactor.userId
  recoveryCodes : Table RecoveryCode.key
  passkeys : Table Passkey.credentialId

def Db.accounts (db : Db) : AccountTables where
  users := db.users
  sessions := db.sessions
  refreshTokens := db.refreshTokens
  oneTimeTokens := db.oneTimeTokens
  totpFactors := db.totpFactors
  recoveryCodes := db.recoveryCodes
  passkeys := db.passkeys

structure TenancyTables where
  memberships : Table Membership.key
  organizations : Table Organization.organizationId
  rolePermissions : Table (id : RolePermission → RolePermission)
  outbox : Table OutboxRow.outboxId

def Db.tenancy (db : Db) : TenancyTables where
  memberships := db.memberships
  organizations := db.organizations
  rolePermissions := db.rolePermissions
  outbox := db.outbox

/-- What happens to an organization row: the owner count stays, the revision does not decrease, and an
archived organization stays archived. -/
structure Organization.Advances (o o' : Organization) : Prop where
  ownerCount : o'.ownerCount = o.ownerCount
  revision : o.authorizationRevision ≤ o'.authorizationRevision
  active : o'.status = .active → o.status = .active

theorem Organization.Advances.refl (o : Organization) : o.Advances o := ⟨rfl, le_rfl, id⟩

theorem Organization.Advances.trans {o₁ o₂ o₃ : Organization} (h : o₁.Advances o₂) (h' : o₂.Advances o₃) :
    o₁.Advances o₃ :=
  ⟨h'.ownerCount.trans h.ownerCount, h.revision.trans h'.revision, fun ha => h.active (h'.active ha)⟩

/-- An update of a session that leaves its user, its creation time and its assurance, and does not lift a
revocation. -/
structure Session.Continues (s s' : Session) : Prop where
  userId : s'.userId = s.userId
  createdAtMs : s'.createdAtMs = s.createdAtMs
  assurance : s'.assurance = s.assurance
  revoked : s.revokedAtMs.isSome → s'.revokedAtMs.isSome

/-- A write that several statements make. -/
inductive SharedWrite : Db → Db → Prop
  | others {db db' : Db} (ha : db'.accounts = db.accounts) (ht : db'.tenancy = db.tenancy) : SharedWrite db db'
  | insertUser {db : Db} {u : User} {users : Table User.userId}
      (h : db.users.insertOr SqlError.uniqueViolation u = .ok users) : SharedWrite db { db with users := users }
  | setUser {db : Db} {u u' : User} (hu : db.users.find? u'.userId = some u)
      (he : u'.primaryEmail = u.primaryEmail) : SharedWrite db (db.setUser u')
  | insertSession {db : Db} {s : Session} {sessions : Table Session.sessionId}
      (h : db.sessions.insertOr SqlError.uniqueViolation s = .ok sessions) :
      SharedWrite db { db with sessions := sessions }
  | updateSessions {db : Db} {p : Session → Bool} {f : Session → Session} {hf : ∀ s, (f s).sessionId = s.sessionId}
      (h : ∀ s : Session, s.Continues (f s)) : SharedWrite db (db.updateSessions p f hf)
  | revokeRefreshTokens {db : Db} {p : RefreshToken → Bool} {nowMs : Int} :
      SharedWrite db (db.revokeRefreshTokens p nowMs)
  | insertOneTimeToken {db : Db} {t : OneTimeToken} {tokens : Table OneTimeToken.tokenHash}
      (h : db.oneTimeTokens.insertOr SqlError.uniqueViolation t = .ok tokens) :
      SharedWrite db { db with oneTimeTokens := tokens }
  | consumeTokens {db : Db} {p : OneTimeToken → Bool} {nowMs : Int} : SharedWrite db (db.consumeTokens p nowMs)
  | insertMail {db : Db} {outbox : Table OutboxRow.outboxId} (h : db.Mailed outbox) :
      SharedWrite db { db with outbox := outbox }
  | setOrganization {db : Db} {o o' : Organization} (ho : db.organizations.find? o'.organizationId = some o)
      (hadv : o.Advances o') : SharedWrite db (db.setOrganization o')
  | revise {db : Db} {organization : Uuid} {o : Organization} {permissions : Table (id : RolePermission → _)}
      (ho : db.organizations.find? organization = some o)
      (hp : ∀ r : RolePermission, r.organizationId ≠ organization → (r ∈ permissions ↔ r ∈ db.rolePermissions)) :
      SharedWrite db (Db.bumpAuthorizationRevision organization { db with rolePermissions := permissions })

/-- A sequence of shared writes. -/
def Writes (db db' : Db) : Prop := ReflTransGen SharedWrite db db'

namespace Writes

variable {db db' db₁ db₂ db₃ : Db}

theorem refl (db : Db) : Writes db db := ReflTransGen.refl

theorem single (h : SharedWrite db₁ db₂) : Writes db₁ db₂ := ReflTransGen.single h

/-- The sequence ends with this write: chains of these are read from the last write back to the first. -/
theorem after (h' : SharedWrite db₂ db₃) (h : Writes db₁ db₂) : Writes db₁ db₃ := ReflTransGen.tail h h'

/-- A token and the mail with it. -/
theorem mailed {t : OneTimeToken} {tokens : Table OneTimeToken.tokenHash} {outbox : Table OutboxRow.outboxId}
    (h : Writes db db₁) (htoken : db₁.oneTimeTokens.insertOr SqlError.uniqueViolation t = .ok tokens)
    (hmail : ({ db₁ with oneTimeTokens := tokens } : Db).Mailed outbox) :
    Writes db { db₁ with oneTimeTokens := tokens, outbox := outbox } :=
  .after (.insertMail hmail) (.after (.insertOneTimeToken htoken) h)

end Writes

namespace SharedWrite

variable {db : Db}

theorem continueSessions {p : Session → Bool} {f : Session → Session} {hf : ∀ s, (f s).sessionId = s.sessionId}
    (h : ∀ s : Session, s.Continues (f s) := by intro _; exact ⟨rfl, rfl, rfl, by simp⟩) :
    SharedWrite db (db.updateSessions p f hf) :=
  .updateSessions h

theorem setPassword {password : Password} : SharedWrite db (db.setPassword password) := .others rfl rfl

theorem setInvitation {invitation : Invitation} : SharedWrite db (db.setInvitation invitation) := .others rfl rfl

theorem consumeFlow {flow : Flow} {nowMs : Int} : SharedWrite db (db.consumeFlow flow nowMs) := .others rfl rfl

theorem selectOrganizationIn {sessionId user organization : Uuid} :
    SharedWrite db (db.selectOrganizationIn sessionId user organization) :=
  .continueSessions

theorem clearUserSessions {user organization : Uuid} : SharedWrite db (db.clearUserSessions user organization) :=
  .continueSessions

theorem revokePendingInvitations {organization : Uuid} :
    SharedWrite db (db.revokePendingInvitations organization) :=
  .others rfl rfl

theorem consumeInvitationTokens {organization : Uuid} {nowMs : Int} :
    SharedWrite db (db.consumeInvitationTokens organization nowMs) :=
  .consumeTokens

end SharedWrite

/-! ## Statements of several shared writes -/

section Sequences
variable {db db' : Db}

theorem writes_verifyEmail {p r} (h : verifyEmail p db = .ok (r, db')) : Writes db db' := by
  have hused : Writes db (db.useToken p.tokenHash p.nowMs) := .single .consumeTokens
  rcases verifyEmail_cases h with ⟨-, rfl⟩ | ⟨_, -, ⟨-, rfl⟩ | ⟨user, _, _, -, huser, -, hins, -, rfl⟩⟩
  · exact .refl _
  · exact hused
  · have hverified : SharedWrite (db.useToken p.tokenHash p.nowMs) (Db.setUser { user with status := .active } _) :=
      .setUser huser rfl
    exact ((hused.tail hverified).tail (.insertSession hins)).tail (.others rfl rfl)

theorem writes_completePasswordReset {p r} (h : completePasswordReset p db = .ok (r, db')) : Writes db db' := by
  unfold completePasswordReset at h
  split at h
  · cases h; exact .refl _
  · dsimp only at h
    split at h
    · cases h; exact .single .consumeTokens
    · split at h
      · cases h; exact .after .setPassword (.single .consumeTokens)
      · rename_i user hfind
        obtain ⟨db₁, h₁, h⟩ := bind_eq_ok.1 h
        cases h
        obtain ⟨_, hins, rfl⟩ := insertSession_eq_ok h₁
        have huser : db.users.find? user.userId = some user := by
          obtain ⟨hfind, -⟩ := Option.filter_eq_some_iff.1 hfind
          exact (Table.find?_eq_some.1 hfind).2 ▸ hfind
        refine .after (.insertSession hins) (.after .revokeRefreshTokens (.after .continueSessions ?_))
        exact .after (.setUser huser rfl) (.after .setPassword (.single .consumeTokens))

theorem writes_changePassword {p r} (h : changePassword p db = .ok (r, db')) : Writes db db' := by
  unfold changePassword at h
  split at h
  · cases h; exact .refl _
  · rename_i session user hlive
    split at h
    · cases h; exact .refl _
    · cases h
      obtain ⟨-, hfind, -⟩ := Db.liveSession_eq_some.1 (Option.filter_eq_some_iff.1 hlive).1
      have huser : db.users.find? user.userId = some user := (Table.find?_eq_some.1 hfind).2 ▸ hfind
      refine .after .revokeRefreshTokens (.after .continueSessions (.after .continueSessions ?_))
      exact .after (.setUser huser rfl) (.single .setPassword)

theorem writes_completeOauthIdentity {p r} (h : completeOauthIdentity p db = .ok (r, db')) : Writes db db' := by
  rcases completeOauthIdentity_cases h with ⟨-, rfl⟩ | ⟨flow, users, _, -, husers, hrest⟩
  · exact .refl _
  · have hresolved : Writes db { db.consumeFlow flow p.nowMs with users := users } := by
      rcases husers with rfl | ⟨_, hins⟩
      · exact .single .consumeFlow
      · exact .after (.insertUser hins) (.single .consumeFlow)
    rcases hrest with ⟨-, rfl⟩ | ⟨_, _, -, -, hins, rfl⟩
    · exact hresolved.tail (.others rfl rfl)
    · exact (hresolved.tail (.insertSession hins)).tail (.others rfl rfl)

theorem writes_upsertRole {p r} (h : upsertRole p db = .ok (r, db')) : Writes db db' := by
  rcases upsertRole_cases h with ⟨-, rfl⟩ | ⟨_, _, _, _, roles, _, -, horg, -, hins, rfl⟩
  · exact .refl _
  · obtain ⟨ho, hid, -⟩ := activeOrganization_eq_some horg
    have hroles : Writes db { db with roles := roles } := .single (.others rfl rfl)
    refine hroles.tail (.revise (hid ▸ ho) fun r hr => ?_)
    simp only [Table.mem_of_insertAllOr hins, Db.deleteRolePermissions, Table.mem_delete, UpsertRole.permissionRows,
      List.mem_map]
    grind

end Sequences

/-! ## Factors, passkeys and refresh tokens -/

section Credentials
variable {db db' : Db}

/-- The outcomes of `start_totp_enrollment.sql`: an enabled factor is left alone. -/
theorem startTotpEnrollment_cases {p r} (h : startTotpEnrollment p db = .ok (r, db')) : r = none ∧ db' = db ∨
      ∃ session user, r = some () ∧ db.liveSession p.sessionId p.nowMs = some (session, user) ∧
        ((∃ factors, db.totpFactors.insertOr SqlError.uniqueViolation
            ⟨user.userId, p.keyVersion, p.secretCiphertext, none, none⟩ = .ok factors ∧
              db' = { db with totpFactors := factors }) ∨
          ∃ factor, db.totpFactors.find? user.userId = some factor ∧ factor.enabledAtMs = none ∧
            db' = { db with
              totpFactors := db.totpFactors.set
                { factor with keyVersion := p.keyVersion, secretCiphertext := p.secretCiphertext } }) := by
  unfold startTotpEnrollment at h
  split at h
  · cases h; exact .inl ⟨rfl, rfl⟩
  · rename_i session user hlive
    split at h
    · obtain ⟨factors, hins, h⟩ := bind_eq_ok.1 h
      cases h
      exact .inr ⟨session, user, rfl, hlive, .inl ⟨factors, hins, rfl⟩⟩
    · rename_i factor hfind
      split at h
      · rename_i hpending
        cases h
        exact .inr ⟨session, user, rfl, hlive, .inr ⟨factor, hfind, hpending, rfl⟩⟩
      · cases h; exact .inl ⟨rfl, rfl⟩

/-- The factor is enabled and the recovery codes are replaced, or neither. -/
theorem enableFactor_cases {p : ConfirmTotpEnrollment} {user : Uuid} (h : db.enableFactor p user = .ok db') :
    (¬ ∃ factor, db.totpFactors.find? user = some factor ∧ factor.secretCiphertext = p.secretCiphertext ∧
        factor.enabledAtMs = none) ∧ db' = db ∨
      ∃ factor codes, db.totpFactors.find? user = some factor ∧ factor.secretCiphertext = p.secretCiphertext ∧
        factor.enabledAtMs = none ∧
          (db.recoveryCodes.delete fun c => decide (c.userId = user)).insertAllOr SqlError.uniqueViolation
            (p.recoveryHashes.map fun h => ⟨user, h, none⟩) = .ok codes ∧
            db' = { db with
              totpFactors := db.totpFactors.set
                { factor with enabledAtMs := some p.nowMs, lastConsumedStep := some p.step }
              recoveryCodes := codes } := by
  unfold Db.enableFactor at h
  split at h
  · rename_i hnone
    cases h
    refine .inl ⟨?_, rfl⟩
    rintro ⟨factor, hfind, hcipher, hpending⟩
    simp [hfind, Option.filter, hcipher, hpending] at hnone
  · rename_i factor hfind
    obtain ⟨codes, hcodes, h⟩ := bind_eq_ok.1 h
    cases h
    obtain ⟨hfind, hpending⟩ := Option.filter_eq_some_iff.1 hfind
    obtain ⟨hcipher, hpending⟩ := of_decide_eq_true hpending
    exact .inr ⟨factor, codes, hfind, hcipher, hpending, hcodes, rfl⟩

/-- The outcomes of `confirm_totp_enrollment.sql`: a live session is elevated in any case. -/
theorem confirmTotpEnrollment_cases {p r} (h : confirmTotpEnrollment p db = .ok (r, db')) :
    r = none ∧ db.liveSession p.sessionId p.nowMs = none ∧ db' = db ∨
      ∃ session user db₁, r = some () ∧ db.liveSession p.sessionId p.nowMs = some (session, user) ∧
        db.enableFactor p user.userId = .ok db₁ ∧ db' = db₁.elevateSession p.sessionId := by
  unfold confirmTotpEnrollment at h
  split at h
  · cases h; exact .inl ⟨rfl, ‹_›, rfl⟩
  · rename_i session user hlive
    obtain ⟨db₁, h₁, h⟩ := bind_eq_ok.1 h
    cases h
    exact .inr ⟨session, user, db₁, rfl, hlive, h₁, rfl⟩

/-- The outcomes of `verify_totp_step_up.sql`: the step is after the last one. -/
theorem verifyTotpStepUp_cases {p r} (h : verifyTotpStepUp p db = .ok (r, db')) : r = none ∧ db' = db ∨
      ∃ session user factor, r = some () ∧ db.liveSession p.sessionId p.nowMs = some (session, user) ∧
        db.totpFactors.find? user.userId = some factor ∧ factor.enabledAtMs.isSome ∧
          factor.secretCiphertext = p.secretCiphertext ∧ (∀ last ∈ factor.lastConsumedStep, last < p.step) ∧
            db' = Db.elevateSession p.sessionId
              { db with totpFactors := db.totpFactors.set { factor with lastConsumedStep := some p.step } } := by
  unfold verifyTotpStepUp at h
  split at h
  · cases h; exact .inl ⟨rfl, rfl⟩
  · rename_i session user hlive
    split at h
    · cases h; exact .inl ⟨rfl, rfl⟩
    · rename_i factor hfind
      cases h
      obtain ⟨hfind, hok⟩ := Option.filter_eq_some_iff.1 hfind
      simp only [Bool.and_eq_true, decide_eq_true_eq, Option.all_eq_true] at hok
      obtain ⟨⟨henabled, hcipher⟩, hlast⟩ := hok
      exact .inr ⟨session, user, factor, rfl, hlive, hfind, henabled, hcipher, hlast, rfl⟩

/-- The outcomes of `use_recovery_code.sql`. -/
theorem useRecoveryCode_cases {p r} (h : useRecoveryCode p db = .ok (r, db')) : r = none ∧ db' = db ∨
      ∃ session user code, r = some () ∧ db.liveSession p.sessionId p.nowMs = some (session, user) ∧
        db.recoveryCodes.find? (user.userId, p.codeHash) = some code ∧ code.usedAtMs = none ∧
          db' = Db.elevateSession p.sessionId
            { db with recoveryCodes := db.recoveryCodes.set { code with usedAtMs := some p.nowMs } } := by
  unfold useRecoveryCode at h
  split at h
  · cases h; exact .inl ⟨rfl, rfl⟩
  · rename_i session user hlive
    split at h
    · cases h; exact .inl ⟨rfl, rfl⟩
    · rename_i code hfind
      cases h
      obtain ⟨hfind, hunused⟩ := Option.filter_eq_some_iff.1 hfind
      exact .inr ⟨session, user, code, rfl, hlive, hfind, by simpa using hunused, rfl⟩

/-- The outcomes of `complete_passkey_registration.sql`. -/
theorem completePasskeyRegistration_cases {p r} (h : completePasskeyRegistration p db = .ok (r, db')) :
    r ≠ some .registered ∧ (db' = db ∨ ∃ flow ∈ db.flows, db' = db.consumeFlow flow p.nowMs) ∨
      ∃ session user flow passkeys, flow ∈ db.flows ∧ r = some .registered ∧
        db.liveSession p.sessionId p.nowMs = some (session, user) ∧
          db.passkeys.insertOr SqlError.uniqueViolation
            ⟨p.credentialId, user.userId, p.publicKeyCose, p.signCount, p.transports, p.displayName, none⟩ =
              .ok passkeys ∧
            db' = Db.elevateSession p.sessionId { db.consumeFlow flow p.nowMs with passkeys := passkeys } := by
  unfold completePasskeyRegistration at h
  split at h
  · cases h; exact .inl ⟨by simp, .inl rfl⟩
  · rename_i session user hlive
    split at h
    · cases h; exact .inl ⟨by simp, .inl rfl⟩
    · rename_i flow hflow
      have hmem : flow ∈ db.flows :=
        (Table.find?_eq_some.1 (flowCandidate_eq_some.1 (Option.filter_eq_some_iff.1 hflow).1).1).1
      dsimp only at h
      split at h
      · cases h; exact .inl ⟨by simp, .inr ⟨flow, hmem, rfl⟩⟩
      · obtain ⟨passkeys, hins, h⟩ := bind_eq_ok.1 h
        cases h
        exact .inr ⟨session, user, flow, passkeys, hmem, rfl, hlive, hins, rfl⟩

/-- The outcomes of an assertion: none, a session, or a credential that was used without one. -/
theorem completePasskeyAuthentication_cases {p r} (h : completePasskeyAuthentication p db = .ok (r, db')) :
    r = none ∧ db' = db ∨
      ∃ flow, db.flowCandidate p.flowId p.verifierHash .webauthnAuthentication p.nowMs = some flow ∧
        flow.userId = some p.userId ∧ (r = some .counterConflict ∧ db' = db.consumeFlow flow p.nowMs ∨
          ∃ passkey, db.passkeys.find? p.credentialId = some passkey ∧ passkey.userId = p.userId ∧
            let used := { db.consumeFlow flow p.nowMs with
              passkeys := db.passkeys.set { passkey with
                publicKeyCose := p.publicKeyCose, signCount := p.signCount, transports := p.transports
                lastUsedAtMs := some p.nowMs } }
            r = none ∧ db' = used ∧ (¬ ∃ user, db.users.find? p.userId = some user ∧ user.status = .active) ∨
              ∃ user, db.users.find? p.userId = some user ∧ user.status = .active ∧
                r = some (.authenticated p.sessionId user.userId user.primaryEmail p.expiresAtMs) ∧
                  used.insertSession (Db.newSession p.sessionId user.userId .aal2 user.securityRevision p.expiresAtMs
                    p.nowMs) = .ok db') := by
  unfold completePasskeyAuthentication at h
  split at h
  · cases h; exact .inl ⟨rfl, rfl⟩
  · rename_i flow hflow
    obtain ⟨hflow, hbound⟩ := Option.filter_eq_some_iff.1 hflow
    refine .inr ⟨flow, hflow, of_decide_eq_true hbound, ?_⟩
    dsimp only at h
    split at h
    · cases h; exact .inl ⟨rfl, rfl⟩
    · rename_i passkey hfind
      obtain ⟨hfind, hk⟩ := Option.filter_eq_some_iff.1 hfind
      refine .inr ⟨passkey, hfind, (of_decide_eq_true hk).1, ?_⟩
      split at h
      · rename_i hnone
        cases h
        refine .inl ⟨rfl, rfl, ?_⟩
        rintro ⟨user, huser, hactive⟩
        have huser' : (db.consumeFlow flow p.nowMs).users.find? p.userId = some user := huser
        simp [huser', Option.filter, hactive] at hnone
      · rename_i user huser
        obtain ⟨db₁, h₁, h⟩ := bind_eq_ok.1 h
        cases h
        obtain ⟨huser, hactive⟩ := Option.filter_eq_some_iff.1 huser
        exact .inr ⟨user, huser, of_decide_eq_true hactive, rfl, h₁⟩

/-- The outcomes of `issue_token_pair.sql`. -/
theorem issueTokenPair_cases {p r} (h : issueTokenPair p db = .ok (r, db')) : r = none ∧ db' = db ∨
      ∃ session user tokens, r = some () ∧ db.liveSession p.sessionId p.nowMs = some (session, user) ∧
        db.refreshTokens.insertOr SqlError.uniqueViolation
          (freshRefreshToken p.tokenHash session.sessionId p.familyId p.expiresAtMs) = .ok tokens ∧
          db' = { db with refreshTokens := tokens } := by
  unfold issueTokenPair at h
  split at h
  · cases h; exact .inl ⟨rfl, rfl⟩
  · rename_i session user hlive
    split at h
    · cases h; exact .inl ⟨rfl, rfl⟩
    · obtain ⟨tokens, hins, h⟩ := bind_eq_ok.1 h
      cases h
      exact .inr ⟨session, user, tokens, rfl, hlive, hins, rfl⟩

/-- The token a rotation is about, with the session and the user it belongs to. -/
structure RotationCandidate (p : RotateRefreshToken) (db : Db) (token : RefreshToken) (session : Session)
    (user : User) : Prop where
  findToken : db.refreshTokens.find? p.tokenHash = some token
  findSession : db.sessions.find? token.sessionId = some session
  findUser : db.users.find? session.userId = some user
  unrevoked : token.revokedAtMs = none

def RotateRefreshToken.accepts (p : RotateRefreshToken) (session : Session) (user : User) : Prop :=
  session.revokedAtMs = none ∧ p.nowMs < session.expiresAtMs ∧
    user.securityRevision = session.userSecurityRevision ∧ user.status = .active

def RotateRefreshToken.rotatedRow (p : RotateRefreshToken) (token : RefreshToken) : RefreshToken :=
  { token with
    rotatedAtMs := some p.nowMs, successorHash := some p.successorHash
    successorKeyVersion := some p.successorKeyVersion
    successorCiphertext := some p.successorCiphertext, replayUntilMs := some p.replayUntilMs }

def RotateRefreshToken.extended (p : RotateRefreshToken) (s : Session) : Session :=
  { s with expiresAtMs := max s.expiresAtMs p.sessionExpiresAtMs, sessionRevision := s.sessionRevision + 1 }

/-- All that `rotate_refresh_token.sql` can do. -/
inductive Rotation (p : RotateRefreshToken) (db : Db) : RotationOutcome → Db → Prop
  | invalid : Rotation p db .invalid db
  | rotated {token : RefreshToken} {session : Session} {user : User} {tokens : Table RefreshToken.tokenHash}
      {hf : ∀ s, (p.extended s).sessionId = s.sessionId}
      (hc : RotationCandidate p db token session user) (hlive : p.accepts session user)
      (hunrotated : token.rotatedAtMs = none)
      (hins : (db.refreshTokens.set (p.rotatedRow token)).insertOr SqlError.uniqueViolation
        (freshRefreshToken p.successorHash token.sessionId token.familyId p.expiresAtMs) = .ok tokens) :
      Rotation p db (.rotated p.successorKeyVersion p.successorCiphertext)
        (Db.updateSessions (fun s => decide (s.sessionId = token.sessionId ∧ s.revokedAtMs = none)) p.extended
          { db with refreshTokens := tokens } hf)
  | replayed {token : RefreshToken} {session : Session} {user : User} {keyVersion : String} {ciphertext : Bytes}
      (hc : RotationCandidate p db token session user) (hlive : p.accepts session user)
      (hrotated : token.rotatedAtMs.isSome) (hkey : token.successorKeyVersion = some keyVersion)
      (hcipher : token.successorCiphertext = some ciphertext) :
      Rotation p db (.replayed keyVersion ciphertext) db
  | reuse {token : RefreshToken} {session : Session} {user : User}
      (hc : RotationCandidate p db token session user) (hrotated : token.rotatedAtMs.isSome) :
      Rotation p db (if session.revokedAtMs.isNone then .reuseDetected else .invalid)
        (rotateRefreshToken.revokeFamily p token session db).2

theorem Writes.revokeFamily {p : RotateRefreshToken} {token : RefreshToken} {session : Session} :
    Writes db (rotateRefreshToken.revokeFamily p token session db).2 :=
  .after .continueSessions (.single .revokeRefreshTokens)

theorem rotateRefreshToken_cases {p r} (h : rotateRefreshToken p db = .ok (r, db')) : Rotation p db r db' := by
  unfold rotateRefreshToken at h
  split at h
  · cases h; exact .invalid
  · rename_i token session user hcandidate
    split at h
    · cases h; exact .invalid
    · dsimp only at h
      split at h
      · cases h; exact .invalid
      · rename_i hunrevoked
        have hc : RotationCandidate p db token session user := by
          simp only [Option.bind_eq_some_iff, Option.map_eq_some_iff] at hcandidate
          obtain ⟨t, ht, s, hs, u, hu, he⟩ := hcandidate
          cases he
          exact ⟨ht, hs, hu, by simpa using hunrevoked⟩
        split at h
        · rename_i hunrotated
          split at h
          · rename_i hlive
            obtain ⟨tokens, hins, h⟩ := bind_eq_ok.1 h
            cases h
            simp only [Bool.and_eq_true, decide_eq_true_eq, Option.isNone_iff_eq_none] at hlive
            exact .rotated hc ⟨hlive.2.1.1.1, hlive.2.1.1.2, hlive.2.1.2, hlive.2.2⟩ (by simpa using hunrotated) hins
          · cases h; exact .invalid
        · rename_i hrotated
          have hrotated : token.rotatedAtMs.isSome := by simpa [Option.isSome_iff_ne_none] using hrotated
          split at h
          · rename_i keyVersion ciphertext hkey hcipher
            split at h
            · rename_i hlive
              cases h
              simp only [Bool.and_eq_true, decide_eq_true_eq, Option.isNone_iff_eq_none] at hlive
              exact .replayed hc ⟨hlive.2.1.1.1, hlive.2.1.1.2, hlive.2.1.2, hlive.2.2⟩ hrotated hkey hcipher
            · cases h; exact .reuse hc hrotated
          · cases h; exact .reuse hc hrotated

end Credentials

/-! ## Every statement with shared writes only -/

def Command.sharesWrites : Command → Bool
  | .registerPassword _ | .resendEmailVerification _ | .verifyEmail _ | .issuePasswordSession _
  | .startPasswordReset _ | .completePasswordReset _ | .changePassword _ | .revokeSession _ | .createAuthFlow _
  | .completeOauthIdentity _ | .rotateSigningKey _ | .syncSigningKeys _ | .publishPolicyBundle _
  | .selectOrganization _ | .updateOrganization _ | .archiveOrganization _ | .createInvitation _
  | .resendInvitation _ | .revokeInvitation _ | .upsertRole _ => true
  | _ => false

/-- What a statement with shared writes only does is a sequence of them. -/
theorem writes_of_execute {db db' : Db} {c : Command} (hc : c.sharesWrites = true) (h : c.execute db = .ok db') :
    Writes db db' := by
  cases c <;> simp only [Command.execute, written_eq_ok] at h <;> obtain ⟨r, h⟩ := h
  case registerPassword =>
    rcases registerPassword_cases h with rfl | hreg
    · exact .refl _
    · have hmail := (Writes.single (.insertUser hreg.users)).mailed hreg.oneTimeTokens hreg.mailed
      rw [hreg.others]
      exact hmail.tail (.others rfl rfl)
  case resendEmailVerification =>
    obtain ⟨buckets, rfl | ⟨_, _, _, _, htoken, hmail, rfl⟩⟩ := resendEmailVerification_cases h
    · exact .single (.others rfl rfl)
    · exact (Writes.mailed (.single .consumeTokens) htoken hmail).tail (.others rfl rfl)
  case verifyEmail => exact writes_verifyEmail h
  case issuePasswordSession =>
    rcases issuePasswordSession_cases h with ⟨-, rfl⟩ | ⟨_, _, _, -, -, -, -, -, -, hins, -, rfl⟩
    · exact .refl _
    · exact .after (.insertSession hins) (.single .setPassword)
  case startPasswordReset =>
    rcases startPasswordReset_cases h with rfl | ⟨_, _, _, htoken, hmail, rfl⟩
    · exact .refl _
    · exact .mailed (.refl _) htoken hmail
  case completePasswordReset => exact writes_completePasswordReset h
  case changePassword => exact writes_changePassword h
  case revokeSession =>
    unfold revokeSession at h
    split at h
    · cases h; exact .refl _
    · split at h
      · cases h; exact .refl _
      · cases h; exact .after .revokeRefreshTokens (.single .continueSessions)
  case createAuthFlow =>
    obtain ⟨_, -, rfl⟩ := createAuthFlow_eq_ok h
    exact .single (.others rfl rfl)
  case completeOauthIdentity => exact writes_completeOauthIdentity h
  case rotateSigningKey =>
    obtain ⟨_, rfl⟩ := rotateSigningKey_others h
    exact .single (.others rfl rfl)
  case syncSigningKeys =>
    obtain ⟨_, rfl⟩ := syncSigningKeys_others h
    exact .single (.others rfl rfl)
  case publishPolicyBundle =>
    obtain ⟨_, rfl⟩ := publishPolicyBundle_others h
    exact .single (.others rfl rfl)
  case selectOrganization =>
    rcases selectOrganization_cases h with ⟨-, rfl⟩ | ⟨_, _, _, _, -, -, rfl⟩
    · exact .refl _
    · exact .single .selectOrganizationIn
  case updateOrganization =>
    rcases updateOrganization_cases h with ⟨-, rfl⟩ | ⟨_, _, _, _, -, horg, rfl⟩
    · exact .refl _
    · exact .single (.setOrganization (activeOrganization_eq_some horg).1 ⟨rfl, le_rfl, id⟩)
  case archiveOrganization =>
    rcases archiveOrganization_cases h with ⟨-, rfl⟩ | ⟨_, _, _, _, -, horg, rfl⟩
    · exact .refl _
    · refine .after .continueSessions (.after .revokePendingInvitations (.after .consumeInvitationTokens (.single ?_)))
      exact .setOrganization (activeOrganization_eq_some horg).1 ⟨rfl, Nat.le_succ _, by simp [Organization.archivedRow]⟩
  case createInvitation =>
    rcases createInvitation_cases h with ⟨-, rfl⟩ | ⟨_, _, _, _, _, _, -, -, -, -, htoken, hmail, -, rfl⟩
    · exact .refl _
    · exact (Writes.mailed (.refl _) htoken hmail).tail (.others rfl rfl)
  case resendInvitation =>
    rcases resendInvitation_cases h with ⟨-, rfl⟩ | ⟨_, _, _, _, _, _, -, -, -, htoken, hmail, -, rfl⟩
    · exact .refl _
    · exact (Writes.mailed (.single .consumeTokens) htoken hmail).tail (.others rfl rfl)
  case revokeInvitation =>
    rcases revokeInvitation_cases h with ⟨-, rfl⟩ | ⟨_, _, _, _, -, -, -, rfl⟩
    · exact .refl _
    · exact .after .setInvitation (.single .consumeTokens)
  case upsertRole => exact writes_upsertRole h
  all_goals cases hc

/-- The commands with writes of their own to the account tables. -/
def Command.ownsCredentials : Command → Bool
  | .startTotpEnrollment _ | .confirmTotpEnrollment _ | .verifyTotpStepUp _ | .useRecoveryCode _
  | .completePasskeyRegistration _ | .completePasskeyAuthentication _ | .issueTokenPair _
  | .rotateRefreshToken _ => true
  | _ => false

end WasiAuth
