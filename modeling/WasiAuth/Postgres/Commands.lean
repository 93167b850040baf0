import WasiAuth.Base.Transition
import WasiAuth.Postgres.Accounts
import WasiAuth.Postgres.Factors
import WasiAuth.Postgres.Management
import WasiAuth.Postgres.Keys
import WasiAuth.Postgres.Outbox

/-! # Runs of the database

Every statement that writes one of the modelled tables is a `Command`. Each runs as one transaction: it
commits its writes or, when it raises an error, leaves the database as it was.
-/

namespace WasiAuth

/-- A statement with its parameters. -/
inductive Command
  | registerPassword (p : RegisterPassword)
  | resendEmailVerification (p : ResendEmailVerification)
  | verifyEmail (p : VerifyEmail)
  | issuePasswordSession (p : IssuePasswordSession)
  | startPasswordReset (p : StartPasswordReset)
  | completePasswordReset (p : CompletePasswordReset)
  | changePassword (p : ChangePassword)
  | revokeSession (p : RevokeSession)
  | startTotpEnrollment (p : StartTotpEnrollment)
  | confirmTotpEnrollment (p : ConfirmTotpEnrollment)
  | verifyTotpStepUp (p : VerifyTotpStepUp)
  | useRecoveryCode (p : UseRecoveryCode)
  | createAuthFlow (flow : Flow)
  | completeOauthIdentity (p : CompleteOauthIdentity)
  | completePasskeyRegistration (p : CompletePasskeyRegistration)
  | completePasskeyAuthentication (p : CompletePasskeyAuthentication)
  | issueTokenPair (p : IssueTokenPair)
  | rotateRefreshToken (p : RotateRefreshToken)
  | createOrganization (p : CreateOrganization)
  | selectOrganization (p : SelectOrganization)
  | updateOrganization (p : UpdateOrganization)
  | archiveOrganization (p : ArchiveOrganization)
  | createInvitation (p : CreateInvitation)
  | resendInvitation (p : ResendInvitation)
  | revokeInvitation (p : RevokeInvitation)
  | acceptInvitation (p : AcceptInvitation)
  | assignMembershipRole (p : AssignMembershipRole)
  | removeMembership (p : RemoveMembership)
  | leaveOrganization (p : LeaveOrganization)
  | transferOwnership (p : TransferOwnership)
  | upsertRole (p : UpsertRole)
  | deleteRole (p : DeleteRole)
  | setUserDisabled (p : SetUserDisabled)
  | rotateSigningKey (p : RotateSigningKey)
  | syncSigningKeys (p : SyncSigningKeys)
  | publishPolicyBundle (p : PublishPolicyBundle)
  | leaseOutbox (p : LeaseOutbox)
  | completeOutbox (p : CompleteOutbox)
  | retryOutbox (p : RetryOutbox)

def written {α : Type} : Except SqlError (α × Db) → Except SqlError Db
  | .ok (_, db) => .ok db
  | .error e => .error e

@[simp] theorem written_eq_ok {α : Type} {r : Except SqlError (α × Db)} {db : Db} :
    written r = .ok db ↔ ∃ a, r = .ok (a, db) := by
  rcases r with e | ⟨a, db'⟩ <;> simp [written]

/-- The database a statement commits, or its error. -/
def Command.execute : Command → Db → Except SqlError Db
  | .registerPassword p, db => written (WasiAuth.registerPassword p db)
  | .resendEmailVerification p, db => written (WasiAuth.resendEmailVerification p db)
  | .verifyEmail p, db => written (WasiAuth.verifyEmail p db)
  | .issuePasswordSession p, db => written (WasiAuth.issuePasswordSession p db)
  | .startPasswordReset p, db => written (WasiAuth.startPasswordReset p db)
  | .completePasswordReset p, db => written (WasiAuth.completePasswordReset p db)
  | .changePassword p, db => written (WasiAuth.changePassword p db)
  | .revokeSession p, db => written (WasiAuth.revokeSession p db)
  | .startTotpEnrollment p, db => written (WasiAuth.startTotpEnrollment p db)
  | .confirmTotpEnrollment p, db => written (WasiAuth.confirmTotpEnrollment p db)
  | .verifyTotpStepUp p, db => written (WasiAuth.verifyTotpStepUp p db)
  | .useRecoveryCode p, db => written (WasiAuth.useRecoveryCode p db)
  | .createAuthFlow flow, db => written (WasiAuth.createAuthFlow flow db)
  | .completeOauthIdentity p, db => written (WasiAuth.completeOauthIdentity p db)
  | .completePasskeyRegistration p, db => written (WasiAuth.completePasskeyRegistration p db)
  | .completePasskeyAuthentication p, db => written (WasiAuth.completePasskeyAuthentication p db)
  | .issueTokenPair p, db => written (WasiAuth.issueTokenPair p db)
  | .rotateRefreshToken p, db => written (WasiAuth.rotateRefreshToken p db)
  | .createOrganization p, db => written (WasiAuth.createOrganization p db)
  | .selectOrganization p, db => written (WasiAuth.selectOrganization p db)
  | .updateOrganization p, db => written (WasiAuth.updateOrganization p db)
  | .archiveOrganization p, db => written (WasiAuth.archiveOrganization p db)
  | .createInvitation p, db => written (WasiAuth.createInvitation p db)
  | .resendInvitation p, db => written (WasiAuth.resendInvitation p db)
  | .revokeInvitation p, db => written (WasiAuth.revokeInvitation p db)
  | .acceptInvitation p, db => written (WasiAuth.acceptInvitation p db)
  | .assignMembershipRole p, db => written (WasiAuth.assignMembershipRole p db)
  | .removeMembership p, db => written (WasiAuth.removeMembership p db)
  | .leaveOrganization p, db => written (WasiAuth.leaveOrganization p db)
  | .transferOwnership p, db => written (WasiAuth.transferOwnership p db)
  | .upsertRole p, db => written (WasiAuth.upsertRole p db)
  | .deleteRole p, db => written (WasiAuth.deleteRole p db)
  | .setUserDisabled p, db => written (WasiAuth.setUserDisabled p db)
  | .rotateSigningKey p, db => written (WasiAuth.rotateSigningKey p db)
  | .syncSigningKeys p, db => written (WasiAuth.syncSigningKeys p db)
  | .publishPolicyBundle p, db => written (WasiAuth.publishPolicyBundle p db)
  | .leaseOutbox p, db => written (WasiAuth.leaseOutbox p db)
  | .completeOutbox p, db => written (WasiAuth.completeOutbox p db)
  | .retryOutbox p, db => written (WasiAuth.retryOutbox p db)

/-- The database after a command: a statement that raises an error is rolled back. -/
def Db.step (db : Db) (c : Command) : Db :=
  match c.execute db with
  | .ok db' => db'
  | .error _ => db

/-- Statements run one after another; one that fails changes nothing. -/
def postgres : Transition.System Db Command where
  init := Db.empty
  next db c := some (db.step c)

theorem step_cases {db db' : Db} {c : Command} (h : postgres.next db c = some db') :
    c.execute db = .ok db' ∨ db' = db := by
  simp only [postgres, Db.step, Option.some.injEq] at h
  split at h
  · exact .inl (by rw [← h]; assumption)
  · exact .inr h.symm

theorem next_of_execute {db db' : Db} {c : Command} (h : c.execute db = .ok db') : postgres.next db c = some db' := by
  simp only [postgres, Db.step, h]

def uuidsFrom (first n : Nat) : Uuid := ⟨BitVec.ofNat 128 (first + n)⟩

def signUp (key email : String) (userId outboxId : Uuid) (tokenHash : Bytes) : RegisterPassword where
  idempotencyKey := key
  actorKey := "anonymous"
  requestHash := [0]
  userId := userId
  normalizedEmail := email
  primaryEmail := email
  passwordHash := "hash"
  tokenHash := tokenHash
  tokenExpiresAtMs := 1000000
  outboxId := outboxId
  keyVersion := "v1"
  payloadCiphertext := []
  nowMs := 0

/-- The founder of `foundAcme` invites an email into a role. -/
def inviteToAcme (email roleId : String) (invitationId outboxId : Uuid) (tokenHash : Bytes) (nowMs : Int) : Command :=
  .createInvitation
    { sessionId := ⟨2⟩, organizationId := ⟨3⟩, normalizedEmail := email, roleId := roleId
      invitationId := invitationId, tokenHash := tokenHash, expiresAtMs := 1000000, outboxId := outboxId
      keyVersion := "v1", payloadCiphertext := [], nowMs := nowMs }

/-- A bootstrap administrator registers, verifies the email, enrols a second factor and founds an
organization. -/
def foundAcme : List Command :=
  [.registerPassword (signUp "register" "a@example.com" ⟨1⟩ ⟨101⟩ [1]),
    .verifyEmail { tokenHash := [1], nowMs := 0, sessionId := ⟨2⟩, expiresAtMs := 1000000
                   bootstrapEmails := ["a@example.com"] },
    .startTotpEnrollment { sessionId := ⟨2⟩, keyVersion := "v1", secretCiphertext := [7], nowMs := 0 },
    .confirmTotpEnrollment
      { sessionId := ⟨2⟩, secretCiphertext := [7], nowMs := 0, recoveryHashes := [], step := 0 },
    .createOrganization
      { idempotencyKey := "create", requestHash := [], organizationId := ⟨3⟩, name := "Acme", slug := "acme"
        sessionId := ⟨2⟩, nowMs := 0, uuids := uuidsFrom 200 }]

/-- A second user registers, verifies the email and accepts the founder's invitation. -/
def joinAcme : List Command :=
  [.registerPassword (signUp "register-b" "b@example.com" ⟨11⟩ ⟨111⟩ [11]),
    .verifyEmail { tokenHash := [11], nowMs := 0, sessionId := ⟨12⟩, expiresAtMs := 1000000, bootstrapEmails := [] },
    inviteToAcme "b@example.com" "member" ⟨14⟩ ⟨112⟩ [12] 0,
    .acceptInvitation { sessionId := ⟨12⟩, tokenHash := [12], nowMs := 0, uuids := uuidsFrom 300 }]

end WasiAuth
