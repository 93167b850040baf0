import WasiAuth.Identity.Values
import WasiAuth.Postgres.Revocation

/-! # Password reset and email verification

Both consume a one-time token and report `InvalidToken` when the statement returns no row. The statements are
chains of writing `CTE`s, and a chain that ends early has written its first links: a token whose account
cannot be reset or verified is consumed, and a reset also assigns the password of an account that is not
active. `invalidToken_changes_nothing_iff` says exactly when the error comes without a write.

A reset consumes the token it was given and no other, and a password change consumes none, so an earlier
reset token stays good (`reset_token_survives`) unless it was the only one (`reset_tokens_are_spent`).
-/

namespace WasiAuth

open Relational Transition

/-! ## The services -/

/-- workflows.rs:1464-1467 -/
def validRedirect (redirectUri : String) : Bool :=
  decide (redirectUri ≠ "") && decide (redirectUri.toList.head? = some '/') &&
    !"//".toList.isPrefixOf redirectUri.toList && !redirectUri.toList.any isControl

/-- workflows.rs:1461-1463 -/
def validOneTimeToken (token : String) : Bool :=
  decide (32 ≤ (trim token).utf8ByteSize) && decide (token.utf8ByteSize ≤ 512) && !token.toList.any isControl

/-- workflows.rs:474 -/
structure PasswordResetCompleteRequest where
  token : String
  newPassword : String
  redirectUri : String

/-- workflows.rs:396 -/
structure EmailVerificationRequest where
  token : String
  redirectUri : String

/-- `PasswordResetError` and `EmailVerificationError` (workflows.rs:1705, 1742). -/
inductive TokenWorkflowError
  | invalidRequest | invalidToken | randomnessUnavailable | crypto | transport | row | context
deriving DecidableEq

/-- `validate_reset_complete`. -/
def validateResetComplete (request : PasswordResetCompleteRequest) : Bool :=
  validOneTimeToken request.token && decide (15 ≤ request.newPassword.length) &&
    decide (request.newPassword.length ≤ 128) && validRedirect request.redirectUri

/-- `validate_verification_request`. -/
def validateVerificationRequest (request : EmailVerificationRequest) : Bool :=
  validOneTimeToken request.token && validRedirect request.redirectUri

/-- `PasswordResetReceipt` and `EmailVerificationReceipt`. -/
structure SessionReceipt where
  sessionId : SessionId
  userId : UserId
  expiresAtMs : Nat
  redirectUri : String
deriving DecidableEq

def SessionCreated.receipt (created : SessionCreated) (redirectUri : String) :
    Except TokenWorkflowError SessionReceipt := do
  let sessionId ← (Identifier.new created.sessionId.text).mapError fun _ => .context
  let userId ← (Identifier.new created.userId.text).mapError fun _ => .context
  if created.expiresAtMs < 0 then .error .row
  else .ok ⟨sessionId, userId, created.expiresAtMs.toNat, redirectUri⟩

/-- A service call: a statement with its parameters, whose first row becomes the receipt. An error of the
statement is an error of the transport, and the statement is then rolled back. -/
def redeem {α : Type} (prepared : Except TokenWorkflowError α)
    (statement : α → Db → Except SqlError (Option SessionCreated × Db)) (redirectUri : String) (db : Db) :
    Except TokenWorkflowError SessionReceipt × Db :=
  match prepared with
  | .error e => (.error e, db)
  | .ok p =>
    match statement p db with
    | .error _ => (.error .transport, db)
    | .ok (none, db') => (.error .invalidToken, db')
    | .ok (some created, db') => (created.receipt redirectUri, db')

/-- SHA-256 of a text, and the password hash, which can fail. -/
structure PasswordResetService where
  sha256 : String → Bytes
  hashPassword : (password : String) → (salt : Bytes) → Option String
  sessionTtlMs : Nat

/-- workflows.rs:1037 -/
structure EmailVerificationService where
  sha256 : String → Bytes
  bootstrapSystemAdministratorEmails : List String
  sessionTtlMs : Nat

/-- What `complete` draws from the random source. -/
structure ResetDraws where
  salt : Option Bytes
  sessionId : Option (BitVec 80)
  auditId : Option (BitVec 80)

namespace PasswordResetService

variable (service : PasswordResetService) (request : PasswordResetCompleteRequest) (nowUnixSeconds : Nat)
  (draws : ResetDraws)

def prepare : Except TokenWorkflowError CompletePasswordReset :=
  if !validateResetComplete request then .error .invalidRequest
  else
    match draws.salt with
    | none => .error .randomnessUnavailable
    | some salt =>
      match service.hashPassword request.newPassword salt with
      | none => .error .crypto
      | some passwordHash =>
        match draws.sessionId, draws.auditId with
        | some sessionId, some _ => .ok
            { tokenHash := service.sha256 (trim request.token), nowMs := unixMs nowUnixSeconds
              passwordHash := passwordHash, sessionId := uuidV7 (saturatingMs nowUnixSeconds) sessionId
              expiresAtMs := expiryMs nowUnixSeconds service.sessionTtlMs }
        | _, _ => .error .randomnessUnavailable

/-- workflows.rs:1345 -/
def complete (db : Db) : Except TokenWorkflowError SessionReceipt × Db :=
  redeem (service.prepare request nowUnixSeconds draws) completePasswordReset request.redirectUri db

end PasswordResetService

/-- What `verify` draws from the random source. -/
structure VerificationDraws where
  sessionId : Option (BitVec 80)
  auditId : Option (BitVec 80)

namespace EmailVerificationService

variable (service : EmailVerificationService) (request : EmailVerificationRequest) (nowUnixSeconds : Nat)
  (draws : VerificationDraws)

def prepare : Except TokenWorkflowError VerifyEmail :=
  if !validateVerificationRequest request then .error .invalidRequest
  else
    match draws.sessionId, draws.auditId with
    | some sessionId, some _ => .ok
        { tokenHash := service.sha256 (trim request.token), nowMs := unixMs nowUnixSeconds
          sessionId := uuidV7 (saturatingMs nowUnixSeconds) sessionId
          expiresAtMs := expiryMs nowUnixSeconds service.sessionTtlMs
          bootstrapEmails := service.bootstrapSystemAdministratorEmails }
    | _, _ => .error .randomnessUnavailable

/-- workflows.rs:1132 -/
def verify (db : Db) : Except TokenWorkflowError SessionReceipt × Db :=
  redeem (service.prepare request nowUnixSeconds draws) verifyEmail request.redirectUri db

end EmailVerificationService

/-! ## What an invalid-token error leaves -/

/-- Users, passwords, sessions, refresh tokens and one-time tokens are the same. -/
structure SameCredentials (db db' : Db) : Prop where
  users : db'.users = db.users
  passwords : db'.passwords = db.passwords
  sessions : db'.sessions = db.sessions
  refreshTokens : db'.refreshTokens = db.refreshTokens
  oneTimeTokens : db'.oneTimeTokens = db.oneTimeTokens

/-- The account of the token can be reset. -/
def Db.resettable (db : Db) (token : OneTimeToken) : Bool :=
  (token.userId.bind fun id => db.passwords.find? id).any fun password =>
    (db.users.find? password.userId).any fun user => decide (user.status = .active)

/-- The account of the token can be verified. -/
def Db.verifiable (db : Db) (token : OneTimeToken) : Bool :=
  (token.userId.bind fun id => db.users.find? id).any fun user =>
    decide (user.status = .pendingVerification ∨ user.status = .active)

section InvalidToken

variable {db : Db}

/-- A statement that takes a one-time token: without one it does nothing, and it returns no row exactly when
there is none or the account does not qualify, in which case the token is consumed all the same. -/
structure Redeems {α : Type} (statement : α → Db → Except SqlError (Option SessionCreated × Db))
    (candidate : α → Db → Option OneTimeToken) (qualifies : Db → OneTimeToken → Bool) : Prop where
  absent : ∀ {p db}, candidate p db = none → statement p db = .ok (none, db)
  refused : ∀ {p db token}, candidate p db = some token → qualifies db token = false →
    ∃ db', statement p db = .ok (none, db') ∧ db'.oneTimeTokens ≠ db.oneTimeTokens
  accepted : ∀ {p db token}, candidate p db = some token → qualifies db token = true →
    ∀ db', statement p db ≠ .ok (none, db')

theorem receipt_ne_invalidToken {created : SessionCreated} {redirectUri : String} :
    created.receipt redirectUri ≠ .error .invalidToken := by
  unfold SessionCreated.receipt
  cases Identifier.new created.sessionId.text with
  | error e => simp [Except.mapError, bind, Except.bind]
  | ok sessionId =>
    cases Identifier.new created.userId.text with
    | error e => simp [Except.mapError, bind, Except.bind]
    | ok userId =>
      simp only [Except.mapError, ok_bind]
      split <;> simp

theorem Redeems.invalidToken_iff {α : Type} {statement : α → Db → Except SqlError (Option SessionCreated × Db)}
    {candidate : α → Db → Option OneTimeToken} {qualifies : Db → OneTimeToken → Bool}
    (h : Redeems statement candidate qualifies) (prepared : Except TokenWorkflowError α) (redirectUri : String)
    (db : Db) :
    ((redeem prepared statement redirectUri db).1 = .error .invalidToken →
        SameCredentials db (redeem prepared statement redirectUri db).2) ↔
      ∀ p token, prepared = .ok p → candidate p db = some token → qualifies db token = true := by
  cases prepared with
  | error e => exact ⟨fun _ p token hp => (by cases hp), fun _ _ => ⟨rfl, rfl, rfl, rfl, rfl⟩⟩
  | ok p =>
    constructor
    · rintro hsame p' token ⟨⟩ htoken
      by_contra hq
      obtain ⟨db', hstatement, hconsumed⟩ := h.refused htoken (by simpa using hq)
      simp only [redeem, hstatement, true_imp_iff] at hsame
      exact hconsumed hsame.oneTimeTokens
    · intro hqualifies hinvalid
      cases htoken : candidate p db with
      | none =>
        simp only [redeem, h.absent htoken]
        exact ⟨rfl, rfl, rfl, rfl, rfl⟩
      | some token =>
        have hne := h.accepted htoken (hqualifies p token rfl htoken)
        cases hstatement : statement p db with
        | error e => simp [redeem, hstatement] at hinvalid
        | ok r =>
          obtain ⟨created, db'⟩ := r
          cases created with
          | none => exact absurd hstatement (hne db')
          | some created =>
            simp only [redeem, hstatement] at hinvalid
            exact absurd hinvalid receipt_ne_invalidToken

theorem consumeTokens_ne {tokenHash : Bytes} {purpose : TokenPurpose} {nowMs : Int} {token : OneTimeToken}
    (nowMs' : Int) (h : db.tokenCandidate tokenHash purpose nowMs = some token) :
    (db.consumeTokens (fun t => decide (t.tokenHash = tokenHash)) nowMs').oneTimeTokens ≠ db.oneTimeTokens := by
  obtain ⟨hfind, -, -, hfresh⟩ := tokenCandidate_eq_some.1 h
  have hkey : token.tokenHash = tokenHash := (Table.find?_eq_some.1 hfind).2
  intro he
  have hfind' := congrArg (Table.find? tokenHash) he
  simp only [Db.consumeTokens, Table.find?_update, hfind, Option.map_some] at hfind'
  have hsome := congrArg OneTimeToken.consumedAtMs (Option.some.inj hfind')
  simp [hkey, hfresh] at hsome

theorem redeems_completePasswordReset : Redeems completePasswordReset
    (fun p db => db.tokenCandidate p.tokenHash .passwordReset p.nowMs) Db.resettable where
  absent htoken := by simp [completePasswordReset, htoken]
  refused {p db token} htoken hq := by
    have hconsumed := consumeTokens_ne p.nowMs htoken
    unfold completePasswordReset
    simp only [htoken]
    unfold Db.resettable at hq
    cases hpassword : token.userId.bind fun id => db.passwords.find? id with
    | none => exact ⟨_, rfl, hconsumed⟩
    | some password =>
      rw [hpassword, Option.any_some] at hq
      dsimp only
      cases huser : (db.users.find? password.userId).filter fun u => decide (u.status = .active) with
      | none => exact ⟨_, rfl, hconsumed⟩
      | some user =>
        obtain ⟨huser, hactive⟩ := Option.filter_eq_some_iff.1 huser
        simp [huser, of_decide_eq_true hactive] at hq
  accepted {p db token} htoken hq db' h := by
    unfold Db.resettable at hq
    obtain ⟨password, hpassword, hq⟩ := (Option.any_eq_true _ _).1 hq
    obtain ⟨user, huser, hactive⟩ := (Option.any_eq_true _ _).1 hq
    have hfilter : ((db.users.find? password.userId).filter fun u => decide (u.status = .active)) = some user :=
      Option.filter_eq_some_iff.2 ⟨huser, hactive⟩
    unfold completePasswordReset at h
    simp only [htoken, hpassword, hfilter] at h
    obtain ⟨db₁, -, h⟩ := bind_eq_ok.1 h
    cases h

theorem redeems_verifyEmail : Redeems verifyEmail
    (fun p db => db.tokenCandidate p.tokenHash .emailVerification p.nowMs) Db.verifiable where
  absent htoken := by simp [verifyEmail, htoken]
  refused {p db token} htoken hq := by
    have hconsumed := consumeTokens_ne p.nowMs htoken
    unfold verifyEmail
    simp only [htoken]
    unfold Db.verifiable at hq
    cases huser : (token.userId.bind fun id => db.users.find? id).filter fun u =>
        decide (u.status = .pendingVerification ∨ u.status = .active) with
    | none => exact ⟨_, rfl, hconsumed⟩
    | some user =>
      obtain ⟨huser, hstatus⟩ := Option.filter_eq_some_iff.1 huser
      rw [huser, Option.any_some, hstatus] at hq
      cases hq
  accepted {p db token} htoken hq db' h := by
    unfold Db.verifiable at hq
    obtain ⟨user, huser, hstatus⟩ := (Option.any_eq_true _ _).1 hq
    have hfilter : ((token.userId.bind fun id => db.users.find? id).filter fun u =>
        decide (u.status = .pendingVerification ∨ u.status = .active)) = some user :=
      Option.filter_eq_some_iff.2 ⟨huser, hstatus⟩
    unfold verifyEmail at h
    simp only [htoken, hfilter] at h
    obtain ⟨db₁, -, h⟩ := bind_eq_ok.1 h
    obtain ⟨db₂, -, h⟩ := bind_eq_ok.1 h
    cases h

end InvalidToken

/-- **An invalid-token error changes nothing exactly when** the request was not good enough to reach the
statement, there is no such token, or the token's account qualifies (and the error then does not occur). -/
theorem invalidToken_changes_nothing_iff (resets : PasswordResetService) (reset : PasswordResetCompleteRequest)
    (resetDraws : ResetDraws) (verifications : EmailVerificationService) (verification : EmailVerificationRequest)
    (verificationDraws : VerificationDraws) (now : Nat) (db : Db) :
    (((resets.complete reset now resetDraws db).1 = .error .invalidToken →
        SameCredentials db (resets.complete reset now resetDraws db).2) ↔
      ∀ p token, resets.prepare reset now resetDraws = .ok p →
        db.tokenCandidate p.tokenHash .passwordReset p.nowMs = some token → db.resettable token = true) ∧
    (((verifications.verify verification now verificationDraws db).1 = .error .invalidToken →
        SameCredentials db (verifications.verify verification now verificationDraws db).2) ↔
      ∀ p token, verifications.prepare verification now verificationDraws = .ok p →
        db.tokenCandidate p.tokenHash .emailVerification p.nowMs = some token → db.verifiable token = true) :=
  ⟨redeems_completePasswordReset.invalidToken_iff _ _ db, redeems_verifyEmail.invalidToken_iff _ _ db⟩

def registerGuest : Command :=
  .registerPassword { signUp "guest" "b@example.com" ⟨10⟩ ⟨110⟩ [10] with passwordHash := "guest" }

def verifyGuest : Command :=
  .verifyEmail { tokenHash := [10], nowMs := 0, sessionId := ⟨11⟩, expiresAtMs := 1000000, bootstrapEmails := [] }

def startGuestReset (tokenHash : Bytes) (outboxId : Uuid) : Command :=
  .startPasswordReset
    { normalizedEmail := "b@example.com", tokenHash := tokenHash, tokenExpiresAtMs := 1000000
      outboxId := outboxId, keyVersion := "v1", payloadCiphertext := [], nowMs := 0 }

def disableGuest : Command :=
  .setUserDisabled
    { sessionId := ⟨2⟩, userId := ⟨10⟩, disabled := true, nowMs := 0, uuids := uuidsFrom 500 }

def sampleToken : String := "0123456789abcdef0123456789abcdef"

def sampleResets (tokenHash : Bytes) : PasswordResetService := ⟨fun _ => tokenHash, fun _ _ => some "new", 1000⟩

def sampleVerifications (tokenHash : Bytes) : EmailVerificationService := ⟨fun _ => tokenHash, [], 1000⟩

def sampleReset : PasswordResetCompleteRequest := ⟨sampleToken, "a long enough password", "/"⟩

def sampleVerification : EmailVerificationRequest := ⟨sampleToken, "/"⟩

/-- The token of a disabled account is consumed by a call that reports it invalid: a reset has then assigned
the new password as well. -/
theorem invalidToken_after_writes :
    (∃ db, Reachable postgres db ∧ ∃ db', (sampleResets [12]).complete sampleReset 1 ⟨some [], some 1, some 2⟩ db =
      (.error .invalidToken, db') ∧ (db.passwords.find? ⟨10⟩).map Password.passwordHash = some "guest" ∧
        (db'.passwords.find? ⟨10⟩).map Password.passwordHash = some "new" ∧
          db'.oneTimeTokens.rows ≠ db.oneTimeTokens.rows) ∧
    (∃ db, Reachable postgres db ∧ ∃ db', (sampleVerifications [10]).verify sampleVerification 1 ⟨some 1, some 2⟩ db =
      (.error .invalidToken, db') ∧ db'.oneTimeTokens.rows ≠ db.oneTimeTokens.rows) := by
  constructor
  · obtain ⟨db, hreach, hp⟩ := exists_reachable_of_run postgres
      (foundAcme ++ [registerGuest, verifyGuest, startGuestReset [12] ⟨112⟩, disableGuest])
      (fun db : Db =>
        let result := (sampleResets [12]).complete sampleReset 1 ⟨some [], some 1, some 2⟩ db
        decide (result.1 = .error .invalidToken ∧
          (db.passwords.find? ⟨10⟩).map Password.passwordHash = some "guest" ∧
            (result.2.passwords.find? ⟨10⟩).map Password.passwordHash = some "new" ∧
              result.2.oneTimeTokens.rows ≠ db.oneTimeTokens.rows)) (by decide +kernel)
    obtain ⟨hinvalid, hrest⟩ := of_decide_eq_true hp
    exact ⟨db, hreach, _, Prod.ext hinvalid rfl, hrest⟩
  · obtain ⟨db, hreach, hp⟩ := exists_reachable_of_run postgres (foundAcme ++ [registerGuest, disableGuest])
      (fun db : Db =>
        let result := (sampleVerifications [10]).verify sampleVerification 1 ⟨some 1, some 2⟩ db
        decide (result.1 = .error .invalidToken ∧ result.2.oneTimeTokens.rows ≠ db.oneTimeTokens.rows))
      (by decide +kernel)
    obtain ⟨hinvalid, hrest⟩ := of_decide_eq_true hp
    exact ⟨db, hreach, _, Prod.ext hinvalid rfl, hrest⟩

/-! ## Reset tokens after a password was set -/

/-- A statement that has set the password of a user: a change, or a reset with the token `presented`. -/
inductive SetsPassword (db : Db) : (user : Uuid) → (presented : Option Bytes) → (db' : Db) → Prop
  | changed {p : ChangePassword} {db' : Db} (h : changePassword p db = .ok (some (), db')) :
      SetsPassword db p.userId none db'
  | reset {p : CompletePasswordReset} {created : SessionCreated} {db' : Db}
      (h : completePasswordReset p db = .ok (some created, db')) :
      SetsPassword db created.userId (some p.tokenHash) db'

/-- Every reset token of the user, other than the one presented, has been consumed. -/
def Db.noOtherReset (db : Db) (user : Uuid) (presented : Option Bytes) : Prop :=
  ∀ token ∈ db.oneTimeTokens, token.purpose = .passwordReset → token.userId = some user →
    presented ≠ some token.tokenHash → token.consumedAtMs.isSome

section Resets

variable {db db₁ db₂ : Db} {user : Uuid} {presented : Option Bytes} {token : OneTimeToken}

theorem oneTimeTokens_of_completePasswordReset {p : CompletePasswordReset} {created : SessionCreated}
    (h : completePasswordReset p db = .ok (some created, db₁)) :
    db₁.oneTimeTokens = (db.consumeTokens (fun t => decide (t.tokenHash = p.tokenHash)) p.nowMs).oneTimeTokens := by
  rcases completePasswordReset_cases h with ⟨h, -⟩ | ⟨_, _, -, ⟨h, -⟩ | ⟨_, _, _, -, -, -, -, -, rfl⟩⟩
  · cases h
  · cases h
  · rfl

theorem consumed_of_consumeTokens {tokenHash : Bytes} (nowMs : Int)
    (ht : db.oneTimeTokens.find? tokenHash = some token) :
    ∃ token', (db.consumeTokens (fun t => decide (t.tokenHash = tokenHash)) nowMs).oneTimeTokens.find? tokenHash =
      some token' ∧ token'.consumedAtMs.isSome := by
  have hkey : token.tokenHash = tokenHash := (Table.find?_eq_some.1 ht).2
  refine ⟨_, by rw [Db.consumeTokens, Table.find?_update, ht]; rfl, ?_⟩
  cases hc : token.consumedAtMs <;> simp [hkey, hc]

/-- Setting the password leaves no unconsumed reset token of the user, if there was no other one. -/
theorem SetsPassword.consumed (h : SetsPassword db user presented db₁) (honly : db.noOtherReset user presented)
    (ht : token ∈ db.oneTimeTokens) (hpurpose : token.purpose = .passwordReset) (huser : token.userId = some user) :
    ∃ token₁, db₁.oneTimeTokens.find? token.tokenHash = some token₁ ∧ token₁.consumedAtMs.isSome := by
  have hfind := Table.find?_of_mem ht
  have hlasting : Lasting db db₁ := by
    cases h with
    | changed h => exact .of_keepsCredentials (.of_writes (writes_changePassword h))
    | reset h => exact .of_keepsCredentials (.of_writes (writes_completePasswordReset h))
  by_cases hpresented : presented = some token.tokenHash
  · cases h with
    | changed => cases hpresented
    | reset h =>
      have hhash := Option.some.inj hpresented
      rw [oneTimeTokens_of_completePasswordReset h, ← hhash]
      exact consumed_of_consumeTokens _ (hhash ▸ hfind)
  · obtain ⟨token₁, hfind₁, hlasts⟩ := hlasting.oneTimeTokens hfind
    exact ⟨token₁, hfind₁, hlasts.consumed (honly token ht hpurpose huser hpresented)⟩

/-- **Reset tokens are spent.** After a password was set while the user had no other unconsumed reset token,
no reset token issued before is accepted in any later state. -/
theorem reset_tokens_are_spent (h : SetsPassword db user presented db₁) (honly : db.noOtherReset user presented)
    (ht : token ∈ db.oneTimeTokens) (hpurpose : token.purpose = .passwordReset) (huser : token.userId = some user)
    (hrun : Steps postgres anyStep db₁ db₂) {p : CompletePasswordReset} (hp : p.tokenHash = token.tokenHash) :
    completePasswordReset p db₂ = .ok (none, db₂) := by
  obtain ⟨token₁, hfind₁, hconsumed₁⟩ := h.consumed honly ht hpurpose huser
  obtain ⟨token₂, hfind₂, hlasts⟩ := (Lasting.of_run hrun).oneTimeTokens hfind₁
  refine redeems_completePasswordReset.absent ?_
  cases hcandidate : db₂.tokenCandidate p.tokenHash .passwordReset p.nowMs with
  | none => rfl
  | some candidate =>
    obtain ⟨hfind, -, -, hfresh⟩ := tokenCandidate_eq_some.1 hcandidate
    rw [hp, hfind₂] at hfind
    cases hfind
    have hconsumed₂ := hlasts.consumed hconsumed₁
    simp [hfresh] at hconsumed₂

end Resets

def guestReset (tokenHash : Bytes) (sessionId : Uuid) : CompletePasswordReset :=
  { tokenHash := tokenHash, nowMs := 0, passwordHash := "new", sessionId := sessionId, expiresAtMs := 1000000 }

def returned {α : Type} (result : Except SqlError (Option α × Db)) : Option (α × Db) :=
  match result with
  | .ok (some a, db) => some (a, db)
  | _ => none

theorem returned_eq_some {α : Type} {result : Except SqlError (Option α × Db)} {a : α} {db : Db} :
    returned result = some (a, db) ↔ result = .ok (some a, db) := by
  unfold returned
  split
  · simp
  · rename_i hne
    simp only [reduceCtorEq, false_iff]
    exact fun he => hne a db he

/-- The guest's only reset token is of no use after it has served. -/
theorem guest_token_is_spent : ∃ db db₁ token, Reachable postgres db ∧ SetsPassword db ⟨10⟩ (some [12]) db₁ ∧
    db.noOtherReset ⟨10⟩ (some [12]) ∧ token ∈ db.oneTimeTokens ∧ token.purpose = .passwordReset ∧
      token.userId = some ⟨10⟩ ∧ token.consumedAtMs = none ∧
        completePasswordReset (guestReset [12] ⟨31⟩) db₁ = .ok (none, db₁) := by
  obtain ⟨db, hreach, hp⟩ := exists_reachable_of_run postgres
    (foundAcme ++ [registerGuest, verifyGuest, startGuestReset [12] ⟨112⟩])
    (fun db : Db =>
      ((returned (completePasswordReset (guestReset [12] ⟨30⟩) db)).any fun r : SessionCreated × Db =>
        decide (r.1.userId = ⟨10⟩)) &&
      (db.oneTimeTokens.rows.all fun t : OneTimeToken => decide (t.purpose = .passwordReset → t.userId = some ⟨10⟩ →
        some [12] ≠ some t.tokenHash → t.consumedAtMs.isSome)) &&
      (db.oneTimeTokens.rows.any fun t : OneTimeToken => decide (t.tokenHash = [12] ∧ t.purpose = .passwordReset ∧
        t.userId = some ⟨10⟩ ∧ t.consumedAtMs = none))) (by decide +kernel)
  simp only [Bool.and_eq_true] at hp
  obtain ⟨⟨hreset, hall⟩, hany⟩ := hp
  obtain ⟨⟨created, db₁⟩, hreturned, hid⟩ := (Option.any_eq_true _ _).1 hreset
  have hresult := returned_eq_some.1 hreturned
  obtain ⟨token, htoken, hfacts⟩ := List.any_eq_true.1 hany
  obtain ⟨hhash, hpurpose, huser, hfresh⟩ := of_decide_eq_true hfacts
  have hsets : SetsPassword db ⟨10⟩ (some [12]) db₁ := by
    have hsets : SetsPassword db created.userId (some [12]) db₁ := .reset hresult
    rwa [of_decide_eq_true hid] at hsets
  have honly : db.noOtherReset ⟨10⟩ (some [12]) :=
    fun t ht => of_decide_eq_true (List.all_eq_true.1 hall t ht)
  exact ⟨db, db₁, token, hreach, hsets, honly, htoken, hpurpose, huser, hfresh,
    reset_tokens_are_spent hsets honly htoken hpurpose huser (.refl _) hhash.symm⟩

def guestChange : ChangePassword :=
  { userId := ⟨10⟩, sessionId := ⟨11⟩, currentHash := "guest", nextHash := "next", nowMs := 0 }

/-- A reset token that was issued before `db₁` and is accepted in it. -/
def Db.acceptsEarlier (db db₁ : Db) : Bool :=
  (db.oneTimeTokens.rows.any fun t : OneTimeToken => decide (t.tokenHash = [13] ∧ t.userId = some ⟨10⟩)) &&
    (returned (completePasswordReset (guestReset [13] ⟨31⟩) db₁)).any fun r : SessionCreated × Db =>
      decide (r.1.userId = ⟨10⟩)

theorem accepted_of_acceptsEarlier {db db₁ : Db} (h : db.acceptsEarlier db₁ = true) :
    (∃ token ∈ db.oneTimeTokens, token.tokenHash = [13] ∧ token.userId = some ⟨10⟩) ∧
      ∃ created db₂, completePasswordReset (guestReset [13] ⟨31⟩) db₁ = .ok (some created, db₂) ∧
        created.userId = ⟨10⟩ := by
  obtain ⟨hany, haccepted⟩ := Bool.and_eq_true_iff.1 h
  obtain ⟨token, htoken, hfacts⟩ := List.any_eq_true.1 hany
  obtain ⟨⟨created, db₂⟩, hreturned, hid⟩ := (Option.any_eq_true _ _).1 haccepted
  exact ⟨⟨token, htoken, of_decide_eq_true hfacts⟩, created, db₂, returned_eq_some.1 hreturned, of_decide_eq_true hid⟩

/-- The guest asks for two reset tokens. After the first has served, and likewise after a password change,
the second is accepted. -/
theorem reset_token_survives :
    (∃ db db₁, Reachable postgres db ∧ SetsPassword db ⟨10⟩ (some [12]) db₁ ∧
      (∃ token ∈ db.oneTimeTokens, token.tokenHash = [13] ∧ token.userId = some ⟨10⟩) ∧
        ∃ created db₂, completePasswordReset (guestReset [13] ⟨31⟩) db₁ = .ok (some created, db₂) ∧
          created.userId = ⟨10⟩) ∧
    (∃ db db₁, Reachable postgres db ∧ SetsPassword db ⟨10⟩ none db₁ ∧
      (∃ token ∈ db.oneTimeTokens, token.tokenHash = [13] ∧ token.userId = some ⟨10⟩) ∧
        ∃ created db₂, completePasswordReset (guestReset [13] ⟨31⟩) db₁ = .ok (some created, db₂) ∧
          created.userId = ⟨10⟩) := by
  obtain ⟨db, hreach, hp⟩ := exists_reachable_of_run postgres
    (foundAcme ++ [registerGuest, verifyGuest, startGuestReset [12] ⟨112⟩, startGuestReset [13] ⟨113⟩])
    (fun db : Db =>
      ((returned (completePasswordReset (guestReset [12] ⟨30⟩) db)).any fun r : SessionCreated × Db =>
        decide (r.1.userId = ⟨10⟩) && db.acceptsEarlier r.2) &&
      (returned (changePassword guestChange db)).any fun r : Unit × Db => db.acceptsEarlier r.2) (by decide +kernel)
  obtain ⟨hreset, hchange⟩ := Bool.and_eq_true_iff.1 hp
  constructor
  · obtain ⟨⟨created, db₁⟩, hreturned, hearlier⟩ := (Option.any_eq_true _ _).1 hreset
    obtain ⟨hid, hearlier⟩ := Bool.and_eq_true_iff.1 hearlier
    have hsets : SetsPassword db created.userId (some [12]) db₁ := .reset (returned_eq_some.1 hreturned)
    rw [of_decide_eq_true hid] at hsets
    exact ⟨db, db₁, hreach, hsets, accepted_of_acceptsEarlier hearlier⟩
  · obtain ⟨⟨_, db₁⟩, hreturned, hearlier⟩ := (Option.any_eq_true _ _).1 hchange
    exact ⟨db, db₁, hreach, .changed (returned_eq_some.1 hreturned), accepted_of_acceptsEarlier hearlier⟩

end WasiAuth
