import WasiAuth.Base.Calls
import WasiAuth.Identity.Workflows
import WasiAuth.Postgres.Logins

/-! # Password logins and changes

A call of postgres/workflows.rs loads the record of the account, checks the password against the hash in it, and runs
one statement. The check takes long, and logins, resets, disables and other commands run meanwhile (`Base/Calls.lean`).
The answer to an operation may get lost after it has been carried out.

The statements ask for the hash that was checked; that the account is active is checked on the record and again in the
statement. Argon2id is a parameter: `PasswordLibrary.Exact` says what the results assume of it.
-/

namespace WasiAuth

open Relational Transition

/-! ## The service -/

/-- `hash_password` and `verify_password`, which fail with `PasswordCryptoError`. The salt stands for all that a hash
is made with beside the password. -/
structure PasswordLibrary where
  hashPassword : (password : String) → (salt : Bytes) → Option String
  verifyPassword : (password storedHash : String) → Option Bool

/-- Of the hashes that were made, and of no other text, a password is accepted by its own and by no other. -/
structure PasswordLibrary.Exact (lib : PasswordLibrary) : Prop where
  own : ∀ {password other salt storedHash}, lib.hashPassword other salt = some storedHash →
    lib.verifyPassword password storedHash = some (decide (password = other))
  made : ∀ {password storedHash}, lib.verifyPassword password storedHash = some true →
    ∃ salt, lib.hashPassword password salt = some storedHash

/-- workflows.rs:1666 -/
inductive PasswordLoginError
  | invalidRequest | invalidCredentials | randomnessUnavailable | crypto | transport | row | context
deriving DecidableEq

/-- workflows.rs:303 -/
structure PasswordLoginRequest where
  email : String
  password : String
  redirectUri : String
deriving DecidableEq

/-- workflows.rs:347 -/
structure PasswordChangeRequest where
  userId : UserId
  sessionId : SessionId
  currentPassword : String
  newPassword : String
deriving DecidableEq

/-- workflows.rs:566 -/
structure PasswordLoginRecord where
  userId : UserId
  status : UserStatus
  passwordHash : String

inductive PasswordRequest
  | login (request : PasswordLoginRequest)
  | change (request : PasswordChangeRequest)
deriving DecidableEq

structure PasswordDraws where
  salt : Option Bytes
  sessionId : Option (BitVec 80)
  auditId : Option (BitVec 80)

/-- A call, with what its clock shows when it runs its statement. -/
structure PasswordCall where
  sessionTtlMs : Nat
  request : PasswordRequest
  nowUnixSeconds : Nat
  draws : PasswordDraws

/-- Verified for an account that is not there, so that it takes as long. -/
def dummyPasswordHash : String :=
  "argon2id$m=19456,t=2,p=1$AAAAAAAAAAAAAAAAAAAAAA$AAAAAAAAAAAAAAAAAAAAAAAAAAAAAAAAAAAAAAAAAAA"

def PasswordLoginRequest.normalizedEmail (request : PasswordLoginRequest) : String :=
  String.ofList ((trim request.email).toList.map Char.toLower)

/-- `validate_login_request`. -/
def validateLoginRequest (request : PasswordLoginRequest) : Bool :=
  decide ((trim request.email).utf8ByteSize ≤ 320) && (trim request.email).toList.any (· == '@') &&
    decide (request.password ≠ "") && decide (request.password.length ≤ 128) && validRedirect request.redirectUri

/-- The checks at the head of `change_password`. -/
def validateChangeRequest (request : PasswordChangeRequest) : Bool :=
  decide (request.currentPassword ≠ "") && decide (15 ≤ request.newPassword.length) &&
    decide (request.newPassword.length ≤ 128) && decide (request.currentPassword ≠ request.newPassword)

def Db.withPassword (user : Option User) (db : Db) : Option (User × Password) := do
  let user ← user
  let password ← (db.passwords.find? user.userId).filter fun w => decide (w.revokedAtMs = none)
  pure (user, password)

/-- `load_password_login.sql`. -/
def Db.loadPasswordLogin (normalizedEmail : String) (db : Db) : Option (User × Password) :=
  db.withPassword (db.userByEmail normalizedEmail)

/-- `load_password_by_user.sql`. -/
def Db.loadPasswordByUser (userId : Uuid) (db : Db) : Option (User × Password) :=
  db.withPassword (db.users.find? userId)

def PasswordLoginRecord.ofRow : User × Password → Except PasswordLoginError PasswordLoginRecord
  | (user, password) => do
    let userId ← (Identifier.new user.userId.text).mapError fun _ => .context
    pure ⟨userId, user.status, password.passwordHash⟩

namespace PasswordCall

variable (call : PasswordCall)

def validate : Bool :=
  match call.request with
  | .login request => validateLoginRequest request
  | .change request => validateChangeRequest request

/-- `load_record` and `load_record_by_user`. -/
def load (db : Db) : Except PasswordLoginError (Option PasswordLoginRecord) :=
  match call.request with
  | .login request => (db.loadPasswordLogin request.normalizedEmail).mapM PasswordLoginRecord.ofRow
  | .change request => do
    let userId ← okOr .transport (Uuid.ofText? request.userId.value)
    (db.loadPasswordByUser userId).mapM PasswordLoginRecord.ofRow

end PasswordCall

/-- workflows.rs:873-884; the dummy hash is verified where there is no account. -/
def checkPassword (lib : PasswordLibrary) (password : String) (record : Option PasswordLoginRecord) :
    Except PasswordLoginError PasswordLoginRecord := do
  let candidateHash := record.elim dummyPasswordHash PasswordLoginRecord.passwordHash
  let verified ← okOr .crypto (lib.verifyPassword password candidateHash)
  let record ← okOr .invalidCredentials record
  if !verified ∨ record.status ≠ .active then .error .invalidCredentials else pure record

namespace PasswordCall

variable (lib : PasswordLibrary) (call : PasswordCall)

/-- `login` (workflows.rs:867) -/
def prepareLogin (request : PasswordLoginRequest) (record : Option PasswordLoginRecord) :
    Except PasswordLoginError IssuePasswordSession := do
  let record ← checkPassword lib request.password record
  let sessionId ← okOr .randomnessUnavailable call.draws.sessionId
  let _ ← okOr .randomnessUnavailable call.draws.auditId
  let userId ← okOr .transport (Uuid.ofText? record.userId.value)
  pure { userId := userId, normalizedEmail := request.normalizedEmail, passwordHash := record.passwordHash
         sessionId := uuidV7 (saturatingMs call.nowUnixSeconds) sessionId
         expiresAtMs := expiryMs call.nowUnixSeconds call.sessionTtlMs, nowMs := unixMs call.nowUnixSeconds }

/-- `change_password` (workflows.rs:929) -/
def prepareChange (request : PasswordChangeRequest) (record : Option PasswordLoginRecord) :
    Except PasswordLoginError ChangePassword := do
  let record ← checkPassword lib request.currentPassword record
  let salt ← okOr .randomnessUnavailable call.draws.salt
  let newHash ← okOr .crypto (lib.hashPassword request.newPassword salt)
  let _ ← okOr .randomnessUnavailable call.draws.auditId
  let userId ← okOr .transport (Uuid.ofText? request.userId.value)
  let sessionId ← okOr .transport (Uuid.ofText? request.sessionId.value)
  pure { userId := userId, sessionId := sessionId, currentHash := record.passwordHash, nextHash := newHash
         nowMs := unixMs call.nowUnixSeconds }

end PasswordCall

/-! ## Calls in progress -/

inductive PasswordResponse
  | session (receipt : SessionReceipt)
  | changed
deriving DecidableEq

inductive PasswordPhase
  | started
  | loaded (record : Option PasswordLoginRecord)
  | issuing (p : IssuePasswordSession) (redirectUri : String)
  | changing (p : ChangePassword)
  | ended (result : Except PasswordLoginError PasswordResponse)

structure PasswordThread where
  call : PasswordCall
  phase : PasswordPhase

def loginReceipt (created : SessionCreated) (redirectUri : String) : Except PasswordLoginError PasswordResponse :=
  match created.receipt redirectUri with
  | .ok receipt => .ok (.session receipt)
  | .error .context => .error .context
  | .error _ => .error .row

/-- The end of a call, from what its statement returned. -/
def finishPassword {α : Type} (lost : Bool) (db : Db) (statement : Except SqlError (Option α × Db))
    (respond : α → Except PasswordLoginError PasswordResponse) : Db × PasswordPhase :=
  match statement with
  | .error _ => (db, .ended (.error .transport))
  | .ok (none, db') => (db', .ended (.error (if lost then .transport else .invalidCredentials)))
  | .ok (some row, db') => (db', .ended (if lost then .error .transport else respond row))

def PasswordCall.check (lib : PasswordLibrary) (call : PasswordCall) (record : Option PasswordLoginRecord) :
    Except PasswordLoginError PasswordPhase :=
  match call.request with
  | .login request => (call.prepareLogin lib request record).map fun p => .issuing p request.redirectUri
  | .change request => (call.prepareChange lib request record).map .changing

def PasswordCall.advance (lib : PasswordLibrary) (call : PasswordCall) (lost : Bool) (db : Db) :
    PasswordPhase → Option (Db × PasswordPhase)
  | .started =>
    if !call.validate then some (db, .ended (.error .invalidRequest))
    else if lost then some (db, .ended (.error .transport))
    else
      match call.load db with
      | .error e => some (db, .ended (.error e))
      | .ok record => some (db, .loaded record)
  | .loaded record =>
    match call.check lib record with
    | .error e => some (db, .ended (.error e))
    | .ok phase => some (db, phase)
  | .issuing p redirectUri => some (finishPassword lost db (issuePasswordSession p db) (loginReceipt · redirectUri))
  | .changing p => some (finishPassword lost db (changePassword p db) fun () => .ok .changed)
  | .ended _ => none

def passwords (lib : PasswordLibrary) : Calls.Service Db PasswordThread PasswordCall Bool Command where
  start call := ⟨call, .started⟩
  advance lost db t := (t.call.advance lib lost db t.phase).map fun (db', phase) => (db', { t with phase := phase })
  command c db := db.step c

/-! ## One operation of a call -/

/-- What the check has found out about the parameters of a login's statement. -/
structure LoginChecked (lib : PasswordLibrary) (request : PasswordLoginRequest) (p : IssuePasswordSession) : Prop where
  email : p.normalizedEmail = request.normalizedEmail
  verified : lib.verifyPassword request.password p.passwordHash = some true

/-- The hash in the statement's parameters is the one the current password was checked against. -/
structure ChangeChecked (lib : PasswordLibrary) (request : PasswordChangeRequest) (p : ChangePassword) : Prop where
  user : Uuid.ofText? request.userId.value = some p.userId
  verified : lib.verifyPassword request.currentPassword p.currentHash = some true

/-- All that an operation can do. Only a statement writes, and only if it returns a row. -/
inductive PasswordCall.Advance (lib : PasswordLibrary) (call : PasswordCall) (db : Db) :
    PasswordPhase → Db → PasswordPhase → Prop
  | fails {phase : PasswordPhase} (e : PasswordLoginError) : Advance lib call db phase db (.ended (.error e))
  | loads {record : Option PasswordLoginRecord} : Advance lib call db .started db (.loaded record)
  | checksLogin {request : PasswordLoginRequest} {record : Option PasswordLoginRecord} {p : IssuePasswordSession}
      (hr : call.request = .login request) (h : LoginChecked lib request p) :
      Advance lib call db (.loaded record) db (.issuing p request.redirectUri)
  | checksChange {request : PasswordChangeRequest} {record : Option PasswordLoginRecord} {p : ChangePassword}
      (hr : call.request = .change request) (h : ChangeChecked lib request p) :
      Advance lib call db (.loaded record) db (.changing p)
  | issues {p : IssuePasswordSession} {redirectUri : String} {created : SessionCreated} {db' : Db}
      {result : Except PasswordLoginError PasswordResponse} (h : issuePasswordSession p db = .ok (some created, db')) :
      Advance lib call db (.issuing p redirectUri) db' (.ended result)
  | changes {p : ChangePassword} {db' : Db} {result : Except PasswordLoginError PasswordResponse}
      (h : changePassword p db = .ok (some (), db')) : Advance lib call db (.changing p) db' (.ended result)

section Advance
variable {lib : PasswordLibrary} {call : PasswordCall} {db db' : Db} {phase phase' : PasswordPhase}

theorem verified_of_checkPassword {password : String} {record : Option PasswordLoginRecord} {r : PasswordLoginRecord}
    (h : checkPassword lib password record = .ok r) : lib.verifyPassword password r.passwordHash = some true := by
  simp only [checkPassword, bind_eq_ok, okOr_eq_ok] at h
  obtain ⟨verified, hverified, found, rfl, h⟩ := h
  split at h
  · cases h
  · rename_i hchecks
    cases h
    have htrue : verified = true := by
      cases verified with
      | true => rfl
      | false => exact absurd (.inl rfl) hchecks
    rw [← htrue]
    exact hverified

theorem PasswordCall.prepareLogin_eq_ok {request : PasswordLoginRequest} {record : Option PasswordLoginRecord}
    {p : IssuePasswordSession} (h : call.prepareLogin lib request record = .ok p) : LoginChecked lib request p := by
  simp only [PasswordCall.prepareLogin, bind_eq_ok, okOr_eq_ok] at h
  obtain ⟨r, hcheck, _, -, _, -, _, -, h⟩ := h
  cases h
  exact ⟨rfl, verified_of_checkPassword hcheck⟩

theorem PasswordCall.prepareChange_eq_ok {request : PasswordChangeRequest} {record : Option PasswordLoginRecord}
    {p : ChangePassword} (h : call.prepareChange lib request record = .ok p) : ChangeChecked lib request p := by
  simp only [PasswordCall.prepareChange, bind_eq_ok, okOr_eq_ok] at h
  obtain ⟨r, hcheck, _, -, _, -, _, -, _, huser, _, -, h⟩ := h
  cases h
  exact ⟨huser, verified_of_checkPassword hcheck⟩

theorem finishPassword_cases {α : Type} {lost : Bool} {statement : Except SqlError (Option α × Db)}
    {respond : α → Except PasswordLoginError PasswordResponse}
    (hnone : ∀ {db'}, statement = .ok (none, db') → db' = db)
    (h : finishPassword lost db statement respond = (db', phase')) :
    (∃ e, db' = db ∧ phase' = .ended (.error e)) ∨
      ∃ row result, statement = .ok (some row, db') ∧ phase' = .ended result := by
  unfold finishPassword at h
  split at h
  · cases h
    exact .inl ⟨_, rfl, rfl⟩
  · cases h
    exact .inl ⟨_, hnone rfl, rfl⟩
  · cases h
    exact .inr ⟨_, _, rfl, rfl⟩

theorem PasswordCall.advance_cases {lost : Bool} (h : call.advance lib lost db phase = some (db', phase')) :
    PasswordCall.Advance lib call db phase db' phase' := by
  cases phase with
  | started =>
    simp only [PasswordCall.advance] at h
    split at h
    · cases h; exact .fails _
    · split at h
      · cases h; exact .fails _
      · split at h
        · cases h; exact .fails _
        · cases h; exact .loads
  | loaded record =>
    simp only [PasswordCall.advance] at h
    cases hcheck : call.check lib record with
    | error e =>
      rw [hcheck] at h
      cases h
      exact .fails e
    | ok checked =>
      rw [hcheck] at h
      cases h
      simp only [PasswordCall.check] at hcheck
      cases hrequest : call.request with
      | login request =>
        rw [hrequest] at hcheck
        obtain ⟨p, hp, rfl⟩ := map_eq_ok.1 hcheck
        exact .checksLogin hrequest (prepareLogin_eq_ok hp)
      | change request =>
        rw [hrequest] at hcheck
        obtain ⟨p, hp, rfl⟩ := map_eq_ok.1 hcheck
        exact .checksChange hrequest (prepareChange_eq_ok hp)
  | issuing p redirectUri =>
    have hnone {db'} (h : issuePasswordSession p db = .ok (none, db')) : db' = db := by
      rcases issuePasswordSession_cases h with ⟨-, rfl⟩ | ⟨_, _, _, -, -, -, -, -, -, -, hr, -⟩
      · rfl
      · cases hr
    rcases finishPassword_cases hnone (Option.some.inj h) with ⟨e, rfl, rfl⟩ | ⟨created, _, hs, rfl⟩
    · exact .fails e
    · exact .issues hs
  | changing p =>
    have hnone {db'} (h : changePassword p db = .ok (none, db')) : db' = db := by
      rcases changePassword_cases h with ⟨-, rfl⟩ | ⟨_, _, _, _, -, -, -, -, -, hr, -⟩
      · rfl
      · cases hr
    rcases finishPassword_cases hnone (Option.some.inj h) with ⟨e, rfl, rfl⟩ | ⟨⟨⟩, _, hs, rfl⟩
    · exact .fails e
    · exact .changes hs
  | ended result => cases h

end Advance

/-! ## Runs -/

/-- The account is active, and the hash stored for it, unrevoked, is one of this password and of no other. -/
structure Db.HasPassword (lib : PasswordLibrary) (db : Db) (user : User) (password : String) : Prop where
  account : db.users.find? user.userId = some user
  active : user.status = .active
  stored : ∃ row, db.passwords.find? user.userId = some row ∧ row.revokedAtMs = none ∧
    (∃ salt, lib.hashPassword password salt = some row.passwordHash) ∧
      ∀ {other salt}, lib.hashPassword other salt = some row.passwordHash → other = password

/-- What a call has checked by the time it runs its statement. -/
def PasswordThread.Checked (lib : PasswordLibrary) (t : PasswordThread) : Prop :=
  match t.phase with
  | .issuing p _ => ∃ request, t.call.request = .login request ∧ LoginChecked lib request p
  | .changing p => ∃ request, t.call.request = .change request ∧ ChangeChecked lib request p
  | _ => True

section Runs
variable {lib : PasswordLibrary} {data db db' : Db} {t t' : PasswordThread} {lost : Bool}

theorem passwords_advance (h : (passwords lib).advance lost db t = some (db', t')) :
    t'.call = t.call ∧ t.call.Advance lib db t.phase db' t'.phase := by
  obtain ⟨⟨_, phase⟩, hadvance, h⟩ := Option.map_eq_some_iff.1 h
  cases h
  exact ⟨rfl, PasswordCall.advance_cases hadvance⟩

/-- Nothing that others do to the database matters for what has been checked. -/
theorem passwords_uphold : (passwords lib).Upholds (fun _ => True) (fun _ _ => True) fun _ t => t.Checked lib where
  stable _ h := h
  start _ _ := trivial
  advance {_ _ t _ t'} _ _ h := by
    obtain ⟨hcall, hadvance⟩ := passwords_advance h
    refine ⟨trivial, trivial, ?_⟩
    obtain ⟨call, phase⟩ := t
    obtain ⟨_, phase'⟩ := t'
    cases hcall
    cases hadvance with
    | fails | loads | issues | changes => exact trivial
    | checksLogin hr hchecked => exact ⟨_, hr, hchecked⟩
    | checksChange hr hchecked => exact ⟨_, hr, hchecked⟩
  command _ := ⟨trivial, trivial⟩

theorem PasswordLibrary.Exact.hasPassword (hexact : lib.Exact) {user : User} {row : Password} {password : String}
    (huser : db.users.find? user.userId = some user) (hactive : user.status = .active)
    (hrow : db.passwords.find? user.userId = some row) (hrevoked : row.revokedAtMs = none)
    (hverified : lib.verifyPassword password row.passwordHash = some true) : db.HasPassword lib user password := by
  refine ⟨huser, hactive, row, hrow, hrevoked, hexact.made hverified, fun hother => ?_⟩
  rw [hexact.own hother] at hverified
  exact (of_decide_eq_true (Option.some.inj hverified)).symm

theorem LoginChecked.hasPassword (hexact : lib.Exact) {request : PasswordLoginRequest} {p : IssuePasswordSession}
    {created : SessionCreated} (hchecked : LoginChecked lib request p)
    (h : issuePasswordSession p db = .ok (some created, db')) :
    ∃ user, db.HasPassword lib user request.password ∧ user.normalizedEmail = request.normalizedEmail ∧
      ∀ session ∈ db'.sessions, session ∉ db.sessions → session.userId = user.userId := by
  rcases issuePasswordSession_cases h with
    ⟨⟨⟩, -⟩ | ⟨user, row, _, huser, hrow, hemail, hactive, hrevoked, hhash, hins, -, rfl⟩
  have hid : user.userId = p.userId := (Table.find?_eq_some.1 huser).2
  rw [← hid] at huser hrow
  refine ⟨user, hexact.hasPassword huser hactive hrow hrevoked (hhash ▸ hchecked.verified),
    hemail.trans hchecked.email, fun session hsession hnew => ?_⟩
  rcases (Table.mem_of_insertOr hins).1 hsession with hold | rfl
  · exact absurd hold hnew
  · rfl

theorem ChangeChecked.hasPassword (hexact : lib.Exact) {request : PasswordChangeRequest} {p : ChangePassword}
    (hchecked : ChangeChecked lib request p) (h : changePassword p db = .ok (some (), db')) :
    ∃ user, db.HasPassword lib user request.currentPassword ∧
      Uuid.ofText? request.userId.value = some user.userId := by
  rcases changePassword_cases h with ⟨⟨⟩, -⟩ | ⟨session, user, row, _, hlive, huser, hrow, hhash, hrevoked, -, rfl⟩
  obtain ⟨-, hfind, -, -, -, hactive⟩ := Db.liveSession_eq_some.1 hlive
  have hid : user.userId = session.userId := (Table.find?_eq_some.1 hfind).2
  rw [← hid] at hfind huser
  exact ⟨user, hexact.hasPassword hfind hactive hrow hrevoked (hhash ▸ hchecked.verified), huser ▸ hchecked.user⟩

/-- **The password is checked against the hash that is stored.** When an operation of a login writes or the login
succeeds, and when one of a password change does, the password presented is the one whose hash is stored, unrevoked,
for the active account in the database in which the operation runs. -/
theorem password_checked_when_used (hexact : lib.Exact) {s s' : Calls.State Db PasswordThread} {index : Nat}
    (hs : Reachable ((passwords lib).system data) s) (ht : s.calls[index]? = some t)
    (hnext : ((passwords lib).system data).next s (.advance index lost) = some s')
    (hacts : s'.data ≠ s.data ∨ ∃ t' response, s'.calls[index]? = some t' ∧ t'.phase = .ended (.ok response)) :
    (∀ request, t.call.request = .login request →
        ∃ user, s.data.HasPassword lib user request.password ∧ user.normalizedEmail = request.normalizedEmail ∧
          ∀ session ∈ s'.data.sessions, session ∉ s.data.sessions → session.userId = user.userId) ∧
      ∀ request, t.call.request = .change request →
        ∃ user, s.data.HasPassword lib user request.currentPassword ∧
          Uuid.ofText? request.userId.value = some user.userId := by
  have hchecked : t.Checked lib := (passwords_uphold.each trivial hs).2 t (List.mem_of_getElem? ht)
  rw [Calls.next_advance ht] at hnext
  obtain ⟨⟨db', t'⟩, hadvance, rfl⟩ := Option.map_eq_some_iff.1 hnext
  obtain ⟨hcall, hadvance⟩ := passwords_advance hadvance
  obtain ⟨call, phase⟩ := t
  obtain ⟨_, phase'⟩ := t'
  cases hcall
  cases hadvance with
  | issues h =>
    obtain ⟨_, hrequest, hchecked⟩ := hchecked
    refine ⟨fun request hr => ?_, fun request hr => ?_⟩ <;> cases hrequest.symm.trans hr
    exact hchecked.hasPassword hexact h
  | changes h =>
    obtain ⟨_, hrequest, hchecked⟩ := hchecked
    refine ⟨fun request hr => ?_, fun request hr => ?_⟩ <;> cases hrequest.symm.trans hr
    exact hchecked.hasPassword hexact h
  | fails | loads | checksLogin | checksChange =>
    -- these operations write nothing and end no call with success
    obtain ⟨hlt, -⟩ := List.getElem?_eq_some_iff.1 ht
    simp [hlt] at hacts

end Runs

def plainPasswords : PasswordLibrary where
  hashPassword password _ := some password
  verifyPassword password storedHash := some (decide (password = storedHash))

theorem plainPasswords_exact : plainPasswords.Exact where
  own h := by cases h; rfl
  made {password _} h := by
    obtain rfl := of_decide_eq_true (Option.some.inj h)
    exact ⟨[], rfl⟩

def founderLogin : PasswordLoginRequest := ⟨" A@example.com", "hash", "/"⟩

def founderLogsIn : List (Calls.Action PasswordCall Bool Command) :=
  foundAcme.map .command ++
    [.call ⟨3600000, .login founderLogin, 1, ⟨none, some 0, some 0⟩⟩, .advance 0 false, .advance 0 false]

theorem founder_password_checked : ∃ s user, Reachable ((passwords plainPasswords).system Db.empty) s ∧
    s.data.HasPassword plainPasswords user "hash" ∧ user.normalizedEmail = "a@example.com" := by
  obtain ⟨s, hs, htest⟩ := exists_reachable_of_run ((passwords plainPasswords).system Db.empty) founderLogsIn
    (fun s : Calls.State Db PasswordThread =>
      (s.calls[0]?).any (fun t : PasswordThread => decide (t.call.request = .login founderLogin)) &&
        (((passwords plainPasswords).system Db.empty).next s (.advance 0 false)).any
          fun s' : Calls.State Db PasswordThread =>
            decide (s'.data.sessions.rows.length ≠ s.data.sessions.rows.length))
    (by decide +kernel)
  obtain ⟨hcall, hnext⟩ := Bool.and_eq_true_iff.1 htest
  obtain ⟨t, ht, hrequest⟩ := (Option.any_eq_true _ _).1 hcall
  obtain ⟨s', hnext, hsessions⟩ := (Option.any_eq_true _ _).1 hnext
  have hwrites : s'.data ≠ s.data := fun hsame => of_decide_eq_true hsessions (by rw [hsame])
  obtain ⟨user, huser, hemail, -⟩ := (password_checked_when_used plainPasswords_exact hs ht hnext (.inl hwrites)).1
    founderLogin (of_decide_eq_true hrequest)
  exact ⟨s, user, hs, huser, hemail.trans (by decide +kernel)⟩

end WasiAuth
