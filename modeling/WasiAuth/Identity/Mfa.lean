import WasiAuth.Base.Calls
import WasiAuth.Identity.Totp
import WasiAuth.Postgres.SecondFactors

/-! # The MFA service

A call of postgres/mfa.rs loads what it needs, checks a code, and runs one statement; calls of all sessions run
concurrently (`Base/Calls.lean`), between any other commands. The answer to an operation may get lost after it has been
carried out.

`MfaThread.Advance` says once what an operation can do; `Identity/CodeUse.lean` follows the codes through whole
runs.
-/

namespace WasiAuth

open Relational Transition

/-! ## The service -/

/-- mfa.rs:591 -/
inductive MfaServiceError
  | invalidSession | alreadyEnrolled | invalidFactor | invalidCode | randomnessUnavailable | crypto | transport
deriving DecidableEq

/-- `TotpEnrollment`, `TotpConfirmation`, or nothing. -/
inductive MfaResponse
  | enrollment (provisioningUri secretBase32 : String)
  | confirmation (recoveryCodes : List String)
  | elevated
deriving DecidableEq

/-- mfa.rs:228 -/
structure MfaService where
  keys : MfaKeyMaterial
  config : TotpConfig
  issuer : String
  validIssuer : (decide (trim issuer ≠ "") && decide (issuer.utf8ByteSize ≤ 128) && !issuer.toList.any isControl) = true

inductive MfaRequest
  | start (requestId : RequestId)
  | confirm (code : String)
  | verifyStepUp (code : String)
  | useRecoveryCode (code : String)

structure MfaDraws where
  secret : Option Bytes
  nonce : Option Nonce
  /-- The bytes of the recovery codes, one after the other. -/
  recovery : Nat → Option Bytes
  auditId : Option (BitVec 80)

/-- A call, with what its clock shows when it loads, when it checks the code and when it runs its statement. -/
structure MfaCall where
  service : MfaService
  request : MfaRequest
  sessionId : SessionId
  loadSeconds : Nat
  checkSeconds : Nat
  statementSeconds : Nat
  draws : MfaDraws

def TotpFactor.loaded (factor : TotpFactor) : LoadedFactor where
  userId := factor.userId.text
  keyVersion := factor.keyVersion
  ciphertext := factor.secretCiphertext
  enabled := factor.enabledAtMs.isSome

/-- `load_totp_factor.sql`. -/
def Db.loadTotpFactor (sessionId : Uuid) (nowMs : Int) (db : Db) : Option TotpFactor :=
  (db.liveSession sessionId nowMs).bind fun (_, user) => db.totpFactors.find? user.userId

namespace MfaCall

variable (lib : MfaLibrary) (call : MfaCall)

/-- The cast `$1::text::uuid`. -/
def sessionUuid : Except MfaServiceError Uuid := okOr .transport (Uuid.ofText? call.sessionId.value)

/-- mfa.rs:480 -/
def loadFactor (db : Db) : Except MfaServiceError LoadedFactor := do
  let id ← call.sessionUuid
  okOr .invalidFactor ((db.loadTotpFactor id (unixMs call.loadSeconds)).map TotpFactor.loaded)

/-- mfa.rs:499 -/
def matchedTotpStep (factor : LoadedFactor) (code : String) : Except MfaServiceError (Option Nat) := do
  let secret ← okOr .crypto (call.service.keys.decrypt lib factor)
  (verifyTotp lib secret code call.checkSeconds call.service.config).mapError fun _ => .invalidCode

/-- `start` (mfa.rs:302): the email for the provisioning text, the secret, and the parameters of the statement. -/
def prepareStart (requestId : RequestId) (db : Db) : Except MfaServiceError (String × Bytes × StartTotpEnrollment) := do
  let session ← (loadVerifiedSession call.sessionId requestId call.loadSeconds db).mapError
    fun _ => MfaServiceError.invalidSession
  let secret ← okOr .randomnessUnavailable call.draws.secret
  let nonce ← okOr .randomnessUnavailable call.draws.nonce
  let userId := session.context.auth.principal.userId.value
  let ciphertext ← okOr .crypto (call.service.keys.encrypt lib userId nonce secret)
  let _ ← okOr .randomnessUnavailable call.draws.auditId
  let id ← call.sessionUuid
  pure (session.primaryEmail, secret,
    { sessionId := id, keyVersion := call.service.keys.version, secretCiphertext := ciphertext
      nowMs := unixMs call.loadSeconds })

def recoveryCode (index : Nat) : Except MfaServiceError (String × Bytes) := do
  let bytes ← okOr .randomnessUnavailable (call.draws.recovery index)
  let code := generateRecoveryCode bytes
  let hash ← (hashRecoveryCode lib call.service.keys.recoveryPepper code).mapError fun _ => .crypto
  pure (code, hash)

/-- `confirm` (mfa.rs:360) -/
def prepareConfirm (code : String) (db : Db) :
    Except MfaServiceError (LoadedFactor × List String × ConfirmTotpEnrollment) := do
  let factor ← call.loadFactor db
  if factor.enabled then .error .alreadyEnrolled
  else
    let matched ← call.matchedTotpStep lib factor code
    let step ← okOr .invalidCode matched
    let codes ← (List.range 10).mapM (call.recoveryCode lib)
    let _ ← okOr .randomnessUnavailable call.draws.auditId
    let id ← call.sessionUuid
    -- the hashes travel as hexadecimal text, which the statement decodes
    pure (factor, codes.map Prod.fst,
      { sessionId := id, secretCiphertext := factor.ciphertext, nowMs := unixMs call.statementSeconds
        recoveryHashes := codes.map Prod.snd, step := u64ToI64 step })

/-- `verify_step_up` (mfa.rs:419) -/
def prepareVerify (code : String) (db : Db) : Except MfaServiceError VerifyTotpStepUp := do
  let factor ← call.loadFactor db
  if factor.enabled then
    let matched ← call.matchedTotpStep lib factor code
    let step ← okOr .invalidCode matched
    let _ ← okOr .randomnessUnavailable call.draws.auditId
    let id ← call.sessionUuid
    pure { sessionId := id, secretCiphertext := factor.ciphertext, nowMs := unixMs call.statementSeconds
           step := u64ToI64 step }
  else .error .invalidFactor

/-- `use_recovery_code` (mfa.rs:455) -/
def prepareRecovery (code : String) : Except MfaServiceError UseRecoveryCode := do
  let hash ← (hashRecoveryCode lib call.service.keys.recoveryPepper code).mapError fun _ => MfaServiceError.invalidCode
  let _ ← okOr .randomnessUnavailable call.draws.auditId
  let id ← call.sessionUuid
  pure { sessionId := id, codeHash := hash, nowMs := unixMs call.statementSeconds }

end MfaCall

/-! ## Calls in progress -/

/-- What a call has done to an account. -/
inductive MfaEvent
  /-- Has enabled the factor of a user, with the step of the code that confirmed it. -/
  | enrolled (user : Uuid) (step : Int)
  | steppedUp (user : Uuid) (step : Int)
  | recovered (user : Uuid) (codeHash : Bytes)
deriving DecidableEq

inductive MfaPhase
  | started
  | starting (primaryEmail : String) (secret : Bytes) (p : StartTotpEnrollment)
  | confirming (factor : LoadedFactor) (codes : List String) (p : ConfirmTotpEnrollment)
  | verifying (p : VerifyTotpStepUp)
  | recovering (p : UseRecoveryCode)
  | ended (result : Except MfaServiceError MfaResponse) (event : Option MfaEvent)

structure MfaThread where
  call : MfaCall
  phase : MfaPhase

namespace MfaThread

variable (lib : MfaLibrary)

/-- What a call computes before its statement, from the answer to its first operation; a recovery code needs
none. -/
def prepared (t : MfaThread) (lost : Bool) (db : Db) : Except MfaServiceError MfaPhase :=
  match t.call.request with
  | .start requestId =>
    if lost then .error .invalidSession
    else (t.call.prepareStart lib requestId db).map fun (email, secret, p) => .starting email secret p
  | .confirm code =>
    if lost then .error .transport
    else (t.call.prepareConfirm lib code db).map fun (factor, codes, p) => .confirming factor codes p
  | .verifyStepUp code =>
    if lost then .error .transport else (t.call.prepareVerify lib code db).map .verifying
  | .useRecoveryCode code => (t.call.prepareRecovery lib code).map .recovering

/-- The end of a call, from what its statement returned. -/
def finish (t : MfaThread) (lost : Bool) (db : Db) (statement : Except SqlError (Option Unit × Db))
    (refused : MfaServiceError) (response : Except MfaServiceError MfaResponse) (event : Option MfaEvent) :
    Db × MfaThread :=
  match statement with
  | .error _ => (db, { t with phase := .ended (.error .transport) none })
  | .ok (none, db') => (db', { t with phase := .ended (.error (if lost then .transport else refused)) none })
  | .ok (some (), db') => (db', { t with phase := .ended (if lost then .error .transport else response) event })

def enrollment (p : ConfirmTotpEnrollment) (db : Db) : Option MfaEvent :=
  (db.liveSession p.sessionId p.nowMs).bind fun (_, user) =>
    ((db.totpFactors.find? user.userId).filter fun factor =>
      decide (factor.secretCiphertext = p.secretCiphertext ∧ factor.enabledAtMs = none)).map
        fun _ => .enrolled user.userId p.step

def ofSession (sessionId : Uuid) (nowMs : Int) (db : Db) (event : Uuid → MfaEvent) : Option MfaEvent :=
  (db.liveSession sessionId nowMs).map fun (_, user) => event user.userId

def advance (lost : Bool) (db : Db) (t : MfaThread) : Option (Db × MfaThread) :=
  match t.phase with
  | .started =>
    match t.prepared lib lost db with
    | .error e => some (db, { t with phase := .ended (.error e) none })
    | .ok phase => some (db, { t with phase := phase })
  | .starting email secret p =>
    let response := (provisioningUri t.call.service.issuer email secret t.call.service.config).mapError
      fun _ => MfaServiceError.crypto
    some (t.finish lost db (startTotpEnrollment p db) .alreadyEnrolled
      (response.map fun uri => .enrollment uri (String.ofList (encodeBase32 secret))) none)
  | .confirming _ codes p =>
    some (t.finish lost db (confirmTotpEnrollment p db) .invalidFactor (.ok (.confirmation codes)) (enrollment p db))
  | .verifying p =>
    some (t.finish lost db (verifyTotpStepUp p db) .invalidCode (.ok .elevated)
      (ofSession p.sessionId p.nowMs db fun user => .steppedUp user p.step))
  | .recovering p =>
    some (t.finish lost db (useRecoveryCode p db) .invalidCode (.ok .elevated)
      (ofSession p.sessionId p.nowMs db fun user => .recovered user p.codeHash))
  | .ended .. => none

def event (t : MfaThread) : Option MfaEvent :=
  match t.phase with
  | .ended _ event => event
  | _ => none

end MfaThread

def mfa (lib : MfaLibrary) : Calls.Service Db MfaThread MfaCall Bool Command where
  start call := ⟨call, .started⟩
  advance := MfaThread.advance lib
  command c db := db.step c

/-! ## One operation of a call -/

/-- The code matches the factor at `step`. -/
def MfaCall.Matches (lib : MfaLibrary) (call : MfaCall) (factor : LoadedFactor) (code : String) (step : Int) : Prop :=
  ∃ n, call.matchedTotpStep lib factor code = .ok (some n) ∧ step = u64ToI64 n

/-- What a confirmation knows before its statement: the code matches the factor, whose ciphertext the
statement will ask for, and the hashes are those of the codes. -/
structure MfaCall.Confirms (lib : MfaLibrary) (call : MfaCall) (factor : LoadedFactor) (codes : List String)
    (p : ConfirmTotpEnrollment) : Prop where
  checked : ∃ code, call.request = .confirm code ∧ call.Matches lib factor code p.step
  ciphertext : p.secretCiphertext = factor.ciphertext
  hashes : codes.map (hashRecoveryCode lib call.service.keys.recoveryPepper) = p.recoveryHashes.map .ok

/-- All that an operation can do. A failed statement is rolled back, and one that refuses writes nothing. -/
inductive MfaThread.Advance (lib : MfaLibrary) (call : MfaCall) (db : Db) : MfaPhase → Db → MfaPhase → Prop
  | fails {phase : MfaPhase} (e : MfaServiceError) : Advance lib call db phase db (.ended (.error e) none)
  | starting {email : String} {secret : Bytes} {p : StartTotpEnrollment} :
      Advance lib call db .started db (.starting email secret p)
  | confirming {factor : LoadedFactor} {codes : List String} {p : ConfirmTotpEnrollment}
      (h : call.Confirms lib factor codes p) : Advance lib call db .started db (.confirming factor codes p)
  | verifying {code : String} {factor : LoadedFactor} {p : VerifyTotpStepUp} (hr : call.request = .verifyStepUp code)
      (h : call.Matches lib factor code p.step) : Advance lib call db .started db (.verifying p)
  | recovering {code : String} {p : UseRecoveryCode} (hr : call.request = .useRecoveryCode code)
      (h : hashRecoveryCode lib call.service.keys.recoveryPepper code = .ok p.codeHash) :
      Advance lib call db .started db (.recovering p)
  | starts {email : String} {secret : Bytes} {p : StartTotpEnrollment} {db' : Db}
      {result : Except MfaServiceError MfaResponse} (h : startTotpEnrollment p db = .ok (some (), db'))
      (hresult : result ≠ .ok .elevated) : Advance lib call db (.starting email secret p) db' (.ended result none)
  | confirms {factor : LoadedFactor} {codes : List String} {p : ConfirmTotpEnrollment} {db' : Db}
      {result : Except MfaServiceError MfaResponse} (h : confirmTotpEnrollment p db = .ok (some (), db'))
      (hresult : result ≠ .ok .elevated) :
      Advance lib call db (.confirming factor codes p) db' (.ended result (enrollment p db))
  | verifies {p : VerifyTotpStepUp} {db' : Db} {result : Except MfaServiceError MfaResponse}
      (h : verifyTotpStepUp p db = .ok (some (), db')) :
      Advance lib call db (.verifying p) db'
        (.ended result (ofSession p.sessionId p.nowMs db fun user => .steppedUp user p.step))
  | recovers {p : UseRecoveryCode} {db' : Db} {result : Except MfaServiceError MfaResponse}
      (h : useRecoveryCode p db = .ok (some (), db')) :
      Advance lib call db (.recovering p) db'
        (.ended result (ofSession p.sessionId p.nowMs db fun user => .recovered user p.codeHash))

section Advance

variable {lib : MfaLibrary} {call : MfaCall} {db db' : Db}

theorem MfaCall.recoveryCode_eq_ok {index : Nat} {pair : String × Bytes} (h : call.recoveryCode lib index = .ok pair) :
    hashRecoveryCode lib call.service.keys.recoveryPepper pair.1 = .ok pair.2 := by
  simp only [MfaCall.recoveryCode, bind_eq_ok, mapError_eq_ok] at h
  obtain ⟨_, -, hash, hhash, h⟩ := h
  cases h
  exact hhash

theorem MfaCall.prepareConfirm_eq_ok {code : String} {factor : LoadedFactor} {codes : List String}
    {p : ConfirmTotpEnrollment} (hr : call.request = .confirm code)
    (h : call.prepareConfirm lib code db = .ok (factor, codes, p)) : call.Confirms lib factor codes p := by
  simp only [MfaCall.prepareConfirm, bind_eq_ok] at h
  obtain ⟨loaded, -, h⟩ := h
  split at h
  · cases h
  · simp only [bind_eq_ok, okOr_eq_ok] at h
    obtain ⟨_, hmatched, step, rfl, pairs, hpairs, _, -, _, -, h⟩ := h
    cases h
    refine ⟨⟨code, hr, step, hmatched, rfl⟩, rfl, ?_⟩
    simp only [List.map_map]
    refine List.map_congr_left fun pair hpair => ?_
    obtain ⟨index, -, hindex⟩ := (exists_mem_of_forall₂ (forall₂_of_mapM hpairs)).2 pair hpair
    exact recoveryCode_eq_ok hindex

theorem MfaCall.prepareVerify_eq_ok {code : String} {p : VerifyTotpStepUp}
    (h : call.prepareVerify lib code db = .ok p) : ∃ factor, call.Matches lib factor code p.step := by
  simp only [MfaCall.prepareVerify, bind_eq_ok] at h
  obtain ⟨factor, -, h⟩ := h
  split at h
  · simp only [bind_eq_ok, okOr_eq_ok] at h
    obtain ⟨_, hmatched, step, rfl, _, -, _, -, h⟩ := h
    cases h
    exact ⟨factor, step, hmatched, rfl⟩
  · cases h

theorem MfaCall.prepareRecovery_eq_ok {code : String} {p : UseRecoveryCode}
    (h : call.prepareRecovery lib code = .ok p) :
    hashRecoveryCode lib call.service.keys.recoveryPepper code = .ok p.codeHash := by
  simp only [MfaCall.prepareRecovery, bind_eq_ok, mapError_eq_ok] at h
  obtain ⟨hash, hhash, _, -, _, -, h⟩ := h
  cases h
  exact hhash

namespace MfaThread

/-- The end of a call that has run its statement, given what the statement leaves when it refuses and when it
does not. -/
theorem Advance.of_finish {t t' : MfaThread} {lost : Bool} {phase : MfaPhase}
    {statement : Except SqlError (Option Unit × Db)} {refused : MfaServiceError}
    {response : Except MfaServiceError MfaResponse} {event : Option MfaEvent}
    (hrefused : ∀ {db₁}, statement = .ok (none, db₁) → db₁ = db)
    (hdone : ∀ {db₁}, statement = .ok (some (), db₁) →
      Advance lib t.call db phase db₁ (.ended (if lost then .error .transport else response) event))
    (h : some (t.finish lost db statement refused response event) = some (db', t')) :
    t'.call = t.call ∧ Advance lib t.call db phase db' t'.phase := by
  unfold finish at h
  split at h <;> cases h
  · exact ⟨rfl, .fails _⟩
  · obtain rfl := hrefused rfl
    exact ⟨rfl, .fails _⟩
  · exact ⟨rfl, hdone rfl⟩

theorem Advance.of_prepared {t : MfaThread} {lost : Bool} {phase : MfaPhase}
    (h : t.prepared lib lost db = .ok phase) : Advance lib t.call db .started db phase := by
  unfold prepared at h
  split at h
  · split at h
    · cases h
    · obtain ⟨⟨email, secret, p⟩, -, rfl⟩ := map_eq_ok.1 h
      exact .starting
  · rename_i code hr
    split at h
    · cases h
    · obtain ⟨⟨factor, codes, p⟩, hp, rfl⟩ := map_eq_ok.1 h
      exact .confirming (MfaCall.prepareConfirm_eq_ok hr hp)
  · rename_i code hr
    split at h
    · cases h
    · obtain ⟨p, hp, rfl⟩ := map_eq_ok.1 h
      obtain ⟨factor, hmatches⟩ := MfaCall.prepareVerify_eq_ok hp
      exact .verifying hr hmatches
  · rename_i code hr
    obtain ⟨p, hp, rfl⟩ := map_eq_ok.1 h
    exact .recovering hr (MfaCall.prepareRecovery_eq_ok hp)

theorem advance_cases {t t' : MfaThread} {lost : Bool} (h : t.advance lib lost db = some (db', t')) :
    t'.call = t.call ∧ Advance lib t.call db t.phase db' t'.phase := by
  unfold advance at h
  split at h <;> rename_i hphase <;> rw [hphase]
  · split at h <;> cases h
    · exact ⟨rfl, .fails _⟩
    · exact ⟨rfl, .of_prepared ‹_›⟩
  · refine Advance.of_finish (fun hs => ?_) (fun hs => .starts hs ?_) h
    · rcases startTotpEnrollment_cases hs with ⟨-, rfl⟩ | ⟨_, _, hr, -⟩
      · rfl
      · cases hr
    · cases lost
      · cases provisioningUri t.call.service.issuer _ _ t.call.service.config <;> simp [Except.mapError, Except.map]
      · simp
  · refine Advance.of_finish (fun hs => ?_) (fun hs => .confirms hs (by cases lost <;> simp)) h
    rcases confirmTotpEnrollment_cases hs with ⟨-, -, rfl⟩ | ⟨_, _, _, hr, -⟩
    · rfl
    · cases hr
  · refine Advance.of_finish (fun hs => ?_) (fun hs => .verifies hs) h
    rcases verifyTotpStepUp_cases hs with ⟨-, rfl⟩ | ⟨_, _, _, hr, -⟩
    · rfl
    · cases hr
  · refine Advance.of_finish (fun hs => ?_) (fun hs => .recovers hs) h
    rcases useRecoveryCode_cases hs with ⟨-, rfl⟩ | ⟨_, _, _, hr, -⟩
    · rfl
    · cases hr
  · cases h

end MfaThread

end Advance

end WasiAuth
