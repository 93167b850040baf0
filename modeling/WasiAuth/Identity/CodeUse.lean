import Mathlib.Data.List.Pairwise
import WasiAuth.Identity.Mfa

/-! # The use of codes

Between the load of a factor and the statement of the same call the factor can change. The statement of a
step-up asks for the factor that was checked and for a step above the last consumed one, which makes every step
single use (`second_factors_are_single_use`). The statement of a confirmation enables the factor that was checked
if it is still pending, but raises the session in any case, so a confirmation can succeed and enable nothing
(`confirm_without_enrolling`); `confirm_enrols_iff` says when it does not.
-/

namespace WasiAuth

open Relational Transition

/-! ## What the rows record of an event -/

/-- The factor of the user is enabled and has consumed this step or a later one. -/
def Db.Consumed (db : Db) (user : Uuid) (step : Int) : Prop :=
  ∃ factor, db.totpFactors.find? user = some factor ∧ factor.enabledAtMs.isSome ∧
    ∃ last ∈ factor.lastConsumedStep, step ≤ last

namespace MfaEvent

/-- What the database must hold for the event to happen. -/
def AllowedIn (db : Db) : MfaEvent → Prop
  | enrolled user _ => ∃ factor, db.totpFactors.find? user = some factor ∧ factor.enabledAtMs = none
  | steppedUp user step =>
    ∃ factor, db.totpFactors.find? user = some factor ∧ ∀ last ∈ factor.lastConsumedStep, last < step
  | recovered user codeHash => ∃ code, db.recoveryCodes.find? (user, codeHash) = some code ∧ code.usedAtMs = none

/-- What the database holds once it has happened. -/
def RecordedIn (db : Db) : MfaEvent → Prop
  | enrolled user step | steppedUp user step => db.Consumed user step
  | recovered user codeHash =>
    db.Enrolled user ∧ ∃ code, db.recoveryCodes.find? (user, codeHash) = some code ∧ code.usedAtMs.isSome

/-- Two events of one run can both happen. -/
structure Compatible (e e' : MfaEvent) : Prop where
  ne : e ≠ e'
  after : ∀ user step step', e = .enrolled user step → e' = .steppedUp user step' → step < step'
  before : ∀ user step step', e = .steppedUp user step' → e' = .enrolled user step → step < step'

/-- The event is one that the call asks for, with a code that matches. -/
def Of (lib : MfaLibrary) (call : MfaCall) : MfaEvent → Prop
  | enrolled _ step => ∃ factor code, call.request = .confirm code ∧ call.Matches lib factor code step
  | steppedUp _ step => ∃ factor code, call.request = .verifyStepUp code ∧ call.Matches lib factor code step
  | recovered _ codeHash => ∃ code, call.request = .useRecoveryCode code ∧
      hashRecoveryCode lib call.service.keys.recoveryPepper code = .ok codeHash

end MfaEvent

section Events

variable {db db' : Db} {e e' : MfaEvent} {user : Uuid} {step : Int}

theorem Db.Consumed.lasting (hl : Lasting db db') (h : db.Consumed user step) : db'.Consumed user step := by
  obtain ⟨factor, hfind, henabled, last, hlast, hle⟩ := h
  obtain ⟨factor', hfind', hlasts⟩ := hl.totpFactors hfind
  obtain ⟨last', hlast', hle'⟩ := hlasts.consumed henabled last hlast
  exact ⟨factor', hfind', hlasts.enabledAtMs henabled, last', hlast', hle.trans hle'⟩

theorem Db.Consumed.not_pending {step' : Int} (h : db.Consumed user step) :
    ¬ MfaEvent.AllowedIn db (.enrolled user step') := by
  rintro ⟨factor', hfind', hpending⟩
  obtain ⟨factor, hfind, henabled, -⟩ := h
  rw [hfind] at hfind'
  cases hfind'
  rw [hpending] at henabled
  cases henabled

theorem Db.Consumed.lt {step' : Int} (h : db.Consumed user step) (h' : MfaEvent.AllowedIn db (.steppedUp user step')) :
    step < step' := by
  obtain ⟨factor, hfind, -, last, hlast, hle⟩ := h
  obtain ⟨factor', hfind', hfresh⟩ := h'
  rw [hfind] at hfind'
  cases hfind'
  exact lt_of_le_of_lt hle (hfresh last hlast)

theorem MfaEvent.RecordedIn.lasting (hl : Lasting db db') (h : e.RecordedIn db) : e.RecordedIn db' := by
  cases e with
  | enrolled user step => exact Db.Consumed.lasting hl h
  | steppedUp user step => exact Db.Consumed.lasting hl h
  | recovered user codeHash =>
    obtain ⟨henrolled, code, hfind, hused⟩ := h
    obtain ⟨code', hfind', hused'⟩ := hl.recoveryCodes henrolled hfind
    exact ⟨hl.enrolled henrolled, code', hfind', hused' hused⟩

theorem MfaEvent.Compatible.symm (h : Compatible e e') : Compatible e' e :=
  ⟨h.ne.symm, fun user step step' he' he => h.before user step step' he he',
    fun user step step' he' he => h.after user step step' he he'⟩

instance : Std.Symm MfaEvent.Compatible := ⟨fun _ _ h => h.symm⟩

theorem MfaEvent.compatible_of_allowedIn (h : e.RecordedIn db) (h' : e'.AllowedIn db) : Compatible e e' := by
  refine ⟨?_, ?_, ?_⟩
  · rintro rfl
    cases e with
    | enrolled user step => exact Db.Consumed.not_pending h h'
    | steppedUp user step => exact lt_irrefl _ (Db.Consumed.lt h h')
    | recovered user codeHash =>
      obtain ⟨-, code, hfind, hused⟩ := h
      obtain ⟨code', hfind', hunused⟩ := h'
      rw [hfind] at hfind'
      cases hfind'
      rw [hunused] at hused
      cases hused
  · rintro user step step' rfl rfl
    exact Db.Consumed.lt h h'
  · rintro user step step' rfl rfl
    exact absurd h' (Db.Consumed.not_pending h)

/-! The three statements: what each finds is what it may do, and it leaves its record. -/

theorem find?_of_set {factor new : TotpFactor} (hfind : db.totpFactors.find? user = some factor)
    (huser : new.userId = factor.userId) : (db.totpFactors.set new).find? user = some new := by
  have hkey : new.userId = user := huser.trans (Table.find?_eq_some.1 hfind).2
  subst hkey
  exact Table.find?_set_self hfind

theorem enrollment_of_confirm {p : ConfirmTotpEnrollment} (h : confirmTotpEnrollment p db = .ok (some (), db'))
    (he : e ∈ MfaThread.enrollment p db) :
    (∃ user, e = .enrolled user p.step) ∧ e.AllowedIn db ∧ e.RecordedIn db' := by
  rcases confirmTotpEnrollment_cases h with ⟨hr, -⟩ | ⟨session, user, db₁, -, hlive, henable, rfl⟩
  · cases hr
  simp only [MfaThread.enrollment, hlive, Option.bind_some, Option.mem_def, Option.map_eq_some_iff,
    Option.filter_eq_some_iff, decide_eq_true_eq] at he
  obtain ⟨row, ⟨hfind, hcipher, hpending⟩, rfl⟩ := he
  refine ⟨⟨_, rfl⟩, ⟨row, hfind, hpending⟩, ?_⟩
  rcases enableFactor_cases henable with ⟨hnone, -⟩ | ⟨factor, codes, hfind, -, -, -, rfl⟩
  · exact absurd ⟨row, hfind, hcipher, hpending⟩ hnone
  · exact ⟨_, find?_of_set hfind rfl, rfl, p.step, rfl, le_rfl⟩

theorem steppedUp_of_verify {p : VerifyTotpStepUp} (h : verifyTotpStepUp p db = .ok (some (), db')) :
    ∃ user, MfaThread.ofSession p.sessionId p.nowMs db (fun user => .steppedUp user p.step) =
        some (.steppedUp user p.step) ∧
      MfaEvent.AllowedIn db (.steppedUp user p.step) ∧ MfaEvent.RecordedIn db' (.steppedUp user p.step) := by
  rcases verifyTotpStepUp_cases h with ⟨hr, -⟩ | ⟨session, user, factor, -, hlive, hfind, henabled, -, hfresh, rfl⟩
  · cases hr
  exact ⟨user.userId, by simp [MfaThread.ofSession, hlive], ⟨factor, hfind, hfresh⟩,
    _, find?_of_set hfind rfl, henabled, p.step, rfl, le_rfl⟩

theorem recovered_of_use {p : UseRecoveryCode} (henrolling : db.Enrolling)
    (h : useRecoveryCode p db = .ok (some (), db')) :
    ∃ user, MfaThread.ofSession p.sessionId p.nowMs db (fun user => .recovered user p.codeHash) =
        some (.recovered user p.codeHash) ∧
      MfaEvent.AllowedIn db (.recovered user p.codeHash) ∧ MfaEvent.RecordedIn db' (.recovered user p.codeHash) := by
  have hl := Lasting.useRecoveryCode h
  rcases useRecoveryCode_cases h with ⟨hr, -⟩ | ⟨session, user, code, -, hlive, hfind, hunused, rfl⟩
  · cases hr
  obtain ⟨hmem, hkey⟩ := Table.find?_eq_some.1 hfind
  have huser : code.userId = user.userId := congrArg Prod.fst hkey
  have henrolled : db.Enrolled user.userId := huser ▸ henrolling.codes code hmem
  have hset := Table.find?_set_self (r := { code with usedAtMs := some p.nowMs })
    ((congrArg db.recoveryCodes.find? hkey).trans hfind)
  exact ⟨user.userId, by simp [MfaThread.ofSession, hlive], ⟨code, hfind, hunused⟩, hl.enrolled henrolled,
    _, hkey ▸ hset, rfl⟩

end Events

/-! ## A sample run -/

/-- A library in which every code is 000000, a hash is its message and a ciphertext its plaintext. -/
def sampleMfaLibrary : MfaLibrary where
  hmacSha1 _ _ _ := 0
  hmacSha256 _ message := message
  encrypt _ _ _ plaintext := some plaintext
  decrypt _ _ _ ciphertext := some ciphertext

theorem sampleMfaCall_version : (decide ("v1" ≠ "") && decide ("v1".utf8ByteSize ≤ 128) &&
    !"v1".toList.any isControl) = true := by decide +kernel

theorem sampleMfaCall_keyLength : (List.replicate 32 0 : Bytes).length = 32 := rfl

theorem sampleMfaCall_nonceLength : (List.replicate 12 0 : Bytes).length = 12 := rfl

theorem sampleMfaCall_sessionId : validateIdentifier "00000000-0000-0000-0000-000000000002" = .ok () := by
  decide +kernel

theorem sampleMfaCall_requestId : validateIdentifier "request" = .ok () := by decide +kernel

/-- A call of the founder's first or second session; the codes it draws begin with `tag`. -/
def sampleMfaCall (request : MfaRequest) (second : Bool) (seconds : Nat) (tag : UInt8) : MfaCall where
  service :=
    { keys :=
        ⟨"v1", List.replicate 32 0, List.replicate 16 0, sampleMfaCall_version, sampleMfaCall_keyLength, by decide⟩
      config := ⟨30, 6, 1, by decide, by decide, by decide⟩, issuer := "issuer", validIssuer := by decide +kernel }
  request := request
  sessionId :=
    if second then ⟨"00000000-0000-0000-0000-000000000005", by decide +kernel⟩
    else ⟨"00000000-0000-0000-0000-000000000002", sampleMfaCall_sessionId⟩
  loadSeconds := seconds
  checkSeconds := seconds
  statementSeconds := seconds
  draws := ⟨some (List.replicate 20 0), some ⟨List.replicate 12 0, sampleMfaCall_nonceLength⟩,
    fun i => some (tag :: List.replicate 8 0 ++ [UInt8.ofNat i]), some 0⟩

/-- Two sessions of a user, one of which starts an enrollment; then both confirm it, and the second has loaded
the factor when the first one's statement runs. -/
def sampleEnrollments : List (Calls.Action MfaCall Bool Command) :=
  (foundAcme.take 2 ++ secondLogin).map .command ++
    [.call (sampleMfaCall (.start ⟨"request", sampleMfaCall_requestId⟩) false 0 0), .advance 0 false, .advance 0 false,
      .call (sampleMfaCall (.confirm "000000") false 0 0), .call (sampleMfaCall (.confirm "000000") true 0 1),
      .advance 1 false, .advance 2 false, .advance 1 false]

/-! ## Every code is used once -/

/-- What a call has prepared or done is backed by a code that matched. -/
def MfaThread.Sound (lib : MfaLibrary) (db : Db) (t : MfaThread) : Prop :=
  match t.phase with
  | .started | .starting .. => True
  | .confirming factor codes p => t.call.Confirms lib factor codes p
  | .verifying p => ∃ factor code, t.call.request = .verifyStepUp code ∧ t.call.Matches lib factor code p.step
  | .recovering p => ∃ code, t.call.request = .useRecoveryCode code ∧
      hashRecoveryCode lib t.call.service.keys.recoveryPepper code = .ok p.codeHash
  | .ended result event => (∀ e ∈ event, e.RecordedIn db ∧ e.Of lib t.call) ∧ (result = .ok .elevated → event.isSome)

section Calls

variable {lib : MfaLibrary} {db db' : Db} {t t' : MfaThread} {lost : Bool} {call : MfaCall}

theorem MfaThread.Sound.lasting (hl : Lasting db db') (h : t.Sound lib db) : t.Sound lib db' := by
  obtain ⟨call, phase⟩ := t
  cases phase with
  | ended result event => exact ⟨fun e he => ⟨(h.1 e he).1.lasting hl, (h.1 e he).2⟩, h.2⟩
  | _ => exact h

theorem MfaThread.Advance.enrolling {phase phase' : MfaPhase} (h : Advance lib call db phase db' phase')
    (henrolling : db.Enrolling) : db'.Enrolling ∧ Lasting db db' := by
  cases h with
  | starts h => exact ⟨henrolling.start h, .startTotpEnrollment h⟩
  | confirms h => exact ⟨henrolling.confirm h, .confirmTotpEnrollment h⟩
  | verifies h => exact ⟨henrolling.verify h, .verifyTotpStepUp h⟩
  | recovers h => exact ⟨henrolling.recover h, .useRecoveryCode h⟩
  | _ => exact ⟨henrolling, .refl _⟩

theorem MfaThread.Advance.sound {phase phase' : MfaPhase} (h : Advance lib call db phase db' phase')
    (henrolling : db.Enrolling) (hs : Sound lib db ⟨call, phase⟩) : Sound lib db' ⟨call, phase'⟩ := by
  cases h with
  | fails e => exact ⟨fun _ he => (by cases he), fun hr => (by cases hr)⟩
  | starting => exact trivial
  | confirming h => exact h
  | verifying hr h => exact ⟨_, _, hr, h⟩
  | recovering hr h => exact ⟨_, hr, h⟩
  | starts h hresult => exact ⟨fun _ he => (by cases he), fun hr => absurd hr hresult⟩
  | confirms h hresult =>
    refine ⟨fun e he => ?_, fun hr => absurd hr hresult⟩
    obtain ⟨⟨user, rfl⟩, -, hrecorded⟩ := enrollment_of_confirm h he
    obtain ⟨code, hr, hmatches⟩ := hs.checked
    exact ⟨hrecorded, _, code, hr, hmatches⟩
  | verifies h =>
    obtain ⟨user, hevent, -, hrecorded⟩ := steppedUp_of_verify h
    refine ⟨fun e he => ?_, fun _ => by rw [hevent]; rfl⟩
    rw [hevent] at he
    cases he
    exact ⟨hrecorded, hs⟩
  | recovers h =>
    obtain ⟨user, hevent, -, hrecorded⟩ := recovered_of_use henrolling h
    refine ⟨fun e he => ?_, fun _ => by rw [hevent]; rfl⟩
    rw [hevent] at he
    cases he
    exact ⟨hrecorded, hs⟩

theorem MfaThread.Advance.allowedIn {phase phase' : MfaPhase} (h : Advance lib call db phase db' phase')
    (henrolling : db.Enrolling) {e : MfaEvent} (he : e ∈ event ⟨call, phase'⟩) : e.AllowedIn db := by
  cases h with
  | confirms h => exact (enrollment_of_confirm h he).2.1
  | verifies h =>
    obtain ⟨user, hevent, hallowed, -⟩ := steppedUp_of_verify h
    cases hevent.symm.trans he
    exact hallowed
  | recovers h =>
    obtain ⟨user, hevent, hallowed, -⟩ := recovered_of_use henrolling h
    cases hevent.symm.trans he
    exact hallowed
  | _ => cases he

theorem mfa_upholds (lib : MfaLibrary) : (mfa lib).Upholds Db.Enrolling Lasting (MfaThread.Sound lib) where
  stable := MfaThread.Sound.lasting
  start _ _ := trivial
  advance := by
    rintro lost db ⟨call, phase⟩ db' ⟨call', phase'⟩ henrolling hs h
    obtain ⟨rfl, h⟩ := MfaThread.advance_cases h
    exact ⟨(h.enrolling henrolling).1, (h.enrolling henrolling).2, h.sound henrolling hs⟩
  command henrolling := ⟨henrolling.step (factorStep_of_next rfl), .of_next rfl⟩

theorem compatible_events {s : Calls.State Db MfaThread} (hs : Reachable ((mfa lib).system Db.empty) s) :
    (s.calls.filterMap MfaThread.event).Pairwise MfaEvent.Compatible := by
  have hpairs : s.calls.Pairwise fun t t' => ∀ e ∈ t.event, ∀ e' ∈ t'.event, MfaEvent.Compatible e e' := by
    refine (mfa_upholds lib).pairwise (fun h e he e' he' => (h e' he' e he).symm) (fun _ _ _ _ _ he' => by cases he')
      ?_ .empty hs
    -- a call that moves gets an event only from its statement, and the others' are recorded then
    rintro lost db ⟨call, phase⟩ db' ⟨call', phase'⟩ ⟨other, otherPhase⟩ henrolling - hother - h e he e' he'
    obtain ⟨rfl, h⟩ := MfaThread.advance_cases h
    cases otherPhase with
    | ended result event => exact MfaEvent.compatible_of_allowedIn (hother.1 e he).1 (h.allowedIn henrolling he')
    | _ => cases he
  exact List.pairwise_filterMap.2 hpairs

end Calls

/-- **Single use.** Among the calls of a run, no two step up with the same step of a factor, none steps up
with a step at or below the one its enrollment consumed, and no two use one recovery code. A call that reports an
elevation has made one of these uses, with the code it was given. And the step that a factor has consumed never
decreases. -/
theorem second_factors_are_single_use {lib : MfaLibrary} {s : Calls.State Db MfaThread}
    (hs : Reachable ((mfa lib).system Db.empty) s) :
    (s.calls.filterMap MfaThread.event).Nodup ∧
      (∀ user enrolled step, .enrolled user enrolled ∈ s.calls.filterMap MfaThread.event →
        .steppedUp user step ∈ s.calls.filterMap MfaThread.event → enrolled < step) ∧
      (∀ call event, ⟨call, .ended (.ok .elevated) event⟩ ∈ s.calls → ∃ e, event = some e ∧ e.Of lib call) ∧
      ∀ t, Steps ((mfa lib).system Db.empty) anyStep s t → ∀ user factor last,
        s.data.totpFactors.find? user = some factor → factor.lastConsumedStep = some last →
          ∃ factor' last', t.data.totpFactors.find? user = some factor' ∧ factor'.lastConsumedStep = some last' ∧
            last ≤ last' := by
  have hcompatible := compatible_events hs
  have heach := (mfa_upholds lib).each .empty hs
  refine ⟨hcompatible.imp fun h => h.ne, fun user enrolled step he he' => ?_, fun call event ht => ?_,
    fun t hrun user factor last hfind hlast => ?_⟩
  · exact (hcompatible.forall he he' (fun heq => by cases heq)).after user enrolled step rfl rfl
  · obtain ⟨hevents, hsome⟩ := heach.2 _ ht
    obtain ⟨e, rfl⟩ := Option.isSome_iff_exists.1 (hsome rfl)
    exact ⟨e, rfl, (hevents e rfl).2⟩
  · have hl : Lasting s.data t.data := (mfa_upholds lib).relation Lasting.refl Lasting.trans heach hrun
    have henabled := heach.1.consumed factor (Table.find?_eq_some.1 hfind).1 (by rw [hlast]; rfl)
    obtain ⟨factor', hfind', hlasts⟩ := hl.totpFactors hfind
    obtain ⟨last', hlast', hle⟩ := hlasts.consumed henabled last hlast
    exact ⟨factor', last', hfind', hlast', hle⟩

/-- After the enrollment both sessions step up with the code of one moment, in lockstep, and then with one of the
recovery codes. -/
def sampleStepUps : List (Calls.Action MfaCall Bool Command) :=
  [.call (sampleMfaCall (.verifyStepUp "000000") false 60 0), .call (sampleMfaCall (.verifyStepUp "000000") true 60 0),
    .advance 3 false, .advance 4 false, .advance 4 false, .advance 3 false,
    .call (sampleMfaCall (.useRecoveryCode "aaaa-aaaa-aaaa-aaaa") false 60 0),
    .call (sampleMfaCall (.useRecoveryCode "AAAA AAAA AAAA AAAA") true 60 0),
    .advance 5 false, .advance 6 false, .advance 5 false, .advance 6 false]

/-- One of two step-ups and one of two recoveries goes through. -/
theorem lockstep_stepUps : ∃ s, Reachable ((mfa sampleMfaLibrary).system Db.empty) s ∧
    s.calls.filterMap MfaThread.event =
      [.enrolled ⟨1⟩ 1, .steppedUp ⟨1⟩ 3, .recovered ⟨1⟩ (List.replicate 16 65)] ∧
    (s.calls.filterMap MfaThread.event).Nodup := by
  obtain ⟨s, hs, hp⟩ := exists_reachable_of_run ((mfa sampleMfaLibrary).system Db.empty)
    (sampleEnrollments ++ sampleStepUps)
    (fun s : Calls.State Db MfaThread => decide (s.calls.filterMap MfaThread.event =
      [.enrolled ⟨1⟩ 1, .steppedUp ⟨1⟩ 3, .recovered ⟨1⟩ (List.replicate 16 65)])) (by decide +kernel)
  exact ⟨s, hs, of_decide_eq_true hp, (second_factors_are_single_use hs).1⟩

/-! ## Confirmations -/

/-- The statement of a confirmation has enabled the pending factor that the call has checked, and the user's
recovery codes are now exactly the codes that the call returns, unused. -/
def Enrolls (lib : MfaLibrary) (call : MfaCall) (factor : LoadedFactor) (codes : List String)
    (p : ConfirmTotpEnrollment) (db db' : Db) : Prop :=
  (∃ code, call.request = .confirm code ∧ call.Matches lib factor code p.step) ∧
    ∃ session user row, db.liveSession p.sessionId p.nowMs = some (session, user) ∧
      db.totpFactors.find? user.userId = some row ∧ row.enabledAtMs = none ∧ row.secretCiphertext = factor.ciphertext ∧
        db'.totpFactors.find? user.userId =
            some { row with enabledAtMs := some p.nowMs, lastConsumedStep := some p.step } ∧
          ∀ stored, stored ∈ db'.recoveryCodes ∧ stored.userId = user.userId ↔
            stored.userId = user.userId ∧ stored.usedAtMs = none ∧
              ∃ code ∈ codes, hashRecoveryCode lib call.service.keys.recoveryPepper code = .ok stored.codeHash

/-- When the statement finds the session live, the factor of its user is still pending and still the one that
was loaded. -/
def StillPending (factor : LoadedFactor) (p : ConfirmTotpEnrollment) (db : Db) : Prop :=
  ∀ session user, db.liveSession p.sessionId p.nowMs = some (session, user) →
    ∃ row, db.totpFactors.find? user.userId = some row ∧ row.enabledAtMs = none ∧
      row.secretCiphertext = factor.ciphertext

section Confirmations

variable {lib : MfaLibrary} {call : MfaCall} {factor : LoadedFactor} {codes : List String}
  {p : ConfirmTotpEnrollment} {db db' : Db}

theorem MfaCall.Confirms.mem_hashes (hc : call.Confirms lib factor codes p) {hash : Bytes} :
    hash ∈ p.recoveryHashes ↔
      ∃ code ∈ codes, hashRecoveryCode lib call.service.keys.recoveryPepper code = .ok hash := by
  have hmem : hash ∈ p.recoveryHashes ↔ (.ok hash : Except MfaError Bytes) ∈ p.recoveryHashes.map .ok := by simp
  rw [hmem, ← hc.hashes, List.mem_map]

theorem enrolls_of_confirm (hc : call.Confirms lib factor codes p) (hpending : StillPending factor p db)
    (h : confirmTotpEnrollment p db = .ok (some (), db')) : Enrolls lib call factor codes p db db' := by
  rcases confirmTotpEnrollment_cases h with ⟨hr, -⟩ | ⟨session, user, db₁, -, hlive, henable, rfl⟩
  · cases hr
  obtain ⟨row, hfind, henabled, hcipher⟩ := hpending session user hlive
  refine ⟨hc.checked, session, user, row, hlive, hfind, henabled, hcipher, ?_⟩
  rcases enableFactor_cases henable with ⟨hnone, -⟩ | ⟨row', stored, hfind', -, -, hcodes, rfl⟩
  · exact absurd ⟨row, hfind, hcipher.trans hc.ciphertext.symm, henabled⟩ hnone
  rw [hfind] at hfind'
  cases hfind'
  refine ⟨find?_of_set hfind rfl, fun code => ?_⟩
  -- the user's old codes are deleted, so a code of the user is one of the new ones
  simp only [Db.elevateSession, Db.updateSessions, Table.mem_of_insertAllOr hcodes, Table.mem_delete,
    decide_eq_false_iff_not, List.mem_map, ← hc.mem_hashes]
  constructor
  · rintro ⟨⟨-, hother⟩ | ⟨hash, hhash, rfl⟩, huser⟩
    · exact absurd huser hother
    · exact ⟨rfl, rfl, hhash⟩
  · rintro ⟨huser, hunused, hhash⟩
    obtain ⟨userId, codeHash, usedAtMs⟩ := code
    cases huser
    cases hunused
    exact ⟨.inr ⟨codeHash, hhash, rfl⟩, rfl⟩

/-- Without the pending factor the statement still raises the session and returns its row. -/
theorem confirm_of_not_pending {session : Session} {user : User}
    (hlive : db.liveSession p.sessionId p.nowMs = some (session, user))
    (hnone : ¬ ∃ row, db.totpFactors.find? user.userId = some row ∧ row.enabledAtMs = none ∧
      row.secretCiphertext = p.secretCiphertext) :
    confirmTotpEnrollment p db = .ok (some (), db.elevateSession p.sessionId) := by
  have henable : db.enableFactor p user.userId = .ok db := by
    unfold Db.enableFactor
    split
    · rfl
    · rename_i row hrow
      simp only [Option.filter_eq_some_iff, decide_eq_true_eq] at hrow
      exact absurd ⟨row, hrow.1, hrow.2.2, hrow.2.1⟩ hnone
  simp [confirmTotpEnrollment, hlive, henable, ok_bind, pure, Except.pure]

theorem next_of_not_pending {s : Calls.State Db MfaThread} {n : Nat} {session : Session} {user : User}
    (ht : s.calls[n]? = some ⟨call, .confirming factor codes p⟩)
    (hlive : s.data.liveSession p.sessionId p.nowMs = some (session, user))
    (hnone : ¬ ∃ row, s.data.totpFactors.find? user.userId = some row ∧ row.enabledAtMs = none ∧
      row.secretCiphertext = p.secretCiphertext) :
    ((mfa lib).system Db.empty).next s (.advance n false) =
      some ⟨s.data.elevateSession p.sessionId,
        s.calls.set n ⟨call, .ended (.ok (.confirmation codes)) (MfaThread.enrollment p s.data)⟩⟩ := by
  simp [Calls.next_advance ht, mfa, MfaThread.advance, MfaThread.finish, confirm_of_not_pending hlive hnone]

/-- **Confirming an enrollment.** In every run, the statement of a confirmation reports success or raises a
session only by enrolling what was checked, exactly when the factor is still pending at that moment. -/
theorem confirm_enrols_iff {s : Calls.State Db MfaThread} (hs : Reachable ((mfa lib).system Db.empty) s) {n : Nat}
    (ht : s.calls[n]? = some ⟨call, .confirming factor codes p⟩) :
    (∀ lost t, ((mfa lib).system Db.empty).next s (.advance n lost) = some t →
      ((∃ event, t.calls[n]? = some ⟨call, .ended (.ok (.confirmation codes)) event⟩) ∨
        ∃ sessionId session, Raises s.data t.data sessionId session) →
      Enrolls lib call factor codes p s.data t.data) ↔ StillPending factor p s.data := by
  obtain ⟨hlt, hget⟩ := List.getElem?_eq_some_iff.1 ht
  have hc : call.Confirms lib factor codes p :=
    ((mfa_upholds lib).each .empty hs).2 _ (List.mem_iff_getElem.2 ⟨n, hlt, hget⟩)
  constructor
  · intro h session user hlive
    by_contra hnone
    obtain ⟨-, session', user', row, hlive', hfind, hpending, hcipher, -⟩ :=
      h false _ (next_of_not_pending ht hlive (hc.ciphertext ▸ hnone)) (.inl ⟨_, List.getElem?_set_self hlt⟩)
    rw [hlive] at hlive'
    cases hlive'
    exact hnone ⟨row, hfind, hpending, hcipher⟩
  · intro hpending lost t hnext hsuccess
    rw [Calls.next_advance ht, Option.map_eq_some_iff] at hnext
    obtain ⟨⟨db', t'⟩, hadvance, rfl⟩ := hnext
    change MfaThread.advance lib lost s.data ⟨call, .confirming factor codes p⟩ = _ at hadvance
    obtain ⟨-, hstep⟩ := MfaThread.advance_cases hadvance
    generalize hphase : t'.phase = phase at hstep
    cases hstep with
    | fails e =>
      rcases hsuccess with ⟨event, hended⟩ | ⟨sessionId, session, hraises⟩
      · simp only [List.getElem?_set_self hlt, Option.some.injEq] at hended
        rw [hended] at hphase
        cases hphase
      · exact absurd hraises (not_raises_of_sessions rfl)
    | confirms h => exact enrolls_of_confirm hc hpending h

end Confirmations

/-- The first session's call is about to run its statement, and the factor is pending. -/
def confirmsInTime (s : Calls.State Db MfaThread) : Bool :=
  match (s.calls[1]? : Option MfaThread) with
  | some ⟨_, .confirming loaded _ p⟩ =>
    (s.data.liveSession p.sessionId p.nowMs).any fun (_, user) =>
      (s.data.totpFactors.find? user.userId).any fun factor =>
        decide (factor.enabledAtMs = none ∧ factor.secretCiphertext = loaded.ciphertext)
  | _ => false

/-- The first confirmation enrols, whether or not its answer gets lost. -/
theorem first_confirmation_enrols : ∃ s call factor codes p,
    Reachable ((mfa sampleMfaLibrary).system Db.empty) s ∧ s.calls[1]? = some ⟨call, .confirming factor codes p⟩ ∧
      StillPending factor p s.data ∧
      ∀ lost t, ((mfa sampleMfaLibrary).system Db.empty).next s (.advance 1 lost) = some t →
        ((∃ event, t.calls[1]? = some ⟨call, .ended (.ok (.confirmation codes)) event⟩) ∨
          ∃ sessionId session, Raises s.data t.data sessionId session) →
        Enrolls sampleMfaLibrary call factor codes p s.data t.data := by
  obtain ⟨s, hs, hp⟩ := exists_reachable_of_run ((mfa sampleMfaLibrary).system Db.empty)
    sampleEnrollments.dropLast.dropLast confirmsInTime (by decide +kernel)
  unfold confirmsInTime at hp
  split at hp
  · rename_i call factor codes p ht
    obtain ⟨⟨session, user⟩, hlive, hfactor⟩ := (Option.any_eq_true _ _).1 hp
    obtain ⟨row, hfind, hrow⟩ := (Option.any_eq_true _ _).1 hfactor
    have hpending : StillPending factor p s.data := by
      intro session' user' hlive'
      rw [hlive] at hlive'
      cases hlive'
      exact ⟨row, hfind, of_decide_eq_true hrow⟩
    exact ⟨s, call, factor, codes, p, hs, ht, hpending, (confirm_enrols_iff hs ht).2 hpending⟩
  · cases hp

/-- The second session's call is about to run its statement, and the factor is enabled. -/
def confirmsTooLate (s : Calls.State Db MfaThread) : Bool :=
  match (s.calls[2]? : Option MfaThread) with
  | some ⟨_, .confirming _ _ p⟩ =>
    (s.data.liveSession p.sessionId p.nowMs).any fun (session, user) =>
      decide (session.assurance = .aal1) &&
        (s.data.totpFactors.find? user.userId).any fun factor => factor.enabledAtMs.isSome
  | _ => false

/-- The second confirmation raises its session and returns codes, and has enabled and stored nothing. -/
theorem confirm_without_enrolling : ∃ s t call factor codes p event sessionId session,
    Reachable ((mfa sampleMfaLibrary).system Db.empty) s ∧ s.calls[2]? = some ⟨call, .confirming factor codes p⟩ ∧
      ((mfa sampleMfaLibrary).system Db.empty).next s (.advance 2 false) = some t ∧
      t.calls[2]? = some ⟨call, .ended (.ok (.confirmation codes)) event⟩ ∧
      Raises s.data t.data sessionId session ∧ t.data.totpFactors = s.data.totpFactors ∧
      t.data.recoveryCodes = s.data.recoveryCodes ∧ ¬ Enrolls sampleMfaLibrary call factor codes p s.data t.data := by
  obtain ⟨s, hs, hp⟩ := exists_reachable_of_run ((mfa sampleMfaLibrary).system Db.empty) sampleEnrollments
    confirmsTooLate (by decide +kernel)
  unfold confirmsTooLate at hp
  split at hp
  · rename_i call factor codes p ht
    obtain ⟨⟨session, user⟩, hlive, hfacts⟩ := (Option.any_eq_true _ _).1 hp
    obtain ⟨haal1, hfactor⟩ := Bool.and_eq_true_iff.1 hfacts
    obtain ⟨row, hfind, henabled⟩ := (Option.any_eq_true _ _).1 hfactor
    have hnone : ∀ row', s.data.totpFactors.find? user.userId = some row' → row'.enabledAtMs ≠ none := by
      intro row' hfind' hnone
      rw [hfind] at hfind'
      cases hfind'
      rw [hnone] at henabled
      cases henabled
    obtain ⟨hlt, -⟩ := List.getElem?_eq_some_iff.1 ht
    refine ⟨s, _, call, factor, codes, p, _, p.sessionId, session, hs, ht,
      next_of_not_pending ht hlive fun ⟨row', hfind', hpending, _⟩ => hnone row' hfind' hpending,
      List.getElem?_set_self hlt, .elevateSession (Db.liveSession_eq_some.1 hlive).1 (of_decide_eq_true haal1),
      rfl, rfl, ?_⟩
    rintro ⟨-, session', user', row', hlive', hfind', hpending, -⟩
    rw [hlive] at hlive'
    cases hlive'
    exact hnone row' hfind' hpending
  · cases hp

end WasiAuth
