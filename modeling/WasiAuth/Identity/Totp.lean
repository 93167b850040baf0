import WasiAuth.Identity.Values

/-! # TOTP and recovery codes

`mfa.rs` is authentication/mfa.rs here. HMAC and AES-GCM are parameters. `verifyTotp` checks a code against every step
of the skew window and returns the highest that matches (`verifyTotp_eq_ok`); what makes a step single use is the
statement that consumes it.
-/

namespace WasiAuth

open Relational

structure MfaLibrary where
  hmacSha1 : (key message : Bytes) → Fin 20 → UInt8
  hmacSha256 : (key message : Bytes) → Bytes
  encrypt : (key associatedData nonce plaintext : Bytes) → Option Bytes
  decrypt : (key associatedData nonce ciphertext : Bytes) → Option Bytes

/-- mfa.rs:26 -/
inductive MfaError
  | invalidCode | invalidSecret
deriving DecidableEq

/-- mfa.rs:54 -/
structure TotpConfig where
  periodSeconds : Nat
  digits : Nat
  allowedSkewSteps : Nat
  period : 15 ≤ periodSeconds ∧ periodSeconds ≤ 120
  width : 6 ≤ digits ∧ digits ≤ 8
  skew : allowedSkewSteps ≤ 2

/-! ## Time steps -/

/-- `step.to_be_bytes()`. -/
def stepBytes (step : Nat) : Bytes := (List.range 8).map fun i => UInt8.ofNat (step / 256 ^ (7 - i))

/-- The dynamic truncation of RFC 4226. -/
def truncatedDigest (digest : Fin 20 → UInt8) : Nat :=
  let offset := (digest 19).toNat % 16
  let byte (i : Nat) := (digest (Fin.ofNat 20 (offset + i))).toNat
  byte 0 % 128 * 2 ^ 24 + byte 1 * 2 ^ 16 + byte 2 * 2 ^ 8 + byte 3

/-- A number below `10 ^ width`, padded with zeros. -/
def paddedDecimal (value width : Nat) : List Char :=
  (List.range width).map fun i => Nat.digitChar (value / 10 ^ (width - 1 - i) % 10)

/-- mfa.rs:335 -/
def verifyTotpStep (lib : MfaLibrary) (secret : Bytes) (code : String) (digits step : Nat) : Bool :=
  decide (code.toList = paddedDecimal (truncatedDigest (lib.hmacSha1 secret (stepBytes step)) % 10 ^ digits) digits)

/-- `matched_step.map_or(candidate, |current| current.max(candidate))`. -/
def orHigher (matched : Option Nat) (candidate : Nat) : Option Nat := some (matched.elim candidate (max · candidate))

/-- One round of the loop: the steps `offset` before and after `step`, if there are such. -/
def matchOffset (check : Nat → Bool) (step : Nat) (matched : Option Nat) (offset : Nat) : Option Nat :=
  let matched := if offset ≤ step ∧ check (step - offset) = true then orHigher matched (step - offset) else matched
  if (offset ≠ 0 ∧ step + offset < 2 ^ 64) ∧ check (step + offset) = true then orHigher matched (step + offset)
  else matched

/-- mfa.rs:272 -/
def verifyTotp (lib : MfaLibrary) (secret : Bytes) (code : String) (unixSeconds : Nat) (config : TotpConfig) :
    Except MfaError (Option Nat) :=
  if secret.length < 16 then .error .invalidSecret
  else if code.utf8ByteSize ≠ config.digits ∨ code.toList.all Char.isDigit = false then .error .invalidCode
  else
    let step := unixSeconds / config.periodSeconds
    .ok ((List.range (config.allowedSkewSteps + 1)).foldl
      (matchOffset (verifyTotpStep lib secret code config.digits) step) none)

section Window

variable {check : Nat → Bool} {step : Nat}

/-- The steps the loop has tried after `n` rounds. -/
def InWindow (step n candidate : Nat) : Prop :=
  ∃ offset < n, offset ≤ step ∧ candidate = step - offset ∨ candidate = step + offset ∧ candidate < 2 ^ 64

/-- `matched` is the highest candidate that passes. -/
structure IsHighest (check : Nat → Bool) (Candidate : Nat → Prop) (matched : Option Nat) : Prop where
  passes : ∀ m ∈ matched, Candidate m ∧ check m = true
  highest : ∀ m, Candidate m → check m = true → ∃ m' ∈ matched, m ≤ m'

theorem IsHighest.consider {Candidate Candidate' : Nat → Prop} {matched : Option Nat} {p : Prop} [Decidable p]
    {candidate : Nat} (h : IsHighest check Candidate matched)
    (hc : ∀ m, Candidate' m ↔ Candidate m ∨ p ∧ m = candidate) :
    IsHighest check Candidate' (if p ∧ check candidate = true then orHigher matched candidate else matched) := by
  split
  · rename_i hpass
    have hcandidate : Candidate' candidate := (hc candidate).2 (.inr ⟨hpass.1, rfl⟩)
    cases matched with
    | none =>
      refine ⟨fun m hm => ?_, fun m hm hcheck => ⟨candidate, rfl, ?_⟩⟩
      · obtain rfl : candidate = m := by simpa [orHigher] using hm
        exact ⟨hcandidate, hpass.2⟩
      · rcases (hc m).1 hm with hm | ⟨-, rfl⟩
        · obtain ⟨m', hm', -⟩ := h.highest m hm hcheck
          cases hm'
        · exact le_rfl
    | some best =>
      obtain ⟨hbest, hbestPass⟩ := h.passes best rfl
      refine ⟨fun m hm => ?_, fun m hm hcheck => ⟨max best candidate, rfl, ?_⟩⟩
      · obtain rfl : max best candidate = m := by simpa [orHigher] using hm
        rcases max_choice best candidate with he | he <;> rw [he]
        · exact ⟨(hc best).2 (.inl hbest), hbestPass⟩
        · exact ⟨hcandidate, hpass.2⟩
      · rcases (hc m).1 hm with hm | ⟨-, rfl⟩
        · obtain ⟨m', hm', hle⟩ := h.highest m hm hcheck
          cases hm'
          exact hle.trans (le_max_left _ _)
        · exact le_max_right _ _
  · rename_i hfail
    refine ⟨fun m hm => ⟨(hc m).2 (.inl (h.passes m hm).1), (h.passes m hm).2⟩, fun m hm hcheck => ?_⟩
    rcases (hc m).1 hm with hm | ⟨hp, rfl⟩
    · exact h.highest m hm hcheck
    · exact absurd ⟨hp, hcheck⟩ hfail

theorem IsHighest.matchOffset {n : Nat} {matched : Option Nat} (h : IsHighest check (InWindow step n) matched) :
    IsHighest check (InWindow step (n + 1)) (matchOffset check step matched n) := by
  have hbefore : IsHighest check (fun m => InWindow step n m ∨ n ≤ step ∧ m = step - n) _ :=
    h.consider fun _ => Iff.rfl
  refine hbefore.consider fun m => ?_
  constructor
  · rintro ⟨offset, hlt, hm⟩
    rcases Nat.lt_succ_iff_lt_or_eq.1 hlt with hlt | rfl
    · exact .inl (.inl ⟨offset, hlt, hm⟩)
    · rcases hm with hm | ⟨rfl, hm⟩
      · exact .inl (.inr hm)
      · -- the step itself counts as the one before
        by_cases h0 : offset = 0
        · exact .inl (.inr (by omega))
        · exact .inr ⟨⟨h0, hm⟩, rfl⟩
  · rintro ((⟨offset, hlt, hm⟩ | hm) | ⟨⟨-, hlt⟩, rfl⟩)
    · exact ⟨offset, by omega, hm⟩
    · exact ⟨n, by omega, .inl hm⟩
    · exact ⟨n, by omega, .inr ⟨rfl, hlt⟩⟩

theorem isHighest_foldl : ∀ n : Nat,
    IsHighest check (InWindow step n) ((List.range n).foldl (matchOffset check step) none)
  | 0 => ⟨fun _ h => (by cases h), fun _ ⟨_, hlt, _⟩ => absurd hlt (Nat.not_lt_zero _)⟩
  | n + 1 => by
    rw [List.range_succ, List.foldl_append]
    exact (isHighest_foldl n).matchOffset

/-- `verify_totp` returns the highest step of the window whose code was given. -/
theorem verifyTotp_eq_ok {lib : MfaLibrary} {secret : Bytes} {code : String} {unixSeconds : Nat} {config : TotpConfig}
    {matched : Option Nat} (h : verifyTotp lib secret code unixSeconds config = .ok matched) :
    IsHighest (verifyTotpStep lib secret code config.digits)
      (InWindow (unixSeconds / config.periodSeconds) (config.allowedSkewSteps + 1)) matched := by
  unfold verifyTotp at h
  split at h
  · cases h
  · split at h
    · cases h
    · cases h
      exact isHighest_foldl _

end Window

/-! ## Recovery codes -/

def base32Alphabet : List Char := "ABCDEFGHIJKLMNOPQRSTUVWXYZ234567".toList

/-- The locals of `encode_base32`. -/
structure Base32State where
  accumulator : Nat
  bitCount : Nat
  output : List Char

namespace Base32State

def emit (s : Base32State) (index : Nat) : List Char := s.output ++ [base32Alphabet.getD (index % 32) 'A']

/-- `while bit_count >= 5`, for at most `rounds` rounds. -/
def drain : (rounds : Nat) → Base32State → Base32State
  | 0, s => s
  | rounds + 1, s =>
    if 5 ≤ s.bitCount then
      drain rounds
        { s with bitCount := s.bitCount - 5, output := s.emit (s.accumulator / 2 ^ (s.bitCount - 5)) }
    else s

/-- One byte; at most four bits are left from the one before, so there are at most two rounds. -/
def push (s : Base32State) (byte : UInt8) : Base32State :=
  drain 2 { s with accumulator := (s.accumulator * 2 ^ 8 + byte.toNat) % 2 ^ 32, bitCount := s.bitCount + 8 }

end Base32State

/-- mfa.rs:361 -/
def encodeBase32 (bytes : Bytes) : List Char :=
  let s := bytes.foldl Base32State.push ⟨0, 0, []⟩
  if 0 < s.bitCount then s.emit (s.accumulator * 2 ^ (5 - s.bitCount)) else s.output

/-- `chunks(4)`. -/
def chunksOfFour : List Char → List (List Char)
  | [] => []
  | a :: b :: c :: d :: rest => [a, b, c, d] :: chunksOfFour rest
  | rest => [rest]

/-- `RecoveryCode::generate`, from the bytes it has drawn. -/
def generateRecoveryCode (bytes : Bytes) : String :=
  String.ofList (List.intercalate ['-'] (chunksOfFour (encodeBase32 bytes)))

-- the vector of the source's own test
example : generateRecoveryCode [0, 1, 2, 3, 4, 5, 6, 7, 8, 9] = "AAAQ-EAYE-AUDA-OCAJ" := by decide +kernel

/-- mfa.rs:349 -/
def normalizeRecoveryCode (code : String) : Except MfaError (List Char) :=
  let normalized := (code.toList.filter fun c => c ≠ '-' && !isAsciiWhitespace c).map Char.toUpper
  if normalized.length ≠ 16 ∨ normalized.all (fun c => base32Alphabet.contains c) = false then .error .invalidCode
  else .ok normalized

/-- mfa.rs:310 -/
def hashRecoveryCode (lib : MfaLibrary) (pepper : Bytes) (code : String) : Except MfaError Bytes :=
  if pepper.length < 16 then .error .invalidSecret
  else do
    let normalized ← normalizeRecoveryCode code
    pure (lib.hmacSha256 pepper (utf8Bytes (String.ofList normalized)))

/-! ## Keys and the provisioning text -/

/-- postgres/mfa.rs:35 -/
structure MfaKeyMaterial where
  version : String
  encryptionKey : Bytes
  recoveryPepper : Bytes
  validVersion : (decide (version ≠ "") && decide (version.utf8ByteSize ≤ 128) && !version.toList.any isControl) = true
  keyLength : encryptionKey.length = 32
  pepperLength : 16 ≤ recoveryPepper.length ∧ recoveryPepper.length ≤ 1024

/-- The row of `load_totp_factor.sql`. -/
structure LoadedFactor where
  userId : String
  keyVersion : String
  ciphertext : Bytes
  enabled : Bool

/-- postgres/mfa.rs:546 -/
def factorAad (userId : String) : Bytes := utf8Bytes "wasi-auth:totp:v1:" ++ utf8Bytes userId

namespace MfaKeyMaterial

variable (lib : MfaLibrary) (keys : MfaKeyMaterial)

/-- postgres/mfa.rs:69 -/
def encrypt (userId : String) (nonce : Nonce) (secret : Bytes) : Option Bytes :=
  sealWith (lib.encrypt keys.encryptionKey (factorAad userId)) nonce secret

/-- postgres/mfa.rs:91 -/
def decrypt (factor : LoadedFactor) : Option Bytes :=
  if factor.keyVersion ≠ keys.version then none
  else openWith (lib.decrypt keys.encryptionKey (factorAad factor.userId)) factor.ciphertext

end MfaKeyMaterial

/-- A byte as `%` and two upper-case hexadecimal digits. -/
def percentByte (byte : UInt8) : List Char :=
  let digit (n : Nat) := (Nat.digitChar n).toUpper
  ['%', digit (byte.toNat / 16), digit (byte.toNat % 16)]

/-- mfa.rs:381 -/
def percentEncode (value : String) : String :=
  String.ofList ((utf8Bytes value).flatMap fun byte =>
    let c := Char.ofNat byte.toNat
    if byte < 128 ∧ (c.isAlphanum || c = '-' || c = '.' || c = '_' || c = '~') = true then [c] else percentByte byte)

/-- mfa.rs:246 -/
def provisioningUri (issuer account : String) (secret : Bytes) (config : TotpConfig) : Except MfaError String :=
  if trim issuer = "" ∨ trim account = "" then .error .invalidCode
  else
    let issuer := percentEncode (trim issuer)
    .ok ("otpauth://totp/" ++ issuer ++ ":" ++ percentEncode (trim account) ++ "?secret=" ++
      String.ofList (encodeBase32 secret) ++ "&issuer=" ++ issuer ++ "&algorithm=SHA1&digits=" ++
      toString config.digits ++ "&period=" ++ toString config.periodSeconds)

end WasiAuth
