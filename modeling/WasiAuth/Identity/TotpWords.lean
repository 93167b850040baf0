import WasiAuth.Identity.Totp

/-! # TOTP in machine words

`verifyTotp` counts in natural numbers. Here `verify_totp` and `verify_totp_step` (authentication/mfa.rs 272-303,
335-347) stand with the `u8`, `u32` and `u64` of the source. `none` is where the source would panic or lose bits: an
index past the end of the digest, or a power of ten that does not fit. For a configuration the validator accepts there
is no such case, and the two agree (`verifyTotpWords_eq`).
-/

namespace WasiAuth

/-- `u64::checked_sub`. -/
def checkedSub (a b : UInt64) : Option UInt64 := if b ≤ a then some (a - b) else none

/-- `u64::checked_add`. -/
def checkedAdd (a b : UInt64) : Option UInt64 := if a.toNat + b.toNat < 2 ^ 64 then some (a + b) else none

/-- `10_u32.pow(digits)`. -/
def tenPow (digits : UInt32) : Option UInt32 :=
  if 10 ^ digits.toNat < 2 ^ 32 then some (UInt32.ofNat (10 ^ digits.toNat)) else none

/-- `digest[i]`. -/
def digestByte (digest : Fin 20 → UInt8) (i : Nat) : Option UInt8 := if h : i < 20 then some (digest ⟨i, h⟩) else none

/-- mfa.rs:335; an index out of range panics, which is `none`. -/
def verifyTotpStepWords (lib : MfaLibrary) (secret : Bytes) (code : String) (digits : UInt32) (step : UInt64) :
    Option Bool := do
  let digest := lib.hmacSha1 secret (stepBytes step.toNat)
  let last ← digestByte digest (20 - 1)
  let offset := (last &&& 0x0f).toNat
  let byte0 ← digestByte digest offset
  let byte1 ← digestByte digest (offset + 1)
  let byte2 ← digestByte digest (offset + 2)
  let byte3 ← digestByte digest (offset + 3)
  let binary : UInt32 :=
    (byte0 &&& 0x7f).toUInt32 <<< 24 ||| byte1.toUInt32 <<< 16 ||| byte2.toUInt32 <<< 8 ||| byte3.toUInt32
  let modulus ← tenPow digits
  let value := binary % modulus
  pure (decide (code.toList = paddedDecimal value.toNat digits.toNat))

/-- `u64::max`. -/
def higherStep (current candidate : UInt64) : UInt64 := if current ≤ candidate then candidate else current

/-- mfa.rs:288-293, for one candidate. -/
def considerStep (check : UInt64 → Option Bool) (matched candidate : Option UInt64) : Option (Option UInt64) :=
  match candidate with
  | none => pure matched
  | some candidate => do
    let passes ← check candidate
    pure (if passes then some (matched.elim candidate (higherStep · candidate)) else matched)

def matchOffsetWords (check : UInt64 → Option Bool) (step : UInt64) (matched : Option UInt64) (offset : UInt64) :
    Option (Option UInt64) := do
  let matched ← considerStep check matched (checkedSub step offset)
  considerStep check matched (if offset ≠ 0 then checkedAdd step offset else none)

/-- mfa.rs:272 -/
def verifyTotpWords (lib : MfaLibrary) (secret : Bytes) (code : String) (unixSeconds : UInt64) (config : TotpConfig) :
    Option (Except MfaError (Option UInt64)) :=
  if secret.length < 16 then some (.error .invalidSecret)
  else if code.utf8ByteSize ≠ config.digits ∨ code.toList.all Char.isDigit = false then some (.error .invalidCode)
  else do
    let step := unixSeconds / UInt64.ofNat config.periodSeconds
    let check := verifyTotpStepWords lib secret code (UInt32.ofNat config.digits)
    let matched ← ((List.range (config.allowedSkewSteps + 1)).map UInt64.ofNat).foldlM (matchOffsetWords check step) none
    pure (.ok matched)

/-! ## The code of a step -/

theorem toNat_shiftLeft {a : UInt32} {k : UInt32} (hk : k.toNat < 32) (ha : a.toNat * 2 ^ k.toNat < 2 ^ 32) :
    (a <<< k).toNat = a.toNat <<< k.toNat := by
  rw [UInt32.toNat_shiftLeft, Nat.mod_eq_of_lt hk, Nat.mod_eq_of_lt (by rwa [Nat.shiftLeft_eq])]

theorem toNat_packed (b₀ b₁ b₂ b₃ : UInt8) :
    ((b₀ &&& 0x7f).toUInt32 <<< 24 ||| b₁.toUInt32 <<< 16 ||| b₂.toUInt32 <<< 8 ||| b₃.toUInt32 : UInt32).toNat =
      b₀.toNat % 128 * 2 ^ 24 + b₁.toNat * 2 ^ 16 + b₂.toNat * 2 ^ 8 + b₃.toNat := by
  have h₁ := b₁.toNat_lt
  have h₂ := b₂.toNat_lt
  have h₃ := b₃.toNat_lt
  have hmask : (b₀ &&& 0x7f).toUInt32.toNat = b₀.toNat % 128 := Nat.and_two_pow_sub_one_eq_mod b₀.toNat 7
  have hlow : b₂.toNat <<< 8 ||| b₃.toNat = b₂.toNat * 2 ^ 8 + b₃.toNat := by
    rw [← Nat.shiftLeft_add_eq_or_of_lt h₃, Nat.shiftLeft_eq]
  have hmid : b₁.toNat <<< 16 ||| (b₂.toNat * 2 ^ 8 + b₃.toNat) =
      b₁.toNat * 2 ^ 16 + (b₂.toNat * 2 ^ 8 + b₃.toNat) := by
    rw [← Nat.shiftLeft_add_eq_or_of_lt (by omega), Nat.shiftLeft_eq]
  have hhigh : (b₀.toNat % 128) <<< 24 ||| (b₁.toNat * 2 ^ 16 + (b₂.toNat * 2 ^ 8 + b₃.toNat)) =
      b₀.toNat % 128 * 2 ^ 24 + (b₁.toNat * 2 ^ 16 + (b₂.toNat * 2 ^ 8 + b₃.toNat)) := by
    rw [← Nat.shiftLeft_add_eq_or_of_lt (by omega), Nat.shiftLeft_eq]
  have hk₀ : (24 : UInt32).toNat = 24 := rfl
  have hk₁ : (16 : UInt32).toNat = 16 := rfl
  have hk₂ : (8 : UInt32).toNat = 8 := rfl
  have hshift₀ : ((b₀ &&& 0x7f).toUInt32 <<< 24).toNat = (b₀.toNat % 128) <<< 24 := by
    rw [toNat_shiftLeft (by decide) (by rw [hmask, hk₀]; omega), hmask, hk₀]
  have hshift₁ : (b₁.toUInt32 <<< 16).toNat = b₁.toNat <<< 16 := by
    rw [toNat_shiftLeft (by decide) (by rw [UInt8.toNat_toUInt32, hk₁]; omega), UInt8.toNat_toUInt32, hk₁]
  have hshift₂ : (b₂.toUInt32 <<< 8).toNat = b₂.toNat <<< 8 := by
    rw [toNat_shiftLeft (by decide) (by rw [UInt8.toNat_toUInt32, hk₂]; omega), UInt8.toNat_toUInt32, hk₂]
  rw [UInt32.toNat_or, UInt32.toNat_or, UInt32.toNat_or, hshift₀, hshift₁, hshift₂, UInt8.toNat_toUInt32,
    Nat.or_assoc, Nat.or_assoc, hlow, hmid, hhigh]
  omega

theorem digestByte_eq {digest : Fin 20 → UInt8} {i : Nat} (hi : i < 20) :
    digestByte digest i = some (digest (Fin.ofNat 20 i)) := by
  rw [digestByte, dif_pos hi]
  congr 2
  exact Fin.ext (Nat.mod_eq_of_lt hi).symm

theorem toNat_ofNat_word {n : Nat} (hn : n < 2 ^ 32) : (UInt32.ofNat n).toNat = n := by
  rw [UInt32.toNat_ofNat', Nat.mod_eq_of_lt hn]

theorem tenPow_eq {digits : Nat} (hdigits : digits ≤ 8) :
    ∃ modulus, tenPow (UInt32.ofNat digits) = some modulus ∧ modulus.toNat = 10 ^ digits := by
  have hpow : 10 ^ digits ≤ 10 ^ 8 := Nat.pow_le_pow_right (by decide) hdigits
  refine ⟨UInt32.ofNat (10 ^ digits), ?_, toNat_ofNat_word (by omega)⟩
  rw [tenPow, toNat_ofNat_word (by omega), if_pos (by omega)]

theorem verifyTotpStepWords_eq (lib : MfaLibrary) (secret : Bytes) (code : String) {digits : Nat} (hdigits : digits ≤ 8)
    (step : UInt64) : verifyTotpStepWords lib secret code (UInt32.ofNat digits) step =
      some (verifyTotpStep lib secret code digits step.toNat) := by
  obtain ⟨modulus, hmodulus, hpow⟩ := tenPow_eq hdigits
  let digest := lib.hmacSha1 secret (stepBytes step.toNat)
  have hoffset : (digest 19 &&& 0x0f).toNat = (digest 19).toNat % 16 :=
    Nat.and_two_pow_sub_one_eq_mod (digest 19).toNat 4
  have hbyte : ∀ k < 4, digestByte digest ((digest 19).toNat % 16 + k) =
      some (digest (Fin.ofNat 20 ((digest 19).toNat % 16 + k))) := fun k hk =>
    digestByte_eq (by have := Nat.mod_lt (digest 19).toNat (by decide : 16 > 0); omega)
  have hlast : digestByte digest (20 - 1) = some (digest 19) := rfl
  show (do
    let last ← digestByte digest (20 - 1)
    let byte0 ← digestByte digest (last &&& 0x0f).toNat
    let byte1 ← digestByte digest ((last &&& 0x0f).toNat + 1)
    let byte2 ← digestByte digest ((last &&& 0x0f).toNat + 2)
    let byte3 ← digestByte digest ((last &&& 0x0f).toNat + 3)
    let modulus ← tenPow (UInt32.ofNat digits)
    pure (decide (code.toList = paddedDecimal (((byte0 &&& 0x7f).toUInt32 <<< 24 ||| byte1.toUInt32 <<< 16 |||
      byte2.toUInt32 <<< 8 ||| byte3.toUInt32) % modulus : UInt32).toNat (UInt32.ofNat digits).toNat))) = _
  have hfirst : digestByte digest ((digest 19).toNat % 16) = some (digest (Fin.ofNat 20 ((digest 19).toNat % 16 + 0))) :=
    hbyte 0 (by decide)
  simp only [hlast, hoffset, hfirst, hbyte 1 (by decide), hbyte 2 (by decide), hbyte 3 (by decide), hmodulus,
    Option.bind_eq_bind, Option.bind_some, Option.pure_def, UInt32.toNat_mod, toNat_packed, hpow,
    toNat_ofNat_word (by omega : digits < 2 ^ 32)]
  rfl

/-! ## The window -/

section Window
variable {check : UInt64 → Option Bool} {check' : Nat → Bool} (step : UInt64)

theorem toNat_higherStep (a b : UInt64) : (higherStep a b).toNat = max a.toNat b.toNat := by
  rw [higherStep]
  by_cases h : a ≤ b
  · rw [if_pos h, max_eq_right (UInt64.le_iff_toNat_le.1 h)]
  · rw [if_neg h, max_eq_left (Nat.le_of_not_le (mt UInt64.le_iff_toNat_le.2 h))]

/-- A candidate in words and the same candidate, under its condition, in numbers. -/
theorem considerStep_eq (hcheck : ∀ word : UInt64, check word = some (check' word.toNat)) {p : Prop} [Decidable p]
    {candidate : Option UInt64} {number : Nat} (hsome : p → ∃ word, candidate = some word ∧ word.toNat = number)
    (hnone : ¬ p → candidate = none) (matched : Option UInt64) :
    ∃ next, considerStep check matched candidate = some next ∧ next.map UInt64.toNat =
      if p ∧ check' number = true then orHigher (matched.map UInt64.toNat) number else matched.map UInt64.toNat := by
  by_cases hp : p
  · obtain ⟨word, rfl, rfl⟩ := hsome hp
    by_cases hpasses : check' word.toNat = true
    · refine ⟨some (matched.elim word (higherStep · word)), ?_, ?_⟩
      · simp [considerStep, hcheck, hpasses]
      · rw [if_pos ⟨hp, hpasses⟩, orHigher]
        cases matched with
        | none => rfl
        | some best => simp [toNat_higherStep]
    · refine ⟨matched, ?_, ?_⟩
      · simp [considerStep, hcheck, hpasses]
      · rw [if_neg fun h => hpasses h.2]
  · refine ⟨matched, ?_, ?_⟩
    · rw [hnone hp]
      rfl
    · rw [if_neg fun h => hp h.1]

theorem checkedSub_some (offset : UInt64) (h : offset.toNat ≤ step.toNat) :
    ∃ word, checkedSub step offset = some word ∧ word.toNat = step.toNat - offset.toNat := by
  have hle : offset ≤ step := UInt64.le_iff_toNat_le.2 h
  exact ⟨step - offset, if_pos hle, UInt64.toNat_sub_of_le _ _ hle⟩

theorem checkedSub_none (offset : UInt64) (h : ¬ offset.toNat ≤ step.toNat) : checkedSub step offset = none :=
  if_neg (mt UInt64.le_iff_toNat_le.1 h)

theorem checkedAdd_some (offset : UInt64) (h : offset.toNat ≠ 0 ∧ step.toNat + offset.toNat < 2 ^ 64) :
    ∃ word, (if offset ≠ 0 then checkedAdd step offset else none) = some word ∧
      word.toNat = step.toNat + offset.toNat := by
  have hoffset : offset ≠ 0 := fun h0 => h.1 (by rw [h0]; rfl)
  refine ⟨step + offset, by rw [if_pos hoffset, checkedAdd, if_pos h.2], ?_⟩
  rw [UInt64.toNat_add, Nat.mod_eq_of_lt h.2]

theorem checkedAdd_none (offset : UInt64) (h : ¬ (offset.toNat ≠ 0 ∧ step.toNat + offset.toNat < 2 ^ 64)) :
    (if offset ≠ 0 then checkedAdd step offset else none) = none := by
  by_cases hoffset : offset ≠ 0
  · have hnat : offset.toNat ≠ 0 := fun h0 => hoffset (UInt64.toNat_inj.1 h0)
    rw [if_pos hoffset, checkedAdd, if_neg fun hlt => h ⟨hnat, hlt⟩]
  · rw [if_neg hoffset]

theorem matchOffsetWords_eq (hcheck : ∀ word : UInt64, check word = some (check' word.toNat)) (matched : Option UInt64)
    (offset : UInt64) : ∃ next, matchOffsetWords check step matched offset = some next ∧
      next.map UInt64.toNat = matchOffset check' step.toNat (matched.map UInt64.toNat) offset.toNat := by
  obtain ⟨before, hbefore, hbeforeEq⟩ := considerStep_eq hcheck (checkedSub_some step offset)
    (checkedSub_none step offset) matched
  obtain ⟨after, hafter, hafterEq⟩ := considerStep_eq hcheck (checkedAdd_some step offset)
    (checkedAdd_none step offset) before
  refine ⟨after, ?_, ?_⟩
  · rw [matchOffsetWords, hbefore]
    exact hafter
  · rw [hafterEq, hbeforeEq]
    rfl

theorem foldlM_matchOffsetWords (hcheck : ∀ word : UInt64, check word = some (check' word.toNat)) :
    ∀ (offsets : List UInt64) (matched : Option UInt64), ∃ next,
      offsets.foldlM (matchOffsetWords check step) matched = some next ∧
      next.map UInt64.toNat =
        (offsets.map UInt64.toNat).foldl (matchOffset check' step.toNat) (matched.map UInt64.toNat)
  | [], matched => ⟨matched, rfl, rfl⟩
  | offset :: offsets, matched => by
    obtain ⟨mid, hmid, hmidEq⟩ := matchOffsetWords_eq step hcheck matched offset
    obtain ⟨next, hnext, hnextEq⟩ := foldlM_matchOffsetWords hcheck offsets mid
    refine ⟨next, ?_, ?_⟩
    · rw [List.foldlM_cons, hmid]
      exact hnext
    · rw [hnextEq, hmidEq]
      rfl

end Window

theorem verifyTotpWords_eq (lib : MfaLibrary) (secret : Bytes) (code : String) (unixSeconds : UInt64)
    (config : TotpConfig) :
    ∃ outcome, verifyTotpWords lib secret code unixSeconds config = some outcome ∧
      outcome.map (Option.map UInt64.toNat) = verifyTotp lib secret code unixSeconds.toNat config := by
  rw [verifyTotpWords, verifyTotp]
  by_cases hsecret : secret.length < 16
  · rw [if_pos hsecret, if_pos hsecret]
    exact ⟨_, rfl, rfl⟩
  by_cases hcode : code.utf8ByteSize ≠ config.digits ∨ code.toList.all Char.isDigit = false
  · rw [if_neg hsecret, if_neg hsecret, if_pos hcode, if_pos hcode]
    exact ⟨_, rfl, rfl⟩
  rw [if_neg hsecret, if_neg hsecret, if_neg hcode, if_neg hcode]
  have hperiod : (UInt64.ofNat config.periodSeconds).toNat = config.periodSeconds := by
    have := config.period
    rw [UInt64.toNat_ofNat', Nat.mod_eq_of_lt (by omega)]
  have hstep : (unixSeconds / UInt64.ofNat config.periodSeconds).toNat = unixSeconds.toNat / config.periodSeconds := by
    rw [UInt64.toNat_div, hperiod]
  have hoffsets : ((List.range (config.allowedSkewSteps + 1)).map UInt64.ofNat).map UInt64.toNat =
      List.range (config.allowedSkewSteps + 1) := by
    rw [List.map_map, List.map_congr_left (g := id), List.map_id]
    intro n hn
    have hlt := List.mem_range.1 hn
    have hskew := config.skew
    rw [Function.comp_apply, UInt64.toNat_ofNat', Nat.mod_eq_of_lt (by omega), id]
  obtain ⟨matched, hrun, heq⟩ := foldlM_matchOffsetWords (unixSeconds / UInt64.ofNat config.periodSeconds)
    (verifyTotpStepWords_eq lib secret code config.width.2)
    ((List.range (config.allowedSkewSteps + 1)).map UInt64.ofNat) none
  refine ⟨.ok matched, ?_, ?_⟩
  · simp only [hrun]
    rfl
  · rw [hoffsets, hstep] at heq
    exact congrArg Except.ok heq

theorem inWindow_iff {step skew candidate : Nat} (hstep : step < 2 ^ 64) :
    InWindow step (skew + 1) candidate ↔
      step ≤ candidate + skew ∧ candidate ≤ step + skew ∧ candidate < 2 ^ 64 := by
  constructor
  · rintro ⟨offset, hlt, ⟨hle, rfl⟩ | ⟨rfl, hword⟩⟩
    · omega
    · omega
  · rintro ⟨hlow, hhigh, hword⟩
    by_cases hle : candidate ≤ step
    · exact ⟨step - candidate, by omega, .inl (by omega)⟩
    · exact ⟨candidate - step, by omega, .inr (by omega)⟩

/-- A well-formed code is answered with the largest step of the window that has it, if there is one, and nothing in the
computation overflows. -/
theorem verifyTotpWords_highest (lib : MfaLibrary) (secret : Bytes) (hsecret : 16 ≤ secret.length) (code : String)
    (config : TotpConfig) (hlength : code.utf8ByteSize = config.digits) (hdigits : code.toList.all Char.isDigit = true)
    (unixSeconds : UInt64) :
    let step := unixSeconds.toNat / config.periodSeconds
    let Matches (candidate : UInt64) : Prop :=
      step ≤ candidate.toNat + config.allowedSkewSteps ∧ candidate.toNat ≤ step + config.allowedSkewSteps ∧
        verifyTotpStep lib secret code config.digits candidate.toNat = true
    ∃ matched, verifyTotpWords lib secret code unixSeconds config = some (.ok matched) ∧
      (∀ m ∈ matched, Matches m ∧ ∀ candidate, Matches candidate → candidate ≤ m) ∧
      (matched = none ↔ ∀ candidate, ¬ Matches candidate) := by
  intro step Matches
  have hstep : step < 2 ^ 64 := (Nat.div_le_self _ _).trans_lt unixSeconds.toNat_lt
  obtain ⟨outcome, hrun, heq⟩ := verifyTotpWords_eq lib secret code unixSeconds config
  obtain ⟨numbers, hok⟩ : ∃ numbers, verifyTotp lib secret code unixSeconds.toNat config = .ok numbers := by
    rw [verifyTotp, if_neg (by omega), if_neg (by simp [hlength, hdigits])]
    exact ⟨_, rfl⟩
  have hhighest := verifyTotp_eq_ok hok
  rw [hok] at heq
  rcases outcome with _ | matched
  · cases heq
  obtain rfl := Except.ok.inj heq
  have hmatches : ∀ candidate : UInt64, Matches candidate ↔
      InWindow step (config.allowedSkewSteps + 1) candidate.toNat ∧
        verifyTotpStep lib secret code config.digits candidate.toNat = true := by
    intro candidate
    rw [inWindow_iff hstep]
    have hword := candidate.toNat_lt
    exact ⟨fun h => ⟨⟨h.1, h.2.1, hword⟩, h.2.2⟩, fun h => ⟨h.1.1, h.1.2.1, h.2⟩⟩
  have hupper : ∀ candidate, Matches candidate → ∃ m ∈ matched, candidate ≤ m := by
    intro candidate hc
    obtain ⟨number, hnumber, hle⟩ := hhighest.highest _ ((hmatches candidate).1 hc).1 ((hmatches candidate).1 hc).2
    obtain ⟨m, hm, rfl⟩ := Option.map_eq_some_iff.1 hnumber
    exact ⟨m, hm, UInt64.le_iff_toNat_le.2 hle⟩
  have hpasses : ∀ m ∈ matched, Matches m := by
    intro m hm
    exact (hmatches m).2 (hhighest.passes m.toNat (Option.map_eq_some_iff.2 ⟨m, hm, rfl⟩))
  refine ⟨matched, hrun, fun m hm => ⟨hpasses m hm, fun candidate hc => ?_⟩, fun hnone candidate hc => ?_, fun h => ?_⟩
  · obtain ⟨m', hm', hle⟩ := hupper candidate hc
    obtain rfl : m' = m := Option.mem_unique hm' hm
    exact hle
  · obtain ⟨m, hm, -⟩ := hupper candidate hc
    rw [hnone] at hm
    cases hm
  · cases matched with
    | none => rfl
    | some m => exact absurd (hpasses m rfl) (h m)

theorem totpDefault_period : 15 ≤ 30 ∧ 30 ≤ 120 := by decide

theorem totpDefault_width : 6 ≤ 6 ∧ 6 ≤ 8 := by decide

theorem totpDefault_skew : 1 ≤ 2 := by decide

/-- `TotpConfig::default`. -/
def totpDefault : TotpConfig := ⟨30, 6, 1, totpDefault_period, totpDefault_width, totpDefault_skew⟩

def zeroLibrary : MfaLibrary := ⟨fun _ _ _ => 0, fun _ _ => [], fun _ _ _ _ => none, fun _ _ _ _ => none⟩

/-- Every step has the code, and the last of the window is returned. -/
theorem verifyTotpWords_zeros :
    verifyTotpWords zeroLibrary (List.replicate 16 0) "000000" 59 totpDefault = some (.ok (some 2)) ∧
    ∀ candidate : UInt64, 1 ≤ candidate.toNat + 1 ∧ candidate.toNat ≤ 1 + 1 ∧
      verifyTotpStep zeroLibrary (List.replicate 16 0) "000000" 6 candidate.toNat = true → candidate ≤ 2 := by
  have hresult : verifyTotpWords zeroLibrary (List.replicate 16 0) "000000" 59 totpDefault = some (.ok (some 2)) := by
    decide +kernel
  obtain ⟨matched, hrun, hhighest, -⟩ := verifyTotpWords_highest zeroLibrary (List.replicate 16 0) (by simp)
    "000000" totpDefault (by decide +kernel) (by decide +kernel) 59
  obtain rfl := Except.ok.inj (Option.some.inj (hrun.symm.trans hresult))
  exact ⟨hresult, (hhighest 2 rfl).2⟩

end WasiAuth
