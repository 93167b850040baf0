import WasiAuth.Base.Base32
import WasiAuth.Identity.Totp

/-! # Recovery codes

`encode_base32` (authentication/mfa.rs 363-380) shifts bytes through a `u32` and takes five bits at a time from its
end. `Holds` says which bits the state stands for: those written and the `bit_count` pending ones. At most twelve are
pending, so nothing is lost at the top of the accumulator, and the text is that of RFC 4648 (`encodeBase32_eq`).

A code of ten bytes can be typed with its letters in either case and with hyphens and blanks anywhere (`Retyped`).
-/

namespace WasiAuth

open Base32

namespace Base32State

/-- The state has written the bits `written` and holds back `pending`. -/
structure Holds (s : Base32State) (written pending : List Bool) : Prop where
  groups : written.length % 5 = 0
  count : pending.length = s.bitCount
  accumulator : s.accumulator % 2 ^ s.bitCount = value pending
  output : s.output = encodeBits written

theorem emit_eq (s : Base32State) {index : Nat} : s.emit index = s.output ++ [symbol (index % 32)] := rfl

theorem Holds.take {s : Base32State} {written five rest : List Bool} (h : s.Holds written (five ++ rest))
    (hfive : five.length = 5) :
    Holds { s with bitCount := s.bitCount - 5, output := s.emit (s.accumulator / 2 ^ (s.bitCount - 5)) }
      (written ++ five) rest := by
  have hcount : s.bitCount = rest.length + 5 := by rw [← h.count, List.length_append, hfive, Nat.add_comm]
  have hpending : s.accumulator % (2 ^ rest.length * 32) = value five * 2 ^ rest.length + value rest := by
    rw [← value_append, ← h.accumulator, hcount, Nat.pow_add]
  have hlt := value_lt rest
  have htop : s.accumulator / 2 ^ rest.length % 32 = value five := by
    rw [← Nat.mod_mul_right_div_self, hpending, Nat.add_comm, Nat.add_mul_div_right _ _ (Nat.two_pow_pos _),
      Nat.div_eq_of_lt hlt, Nat.zero_add]
  have hlow : s.accumulator % 2 ^ rest.length = value rest := by
    rw [← Nat.mod_mul_right_mod _ _ 32, hpending, Nat.mul_comm, Nat.mul_add_mod, Nat.mod_eq_of_lt hlt]
  have hcount' : s.bitCount - 5 = rest.length := by omega
  refine ⟨?_, ?_, ?_, ?_⟩
  · rw [List.length_append, hfive]
    have := h.groups
    omega
  · exact hcount'.symm
  · show s.accumulator % 2 ^ (s.bitCount - 5) = value rest
    rw [hcount', hlow]
  · show s.emit (s.accumulator / 2 ^ (s.bitCount - 5)) = _
    rw [emit_eq, hcount', htop, h.output, encodeBits_append h.groups]
    congr 1
    rw [← List.append_nil five, encodeBits_group hfive, List.append_nil]
    rfl

/-- `n` rounds leave `n` groups less. -/
theorem Holds.drain : ∀ (rounds : Nat) {s : Base32State} {written pending : List Bool}, s.Holds written pending →
    pending.length < 5 * (rounds + 1) → ∃ written' pending', written' ++ pending' = written ++ pending ∧
      pending'.length < 5 ∧ (s.drain rounds).Holds written' pending'
  | 0, s, written, pending, h, hlt => ⟨written, pending, rfl, by omega, h⟩
  | rounds + 1, s, written, pending, h, hlt => by
    rw [Base32State.drain]
    by_cases hcount : 5 ≤ s.bitCount
    · rw [if_pos hcount]
      have hlength : 5 ≤ pending.length := h.count ▸ hcount
      have hsplit : pending = pending.take 5 ++ pending.drop 5 := (List.take_append_drop 5 pending).symm
      have hnext := (hsplit ▸ h : s.Holds written (pending.take 5 ++ pending.drop 5)).take (by simp [hlength])
      obtain ⟨written', pending', heq, hlt', hdrained⟩ := Holds.drain rounds hnext (by simp; omega)
      refine ⟨written', pending', ?_, hlt', hdrained⟩
      rw [heq, List.append_assoc, List.take_append_drop]
    · rw [if_neg hcount]
      exact ⟨written, pending, rfl, by rw [h.count]; omega, h⟩

theorem Holds.push {s : Base32State} {written pending : List Bool} (h : s.Holds written pending)
    (hlt : pending.length < 5) (byte : UInt8) : ∃ written' pending',
      written' ++ pending' = written ++ pending ++ bitsOf 8 byte.toNat ∧ pending'.length < 5 ∧
      (s.push byte).Holds written' pending' := by
  have hcount : s.bitCount < 5 := h.count ▸ hlt
  have hnext : Holds { s with
      accumulator := (s.accumulator * 2 ^ 8 + byte.toNat) % 2 ^ 32, bitCount := s.bitCount + 8 }
      written (pending ++ bitsOf 8 byte.toNat) := by
    refine ⟨h.groups, ?_, ?_, h.output⟩
    · rw [List.length_append, length_bitsOf, h.count]
    · show (s.accumulator * 2 ^ 8 + byte.toNat) % 2 ^ 32 % 2 ^ (s.bitCount + 8) = _
      have hbyte := byte.toNat_lt
      rw [Nat.mod_mod_of_dvd _ (Nat.pow_dvd_pow 2 (by omega)), value_append, value_bitsOf, length_bitsOf,
        Nat.mod_eq_of_lt hbyte, ← h.accumulator, Nat.pow_add, Nat.mul_comm (2 ^ s.bitCount), Nat.mod_mul,
        Nat.mul_comm s.accumulator, Nat.mul_add_mod, Nat.mod_eq_of_lt hbyte, Nat.mul_add_div (by decide),
        Nat.div_eq_of_lt hbyte, Nat.add_zero]
      omega
  obtain ⟨written', pending', heq, hlt', hdrained⟩ := hnext.drain 2 (by simp; omega)
  exact ⟨written', pending', by rw [heq, List.append_assoc], hlt', hdrained⟩

theorem Holds.foldl : ∀ (bytes : List UInt8) {s : Base32State} {written pending : List Bool}, s.Holds written pending →
    pending.length < 5 → ∃ written' pending',
      written' ++ pending' = written ++ pending ++ (bytes.flatMap fun byte => bitsOf 8 byte.toNat) ∧
      pending'.length < 5 ∧ (bytes.foldl Base32State.push s).Holds written' pending'
  | [], _, written, pending, h, hlt => ⟨written, pending, by simp, hlt, h⟩
  | byte :: bytes, _, written, pending, h, hlt => by
    obtain ⟨written₁, pending₁, heq₁, hlt₁, h₁⟩ := h.push hlt byte
    obtain ⟨written₂, pending₂, heq₂, hlt₂, h₂⟩ := Holds.foldl bytes h₁ hlt₁
    refine ⟨written₂, pending₂, ?_, hlt₂, h₂⟩
    rw [heq₂, heq₁, List.flatMap_cons, List.append_assoc _ (bitsOf 8 byte.toNat)]

end Base32State

theorem encodeBase32_eq (bytes : Bytes) : encodeBase32 bytes = Base32.encode bytes := by
  obtain ⟨written, pending, heq, hlt, h⟩ := Base32State.Holds.foldl bytes
    (⟨rfl, rfl, rfl, rfl⟩ : Base32State.Holds ⟨0, 0, []⟩ [] []) (by decide)
  rw [List.nil_append, List.nil_append] at heq
  rw [encodeBase32, encode, ← heq, encodeBits_append h.groups]
  generalize bytes.foldl Base32State.push ⟨0, 0, []⟩ = s at h
  by_cases hcount : 0 < s.bitCount
  · have hpos : 0 < pending.length := h.count ▸ hcount
    have hlast : s.accumulator * 2 ^ (5 - s.bitCount) % 32 = value pending * 2 ^ (5 - pending.length) := by
      have hgroup : 2 ^ s.bitCount * 2 ^ (5 - s.bitCount) = 32 := by
        rw [← Nat.pow_add, Nat.add_sub_cancel' (by rw [← h.count]; omega)]
      rw [← hgroup, Nat.mul_mod_mul_right, h.accumulator, h.count]
    simp only [if_pos hcount, Base32State.emit_eq]
    rw [h.output, hlast, encodeBits_rest hpos hlt]
  · have hnil : pending = [] := List.length_eq_zero_iff.1 (by rw [h.count]; omega)
    simp only [if_neg hcount]
    rw [h.output, hnil, encodeBits, List.append_nil]

/-! ## Typing a code -/

/-- A character `normalize_recovery_code` leaves out. -/
def isSeparator (c : Char) : Bool := c = '-' || isAsciiWhitespace c

/-- The text is the code with letters in either case, and with hyphens and ASCII whitespace added. -/
inductive Retyped : List Char → List Char → Prop
  | nil : Retyped [] []
  | same (c) {code text} (h : Retyped code text) : Retyped (c :: code) (c :: text)
  | lower (c) {code text} (h : Retyped code text) : Retyped (c :: code) (c.toLower :: text)
  | separator {c} (hc : isSeparator c = true) {code text} (h : Retyped code text) : Retyped code (c :: text)

/-- What `normalize_recovery_code` keeps. -/
def compact (text : List Char) : List Char :=
  (text.filter fun c => c ≠ '-' && !isAsciiWhitespace c).map Char.toUpper

theorem compact_append (a b : List Char) : compact (a ++ b) = compact a ++ compact b := by
  rw [compact, List.filter_append, List.map_append]
  rfl

theorem compact_cons_separator {c : Char} (hc : isSeparator c = true) (text : List Char) :
    compact (c :: text) = compact text := by
  simp only [isSeparator, Bool.or_eq_true, decide_eq_true_eq] at hc
  rcases hc with rfl | hc
  · rfl
  · simp [compact, hc]

def codeCharacters : List Char := '-' :: base32Alphabet

theorem compact_lower {c : Char} (hc : c ∈ codeCharacters) : compact [c.toLower] = compact [c] := by
  have hall : (codeCharacters.all fun c => decide (compact [c.toLower] = compact [c])) = true := by decide
  exact of_decide_eq_true (List.all_eq_true.1 hall c hc)

theorem compact_letter {c : Char} (hc : c ∈ base32Alphabet) : compact [c] = [c] := by
  have hall : (base32Alphabet.all fun c => decide (compact [c] = [c])) = true := by decide
  exact of_decide_eq_true (List.all_eq_true.1 hall c hc)

theorem compact_of_retyped {code text : List Char} (h : Retyped code text) (hcode : ∀ c ∈ code, c ∈ codeCharacters) :
    compact text = compact code := by
  induction h with
  | nil => rfl
  | same c h ih =>
    rw [← List.singleton_append, compact_append, ih fun c hc => hcode c (List.mem_cons_of_mem _ hc), ← compact_append]
    rfl
  | @lower c code text h ih =>
    rw [← List.singleton_append, compact_append, compact_lower (hcode c List.mem_cons_self),
      ih fun c hc => hcode c (List.mem_cons_of_mem _ hc), ← compact_append]
    rfl
  | separator hc h ih => rw [compact_cons_separator hc, ih hcode]

/-! ## Grouped codes -/

theorem flatten_chunksOfFour (text : List Char) : (chunksOfFour text).flatten = text := by
  fun_induction chunksOfFour text with
  | case1 => rfl
  | case2 a b c d rest ih => rw [List.flatten_cons, ih]; rfl
  | case3 => simp

theorem compact_intercalate : ∀ chunks : List (List Char),
    compact (List.intercalate ['-'] chunks) = compact chunks.flatten
  | [] => rfl
  | [chunk] => by simp [List.intercalate]
  | chunk :: next :: chunks => by
    have hhyphen : compact ['-'] = [] := rfl
    rw [List.intercalate_cons_cons, compact_append, compact_append, compact_intercalate (next :: chunks), hhyphen,
      List.append_nil, ← compact_append]
    rfl

theorem mem_intercalate {c : Char} : ∀ {chunks : List (List Char)}, c ∈ List.intercalate ['-'] chunks →
    c = '-' ∨ c ∈ chunks.flatten
  | [], h => by simp [List.intercalate] at h
  | [chunk], h => .inr (by simpa [List.intercalate] using h)
  | chunk :: next :: chunks, h => by
    rw [List.intercalate_cons_cons, List.mem_append, List.mem_append, List.mem_singleton] at h
    rw [List.flatten_cons, List.mem_append]
    rcases h with (h | rfl) | h
    · exact .inr (.inl h)
    · exact .inl rfl
    · exact (mem_intercalate h).imp_right .inr

theorem mem_alphabet_of_mem_encodeBase32 {bytes : Bytes} {c : Char} (hc : c ∈ encodeBase32 bytes) :
    c ∈ base32Alphabet := by
  rw [encodeBase32_eq] at hc
  exact mem_alphabet_of_mem_encodeBits hc

theorem compact_of_mem_alphabet : ∀ {text : List Char}, (∀ c ∈ text, c ∈ base32Alphabet) → compact text = text
  | [], _ => rfl
  | c :: text, h => by
    rw [← List.singleton_append, compact_append, compact_letter (h c List.mem_cons_self),
      compact_of_mem_alphabet fun c hc => h c (List.mem_cons_of_mem _ hc)]

theorem normalizeRecoveryCode_eq (text : List Char) : normalizeRecoveryCode (String.ofList text) =
    if (compact text).length ≠ 16 ∨ (compact text).all (fun c => base32Alphabet.contains c) = false then
      .error .invalidCode
    else .ok (compact text) := by
  rw [normalizeRecoveryCode, String.toList_ofList]
  rfl

theorem normalizeRecoveryCode_retyped {bytes : Bytes} (hlength : bytes.length = 10) {text : List Char}
    (h : Retyped (generateRecoveryCode bytes).toList text) :
    normalizeRecoveryCode (String.ofList text) = .ok (encodeBase32 bytes) := by
  rw [generateRecoveryCode, String.toList_ofList] at h
  have hcode : ∀ c ∈ List.intercalate ['-'] (chunksOfFour (encodeBase32 bytes)), c ∈ codeCharacters := by
    intro c hc
    rcases mem_intercalate hc with rfl | hc
    · exact List.mem_cons_self
    · rw [flatten_chunksOfFour] at hc
      exact List.mem_cons_of_mem _ (mem_alphabet_of_mem_encodeBase32 hc)
  have hcompact : compact text = encodeBase32 bytes := by
    rw [compact_of_retyped h hcode, compact_intercalate, flatten_chunksOfFour,
      compact_of_mem_alphabet fun _ => mem_alphabet_of_mem_encodeBase32]
  have hsixteen : (encodeBase32 bytes).length = 16 := by rw [encodeBase32_eq, length_encode, hlength]
  have hletters : (encodeBase32 bytes).all (fun c => base32Alphabet.contains c) = true := by
    rw [List.all_eq_true]
    intro c hc
    exact List.contains_iff_mem.2 (mem_alphabet_of_mem_encodeBase32 hc)
  rw [normalizeRecoveryCode_eq, hcompact, if_neg]
  rintro (hne | hnot)
  · exact hne hsixteen
  · exact Bool.noConfusion (hletters.symm.trans hnot)

theorem Retyped.refl : ∀ code : List Char, Retyped code code
  | [] => .nil
  | c :: code => .same c (Retyped.refl code)

theorem generateRecoveryCode_inj {a b : Bytes} (ha : a.length = 10) (hb : b.length = 10)
    (h : generateRecoveryCode a = generateRecoveryCode b) : a = b := by
  have hcode := normalizeRecoveryCode_retyped ha (Retyped.refl _)
  rw [h, normalizeRecoveryCode_retyped hb (Retyped.refl _), encodeBase32_eq, encodeBase32_eq] at hcode
  exact encode_inj (ha.trans hb.symm) (Except.ok.inj hcode).symm

/-- The encoder is that of RFC 4648; a code of ten bytes is read back however it is typed, and codes of different bytes
differ. -/
theorem recovery_codes_faithful :
    (∀ bytes : Bytes, encodeBase32 bytes = Base32.encode bytes) ∧
    (∀ bytes : Bytes, bytes.length = 10 → ∀ text, Retyped (generateRecoveryCode bytes).toList text →
      normalizeRecoveryCode (String.ofList text) = .ok (encodeBase32 bytes)) ∧
    (∀ a b : Bytes, a.length = 10 → b.length = 10 → a ≠ b →
      encodeBase32 a ≠ encodeBase32 b ∧ generateRecoveryCode a ≠ generateRecoveryCode b) := by
  refine ⟨encodeBase32_eq, fun bytes hlength text h => normalizeRecoveryCode_retyped hlength h,
    fun a b ha hb hne => ⟨fun h => hne ?_, fun h => hne (generateRecoveryCode_inj ha hb h)⟩⟩
  rw [encodeBase32_eq, encodeBase32_eq] at h
  exact encode_inj (ha.trans hb.symm) h

end WasiAuth
