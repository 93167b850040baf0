import Mathlib.Data.List.Basic
import Mathlib.Tactic.Common

/-! # UTF-8 and ASCII

The bytes of a text below 128 are its ASCII characters: no byte of a longer encoding is below 128. So a test of a text
for an ASCII character can be made on its bytes, and an ASCII separator splits the bytes where it splits the text.
Percent decoding is on bytes, as RFC 3986 has it.
-/

namespace Utf8

variable {c : Char} {text : List Char}

/-- The bytes of a text. -/
def encode (text : List Char) : List UInt8 := text.flatMap String.utf8EncodeChar

theorem toList_toUTF8 (text : String) : text.toUTF8.data.toList = encode text.toList := by
  have h : text.toUTF8 = (encode text.toList).toByteArray := String.utf8Encode_toList.symm
  rw [h, List.data_toByteArray, List.toList_toArray]

@[simp] theorem encode_nil : encode [] = [] := rfl

@[simp] theorem encode_cons (c : Char) (text : List Char) :
    encode (c :: text) = String.utf8EncodeChar c ++ encode text := List.flatMap_cons

/-- The byte of an ASCII character. -/
def ascii (c : Char) : UInt8 := UInt8.ofNat c.toNat

theorem toNat_ascii (hc : c.toNat < 128) : (ascii c).toNat = c.toNat := by
  rw [ascii, UInt8.toNat_ofNat', Nat.mod_eq_of_lt (by omega)]

theorem utf8EncodeChar_ascii (hc : c.toNat < 128) : String.utf8EncodeChar c = [ascii c] :=
  if_pos (Nat.le_of_lt_succ hc)

/-- Every byte of a character outside ASCII is at least 128. -/
theorem le_of_mem_utf8EncodeChar (hc : 128 ≤ c.toNat) {b : UInt8} (hb : b ∈ String.utf8EncodeChar c) :
    128 ≤ b.toNat := by
  have hval : c.val.toNat = c.toNat := rfl
  simp only [String.utf8EncodeChar, hval] at hb
  rw [if_neg (by omega)] at hb
  split at hb
  · simp only [List.mem_cons, List.not_mem_nil, or_false] at hb
    rcases hb with rfl | rfl <;> rw [UInt8.toNat_ofNat'] <;> omega
  · split at hb <;> simp only [List.mem_cons, List.not_mem_nil, or_false] at hb
    · rcases hb with rfl | rfl | rfl <;> rw [UInt8.toNat_ofNat'] <;> omega
    · rcases hb with rfl | rfl | rfl | rfl <;> rw [UInt8.toNat_ofNat'] <;> omega

theorem utf8EncodeChar_ne_nil (c : Char) : String.utf8EncodeChar c ≠ [] := by
  simp only [String.utf8EncodeChar]
  split
  · exact List.cons_ne_nil _ _
  · split
    · exact List.cons_ne_nil _ _
    · split <;> exact List.cons_ne_nil _ _

/-- A byte below 128 is a character of the text. -/
theorem exists_of_mem_encode {b : UInt8} (hb : b.toNat < 128) (h : b ∈ encode text) :
    ∃ c ∈ text, c.toNat = b.toNat := by
  obtain ⟨c, hc, hmem⟩ := List.mem_flatMap.1 h
  by_cases hascii : c.toNat < 128
  · rw [utf8EncodeChar_ascii hascii, List.mem_singleton] at hmem
    exact ⟨c, hc, by rw [hmem, toNat_ascii hascii]⟩
  · have := le_of_mem_utf8EncodeChar (Nat.le_of_not_lt hascii) hmem
    omega

theorem ascii_mem_encode (hc : c.toNat < 128) (h : c ∈ text) :
    ascii c ∈ encode text :=
  List.mem_flatMap.2 ⟨c, h, by rw [utf8EncodeChar_ascii hc]; exact List.mem_singleton_self _⟩

theorem ascii_mem_encode_iff (hc : c.toNat < 128) :
    ascii c ∈ encode text ↔ c ∈ text := by
  refine ⟨fun h => ?_, ascii_mem_encode hc⟩
  obtain ⟨d, hd, hnat⟩ := exists_of_mem_encode (by rw [toNat_ascii hc]; exact hc) h
  rw [toNat_ascii hc] at hnat
  exact Char.toNat_inj.1 hnat ▸ hd

theorem encode_of_ascii : ∀ {text : List Char}, (∀ c ∈ text, c.toNat < 128) → encode text = text.map ascii
  | [], _ => rfl
  | c :: text, h => by
    rw [encode_cons, utf8EncodeChar_ascii (h c List.mem_cons_self),
      encode_of_ascii fun d hd => h d (List.mem_cons_of_mem _ hd), List.map_cons, List.singleton_append]

/-- A text whose bytes start with an ASCII character starts with it. -/
theorem head?_of_encode (hc : c.toNat < 128) {rest : List UInt8}
    (h : encode text = ascii c :: rest) : text.head? = some c := by
  cases text with
  | nil => cases h
  | cons d text =>
    rw [encode_cons] at h
    by_cases hd : d.toNat < 128
    · rw [utf8EncodeChar_ascii hd, List.singleton_append] at h
      have hnat := congrArg UInt8.toNat (List.cons.inj h).1
      rw [toNat_ascii hd, toNat_ascii hc] at hnat
      rw [List.head?_cons, Char.toNat_inj.1 hnat]
    · obtain ⟨b, bs, hbytes⟩ := List.exists_cons_of_ne_nil (utf8EncodeChar_ne_nil d)
      rw [hbytes, List.cons_append] at h
      have hle := le_of_mem_utf8EncodeChar (Nat.le_of_not_lt hd) (hbytes ▸ List.mem_cons_self)
      rw [(List.cons.inj h).1, toNat_ascii hc] at hle
      omega

end Utf8

namespace Percent

/-- The value of a hexadecimal digit. -/
def digit (b : UInt8) : Option Nat :=
  if 48 ≤ b.toNat ∧ b.toNat ≤ 57 then some (b.toNat - 48)
  else if 65 ≤ b.toNat ∧ b.toNat ≤ 70 then some (b.toNat - 55)
  else if 97 ≤ b.toNat ∧ b.toNat ≤ 102 then some (b.toNat - 87)
  else none

/-- Every percent sign that two hexadecimal digits follow is replaced, with them, by the byte they name; what comes out
is not read again. -/
def decode : List UInt8 → List UInt8
  | [] => []
  | b :: rest =>
    if b = Utf8.ascii '%' then
      match rest with
      | high :: low :: after =>
        match digit high, digit low with
        | some h, some l => UInt8.ofNat (16 * h + l) :: decode after
        | _, _ => b :: decode (high :: low :: after)
      | rest => b :: decode rest
    else b :: decode rest

theorem decode_cons {b : UInt8} (h : b ≠ Utf8.ascii '%') (rest : List UInt8) :
    decode (b :: rest) = b :: decode rest := by
  rw [decode.eq_def]
  exact if_neg h

theorem decode_escape {high low : UInt8} {h l : Nat} (hh : digit high = some h) (hl : digit low = some l)
    (rest : List UInt8) :
    decode (Utf8.ascii '%' :: high :: low :: rest) = UInt8.ofNat (16 * h + l) :: decode rest := by
  rw [decode.eq_def]
  simp [hh, hl]

end Percent
