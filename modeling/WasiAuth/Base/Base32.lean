import Mathlib.Algebra.Group.Nat.Defs
import Mathlib.Data.List.Basic
import Mathlib.Tactic.Common

/-! # Base32

The encoding of RFC 4648, section 6, without padding characters: the bits of the bytes, most significant first, in
groups of five, the last group filled up with zero bits. Texts of equally many bits determine the bits
(`encodeBits_inj`), and so bytes of equal number the bytes (`encode_inj`).
-/

namespace Base32

def alphabet : List Char := "ABCDEFGHIJKLMNOPQRSTUVWXYZ234567".toList

/-- The character of a group of five bits. -/
def symbol (n : Nat) : Char := alphabet.getD n 'A'

/-- The number a list of bits stands for, most significant first. -/
def value : List Bool → Nat
  | [] => 0
  | b :: bits => b.toNat * 2 ^ bits.length + value bits

/-- The bits of a number below `2 ^ w`. -/
def bitsOf : Nat → Nat → List Bool
  | 0, _ => []
  | w + 1, n => decide (n / 2 ^ w % 2 = 1) :: bitsOf w n

def encodeBits : List Bool → List Char
  | [] => []
  | b₀ :: b₁ :: b₂ :: b₃ :: b₄ :: bits => symbol (value [b₀, b₁, b₂, b₃, b₄]) :: encodeBits bits
  | bits => [symbol (value (bits ++ List.replicate (5 - bits.length) false))]

def encode (bytes : List UInt8) : List Char := encodeBits (bytes.flatMap fun byte => bitsOf 8 byte.toNat)

/-! ## Numbers and bits -/

@[simp] theorem length_bitsOf : ∀ w n : Nat, (bitsOf w n).length = w
  | 0, _ => rfl
  | w + 1, n => by rw [bitsOf, List.length_cons, length_bitsOf w n]

theorem value_lt : ∀ bits : List Bool, value bits < 2 ^ bits.length
  | [] => Nat.one_pos
  | b :: bits => by
    have ih := value_lt bits
    rw [value, List.length_cons, Nat.pow_succ']
    cases b <;> simp <;> omega

theorem value_append : ∀ a b : List Bool, value (a ++ b) = value a * 2 ^ b.length + value b
  | [], b => by simp [value]
  | x :: a, b => by
    rw [List.cons_append, value, value, value_append a b, List.length_append, Nat.pow_add, Nat.add_mul,
      Nat.mul_assoc, Nat.add_assoc]

theorem value_bitsOf : ∀ w n : Nat, value (bitsOf w n) = n % 2 ^ w
  | 0, n => by simp [bitsOf, value, Nat.mod_one]
  | w + 1, n => by
    rw [bitsOf, value, length_bitsOf, value_bitsOf w n, Nat.pow_succ, Nat.mod_mul]
    rcases Nat.mod_two_eq_zero_or_one (n / 2 ^ w) with h | h
    · simp [h]
    · simp [h, Nat.add_comm]

theorem value_inj : ∀ {a b : List Bool}, a.length = b.length → value a = value b → a = b
  | [], [], _, _ => rfl
  | x :: a, y :: b, hlength, hvalue => by
    have hlength' : a.length = b.length := Nat.succ.inj hlength
    have ha := value_lt a
    have hb := value_lt b
    rw [value, value, hlength'] at hvalue
    rw [hlength'] at ha
    have hhead : x = y := by cases x <;> cases y <;> simp at hvalue ⊢ <;> omega
    subst hhead
    rw [value_inj hlength' (Nat.add_left_cancel hvalue)]

theorem symbol_inj {m n : Nat} (hm : m < 32) (hn : n < 32) (h : symbol m = symbol n) : m = n := by
  have hall : ∀ m < 32, ∀ n < 32, symbol m = symbol n → m = n := by decide
  exact hall m hm n hn h

theorem symbol_mem {n : Nat} (hn : n < 32) : symbol n ∈ alphabet := by
  have hall : ∀ n < 32, symbol n ∈ alphabet := by decide
  exact hall n hn

/-! ## Groups of five -/

/-- Group after group, to a last one of at most four bits. -/
theorem groups_induction {P : List Bool → Prop} (nil : P [])
    (rest : ∀ bits : List Bool, 0 < bits.length → bits.length < 5 → P bits)
    (group : ∀ five bits : List Bool, five.length = 5 → P bits → P (five ++ bits)) : ∀ bits, P bits
  | [] => nil
  | b₀ :: b₁ :: b₂ :: b₃ :: b₄ :: bits => group [b₀, b₁, b₂, b₃, b₄] bits rfl (groups_induction nil rest group bits)
  | [_] => rest _ (by simp) (by simp)
  | [_, _] => rest _ (by simp) (by simp)
  | [_, _, _] => rest _ (by simp) (by simp)
  | [_, _, _, _] => rest _ (by simp) (by simp)

theorem encodeBits_group {five : List Bool} (h : five.length = 5) (bits : List Bool) :
    encodeBits (five ++ bits) = symbol (value five) :: encodeBits bits := by
  match five, h with
  | [b₀, b₁, b₂, b₃, b₄], _ => rfl

theorem encodeBits_rest {bits : List Bool} (hpos : 0 < bits.length) (h : bits.length < 5) :
    encodeBits bits = [symbol (value bits * 2 ^ (5 - bits.length))] := by
  have hzeros : ∀ n, value (List.replicate n false) = 0 := by
    intro n
    induction n with
    | zero => rfl
    | succ n ih => simp [List.replicate_succ, value, ih]
  have hfilled : value (bits ++ List.replicate (5 - bits.length) false) = value bits * 2 ^ (5 - bits.length) := by
    rw [value_append, hzeros, List.length_replicate, Nat.add_zero]
  rw [← hfilled]
  match bits, hpos, h with
  | [_], _, _ => rfl
  | [_, _], _, _ => rfl
  | [_, _, _], _, _ => rfl
  | [_, _, _, _], _, _ => rfl

theorem value_five_lt {five : List Bool} (h : five.length = 5) : value five < 32 := by
  have hlt := value_lt five
  rwa [h] at hlt

theorem value_rest_lt {bits : List Bool} (h : bits.length < 5) : value bits * 2 ^ (5 - bits.length) < 32 := by
  calc value bits * 2 ^ (5 - bits.length) < 2 ^ bits.length * 2 ^ (5 - bits.length) :=
        Nat.mul_lt_mul_of_pos_right (value_lt bits) (Nat.two_pow_pos _)
    _ = 2 ^ 5 := by rw [← Nat.pow_add]; congr 1; omega

/-- Whole groups are encoded on their own. -/
theorem encodeBits_append {a : List Bool} (ha : a.length % 5 = 0) (b : List Bool) :
    encodeBits (a ++ b) = encodeBits a ++ encodeBits b := by
  induction a using groups_induction with
  | nil => rfl
  | rest bits hpos hlt => omega
  | group five bits hfive ih =>
    rw [List.length_append, hfive] at ha
    rw [List.append_assoc, encodeBits_group hfive, encodeBits_group hfive, ih (by omega), List.cons_append]

theorem encodeBits_inj {a b : List Bool} (hlength : a.length = b.length) (h : encodeBits a = encodeBits b) : a = b := by
  induction a using groups_induction generalizing b with
  | nil => exact (List.length_eq_zero_iff.1 hlength.symm).symm
  | rest bits hpos hlt =>
    have hpos' : 0 < b.length := hlength ▸ hpos
    have hlt' : b.length < 5 := hlength ▸ hlt
    rw [encodeBits_rest hpos hlt, encodeBits_rest hpos' hlt'] at h
    have hvalue := symbol_inj (value_rest_lt hlt) (value_rest_lt hlt') (List.singleton_inj.1 h)
    rw [hlength] at hvalue
    exact value_inj hlength (Nat.eq_of_mul_eq_mul_right (Nat.two_pow_pos _) hvalue)
  | group five bits hfive ih =>
    rw [List.length_append, hfive] at hlength
    obtain ⟨five', bits', hfive', rfl⟩ : ∃ five' bits' : List Bool, five'.length = 5 ∧ five' ++ bits' = b :=
      ⟨b.take 5, b.drop 5, by simp; omega, List.take_append_drop 5 b⟩
    rw [encodeBits_group hfive, encodeBits_group hfive'] at h
    obtain ⟨hsymbol, hrest⟩ := List.cons.inj h
    have hgroup := value_inj (hfive.trans hfive'.symm) (symbol_inj (value_five_lt hfive) (value_five_lt hfive') hsymbol)
    rw [hgroup, ih (by rw [List.length_append, hfive'] at hlength; omega) hrest]

theorem length_encodeBits (bits : List Bool) : (encodeBits bits).length = (bits.length + 4) / 5 := by
  induction bits using groups_induction with
  | nil => rfl
  | rest bits hpos hlt =>
    rw [encodeBits_rest hpos hlt, List.length_singleton]
    omega
  | group five bits hfive ih =>
    rw [encodeBits_group hfive, List.length_cons, ih, List.length_append, hfive]
    omega

theorem mem_alphabet_of_mem_encodeBits {c : Char} {bits : List Bool} (hc : c ∈ encodeBits bits) : c ∈ alphabet := by
  induction bits using groups_induction with
  | nil => cases hc
  | rest bits hpos hlt =>
    rw [encodeBits_rest hpos hlt, List.mem_singleton] at hc
    exact hc ▸ symbol_mem (value_rest_lt hlt)
  | group five bits hfive ih =>
    rw [encodeBits_group hfive] at hc
    rcases List.mem_cons.1 hc with rfl | hc
    · exact symbol_mem (value_five_lt hfive)
    · exact ih hc

/-! ## Bytes -/

theorem length_bits : ∀ bytes : List UInt8, (bytes.flatMap fun byte => bitsOf 8 byte.toNat).length = 8 * bytes.length
  | [] => rfl
  | byte :: bytes => by
    rw [List.flatMap_cons, List.length_append, length_bitsOf, length_bits bytes, List.length_cons]
    omega

theorem length_encode (bytes : List UInt8) : (encode bytes).length = (8 * bytes.length + 4) / 5 := by
  rw [encode, length_encodeBits, length_bits]

theorem bits_inj : ∀ {a b : List UInt8}, a.length = b.length →
    (a.flatMap fun byte => bitsOf 8 byte.toNat) = (b.flatMap fun byte => bitsOf 8 byte.toNat) → a = b
  | [], [], _, _ => rfl
  | x :: a, y :: b, hlength, h => by
    obtain ⟨hbyte, hrest⟩ := List.append_inj h (by simp)
    have hvalue := congrArg value hbyte
    rw [value_bitsOf, value_bitsOf, Nat.mod_eq_of_lt x.toNat_lt, Nat.mod_eq_of_lt y.toNat_lt] at hvalue
    rw [UInt8.toNat_inj.1 hvalue, bits_inj (Nat.succ.inj hlength) hrest]

theorem encode_inj {a b : List UInt8} (hlength : a.length = b.length) (h : encode a = encode b) : a = b :=
  bits_inj hlength (encodeBits_inj (by rw [length_bits, length_bits, hlength]) h)

end Base32
