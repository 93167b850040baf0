import Mathlib.Data.Nat.Digits.Defs
import Mathlib.Tactic.Common

/-! # Text encodings

Fixed-width lower-case hexadecimal, the length in bytes, decimal numerals, and fields joined by a separator character:
what makes each of them readable back.
-/

namespace Text

/-! ## Hexadecimal -/

def hexDigit (d : Nat) : Char := if d < 10 then Char.ofNat (48 + d) else Char.ofNat (87 + d)

/-- The last `w` hexadecimal digits of `n`, most significant first. -/
def hexDigits : Nat → Nat → List Char
  | 0, _ => []
  | w + 1, n => hexDigits w (n / 16) ++ [hexDigit (n % 16)]

theorem hexDigit_inj {d e : Nat} (hd : d < 16) (he : e < 16) (h : hexDigit d = hexDigit e) : d = e := by
  have hall : ∀ d < 16, ∀ e < 16, hexDigit d = hexDigit e → d = e := by decide
  exact hall d hd e he h

@[simp] theorem length_hexDigits : ∀ (w n : Nat), (hexDigits w n).length = w
  | 0, _ => rfl
  | w + 1, n => by simp [hexDigits, length_hexDigits w]

theorem exists_of_mem_hexDigits {c : Char} : ∀ {w n : Nat}, c ∈ hexDigits w n → ∃ d < 16, c = hexDigit d
  | 0, _, h => by simp [hexDigits] at h
  | w + 1, n, h => by
    rcases List.mem_append.1 h with h | h
    · exact exists_of_mem_hexDigits h
    · exact ⟨n % 16, Nat.mod_lt _ (by decide), List.mem_singleton.1 h⟩

theorem hexDigits_cons : ∀ w n : Nat, hexDigits (w + 1) n = hexDigit (n / 16 ^ w % 16) :: hexDigits w n
  | 0, n => by simp [hexDigits]
  | w + 1, n => by
    have hdiv : n / 16 / 16 ^ w = n / 16 ^ (w + 1) := by rw [Nat.div_div_eq_div_mul, Nat.pow_succ']
    rw [hexDigits, hexDigits_cons w (n / 16), hdiv]
    rfl

/-- The digits determine the number modulo `16 ^ w`. -/
theorem hexDigits_inj : ∀ {w m n : Nat}, hexDigits w m = hexDigits w n → m % 16 ^ w = n % 16 ^ w
  | 0, m, n, _ => by simp [Nat.mod_one]
  | w + 1, m, n, h => by
    obtain ⟨hhi, hlo⟩ := List.append_inj h (by simp)
    have ih := hexDigits_inj hhi
    have hd : m % 16 = n % 16 :=
      hexDigit_inj (Nat.mod_lt _ (by decide)) (Nat.mod_lt _ (by decide)) (List.singleton_inj.1 hlo)
    rw [Nat.pow_succ', Nat.mod_mul, Nat.mod_mul, ih, hd]

/-! ## Bytes -/

/-- A character takes at most four bytes. -/
theorem utf8ByteSize_ofList_le : ∀ l : List Char, (String.ofList l).utf8ByteSize ≤ 4 * l.length
  | [] => Nat.zero_le _
  | c :: l => by
    have hc := c.utf8Size_le_four
    have hl := utf8ByteSize_ofList_le l
    rw [String.ofList_cons, String.utf8ByteSize_append, String.utf8ByteSize_singleton, List.length_cons]
    omega

/-! ## Decimal numerals -/

theorem not_mem_toDigits {c : Char} (hc : c.isDigit = false) (n : Nat) : c ∉ Nat.toDigits 10 n := by
  intro h
  have := Nat.isDigit_of_mem_toDigits (by decide) (by decide) h
  simp [hc] at this

theorem toDigits_inj {m n : Nat} (h : Nat.toDigits 10 m = Nat.toDigits 10 n) : m = n := by
  have hv := congrArg (Nat.ofDigitChars 10 · 0) h
  simpa [Nat.ofDigitChars_toDigits] using hv

/-! ## Separated fields -/

/-- The text before and after the first `c`. -/
def splitOnce (c : Char) : List Char → Option (List Char × List Char)
  | [] => none
  | x :: xs => if x = c then some ([], xs) else (splitOnce c xs).map fun (l, r) => (x :: l, r)

/-- A field that does not hold the separator is read back from a text it starts. -/
theorem splitOnce_append {c : Char} : ∀ {l : List Char} (r : List Char), c ∉ l →
    splitOnce c (l ++ c :: r) = some (l, r)
  | [], r, _ => by simp [splitOnce]
  | x :: xs, r, h => by
    obtain ⟨hx, hxs⟩ := not_or.1 (List.mem_cons.not.1 h)
    simp [splitOnce, Ne.symm hx, splitOnce_append r hxs]

/-- What is split is the two fields around the first separator. -/
theorem eq_append_of_splitOnce {c : Char} : ∀ {text l r : List Char}, splitOnce c text = some (l, r) →
    text = l ++ c :: r ∧ c ∉ l
  | [], l, r, h => by cases h
  | x :: xs, l, r, h => by
    rw [splitOnce] at h
    split at h
    next hx =>
      cases h
      exact ⟨by rw [hx, List.nil_append], List.not_mem_nil⟩
    next hx =>
      obtain ⟨⟨l', r'⟩, hsplit, h⟩ := Option.map_eq_some_iff.1 h
      cases h
      obtain ⟨rfl, hl'⟩ := eq_append_of_splitOnce hsplit
      exact ⟨rfl, List.not_mem_cons_of_ne_of_not_mem (Ne.symm hx) hl'⟩

/-- The first field is what comes before the separator, the whole text if there is none. -/
theorem splitOnce_elim_fst (c : Char) : ∀ text : List Char,
    (splitOnce c text).elim text Prod.fst = text.takeWhile (· != c)
  | [] => rfl
  | x :: xs => by
    have ih := splitOnce_elim_fst c xs
    by_cases hx : x = c
    · simp [splitOnce, hx]
    · rw [List.takeWhile_cons_of_pos (by simpa using hx), ← ih, splitOnce, if_neg hx]
      cases splitOnce c xs <;> rfl

theorem append_sep_inj {c : Char} {l l' r r' : List Char} (hl : c ∉ l) (hl' : c ∉ l')
    (h : l ++ c :: r = l' ++ c :: r') : l = l' ∧ r = r' := by
  have hsplit := congrArg (splitOnce c) h
  rw [splitOnce_append r hl, splitOnce_append r' hl'] at hsplit
  simpa using hsplit

theorem infix_intercalate {c : Char} {b : List (List Char)} (hb : b ≠ []) : ∀ {a : List (List Char)}, a ≠ [] →
    [c, c] <:+: [c].intercalate (a ++ [] :: b)
  | [x], _ => by
    rw [List.singleton_append, List.intercalate_cons_cons, List.intercalate_cons_of_ne_nil hb]
    exact ⟨x, [c].intercalate b, by simp⟩
  | x :: y :: a, _ => by
    have ih : [c, c] <:+: [c].intercalate (y :: a ++ [] :: b) := infix_intercalate hb (List.cons_ne_nil y a)
    rw [List.cons_append, List.intercalate_cons_of_ne_nil (by simp)]
    exact ih.trans (List.suffix_append _ _).isInfix

/-- An empty field between two others shows as two separators in a row. -/
theorem infix_of_nil_mem_splitOn {c : Char} {text : List Char} (h : [] ∈ (text.splitOn c).tail.dropLast) :
    [c, c] <:+: text := by
  cases hfields : text.splitOn c with
  | nil => simp [hfields] at h
  | cons first rest =>
    rw [hfields, List.tail_cons] at h
    have hrest : rest ≠ [] := by
      rintro rfl
      cases h
    obtain ⟨a, b, hmid⟩ := List.append_of_mem h
    have hsplit : text.splitOn c = first :: a ++ [] :: (b ++ [rest.getLast hrest]) := by
      have hlast : rest = a ++ [] :: b ++ [rest.getLast hrest] := by rw [← hmid, List.dropLast_concat_getLast]
      rw [hfields, List.cons_append]
      exact congrArg (first :: ·) (hlast.trans (by simp))
    have htext : [c].intercalate (text.splitOn c) = text := List.intercalate_splitOn c
    rw [← htext, hsplit]
    exact infix_intercalate (by simp) (List.cons_ne_nil first a)

end Text
