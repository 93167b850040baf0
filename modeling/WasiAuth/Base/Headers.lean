import Mathlib.Data.List.Basic
import Mathlib.Tactic.Common
import WasiAuth.Base.Utf8

/-! # Headers

What an HTTP library offers for the headers of a message, with the laws that proofs use: header values are byte strings
made of texts, and in a header map a name may have several values. Maps are compared by the values of each name
(`getAll`). `Library.fields` is a reference implementation, in which a map is the list of its fields.
-/

namespace Headers

/-- A printable character of ASCII, which every header value may have. -/
def isVisible (c : Char) : Bool := decide (32 ≤ c.toNat ∧ c.toNat < 127)

structure Library (Name : Type) where
  /-- The value with a text; a static text that is not one is refused when the program is built. -/
  fromStr : String → Option (List UInt8)
  fromStatic : String → List UInt8
  toStr : List UInt8 → Option String
  Map : Type
  empty : Map
  /-- The values of a name, in order. -/
  getAll : Map → Name → List (List UInt8)
  containsKey : Map → Name → Bool
  keys : Map → List Name
  insert : Map → Name → List UInt8 → Map
  remove : Map → Name → Map
  /-- The names of the second map get the values they have there. -/
  extend : Map → Map → Map
  fromStr_visible : ∀ text, text.toList.all isVisible = true → fromStr text = some (Utf8.encode text.toList)
  toStr_visible : ∀ text, text.toList.all isVisible = true → toStr (Utf8.encode text.toList) = some text
  getAll_empty : ∀ name, getAll empty name = []
  containsKey_iff : ∀ headers name, containsKey headers name = true ↔ getAll headers name ≠ []
  mem_keys : ∀ headers name, name ∈ keys headers ↔ getAll headers name ≠ []
  getAll_insert_self : ∀ headers name value, getAll (insert headers name value) name = [value]
  getAll_insert_of_ne : ∀ headers name value other, other ≠ name →
    getAll (insert headers name value) other = getAll headers other
  getAll_remove_self : ∀ headers name, getAll (remove headers name) name = []
  getAll_remove_of_ne : ∀ headers name other, other ≠ name → getAll (remove headers name) other = getAll headers other
  getAll_extend : ∀ headers fields name, getAll (extend headers fields) name =
    if containsKey fields name = true then getAll fields name else getAll headers name

variable {Name : Type}

namespace Library

/-- The first value. -/
def get (http : Library Name) (headers : http.Map) (name : Name) : Option (List UInt8) :=
  (http.getAll headers name).head?

theorem getAll_eq_nil {http : Library Name} {headers : http.Map} {name : Name}
    (h : http.containsKey headers name = false) : http.getAll headers name = [] := by
  by_contra hne
  rw [(http.containsKey_iff headers name).2 hne] at h
  cases h

theorem getAll_foldl_remove [DecidableEq Name] (http : Library Name) (name : Name) : ∀ (names : List Name)
    (headers : http.Map), http.getAll (names.foldl http.remove headers) name =
      if name ∈ names then [] else http.getAll headers name
  | [], _ => by simp
  | other :: names, headers => by
    rw [List.foldl_cons, getAll_foldl_remove http name names]
    by_cases hname : name = other
    · simp [hname, http.getAll_remove_self]
    · simp [hname, http.getAll_remove_of_ne _ _ _ hname]

end Library

/-! ## A list of fields -/

section Fields
variable [DecidableEq Name]

def values (headers : List (Name × List UInt8)) (name : Name) : List (List UInt8) :=
  (headers.filter fun field => field.1 = name).map Prod.snd

def without (headers : List (Name × List UInt8)) (p : Name → Bool) : List (Name × List UInt8) :=
  headers.filter fun field => !p field.1

theorem values_append (a b : List (Name × List UInt8)) (name : Name) :
    values (a ++ b) name = values a name ++ values b name := by
  rw [values, List.filter_append, List.map_append, values, values]

theorem mem_names {headers : List (Name × List UInt8)} {name : Name} :
    name ∈ headers.map Prod.fst ↔ values headers name ≠ [] := by
  simp [values, List.filter_eq_nil_iff]

theorem values_without (headers : List (Name × List UInt8)) (p : Name → Bool) (name : Name) :
    values (without headers p) name = if p name = true then [] else values headers name := by
  rw [values, without, List.filter_filter]
  split
  next hp =>
    rw [List.filter_eq_nil_iff.2, List.map_nil]
    rintro ⟨n, value⟩ - h
    simp only [Bool.and_eq_true, decide_eq_true_eq, Bool.not_eq_true'] at h
    obtain ⟨rfl, h⟩ := h
    rw [hp] at h
    cases h
  next hp =>
    rw [values]
    congr 1
    refine List.filter_congr fun field _ => ?_
    by_cases hname : field.1 = name
    · simp [hname, hp]
    · simp [hname]

def visibleText (value : List UInt8) : Option String :=
  if value.all fun b => isVisible (Char.ofNat b.toNat) then some (String.ofList (value.map fun b => Char.ofNat b.toNat))
  else none

theorem visibleText_encode {text : String} (h : text.toList.all isVisible = true) :
    visibleText (Utf8.encode text.toList) = some text := by
  have hvisible (c : Char) (hc : c ∈ text.toList) : 32 ≤ c.toNat ∧ c.toNat < 127 :=
    of_decide_eq_true (List.all_eq_true.1 h c hc)
  have hascii (c : Char) (hc : c ∈ text.toList) : c.toNat < 128 := Nat.lt_succ_of_lt (hvisible c hc).2
  have hchar (c : Char) (hc : c ∈ text.toList) : Char.ofNat (Utf8.ascii c).toNat = c := by
    rw [Utf8.toNat_ascii (hascii c hc), Char.ofNat_toNat]
  have hbytes : Utf8.encode text.toList = text.toList.map Utf8.ascii := Utf8.encode_of_ascii hascii
  have hall : (Utf8.encode text.toList).all (fun b => isVisible (Char.ofNat b.toNat)) = true := by
    rw [hbytes, List.all_map]
    refine List.all_eq_true.2 fun c hc => ?_
    rw [Function.comp_apply, hchar c hc]
    exact decide_eq_true (hvisible c hc)
  have hmap : (text.toList.map fun c => Char.ofNat (Utf8.ascii c).toNat) = text.toList :=
    (List.map_congr_left hchar).trans (List.map_id _)
  rw [visibleText, if_pos hall, hbytes, List.map_map]
  exact congrArg some ((congrArg String.ofList hmap).trans String.ofList_toList)

def Library.fields : Library Name where
  fromStr text := if text.toList.all isVisible then some (Utf8.encode text.toList) else none
  fromStatic text := Utf8.encode text.toList
  toStr := visibleText
  Map := List (Name × List UInt8)
  empty := []
  getAll := values
  containsKey headers name := decide (values headers name ≠ [])
  keys headers := headers.map Prod.fst
  insert headers name value := without headers (fun n => n = name) ++ [(name, value)]
  remove headers name := without headers fun n => n = name
  extend headers fields := without headers (fun n => values fields n ≠ []) ++ fields
  fromStr_visible _ h := if_pos h
  toStr_visible _ h := visibleText_encode h
  getAll_empty _ := rfl
  containsKey_iff _ _ := decide_eq_true_iff
  mem_keys _ _ := mem_names
  getAll_insert_self headers name value := by
    rw [values_append, values_without, if_pos (decide_eq_true rfl)]
    simp [values]
  getAll_insert_of_ne headers name value other h := by
    rw [values_append, values_without, if_neg (by simpa using h)]
    simp [values, Ne.symm h]
  getAll_remove_self headers name := by rw [values_without, if_pos (decide_eq_true rfl)]
  getAll_remove_of_ne headers name other h := by rw [values_without, if_neg (by simpa using h)]
  getAll_extend headers fields name := by
    rw [values_append, values_without]
    by_cases h : values fields name = [] <;> simp [h]

end Fields

end Headers
