import Mathlib.Data.List.Nodup
import Mathlib.Tactic.Common

/-! # JSON documents

Documents as trees, written and read member by member. A writer lists the members of an object with the value of each,
or nothing for a member it skips (`build`); a reader asks for the members it knows (`struct`) and takes each as
required, optional or defaulted. What `build` writes, `struct` reads back (`struct_build`, `lookup_present`), so that a
round trip of a record is one of each of its members. The text of a document is left to a codec (`Text`); `compact` is
the text that a printer writes.
-/

inductive Json where
  | null
  | bool (value : Bool)
  | number (value : Int)
  | string (value : String)
  | array (items : List Json)
  | object (members : List (String × Json))

namespace Json

/-- A printer and a parser. -/
structure Text where
  toVec : Json → Option (List UInt8)
  fromSlice : List UInt8 → Option Json

/-- The parser reads the document back from what the printer wrote of it. -/
def Text.RoundTrips (text : Text) (document : Json) : Prop :=
  ∀ bytes, text.toVec document = some bytes → text.fromSlice bytes = some document

open Classical in
/-- A codec that knows one document and its text. -/
noncomputable def Text.single (document : Json) (written : List UInt8) : Text where
  toVec json := if json = document then some written else none
  fromSlice bytes := if bytes = written then some document else none

theorem Text.toVec_single (document : Json) (written : List UInt8) :
    (single document written).toVec document = some written := if_pos rfl

theorem Text.fromSlice_single_of_ne {document : Json} {written bytes : List UInt8} (h : bytes ≠ written) :
    (single document written).fromSlice bytes = none := if_neg h

theorem Text.single_roundTrips (document other : Json) (written : List UInt8) :
    (single document written).RoundTrips other := by
  intro bytes h
  simp only [single] at h ⊢
  split at h
  next heq =>
    cases h
    rw [if_pos rfl, heq]
  · cases h

/-! ## Writing -/

/-- The members that are not skipped. -/
def present (members : List (String × Option Json)) : List (String × Json) :=
  members.filterMap fun member => member.2.map (member.1, ·)

def build (members : List (String × Option Json)) : Json := .object (present members)

/-- An array that is skipped when it is empty. -/
def nonempty {α : Type} (encode : α → Json) (items : List α) : Option Json :=
  if items = [] then none else some (.array (items.map encode))

def quoted (text : String) : String :=
  "\"" ++ String.ofList (text.toList.flatMap fun c => if c = '"' ∨ c = '\\' then ['\\', c] else [c]) ++ "\""

mutual

/-- The text of a document without blanks; control characters, which would need an escape, are left as they are. -/
def compact : Json → String
  | .null => "null"
  | .bool value => if value then "true" else "false"
  | .number value => toString value
  | .string value => quoted value
  | .array items => "[" ++ ",".intercalate (compactItems items) ++ "]"
  | .object members => "\x7b" ++ ",".intercalate (compactMembers members) ++ "\x7d"

def compactItems : List Json → List String
  | [] => []
  | item :: items => compact item :: compactItems items

def compactMembers : List (String × Json) → List String
  | [] => []
  | (name, value) :: members => (quoted name ++ ":" ++ compact value) :: compactMembers members

end

/-! ## Reading -/

/-- The members of an object, none of the known names twice, and no other name if `strict`. A derived `serde` reader also
takes an array of the fields in order; that form, which no writer writes, is not read here. -/
def struct (known : List String) (strict : Bool) : Json → Option (List (String × Json))
  | .object members =>
    if ((members.map Prod.fst).filter known.contains).Nodup ∧
        (!strict || members.all fun member => known.contains member.1) = true then
      some members
    else none
  | _ => none

variable {α : Type}

def required (members : List (String × Json)) (name : String) (decode : Json → Option α) : Option α :=
  (members.lookup name).bind decode

/-- A value that may be `null`. -/
def nullable (decode : Json → Option α) : Json → Option (Option α)
  | .null => some none
  | value => (decode value).map some

/-- A member that may be missing or `null`. -/
def optional (members : List (String × Json)) (name : String) (decode : Json → Option α) : Option (Option α) :=
  ((members.lookup name).map (nullable decode)).getD (some none)

def decodeArray (decode : Json → Option α) : Json → Option (List α)
  | .array items => items.mapM decode
  | _ => none

/-- A member with a default for when it is missing. -/
def defaulted (members : List (String × Json)) (name : String) (default : α) (decode : Json → Option α) : Option α :=
  ((members.lookup name).map decode).getD (some default)

/-- An object of which one member, a text, says how to read the others. -/
def tagged (tag : String) : Json → Option (String × Json)
  | .object members =>
    match members.filter fun member => member.1 = tag with
    | [(_, .string variant)] => some (variant, .object (members.filter fun member => member.1 ≠ tag))
    | _ => none
  | _ => none

def decodeString : Json → Option String
  | .string value => some value
  | _ => none

def decodeBool : Json → Option Bool
  | .bool value => some value
  | _ => none

/-- A map that has been filled from the members keeps the last one of each name. -/
def keepLast : List (String × Json) → List (String × Json)
  | [] => []
  | member :: members =>
    if member.1 ∈ members.map Prod.fst then keepLast members else member :: keepLast members

/-! ## What is written is read back -/

theorem fst_present_sublist : ∀ members : List (String × Option Json),
    ((present members).map Prod.fst).Sublist (members.map Prod.fst)
  | [] => .slnil
  | (name, none) :: members => (fst_present_sublist members).cons name
  | (name, some _) :: members => (fst_present_sublist members).cons_cons name

@[simp] theorem struct_build {known : List String} (strict : Bool) {members : List (String × Option Json)}
    (hnodup : (members.map Prod.fst).Nodup) (hknown : members.map Prod.fst ⊆ known) :
    struct known strict (build members) = some (present members) := by
  have hsub := fst_present_sublist members
  refine if_pos ⟨(hsub.nodup hnodup).filter _, ?_⟩
  rw [Bool.or_eq_true, List.all_eq_true]
  exact .inr fun member hmember =>
    List.contains_iff_mem.2 (hknown (hsub.subset (List.mem_map_of_mem hmember)))

@[simp] theorem lookup_present {name : String} : ∀ {members : List (String × Option Json)},
    (members.map Prod.fst).Nodup → (present members).lookup name = (members.lookup name).join
  | [], _ => rfl
  | (n, value) :: members, h => by
    obtain ⟨hn, hnodup⟩ := List.nodup_cons.1 h
    have ih : (present members).lookup name = (members.lookup name).join := lookup_present hnodup
    by_cases hname : name = n
    · subst hname
      rw [List.lookup_cons_self]
      cases value with
      | some value => exact List.lookup_cons_self
      | none =>
        -- The skipped member's name does not come again.
        have hnone : members.lookup name = none := by
          rw [List.lookup_eq_none_iff]
          rintro ⟨m, v⟩ hm
          refine bne_iff_ne.2 ?_
          rintro rfl
          exact hn (List.mem_map.2 ⟨_, hm, rfl⟩)
        rw [hnone] at ih
        exact ih
    · have hne : (name == n) = false := beq_eq_false_iff_ne.2 hname
      rw [List.lookup_cons, hne]
      cases value with
      | none => exact ih
      | some value =>
        have hpresent : present ((n, some value) :: members) = (n, value) :: present members := rfl
        rw [← ih, hpresent, List.lookup_cons, hne]

/-- One step of a reader. -/
theorem bind_of_some {β : Type} {o : Option α} {f : α → Option β} {a : α} {r : Option β} (ho : o = some a)
    (hf : f a = r) : (o >>= f) = r := by
  rw [ho]
  exact hf

section Members
variable {members : List (String × Option Json)} {name : String} {encode : α → Json} {decode : Json → Option α}

theorem required_present (hnodup : (members.map Prod.fst).Nodup) {value : Json} {a : α}
    (h : members.lookup name = some (some value)) (hread : decode value = some a) :
    required (present members) name decode = some a := by
  rw [required, lookup_present hnodup, h]
  exact hread

theorem nullable_of_ne {value : Json} (h : value ≠ .null) : nullable decode value = (decode value).map some := by
  cases value <;> first | rfl | exact absurd rfl h

theorem optional_present (hnodup : (members.map Prod.fst).Nodup) (hread : ∀ a, decode (encode a) = some a)
    (hnull : decode .null = none) {value : Option α} (h : members.lookup name = some (value.map encode)) :
    optional (present members) name decode = some value := by
  rw [optional, lookup_present hnodup, h]
  cases value with
  | none => rfl
  | some a =>
    have hne : encode a ≠ .null := fun heq => by
      have hsome := hread a
      rw [heq, hnull] at hsome
      cases hsome
    exact (nullable_of_ne hne).trans (by rw [hread]; rfl)

theorem defaulted_present (hnodup : (members.map Prod.fst).Nodup) {value default : α} {written : Option Json}
    (h : members.lookup name = some written) (hskip : written = none → value = default)
    (hread : ∀ json, written = some json → decode json = some value) :
    defaulted (present members) name default decode = some value := by
  rw [defaulted, lookup_present hnodup, h]
  cases written with
  | none => exact congrArg some (hskip rfl).symm
  | some json => exact hread json rfl

theorem decodeArray_map (hread : ∀ a, decode (encode a) = some a) (items : List α) :
    decodeArray decode (.array (items.map encode)) = some items := by
  rw [decodeArray]
  induction items with
  | nil => rfl
  | cons a items ih => simp [List.mapM_cons, hread, ih]

theorem nonempty_eq_none {items : List α} (h : nonempty encode items = none) : items = [] := by
  by_contra hne
  rw [nonempty, if_neg hne] at h
  cases h

theorem decodeArray_of_nonempty (hread : ∀ a, decode (encode a) = some a) {items : List α} {json : Json}
    (h : nonempty encode items = some json) : decodeArray decode json = some items := by
  rw [nonempty] at h
  split at h
  · cases h
  · cases h
    exact decodeArray_map hread items

/-- The tag is found, and the other members are left. -/
theorem tagged_build {tag variant : String} {rest : List (String × Option Json)} (h : tag ∉ rest.map Prod.fst) :
    tagged tag (build ((tag, some (.string variant)) :: rest)) = some (variant, build rest) := by
  have hrest : ∀ member ∈ present rest, member.1 ≠ tag := fun member hmember heq =>
    h (heq ▸ (fst_present_sublist rest).subset (List.mem_map_of_mem hmember))
  have hpresent : present ((tag, some (.string variant)) :: rest) = (tag, .string variant) :: present rest := rfl
  have htag : ((tag, .string variant) :: present rest).filter (fun member => member.1 = tag) =
      [(tag, .string variant)] := by
    rw [List.filter_cons, if_pos (decide_eq_true rfl),
      List.filter_eq_nil_iff.2 fun member hmember => by simpa using hrest member hmember]
  have hothers : ((tag, .string variant) :: present rest).filter (fun member => member.1 ≠ tag) = present rest := by
    rw [List.filter_cons, if_neg (by simp),
      List.filter_eq_self.2 fun member hmember => by simpa using hrest member hmember]
  rw [build, hpresent, tagged, htag, hothers, build]

end Members

theorem keepLast_of_nodup : ∀ {members : List (String × Json)}, (members.map Prod.fst).Nodup →
    keepLast members = members
  | [], _ => rfl
  | member :: members, h => by
    obtain ⟨hn, hnodup⟩ := List.nodup_cons.1 h
    rw [keepLast, if_neg hn, keepLast_of_nodup hnodup]

end Json
