import Mathlib.Data.List.DropRight
import Mathlib.Data.Nat.Digits.Defs
import Mathlib.Tactic.Common

/-! # Where a URL reference leads

The origin of the URL that the WHATWG parser makes of a reference, against a base whose scheme is special and has a
default port (the URL standard's ftp, http, https, ws and wss). Paths, queries and fragments cannot make the parser fail
and are not part of an origin, so they are not built here.

Against such a base a backslash counts as a slash, and tabs and newlines are taken out before anything is read.

The host parser (domain to ASCII, IPv4 and IPv6 addresses) is a parameter.
-/

namespace Url

/-- The special schemes with a port; `file` has none and its origins are opaque. -/
def defaultPort (scheme : String) : Option Nat :=
  match scheme with
  | "ftp" => some 21
  | "http" | "ws" => some 80
  | "https" | "wss" => some 443
  | _ => none

/-- A port that is written: the default one never is. -/
def Port (scheme : String) := { port : Option Nat // ∀ p ∈ port, p < 65536 ∧ defaultPort scheme ≠ some p }

/-- The origin of a URL with a special scheme. -/
structure Origin where
  scheme : String
  special : (defaultPort scheme).isSome = true
  host : String
  port : Port scheme

/-! ## The parser's states -/

def isC0OrSpace (c : Char) : Bool := decide (c.val ≤ 0x20)

def isTabOrNewline (c : Char) : Bool := decide (c = '\t' ∨ c = '\n' ∨ c = '\r')

/-- The input without C0 controls and spaces around it, and without tabs and newlines. -/
def strip (input : List Char) : List Char :=
  ((input.dropWhile isC0OrSpace).rdropWhile isC0OrSpace).filter fun c => !isTabOrNewline c

def isSlash (c : Char) : Bool := decide (c = '/' ∨ c = '\\')

def endsAuthority (c : Char) : Bool := isSlash c || decide (c = '?' ∨ c = '#')

def isSchemeChar (c : Char) : Bool := c.isAlphanum || decide (c = '+' ∨ c = '-' ∨ c = '.')

/-- Scheme start and scheme state: the scheme, in lower case, and what follows its colon. -/
def schemePart (input : List Char) : Option (String × List Char) :=
  if input.head?.any Char.isAlpha && decide ((input.dropWhile isSchemeChar).head? = some ':') then
    some ((String.ofList (input.takeWhile isSchemeChar)).toLower, (input.dropWhile isSchemeChar).tail)
  else none

/-- Port state: an empty port and the default one are none. -/
def parsePort (scheme : String) (digits : List Char) : Option (Port scheme) :=
  let port := Nat.ofDigitChars 10 digits 0
  if digits = [] then some ⟨none, nofun⟩
  else if !digits.all Char.isDigit then none
  else if hrange : port < 65536 then
    if hdefault : defaultPort scheme = some port then some ⟨none, nofun⟩
    else some ⟨some port, fun p hp => by rw [← Option.mem_some.1 hp]; exact ⟨hrange, hdefault⟩⟩
  else none

/-- Host state: the text to the first colon outside brackets, and what follows it. -/
def splitHost : (insideBrackets : Bool) → List Char → List Char × List Char
  | _, [] => ([], [])
  | insideBrackets, c :: rest =>
    if c = ':' ∧ insideBrackets = false then ([], rest)
    else
      let split := splitHost (if c = '[' then true else if c = ']' then false else insideBrackets) rest
      (c :: split.1, split.2)

section Resolve
variable (parseHost : List Char → Option String)

/-- Authority, host and port state: what stands before the last at sign are credentials. -/
def authority (scheme : String) (special : (defaultPort scheme).isSome = true) (rest : List Char) : Option Origin :=
  let split := splitHost false ((rest.takeWhile fun c => !endsAuthority c).rtakeWhile fun c => decide (c ≠ '@'))
  if split.1 = [] then none
  else (parseHost split.1).bind fun host => (parsePort scheme split.2).map fun port => ⟨scheme, special, host, port⟩

def startsWithTwoSlashes : List Char → Bool
  | c :: d :: _ => isSlash c && isSlash d
  | _ => false

/-- Relative, relative slash and special authority ignore slashes state: an authority follows two slashes, and anything
else stays with the base. -/
def relative (base : Origin) (rest : List Char) : Option Origin :=
  if startsWithTwoSlashes rest then authority parseHost base.scheme base.special (rest.dropWhile isSlash) else some base

/-- The origin of the URL the reference resolves to; none if parsing fails or the origin is opaque. -/
def resolve (base : Origin) (input : List Char) : Option Origin :=
  match schemePart (strip input) with
  | none => relative parseHost base (strip input)
  | some (scheme, rest) =>
    if special : (defaultPort scheme).isSome = true then
      if scheme = base.scheme ∧ !(List.isPrefixOf ['/', '/'] rest) then relative parseHost base rest
      else authority parseHost scheme special (rest.dropWhile isSlash)
    else none

/-- Against every origin of the scheme the reference resolves to that origin. -/
def StaysOnOrigin (scheme : String) (input : List Char) : Prop :=
  ∀ base : Origin, base.scheme = scheme → resolve parseHost base input = some base

/-! ## References without a scheme -/

variable {parseHost} {scheme : String} {input : List Char}

theorem isTabOrNewline_eq_false {c : Char} (h : 0x20 ≤ c.val) : isTabOrNewline c = false := by
  refine decide_eq_false ?_
  rintro (rfl | rfl | rfl) <;> exact absurd h (by decide)

/-- Without controls only spaces around the text go. -/
theorem strip_eq (hplain : ∀ c ∈ input, 0x20 ≤ c.val) (hspace : input.head? ≠ some ' ') :
    strip input = input.rdropWhile isC0OrSpace := by
  have hdrop : input.dropWhile isC0OrSpace = input := by
    cases input with
    | nil => rfl
    | cons c rest =>
      have hc : isC0OrSpace c = false := by
        refine decide_eq_false fun hle => hspace ?_
        have hval : c.val = ' '.val := UInt32.le_antisymm hle (hplain c List.mem_cons_self)
        rw [List.head?_cons, Char.ext hval]
      simp [hc]
  rw [strip, hdrop, List.filter_eq_self]
  intro c hc
  have hmem : c ∈ input := (List.rdropWhile_prefix isC0OrSpace input).subset hc
  rw [isTabOrNewline_eq_false (hplain c hmem), Bool.not_false]

theorem startsWithTwoSlashes_rdropWhile :
    startsWithTwoSlashes (input.rdropWhile isC0OrSpace) = startsWithTwoSlashes input := by
  have hslash : ∀ {c : Char}, isC0OrSpace c = true → isSlash c = false := by
    intro c hc
    refine decide_eq_false ?_
    rintro (rfl | rfl) <;> exact absurd hc (by decide)
  have hsplit := List.rdropWhile_append_rtakeWhile (p := isC0OrSpace) (l := input)
  have htail : ∀ c ∈ input.rtakeWhile isC0OrSpace, isSlash c = false := fun c hc => hslash (List.mem_rtakeWhile_imp hc)
  -- what is dropped holds no slash, so two slashes at the start are never among it
  generalize input.rdropWhile isC0OrSpace = kept at *
  generalize input.rtakeWhile isC0OrSpace = dropped at *
  subst hsplit
  rcases kept with _ | ⟨c, _ | ⟨d, kept⟩⟩
  · rcases dropped with _ | ⟨c, _ | ⟨d, dropped⟩⟩
    · rfl
    · rfl
    · simp [startsWithTwoSlashes, htail c]
  · rcases dropped with _ | ⟨d, dropped⟩
    · rfl
    · simp [startsWithTwoSlashes, htail d]
  · rfl

theorem schemePart_eq_none (h : ∀ c ∈ input.head?, c.isAlpha = false) : schemePart input = none := by
  cases input with
  | nil => rfl
  | cons c rest => simp [schemePart, h c rfl]

theorem defaultPort_ne_some {port : Nat} (h : port < 21) : defaultPort scheme ≠ some port := by
  unfold defaultPort
  split <;> simp <;> omega

/-- Two slashes lead away from one of two origins that differ in their port. -/
theorem not_staysOnOrigin (special : (defaultPort scheme).isSome = true) (hscheme : schemePart (strip input) = none)
    (h : startsWithTwoSlashes (strip input) = true) : ¬ StaysOnOrigin parseHost scheme input := by
  intro hstays
  have hport : ∀ port < 21, ∀ p ∈ some port, p < 65536 ∧ defaultPort scheme ≠ some p := by
    intro port hlt p hp
    obtain rfl := Option.mem_some.1 hp
    exact ⟨by omega, defaultPort_ne_some hlt⟩
  have hresolve : ∀ port (hlt : port < 21), authority parseHost scheme special ((strip input).dropWhile isSlash) =
      some ⟨scheme, special, "host", ⟨some port, hport port hlt⟩⟩ := by
    intro port hlt
    have hbase := hstays ⟨scheme, special, "host", ⟨some port, hport port hlt⟩⟩ rfl
    rwa [resolve, hscheme, relative, if_pos h] at hbase
  have hsame := (hresolve 1 (by omega)).symm.trans (hresolve 2 (by omega))
  injection hsame with hsame
  injection hsame with _ _ hsame
  exact absurd (Option.some.inj (congrArg Subtype.val hsame)) (by omega)

/-- A reference without controls that starts neither with a letter nor with a space stays on every origin exactly if it
does not start with two slashes. -/
theorem staysOnOrigin_iff (special : (defaultPort scheme).isSome = true) (hplain : ∀ c ∈ input, 0x20 ≤ c.val)
    (hhead : ∀ c ∈ input.head?, c.isAlpha = false ∧ c ≠ ' ') :
    StaysOnOrigin parseHost scheme input ↔ startsWithTwoSlashes input = false := by
  have hstrip : strip input = input.rdropWhile isC0OrSpace :=
    strip_eq hplain fun hspace => (hhead ' ' hspace).2 rfl
  have hscheme : schemePart (strip input) = none := by
    refine schemePart_eq_none fun c hc => (hhead c ?_).1
    obtain ⟨kept, hkept⟩ := List.head?_eq_some_iff.1 (hstrip ▸ hc)
    obtain ⟨dropped, hsplit⟩ := List.rdropWhile_prefix isC0OrSpace input
    rw [← hsplit, hkept]
    rfl
  rw [← startsWithTwoSlashes_rdropWhile, ← hstrip]
  constructor
  · intro hstays
    by_contra h
    exact not_staysOnOrigin special hscheme (Bool.not_eq_false _ ▸ h) hstays
  · intro h base _
    rw [resolve, hscheme, relative, if_neg (by rw [h]; decide)]

end Resolve

end Url
