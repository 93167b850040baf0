import Mathlib.Data.List.Infix
import Mathlib.Data.List.TakeWhile
import WasiAuth.Base.Text
import WasiAuth.Base.Utf8
import WasiAuth.Identity.Values

/-! # The path sent to the policy service

`normalize_policy_path` of the HTTP middleware's policy core: the query is cut off, percent escapes are decoded once,
and what could be read in two ways is refused. The decoding is one loop over the bytes that looks two bytes ahead and
refuses as it goes; `decodeFrom_eq_ok` says what it has written when it ends, `decodeFrom_plain` that it leaves bytes
it has written as they are.
-/

namespace WasiAuth.PolicyCore

open Relational
open Utf8 (ascii)

/-- The error of `normalize_policy_path`. -/
inductive PolicyError where
  | invalidPath
deriving DecidableEq, Repr

/-- lib.rs:26 -/
def maxPolicyPathLen : Nat := 8 * 1024

/-- `u8::is_ascii_control`. -/
def isAsciiControl (byte : UInt8) : Bool := decide (byte < 32) || byte == 127

/-- lib.rs:436 -/
def hexValue (byte : UInt8) : Option UInt8 :=
  if ascii '0' ≤ byte ∧ byte ≤ ascii '9' then some (byte - ascii '0')
  else if ascii 'a' ≤ byte ∧ byte ≤ ascii 'f' then some (byte - ascii 'a' + 10)
  else if ascii 'A' ≤ byte ∧ byte ≤ ascii 'F' then some (byte - ascii 'A' + 10)
  else none

/-- The loop over `input`, with the bytes from `index` on as its argument. -/
def decodeFrom (decoded : Bytes) : Bytes → Except PolicyError Bytes
  | [] => .ok decoded
  | byte :: rest =>
    if byte = ascii '%' then
      match rest with
      | first :: second :: rest =>
        match hexValue first, hexValue second with
        | some high, some low =>
          let decodedByte := (high <<< 4) ||| low
          if decodedByte = ascii '%' ∨ decodedByte = ascii '/' ∨ decodedByte = ascii '\\' ∨ decodedByte = ascii '?' ∨
              decodedByte = ascii '#' ∨ isAsciiControl decodedByte then
            .error .invalidPath
          else decodeFrom (decoded ++ [decodedByte]) rest
        | _, _ => .error .invalidPath
      | _ => .error .invalidPath
    else if byte = ascii '\\' ∨ byte = ascii '#' ∨ isAsciiControl byte then .error .invalidPath
    else decodeFrom (decoded ++ [byte]) rest

/-- lib.rs:380 -/
def rawPath (pathWithQuery : String) : String :=
  match Text.splitOnce '?' pathWithQuery.toList with
  | none => pathWithQuery
  | some (path, _) => String.ofList path

/-- `decoded.split('/')`. -/
def segments (path : String) : List (List Char) := path.toList.splitOn '/'

/-- lib.rs:379 -/
def normalizePolicyPath (pathWithQuery : String) : Except PolicyError String :=
  let rawPath := rawPath pathWithQuery
  if rawPath = "" then .ok "/"
  else if rawPath.toList.head? ≠ some '/' ∨ rawPath.utf8ByteSize > maxPolicyPathLen then .error .invalidPath
  else do
    let bytes ← decodeFrom [] (utf8Bytes rawPath)
    let decoded ← okOr .invalidPath (String.fromUTF8? bytes.toByteArray)
    if decoded.utf8ByteSize > maxPolicyPathLen ∨ "//".toList <:+: decoded.toList ∨
        (segments decoded).tail.any fun segment => segment = ".".toList ∨ segment = "..".toList then
      .error .invalidPath
    else .ok decoded

/-! ## The loop -/

theorem digit_of_hexValue {byte value : UInt8} (h : hexValue byte = some value) :
    Percent.digit byte = some value.toNat ∧ value.toNat < 16 := by
  have hall : ∀ n < 256, ((hexValue (UInt8.ofNat n)).all fun value =>
      Percent.digit (UInt8.ofNat n) = some value.toNat ∧ value.toNat < 16) = true := by decide +kernel
  have hbyte := hall byte.toNat byte.toNat_lt
  rw [UInt8.ofNat_toNat, h, Option.all_some] at hbyte
  exact of_decide_eq_true hbyte

theorem shift_or_eq {high low : UInt8} (hhigh : high.toNat < 16) (hlow : low.toNat < 16) :
    (high <<< 4) ||| low = UInt8.ofNat (16 * high.toNat + low.toNat) := by
  have hall : ∀ h < 16, ∀ l < 16, (UInt8.ofNat h <<< 4) ||| UInt8.ofNat l = UInt8.ofNat (16 * h + l) := by decide
  have hbytes := hall high.toNat hhigh low.toNat hlow
  rwa [UInt8.ofNat_toNat, UInt8.ofNat_toNat] at hbytes

/-- A byte that the loop copies. -/
def Plain (byte : UInt8) : Prop :=
  byte ≠ ascii '%' ∧ byte ≠ ascii '\\' ∧ byte ≠ ascii '#' ∧ isAsciiControl byte = false

theorem decodeFrom_cons {decoded rest : Bytes} {byte : UInt8} (hbyte : byte ≠ ascii '%') :
    decodeFrom decoded (byte :: rest) =
      if byte = ascii '\\' ∨ byte = ascii '#' ∨ isAsciiControl byte then .error .invalidPath
      else decodeFrom (decoded ++ [byte]) rest := by
  rw [decodeFrom.eq_def]
  exact if_neg hbyte

theorem exists_of_decodeFrom_escape {decoded rest out : Bytes}
    (h : decodeFrom decoded (ascii '%' :: rest) = .ok out) :
    ∃ byte rest', Percent.decode (ascii '%' :: rest) = byte :: Percent.decode rest' ∧ rest' <:+ rest ∧
      rest'.length < rest.length ∧ Plain byte ∧ byte ≠ ascii '?' ∧ decodeFrom (decoded ++ [byte]) rest' = .ok out := by
  rw [decodeFrom.eq_def] at h
  match rest, h with
  | first :: second :: rest, h =>
    simp only [↓reduceIte] at h
    cases hfirst : hexValue first with
    | none => simp [hfirst] at h
    | some high =>
      cases hsecond : hexValue second with
      | none => simp [hfirst, hsecond] at h
      | some low =>
        simp only [hfirst, hsecond] at h
        obtain ⟨hhigh, hhigh'⟩ := digit_of_hexValue hfirst
        obtain ⟨hlow, hlow'⟩ := digit_of_hexValue hsecond
        split at h
        · cases h
        next hplain =>
          simp only [not_or, Bool.not_eq_true] at hplain
          obtain ⟨hpercent, -, hback, hquery, hhash, hcontrol⟩ := hplain
          refine ⟨(high <<< 4) ||| low, rest, ?_, ⟨[first, second], rfl⟩,
            by rw [List.length_cons, List.length_cons]; omega, ⟨hpercent, hback, hhash, hcontrol⟩, hquery, h⟩
          rw [Percent.decode_escape hhigh hlow, shift_or_eq hhigh' hlow']
  | [_], h => simp at h
  | [], h => simp at h

theorem decodeFrom_eq_ok {decoded out : Bytes} : ∀ {bytes : Bytes}, decodeFrom decoded bytes = .ok out →
    out = decoded ++ Percent.decode bytes ∧
      ∀ byte ∈ Percent.decode bytes, Plain byte ∧ (byte = ascii '?' → ascii '?' ∈ bytes)
  | [], h => by
    cases h
    exact ⟨(List.append_nil _).symm, fun byte hbyte => nomatch hbyte⟩
  | byte :: rest, h => by
    by_cases hpercent : byte = ascii '%'
    · subst hpercent
      obtain ⟨byte, rest', hdecode, hsuffix, hlt, hplain, hquery, h⟩ := exists_of_decodeFrom_escape h
      obtain ⟨hout, hrest⟩ := decodeFrom_eq_ok h
      rw [hdecode]
      refine ⟨by rw [hout, List.append_assoc, List.singleton_append], fun b hb => ?_⟩
      rcases List.mem_cons.1 hb with rfl | hb
      · exact ⟨hplain, fun h => absurd h hquery⟩
      · exact ⟨(hrest b hb).1, fun h => List.mem_cons_of_mem _ (hsuffix.mem ((hrest b hb).2 h))⟩
    · rw [decodeFrom_cons hpercent] at h
      rw [Percent.decode_cons hpercent]
      split at h
      · cases h
      next hrefused =>
        simp only [not_or, Bool.not_eq_true] at hrefused
        obtain ⟨hout, hrest⟩ := decodeFrom_eq_ok h
        refine ⟨by rw [hout, List.append_assoc, List.singleton_append], fun b hb => ?_⟩
        rcases List.mem_cons.1 hb with rfl | hb
        · exact ⟨⟨hpercent, hrefused⟩, fun h => h ▸ List.mem_cons_self⟩
        · exact ⟨(hrest b hb).1, fun h => List.mem_cons_of_mem _ ((hrest b hb).2 h)⟩
termination_by bytes => bytes.length

theorem decodeFrom_plain {decoded : Bytes} : ∀ {bytes : Bytes}, (∀ byte ∈ bytes, Plain byte) →
    decodeFrom decoded bytes = .ok (decoded ++ bytes)
  | [], _ => by rw [decodeFrom, List.append_nil]
  | byte :: rest, h => by
    obtain ⟨hpercent, hplain⟩ := h byte List.mem_cons_self
    rw [decodeFrom_cons hpercent, if_neg (by simpa only [not_or, Bool.not_eq_true] using hplain),
      decodeFrom_plain fun b hb => h b (List.mem_cons_of_mem _ hb), List.append_assoc, List.singleton_append]

/-! ## The whole function -/

theorem fromUTF8?_eq_some {bytes : Bytes} {text : String} :
    String.fromUTF8? bytes.toByteArray = some text ↔ utf8Bytes text = bytes := by
  have hbytes : utf8Bytes text = bytes ↔ text.toByteArray = bytes.toByteArray := by
    refine ⟨fun h => ?_, fun h => ?_⟩
    · rw [← h]
      exact ByteArray.ext (by rw [List.data_toByteArray]; rfl)
    · rw [utf8Bytes, String.toUTF8, h, List.data_toByteArray, List.toList_toArray]
  rw [hbytes, String.fromUTF8?]
  split
  next hvalid => rw [Option.some_inj, ← String.toByteArray_inj, String.fromUTF8, eq_comm]
  next hvalid => exact iff_of_false (by simp) fun h => hvalid (h ▸ text.isValidUTF8)

theorem rawPath_eq (path : String) : rawPath path = String.ofList (path.toList.takeWhile (· != '?')) := by
  rw [rawPath, ← Text.splitOnce_elim_fst]
  cases Text.splitOnce '?' path.toList with
  | none => exact String.ofList_toList.symm
  | some parts => rfl

/-- What is asked of the decoded text (lib.rs:424-429). -/
structure Unambiguous (decoded : String) : Prop where
  size : decoded.utf8ByteSize ≤ maxPolicyPathLen
  slashes : ¬ "//".toList <:+: decoded.toList
  dots : ∀ segment ∈ (segments decoded).tail, segment ≠ ".".toList ∧ segment ≠ "..".toList

theorem normalizePolicyPath_eq_ok {path decoded : String} (hpath : rawPath path ≠ "") :
    normalizePolicyPath path = .ok decoded ↔
      (rawPath path).toList.head? = some '/' ∧ (rawPath path).utf8ByteSize ≤ maxPolicyPathLen ∧
      decodeFrom [] (utf8Bytes (rawPath path)) = .ok (utf8Bytes decoded) ∧ Unambiguous decoded := by
  have hclear : Unambiguous decoded ↔ ¬ (decoded.utf8ByteSize > maxPolicyPathLen ∨ "//".toList <:+: decoded.toList ∨
      (segments decoded).tail.any fun segment => segment = ".".toList ∨ segment = "..".toList) := by
    simp only [not_or, Nat.not_lt, List.any_eq_true, decide_eq_true_eq, not_exists, not_and]
    exact ⟨fun h => ⟨h.size, h.slashes, h.dots⟩, fun ⟨hsize, hslashes, hdots⟩ => ⟨hsize, hslashes, hdots⟩⟩
  simp only [normalizePolicyPath]
  rw [if_neg hpath, hclear]
  split
  next hguard =>
    refine iff_of_false (by simp) fun ⟨hhead, hsize, _⟩ => ?_
    rcases hguard with hguard | hguard
    · exact hguard hhead
    · omega
  next hguard =>
    obtain ⟨hhead, hsize⟩ := not_or.1 hguard
    simp only [bind_eq_ok, okOr_eq_ok, fromUTF8?_eq_some]
    constructor
    · rintro ⟨bytes, hbytes, text, rfl, h⟩
      split at h
      · cases h
      next hclear =>
        cases h
        exact ⟨not_not.1 hhead, Nat.le_of_not_lt hsize, hbytes, hclear⟩
    · rintro ⟨-, -, hbytes, hclear⟩
      exact ⟨_, hbytes, _, rfl, if_neg hclear⟩

/-! ## Accepted paths -/

/-- An accepted path, as the caller of `normalize_policy_path` may rely on it. -/
structure Canonical (path : String) : Prop where
  root : path.toList.head? = some '/'
  plain : ∀ byte ∈ utf8Bytes path, Plain byte
  query : '?' ∉ path.toList
  unambiguous : Unambiguous path

theorem canonical_root : Canonical "/" where
  root := rfl
  plain := by
    have hbytes : utf8Bytes "/" = [ascii '/'] := by decide
    rw [hbytes]
    rintro byte hbyte
    rw [List.mem_singleton.1 hbyte]
    exact ⟨by decide, by decide, by decide, by decide⟩
  query := by decide
  unambiguous := ⟨by decide, by decide, by decide⟩

theorem encode_head {text : String} {c : Char} (hc : c.toNat < 128) (h : text.toList.head? = some c) :
    ∃ rest, utf8Bytes text = ascii c :: rest := by
  obtain ⟨rest, hrest⟩ := List.head?_eq_some_iff.1 h
  exact ⟨Utf8.encode rest, by rw [utf8Bytes_eq, hrest, Utf8.encode_cons, Utf8.utf8EncodeChar_ascii hc]; rfl⟩

theorem canonical_of_normalizePolicyPath {path decoded : String} (h : normalizePolicyPath path = .ok decoded) :
    Canonical decoded := by
  by_cases hpath : rawPath path = ""
  · rw [normalizePolicyPath, if_pos hpath] at h
    cases h
    exact canonical_root
  · obtain ⟨hhead, -, hdecode, hclear⟩ := (normalizePolicyPath_eq_ok hpath).1 h
    obtain ⟨hbytes, hplain⟩ := decodeFrom_eq_ok hdecode
    rw [List.nil_append] at hbytes
    have hquery : ascii '?' ∉ utf8Bytes (rawPath path) := by
      rw [utf8Bytes_eq, Utf8.ascii_mem_encode_iff (by decide), rawPath_eq, String.toList_ofList]
      intro hmem
      simpa using List.mem_takeWhile_imp hmem
    refine ⟨?_, fun byte hbyte => (hplain byte (hbytes ▸ hbyte)).1, fun hmem => ?_, hclear⟩
    · obtain ⟨rest, hrest⟩ := encode_head (by decide) hhead
      rw [hrest, Percent.decode_cons (by decide), utf8Bytes_eq] at hbytes
      exact Utf8.head?_of_encode (by decide) hbytes
    · rw [← Utf8.ascii_mem_encode_iff (by decide), ← utf8Bytes_eq, hbytes] at hmem
      exact hquery ((hplain _ hmem).2 rfl)

theorem Canonical.normalizePolicyPath {path : String} (h : Canonical path) : normalizePolicyPath path = .ok path := by
  have hraw : rawPath path = path := by
    have htake : path.toList.takeWhile (· != '?') = path.toList :=
      List.takeWhile_eq_self_iff.2 fun c hc => bne_iff_ne.2 fun heq => h.query (heq ▸ hc)
    rw [rawPath_eq, htake, String.ofList_toList]
  have hne : rawPath path ≠ "" := by
    rw [hraw]
    rintro rfl
    exact absurd h.root (by decide)
  rw [normalizePolicyPath_eq_ok hne, hraw]
  exact ⟨h.root, h.unambiguous.size, decodeFrom_plain h.plain, h.unambiguous⟩

theorem Canonical.not_mem {path : String} (h : Canonical path) {c : Char} (hc : c ∈ path.toList) :
    c ≠ '%' ∧ c ≠ '?' ∧ c ≠ '#' ∧ c ≠ '\\' ∧ ¬ (c.toNat < 32 ∨ c.toNat = 127) := by
  by_cases hascii : c.toNat < 128
  · have hplain := h.plain (ascii c) (by rw [utf8Bytes_eq]; exact Utf8.ascii_mem_encode hascii hc)
    obtain ⟨hpercent, hback, hhash, hcontrol⟩ := hplain
    refine ⟨?_, fun heq => h.query (heq ▸ hc), ?_, ?_, ?_⟩
    · rintro rfl
      exact hpercent rfl
    · rintro rfl
      exact hhash rfl
    · rintro rfl
      exact hback rfl
    · have hnat := Utf8.toNat_ascii hascii
      simp only [isAsciiControl, Bool.or_eq_false_iff, decide_eq_false_iff_not, UInt8.lt_iff_toNat_lt, hnat,
        beq_eq_false_iff_ne, ne_eq, ← UInt8.toNat_inj] at hcontrol
      exact not_or.2 hcontrol
  · refine ⟨?_, ?_, ?_, ?_, by omega⟩ <;>
      · rintro rfl
        exact hascii (by decide)

theorem Canonical.segments {path : String} (h : Canonical path) :
    (∀ segment ∈ segments path, segment ≠ ".".toList ∧ segment ≠ "..".toList) ∧
      ∀ segment ∈ (PolicyCore.segments path).tail.dropLast, segment ≠ [] := by
  refine ⟨fun segment hsegment => ?_, fun segment hsegment hnil => ?_⟩
  · obtain ⟨rest, hrest⟩ := List.head?_eq_some_iff.1 h.root
    have hsegments : PolicyCore.segments path = [] :: rest.splitOn '/' := by
      rw [PolicyCore.segments, hrest, List.splitOn_cons_eq_if_modifyHead, if_pos (by decide)]
    rw [hsegments] at hsegment
    rcases List.mem_cons.1 hsegment with rfl | hsegment
    · exact ⟨by decide, by decide⟩
    · exact h.unambiguous.dots segment (by rw [hsegments]; exact hsegment)
  · exact h.unambiguous.slashes (Text.infix_of_nil_mem_splitOn (hnil ▸ hsegment))

/-- What is accepted is the decoding of the path, or the root for the empty path, and is accepted again unchanged. -/
theorem normalizePolicyPath_canonical (path decoded : String) (h : normalizePolicyPath path = .ok decoded) :
    let raw := String.ofList (path.toList.takeWhile (· != '?'))
    (raw = "" → decoded = "/") ∧
    (raw ≠ "" → utf8Bytes decoded = Percent.decode (utf8Bytes raw)) ∧
    decoded.toList.head? = some '/' ∧
    (∀ c ∈ decoded.toList, c ≠ '%' ∧ c ≠ '?' ∧ c ≠ '#' ∧ c ≠ '\\' ∧ ¬ (c.toNat < 32 ∨ c.toNat = 127)) ∧
    (∀ segment ∈ segments decoded, segment ≠ ".".toList ∧ segment ≠ "..".toList) ∧
    (∀ segment ∈ (segments decoded).tail.dropLast, segment ≠ []) ∧
    normalizePolicyPath decoded = .ok decoded := by
  intro raw
  have hraw : rawPath path = raw := rawPath_eq path
  have hcanonical := canonical_of_normalizePolicyPath h
  refine ⟨fun hempty => ?_, fun hpath => ?_, hcanonical.root, fun c hc => hcanonical.not_mem hc,
    hcanonical.segments.1, hcanonical.segments.2, hcanonical.normalizePolicyPath⟩
  · rw [normalizePolicyPath, if_pos (hraw.trans hempty)] at h
    cases h
    rfl
  · have hdecode := ((normalizePolicyPath_eq_ok (hraw ▸ hpath)).1 h).2.2.1
    rw [hraw] at hdecode
    exact (decodeFrom_eq_ok hdecode).1

/-- The escaped space of the path is decoded. -/
theorem normalizePolicyPath_report :
    normalizePolicyPath "/a%20b?x=%2f" = .ok "/a b" ∧ normalizePolicyPath "/a b" = .ok "/a b" := by
  have hraw : rawPath "/a%20b?x=%2f" = "/a%20b" := by decide
  have h : normalizePolicyPath "/a%20b?x=%2f" = .ok "/a b" := by
    rw [normalizePolicyPath_eq_ok (by rw [hraw]; decide), hraw]
    exact ⟨by decide, by decide, by decide, by decide, by decide, by decide⟩
  exact ⟨h, (normalizePolicyPath_canonical _ _ h).2.2.2.2.2.2⟩

/-- The empty path is the root, which is not what it decodes to. -/
theorem exists_empty_path_root : ∃ path decoded, normalizePolicyPath path = .ok decoded ∧
    utf8Bytes decoded ≠ Percent.decode (utf8Bytes (String.ofList (path.toList.takeWhile (· != '?')))) :=
  ⟨"?x", "/", rfl, by decide⟩

end WasiAuth.PolicyCore
