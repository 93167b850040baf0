import WasiAuth.Base.Utf8
import WasiAuth.Identity.Session

/-! # Values the services compute for their statements

Every service of `src/postgres/*.rs` has its own copy of these helpers; they agree. Times are `u64` and
saturate, and enter a statement as `i64` (`unixMs` is the current time). What a random source returns is an
argument of the call, `none` when it fails.
-/

namespace WasiAuth

/-- `clock.now_unix_seconds().saturating_mul(1_000)`. -/
def saturatingMs (nowUnixSeconds : Nat) : Nat := min (nowUnixSeconds * 1000) (2 ^ 64 - 1)

/-- `u64_to_i64`. -/
def u64ToI64 (value : Nat) : Int := min value (2 ^ 63 - 1)

/-- `u64_to_i64(now_ms.saturating_add(ttl_ms))`. -/
def expiryMs (nowUnixSeconds ttlMs : Nat) : Int :=
  u64ToI64 (min (saturatingMs nowUnixSeconds + ttlMs) (2 ^ 64 - 1))

/-- `uuid_v7`: 48 bits of time, the version, and what is left of ten random bytes. -/
def uuidV7 (nowMs : Nat) (random : BitVec 80) : Uuid :=
  let r := random.toNat
  ⟨BitVec.ofNat 128 (min nowMs (2 ^ 48 - 1) * 2 ^ 80 + (0x70 + r / 2 ^ 72 % 16) * 2 ^ 72 +
    r / 2 ^ 64 % 256 * 2 ^ 64 + (0x80 + r / 2 ^ 56 % 64) * 2 ^ 56 + r % 2 ^ 56)⟩

/-- Five minutes is a lifetime that every configuration of sessions accepts. -/
theorem shortestSessionTtl : 300 ≤ 300 ∧ 300 ≤ 24 * 60 * 60 := by decide

/-- `u8::is_ascii_whitespace`. -/
def isAsciiWhitespace (c : Char) : Bool := c = ' ' || c = '\t' || c = '\n' || c = '\x0c' || c = '\r'

/-- `str::trim`. -/
def trim (text : String) : String :=
  String.ofList ((text.toList.dropWhile isWhitespace).reverse.dropWhile isWhitespace).reverse

/-- `str::as_bytes`. -/
def utf8Bytes (text : String) : Bytes := text.toUTF8.data.toList

theorem utf8Bytes_eq (text : String) : utf8Bytes text = Utf8.encode text.toList := Utf8.toList_toUTF8 text

/-- `Option::ok_or`. -/
def okOr {ε α : Type} (error : ε) : Option α → Except ε α
  | none => .error error
  | some a => .ok a

@[simp] theorem okOr_eq_ok {ε α : Type} {error : ε} {o : Option α} {a : α} : okOr error o = .ok a ↔ o = some a := by
  cases o <;> simp [okOr]

theorem okOr_eq_error {ε α : Type} {error e : ε} {o : Option α} : okOr error o = .error e ↔ o = none ∧ e = error := by
  cases o <;> simp [okOr, eq_comm]

/-- A result with the equation it comes from, for a constructor that stores what its validator returned. -/
def attachOk {ε α : Type} (x : Except ε α) : Except ε { a // x = .ok a } :=
  match x with
  | .error e => .error e
  | .ok a => .ok ⟨a, rfl⟩

theorem attachOk_of_eq {ε α : Type} {x : Except ε α} {a : α} (h : x = .ok a) : attachOk x = .ok ⟨a, h⟩ := by
  subst h
  rfl

/-! ## Sealed bytes -/

/-- `[u8; NONCE_BYTES]`. -/
structure Nonce where
  bytes : Bytes
  length : bytes.length = 12

/-- The nonce, then the ciphertext. -/
def sealWith (encrypt : (nonce plaintext : Bytes) → Option Bytes) (nonce : Nonce) (plaintext : Bytes) : Option Bytes :=
  (encrypt nonce.bytes plaintext).map (nonce.bytes ++ ·)

def openWith (decrypt : (nonce ciphertext : Bytes) → Option Bytes) (sealed : Bytes) : Option Bytes :=
  if sealed.length ≤ 12 then none else decrypt (sealed.take 12) (sealed.drop 12)

theorem openWith_of_sealWith {encrypt decrypt : Bytes → Bytes → Option Bytes} {nonce : Nonce} {plaintext sealed : Bytes}
    (hround : ∀ ciphertext, encrypt nonce.bytes plaintext = some ciphertext →
      ciphertext ≠ [] ∧ decrypt nonce.bytes ciphertext = some plaintext)
    (h : sealWith encrypt nonce plaintext = some sealed) : openWith decrypt sealed = some plaintext := by
  obtain ⟨ciphertext, hencrypt, rfl⟩ := Option.map_eq_some_iff.1 h
  obtain ⟨hne, hdecrypt⟩ := hround ciphertext hencrypt
  have htake : (nonce.bytes ++ ciphertext).take 12 = nonce.bytes := List.take_left' nonce.length
  have hdrop : (nonce.bytes ++ ciphertext).drop 12 = ciphertext := List.drop_left' nonce.length
  rw [openWith, if_neg, htake, hdrop, hdecrypt]
  simp [nonce.length, hne]

end WasiAuth
