import WasiAuth.Identity.Tokens
import WasiAuth.Postgres.SigningKeys

/-! # Synchronizing the key ring

`synchronize` (postgres/signing.rs) stores the keys of the ring that have private material. A key that is stored
already keeps its status, a stored key the ring no longer has is retired, and the number of keys stored is compared
with the ring only after the statement has committed. `synchronize_keeps_signer_iff` says for which tables and rings a
signer is left.
-/

namespace WasiAuth

open Relational Transition

/-! ## The ring -/

/-- A key of the ring with what `synchronize` reads of it. -/
structure SigningRingKey (DecodingKey : Type) extends JwtKey DecodingKey where
  /-- `encoding.is_some()`. -/
  hasEncoding : Bool
  publicJwk : Option String

variable {DecodingKey : Type}

def SigningRingKey.isSigner (k : SigningRingKey DecodingKey) : Bool := decide (k.status = .active) && k.hasEncoding

/-- A ring as its constructors and `apply_statuses` leave it: distinct keys, exactly one of which signs. -/
structure SigningRing (DecodingKey : Type) where
  keys : List (SigningRingKey DecodingKey)
  distinctKids : (keys.map fun k => k.kid).Nodup
  oneSigner : (keys.filter SigningRingKey.isSigner).length = 1

def symmetricJwk (kid : String) : String :=
  "\x7b\"alg\":\"HS256\",\"kid\":\"" ++ kid ++ "\",\"kty\":\"oct\",\"use\":\"sig\"\x7d"

def SigningRingKey.descriptor (k : SigningRingKey DecodingKey) : KeyDescriptor where
  kid := k.kid
  algorithm := k.algorithm
  status := k.status
  publicJwk := k.publicJwk.getD (symmetricJwk k.kid)
  hasPrivateMaterial := k.hasEncoding

/-- tokens.rs:327 -/
def SigningRing.descriptors (ring : SigningRing DecodingKey) : List KeyDescriptor :=
  (ring.keys.map SigningRingKey.descriptor).insertionSort fun a b => a.kid ≤ b.kid

/-- tokens.rs:1263 -/
inductive TokenConfigurationError
  | invalid
deriving DecidableEq

/-- The loop of `apply_statuses`; the kids of a ring are distinct, so the first match is the only one. -/
def applyStatus (keys : List (SigningRingKey DecodingKey)) (entry : String × SigningKeyStatus) :
    List (SigningRingKey DecodingKey) :=
  keys.map fun k => if k.kid = entry.1 then { k with status := entry.2 } else k

theorem kids_applyStatus (keys : List (SigningRingKey DecodingKey)) (entry : String × SigningKeyStatus) :
    ((applyStatus keys entry).map fun k => k.kid) = keys.map fun k => k.kid := by
  rw [applyStatus, List.map_map]
  refine List.map_congr_left fun k _ => ?_
  by_cases h : k.kid = entry.1 <;> simp [h]

theorem kids_foldl_applyStatus : ∀ (statuses : List (String × SigningKeyStatus))
    (keys : List (SigningRingKey DecodingKey)),
    ((statuses.foldl applyStatus keys).map fun k => k.kid) = keys.map fun k => k.kid
  | [], _ => rfl
  | entry :: statuses, keys => by
    rw [List.foldl_cons, kids_foldl_applyStatus statuses, kids_applyStatus]

/-- tokens.rs:358; `MutableRing.applyStatuses` is the function with its writes. -/
def SigningRing.applyStatuses (statuses : List (String × SigningKeyStatus)) (ring : SigningRing DecodingKey) :
    Except TokenConfigurationError (SigningRing DecodingKey) :=
  let keys := statuses.foldl applyStatus ring.keys
  if h : (keys.filter SigningRingKey.isSigner).length = 1 then
    .ok ⟨keys, by rw [kids_foldl_applyStatus]; exact ring.distinctKids, h⟩
  else .error .invalid

/-! ## The service -/

/-- signing.rs:287 -/
inductive SigningKeyServiceError
  | invalidInput
  | transport (error : SqlError)
  | row
  | invalidRow
deriving DecidableEq

/-- signing.rs:23 -/
structure SigningKeyRecord where
  keyId : String
  algorithm : SigningAlgorithm
  status : SigningKeyStatus
  publicJwk : String
  keyVersion : String
  secretReference : String
  createdAtMs : Nat
  activatedAtMs : Option Nat
  retiredAtMs : Option Nat
  revokedAtMs : Option Nat

/-- `u64::try_from`. -/
def unsigned (ms : Int) : Except SigningKeyServiceError Nat :=
  if 0 ≤ ms then .ok ms.toNat else .error .invalidRow

/-- signing.rs:242 -/
def optionalUnsigned : Option Int → Except SigningKeyServiceError (Option Nat)
  | none => .ok none
  | some ms => (unsigned ms).map some

/-- `signing_key_from_row`; `secret_reference` is nullable and required. -/
def signingKeyFromRow (row : SigningKey) : Except SigningKeyServiceError SigningKeyRecord := do
  let secretReference ← match row.secretReference with
    | some reference => .ok reference
    | none => .error .row
  let createdAtMs ← unsigned row.createdAtMs
  let activatedAtMs ← optionalUnsigned row.activatedAtMs
  let retiredAtMs ← optionalUnsigned row.retiredAtMs
  let revokedAtMs ← optionalUnsigned row.revokedAtMs
  pure
    { keyId := row.keyId, algorithm := row.algorithm, status := row.status, publicJwk := row.publicJwk
      keyVersion := row.keyVersion, secretReference := secretReference, createdAtMs := createdAtMs
      activatedAtMs := activatedAtMs, retiredAtMs := retiredAtMs, revokedAtMs := revokedAtMs }

/-- `ORDER BY created_at_ms, key_id`. -/
def SigningKey.listOrder (a b : SigningKey) : Prop :=
  a.createdAtMs < b.createdAtMs ∨ a.createdAtMs = b.createdAtMs ∧ a.keyId ≤ b.keyId

instance : DecidableRel SigningKey.listOrder := fun _ _ => inferInstanceAs (Decidable (_ ∨ _))

/-- `list_signing_key_metadata.sql`. -/
def Db.listSigningKeyMetadata (db : Db) : List SigningKey := db.signingKeys.rows.insertionSort SigningKey.listOrder

/-- signing.rs:126 -/
def listSigningKeys (db : Db) : Except SigningKeyServiceError (List SigningKeyRecord) :=
  db.listSigningKeyMetadata.mapM signingKeyFromRow

/-- signing.rs:91-93 -/
def validKeyVersion (keyVersion : String) : Bool :=
  decide (keyVersion ≠ "") && decide (keyVersion.utf8ByteSize ≤ 128) && !keyVersion.toList.any isControl

/-- The parameters of the statement `synchronize` sends. -/
def SigningRing.request (ring : SigningRing DecodingKey) (keyVersion : String) (nowUnixSeconds : Nat) :
    SyncSigningKeys where
  configured := ring.descriptors
  keyVersion := keyVersion
  nowMs := unixMs nowUnixSeconds

/-- signing.rs:86: its result, and the database it leaves. -/
def synchronize (ring : SigningRing DecodingKey) (keyVersion : String) (nowUnixSeconds : Nat) (db : Db) :
    Except SigningKeyServiceError (List SigningKeyRecord) × Db :=
  if validKeyVersion keyVersion then
    match syncSigningKeys (ring.request keyVersion nowUnixSeconds) db with
    | .error e => (.error (.transport e), db)
    | .ok (synchronized, db) =>
      -- the statement has committed
      if synchronized = ring.descriptors.length then (listSigningKeys db, db) else (.error .invalidInput, db)
  else (.error .invalidInput, db)

/-! ## What the statement leaves -/

section Synced
variable {db db' : Db} {p : SyncSigningKeys}

/-- The row of a key after `synced`, from its descriptor and the row before. -/
def SyncSigningKeys.synced (p : SyncSigningKeys) : Option KeyDescriptor → Option SigningKey → Option SigningKey
  | none, row? => row?
  | some d, none => some (p.fresh d)
  | some d, some row => some (p.refreshed d row)

theorem syncKey_find? {d : KeyDescriptor} (h : db.syncKey p d = .ok db') (kid : String) :
    db'.signingKeys.find? kid =
      p.synced (if d.kid = kid then some d else none) (db.signingKeys.find? kid) := by
  obtain ⟨row, hfind, rfl⟩ | ⟨hfind, -, keys, hins, rfl⟩ := syncKey_cases h
  · have hid : (p.refreshed d row).keyId = d.kid := (Table.find?_eq_some.1 hfind).2
    by_cases hk : d.kid = kid
    · have hself := Table.find?_set_self (t := db.signingKeys) (r := p.refreshed d row) (hid.symm ▸ hfind)
      rw [if_pos hk, ← hk, hfind]
      exact hid ▸ hself
    · rw [if_neg hk]
      exact Table.find?_set_ne fun he => hk (hid.symm.trans he.symm)
  · rw [Table.find?_of_insertOr hins]
    by_cases hk : d.kid = kid
    · subst hk
      simp [hfind, SyncSigningKeys.synced, SyncSigningKeys.fresh]
    · simp [hk, Ne.symm hk, SyncSigningKeys.synced, SyncSigningKeys.fresh]

theorem syncKeys_find? : ∀ {ds : List KeyDescriptor} {db db' : Db}, (ds.map (·.kid)).Nodup →
    db.syncKeys p ds = .ok db' → ∀ kid, db'.signingKeys.find? kid =
      p.synced (ds.find? fun d => decide (d.kid = kid)) (db.signingKeys.find? kid)
  | [], _, _, _, h, _ => by cases h; rfl
  | d :: ds, _, _, hnd, h, kid => by
    obtain ⟨hd, hnd⟩ := List.nodup_cons.1 hnd
    obtain ⟨db₁, h₁, h⟩ := bind_eq_ok.1 h
    rw [syncKeys_find? hnd h kid, syncKey_find? h₁ kid, List.find?_cons]
    by_cases hk : d.kid = kid
    · have hnone : ds.find? (fun d => decide (d.kid = kid)) = none := by
        refine List.find?_eq_none.2 fun d' hd' he => hd ?_
        exact List.mem_map.2 ⟨d', hd', (of_decide_eq_true he).trans hk.symm⟩
      simp only [hnone, hk, if_true, decide_true]
      rfl
    · simp only [hk, if_false, decide_false]
      rfl

theorem exists_syncKeys : ∀ {ds : List KeyDescriptor} {db : Db},
    (∀ d ∈ ds, d.status = .active → (db.signingKeys.find? d.kid).isSome) → ∃ db', db.syncKeys p ds = .ok db'
  | [], db, _ => ⟨db, rfl⟩
  | d :: ds, db, h => by
    obtain ⟨db₁, h₁⟩ : ∃ db₁, db.syncKey p d = .ok db₁ := by
      unfold Db.syncKey
      cases hfind : db.signingKeys.find? d.kid with
      | some row => exact ⟨_, rfl⟩
      | none =>
        have hinactive : d.status ≠ .active := fun hact => by simpa [hfind] using h d (by simp) hact
        obtain ⟨keys, hins⟩ := Table.exists_insertOr (e := SqlError.uniqueViolation) (r := p.fresh d) hfind
        refine ⟨{ db with signingKeys := keys }, ?_⟩
        simp only [hinactive, decide_false, Bool.false_and, Bool.false_eq_true, if_false]
        exact bind_eq_ok.2 ⟨keys, hins, rfl⟩
    have hstored : ∀ d' ∈ ds, d'.status = .active → (db₁.signingKeys.find? d'.kid).isSome := by
      intro d' hd' hact
      obtain ⟨row, hrow⟩ := Option.isSome_iff_exists.1 (h d' (by simp [hd']) hact)
      rw [syncKey_find? h₁, hrow]
      by_cases hk : d.kid = d'.kid <;> simp [hk, SyncSigningKeys.synced]
    obtain ⟨db', h'⟩ := exists_syncKeys hstored
    exact ⟨db', bind_eq_ok.2 ⟨db₁, h₁, h'⟩⟩

theorem syncKeys_eq_self : ∀ {ds : List KeyDescriptor},
    (∀ d ∈ ds, ∃ row, db.signingKeys.find? d.kid = some row ∧ p.refreshed d row = row) → db.syncKeys p ds = .ok db
  | [], _ => rfl
  | d :: ds, h => by
    obtain ⟨row, hrow, hsame⟩ := h d (by simp)
    have hid := (Table.find?_eq_some.1 hrow).2
    have hset : db.signingKeys.set (p.refreshed d row) = db.signingKeys := by
      rw [hsame]
      exact Table.set_eq_self (hid.symm ▸ hrow)
    have h₁ : db.syncKey p d = .ok db := by simp only [Db.syncKey, hrow, hset]
    exact bind_eq_ok.2 ⟨db, h₁, syncKeys_eq_self fun d' hd' => h d' (by simp [hd'])⟩

theorem retireMissing_eq_self (h : ∀ row ∈ db.signingKeys, p.missing row = false) : db.retireMissing p = db := by
  have hrows : db.signingKeys.update p.missing p.retire = db.signingKeys := by
    refine Table.ext_rows ((List.map_congr_left fun row hrow => ?_).trans (List.map_id' _))
    exact if_neg (Bool.not_eq_true _ ▸ h row hrow)
  rw [Db.retireMissing, hrows]

end Synced

/-! ## Statuses applied to the ring -/

/-- The statuses `apply_authoritative_statuses` collects. -/
def Db.statuses (db : Db) : List (String × SigningKeyStatus) :=
  db.listSigningKeyMetadata.map fun row => (row.keyId, row.status)

/-- The key with the status of its row. -/
def Db.restated (db : Db) (k : SigningRingKey DecodingKey) : SigningRingKey DecodingKey :=
  match db.signingKeys.find? k.kid with
  | some row => { k with status := row.status }
  | none => k

section Statuses
variable {db : Db} {ring : SigningRing DecodingKey}

theorem foldl_applyStatus : ∀ {statuses : List (String × SigningKeyStatus)} {keys : List (SigningRingKey DecodingKey)},
    (statuses.map Prod.fst).Nodup → statuses.foldl applyStatus keys = keys.map fun k =>
      ((statuses.find? fun e => decide (e.1 = k.kid)).map fun e => { k with status := e.2 }).getD k
  | [], keys, _ => (List.map_id' keys).symm
  | entry :: statuses, keys, hnd => by
    obtain ⟨hentry, hnd⟩ := List.nodup_cons.1 hnd
    rw [List.foldl_cons, foldl_applyStatus hnd, applyStatus, List.map_map]
    refine List.map_congr_left fun k _ => ?_
    by_cases hk : k.kid = entry.1
    · have hnone : statuses.find? (fun e => decide (e.1 = entry.1)) = none :=
        List.find?_eq_none.2 fun e he hkid => hentry (List.mem_map.2 ⟨e, he, of_decide_eq_true hkid⟩)
      simp [hk, hnone]
    · have hne : ¬ entry.1 = k.kid := fun h => hk h.symm
      simp [hk, hne]

theorem mem_statuses {e : String × SigningKeyStatus} :
    e ∈ db.statuses ↔ ∃ row ∈ db.signingKeys, (row.keyId, row.status) = e := by
  rw [Db.statuses, List.mem_map]
  simp only [Db.listSigningKeyMetadata, List.mem_insertionSort]
  rfl

theorem statuses_nodup : (db.statuses.map Prod.fst).Nodup := by
  rw [Db.statuses, List.map_map]
  exact ((List.perm_insertionSort _ _).map _).nodup_iff.2 db.signingKeys.nodup

theorem find?_statuses (kid : String) : db.statuses.find? (fun e => decide (e.1 = kid)) =
    (db.signingKeys.find? kid).map fun row => (row.keyId, row.status) := by
  cases hfind : db.statuses.find? fun e => decide (e.1 = kid) with
  | none =>
    have hnone : db.signingKeys.find? kid = none := Table.find?_eq_none.2 fun row hrow hkid =>
      List.find?_eq_none.1 hfind _ (mem_statuses.2 ⟨row, hrow, rfl⟩) (decide_eq_true hkid)
    rw [hnone, Option.map_none]
  | some e =>
    obtain ⟨row, hrow, rfl⟩ := mem_statuses.1 (List.mem_of_find?_eq_some hfind)
    have hkid : row.keyId = kid := by simpa using List.find?_some hfind
    rw [Table.find?_eq_some.2 ⟨hrow, hkid⟩, Option.map_some]

theorem applyStatuses_eq_ok : (∃ ring', ring.applyStatuses db.statuses = .ok ring') ↔
    ((ring.keys.map db.restated).filter SigningRingKey.isSigner).length = 1 := by
  have hkeys : db.statuses.foldl applyStatus ring.keys = ring.keys.map db.restated := by
    rw [foldl_applyStatus statuses_nodup]
    refine List.map_congr_left fun k _ => ?_
    rw [find?_statuses, Db.restated]
    cases db.signingKeys.find? k.kid <;> rfl
  rw [← hkeys]
  constructor
  · rintro ⟨ring', h⟩
    by_contra hlen
    rw [SigningRing.applyStatuses, dif_neg hlen] at h
    cases h
  · intro hlen
    exact ⟨_, dif_pos hlen⟩

theorem length_filter_eq_one {α κ : Type} {key : α → κ} {q : α → Bool} {l : List α} (hnd : (l.map key).Nodup) :
    (l.filter q).length = 1 ↔ ∃ a ∈ l, q a = true ∧ ∀ b ∈ l, q b = true → b = a := by
  constructor
  · intro h
    obtain ⟨a, ha⟩ := List.length_eq_one_iff.1 h
    have hmem : ∀ b, b ∈ l.filter q ↔ b = a := fun b => by rw [ha, List.mem_singleton]
    obtain ⟨hal, hqa⟩ := List.mem_filter.1 ((hmem a).2 rfl)
    exact ⟨a, hal, hqa, fun b hb hqb => (hmem b).1 (List.mem_filter.2 ⟨hb, hqb⟩)⟩
  · rintro ⟨a, ha, hqa, huniq⟩
    have hsub : (l.filter q).Nodup := hnd.of_map.filter q
    have hle : l.filter q ⊆ [a] := fun b hb => by
      obtain ⟨hbl, hqb⟩ := List.mem_filter.1 hb
      exact List.mem_singleton.2 (huniq b hbl hqb)
    have h₁ : (l.filter q).length ≤ 1 := (List.subperm_of_subset hsub hle).length_le
    have h₂ : 0 < (l.filter q).length := List.length_pos_of_mem (List.mem_filter.2 ⟨ha, hqa⟩)
    omega

/-- With every usable key stored, the ring takes the stored statuses exactly when the active key is one it can sign
with. -/
theorem applyStatuses_iff (hone : db.OneActiveKey)
    (hstored : ∀ k ∈ ring.keys, k.hasEncoding = true → (db.signingKeys.find? k.kid).isSome) :
    (∃ ring', ring.applyStatuses db.statuses = .ok ring') ↔
      ∃ k ∈ ring.keys, k.hasEncoding = true ∧ ∃ row ∈ db.signingKeys, row.keyId = k.kid ∧ row.status = .active := by
  have hkids : ((ring.keys.map db.restated).map fun k => k.kid).Nodup := by
    have hsame : ((fun k : SigningRingKey DecodingKey => k.kid) ∘ db.restated) = fun k => k.kid := by
      funext k
      simp only [Function.comp, Db.restated]
      cases db.signingKeys.find? k.kid <;> rfl
    rw [List.map_map, hsame]
    exact ring.distinctKids
  -- a key signs under its stored status when that row is active
  have hsigns : ∀ k ∈ ring.keys, (db.restated k).isSigner = true ↔
      k.hasEncoding = true ∧ ∃ row ∈ db.signingKeys, row.keyId = k.kid ∧ row.status = .active := by
    intro k hk
    cases hfind : db.signingKeys.find? k.kid with
    | none =>
      have henc : k.hasEncoding = false := by
        by_contra he
        simpa [hfind] using hstored k hk (by simpa using he)
      simp [Db.restated, hfind, SigningRingKey.isSigner, henc]
    | some row =>
      obtain ⟨hrow, hkid⟩ := Table.find?_eq_some.1 hfind
      simp only [Db.restated, hfind, SigningRingKey.isSigner, Bool.and_eq_true, decide_eq_true_eq]
      constructor
      · rintro ⟨hact, henc⟩
        exact ⟨henc, row, hrow, hkid, hact⟩
      · rintro ⟨henc, row', hrow', hkid', hact⟩
        rw [Table.eq_of_key hrow hrow' (hkid.trans hkid'.symm)]
        exact ⟨hact, henc⟩
  rw [applyStatuses_eq_ok, length_filter_eq_one hkids]
  constructor
  · rintro ⟨_, hmem, hsig, _⟩
    obtain ⟨k, hk, rfl⟩ := List.mem_map.1 hmem
    exact ⟨k, hk, (hsigns k hk).1 hsig⟩
  · rintro ⟨k, hk, henc, row, hrow, hkid, hact⟩
    refine ⟨_, List.mem_map_of_mem hk, (hsigns k hk).2 ⟨henc, row, hrow, hkid, hact⟩, fun b hb hsig => ?_⟩
    obtain ⟨k', hk', rfl⟩ := List.mem_map.1 hb
    obtain ⟨-, row', hrow', hkid', hact'⟩ := (hsigns k' hk').1 hsig
    have hrows : row' = row := hone row' hrow' row hrow hact' hact
    have hkk : k' = k := List.inj_on_of_nodup_map ring.distinctKids hk' hk (by rw [← hkid', hrows, hkid])
    rw [hkk]

end Statuses

/-! ## The ring and the table -/

section Ring
variable {ring : SigningRing DecodingKey} {keyVersion : String} {now : Nat} {db db' : Db}

/-- The descriptors `synced` stores. -/
def SigningRing.usable (ring : SigningRing DecodingKey) : List KeyDescriptor :=
  ring.descriptors.filter (·.hasPrivateMaterial)

/-- `retired_missing` and `synced` of the statement the ring sends. -/
abbrev SigningRing.sync (ring : SigningRing DecodingKey) (keyVersion : String) (now : Nat) (db : Db) :
    Except SqlError Db :=
  (db.retireMissing (ring.request keyVersion now)).syncKeys (ring.request keyVersion now) ring.usable

theorem mem_descriptors {d : KeyDescriptor} : d ∈ ring.descriptors ↔ ∃ k ∈ ring.keys, k.descriptor = d := by
  rw [SigningRing.descriptors, List.mem_insertionSort, List.mem_map]

theorem mem_usable {d : KeyDescriptor} :
    d ∈ ring.usable ↔ ∃ k ∈ ring.keys, k.hasEncoding = true ∧ k.descriptor = d := by
  rw [SigningRing.usable, List.mem_filter, mem_descriptors]
  constructor
  · rintro ⟨⟨k, hk, rfl⟩, henc⟩
    exact ⟨k, hk, henc, rfl⟩
  · rintro ⟨k, hk, henc, rfl⟩
    exact ⟨⟨k, hk, rfl⟩, henc⟩

theorem usable_nodup : (ring.usable.map (·.kid)).Nodup := by
  have hall : (ring.descriptors.map (·.kid)).Nodup := by
    refine ((List.perm_insertionSort _ _).map _).nodup_iff.2 ?_
    rw [List.map_map]
    exact ring.distinctKids
  exact hall.sublist (List.filter_sublist.map _)

theorem find?_usable {k : SigningRingKey DecodingKey} (hk : k ∈ ring.keys) (henc : k.hasEncoding = true) :
    ring.usable.find? (fun d => decide (d.kid = k.kid)) = some k.descriptor := by
  cases hfind : ring.usable.find? fun d => decide (d.kid = k.kid) with
  | none => exact absurd (decide_eq_true rfl) (List.find?_eq_none.1 hfind _ (mem_usable.2 ⟨k, hk, henc, rfl⟩))
  | some d =>
    obtain ⟨k', hk', -, rfl⟩ := mem_usable.1 (List.mem_of_find?_eq_some hfind)
    have hkid : decide (k'.kid = k.kid) = true :=
      List.find?_some (p := fun d : KeyDescriptor => decide (d.kid = k.kid)) hfind
    rw [List.inj_on_of_nodup_map ring.distinctKids hk' hk (of_decide_eq_true hkid)]

theorem find?_usable_eq_none {kid : String} (h : ∀ k ∈ ring.keys, k.hasEncoding = true → k.kid ≠ kid) :
    ring.usable.find? (fun d => decide (d.kid = kid)) = none := by
  refine List.find?_eq_none.2 fun d hd hkid => ?_
  obtain ⟨k, hk, henc, rfl⟩ := mem_usable.1 hd
  exact h k hk henc (of_decide_eq_true hkid)

theorem exists_signer (ring : SigningRing DecodingKey) :
    ∃ s ∈ ring.keys, s.isSigner = true ∧ ∀ k ∈ ring.keys, k.isSigner = true → k = s :=
  (length_filter_eq_one ring.distinctKids).1 ring.oneSigner

theorem missing_iff {row : SigningKey} : (ring.request keyVersion now).missing row = true ↔
    (row.status = .active ∨ row.status = .next) ∧ ∀ k ∈ ring.keys, k.kid ≠ row.keyId := by
  have hany : ((ring.request keyVersion now).configured.any fun d => decide (d.kid = row.keyId)) = true ↔
      ∃ k ∈ ring.keys, k.kid = row.keyId := by
    rw [List.any_eq_true]
    constructor
    · rintro ⟨d, hd, hkid⟩
      obtain ⟨k, hk, rfl⟩ := mem_descriptors.1 hd
      exact ⟨k, hk, of_decide_eq_true hkid⟩
    · rintro ⟨k, hk, hkid⟩
      exact ⟨_, mem_descriptors.2 ⟨k, hk, rfl⟩, decide_eq_true hkid⟩
  simp only [SyncSigningKeys.missing, Bool.and_eq_true, decide_eq_true_eq, Bool.not_eq_true', ← Bool.not_eq_true, hany]
  simp

theorem find?_retireMissing (p : SyncSigningKeys) (kid : String) : (db.retireMissing p).signingKeys.find? kid =
    (db.signingKeys.find? kid).map fun row => if p.missing row then p.retire row else row := by
  change (db.signingKeys.update p.missing p.retire).find? kid = _
  exact Table.find?_update

theorem find?_synced (h : ring.sync keyVersion now db = .ok db') {k : SigningRingKey DecodingKey} (hk : k ∈ ring.keys) :
    db'.signingKeys.find? k.kid = (ring.request keyVersion now).synced
      (if k.hasEncoding then some k.descriptor else none) (db.signingKeys.find? k.kid) := by
  have hkept : (db.retireMissing (ring.request keyVersion now)).signingKeys.find? k.kid =
      db.signingKeys.find? k.kid := by
    rw [find?_retireMissing]
    cases hfind : db.signingKeys.find? k.kid with
    | none => rfl
    | some row =>
      have hkid := (Table.find?_eq_some.1 hfind).2
      rw [Option.map_some, if_neg fun hm => (missing_iff.1 hm).2 k hk hkid.symm]
  rw [syncKeys_find? usable_nodup h, hkept]
  by_cases henc : k.hasEncoding = true
  · rw [if_pos henc, find?_usable hk henc]
  · rw [if_neg henc, find?_usable_eq_none fun k' hk' henc' hkid => ?_]
    rw [List.inj_on_of_nodup_map ring.distinctKids hk' hk hkid] at henc'
    exact henc henc'

theorem inactive_of_synced (h : ring.sync keyVersion now db = .ok db') {row : SigningKey} (hrow : row ∈ db'.signingKeys)
    (hout : ∀ k ∈ ring.keys, k.kid ≠ row.keyId) : row.status ≠ .active ∧ row.status ≠ .next := by
  have hfind := Table.find?_of_mem hrow
  rw [syncKeys_find? usable_nodup h, find?_usable_eq_none fun k hk _ => hout k hk, find?_retireMissing] at hfind
  obtain ⟨old, hold, hrow⟩ := Option.map_eq_some_iff.1 hfind
  have hkid : old.keyId = row.keyId := (Table.find?_eq_some.1 hold).2
  by_cases hm : (ring.request keyVersion now).missing old = true
  · rw [if_pos hm] at hrow
    rw [← hrow]
    constructor <;> simp [SyncSigningKeys.retire]
  · rw [if_neg hm] at hrow
    rw [missing_iff, hkid] at hm
    rw [← hrow]
    constructor <;> intro hs <;> exact hm ⟨by simp [hs], hout⟩

end Ring

/-! ## Which tables keep a signer -/

/-- Exactly one stored key is active, the ring has it, and the ring takes the stored statuses. -/
def SigningRing.SignerLeft (ring : SigningRing DecodingKey) (db : Db) : Prop :=
  ∃ row ∈ db.signingKeys, row.status = .active ∧ (∀ row' ∈ db.signingKeys, row'.status = .active → row' = row) ∧
    (∃ k ∈ ring.keys, k.kid = row.keyId) ∧ ∃ ring', ring.applyStatuses db.statuses = .ok ring'

/-- The statement has nothing to write: no key to retire, and every usable key stored as the ring has it. -/
def SigningRing.Settled (ring : SigningRing DecodingKey) (keyVersion : String) (db : Db) : Prop :=
  (∀ row ∈ db.signingKeys, row.status = .active ∨ row.status = .next → ∃ k ∈ ring.keys, k.kid = row.keyId) ∧
  ∀ k ∈ ring.keys, k.hasEncoding = true → ∃ row ∈ db.signingKeys, row.keyId = k.kid ∧
    row.algorithm = k.algorithm ∧ row.publicJwk = k.descriptor.publicJwk ∧ row.keyVersion = keyVersion ∧
    row.secretReference = some ("runtime-key-ring:" ++ k.kid)

/-- `list` cannot read the row: no secret reference, or a time before the epoch. -/
def SigningKey.Unreadable (row : SigningKey) : Prop := ¬ ∃ record, signingKeyFromRow row = .ok record

/-- The rings and tables for which `synchronize` keeps a signer or changes nothing. -/
def SigningRing.KeepsSigner (ring : SigningRing DecodingKey) (keyVersion : String) (db : Db) : Prop :=
  validKeyVersion keyVersion = false ∨
  -- the ring's signer is new to the table
  (∀ k ∈ ring.keys, k.isSigner = true → db.signingKeys.find? k.kid = none) ∨
  -- the stored active key is one the ring can sign with
  (∃ k ∈ ring.keys, k.hasEncoding = true ∧ ∃ row ∈ db.signingKeys, row.keyId = k.kid ∧ row.status = .active) ∨
  ring.Settled keyVersion db ∧
    ((∃ k ∈ ring.keys, k.hasEncoding = false) ∨ ∃ row ∈ db.signingKeys, row.Unreadable)

section Keeps
variable {ring : SigningRing DecodingKey} {keyVersion : String} {now : Nat} {db db' : Db}

theorem synchronize_cases (ring : SigningRing DecodingKey) (keyVersion : String) (now : Nat) (db : Db) :
    validKeyVersion keyVersion = false ∧ synchronize ring keyVersion now db = (.error .invalidInput, db) ∨
    validKeyVersion keyVersion = true ∧
      ((∃ e, ring.sync keyVersion now db = .error e ∧
          synchronize ring keyVersion now db = (.error (.transport e), db)) ∨
        ∃ db', ring.sync keyVersion now db = .ok db' ∧ synchronize ring keyVersion now db =
            (if ring.usable.length = ring.descriptors.length then listSigningKeys db' else .error .invalidInput,
              db')) := by
  have hstatement : syncSigningKeys (ring.request keyVersion now) db =
      (do let db ← ring.sync keyVersion now db
          pure (ring.usable.length, db)) := if_pos usable_nodup
  unfold synchronize
  rw [hstatement]
  cases hv : validKeyVersion keyVersion with
  | false => exact .inl ⟨rfl, rfl⟩
  | true =>
    refine .inr ⟨rfl, ?_⟩
    cases hsync : ring.sync keyVersion now db with
    | error e => exact .inl ⟨e, rfl, rfl⟩
    | ok db' =>
      refine .inr ⟨db', rfl, ?_⟩
      by_cases hlen : ring.usable.length = ring.descriptors.length
      · simp only [hlen, if_true, ok_bind, pure, Except.pure]
      · simp only [hlen, if_true, if_false, ok_bind, pure, Except.pure]

/-- The count `synchronize` checks is right exactly when every key has private material. -/
theorem usable_length_iff :
    ring.usable.length = ring.descriptors.length ↔ ∀ k ∈ ring.keys, k.hasEncoding = true := by
  rw [SigningRing.usable, List.length_filter_eq_length_iff]
  constructor
  · exact fun h k hk => h _ (mem_descriptors.2 ⟨k, hk, rfl⟩)
  · intro h d hd
    obtain ⟨k, hk, rfl⟩ := mem_descriptors.1 hd
    exact h k hk

theorem exists_listSigningKeys_iff :
    (∃ records, listSigningKeys db = .ok records) ↔ ∀ row ∈ db.signingKeys, ¬ row.Unreadable := by
  rw [listSigningKeys, exists_mapM_iff]
  simp only [Db.listSigningKeyMetadata, List.mem_insertionSort, SigningKey.Unreadable, not_not]
  rfl

/-- After the statement has committed, `synchronize` fails when a key of the ring was not stored or a row cannot be
read back. -/
theorem readBack_fails_iff :
    (∃ e, (if ring.usable.length = ring.descriptors.length then listSigningKeys db else .error .invalidInput) =
      .error e) ↔
    (∃ k ∈ ring.keys, k.hasEncoding = false) ∨ ∃ row ∈ db.signingKeys, row.Unreadable := by
  by_cases hlen : ring.usable.length = ring.descriptors.length
  · have hall := usable_length_iff.1 hlen
    rw [if_pos hlen]
    constructor
    · rintro ⟨e, herr⟩
      by_contra hnone
      have hread : ∀ row ∈ db.signingKeys, ¬ row.Unreadable :=
        fun row hrow hbad => hnone (.inr ⟨row, hrow, hbad⟩)
      obtain ⟨records, hlist⟩ := exists_listSigningKeys_iff.2 hread
      cases herr.symm.trans hlist
    · rintro (⟨k, hk, henc⟩ | ⟨row, hrow, hbad⟩)
      · rw [hall k hk] at henc
        cases henc
      · cases hlist : listSigningKeys db with
        | error e => exact ⟨e, rfl⟩
        | ok records => exact absurd hbad (exists_listSigningKeys_iff.1 ⟨records, hlist⟩ row hrow)
  · rw [if_neg hlen]
    refine iff_of_true ⟨_, rfl⟩ (.inl ?_)
    by_contra hnone
    refine hlen (usable_length_iff.2 fun k hk => ?_)
    by_contra henc
    exact hnone ⟨k, hk, Bool.eq_false_iff.2 henc⟩

theorem signer_new_of_refused {e : SqlError} {k : SigningRingKey DecodingKey}
    (h : ring.sync keyVersion now db = .error e) (hk : k ∈ ring.keys) (hsigner : k.isSigner = true) :
    db.signingKeys.find? k.kid = none := by
  by_contra hstored
  have hactive : ∀ d ∈ ring.usable, d.status = .active →
      ((db.retireMissing (ring.request keyVersion now)).signingKeys.find? d.kid).isSome := by
    intro d hd hact
    obtain ⟨k', hk', henc, rfl⟩ := mem_usable.1 hd
    obtain ⟨s, -, -, huniq⟩ := exists_signer ring
    have hkk : k' = k := (huniq k' hk' (Bool.and_eq_true_iff.2 ⟨decide_eq_true hact, henc⟩)).trans
      (huniq k hk hsigner).symm
    rw [find?_retireMissing, Option.isSome_map, hkk]
    exact Option.isSome_iff_ne_none.2 hstored
  obtain ⟨db', hok⟩ := exists_syncKeys (p := ring.request keyVersion now) hactive
  cases h.symm.trans hok

/-- What the statement leaves has a signer when an active key of the ring with private material is stored. -/
theorem signerLeft_iff (hone : db.OneActiveKey) (h : ring.sync keyVersion now db = .ok db') :
    ring.SignerLeft db' ↔
      ∃ k ∈ ring.keys, k.hasEncoding = true ∧ ∃ row ∈ db'.signingKeys, row.keyId = k.kid ∧ row.status = .active := by
  have hone' : db'.OneActiveKey := syncKeys_oneActiveKey (hone.of_noNewActive retireMissing_noNewActive) h
  have hstored : ∀ k ∈ ring.keys, k.hasEncoding = true → (db'.signingKeys.find? k.kid).isSome := by
    intro k hk henc
    rw [find?_synced h hk, if_pos henc]
    cases db.signingKeys.find? k.kid <;> rfl
  constructor
  · rintro ⟨_, -, -, -, -, happly⟩
    exact (applyStatuses_iff hone' hstored).1 happly
  · rintro ⟨k, hk, henc, row, hrow, hkid, hact⟩
    exact ⟨row, hrow, hact, fun row' hrow' hact' => hone' row' hrow' row hrow hact' hact, ⟨k, hk, hkid.symm⟩,
      (applyStatuses_iff hone' hstored).2 ⟨k, hk, henc, row, hrow, hkid, hact⟩⟩

/-- In terms of the table before: a key keeps its status, and only a new signer is stored active. -/
theorem signerLeft_of_synced (hone : db.OneActiveKey) (h : ring.sync keyVersion now db = .ok db') :
    ring.SignerLeft db' ↔
      (∀ k ∈ ring.keys, k.isSigner = true → db.signingKeys.find? k.kid = none) ∨
      ∃ k ∈ ring.keys, k.hasEncoding = true ∧ ∃ row ∈ db.signingKeys, row.keyId = k.kid ∧ row.status = .active := by
  rw [signerLeft_iff hone h]
  obtain ⟨s, hs, hsigner, huniq⟩ := exists_signer ring
  obtain ⟨hsact, hsenc⟩ := Bool.and_eq_true_iff.1 hsigner
  constructor
  · rintro ⟨k, hk, henc, row, hrow, hkid, hact⟩
    have hfind := Table.find?_eq_some.2 ⟨hrow, hkid⟩
    rw [find?_synced h hk, if_pos henc] at hfind
    cases hold : db.signingKeys.find? k.kid with
    | none =>
      rw [hold] at hfind
      cases hfind
      have hk' : k.isSigner = true := Bool.and_eq_true_iff.2 ⟨decide_eq_true hact, henc⟩
      refine .inl fun k' hk'mem hk'sig => ?_
      rw [huniq k' hk'mem hk'sig, ← huniq k hk hk', hold]
    | some old =>
      rw [hold] at hfind
      cases hfind
      obtain ⟨hold, hkid⟩ := Table.find?_eq_some.1 hold
      exact .inr ⟨k, hk, henc, old, hold, hkid, hact⟩
  · rintro (hnew | ⟨k, hk, henc, old, hold, hkid, hact⟩)
    · have hfind := find?_synced h hs
      rw [if_pos hsenc, hnew s hs hsigner] at hfind
      obtain ⟨hrow, hkid⟩ := Table.find?_eq_some.1 hfind
      exact ⟨s, hs, hsenc, _, hrow, hkid, of_decide_eq_true hsact⟩
    · have hfind := find?_synced h hk
      rw [if_pos henc, Table.find?_eq_some.2 ⟨hold, hkid⟩] at hfind
      obtain ⟨hrow, hkid⟩ := Table.find?_eq_some.1 hfind
      exact ⟨k, hk, henc, _, hrow, hkid, hact⟩

theorem refreshed_eq_self {k : SigningRingKey DecodingKey} {row : SigningKey} :
    (ring.request keyVersion now).refreshed k.descriptor row = row ↔
      row.algorithm = k.algorithm ∧ row.publicJwk = k.descriptor.publicJwk ∧ row.keyVersion = keyVersion ∧
        row.secretReference = some ("runtime-key-ring:" ++ k.kid) := by
  constructor
  · intro h
    rw [← h]
    exact ⟨rfl, rfl, rfl, rfl⟩
  · rintro ⟨ha, hj, hv, hr⟩
    obtain ⟨_, _, _, _, _, _, _, _, _, _⟩ := row
    cases ha
    cases hj
    cases hv
    cases hr
    rfl

theorem synced_of_settled (h : ring.Settled keyVersion db) :
    ring.sync keyVersion now db = .ok db := by
  have hretire : db.retireMissing (ring.request keyVersion now) = db := by
    refine retireMissing_eq_self fun row hrow => Bool.eq_false_iff.2 fun hm => ?_
    obtain ⟨hstatus, hout⟩ := missing_iff.1 hm
    obtain ⟨k, hk, hkid⟩ := h.1 row hrow hstatus
    exact hout k hk hkid
  rw [SigningRing.sync, hretire]
  refine syncKeys_eq_self fun d hd => ?_
  obtain ⟨k, hk, henc, rfl⟩ := mem_usable.1 hd
  obtain ⟨row, hrow, hkid, hsame⟩ := h.2 k hk henc
  exact ⟨row, Table.find?_eq_some.2 ⟨hrow, hkid⟩, refreshed_eq_self.2 hsame⟩

theorem settled_of_synced
    (h : ring.sync keyVersion now db = .ok db') (hsame : db'.signingKeys = db.signingKeys) :
    ring.Settled keyVersion db := by
  constructor
  · intro row hrow hstatus
    by_contra hout
    have hrow' : row ∈ db'.signingKeys := hsame ▸ hrow
    obtain ⟨hact, hnext⟩ := inactive_of_synced h hrow' fun k hk hkid => hout ⟨k, hk, hkid⟩
    rcases hstatus with hs | hs
    · exact hact hs
    · exact hnext hs
  · intro k hk henc
    have hfind := find?_synced h hk
    rw [hsame, if_pos henc] at hfind
    cases hrow : db.signingKeys.find? k.kid with
    | none =>
      rw [hrow] at hfind
      cases hfind
    | some row =>
      rw [hrow] at hfind
      obtain ⟨hmem, hkid⟩ := Table.find?_eq_some.1 hrow
      exact ⟨row, hmem, hkid, refreshed_eq_self.1 (Option.some.inj hfind).symm⟩

/-- `synchronize` fails and changes nothing, or leaves one active key that the ring can sign with, exactly for these
rings and tables. -/
theorem synchronize_keeps_signer_iff (ring : SigningRing DecodingKey) (keyVersion : String) (now : Nat) (db : Db)
    (hone : db.OneActiveKey) :
    (∃ e, (synchronize ring keyVersion now db).1 = .error e) ∧
        (synchronize ring keyVersion now db).2.signingKeys = db.signingKeys ∨
      ring.SignerLeft (synchronize ring keyVersion now db).2 ↔
    ring.KeepsSigner keyVersion db := by
  unfold SigningRing.KeepsSigner
  rcases synchronize_cases ring keyVersion now db with ⟨hv, hs⟩ | ⟨hv, ⟨e, hsync, hs⟩ | ⟨db', hsync, hs⟩⟩ <;> rw [hs]
  · exact iff_of_true (.inl ⟨⟨_, rfl⟩, rfl⟩) (.inl hv)
  · exact iff_of_true (.inl ⟨⟨_, rfl⟩, rfl⟩) (.inr (.inl fun k hk hsigner => signer_new_of_refused hsync hk hsigner))
  · rw [signerLeft_of_synced hone hsync, readBack_fails_iff]
    constructor
    · rintro (⟨hfails, hsame⟩ | hnew | hkept)
      · rw [hsame] at hfails
        exact .inr (.inr (.inr ⟨settled_of_synced hsync hsame, hfails⟩))
      · exact .inr (.inl hnew)
      · exact .inr (.inr (.inl hkept))
    · rintro (hbad | hnew | hkept | ⟨hsettled, hfails⟩)
      · rw [hv] at hbad
        cases hbad
      · exact .inr (.inl hnew)
      · exact .inr (.inr hkept)
      · cases (synced_of_settled hsettled).symm.trans hsync
        exact .inl ⟨hfails, rfl⟩

end Keeps

/-! ## A ring whose signer is stored as the next key -/

def currentRing : SigningRing Unit where
  keys := [⟨⟨"k1", .active, .es256, ()⟩, true, some ""⟩, ⟨⟨"k2", .next, .es256, ()⟩, true, some ""⟩]
  distinctKids := by decide
  oneSigner := rfl

/-- The ring after the first key was taken out of the configuration and the second made its signer. -/
def laterRing : SigningRing Unit where
  keys := [⟨⟨"k2", .active, .es256, ()⟩, true, some ""⟩]
  distinctKids := List.nodup_singleton _
  oneSigner := rfl

theorem currentRing_keeps_signer : ∃ db, Reachable postgres db ∧
    ((∃ e, (synchronize currentRing "v2" 1 db).1 = .error e) ∧
        (synchronize currentRing "v2" 1 db).2.signingKeys = db.signingKeys ∨
      currentRing.SignerLeft (synchronize currentRing "v2" 1 db).2) := by
  obtain ⟨db, hreach, htest⟩ := exists_reachable_of_run postgres configureKeys
    (fun db => db.signingKeys.rows.any fun row => decide ("k1" = row.keyId ∧ row.status = .active))
    (by decide +kernel)
  obtain ⟨row, hrow, hactive⟩ := List.any_eq_true.1 htest
  obtain ⟨hkid, hactive⟩ := of_decide_eq_true hactive
  refine ⟨db, hreach, (synchronize_keeps_signer_iff currentRing "v2" 1 db (oneActiveKey_of_run hreach)).2 ?_⟩
  exact .inr (.inr (.inl ⟨_, List.mem_cons_self, rfl, row, hrow, hkid.symm, hactive⟩))

/-- The first key is retired, the second keeps its status, and no signer is left. -/
theorem laterRing_without_signer : ∃ db, Reachable postgres db ∧ db.OneActiveKey ∧
    (∃ records, (synchronize laterRing "v2" 1 db).1 = .ok records) ∧
    (∀ row ∈ (synchronize laterRing "v2" 1 db).2.signingKeys, row.status ≠ .active) ∧
    ¬ ∃ ring', laterRing.applyStatuses (synchronize laterRing "v2" 1 db).2.statuses = .ok ring' := by
  obtain ⟨db, hreach, htest⟩ := exists_reachable_of_run postgres configureKeys
    (fun db => (synchronize laterRing "v2" 1 db).1.toOption.isSome &&
      ((synchronize laterRing "v2" 1 db).2.signingKeys.rows.all fun row => decide (row.status ≠ .active)) &&
      (laterRing.applyStatuses (synchronize laterRing "v2" 1 db).2.statuses).toOption.isNone)
    (by decide +kernel)
  simp only [Bool.and_eq_true] at htest
  obtain ⟨⟨hok, hall⟩, hfails⟩ := htest
  refine ⟨db, hreach, oneActiveKey_of_run hreach, ?_, fun row hrow => ?_, ?_⟩
  · cases h : (synchronize laterRing "v2" 1 db).1 with
    | error e => simp [h, Except.toOption] at hok
    | ok records => exact ⟨records, rfl⟩
  · exact of_decide_eq_true (List.all_eq_true.1 hall row hrow)
  · rintro ⟨ring', h⟩
    simp [h, Except.toOption] at hfails

end WasiAuth
