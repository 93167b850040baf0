import Mathlib.Data.List.TakeWhile
import WasiAuth.Identity.KeyRing

/-! # Statuses applied in place

`SigningRing.applyStatuses` says which ring a successful call leaves. The function itself takes `&mut self` and writes
each status as it goes: what was written before a failure stays written, and the index still names the signer of
before. `statuses_all_or_nothing_iff` says when that leaves the ring unchanged.
-/

namespace WasiAuth

variable {DecodingKey : Type} {keys : List (SigningRingKey DecodingKey)}

/-- `JwtKeyRing` (tokens.rs:189), with the index of its signer. -/
@[ext]
structure MutableRing (DecodingKey : Type) where
  keys : List (SigningRingKey DecodingKey)
  distinctKids : (keys.map fun k => k.kid).Nodup
  activeIndex : Nat

/-- `active`: the key that signs. -/
def MutableRing.active (ring : MutableRing DecodingKey) : Option (SigningRingKey DecodingKey) :=
  ring.keys[ring.activeIndex]?

/-- tokens.rs:402 -/
def parseKeyStatus (value : String) : Except TokenConfigurationError SigningKeyStatus :=
  match value with
  | "active" => .ok .active
  | "next" => .ok .next
  | "retired" => .ok .retired
  | "revoked" => .ok .revoked
  | _ => .error .invalid

def hasKid (keys : List (SigningRingKey DecodingKey)) (kid : String) : Bool := decide (kid ∈ keys.map fun k => k.kid)

theorem kid_ne_of_not_hasKid {kid : String} (h : ¬hasKid keys kid = true)
    {k : SigningRingKey DecodingKey} (hk : k ∈ keys) : k.kid ≠ kid := by
  rintro rfl
  exact h (decide_eq_true (List.mem_map_of_mem hk))

/-- The loop, with the keys as it leaves them. An entry without a key is passed over before its status is read. -/
def applyEntries : List (String × String) → List (SigningRingKey DecodingKey) →
    Except TokenConfigurationError Unit × List (SigningRingKey DecodingKey)
  | [], keys => (.ok (), keys)
  | entry :: entries, keys =>
    if hasKid keys entry.1 then
      match parseKeyStatus entry.2 with
      | .error e => (.error e, keys)
      | .ok status => applyEntries entries (applyStatus keys (entry.1, status))
    else applyEntries entries keys

def signerIndexes (keys : List (SigningRingKey DecodingKey)) : List Nat :=
  (keys.zipIdx.filter fun indexed => indexed.1.isSigner).map Prod.snd

theorem kids_applyEntries : ∀ (entries : List (String × String)) (keys : List (SigningRingKey DecodingKey)),
    ((applyEntries entries keys).2.map fun k => k.kid) = keys.map fun k => k.kid
  | [], _ => rfl
  | entry :: entries, keys => by
    unfold applyEntries
    split
    · split
      · rfl
      · rw [kids_applyEntries entries, kids_applyStatus]
    · exact kids_applyEntries entries keys

theorem hasKid_applyStatus (keys : List (SigningRingKey DecodingKey)) (entry : String × SigningKeyStatus)
    (kid : String) :
    hasKid (applyStatus keys entry) kid = hasKid keys kid := by
  rw [hasKid, hasKid, kids_applyStatus]

/-- The status of every entry that has a key is one of the four names. -/
def AllParse (keys : List (SigningRingKey DecodingKey)) (entries : List (String × String)) : Prop :=
  ∀ entry ∈ entries, hasKid keys entry.1 = true → (parseKeyStatus entry.2).isOk = true

theorem applyEntries_ok_iff (entries : List (String × String)) : ∀ keys : List (SigningRingKey DecodingKey),
    (applyEntries entries keys).1 = .ok () ↔ AllParse keys entries := by
  induction entries with
  | nil => exact fun keys => iff_of_true rfl nofun
  | cons entry entries ih =>
    intro keys
    rw [applyEntries, AllParse, List.forall_mem_cons]
    by_cases hkid : hasKid keys entry.1 = true
    · rw [if_pos hkid]
      cases hparse : parseKeyStatus entry.2 with
      | error e => simp [hkid, Except.isOk, Except.toBool]
      | ok status => simp [ih, AllParse, hasKid_applyStatus, Except.isOk, Except.toBool]
    · rw [if_neg hkid, ih]
      simp [AllParse, hkid]

/-- tokens.rs:358 -/
def MutableRing.applyStatuses (statuses : List (String × String)) (ring : MutableRing DecodingKey) :
    Except TokenConfigurationError Unit × MutableRing DecodingKey :=
  let result := applyEntries statuses ring.keys
  have hkids : (result.2.map fun k => k.kid).Nodup := by
    rw [kids_applyEntries]
    exact ring.distinctKids
  match result.1 with
  | .error e => (.error e, ⟨result.2, hkids, ring.activeIndex⟩)
  | .ok () =>
    match signerIndexes result.2 with
    | [index] => (.ok (), ⟨result.2, hkids, index⟩)
    | _ => (.error .invalid, ⟨result.2, hkids, ring.activeIndex⟩)

/-! ## The keys a call leaves

Whatever the outcome, the keys are those of before with, for each, the last status an entry gave it. The entries that
count are those before the first one that is refused. -/

/-- The entries before the first that fails. -/
def appliedEntries (keys : List (SigningRingKey DecodingKey)) (entries : List (String × String)) :
    List (String × String) :=
  entries.takeWhile fun entry => !hasKid keys entry.1 || (parseKeyStatus entry.2).isOk

/-- The status of the last entry for `kid`. -/
def lastStatus (kid : String) : List (String × String) → Option SigningKeyStatus
  | [] => none
  | entry :: entries =>
    (lastStatus kid entries).or (if entry.1 = kid then (parseKeyStatus entry.2).toOption else none)

def restate (entries : List (String × String)) (k : SigningRingKey DecodingKey) : SigningRingKey DecodingKey :=
  { k with status := (lastStatus k.kid entries).getD k.status }

theorem restate_cons_of_ne {entry : String × String} {k : SigningRingKey DecodingKey} (h : entry.1 ≠ k.kid)
    (entries : List (String × String)) : restate (entry :: entries) k = restate entries k := by
  simp [restate, lastStatus, h]

theorem restate_cons_of_ok {entry : String × String} {status : SigningKeyStatus}
    (h : parseKeyStatus entry.2 = .ok status) (entries : List (String × String)) (k : SigningRingKey DecodingKey) :
    restate (entry :: entries) k =
      restate entries (if k.kid = entry.1 then { k with status := status } else k) := by
  by_cases hk : k.kid = entry.1
  · rw [if_pos hk]
    simp only [restate, lastStatus, if_pos hk.symm, h, Except.toOption]
    cases lastStatus k.kid entries <;> rfl
  · rw [if_neg hk, restate_cons_of_ne (Ne.symm hk)]

theorem appliedEntries_applyStatus (keys : List (SigningRingKey DecodingKey)) (entry : String × SigningKeyStatus)
    (entries : List (String × String)) :
    appliedEntries (applyStatus keys entry) entries = appliedEntries keys entries := by
  simp only [appliedEntries, hasKid_applyStatus]

theorem appliedEntries_of_allParse {entries : List (String × String)}
    (h : AllParse keys entries) : appliedEntries keys entries = entries := by
  refine List.takeWhile_eq_self_iff.2 fun entry hentry => ?_
  by_cases hkid : hasKid keys entry.1 = true
  · simp [h entry hentry hkid]
  · simp [hkid]

theorem keys_applyEntries (entries : List (String × String)) :
    ∀ keys : List (SigningRingKey DecodingKey),
      (applyEntries entries keys).2 = keys.map (restate (appliedEntries keys entries)) := by
  induction entries with
  | nil => exact fun keys => (List.map_id keys).symm
  | cons entry entries ih =>
    intro keys
    unfold applyEntries appliedEntries
    by_cases hkid : hasKid keys entry.1 = true
    · rw [if_pos hkid]
      cases hparse : parseKeyStatus entry.2 with
      | error e =>
        -- the loop ends here, and this entry with all that follow is not applied
        rw [List.takeWhile_cons_of_neg (by simp [hkid, hparse, Except.isOk, Except.toBool])]
        exact (List.map_id keys).symm
      | ok status =>
        rw [List.takeWhile_cons_of_pos (by simp [hparse, Except.isOk, Except.toBool])]
        dsimp only
        rw [ih, appliedEntries_applyStatus, applyStatus, List.map_map]
        exact List.map_congr_left fun k _ => (restate_cons_of_ok hparse _ k).symm
    · rw [if_neg hkid, List.takeWhile_cons_of_pos (by simp [hkid]), ih]
      exact List.map_congr_left fun k hk => (restate_cons_of_ne (kid_ne_of_not_hasKid hkid hk).symm _).symm

theorem mem_signerIndexes {index : Nat} :
    index ∈ signerIndexes keys ↔ ∃ k, keys[index]? = some k ∧ k.isSigner = true := by
  simp only [signerIndexes, List.mem_map, List.mem_filter, Prod.exists, List.mem_zipIdx_iff_getElem?]
  constructor
  · rintro ⟨k, _, hk, rfl⟩
    exact ⟨k, hk⟩
  · rintro ⟨k, hk⟩
    exact ⟨k, index, hk, rfl⟩

theorem length_signerIndexes (keys : List (SigningRingKey DecodingKey)) :
    (signerIndexes keys).length = (keys.filter SigningRingKey.isSigner).length := by
  conv_rhs => rw [← List.zipIdx_map_fst 0 keys, List.filter_map]
  simp only [signerIndexes, List.length_map]
  rfl

/-! ## What a call that succeeds leaves, and one that fails -/

/-- Exactly one active key has private material, and it is the key that signs. -/
def MutableRing.Signs (ring : MutableRing DecodingKey) : Prop :=
  (ring.keys.filter SigningRingKey.isSigner).length = 1 ∧ ∃ k, ring.active = some k ∧ k.isSigner = true

namespace MutableRing
variable {ring : MutableRing DecodingKey} {statuses : List (String × String)}

/-- The keys are written whatever the outcome, the index only when the call succeeds. -/
theorem applyStatuses_cases (ring : MutableRing DecodingKey) (statuses : List (String × String)) :
    (ring.applyStatuses statuses).2.keys = ring.keys.map (restate (appliedEntries ring.keys statuses)) ∧
      ((ring.applyStatuses statuses).1 = .ok () ∧ AllParse ring.keys statuses ∧
          signerIndexes (ring.applyStatuses statuses).2.keys = [(ring.applyStatuses statuses).2.activeIndex] ∨
        (∃ e, (ring.applyStatuses statuses).1 = .error e) ∧
          (AllParse ring.keys statuses → (signerIndexes (ring.applyStatuses statuses).2.keys).length ≠ 1) ∧
          (ring.applyStatuses statuses).2.activeIndex = ring.activeIndex) := by
  rw [← keys_applyEntries, ← applyEntries_ok_iff]
  unfold applyStatuses
  dsimp only
  cases (applyEntries statuses ring.keys).1 with
  | error e => exact ⟨rfl, .inr ⟨⟨e, rfl⟩, nofun, rfl⟩⟩
  | ok done =>
    cases hindexes : signerIndexes (applyEntries statuses ring.keys).2 with
    | nil => exact ⟨rfl, .inr ⟨⟨_, rfl⟩, by simp [hindexes], rfl⟩⟩
    | cons index indexes =>
      cases indexes with
      | nil => exact ⟨rfl, .inl ⟨rfl, rfl, hindexes⟩⟩
      | cons second indexes => exact ⟨rfl, .inr ⟨⟨_, rfl⟩, by simp [hindexes], rfl⟩⟩

theorem signs_of_signerIndexes (h : signerIndexes ring.keys = [ring.activeIndex]) : ring.Signs := by
  refine ⟨?_, mem_signerIndexes.1 (h ▸ List.mem_singleton_self _)⟩
  rw [← length_signerIndexes, h, List.length_singleton]

theorem map_restate_eq_self {keys : List (SigningRingKey DecodingKey)} {entries : List (String × String)} :
    keys.map (restate entries) = keys ↔
      ∀ k ∈ keys, ∀ status, lastStatus k.kid entries = some status → status = k.status := by
  have hself : keys.map (restate entries) = keys ↔ ∀ k ∈ keys, restate entries k = k := by
    conv_lhs => rw [← List.map_id keys, List.map_map]
    exact List.map_inj_left
  rw [hself]
  refine forall₂_congr fun k _ => ?_
  constructor
  · intro h status hlast
    have hstatus := congrArg (fun k => k.status) h
    simpa [restate, hlast] using hstatus
  · intro h
    cases hlast : lastStatus k.kid entries with
    | none => simp [restate, hlast]
    | some status => simp [restate, hlast, h status hlast]

/-- The statuses leave exactly one signer among the keys, once each key has the last one given to it. -/
def LeavesOneSigner (keys : List (SigningRingKey DecodingKey)) (statuses : List (String × String)) : Prop :=
  AllParse keys statuses ∧ ((keys.map (restate statuses)).filter SigningRingKey.isSigner).length = 1

theorem applyStatuses_ok_iff : (ring.applyStatuses statuses).1 = .ok () ↔ LeavesOneSigner ring.keys statuses := by
  obtain ⟨hkeys, ⟨hok, hparse, hsigner⟩ | ⟨⟨e, herror⟩, hsigner, -⟩⟩ := applyStatuses_cases ring statuses
  · rw [hkeys, appliedEntries_of_allParse hparse] at hsigner
    refine iff_of_true hok ⟨hparse, ?_⟩
    rw [← length_signerIndexes, hsigner, List.length_singleton]
  · rw [herror]
    refine iff_of_false nofun fun ⟨hparse, hone⟩ => hsigner hparse ?_
    rw [hkeys, appliedEntries_of_allParse hparse, length_signerIndexes, hone]

/-- A call fails and leaves the ring as it was, or succeeds and leaves one that signs with its only signer, exactly if
all statuses can be read and leave one signer, or those before the first that cannot are the ones the keys had. -/
theorem statuses_all_or_nothing_iff (ring : MutableRing DecodingKey) (statuses : List (String × String)) :
    ((∃ e, (ring.applyStatuses statuses).1 = .error e) ∧ (ring.applyStatuses statuses).2 = ring ∨
        (ring.applyStatuses statuses).1 = .ok () ∧ (ring.applyStatuses statuses).2.Signs) ↔
      LeavesOneSigner ring.keys statuses ∨
        ∀ k ∈ ring.keys, ∀ status,
          lastStatus k.kid (appliedEntries ring.keys statuses) = some status → status = k.status := by
  rw [← applyStatuses_ok_iff, ← map_restate_eq_self]
  obtain ⟨hkeys, ⟨hok, -, hsigner⟩ | ⟨⟨e, herror⟩, -, hindex⟩⟩ := applyStatuses_cases ring statuses
  · exact iff_of_true (.inr ⟨hok, signs_of_signerIndexes hsigner⟩) (.inl hok)
  · rw [← hkeys, herror]
    constructor
    · rintro (⟨-, hsame⟩ | ⟨hok, -⟩)
      · exact .inr (congrArg (fun r => r.keys) hsame)
      · cases hok
    · rintro (hok | hsame)
      · cases hok
      · exact .inl ⟨⟨e, rfl⟩, MutableRing.ext hsame hindex⟩

def sampleRing : MutableRing Unit where
  keys :=
    [{ kid := "k1", status := .active, algorithm := .es256, decoding := (), hasEncoding := true, publicJwk := none },
     { kid := "k2", status := .next, algorithm := .es256, decoding := (), hasEncoding := true, publicJwk := none }]
  distinctKids := by simp
  activeIndex := 0

/-- A rotation. -/
theorem rotation_signs : (sampleRing.applyStatuses [("k1", "retired"), ("k2", "active")]).2.Signs := by
  have hone : LeavesOneSigner sampleRing.keys [("k1", "retired"), ("k2", "active")] :=
    ⟨by simp [AllParse, parseKeyStatus, Except.isOk, Except.toBool], by decide⟩
  rcases (statuses_all_or_nothing_iff _ _).2 (.inl hone) with ⟨⟨e, herror⟩, -⟩ | ⟨-, hsigns⟩
  · rw [applyStatuses_ok_iff.2 hone] at herror
    cases herror
  · exact hsigns

/-- The only signer is revoked: the call fails, and the ring goes on signing with a revoked key. -/
theorem exists_failed_statuses_written : ∃ (ring : MutableRing Unit) (statuses : List (String × String)),
    ring.Signs ∧ (ring.applyStatuses statuses).1 = .error .invalid ∧ (ring.applyStatuses statuses).2 ≠ ring ∧
      (ring.applyStatuses statuses).2.active.map (fun k => k.status) = some .revoked := by
  refine ⟨sampleRing, [("k1", "revoked")], signs_of_signerIndexes (by decide), by decide, fun h => ?_, by decide⟩
  have hstatus := congrArg (fun ring => ring.keys.map fun k => k.status) h
  revert hstatus
  decide

end MutableRing

/-! ## The ring of `SigningRing`

On the names of statuses, and from a ring with one signer, the function above is the one that returns the ring. -/

/-- tokens.rs:393 -/
def keyStatusName : SigningKeyStatus → String
  | .active => "active"
  | .next => "next"
  | .retired => "retired"
  | .revoked => "revoked"

theorem parseKeyStatus_name (status : SigningKeyStatus) : parseKeyStatus (keyStatusName status) = .ok status := by
  cases status <;> rfl

theorem applyStatus_of_not_hasKid {entry : String × SigningKeyStatus}
    (h : ¬hasKid keys entry.1 = true) : applyStatus keys entry = keys := by
  refine (List.map_congr_left fun k hk => ?_).trans (List.map_id keys)
  rw [if_neg (kid_ne_of_not_hasKid h hk), id]

theorem applyEntries_names : ∀ (statuses : List (String × SigningKeyStatus)) (keys : List (SigningRingKey DecodingKey)),
    applyEntries (statuses.map fun entry => (entry.1, keyStatusName entry.2)) keys =
      (.ok (), statuses.foldl applyStatus keys)
  | [], _ => rfl
  | entry :: statuses, keys => by
    rw [List.map_cons, List.foldl_cons, ← applyEntries_names statuses, applyEntries, parseKeyStatus_name]
    by_cases hkid : hasKid keys entry.1 = true
    · rw [if_pos hkid]
    · rw [if_neg hkid, applyStatus_of_not_hasKid hkid]

def SigningRing.toMutable (ring : SigningRing DecodingKey) (activeIndex : Nat) : MutableRing DecodingKey :=
  ⟨ring.keys, ring.distinctKids, activeIndex⟩

theorem SigningRing.applyStatuses_eq_map (ring : SigningRing DecodingKey) (activeIndex : Nat)
    (statuses : List (String × SigningKeyStatus)) :
    let after := (ring.toMutable activeIndex).applyStatuses
      (statuses.map fun entry => (entry.1, keyStatusName entry.2))
    (ring.applyStatuses statuses).map (fun ring' => ring'.keys) = after.1.map fun _ => after.2.keys := by
  unfold SigningRing.applyStatuses MutableRing.applyStatuses SigningRing.toMutable
  simp only [applyEntries_names]
  by_cases hone : ((statuses.foldl applyStatus ring.keys).filter SigningRingKey.isSigner).length = 1
  · rw [dif_pos hone]
    rw [← length_signerIndexes] at hone
    obtain ⟨index, hindexes⟩ := List.length_eq_one_iff.1 hone
    rw [hindexes]
    rfl
  · rw [dif_neg hone]
    rw [← length_signerIndexes] at hone
    split
    · rename_i hindexes
      simp [hindexes] at hone
    · rfl

end WasiAuth
