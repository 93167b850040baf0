import WasiAuth.Base.Orders
import WasiAuth.Postgres.Footprints

/-! # Signing keys in every run

`auth_one_active_signing_key_idx` is checked at every row write, so a rotation must take the active key down before
it raises the next one. `rotate_signing_key.sql` forces that order with `change_guard`, a count over the rows of
`changed_previous` which `activated` reads. `RotateWrite` are the row writes of the statement and `waits` is that
dependency; the rows of `changed_previous` may come in any order.
-/

namespace WasiAuth

open Relational Transition Orders

/-- At most one key is active. -/
def Db.OneActiveKey (db : Db) : Prop :=
  ∀ k ∈ db.signingKeys, ∀ k' ∈ db.signingKeys, k.status = .active → k'.status = .active → k = k'

/-! ## Row writes -/

/-- One row write, checked against `auth_one_active_signing_key_idx`. -/
def Db.writeKey (key : SigningKey) (db : Db) : Except SqlError Db :=
  if decide (key.status = .active) && db.otherActiveKey key.keyId then .error .uniqueViolation
  else .ok { db with signingKeys := db.signingKeys.set key }

/-- A row write of `changed_previous` or of `activated`. -/
inductive RotateWrite
  | change (previous : SigningKey)
  | activate (target : SigningKey)

/-- The columns `changed_previous` assigns. -/
def RotateSigningKey.changed (p : RotateSigningKey) (k : SigningKey) : SigningKey :=
  { k with
    status := if p.retirePrevious then .retired else .next
    retiredAtMs := if p.retirePrevious then some p.nowMs else none
    activatedAtMs := none }

/-- The columns `activated` assigns. -/
def RotateSigningKey.activated (p : RotateSigningKey) (k : SigningKey) : SigningKey :=
  { k with status := .active, activatedAtMs := some p.nowMs, retiredAtMs := none, revokedAtMs := none }

def RotateWrite.key : RotateWrite → SigningKey
  | .change k | .activate k => k

def RotateWrite.row (p : RotateSigningKey) : RotateWrite → SigningKey
  | .change k => p.changed k
  | .activate k => p.activated k

/-- `change_guard`. -/
def RotateWrite.waits : RotateWrite → RotateWrite → Prop
  | .activate _, .change _ => True
  | _, _ => False

/-- The row `changed_previous` selects. -/
def RotateSigningKey.demotes (p : RotateSigningKey) (k : SigningKey) : Bool :=
  decide (k.keyId ≠ p.keyId ∧ k.status = .active)

/-- `target`. -/
def Db.rotationTarget (keyId : String) (db : Db) : Option SigningKey :=
  (db.signingKeys.find? keyId).filter fun k => decide (k.status ≠ .revoked) && k.secretReference.isSome

def rotateWrites (p : RotateSigningKey) (db : Db) : List RotateWrite :=
  match db.administratorActor p.sessionId p.nowMs, db.rotationTarget p.keyId with
  | some _, some target => (db.signingKeys.rows.filter p.demotes).map .change ++ [.activate target]
  | _, _ => []

def Db.writeAll (p : RotateSigningKey) : List RotateWrite → Db → Except SqlError Db
  | [], db => .ok db
  | w :: ws, db => do
    let db ← db.writeKey (w.row p)
    writeAll p ws db

section Rotate
variable {db db' : Db} {p : RotateSigningKey} {target : SigningKey}

theorem rotationTarget_eq_some (h : db.rotationTarget p.keyId = some target) :
    target ∈ db.signingKeys ∧ target.keyId = p.keyId ∧ target.status ≠ .revoked := by
  obtain ⟨hfind, hok⟩ := Option.filter_eq_some_iff.1 h
  obtain ⟨hmem, hkey⟩ := Table.find?_eq_some.1 hfind
  simp only [Bool.and_eq_true, decide_eq_true_eq] at hok
  exact ⟨hmem, hkey, hok.1⟩

theorem changed_status_ne (p : RotateSigningKey) (k : SigningKey) : (p.changed k).status ≠ .active := by
  cases h : p.retirePrevious <;> simp [RotateSigningKey.changed, h]

theorem changePrevious_eq : db.changePrevious p =
    { db with signingKeys := db.signingKeys.update p.demotes p.changed } := rfl

/-- Once `changed_previous` is done no key but the target is active. -/
theorem otherActiveKey_changePrevious : (db.changePrevious p).otherActiveKey p.keyId = false := by
  simp only [Db.otherActiveKey, List.any_eq_false, decide_eq_true_eq, not_and]
  intro k hk hne hact
  have hk : k ∈ db.signingKeys.update p.demotes p.changed := hk
  obtain ⟨k₀, -, rfl⟩ := Table.mem_update.1 hk
  by_cases hdemoted : p.demotes k₀ = true
  · rw [if_pos hdemoted] at hact
    exact changed_status_ne p k₀ hact
  · rw [if_neg hdemoted] at hne hact
    exact hdemoted (decide_eq_true ⟨hne, hact⟩)

/-- The outcomes of `rotate_signing_key.sql`. -/
theorem rotateSigningKey_cases (p : RotateSigningKey) (db : Db) :
    (∃ actor target, db.administratorActor p.sessionId p.nowMs = some actor ∧
      db.rotationTarget p.keyId = some target ∧
        rotateSigningKey p db = .ok (some (p.activated target),
          { db with signingKeys := (db.signingKeys.update p.demotes p.changed).set (p.activated target) })) ∨
      rotateWrites p db = [] ∧ rotateSigningKey p db = .ok (none, db) := by
  unfold rotateSigningKey rotateWrites
  cases hactor : db.administratorActor p.sessionId p.nowMs with
  | none => exact .inr ⟨rfl, rfl⟩
  | some actor =>
    cases htarget : db.rotationTarget p.keyId with
    | none =>
      have hnone := htarget
      unfold Db.rotationTarget at hnone
      exact .inr ⟨rfl, by rw [hnone]⟩
    | some target =>
      have hsome := htarget
      unfold Db.rotationTarget at hsome
      refine .inl ⟨actor, target, rfl, rfl, ?_⟩
      rw [hsome]
      simp only [otherActiveKey_changePrevious, Bool.false_eq_true, if_false]
      rfl

theorem writeKey_of_inactive {key : SigningKey} (h : key.status ≠ .active) :
    db.writeKey key = .ok { db with signingKeys := db.signingKeys.set key } := by
  simp [Db.writeKey, h]

/-- The writes of `changed_previous` never meet the index. -/
theorem writeAll_changes : ∀ (ks : List SigningKey) (ws : List RotateWrite) (db : Db),
    db.writeAll p (ks.map .change ++ ws) =
      Db.writeAll p ws { db with signingKeys := ks.foldl (fun t k => t.set (p.changed k)) db.signingKeys }
  | [], _, _ => rfl
  | k :: ks, ws, db => by
    rw [List.map_cons, List.cons_append, Db.writeAll, RotateWrite.row, writeKey_of_inactive (changed_status_ne p k),
      ok_bind, writeAll_changes ks ws]
    rfl

/-- Every permitted order ends in the result of the statement, without meeting the index. -/
theorem writeAll_of_permitted {order : List RotateWrite} (h : Permitted RotateWrite.waits (rotateWrites p db) order) :
    ∃ r db', db.writeAll p order = .ok db' ∧ rotateSigningKey p db = .ok (r, db') := by
  rcases rotateSigningKey_cases p db with ⟨actor, target, hactor, htarget, hrotate⟩ | ⟨hnone, hrotate⟩
  · refine ⟨_, _, ?_, hrotate⟩
    simp only [rotateWrites, hactor, htarget] at h
    obtain ⟨front, rfl, hfront⟩ := h.last (by
      intro w hw
      obtain ⟨k, -, rfl⟩ := List.mem_map.1 hw
      exact trivial)
    -- the rows before the target are those of `changed_previous`, in some order
    have hks : (front.map RotateWrite.key).Perm (db.signingKeys.rows.filter p.demotes) := by
      simpa [Function.comp_def, RotateWrite.key] using hfront.map RotateWrite.key
    have hchanges : front = (front.map RotateWrite.key).map .change := by
      rw [List.map_map]
      refine (List.map_id' front).symm.trans (List.map_congr_left fun w hw => ?_)
      obtain ⟨k, -, rfl⟩ := List.mem_map.1 (hfront.mem_iff.1 hw)
      rfl
    rw [hchanges, writeAll_changes, Table.foldl_set_eq_update (f := p.changed) (fun _ => rfl) hks, Db.writeAll,
      RotateWrite.row, Db.writeKey, if_neg, ok_bind, Db.writeAll]
    have hother : (db.changePrevious p).otherActiveKey p.keyId = false := otherActiveKey_changePrevious
    rw [changePrevious_eq] at hother
    rw [show (p.activated target).keyId = p.keyId from (rotationTarget_eq_some htarget).2.1, hother]
    simp
  · refine ⟨none, db, ?_, hrotate⟩
    rw [hnone] at h
    rw [List.perm_nil.1 h.1]
    rfl

end Rotate

/-! ## What a statement does to the keys -/

section Steps
variable {db db' : Db} {p : SyncSigningKeys}

def SigningKey.StaysRevoked (k k' : SigningKey) : Prop := k.status = .revoked → k'.status = .revoked

theorem staysRevoked_refl (k : SigningKey) : k.StaysRevoked k := id

/-- The active keys of `db'` were active before. -/
def NoNewActive (db db' : Db) : Prop :=
  ∀ k' ∈ db'.signingKeys, k'.status = .active → ∃ k ∈ db.signingKeys, k.keyId = k'.keyId ∧ k.status = .active

theorem Db.OneActiveKey.of_noNewActive (h : db.OneActiveKey) (hs : NoNewActive db db') : db'.OneActiveKey := by
  intro k hk k' hk' hact hact'
  obtain ⟨k₀, hk₀, hid, hact₀⟩ := hs k hk hact
  obtain ⟨k₀', hk₀', hid', hact₀'⟩ := hs k' hk' hact'
  refine Table.eq_of_key hk hk' ?_
  rw [← hid, ← hid', h k₀ hk₀ k₀' hk₀' hact₀ hact₀']

/-- The target is the only key that is active after a rotation. -/
theorem active_of_rotate {p : RotateSigningKey} {target : SigningKey}
    (htarget : db.rotationTarget p.keyId = some target)
    {k : SigningKey} :
    k ∈ (db.signingKeys.update p.demotes p.changed).set (p.activated target) ∧ k.status = .active ↔
      k = p.activated target := by
  obtain ⟨hmem, hid, -⟩ := rotationTarget_eq_some htarget
  constructor
  · rintro ⟨hk, hact⟩
    rcases Table.mem_set.1 hk with ⟨hk, hne⟩ | ⟨rfl, -⟩
    · obtain ⟨k₀, -, rfl⟩ := Table.mem_update.1 hk
      by_cases hdemoted : p.demotes k₀ = true
      · rw [if_pos hdemoted] at hact
        exact absurd hact (changed_status_ne p k₀)
      · rw [if_neg hdemoted] at hne hact
        exact absurd (decide_eq_true ⟨fun he => hne (he.trans hid.symm), hact⟩) hdemoted
    · rfl
  · rintro rfl
    refine ⟨Table.mem_set.2 (.inr ⟨rfl, _, Table.mem_update_of_mem hmem, ?_⟩), rfl⟩
    split <;> rfl

theorem retireMissing_noNewActive : NoNewActive db (db.retireMissing p) := by
  intro k' hk' hact
  have hk' : k' ∈ db.signingKeys.update p.missing p.retire := hk'
  obtain ⟨k, hk, rfl⟩ := Table.mem_update.1 hk'
  by_cases hmissing : p.missing k = true
  · rw [if_pos hmissing] at hact
    cases hact
  · rw [if_neg hmissing] at hact ⊢
    exact ⟨k, hk, rfl, hact⟩

/-- A configured key becomes active only where none is. -/
theorem syncKey_oneActiveKey {d : KeyDescriptor} (hone : db.OneActiveKey)
    (h : db.syncKey p d = .ok db') : db'.OneActiveKey := by
  obtain ⟨key, hfind, rfl⟩ | ⟨-, hfree, keys, hins, rfl⟩ := syncKey_cases h
  · obtain ⟨hkey, hid⟩ := Table.find?_eq_some.1 hfind
    refine hone.of_noNewActive fun k' hk' hact => ?_
    rcases Table.mem_set.1 hk' with ⟨hk', -⟩ | ⟨rfl, -⟩
    · exact ⟨k', hk', rfl, hact⟩
    · exact ⟨key, hkey, rfl, hact⟩
  · -- an active key is inserted only when no other is active
    have hother : d.status = .active → ∀ k ∈ db.signingKeys, k.status = .active → k.keyId = d.kid := by
      intro hact k hk hk'
      by_contra hne
      exact hfree hact (List.any_eq_true.2 ⟨k, hk, decide_eq_true ⟨hne, hk'⟩⟩)
    have hnew : ∀ k ∈ keys, k.status = .active → k ∈ db.signingKeys ∨ k.keyId = d.kid ∧ d.status = .active := by
      intro k hk hact
      rcases (Table.mem_of_insertOr hins).1 hk with hk | rfl
      · exact .inl hk
      · exact .inr ⟨rfl, hact⟩
    intro k hk k' hk' hact hact'
    rcases hnew k hk hact, hnew k' hk' hact' with ⟨hk₀ | ⟨hid, hnewAct⟩, hk₀' | ⟨hid', hnewAct'⟩⟩
    · exact hone k hk₀ k' hk₀' hact hact'
    · exact Table.eq_of_key hk hk' ((hother hnewAct' k hk₀ hact).trans hid'.symm)
    · exact Table.eq_of_key hk hk' (hid.trans (hother hnewAct k' hk₀' hact').symm)
    · exact Table.eq_of_key hk hk' (hid.trans hid'.symm)

theorem syncKeys_oneActiveKey : ∀ {ds : List KeyDescriptor} {db db' : Db}, db.OneActiveKey →
    db.syncKeys p ds = .ok db' → db'.OneActiveKey
  | [], _, _, hone, h => by cases h; exact hone
  | _ :: _, _, _, hone, h => by
    obtain ⟨db₁, h₁, h⟩ := bind_eq_ok.1 h
    exact syncKeys_oneActiveKey (syncKey_oneActiveKey hone h₁) h

theorem syncKey_staysRevoked {d : KeyDescriptor} (h : db.syncKey p d = .ok db') :
    Table.Evolves SigningKey.StaysRevoked db.signingKeys db'.signingKeys := by
  obtain ⟨key, hfind, rfl⟩ | ⟨-, -, keys, hins, rfl⟩ := syncKey_cases h
  · refine .set staysRevoked_refl fun old hold => ?_
    have hid : key.keyId = d.kid := (Table.find?_eq_some.1 hfind).2
    cases hfind.symm.trans (hid ▸ hold)
    exact id
  · exact .insertOr staysRevoked_refl hins

theorem syncKeys_staysRevoked : ∀ {ds : List KeyDescriptor} {db db' : Db},
    db.syncKeys p ds = .ok db' → Table.Evolves SigningKey.StaysRevoked db.signingKeys db'.signingKeys
  | [], _, _, h => by cases h; exact .of_eq staysRevoked_refl rfl
  | _ :: _, _, _, h => by
    obtain ⟨db₁, h₁, h⟩ := bind_eq_ok.1 h
    exact (syncKey_staysRevoked h₁).trans (fun hab hbc ha => hbc (hab ha)) (syncKeys_staysRevoked h)

theorem staysRevoked_trans {a b c : SigningKey} (h : a.StaysRevoked b) (h' : b.StaysRevoked c) : a.StaysRevoked c :=
  fun ha => h' (h ha)

theorem rotateSigningKey_staysRevoked {p r} (h : rotateSigningKey p db = .ok (r, db')) :
    Table.Evolves SigningKey.StaysRevoked db.signingKeys db'.signingKeys := by
  rcases rotateSigningKey_cases p db with ⟨actor, target, -, htarget, hrotate⟩ | ⟨-, hrotate⟩ <;>
    cases hrotate.symm.trans h
  · obtain ⟨hmem, hid, hstatus⟩ := rotationTarget_eq_some htarget
    have hchanged : Table.Evolves SigningKey.StaysRevoked db.signingKeys
        (db.signingKeys.update p.demotes p.changed) := by
      refine .update staysRevoked_refl fun k hk hrevoked => ?_
      simp [RotateSigningKey.demotes, hrevoked] at hk
    refine hchanged.trans staysRevoked_trans (.set staysRevoked_refl fun old hold hrevoked => ?_)
    -- the row `activated` writes is the target, which is not revoked
    obtain ⟨hold, hkey⟩ := Table.find?_eq_some.1 hold
    obtain ⟨k, hk, rfl⟩ := Table.mem_update.1 hold
    have hk : k = target := Table.eq_of_key hk hmem (Eq.trans (by split <;> rfl) hkey)
    rw [hk, if_neg (by simp [RotateSigningKey.demotes, hid])] at hrevoked
    exact absurd hrevoked hstatus
  · exact .of_eq staysRevoked_refl rfl

theorem syncSigningKeys_staysRevoked {n : Nat} (h : syncSigningKeys p db = .ok (n, db')) :
    Table.Evolves SigningKey.StaysRevoked db.signingKeys db'.signingKeys := by
  have hretired : Table.Evolves SigningKey.StaysRevoked db.signingKeys
      (db.signingKeys.update p.missing p.retire) := by
    refine .update staysRevoked_refl fun k hk hrevoked => ?_
    simp [SyncSigningKeys.missing, hrevoked] at hk
  exact hretired.trans staysRevoked_trans (syncKeys_staysRevoked (syncSigningKeys_eq_ok h).2)

theorem rotateSigningKey_oneActiveKey {p r} (hone : db.OneActiveKey)
    (h : rotateSigningKey p db = .ok (r, db')) : db'.OneActiveKey := by
  rcases rotateSigningKey_cases p db with ⟨actor, target, -, htarget, hrotate⟩ | ⟨-, hrotate⟩ <;>
    cases hrotate.symm.trans h
  · intro k hk k' hk' hact hact'
    rw [(active_of_rotate htarget).1 ⟨hk, hact⟩, (active_of_rotate htarget).1 ⟨hk', hact'⟩]
  · exact hone

/-- Two commands write keys. -/
theorem keys_of_next {c : Command} (h : postgres.next db c = some db') :
    db'.signingKeys = db.signingKeys ∨ (∃ p r, rotateSigningKey p db = .ok (r, db')) ∨
      ∃ p n, syncSigningKeys p db = .ok (n, db') := by
  by_cases hc : .signingKeys ∈ c.writes
  · rcases step_cases h with h | rfl
    · cases c <;> simp [Command.writes] at hc
      case rotateSigningKey => exact .inr (.inl ⟨_, written_eq_ok.1 h⟩)
      case syncSigningKeys => exact .inr (.inr ⟨_, written_eq_ok.1 h⟩)
    · exact .inl rfl
  · exact .inl ((frame_of_next h).signingKeys hc)

theorem oneActiveKey_of_next {c : Command} (hone : db.OneActiveKey) (h : postgres.next db c = some db') :
    db'.OneActiveKey := by
  rcases keys_of_next h with hsame | ⟨p, r, h⟩ | ⟨p, n, h⟩
  · simp only [Db.OneActiveKey, hsame]
    exact hone
  · exact rotateSigningKey_oneActiveKey hone h
  · exact syncKeys_oneActiveKey (hone.of_noNewActive retireMissing_noNewActive) (syncSigningKeys_eq_ok h).2

theorem staysRevoked_of_next {c : Command} (h : postgres.next db c = some db') :
    Table.Evolves SigningKey.StaysRevoked db.signingKeys db'.signingKeys := by
  rcases keys_of_next h with hsame | ⟨p, r, h⟩ | ⟨p, n, h⟩
  · exact .of_eq staysRevoked_refl hsame
  · exact rotateSigningKey_staysRevoked h
  · exact syncSigningKeys_staysRevoked h

end Steps

/-! ## Every run -/

theorem oneActiveKey_of_run {db : Db} (h : Reachable postgres db) : db.OneActiveKey :=
  h.invariant (I := Db.OneActiveKey) (fun k hk => absurd hk (Table.not_mem_empty k))
    fun hone _ hn => oneActiveKey_of_next hone hn

theorem staysRevoked_of_run {db db' : Db} (h : Steps postgres anyStep db db') :
    Table.Evolves SigningKey.StaysRevoked db.signingKeys db'.signingKeys :=
  h.relation (I := fun _ => True) (fun _ => .of_eq staysRevoked_refl rfl) (fun h h' => h.trans staysRevoked_trans h')
    (fun _ _ _ => trivial) (fun _ _ hn => staysRevoked_of_next hn) trivial

/-- **The signing keys of a run.** At most one is active; a rotation that succeeds leaves the requested key as the
only active one; in every permitted order of its row writes each passes the index; and a revoked key is never active
again. -/
theorem signingKeys_of_run {db : Db} (h : Reachable postgres db) :
    db.OneActiveKey ∧
      (∀ p k db', rotateSigningKey p db = .ok (some k, db') →
        k.keyId = p.keyId ∧ ∀ k', k' ∈ db'.signingKeys ∧ k'.status = .active ↔ k' = k) ∧
        (∀ p order, Permitted RotateWrite.waits (rotateWrites p db) order →
          ∃ r db', db.writeAll p order = .ok db' ∧ rotateSigningKey p db = .ok (r, db')) ∧
          ∀ db', Steps postgres anyStep db db' → ∀ k ∈ db.signingKeys, k.status = .revoked →
            ∀ k' ∈ db'.signingKeys, k'.keyId = k.keyId → k'.status ≠ .active := by
  refine ⟨oneActiveKey_of_run h, fun p k db' hrotate => ?_, fun p order => writeAll_of_permitted, ?_⟩
  · rcases rotateSigningKey_cases p db with ⟨actor, target, -, htarget, hcase⟩ | ⟨-, hcase⟩ <;>
      cases hcase.symm.trans hrotate
    exact ⟨(rotationTarget_eq_some htarget).2.1, fun k' => active_of_rotate htarget⟩
  · intro db' hrun k hk hrevoked k' hk' hid hact
    obtain ⟨k'', hk'', hstays⟩ := staysRevoked_of_run hrun (Table.find?_of_mem hk)
    rw [← hid, Table.find?_of_mem hk'] at hk''
    cases hk''
    rw [hstays hrevoked] at hact
    cases hact

def configureKeys : List Command :=
  [.syncSigningKeys
    { configured := [⟨"k1", .es256, .active, "", true⟩, ⟨"k2", .es256, .next, "", true⟩,
        ⟨"k3", .es256, .revoked, "", true⟩]
      keyVersion := "v1", nowMs := 0 }]

theorem configuredKeys_rotate : ∃ db, Reachable postgres db ∧ (∃ k ∈ db.signingKeys, k.status = .revoked) ∧
    ∃ k db', rotateSigningKey { sessionId := ⟨2⟩, keyId := "k2", retirePrevious := true, nowMs := 0 } db =
        .ok (some k, db') ∧
      k.keyId = "k2" ∧ ∀ k', k' ∈ db'.signingKeys ∧ k'.status = .active ↔ k' = k := by
  obtain ⟨db, hreach, htest⟩ := exists_reachable_of_run postgres (foundAcme ++ configureKeys)
    (fun db => (db.signingKeys.rows.any fun k => decide (k.status = .revoked)) &&
      (rotateSigningKey { sessionId := ⟨2⟩, keyId := "k2", retirePrevious := true, nowMs := 0 } db).toOption.any
        fun r => r.1.isSome)
    (by decide +kernel)
  obtain ⟨hrevoked, hrotate⟩ := Bool.and_eq_true_iff.1 htest
  obtain ⟨k₃, hk₃, hstatus⟩ := List.any_eq_true.1 hrevoked
  obtain ⟨⟨r, db'⟩, hok, hsome⟩ := exists_ok_of_any hrotate
  obtain ⟨k, rfl⟩ := Option.isSome_iff_exists.1 hsome
  exact ⟨db, hreach, ⟨k₃, hk₃, of_decide_eq_true hstatus⟩, k, db', hok, (signingKeys_of_run hreach).2.1 _ k db' hok⟩

end WasiAuth
