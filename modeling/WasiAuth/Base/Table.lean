import Mathlib.Data.List.Nodup
import Mathlib.Data.List.Sort
import Mathlib.Tactic.Common

/-! # Keyed tables

A relational table is a list of rows no two of which share a primary key. The key is a parameter
of the type and its uniqueness a field of the value, so a table with two rows of one key cannot be
built: an insert that would break it fails, and every other operation keeps the keys as they are.
`insertionSort` and `head?` are `ORDER BY … LIMIT 1`.
-/

namespace Relational

/-! ## Fallible steps -/

section
variable {ε α β : Type} {x : Except ε α} {f : α → Except ε β}

/-- A sequence of fallible steps succeeds when each of them does. -/
theorem bind_eq_ok {b : β} :
    x >>= f = .ok b ↔ ∃ a, x = .ok a ∧ f a = .ok b := by
  cases x <;> simp [bind, Except.bind]

theorem bind_eq_error {e : ε} :
    x >>= f = .error e ↔ x = .error e ∨ ∃ a, x = .ok a ∧ f a = .error e := by
  cases x <;> simp [bind, Except.bind]

theorem ok_bind (a : α) (f : α → Except ε β) : (Except.ok a >>= f) = f a := rfl

theorem error_bind (e : ε) (f : α → Except ε β) : (Except.error e >>= f) = .error e := rfl

/-- A list of fallible steps fails with the error of one of them. -/
theorem exists_error_of_mapM {e : ε} : ∀ {l : List α}, l.mapM f = .error e →
    ∃ a ∈ l, f a = .error e
  | [], h => by cases h
  | a :: l, h => by
    rw [List.mapM_cons] at h
    rcases bind_eq_error.1 h with h | ⟨b, -, h⟩
    · exact ⟨a, by simp, h⟩
    · rcases bind_eq_error.1 h with h | ⟨bs, -, h⟩
      · obtain ⟨x, hx, h⟩ := exists_error_of_mapM h
        exact ⟨x, by simp [hx], h⟩
      · cases h

/-- A list of fallible steps returns their results in order. -/
theorem forall₂_of_mapM : ∀ {l : List α} {bs : List β}, l.mapM f = .ok bs →
    List.Forall₂ (fun a b => f a = .ok b) l bs
  | [], bs, h => by
    cases h
    exact .nil
  | a :: l, bs, h => by
    rw [List.mapM_cons] at h
    obtain ⟨b, hb, h⟩ := bind_eq_ok.1 h
    obtain ⟨bs', hbs', h⟩ := bind_eq_ok.1 h
    cases h
    exact .cons hb (forall₂_of_mapM hbs')

/-- A loop of checks passes when every check does. -/
theorem forM_eq_ok {f : α → Except ε Unit} {l : List α} : l.forM f = .ok () ↔ ∀ a ∈ l, f a = .ok () := by
  induction l with
  | nil => simp [List.forM, pure, Except.pure]
  | cons a l ih =>
    rw [List.forM, bind_eq_ok, List.forall_mem_cons, ← ih]
    exact ⟨fun ⟨(), ha, hl⟩ => ⟨ha, hl⟩, fun ⟨ha, hl⟩ => ⟨(), ha, hl⟩⟩

/-- A fallible loop whose every round adds what it reads has read the whole list. -/
theorem foldlM_collects {σ γ : Type} {f : σ → α → Except ε σ} {m : σ → List γ} {g : α → List γ}
    (hf : ∀ s a s', f s a = .ok s' → m s' = m s ++ g a) : ∀ {l : List α} {s s' : σ}, l.foldlM f s = .ok s' →
      m s' = m s ++ l.flatMap g
  | [], s, s', h => by
    cases h
    simp
  | a :: l, s, s', h => by
    rw [List.foldlM_cons] at h
    obtain ⟨s₁, h₁, h⟩ := bind_eq_ok.1 h
    rw [foldlM_collects hf h, hf _ _ _ h₁, List.flatMap_cons, List.append_assoc]

theorem exists_mem_of_forall₂ {R : α → β → Prop} {l : List α} {bs : List β} (h : List.Forall₂ R l bs) :
    (∀ a ∈ l, ∃ b ∈ bs, R a b) ∧ ∀ b ∈ bs, ∃ a ∈ l, R a b := by
  induction h with
  | nil => simp
  | cons hab _ ih =>
    refine ⟨List.forall_mem_cons.2 ⟨⟨_, List.mem_cons_self, hab⟩, fun a ha => ?_⟩,
      List.forall_mem_cons.2 ⟨⟨_, List.mem_cons_self, hab⟩, fun b hb => ?_⟩⟩
    · exact (ih.1 a ha).imp fun b hb => ⟨List.mem_cons_of_mem _ hb.1, hb.2⟩
    · exact (ih.2 b hb).imp fun a ha => ⟨List.mem_cons_of_mem _ ha.1, ha.2⟩

/-- A list of fallible steps succeeds exactly when each of them does. -/
theorem exists_mapM_iff : ∀ {l : List α},
    (∃ bs, l.mapM f = .ok bs) ↔ ∀ a ∈ l, ∃ b, f a = .ok b
  | [] => ⟨fun _ a ha => (List.not_mem_nil ha).elim, fun _ => ⟨[], rfl⟩⟩
  | a :: l => by
    rw [List.forall_mem_cons, ← exists_mapM_iff, List.mapM_cons]
    constructor
    · rintro ⟨bs, h⟩
      obtain ⟨b, hb, h⟩ := bind_eq_ok.1 h
      obtain ⟨bs', hbs', -⟩ := bind_eq_ok.1 h
      exact ⟨⟨b, hb⟩, bs', hbs'⟩
    · rintro ⟨⟨b, hb⟩, bs, hbs⟩
      exact ⟨b :: bs, by rw [hb, ok_bind, hbs, ok_bind]; rfl⟩

theorem map_eq_ok {f : α → β} {b : β} : x.map f = .ok b ↔ ∃ a, x = .ok a ∧ f a = b := by
  cases x <;> simp [Except.map]

theorem mapError_eq_error {ε' : Type} {f : ε → ε'} {e' : ε'} :
    x.mapError f = .error e' ↔ ∃ e, x = .error e ∧ f e = e' := by
  cases x <;> simp [Except.mapError]

theorem mapError_eq_ok {ε' : Type} {f : ε → ε'} {a : α} : x.mapError f = .ok a ↔ x = .ok a := by
  cases x <;> simp [Except.mapError]

/-- A test that a result passes, if there is one. -/
theorem exists_ok_of_any {p : α → Bool} (h : x.toOption.any p = true) :
    ∃ a, x = .ok a ∧ p a = true := by
  cases x with
  | error e => simp [Except.toOption] at h
  | ok a => exact ⟨a, rfl, by simpa [Except.toOption] using h⟩

end

/-! ## Tables -/

/-- Rows with pairwise distinct keys, in the order they were inserted. -/
structure Table {κ α : Type} (key : α → κ) where
  rows : List α
  nodup : (rows.map key).Nodup

namespace Table

variable {κ α ε : Type} {key : α → κ} {t : Table key}

instance : Membership α (Table key) := ⟨fun t r => r ∈ t.rows⟩

theorem mem_def {r : α} : r ∈ t ↔ r ∈ t.rows := Iff.rfl

theorem ext_rows {t' : Table key} (h : t.rows = t'.rows) : t = t' := by
  cases t; cases t'; cases h; rfl

def empty : Table key := ⟨[], List.nodup_nil⟩

@[simp] theorem not_mem_empty (r : α) : ¬ r ∈ (empty : Table key) := by
  simp [mem_def, empty]

/-- Two rows of a table with one key are the same row. -/
theorem eq_of_key {r r' : α} (hr : r ∈ t) (hr' : r' ∈ t) (h : key r = key r') : r = r' :=
  List.inj_on_of_nodup_map t.nodup hr hr' h

/-! ## Row-wise updates and deletes -/

/-- `UPDATE … SET f WHERE p`, for an `f` that does not assign the key. -/
def update (p : α → Bool) (f : α → α) (t : Table key) (hf : ∀ r, key (f r) = key r := by intro _; rfl) :
    Table key where
  rows := t.rows.map fun r => if p r then f r else r
  nodup := by
    have h : key ∘ (fun r => if p r then f r else r) = key := by
      funext r
      by_cases hp : p r <;> simp [hp, hf]
    rw [List.map_map, h]
    exact t.nodup

theorem mem_update {p : α → Bool} {f : α → α} {hf : ∀ r, key (f r) = key r} {x : α} :
    x ∈ t.update p f hf ↔ ∃ r ∈ t, (if p r then f r else r) = x :=
  List.mem_map

theorem mem_update_of_mem {p : α → Bool} {f : α → α} {hf : ∀ r, key (f r) = key r} {r : α}
    (hr : r ∈ t) : (if p r then f r else r) ∈ t.update p f hf :=
  mem_update.2 ⟨r, hr, rfl⟩

/-- `DELETE … WHERE p`. -/
def delete (p : α → Bool) (t : Table key) : Table key where
  rows := t.rows.filter fun r => !p r
  nodup := t.nodup.sublist (List.Sublist.map key List.filter_sublist)

theorem mem_delete {p : α → Bool} {x : α} : x ∈ t.delete p ↔ x ∈ t ∧ p x = false := by
  simp [mem_def, delete, List.mem_filter]

section Keyed
variable [DecidableEq κ] {r : α} {t t' : Table key}

/-- Replace the row that has `r`'s key by `r`; nothing happens when there is none. -/
def set (r : α) (t : Table key) : Table key where
  rows := t.rows.map fun x => if key x = key r then r else x
  nodup := by
    have h : key ∘ (fun x => if key x = key r then r else x) = key := by
      funext x
      by_cases hk : key x = key r <;> simp [hk]
    rw [List.map_map, h]
    exact t.nodup

theorem mem_set {x : α} :
    x ∈ t.set r ↔ (x ∈ t ∧ key x ≠ key r) ∨ (x = r ∧ ∃ y ∈ t, key y = key r) := by
  simp only [mem_def, set, List.mem_map]
  constructor
  · rintro ⟨y, hy, rfl⟩
    by_cases hk : key y = key r
    · exact .inr ⟨by simp [hk], y, hy, hk⟩
    · exact .inl ⟨by simpa [hk] using hy, by simp [hk]⟩
  · rintro (⟨hx, hk⟩ | ⟨rfl, y, hy, hk⟩)
    · exact ⟨x, hx, by simp [hk]⟩
    · exact ⟨y, hy, by simp [hk]⟩

/-! ## Lookup by key -/

/-- `SELECT … WHERE key = k`. -/
def find? (k : κ) (t : Table key) : Option α := t.rows.find? fun r => decide (key r = k)

theorem find?_eq_some {k : κ} : t.find? k = some r ↔ r ∈ t ∧ key r = k := by
  constructor
  · intro h
    exact ⟨List.mem_of_find?_eq_some h, by simpa using List.find?_some h⟩
  · rintro ⟨hr, rfl⟩
    have hsome : (t.find? (key r)).isSome := List.find?_isSome.2 ⟨r, hr, by simp⟩
    obtain ⟨r', h⟩ := Option.isSome_iff_exists.1 hsome
    have hk : key r' = key r := by simpa using List.find?_some h
    rw [h, t.eq_of_key (List.mem_of_find?_eq_some h) hr hk]

theorem find?_eq_none {k : κ} : t.find? k = none ↔ ∀ r ∈ t, key r ≠ k := by
  simp [find?, List.find?_eq_none, mem_def]

theorem find?_of_mem (hr : r ∈ t) : t.find? (key r) = some r :=
  find?_eq_some.2 ⟨hr, rfl⟩

theorem find?_update {p : α → Bool} {f : α → α} {hf : ∀ r, key (f r) = key r} {k : κ} :
    (t.update p f hf).find? k = (t.find? k).map fun r => if p r then f r else r := by
  cases h : t.find? k with
  | none =>
    rw [find?_eq_none] at h
    refine find?_eq_none.2 fun x hx => ?_
    obtain ⟨r, hr, rfl⟩ := mem_update.1 hx
    by_cases hp : p r <;> simp [hp, hf, h r hr]
  | some r =>
    obtain ⟨hr, rfl⟩ := find?_eq_some.1 h
    refine find?_eq_some.2 ⟨mem_update_of_mem hr, ?_⟩
    by_cases hp : p r <;> simp [hp, hf]

theorem find?_set_self {r' : α} (h : t.find? (key r) = some r') :
    (t.set r).find? (key r) = some r := by
  obtain ⟨hr', hk⟩ := find?_eq_some.1 h
  exact find?_eq_some.2 ⟨mem_set.2 (.inr ⟨rfl, r', hr', hk⟩), rfl⟩

theorem find?_set_ne {k : κ} (hk : k ≠ key r) : (t.set r).find? k = t.find? k := by
  cases h : t.find? k with
  | none =>
    rw [find?_eq_none] at h
    refine find?_eq_none.2 fun x hx => ?_
    rcases mem_set.1 hx with ⟨hx, -⟩ | ⟨rfl, -⟩
    · exact h x hx
    · exact hk.symm
  | some x =>
    obtain ⟨hx, rfl⟩ := find?_eq_some.1 h
    exact find?_eq_some.2 ⟨mem_set.2 (.inl ⟨hx, hk⟩), rfl⟩

/-- Assigning the row that is there changes nothing. -/
theorem set_eq_self (h : t.find? (key r) = some r) : t.set r = t := by
  have hrow : ∀ x ∈ t.rows, (if key x = key r then r else x) = x := by
    intro x hx
    by_cases hk : key x = key r
    · rw [if_pos hk, t.eq_of_key hx (find?_eq_some.1 h).1 hk]
    · exact if_neg hk
  exact ext_rows ((List.map_congr_left hrow).trans (List.map_id' _))

/-- Assigning a row is updating the one row with its key. -/
theorem set_eq_update {k : κ} {f : α → α} (hf : ∀ r, key (f r) = key r)
    (h : t.find? k = some r) : t.set (f r) = t.update (fun x => decide (key x = k)) f hf := by
  obtain ⟨hr, rfl⟩ := find?_eq_some.1 h
  refine ext_rows (List.map_congr_left fun x hx => ?_)
  by_cases hk : key x = key r
  · simp [hf, t.eq_of_key hx hr hk]
  · simp [hf, hk]

/-- Assigning rows one after another is updating the rows with their keys. -/
theorem foldl_set {f : α → α} (hf : ∀ r, key (f r) = key r) : ∀ {l : List α} {t : Table key}, (l.map key).Nodup →
    (∀ r ∈ l, r ∈ t) → l.foldl (fun t r => t.set (f r)) t = t.update (fun r => decide (key r ∈ l.map key)) f hf
  | [], t, _, _ => ext_rows (by simp [update])
  | a :: l, t, hnd, hmem => by
    obtain ⟨ha, hnd⟩ := List.nodup_cons.1 hnd
    have hrest : ∀ r ∈ l, r ∈ t.set (f a) := by
      intro r hr
      refine mem_set.2 (.inl ⟨hmem r (by simp [hr]), fun he => ha ?_⟩)
      rw [← hf a, ← he]
      exact List.mem_map_of_mem hr
    rw [List.foldl_cons, foldl_set hf hnd hrest]
    refine ext_rows ((List.map_map ..).trans (List.map_congr_left fun x hx => ?_))
    by_cases hk : key x = key a
    · rw [t.eq_of_key hx (hmem a (by simp)) hk]
      simp only [Function.comp_apply, hf, if_true, ha, List.map_cons, List.mem_cons, true_or, decide_true, decide_false,
        Bool.false_eq_true, if_false]
    · simp [hk, hf]

/-- An `UPDATE … WHERE p`, row by row in any order. -/
theorem foldl_set_eq_update {f : α → α} {p : α → Bool} {l : List α} (hf : ∀ r, key (f r) = key r)
    (hl : l.Perm (t.rows.filter p)) : l.foldl (fun t r => t.set (f r)) t = t.update p f hf := by
  have hmem : ∀ r, r ∈ l ↔ r ∈ t ∧ p r = true := fun r => hl.mem_iff.trans List.mem_filter
  have hnd : (l.map key).Nodup :=
    (hl.map key).nodup_iff.2 (t.nodup.sublist (List.Sublist.map key List.filter_sublist))
  rw [foldl_set hf hnd fun r hr => ((hmem r).1 hr).1]
  refine ext_rows (List.map_congr_left fun x hx => ?_)
  have hiff : key x ∈ l.map key ↔ p x = true := by
    refine ⟨fun h => ?_, fun h => List.mem_map_of_mem ((hmem x).2 ⟨hx, h⟩)⟩
    obtain ⟨r, hr, hk⟩ := List.mem_map.1 h
    obtain ⟨hr, hp⟩ := (hmem r).1 hr
    exact t.eq_of_key hr hx hk ▸ hp
  simp only [hiff, Bool.decide_eq_true]

/-! ## Inserts -/

/-- `INSERT`: append the row, or fail with `e` when its key is taken. -/
def insertOr (e : ε) (r : α) (t : Table key) : Except ε (Table key) :=
  if h : key r ∈ t.rows.map key then .error e
  else .ok ⟨t.rows ++ [r], by
    rw [List.map_append, List.map_singleton]
    exact List.nodup_append.2 ⟨t.nodup, List.nodup_singleton _, by
      intro a ha b hb
      rw [List.mem_singleton.1 hb]
      exact fun hab => h (hab ▸ ha)⟩⟩

theorem insertOr_eq_ok {e : ε} (h : t.insertOr e r = .ok t') :
    t.find? (key r) = none ∧ t'.rows = t.rows ++ [r] := by
  unfold insertOr at h
  split at h
  · cases h
  · rename_i hk
    cases h
    refine ⟨find?_eq_none.2 fun x hx hkx => hk ?_, rfl⟩
    exact hkx ▸ List.mem_map_of_mem hx

theorem exists_insertOr {e : ε} (h : t.find? (key r) = none) :
    ∃ t', t.insertOr e r = .ok t' := by
  have hk : key r ∉ t.rows.map key := by
    intro hk
    obtain ⟨x, hx, hxr⟩ := List.mem_map.1 hk
    exact find?_eq_none.1 h x hx hxr
  exact ⟨_, dif_neg hk⟩

theorem mem_of_insertOr {e : ε} {x : α} (h : t.insertOr e r = .ok t') :
    x ∈ t' ↔ x ∈ t ∨ x = r := by
  simp [mem_def, (insertOr_eq_ok h).2]

theorem find?_of_insertOr {e : ε} (h : t.insertOr e r = .ok t') (k : κ) :
    t'.find? k = if k = key r then some r else t.find? k := by
  split
  · rename_i hk
    subst hk
    exact find?_eq_some.2 ⟨(mem_of_insertOr h).2 (.inr rfl), rfl⟩
  · rename_i hk
    simp only [find?, (insertOr_eq_ok h).2, List.find?_append]
    have : ¬ key r = k := fun e => hk e.symm
    simp [this]

/-- An insert leaves the rows that are there. -/
theorem find?_insertOr_of_some {e : ε} {x : α} {k : κ} (h : t.insertOr e r = .ok t')
    (hx : t.find? k = some x) : t'.find? k = some x := by
  rw [find?_of_insertOr h, if_neg]
  · exact hx
  · rintro rfl
    simp [(insertOr_eq_ok h).1] at hx

/-- Insert the rows in order, stopping at the first duplicate key. -/
def insertAllOr (e : ε) : List α → Table key → Except ε (Table key)
  | [], t => .ok t
  | r :: rs, t => do
    let t ← t.insertOr e r
    insertAllOr e rs t

theorem rows_of_insertAllOr {e : ε} : ∀ {rs : List α} {t t' : Table key}, t.insertAllOr e rs = .ok t' →
    t'.rows = t.rows ++ rs
  | [], t, t', h => by cases h; simp
  | r :: rs, t, t', h => by
    obtain ⟨t₁, h₁, h⟩ := bind_eq_ok.1 h
    rw [rows_of_insertAllOr h, (insertOr_eq_ok h₁).2]
    simp

theorem mem_of_insertAllOr {e : ε} {rs : List α} (h : t.insertAllOr e rs = .ok t') {x : α} :
    x ∈ t' ↔ x ∈ t ∨ x ∈ rs := by
  simp [mem_def, rows_of_insertAllOr h]

end Keyed

/-! ## Counting -/

/-- `SELECT count(*) … WHERE p`. -/
def count (p : α → Bool) (t : Table key) : Nat := t.rows.countP p

theorem count_pos {p : α → Bool} : 0 < t.count p ↔ ∃ r ∈ t, p r = true := by
  simp [count, List.countP_pos_iff, mem_def]

section Keyed
variable [DecidableEq κ]

omit [DecidableEq κ] in
theorem one_lt_count {p : α → Bool} {t : Table key} :
    1 < t.count p ↔ ∃ a ∈ t, ∃ b ∈ t, p a = true ∧ p b = true ∧ a ≠ b := by
  have hmem : ∀ r, r ∈ t.rows.filter p ↔ r ∈ t ∧ p r = true := fun r => List.mem_filter
  have hnd : (t.rows.filter p).Nodup := (List.Nodup.of_map key t.nodup).filter p
  rw [count, List.countP_eq_length_filter]
  constructor
  · intro h
    match hl : t.rows.filter p with
    | [] | [_] => simp [hl] at h
    | a :: b :: l =>
      rw [hl] at hmem hnd
      obtain ⟨ha, hpa⟩ := (hmem a).1 (by simp)
      obtain ⟨hb, hpb⟩ := (hmem b).1 (by simp)
      refine ⟨a, ha, b, hb, hpa, hpb, fun hab => ?_⟩
      simp [hab] at hnd
  · rintro ⟨a, ha, b, hb, hpa, hpb, hne⟩
    have ha := (hmem a).2 ⟨ha, hpa⟩
    have hb := (hmem b).2 ⟨hb, hpb⟩
    match hl : t.rows.filter p with
    | [] => simp [hl] at ha
    | [c] =>
      rw [hl] at ha hb
      exact absurd ((List.mem_singleton.1 ha).trans (List.mem_singleton.1 hb).symm) hne
    | _ :: _ :: _ => simp

theorem count_of_insertOr {e : ε} {r : α} {t t' : Table key} (h : t.insertOr e r = .ok t') (p : α → Bool) :
    t'.count p = t.count p + if p r then 1 else 0 := by
  simp [count, (insertOr_eq_ok h).2, List.countP_append, List.countP_singleton]

/-- Replacing the row `old` by `r` moves a count by what the two rows contribute. -/
theorem count_set {r old : α} {t : Table key} (hold : old ∈ t) (hk : key old = key r) (p : α → Bool) :
    (t.set r).count p + (if p old then 1 else 0) = t.count p + if p r then 1 else 0 := by
  obtain ⟨rows, hnd⟩ := t
  simp only [count, set, mem_def] at *
  induction rows with
  | nil => simp at hold
  | cons x xs ih =>
    rw [List.map_cons, List.nodup_cons] at hnd
    simp only [List.map_cons, List.countP_cons]
    rcases List.mem_cons.1 hold with rfl | hold
    · have hxs : xs.map (fun y => if key y = key r then r else y) = xs := by
        refine (List.map_congr_left fun y hy => ?_).trans (List.map_id _)
        have hne : ¬ key y = key r := fun e => hnd.1 (hk ▸ e ▸ List.mem_map_of_mem hy)
        simp [hne]
      simp only [hk, if_true, hxs]
      omega
    · have hne : ¬ key x = key r := fun e => hnd.1 (e ▸ hk ▸ List.mem_map_of_mem hold)
      have := ih hnd.2 hold
      simp only [hne, if_false]
      omega

end Keyed

/-! ## Rows over time -/

section Keyed
variable [DecidableEq κ] {R : α → α → Prop} {t t' t₁ t₂ t₃ : Table key}

/-- No row is deleted, and each changes only as `R` allows. -/
def Evolves (R : α → α → Prop) (t t' : Table key) : Prop :=
  ∀ ⦃k r⦄, t.find? k = some r → ∃ r', t'.find? k = some r' ∧ R r r'

namespace Evolves

theorem of_eq (hR : ∀ r, R r r) (h : t' = t) : Evolves R t t' :=
  fun _ r hr => ⟨r, by rw [h]; exact hr, hR r⟩

theorem trans (hR : ∀ {a b c}, R a b → R b c → R a c) (h : Evolves R t₁ t₂) (h' : Evolves R t₂ t₃) :
    Evolves R t₁ t₃ := by
  intro k r hr
  obtain ⟨r₂, hr₂, h₂⟩ := h hr
  obtain ⟨r₃, hr₃, h₃⟩ := h' hr₂
  exact ⟨r₃, hr₃, hR h₂ h₃⟩

theorem update {p : α → Bool} {f : α → α} {hf : ∀ r, key (f r) = key r} (hR : ∀ r, R r r)
    (h : ∀ r, p r = true → R r (f r)) : Evolves R t (t.update p f hf) := by
  intro k r hr
  refine ⟨_, by rw [find?_update, hr]; rfl, ?_⟩
  dsimp only
  split
  · exact h r ‹_›
  · exact hR r

theorem set {new : α} (hR : ∀ r, R r r) (h : ∀ old, t.find? (key new) = some old → R old new) :
    Evolves R t (t.set new) := by
  intro k r hr
  by_cases hk : k = key new
  · subst hk
    exact ⟨new, find?_set_self hr, h r hr⟩
  · exact ⟨r, by rw [find?_set_ne hk, hr], hR r⟩

theorem insertOr {e : ε} {new : α} (hR : ∀ r, R r r) (h : t.insertOr e new = .ok t') : Evolves R t t' :=
  fun _ r hr => ⟨r, find?_insertOr_of_some h hr, hR r⟩

end Evolves

end Keyed

section Origin
variable {R : α → α → Prop} {t t' : Table key}

/-- Every row was there before, up to a change that `R` allows. -/
def Stems (R : α → α → Prop) (t t' : Table key) : Prop := ∀ r' ∈ t', ∃ r ∈ t, R r r'

namespace Stems

theorem of_eq (hR : ∀ r, R r r) (h : t' = t) : Stems R t t' := fun r hr => ⟨r, h ▸ hr, hR r⟩

theorem update {p : α → Bool} {f : α → α} {hf : ∀ r, key (f r) = key r} (hR : ∀ r, R r r)
    (h : ∀ r, R r (f r)) : Stems R t (t.update p f hf) := by
  intro r' hr'
  obtain ⟨r, hr, rfl⟩ := mem_update.1 hr'
  refine ⟨r, hr, ?_⟩
  split
  · exact h r
  · exact hR r

theorem set [DecidableEq κ] {new old : α} (hR : ∀ r, R r r) (hold : old ∈ t) (h : R old new) :
    Stems R t (t.set new) := by
  intro r' hr'
  rcases mem_set.1 hr' with ⟨hr', -⟩ | ⟨rfl, -⟩
  · exact ⟨r', hr', hR r'⟩
  · exact ⟨old, hold, h⟩

/-- An `UPDATE … WHERE p`, row by row. -/
theorem foldl_set [DecidableEq κ] {f : α → α} {p : α → Bool} (hR : ∀ r, R r r) (hf : ∀ r, key (f r) = key r)
    (h : ∀ r, R r (f r)) : Stems R t ((t.rows.filter p).foldl (fun t r => t.set (f r)) t) := by
  rw [foldl_set_eq_update hf (.refl _)]
  exact .update hR h

end Stems

end Origin

/-! ## One part of a table -/

section Part
variable {π : Type} {part : α → π} {x : π} {t t' t₁ t₂ t₃ : Table key}

/-- The rows of one part are the same. -/
def SamePart (part : α → π) (x : π) (t t' : Table key) : Prop := ∀ r, part r = x → (r ∈ t' ↔ r ∈ t)

namespace SamePart

theorem refl (t : Table key) : SamePart part x t t := fun _ _ => Iff.rfl

theorem trans (h : SamePart part x t₁ t₂) (h' : SamePart part x t₂ t₃) : SamePart part x t₁ t₃ :=
  fun r hr => (h' r hr).trans (h r hr)

theorem update {p : α → Bool} {f : α → α} {hf : ∀ r, key (f r) = key r} (hp : ∀ r, p r = true → part r ≠ x)
    (hpart : ∀ r, part (f r) = part r) : SamePart part x t (t.update p f hf) := by
  intro r hr
  rw [mem_update]
  constructor
  · rintro ⟨r', hr', heq⟩
    by_cases hpr : p r' = true
    · rw [if_pos hpr] at heq
      exact absurd (by rw [← hpart, heq, hr]) (hp r' hpr)
    · rw [if_neg hpr] at heq
      exact heq ▸ hr'
  · intro hmem
    exact ⟨r, hmem, if_neg fun hpr => hp r hpr hr⟩

theorem delete {p : α → Bool} (hp : ∀ r, p r = true → part r ≠ x) : SamePart part x t (t.delete p) := by
  intro r hr
  rw [mem_delete]
  exact ⟨And.left, fun hmem => ⟨hmem, Bool.eq_false_iff.2 fun hpr => hp r hpr hr⟩⟩

variable [DecidableEq κ]

theorem set {new : α} (hnew : part new ≠ x) (hold : ∀ old ∈ t, key old = key new → part old ≠ x) :
    SamePart part x t (t.set new) := by
  intro r hr
  rw [mem_set]
  constructor
  · rintro (⟨hmem, -⟩ | ⟨rfl, -⟩)
    · exact hmem
    · exact absurd hr hnew
  · intro hmem
    exact .inl ⟨hmem, fun hk => hold r hmem hk hr⟩

theorem insertOr {e : ε} {new : α} (hnew : part new ≠ x) (h : t.insertOr e new = .ok t') : SamePart part x t t' := by
  intro r hr
  rw [mem_of_insertOr h]
  exact ⟨fun hmem => hmem.resolve_right fun heq => hnew (heq ▸ hr), .inl⟩

theorem insertAllOr {e : ε} {rs : List α} (hnew : ∀ r ∈ rs, part r ≠ x) (h : t.insertAllOr e rs = .ok t') :
    SamePart part x t t' := by
  intro r hr
  rw [mem_of_insertAllOr h]
  exact ⟨fun hmem => hmem.resolve_right fun hin => hnew r hin hr, .inl⟩

end SamePart

end Part

end Table

/-! ## `ORDER BY … LIMIT 1` -/

/-- The first row of an ordering by a measure, whatever breaks its ties, is one whose measure is largest. -/
theorem exists_head?_insertionSort {α : Type} {r : α → α → Prop} [DecidableRel r] {m : α → Nat} :
    ∀ {l : List α}, (∀ a ∈ l, ∀ b ∈ l, r a b → m b ≤ m a) → (∀ a ∈ l, ∀ b ∈ l, ¬ r a b → m a ≤ m b) → l ≠ [] →
      ∃ top ∈ l, (l.insertionSort r).head? = some top ∧ ∀ b ∈ l, m b ≤ m top
  | [], _, _, hne => absurd rfl hne
  | [a], _, _, _ => ⟨a, by simp, rfl, by simp⟩
  | a :: b :: l, hpos, hneg, _ => by
    obtain ⟨top, htop, hhead, hmax⟩ := exists_head?_insertionSort (l := b :: l)
      (fun x hx y hy => hpos x (.tail _ hx) y (.tail _ hy)) (fun x hx y hy => hneg x (.tail _ hx) y (.tail _ hy))
      (by simp)
    obtain ⟨rest, hrest⟩ : ∃ rest, (b :: l).insertionSort r = top :: rest := List.head?_eq_some_iff.1 hhead
    rw [List.insertionSort_cons, hrest]
    by_cases hr : r a top
    · refine ⟨a, by simp, by rw [List.orderedInsert_cons, if_pos hr]; rfl, fun x hx => ?_⟩
      rcases List.mem_cons.1 hx with rfl | hx
      · exact le_rfl
      · exact (hmax x hx).trans (hpos a (by simp) top (.tail _ htop) hr)
    · refine ⟨top, .tail _ htop, by rw [List.orderedInsert_cons, if_neg hr]; rfl, fun x hx => ?_⟩
      rcases List.mem_cons.1 hx with rfl | hx
      · exact hneg _ (by simp) top (.tail _ htop) hr
      · exact hmax x hx

end Relational
