import Mathlib.Data.List.Nodup
import Mathlib.Tactic.Common

/-! # A bounded deque in order of use

Entries with keys, the least recently used one in front. An entry moves to the back when it is used and enters at the
back when it is put; beyond the capacity the front leaves. What an operation does is one of these actions and may depend
on the deque (`act`). Histories are lists of operations, newest first, and start from the empty deque.

`lastUse` counts uses in the history alone. `ordered_entries` says that the deque is in their order, from which follow
that keys are distinct and that what leaves was used before all that stays; `exists_put_of_mem_entries` says where an
entry comes from and what happened to its key since.
-/

namespace Recency

variable {E K : Type} [DecidableEq K] (key : E → K)

def find? (k : K) (l : List E) : Option E := l.find? fun e => decide (key e = k)

/-- The first entry of the key leaves. -/
def erase (k : K) (l : List E) : List E := l.eraseP fun e => decide (key e = k)

def use (k : K) (l : List E) : List E :=
  match find? key k l with
  | none => l
  | some e => erase key k l ++ [e]

/-- The entry at the back, in place of the one it replaces. -/
def push (e : E) (l : List E) : List E := erase key (key e) l ++ [e]

def put (capacity : Nat) (e : E) (l : List E) : List E :=
  (push key e l).drop ((push key e l).length - capacity)

inductive Action (E K : Type)
  | use (k : K)
  | drop (k : K)
  | put (e : E)

namespace Action
variable {key}

def apply (key : E → K) (capacity : Nat) : Action E K → List E → List E
  | .use k, l => Recency.use key k l
  | .drop k, l => erase key k l
  | .put e, l => Recency.put key capacity e l

/-- The action uses the key. -/
def uses (key : E → K) (k : K) : Action E K → Bool
  | .use k' => decide (k' = k)
  | .drop _ => false
  | .put e => decide (key e = k)

/-- The action leaves the entry of the key in place, short of an eviction. -/
def keeps (key : E → K) (k : K) : Action E K → Bool
  | .use _ => true
  | .drop k' => decide (k' ≠ k)
  | .put e => decide (key e ≠ k)

end Action

variable {ι : Type} (act : ι → List E → Action E K) (capacity : Nat)

/-- The deque after a history, newest operation first. -/
def entries : List ι → List E
  | [] => []
  | op :: past => (act op (entries past)).apply key capacity (entries past)

/-- The number of the last operation of the history that used the key; zero if none did. -/
def lastUse (k : K) : List ι → Nat
  | [] => 0
  | op :: past => if (act op (entries key act capacity past)).uses key k then past.length + 1 else lastUse k past

variable {key act capacity} {op : ι} {past : List ι} {l : List E}

theorem lastUse_le_length (k : K) : ∀ past : List ι, lastUse key act capacity k past ≤ past.length
  | [] => Nat.le_refl _
  | op :: past => by
    have hpast := lastUse_le_length k past
    rw [lastUse, List.length_cons]
    split <;> omega

theorem lastUse_of_uses {k : K} (h : (act op (entries key act capacity past)).uses key k = true) :
    lastUse key act capacity k (op :: past) = past.length + 1 := if_pos h

theorem lastUse_of_not_uses {k : K} (h : (act op (entries key act capacity past)).uses key k = false) :
    lastUse key act capacity k (op :: past) = lastUse key act capacity k past := if_neg (Bool.eq_false_iff.1 h)

/-! ## The order of the deque -/

/-- The entries of a list in order of their last use. -/
def Ordered (key : E → K) (act : ι → List E → Action E K) (capacity : Nat) (past : List ι) (l : List E) : Prop :=
  l.Pairwise fun a b => lastUse key act capacity (key a) past < lastUse key act capacity (key b) past

theorem Ordered.nodup (h : Ordered key act capacity past l) : (l.map key).Nodup := by
  rw [List.Nodup, List.pairwise_map]
  exact h.imp fun hlt heq => absurd (heq ▸ hlt) (Nat.lt_irrefl _)

theorem mem_of_mem_erase {k : K} {e : E} {l : List E} (h : e ∈ erase key k l) : e ∈ l := List.mem_of_mem_eraseP h

/-- With distinct keys, no entry of the key is left. -/
theorem key_ne_of_mem_erase {k : K} {e : E} : ∀ {l : List E}, (l.map key).Nodup → e ∈ erase key k l → key e ≠ k
  | [], _, h => nomatch h
  | a :: l, hnodup, h => by
    rw [List.map_cons, List.nodup_cons] at hnodup
    by_cases ha : key a = k
    · rw [erase, List.eraseP_cons_of_pos (by simpa using ha)] at h
      exact fun he => hnodup.1 (ha.trans he.symm ▸ List.mem_map_of_mem h)
    · rw [erase, List.eraseP_cons_of_neg (by simpa using ha)] at h
      rcases List.mem_cons.1 h with rfl | h
      · exact ha
      · exact key_ne_of_mem_erase hnodup.2 h

theorem mem_erase_of_ne {k : K} {e : E} {l : List E} (he : e ∈ l) (hk : key e ≠ k) : e ∈ erase key k l :=
  (List.mem_eraseP_of_neg (by simpa using hk)).2 he

/-- Entries whose keys an operation does not use keep their order. -/
theorem Ordered.cons_of_not_uses (h : Ordered key act capacity past l)
    (hkeys : ∀ e ∈ l, (act op (entries key act capacity past)).uses key (key e) = false) :
    Ordered key act capacity (op :: past) l := by
  refine List.Pairwise.imp_of_mem (fun ha hb hlt => ?_) h
  rwa [lastUse_of_not_uses (hkeys _ ha), lastUse_of_not_uses (hkeys _ hb)]

/-- The entry an operation uses belongs at the back. -/
theorem Ordered.append_used {e : E} (h : Ordered key act capacity past l)
    (hkeys : ∀ x ∈ l, (act op (entries key act capacity past)).uses key (key x) = false)
    (he : (act op (entries key act capacity past)).uses key (key e) = true) :
    Ordered key act capacity (op :: past) (l ++ [e]) := by
  refine List.pairwise_append.2 ⟨h.cons_of_not_uses hkeys, List.pairwise_singleton _ _, fun x hx y hy => ?_⟩
  rw [List.mem_singleton.1 hy, lastUse_of_uses he, lastUse_of_not_uses (hkeys x hx)]
  exact Nat.lt_succ_of_le (lastUse_le_length _ _)

theorem Ordered.push {e : E} (h : Ordered key act capacity past l)
    (hact : act op (entries key act capacity past) = .put e) :
    Ordered key act capacity (op :: past) (push key e l) := by
  refine Ordered.append_used (h.sublist List.eraseP_sublist) (fun x hx => ?_) (hact ▸ decide_eq_true rfl)
  rw [hact]
  exact decide_eq_false fun hk => key_ne_of_mem_erase h.nodup hx hk.symm

/-- The deque is in order of last use: one operation. -/
theorem Ordered.apply (h : Ordered key act capacity past (entries key act capacity past)) :
    Ordered key act capacity (op :: past) (entries key act capacity (op :: past)) := by
  rw [entries]
  cases hact : act op (entries key act capacity past) with
  | drop k => exact Ordered.cons_of_not_uses (h.sublist List.eraseP_sublist) fun _ _ => hact ▸ rfl
  | put e => exact (h.push hact).sublist (List.drop_sublist _ _)
  | use k =>
    cases hfind : find? key k (entries key act capacity past) with
    | none =>
      simp only [Action.apply, use, hfind]
      refine h.cons_of_not_uses fun x hx => ?_
      rw [hact]
      exact decide_eq_false fun hk => List.find?_eq_none.1 hfind x hx (decide_eq_true hk.symm)
    | some e =>
      have he := List.find?_some hfind
      simp only [Action.apply, use, hfind]
      refine Ordered.append_used (h.sublist List.eraseP_sublist) (fun x hx => ?_) ?_
      · rw [hact]
        exact decide_eq_false fun hk => key_ne_of_mem_erase h.nodup hx hk.symm
      · rw [hact]
        exact decide_eq_true (of_decide_eq_true he).symm

theorem ordered_entries : ∀ past : List ι, Ordered key act capacity past (entries key act capacity past)
  | [] => List.Pairwise.nil
  | _ :: past => (ordered_entries past).apply

/-! ## Its length -/

theorem length_apply_le {l : List E} (h : l.length ≤ capacity) (action : Action E K) :
    (action.apply key capacity l).length ≤ capacity := by
  cases action with
  | drop k => exact Nat.le_trans List.eraseP_sublist.length_le h
  | use k =>
    cases hfind : find? key k l with
    | none => simpa only [Action.apply, use, hfind] using h
    | some e =>
      have hlength := List.length_eraseP_of_mem (List.mem_of_find?_eq_some hfind) (List.find?_some hfind)
      have hpos := List.length_pos_of_mem (List.mem_of_find?_eq_some hfind)
      simp only [Action.apply, use, hfind, List.length_append, List.length_singleton, erase, hlength]
      omega
  | put e =>
    rw [Action.apply, put, List.length_drop]
    omega

theorem length_entries_le : ∀ past : List ι, (entries key act capacity past).length ≤ capacity
  | [] => Nat.zero_le _
  | _ :: past => length_apply_le (length_entries_le past) _

/-! ## Where an entry comes from -/

theorem mem_of_mem_use {k : K} {e : E} {l : List E} (h : e ∈ use key k l) : e ∈ l := by
  unfold use at h
  cases hfind : find? key k l with
  | none => rwa [hfind] at h
  | some found =>
    rw [hfind] at h
    rcases List.mem_append.1 h with h | h
    · exact mem_of_mem_erase h
    · exact List.mem_singleton.1 h ▸ List.mem_of_find?_eq_some hfind

/-- An entry after an action was put by it, or was there and is kept. -/
theorem eq_put_or_mem_of_mem_apply {action : Action E K} {e : E} {l : List E} (hnodup : (l.map key).Nodup)
    (h : e ∈ action.apply key capacity l) : action = .put e ∨ e ∈ l ∧ action.keeps key (key e) = true := by
  cases action with
  | use k => exact .inr ⟨mem_of_mem_use h, rfl⟩
  | drop k => exact .inr ⟨mem_of_mem_erase h, decide_eq_true (key_ne_of_mem_erase hnodup h).symm⟩
  | put x =>
    rcases List.mem_append.1 (List.mem_of_mem_drop h) with h | h
    · exact .inr ⟨mem_of_mem_erase h, decide_eq_true (key_ne_of_mem_erase hnodup h).symm⟩
    · rw [List.mem_singleton.1 h]
      exact .inl rfl

/-- An entry was put at some time; since then no operation put or dropped its key, and it was there all along. -/
theorem exists_put_of_mem_entries {e : E} : ∀ {past : List ι}, e ∈ entries key act capacity past →
    ∃ since op before, past = since ++ op :: before ∧ act op (entries key act capacity before) = .put e ∧
      (∀ op' later, op' :: later <:+ since →
        (act op' (entries key act capacity (later ++ op :: before))).keeps key (key e) = true) ∧
      ∀ later, later <:+ since → e ∈ entries key act capacity (later ++ op :: before)
  | [], h => nomatch h
  | op :: past, h => by
    rcases eq_put_or_mem_of_mem_apply (ordered_entries past).nodup h with hact | ⟨hmem, hkeeps⟩
    · refine ⟨[], op, past, rfl, hact, fun op' later hlater => ?_, fun later hlater => ?_⟩
      · exact absurd (List.suffix_nil.1 hlater) (List.cons_ne_nil _ _)
      · rw [List.suffix_nil.1 hlater]
        exact h
    · obtain ⟨since, put, before, rfl, hact, hsince, hall⟩ := exists_put_of_mem_entries hmem
      refine ⟨op :: since, put, before, rfl, hact, fun op' later hlater => ?_, fun later hlater => ?_⟩
      · rcases List.suffix_cons_iff.1 hlater with hsame | hlater
        · cases hsame
          exact hkeeps
        · exact hsince op' later hlater
      · rcases List.suffix_cons_iff.1 hlater with rfl | hlater
        · exact h
        · exact hall later hlater

/-! ## What leaves -/

/-- Putting `e` drives `x` out of the deque. -/
def Evicted (key : E → K) (capacity : Nat) (e : E) (l : List E) (x : E) : Prop :=
  x ∈ l ∧ key x ≠ key e ∧ x ∉ put key capacity e l

theorem mem_take_of_evicted {e x : E} {l : List E} (h : Evicted key capacity e l x) :
    x ∈ (push key e l).take ((push key e l).length - capacity) := by
  obtain ⟨hmem, hkey, hleft⟩ := h
  have hall : x ∈ push key e l := List.mem_append_left _ (mem_erase_of_ne hmem hkey)
  rw [← List.take_append_drop ((push key e l).length - capacity) (push key e l)] at hall
  exact (List.mem_append.1 hall).resolve_right hleft

theorem length_push_le (e : E) (l : List E) : (push key e l).length ≤ l.length + 1 := by
  have herase : (erase key (key e) l).length ≤ l.length := List.eraseP_sublist.length_le
  rw [push, List.length_append, List.length_singleton]
  omega

theorem eq_of_mem_of_length_le_one {a b : E} : ∀ {l : List E}, l.length ≤ 1 → a ∈ l → b ∈ l → a = b
  | [_], _, ha, hb => (List.mem_singleton.1 ha).trans (List.mem_singleton.1 hb).symm
  | _ :: _ :: _, h, _, _ => absurd h (by simp)

/-- What is driven out was used before everything that stays; it is one entry, and the deque was full. -/
theorem lastUse_lt_of_evicted {e x : E} (hact : act op (entries key act capacity past) = .put e)
    (h : Evicted key capacity e (entries key act capacity past) x) :
    (∀ y ∈ entries key act capacity (op :: past),
      lastUse key act capacity (key x) (op :: past) < lastUse key act capacity (key y) (op :: past)) ∧
    (∀ x', Evicted key capacity e (entries key act capacity past) x' → x' = x) ∧
    (entries key act capacity past).length = capacity := by
  have hordered := (ordered_entries past : Ordered key act capacity past _).push hact
  have hle : (entries key act capacity past).length ≤ capacity := length_entries_le past
  have hstay : entries key act capacity (op :: past) = put key capacity e (entries key act capacity past) := by
    rw [entries, hact]
    rfl
  rw [hstay]
  generalize entries key act capacity past = l at h hordered hle ⊢
  have hpush : (push key e l).length ≤ l.length + 1 := length_push_le e l
  have hx := mem_take_of_evicted h
  refine ⟨fun y hy => ?_, fun x' h' => ?_, ?_⟩
  · rw [Ordered, ← List.take_append_drop ((push key e l).length - capacity) (push key e l)] at hordered
    exact (List.pairwise_append.1 hordered).2.2 x hx y hy
  · -- at most one entry is over the capacity
    refine eq_of_mem_of_length_le_one ?_ (mem_take_of_evicted h') hx
    rw [List.length_take]
    omega
  · have hpos : (push key e l).length - capacity ≠ 0 := by
      intro hzero
      rw [hzero] at hx
      exact List.not_mem_nil hx
    omega

end Recency
