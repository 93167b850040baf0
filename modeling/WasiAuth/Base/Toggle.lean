import Mathlib.Tactic.Common

/-! # The log of a switch

A switch starts off and every entry of its log flips it, under a stamp greater than all before. `Log on l`
says that `l` is such a log and `on` the position it leaves the switch in.
-/

namespace Toggle

/-- The position a flip leads to, and its stamp. -/
structure Entry (τ : Type) where
  on : Bool
  stamp : τ

variable {τ : Type} [LT τ]

inductive Log : Bool → List (Entry τ) → Prop
  | nil : Log false []
  | flip {on : Bool} {l : List (Entry τ)} {stamp : τ} (h : Log on l) (hstamp : ∀ e ∈ l, e.stamp < stamp) :
      Log (!on) (l ++ [⟨!on, stamp⟩])

namespace Log

variable {on : Bool} {l : List (Entry τ)}

theorem on_eq (h : Log on l) : on = decide (l.length % 2 = 1) := by
  induction h with
  | nil => rfl
  | @flip on l _ _ _ ih =>
    rw [ih, List.length_append, List.length_singleton, ← decide_not, decide_eq_decide]
    omega

/-- The positions alternate, and the first entry switches on. -/
theorem alternates (h : Log on l) {i : Nat} {e : Entry τ} (he : l[i]? = some e) : e.on = decide (i % 2 = 0) := by
  induction h with
  | nil => simp at he
  | @flip on l stamp h _ ih =>
    by_cases hi : i < l.length
    · exact ih (by rwa [List.getElem?_append_left hi] at he)
    · have hlast : i = l.length := by
        have hlen := (List.getElem?_eq_some_iff.1 he).1
        simp only [List.length_append, List.length_singleton] at hlen
        omega
      subst hlast
      obtain rfl : e = ⟨!on, stamp⟩ := by simpa using he.symm
      rw [h.on_eq, ← decide_not, decide_eq_decide]
      omega

theorem pairwise (h : Log on l) : l.Pairwise fun a b => a.stamp < b.stamp := by
  induction h with
  | nil => exact .nil
  | flip _ hstamp ih =>
    refine List.pairwise_append.2 ⟨ih, List.pairwise_singleton _ _, fun a ha b hb => ?_⟩
    rw [List.mem_singleton.1 hb]
    exact hstamp a ha

/-- The last entry says where the switch is; without one it is off. -/
theorem getLast? (h : Log on l) : l.getLast?.any Entry.on = on := by
  cases h with
  | nil => rfl
  | flip => simp

end Log

end Toggle
