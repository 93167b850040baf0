import Mathlib.Data.List.Perm.Basic
import Mathlib.Tactic.Common

/-! # Orders of writes

The writes of one command run in an order that is fixed only where one of them waits for another. A statement
about the command has to hold in each of these orders.
-/

namespace Orders

variable {ω : Type}

/-- The complete orders of the writes in which none comes before one it waits for. -/
def Permitted (waits : ω → ω → Prop) (writes order : List ω) : Prop :=
  order.Perm writes ∧ order.Pairwise fun earlier later => ¬ waits earlier later

/-- A write that waits for all the others comes last. -/
theorem Permitted.last {waits : ω → ω → Prop} {first order : List ω} {last : ω}
    (h : Permitted waits (first ++ [last]) order) (hlast : ∀ w ∈ first, waits last w) :
    ∃ front, order = front ++ [last] ∧ front.Perm first := by
  obtain ⟨hperm, hpair⟩ := h
  obtain ⟨front, rest, rfl⟩ := List.append_of_mem (hperm.mem_iff.2 (by simp : last ∈ first ++ [last]))
  have hperm : (front ++ rest).Perm first :=
    (List.perm_middle.symm.trans (hperm.trans List.perm_append_comm)).cons_inv
  have hrest : rest = [] := by
    refine List.eq_nil_iff_forall_not_mem.2 fun w hw => ?_
    have hafter := (List.pairwise_cons.1 (List.pairwise_append.1 hpair).2.1).1 w hw
    exact hafter (hlast w (hperm.mem_iff.1 (List.mem_append_right _ hw)))
  subst hrest
  exact ⟨front, rfl, by simpa using hperm⟩

end Orders
