import Mathlib.Data.List.Chain
import Mathlib.Tactic.Common

/-! # Successions

A list of records in which each is linked to the next and only the last is open: a log of versions, a chain
of keys or of tokens that replace one another. An open record is where the succession grows.
-/

/-- Each record is linked to the next, and the last one is open. -/
structure Succession {α : Type} (Link : α → α → Prop) (Open : α → Prop) (l : List α) : Prop where
  linked : l.IsChain Link
  last : ∀ a ∈ l.getLast?, Open a

namespace Succession

variable {α : Type} {Link : α → α → Prop} {Open : α → Prop} {l init : List α} {a b : α}

theorem nil : Succession Link Open [] := ⟨.nil, by simp⟩

theorem singleton (ha : Open a) : Succession Link Open [a] := ⟨.singleton a, by simpa using ha⟩

/-- What keeps the links and the openness of the records keeps the succession. -/
theorem map {g : α → α} (hlink : ∀ a b, Link a b → Link (g a) (g b)) (hopen : ∀ a, Open a → Open (g a))
    (h : Succession Link Open l) : Succession Link Open (l.map g) := by
  refine ⟨List.isChain_map_of_isChain g hlink h.linked, fun b hb => ?_⟩
  rw [List.getLast?_map] at hb
  obtain ⟨a, ha, rfl⟩ := Option.map_eq_some_iff.1 hb
  exact hopen a (h.last a ha)

/-- The open record is replaced by one that keeps its place and is followed by `b`. -/
theorem extend {a' : α} (h : Succession Link Open (init ++ [a])) (hkeep : ∀ x, Link x a → Link x a')
    (hlink : Link a' b) (hb : Open b) : Succession Link Open (init ++ [a', b]) := by
  obtain ⟨hinit, -, hlast⟩ := List.isChain_append.1 h.linked
  refine ⟨List.isChain_append.2 ⟨hinit, List.isChain_pair.2 hlink, fun x hx y hy => ?_⟩, ?_⟩
  · obtain rfl : a' = y := by simpa using hy
    exact hkeep x (hlast x hx a (by simp))
  · intro x hx
    obtain rfl : b = x := by simpa using hx
    exact hb

/-- A record without a successor is the last one. -/
theorem eq_append (h : Succession Link Open l) (ha : a ∈ l) (hend : ∀ b, ¬ Link a b) : ∃ init, l = init ++ [a] := by
  obtain ⟨init, rest, rfl⟩ := List.append_of_mem ha
  cases rest with
  | nil => exact ⟨init, rfl⟩
  | cons b rest => exact absurd (List.isChain_append_cons_cons.1 h.linked).2.1 (hend b)

theorem eq_of_ends (h : Succession Link Open l) (ha : a ∈ l) (hb : b ∈ l) (hend : ∀ c, ¬ Link a c)
    (hend' : ∀ c, ¬ Link b c) : a = b := by
  obtain ⟨init, hl⟩ := h.eq_append ha hend
  obtain ⟨init', hl'⟩ := h.eq_append hb hend'
  simpa using congrArg List.getLast? (hl.symm.trans hl')

end Succession
