import Mathlib.Order.Monotone.Basic
import Mathlib.Tactic.Common

/-! # Caches validated by a generation counter

A counter that only grows guards a cache: a value is stored with the generation that stood before it was
loaded, and is used again while that generation stands. What this buys is said with a floor, a number that
may rise only when the counter moves. `floorAt g` is the floor while the counter was at `g`; it is ghost
data beside the counter, and whoever moves the counter says how far the floor rises.

`Read g p` is a reading of the counter at a moment when the floor had reached `p`, `Fresh g k` a value of
version `k` loaded after a reading of `g`. Both last, and a value found under a generation one has read is at
least as new as the floor was at the reading (`Read.le_of_fresh`).
-/

namespace Epoch

/-- The counter, with the floor at each of its values. -/
structure Counter where
  generation : Nat
  floorAt : Nat → Nat
  mono : Monotone floorAt

namespace Counter

def start (generation : Nat) : Counter := ⟨generation, fun _ => 0, monotone_const⟩

def floor (c : Counter) : Nat := c.floorAt c.generation

/-- The next generation, with the floor raised to `v` unless it is higher already. -/
def raise (c : Counter) (v : Nat) : Counter where
  generation := c.generation + 1
  floorAt g := if g ≤ c.generation then c.floorAt g else max c.floor v
  mono := by
    intro g g' hg
    dsimp only
    split <;> split
    · exact c.mono hg
    · rename_i hle _
      exact (c.mono hle).trans (le_max_left _ _)
    · omega
    · exact le_rfl

variable {c : Counter} {g k p v : Nat}

@[simp] theorem floor_raise : (c.raise v).floor = max c.floor v := by
  simp [floor, raise]

theorem floorAt_raise (hg : g ≤ c.generation) : (c.raise v).floorAt g = c.floorAt g := if_pos hg

/-- `g` was read when the floor had reached `p`. -/
def Read (c : Counter) (g p : Nat) : Prop := g ≤ c.generation ∧ p ≤ c.floorAt g

/-- A value of version `k` loaded after `g` was read. -/
def Fresh (c : Counter) (g k : Nat) : Prop := g ≤ c.generation ∧ c.floorAt g ≤ k

theorem read_of_le (h : p ≤ c.floor) : c.Read c.generation p := ⟨le_rfl, h⟩

theorem Read.raise (h : c.Read g p) (v : Nat) : (c.raise v).Read g p :=
  ⟨h.1.trans (Nat.le_succ _), by rw [floorAt_raise h.1]; exact h.2⟩

theorem Fresh.raise (h : c.Fresh g k) (v : Nat) : (c.raise v).Fresh g k :=
  ⟨h.1.trans (Nat.le_succ _), by rw [floorAt_raise h.1]; exact h.2⟩

/-- A load after a reading sees at least the floor of the load's own time. -/
theorem Read.fresh (h : c.Read g p) (hk : c.floor ≤ k) : c.Fresh g k :=
  ⟨h.1, (c.mono h.1).trans hk⟩

/-- A value found under the generation that was read. -/
theorem Read.le_of_fresh (h : c.Read g p) (hk : c.Fresh g k) : p ≤ k := h.2.trans hk.2

end Counter

end Epoch
