import Mathlib.Tactic.Common

/-! # Lockstep

A body that answers yes or no, fails, or sequences the calls it is given can be run in any monad with failures. A
relation between the computations of two monads that answers, failures and sequencing keep (`Lockstep`) then holds
between two runs of the body as soon as it holds between the calls: there is one induction over the body, and none over
what the monads do with it.
-/

variable {ε : Type} {m n : Type → Type} [Monad m] [Monad n] [MonadExceptOf ε m] [MonadExceptOf ε n]

structure Lockstep (ε : Type) {m n : Type → Type} [Monad m] [Monad n] [MonadExceptOf ε m] [MonadExceptOf ε n]
    (R : m Bool → n Bool → Prop) : Prop where
  pure : ∀ b, R (pure b) (pure b)
  throw : ∀ e : ε, R (throw e) (throw e)
  bind : ∀ {x y} {f : Bool → m Bool} {g : Bool → n Bool}, R x y → (∀ b, R (f b) (g b)) → R (x >>= f) (y >>= g)

namespace Lockstep

variable {R : m Bool → n Bool → Prop} {α : Type}

/-- A loop that stops at the first yes. -/
theorem anyM (hR : Lockstep ε R) {f : α → m Bool} {g : α → n Bool} :
    ∀ {l : List α}, (∀ a ∈ l, R (f a) (g a)) → R (l.anyM f) (l.anyM g)
  | [], _ => hR.pure false
  | a :: l, h => by
    simp only [List.anyM]
    refine hR.bind (h a List.mem_cons_self) fun b => ?_
    cases b with
    | true => exact hR.pure true
    | false => exact hR.anyM fun a ha => h a (List.mem_cons_of_mem _ ha)

end Lockstep
