import Mathlib.Data.List.Induction
import Mathlib.Tactic.Common

/-! # Guarded runs of a state machine

A `System` is a start state and a partial step function over labelled actions. `Steps ok` is the runs
all of whose steps satisfy `ok` (a condition on the state before the step and the action), so that
"in every run" and "in every run whose steps all meet a condition" are one notion. Invariants and
step relations are carried along runs once, here.
-/

namespace Transition

/-- A start state and the enabled steps: `next s a = none` when `a` cannot happen in `s`. -/
structure System (σ α : Type) where
  init : σ
  next : σ → α → Option σ

variable {σ α : Type} {S : System σ α} {ok : σ → α → Prop} {test : σ → α → Bool}

/-- `t` follows from `s` by steps that each satisfied `ok` when they were taken. -/
inductive Steps (S : System σ α) (ok : σ → α → Prop) : σ → σ → Prop
  | refl (s : σ) : Steps S ok s s
  | step {s t u : σ} {a : α} : Steps S ok s t → ok t a → S.next t a = some u → Steps S ok s u

/-- No condition on the steps. -/
def anyStep : σ → α → Prop := fun _ _ => True

/-- Reached from the start state by steps that satisfy `ok`. -/
def ReachableBy (S : System σ α) (ok : σ → α → Prop) (s : σ) : Prop := Steps S ok S.init s

/-- Reached from the start state. -/
def Reachable (S : System σ α) (s : σ) : Prop := ReachableBy S anyStep s

namespace Steps

theorem trans {s t u : σ} (h₁ : Steps S ok s t) (h₂ : Steps S ok t u) : Steps S ok s u := by
  induction h₂ with
  | refl => exact h₁
  | step _ hok hn ih => exact ih.step hok hn

/-- What every step keeps, every run keeps. -/
theorem invariant {I : σ → Prop} (hstep : ∀ {s a t}, I s → ok s a → S.next s a = some t → I t)
    {s t : σ} (h : Steps S ok s t) (hs : I s) : I t := by
  induction h with
  | refl => exact hs
  | step _ hok hn ih => exact hstep ih hok hn

/-- A reflexive and transitive relation that every step of a state with `I` satisfies relates the
ends of every run from a state with `I`. -/
theorem relation {I : σ → Prop} {R : σ → σ → Prop} (hrefl : ∀ s, R s s)
    (htrans : ∀ {s t u}, R s t → R t u → R s u)
    (hinv : ∀ {s a t}, I s → ok s a → S.next s a = some t → I t)
    (hstep : ∀ {s a t}, I s → ok s a → S.next s a = some t → R s t)
    {s t : σ} (h : Steps S ok s t) (hs : I s) : R s t := by
  induction h with
  | refl => exact hrefl _
  | step h hok hn ih => exact htrans ih (hstep (h.invariant hinv hs) hok hn)

end Steps

/-- What holds at the start and is kept by every step holds in every reached state. -/
theorem ReachableBy.invariant {I : σ → Prop} (hinit : I S.init)
    (hstep : ∀ {s a t}, I s → ok s a → S.next s a = some t → I t) {s : σ} (h : ReachableBy S ok s) : I s :=
  Steps.invariant hstep h hinit

/-! ## Replaying a list of actions -/

/-- Take the actions in order; `none` as soon as one is not enabled. -/
def System.run (S : System σ α) : σ → List α → Option σ
  | s, [] => some s
  | s, a :: as => (S.next s a).bind (S.run · as)

theorem Steps.of_run : ∀ {as : List α} {s t : σ}, S.run s as = some t → Steps S anyStep s t
  | [], s, t, h => by cases h; exact .refl _
  | a :: as, s, t, h => by
    simp only [System.run, Option.bind_eq_some_iff] at h
    obtain ⟨u, hu, h⟩ := h
    exact ((Steps.refl s).step trivial hu).trans (Steps.of_run h)

theorem System.run_append : ∀ {as bs : List α} {s : σ}, S.run s (as ++ bs) = (S.run s as).bind (S.run · bs)
  | [], _, _ => rfl
  | a :: as, bs, s => by
    simp only [List.cons_append, System.run]
    cases S.next s a with
    | none => rfl
    | some t => exact System.run_append

/-- A property of the actions taken so far and the state they lead to, kept by every further action, holds after every
replay. -/
theorem System.run_trace {I : List α → σ → Prop} (hinit : I [] S.init)
    (hstep : ∀ {as s a t}, S.run S.init as = some s → I as s → S.next s a = some t → I (as ++ [a]) t) {as : List α} :
    ∀ {s : σ}, S.run S.init as = some s → I as s := by
  induction as using List.reverseRecOn with
  | nil =>
    intro s h
    cases h
    exact hinit
  | append_singleton as a ih =>
    intro t h
    rw [System.run_append] at h
    obtain ⟨s, hs, h⟩ := Option.bind_eq_some_iff.1 h
    simp only [System.run] at h
    rw [Option.bind_fun_some] at h
    exact hstep hs (ih hs) h

/-- How many of the actions of a replay satisfy a test, each in the state in which it is taken. -/
def System.count (S : System σ α) (test : σ → α → Bool) : σ → List α → Nat
  | _, [] => 0
  | s, a :: as => (test s a).toNat + (S.next s a).elim 0 fun t => S.count test t as

theorem System.count_append : ∀ {as bs : List α} {s t : σ}, S.run s as = some t →
    S.count test s (as ++ bs) = S.count test s as + S.count test t bs
  | [], _, _, _, h => by
    cases h
    simp [System.count]
  | a :: as, bs, s, t, h => by
    simp only [System.run, Option.bind_eq_some_iff] at h
    obtain ⟨u, hu, h⟩ := h
    simp only [List.cons_append, System.count, hu, Option.elim_some, System.count_append h]
    omega

theorem System.count_eq_zero {spent : σ → Prop}
    (hstep : ∀ {s a t}, spent s → S.next s a = some t → spent t) (htest : ∀ {s a}, spent s → test s a = false) :
    ∀ {as : List α} {s : σ}, spent s → S.count test s as = 0
  | [], _, _ => rfl
  | a :: as, s, h => by
    simp only [System.count, htest h, Bool.toNat_false, Nat.zero_add]
    cases hn : S.next s a with
    | none => rfl
    | some t => exact System.count_eq_zero hstep htest (hstep h hn)

/-- What leaves a mark that stays, and does not happen where the mark is, happens at most once. -/
theorem System.count_le_one {spent : σ → Prop}
    (hmark : ∀ {s a t}, test s a = true → S.next s a = some t → spent t)
    (hstep : ∀ {s a t}, spent s → S.next s a = some t → spent t) (htest : ∀ {s a}, spent s → test s a = false) :
    ∀ {as : List α} {s : σ}, S.count test s as ≤ 1
  | [], _ => Nat.zero_le _
  | a :: as, s => by
    simp only [System.count]
    cases hn : S.next s a with
    | none => exact Bool.toNat_le _
    | some t =>
      cases ha : test s a with
      | true => simp [System.count_eq_zero hstep htest (hmark ha hn)]
      | false => simpa using System.count_le_one hmark hstep htest

/-- A replay that ends in a state with `p` shows that such a state is reached. -/
theorem exists_reachable_of_run (S : System σ α) (as : List α) (p : σ → Bool)
    (h : (S.run S.init as).any p = true) :
    ∃ s, Reachable S s ∧ p s = true := by
  obtain ⟨s, hs, hp⟩ := (Option.any_eq_true p _).1 h
  exact ⟨s, Steps.of_run hs, hp⟩

/-- An infinite run. -/
structure Path (S : System σ α) where
  state : Nat → σ
  action : Nat → α
  init : state 0 = S.init
  step : ∀ n, S.next (state n) (action n) = some (state (n + 1))

theorem Path.reachable (p : Path S) (n : Nat) : Reachable S (p.state n) := by
  induction n with
  | zero =>
    rw [p.init]
    exact .refl _
  | succ n ih => exact .step ih trivial (p.step n)

/-- A replay that ends in a state which an action does not change goes on with that action for ever. -/
theorem exists_path_of_run {as : List α} {s : σ} {a : α} (hrun : S.run S.init as = some s)
    (hloop : S.next s a = some s) :
    ∃ p : Path S, (∀ n, p.action n = as.getD n a) ∧ ∀ n, S.run S.init (as.take n) = some (p.state n) := by
  have hsome (n : Nat) : ∃ t, S.run S.init (as.take n) = some t := by
    rw [← List.take_append_drop n as, System.run_append] at hrun
    obtain ⟨t, ht, -⟩ := Option.bind_eq_some_iff.1 hrun
    exact ⟨t, ht⟩
  choose state hstate using hsome
  refine ⟨⟨state, fun n => as.getD n a, (Option.some.inj (hstate 0)).symm, fun n => ?_⟩, fun _ => rfl, hstate⟩
  by_cases hn : n < as.length
  · have hnext := hstate (n + 1)
    rw [List.take_succ_eq_append_getElem hn, System.run_append, hstate n, Option.bind_some] at hnext
    simp only [System.run] at hnext
    rw [Option.bind_fun_some] at hnext
    have haction : as.getD n a = as[n] := by simp [List.getD_eq_getElem?_getD, hn]
    rw [haction]
    exact hnext
  · have hend (m : Nat) (hm : as.length ≤ m) : state m = s := by
      have h := hstate m
      rw [List.take_of_length_le hm, hrun] at h
      exact (Option.some.inj h).symm
    have haction : as.getD n a = a := by simp [List.getD_eq_getElem?_getD, Nat.not_lt.1 hn]
    rw [hend n (by omega), hend (n + 1) (by omega), haction]
    exact hloop

/-- The system that refuses the actions a test rejects. -/
def System.guard (S : System σ α) (test : σ → α → Bool) : System σ α where
  init := S.init
  next s a := if test s a then S.next s a else none

theorem Steps.of_guard (htest : ∀ {s a}, test s a = true → ok s a) {s t : σ}
    (h : Steps (S.guard test) anyStep s t) : Steps S ok s t := by
  induction h with
  | refl => exact .refl _
  | step _ _ hn ih =>
    simp only [System.guard] at hn
    split at hn
    · rename_i hpass
      exact ih.step (htest hpass) hn
    · cases hn

/-- The same for a replay all of whose actions pass a test. -/
theorem exists_reachableBy_of_run (S : System σ α) (test : σ → α → Bool) (as : List α) (p : σ → Bool)
    (h : ((S.guard test).run S.init as).any p = true) (htest : ∀ {s a}, test s a = true → ok s a) :
    ∃ s, ReachableBy S ok s ∧ p s = true := by
  obtain ⟨s, hs, hp⟩ := exists_reachable_of_run (S.guard test) as p h
  exact ⟨s, Steps.of_guard htest hs, hp⟩

end Transition
