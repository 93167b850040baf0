import Mathlib.Algebra.BigOperators.Group.List.Basic
import Mathlib.Algebra.GroupWithZero.Nat
import WasiAuth.Base.Transition

/-! # Concurrent calls on shared data

A service whose calls each go through several atomic operations on shared data, any number of them in
progress at once, between other commands on the same data. A call is its local state, and ends where it has no
operation left.

What is proved about a call is stated of the shared data and its local state, `J d p`, and must survive what
others do to the data; `R` says what everyone does (rely and guarantee in one). `Upholds` are the obligations,
one per kind of step, and four rules follow from them: every call has `J` (`Upholds.each`), two calls that
can tell from `J` what the other has done exclude each other (`Upholds.pairwise`), what the calls have done adds
up to what the data show (`Upholds.sum`), and what only calls leave in the data was left by one of them
(`Upholds.traced`).
-/

namespace Calls

open Transition

/-- `D` the data, `P` the local state of a call, `I` what a call is started with, `E` what an operation
gets from outside (a clock, a random source, the network), `C` the other commands. -/
structure Service (D P I E C : Type) where
  start : I → P
  /-- The next operation of a call; `none` once the call has ended. -/
  advance : E → D → P → Option (D × P)
  command : C → D → D

structure State (D P : Type) where
  data : D
  calls : List P

inductive Action (I E C : Type)
  | call (input : I)
  | advance (index : Nat) (outside : E)
  | command (c : C)

variable {D P I E C : Type}

def Service.system (S : Service D P I E C) (data : D) : System (State D P) (Action I E C) where
  init := ⟨data, []⟩
  next s
    | .call input => some { s with calls := s.calls ++ [S.start input] }
    | .advance index outside =>
      (s.calls[index]?).bind fun p => (S.advance outside s.data p).map fun (data, p') => ⟨data, s.calls.set index p'⟩
    | .command c => some { s with data := S.command c s.data }

variable {S : Service D P I E C} {data : D} {s t : State D P} {a : Action I E C}

/-- All that a step can do. -/
inductive Service.Step (S : Service D P I E C) : State D P → Action I E C → State D P → Prop
  | call {d : D} {ps : List P} (input : I) : S.Step ⟨d, ps⟩ (.call input) ⟨d, ps ++ [S.start input]⟩
  | advance {d d' : D} {before after : List P} {p p' : P} {outside : E} (h : S.advance outside d p = some (d', p')) :
      S.Step ⟨d, before ++ p :: after⟩ (.advance before.length outside) ⟨d', before ++ p' :: after⟩
  | command {d : D} {ps : List P} (c : C) : S.Step ⟨d, ps⟩ (.command c) ⟨S.command c d, ps⟩

theorem step_of_next (h : (S.system data).next s a = some t) : S.Step s a t := by
  obtain ⟨d, ps⟩ := s
  cases a with
  | call input => cases h; exact .call input
  | advance index outside =>
    simp only [Service.system, Option.bind_eq_some_iff, Option.map_eq_some_iff] at h
    obtain ⟨p, hp, ⟨d', p'⟩, hadvance, rfl⟩ := h
    obtain ⟨hlt, rfl⟩ := List.getElem?_eq_some_iff.1 hp
    have hlen : (ps.take index).length = index := List.length_take_of_le (Nat.le_of_lt hlt)
    have hstep : S.Step ⟨d, ps.take index ++ ps[index] :: ps.drop (index + 1)⟩ (.advance (ps.take index).length outside)
        ⟨d', ps.take index ++ p' :: ps.drop (index + 1)⟩ := .advance hadvance
    have hsplit : ps.take index ++ ps[index] :: ps.drop (index + 1) = ps := by simp
    rw [hlen, hsplit] at hstep
    rwa [List.set_eq_take_append_cons_drop, if_pos hlt]
  | command c => cases h; exact .command c

theorem next_advance {index : Nat} {p : P} {outside : E} (h : s.calls[index]? = some p) :
    (S.system data).next s (.advance index outside) =
      (S.advance outside s.data p).map fun (data, p') => ⟨data, s.calls.set index p'⟩ := by
  simp [Service.system, h]

/-! ## The rules -/

/-- What the service keeps: `Inv` of the data, `J` of the data and each call, while everyone moves the data
only as `R` allows, which `J` survives. -/
structure Service.Upholds (S : Service D P I E C) (Inv : D → Prop) (R : D → D → Prop) (J : D → P → Prop) : Prop where
  stable : ∀ {d d' p}, R d d' → J d p → J d' p
  start : ∀ d input, J d (S.start input)
  advance : ∀ {e d p d' p'}, Inv d → J d p → S.advance e d p = some (d', p') → Inv d' ∧ R d d' ∧ J d' p'
  command : ∀ {c d}, Inv d → Inv (S.command c d) ∧ R d (S.command c d)

namespace Service.Upholds

variable {Inv : D → Prop} {R : D → D → Prop} {J : D → P → Prop}

theorem step (h : S.Upholds Inv R J) (hs : Inv s.data ∧ ∀ p ∈ s.calls, J s.data p) (hstep : S.Step s a t) :
    Inv t.data ∧ ∀ p ∈ t.calls, J t.data p := by
  obtain ⟨hinv, hcalls⟩ := hs
  cases hstep with
  | call input =>
    refine ⟨hinv, fun p hp => ?_⟩
    rcases List.mem_append.1 hp with hp | hp
    · exact hcalls p hp
    · obtain rfl := List.mem_singleton.1 hp
      exact h.start _ input
  | @advance d d' before after p p' _ hadvance =>
    obtain ⟨hinv', hR, hJ⟩ := h.advance hinv (hcalls p (by simp)) hadvance
    refine ⟨hinv', fun q hq => ?_⟩
    simp only [List.mem_append, List.mem_cons] at hq hcalls
    rcases hq with hq | rfl | hq
    · exact h.stable hR (hcalls q (.inl hq))
    · exact hJ
    · exact h.stable hR (hcalls q (.inr (.inr hq)))
  | command c =>
    obtain ⟨hinv', hR⟩ := h.command (c := c) hinv
    exact ⟨hinv', fun p hp => h.stable hR (hcalls p hp)⟩

/-- Every call has `J` in every reachable state. -/
theorem each (h : S.Upholds Inv R J) (hdata : Inv data) (hs : Reachable (S.system data) s) :
    Inv s.data ∧ ∀ p ∈ s.calls, J s.data p :=
  ReachableBy.invariant (I := fun s : State D P => Inv s.data ∧ ∀ p ∈ s.calls, J s.data p)
    ⟨hdata, fun _ hp => by cases hp⟩ (fun hs _ hn => h.step hs (step_of_next hn)) hs

/-- A relation that everyone keeps to holds between the data of a state and of any later one. -/
theorem relation (h : S.Upholds Inv R J) (hrefl : ∀ d, R d d) (htrans : ∀ {a b c}, R a b → R b c → R a c)
    (hs : Inv s.data ∧ ∀ p ∈ s.calls, J s.data p) (hrun : Steps (S.system data) anyStep s t) : R s.data t.data := by
  refine hrun.relation (R := fun s t => R s.data t.data) (fun s => hrefl s.data) htrans
    (fun hs _ hn => h.step hs (step_of_next hn)) (fun {u _ _} hu _ hn => ?_) hs
  cases step_of_next hn with
  | call => exact hrefl _
  | @advance _ _ _ _ p _ _ hadvance => exact (h.advance hu.1 (hu.2 p (by simp)) hadvance).2.1
  | command c => exact (h.command hu.1).2

/-- Calls exclude each other when an operation of one looks at what the others have left in the data. -/
theorem pairwise {X : P → P → Prop} (h : S.Upholds Inv R J) (hsymm : ∀ {p q}, X p q → X q p)
    (hstart : ∀ p input, X p (S.start input))
    (hadvance : ∀ {e d p d' p' q}, Inv d → J d p → J d q → X q p → S.advance e d p = some (d', p') → X q p')
    (hdata : Inv data) (hs : Reachable (S.system data) s) : s.calls.Pairwise X := by
  refine (ReachableBy.invariant (I := fun s : State D P =>
    (Inv s.data ∧ ∀ p ∈ s.calls, J s.data p) ∧ s.calls.Pairwise X) ⟨⟨hdata, fun _ hp => by cases hp⟩, .nil⟩
    (fun {s a t} hs _ hn => ⟨h.step hs.1 (step_of_next hn), ?_⟩) hs).2
  obtain ⟨⟨hinv, hcalls⟩, hpairs⟩ := hs
  cases step_of_next hn with
  | call input =>
    exact List.pairwise_append.2 ⟨hpairs, by simp, fun p _ q hq => List.mem_singleton.1 hq ▸ hstart p input⟩
  | @advance d d' before after p p' _ hstep =>
    obtain ⟨hbefore, hrest, hcross⟩ := List.pairwise_append.1 hpairs
    obtain ⟨hp, hafter⟩ := List.pairwise_cons.1 hrest
    have hnew {q : P} (hq : q ∈ before ++ p :: after) (hqp : X q p) : X q p' :=
      hadvance hinv (hcalls p (by simp)) (hcalls q hq) hqp hstep
    refine List.pairwise_append.2 ⟨hbefore, List.pairwise_cons.2 ⟨fun q hq => ?_, hafter⟩, fun q hq r hr => ?_⟩
    · exact hsymm (hnew (by simp [hq]) (hsymm (hp q hq)))
    · rcases List.mem_cons.1 hr with rfl | hr
      · exact hnew (by simp [hq]) (hcross q hq p (by simp))
      · exact hcross q hq r (by simp [hr])
  | command => exact hpairs

/-- What the calls have done adds up to what the data show. -/
theorem sum {w : P → Nat} {m : D → Nat} (h : S.Upholds Inv R J) (hstart : ∀ input, w (S.start input) = 0)
    (hadvance : ∀ {e d p d' p'}, Inv d → J d p → S.advance e d p = some (d', p') → m d' + w p = m d + w p')
    (hcommand : ∀ {c d}, Inv d → m (S.command c d) = m d) (hdata : Inv data) (hm : m data = 0)
    (hs : Reachable (S.system data) s) : (s.calls.map w).sum = m s.data := by
  refine (ReachableBy.invariant (I := fun s : State D P =>
    (Inv s.data ∧ ∀ p ∈ s.calls, J s.data p) ∧ (s.calls.map w).sum = m s.data)
    ⟨⟨hdata, fun _ hp => by cases hp⟩, by simpa [Service.system] using hm.symm⟩
    (fun {s a t} hs _ hn => ⟨h.step hs.1 (step_of_next hn), ?_⟩) hs).2
  obtain ⟨⟨hinv, hcalls⟩, hsum⟩ := hs
  cases step_of_next hn with
  | call input => simpa [hstart] using hsum
  | @advance d d' before after p p' _ hstep =>
    have hstep := hadvance hinv (hcalls p (by simp)) hstep
    simp only [List.map_append, List.map_cons, List.sum_append, List.sum_cons] at hsum hstep ⊢
    omega
  | command c => exact hsum.trans (hcommand hinv).symm

/-- What only the calls leave in the data can be traced to a call. -/
theorem traced {μ : Type} {M : D → μ → Prop} {W : P → μ → Prop} (h : S.Upholds Inv R J)
    (hadvance : ∀ {e d p d' p'}, Inv d → J d p → S.advance e d p = some (d', p') →
      ∀ x, (W p x → W p' x) ∧ (M d' x → M d x ∨ W p' x))
    (hcommand : ∀ {c d x}, M (S.command c d) x → M d x) (hdata : Inv data) (hnone : ∀ x, ¬ M data x)
    (hs : Reachable (S.system data) s) : ∀ x, M s.data x → ∃ p ∈ s.calls, W p x := by
  refine (ReachableBy.invariant (I := fun s : State D P =>
    (Inv s.data ∧ ∀ p ∈ s.calls, J s.data p) ∧ ∀ x, M s.data x → ∃ p ∈ s.calls, W p x)
    ⟨⟨hdata, fun _ hp => by cases hp⟩, fun x hx => absurd hx (hnone x)⟩
    (fun {s a t} hs _ hn => ⟨h.step hs.1 (step_of_next hn), fun x hx => ?_⟩) hs).2
  obtain ⟨⟨hinv, hcalls⟩, htraced⟩ := hs
  cases step_of_next hn with
  | call input =>
    obtain ⟨p, hp, hW⟩ := htraced x hx
    exact ⟨p, by simp [hp], hW⟩
  | @advance d d' before after p p' _ hstep =>
    obtain ⟨hkeeps, hnew⟩ := hadvance hinv (hcalls p (by simp)) hstep x
    rcases hnew hx with hold | hW
    · obtain ⟨q, hq, hW⟩ := htraced x hold
      simp only [List.mem_append, List.mem_cons] at hq
      rcases hq with hq | rfl | hq
      · exact ⟨q, by simp [hq], hW⟩
      · exact ⟨p', by simp, hkeeps hW⟩
      · exact ⟨q, by simp [hq], hW⟩
    · exact ⟨p', by simp, hW⟩
  | command c => exact htraced x (hcommand hx)

end Service.Upholds

end Calls
