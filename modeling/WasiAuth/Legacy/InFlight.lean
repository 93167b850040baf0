import WasiAuth.Base.Transition

/-! # The guard of concurrent broker calls

`InFlightGuard` (`authn-runtime/src/lib.rs` 432-458) bounds how many calls wait for the broker. Calls share one atomic
counter, and a move here is one access to it: the load, one turn of the compare-and-exchange loop (which may fail for no
reason, as `compare_exchange_weak` may), and the subtraction when the guard is dropped, be it that the broker has
answered or that the call was cancelled. The moves of any number of calls come in any order.
-/

namespace WasiAuth.Middleware

open Transition

/-- Where a call stands that has a credential to put to the broker. -/
inductive Call
  | started
  | looping (current : UInt32)
  | admitted
  | refused
  | finished
deriving DecidableEq

def Call.isAdmitted : Call → Bool
  | .admitted => true
  | _ => false

/-- The call has not left `acquire` yet. -/
def Call.isAcquiring : Call → Bool
  | .started | .looping _ => true
  | _ => false

/-- The counter `IN_FLIGHT`, a `usize` of `wasm32`, and the calls that share it. -/
structure Calls where
  inFlight : UInt32
  calls : List Call
deriving DecidableEq

def Calls.put (s : Calls) (i : Nat) (call : Call) : Calls := { s with calls := s.calls.set i call }

/-- `load` and `attempt` are those of `acquire` (lib.rs:435), `drop` is the guard's (lib.rs:455). -/
inductive Move
  | start
  | load (i : Nat)
  | attempt (i : Nat) (spurious : Bool)
  | drop (i : Nat)
deriving DecidableEq

/-- lib.rs:435-457 -/
def Calls.next (maximum : UInt32) (s : Calls) : Move → Option Calls
  | .start => some { s with calls := s.calls ++ [.started] }
  | .load i =>
    match s.calls[i]? with
    | some .started => some (s.put i (.looping s.inFlight))
    | _ => none
  | .attempt i spurious =>
    match s.calls[i]? with
    | some (.looping current) =>
      if current ≥ maximum then some (s.put i .refused)
      else if s.inFlight = current ∧ spurious = false then some { s.put i .admitted with inFlight := current + 1 }
      else some (s.put i (.looping s.inFlight))
    | _ => none
  | .drop i =>
    match s.calls[i]? with
    | some .admitted => some { s.put i .finished with inFlight := s.inFlight - 1 }
    | _ => none

def inFlightGuard (maximum : UInt32) : System Calls Move := ⟨⟨0, []⟩, Calls.next maximum⟩

/-! ## What a move can do -/

variable {maximum : UInt32} {s t : Calls} {moves : List Move}

theorem next_cases {move : Move} (h : (inFlightGuard maximum).next s move = some t) :
    (move = .start ∧ t = { s with calls := s.calls ++ [.started] }) ∨
    (∃ i, move = .load i ∧ s.calls[i]? = some .started ∧ t = s.put i (.looping s.inFlight)) ∨
    (∃ i spurious current, move = .attempt i spurious ∧ s.calls[i]? = some (.looping current) ∧
      (maximum ≤ current ∧ t = s.put i .refused ∨
        current < maximum ∧ s.inFlight = current ∧ spurious = false ∧
          t = { s.put i .admitted with inFlight := current + 1 } ∨
        current < maximum ∧ t = s.put i (.looping s.inFlight))) ∨
    (∃ i, move = .drop i ∧ s.calls[i]? = some .admitted ∧ t = { s.put i .finished with inFlight := s.inFlight - 1 }) := by
  simp only [inFlightGuard] at h
  cases move with
  | start => exact .inl ⟨rfl, by simpa [Calls.next] using h.symm⟩
  | load i =>
    simp only [Calls.next] at h
    split at h
    next hi => exact .inr (.inl ⟨i, rfl, hi, by simpa using h.symm⟩)
    · cases h
  | attempt i spurious =>
    simp only [Calls.next] at h
    split at h
    next current hi =>
      refine .inr (.inr (.inl ⟨i, spurious, current, rfl, hi, ?_⟩))
      split at h
      next hfull => exact .inl ⟨hfull, by simpa using h.symm⟩
      next hfree =>
        have hlt : current < maximum := UInt32.not_le.1 hfree
        split at h
        next hequal => exact .inr (.inl ⟨hlt, hequal.1, hequal.2, by simpa using h.symm⟩)
        next => exact .inr (.inr ⟨hlt, by simpa using h.symm⟩)
    · cases h
  | drop i =>
    simp only [Calls.next] at h
    split at h
    next hi => exact .inr (.inr (.inr ⟨i, rfl, hi, by simpa using h.symm⟩))
    · cases h

/-! ## The counter counts the guards -/

/-- The counter is the number of guards, and within the bound. -/
def Counted (maximum : UInt32) (s : Calls) : Prop :=
  s.inFlight.toNat = s.calls.countP Call.isAdmitted ∧ s.inFlight ≤ maximum

theorem countP_set_of_getElem? {calls : List Call} {i : Nat} {before : Call} (h : calls[i]? = some before)
    (after : Call) : (calls.set i after).countP Call.isAdmitted + before.isAdmitted.toNat =
      calls.countP Call.isAdmitted + after.isAdmitted.toNat := by
  obtain ⟨hi, rfl⟩ := List.getElem?_eq_some_iff.1 h
  have hpos : calls[i].isAdmitted = true → 0 < calls.countP Call.isAdmitted := fun hadmitted =>
    List.countP_pos_iff.2 ⟨_, List.getElem_mem hi, hadmitted⟩
  rw [List.countP_set hi]
  cases hbefore : calls[i].isAdmitted with
  | true =>
    have := hpos hbefore
    cases after.isAdmitted <;> simp <;> omega
  | false => cases after.isAdmitted <;> simp

theorem counted_next {move : Move} (hs : Counted maximum s) (h : (inFlightGuard maximum).next s move = some t) :
    Counted maximum t := by
  obtain ⟨hcount, hbound⟩ := hs
  rcases next_cases h with ⟨-, rfl⟩ | ⟨i, -, hi, rfl⟩ | ⟨i, spurious, current, -, hi, hcase⟩ | ⟨i, -, hi, rfl⟩
  · exact ⟨by simpa [List.countP_append, Call.isAdmitted] using hcount, hbound⟩
  · have hset := countP_set_of_getElem? hi (.looping s.inFlight)
    simp only [Call.isAdmitted, Bool.toNat_false, Nat.add_zero] at hset
    exact ⟨hcount.trans hset.symm, hbound⟩
  · rcases hcase with ⟨-, rfl⟩ | ⟨hlt, hcurrent, -, rfl⟩ | ⟨-, rfl⟩
    · have hset := countP_set_of_getElem? hi .refused
      simp only [Call.isAdmitted, Bool.toNat_false, Nat.add_zero] at hset
      exact ⟨hcount.trans hset.symm, hbound⟩
    · have hset := countP_set_of_getElem? hi .admitted
      simp only [Call.isAdmitted, Bool.toNat_false, Bool.toNat_true, Nat.add_zero] at hset
      -- Below the bound, the addition does not wrap.
      have hnat := UInt32.lt_iff_toNat_lt.1 hlt
      have hmax := maximum.toNat_lt
      have hadd : (current + 1).toNat = current.toNat + 1 := by
        rw [UInt32.toNat_add]
        simp only [UInt32.toNat_one]
        omega
      refine ⟨?_, UInt32.le_iff_toNat_le.2 (by rw [hadd]; omega)⟩
      simp only [Calls.put]
      rw [hset, hadd, ← hcount, hcurrent]
    · have hset := countP_set_of_getElem? hi (.looping s.inFlight)
      simp only [Call.isAdmitted, Bool.toNat_false, Nat.add_zero] at hset
      exact ⟨hcount.trans hset.symm, hbound⟩
  · have hset := countP_set_of_getElem? hi .finished
    simp only [Call.isAdmitted, Bool.toNat_false, Bool.toNat_true, Nat.add_zero] at hset
    -- A guard is counted, so the subtraction does not wrap.
    have hle : (1 : UInt32) ≤ s.inFlight := UInt32.le_iff_toNat_le.2 (by rw [UInt32.toNat_one]; omega)
    have hsub : (s.inFlight - 1).toNat = s.inFlight.toNat - 1 := by
      rw [UInt32.toNat_sub_of_le _ _ hle, UInt32.toNat_one]
    refine ⟨?_, UInt32.le_iff_toNat_le.2 ?_⟩
    · simp only [Calls.put]
      omega
    · have := UInt32.le_iff_toNat_le.1 hbound
      simp only
      omega

theorem counted_run (h : (inFlightGuard maximum).run (inFlightGuard maximum).init moves = some s) :
    Counted maximum s :=
  System.run_trace (I := fun _ s => Counted maximum s) ⟨rfl, UInt32.le_iff_toNat_le.2 (Nat.zero_le _)⟩
    (fun _ hs hn => counted_next hs hn) h

/-! ## Refusals -/

/-- While the call was acquiring, the counter had the value. -/
def Saw (maximum : UInt32) (moves : List Move) (i : Nat) (value : UInt32) : Prop :=
  ∃ earlier later u call, moves = earlier ++ later ∧
    (inFlightGuard maximum).run (inFlightGuard maximum).init earlier = some u ∧
    u.calls[i]? = some call ∧ call.isAcquiring = true ∧ u.inFlight = value

theorem Saw.append {i : Nat} {value : UInt32} (h : Saw maximum moves i value) (move : Move) :
    Saw maximum (moves ++ [move]) i value := by
  obtain ⟨earlier, later, u, call, rfl, hrest⟩ := h
  exact ⟨earlier, later ++ [move], u, call, List.append_assoc _ _ _, hrest⟩

theorem saw_now (hrun : (inFlightGuard maximum).run (inFlightGuard maximum).init moves = some s)
    {i : Nat} {call : Call} (hi : s.calls[i]? = some call) (hcall : call.isAcquiring = true) (move : Move) :
    Saw maximum (moves ++ [move]) i s.inFlight := ⟨moves, [move], s, call, rfl, hrun, hi, hcall, rfl⟩

/-- The value a call loops with was the counter's, and one that is refused has seen it full. -/
def Justified (maximum : UInt32) (moves : List Move) (i : Nat) : Call → Prop
  | .looping current => Saw maximum moves i current
  | .refused => ∃ value, maximum ≤ value ∧ Saw maximum moves i value
  | _ => True

theorem Justified.append {i : Nat} {call : Call} (h : Justified maximum moves i call) (move : Move) :
    Justified maximum (moves ++ [move]) i call := by
  cases call with
  | looping current => exact Saw.append h move
  | refused =>
    obtain ⟨value, hfull, hsaw⟩ := h
    exact ⟨value, hfull, hsaw.append move⟩
  | started | admitted | finished => trivial

theorem getElem?_put {i : Nat} {before : Call} (h : s.calls[i]? = some before) (after : Call) (j : Nat) :
    (s.put i after).calls[j]? = if j = i then some after else s.calls[j]? := by
  obtain ⟨hi, -⟩ := List.getElem?_eq_some_iff.1 h
  rw [Calls.put, List.getElem?_set]
  by_cases hj : i = j
  · subst hj
    simp [hi]
  · simp [hj, Ne.symm hj]

/-- A move of one call keeps what is justified of the others. -/
theorem justified_put {move : Move} {i : Nat} {before : Call} (after : Call)
    (hs : ∀ j call, s.calls[j]? = some call → Justified maximum moves j call) (hi : s.calls[i]? = some before)
    (hafter : Justified maximum (moves ++ [move]) i after) {j : Nat} {call : Call}
    (hj : (s.put i after).calls[j]? = some call) : Justified maximum (moves ++ [move]) j call := by
  rw [getElem?_put hi] at hj
  split at hj
  next heq =>
    cases hj
    rwa [heq]
  · exact (hs j call hj).append move

theorem justified_run (h : (inFlightGuard maximum).run (inFlightGuard maximum).init moves = some s) :
    ∀ i call, s.calls[i]? = some call → Justified maximum moves i call := by
  refine System.run_trace (I := fun moves s => ∀ i call, s.calls[i]? = some call → Justified maximum moves i call)
    (fun i call hi => by cases hi) ?_ h
  intro moves s move t hrun hs hn j call hj
  rcases next_cases hn with ⟨-, rfl⟩ | ⟨i, -, hi, rfl⟩ | ⟨i, spurious, current, -, hi, hcase⟩ | ⟨i, -, hi, rfl⟩
  · rw [List.getElem?_append] at hj
    split at hj
    · exact (hs j call hj).append move
    · rw [List.getElem?_singleton] at hj
      split at hj
      · cases hj
        trivial
      · cases hj
  · exact justified_put (.looping s.inFlight) hs hi (saw_now hrun hi rfl move) hj
  · rcases hcase with ⟨hfull, rfl⟩ | ⟨-, -, -, rfl⟩ | ⟨-, rfl⟩
    · exact justified_put .refused hs hi ⟨current, hfull, Saw.append (hs i _ hi) move⟩ hj
    · exact justified_put .admitted hs hi trivial hj
    · exact justified_put (.looping s.inFlight) hs hi (saw_now hrun hi rfl move) hj
  · exact justified_put .finished hs hi trivial hj

/-! ## The guard -/

/-- In every order of the moves of any number of calls: the counter is the number of calls that hold a guard, which is
within the bound; a call is refused only if, while it was acquiring, as many others held guards as may; and while fewer
do, a call that is not disturbed is admitted. -/
theorem inFlightGuard_bounds_calls {maximum : UInt32} {moves : List Move} {s : Calls}
    (h : (inFlightGuard maximum).run (inFlightGuard maximum).init moves = some s) :
    s.inFlight.toNat = s.calls.countP Call.isAdmitted ∧ s.calls.countP Call.isAdmitted ≤ maximum.toNat ∧
    (∀ i : Nat, s.calls[i]? = some .refused → ∃ earlier later u call, moves = earlier ++ later ∧
      (inFlightGuard maximum).run (inFlightGuard maximum).init earlier = some u ∧
      u.calls[i]? = some call ∧ call.isAcquiring = true ∧ u.calls.countP Call.isAdmitted = maximum.toNat) ∧
    ∀ i : Nat, s.calls[i]? = some .started → s.calls.countP Call.isAdmitted < maximum.toNat →
      ((inFlightGuard maximum).run s [.load i, .attempt i false]).bind (fun t => t.calls[i]?) = some .admitted := by
  obtain ⟨hcount, hbound⟩ := counted_run h
  refine ⟨hcount, hcount ▸ UInt32.le_iff_toNat_le.1 hbound, fun i hi => ?_, fun i hi hfree => ?_⟩
  · obtain ⟨value, hfull, earlier, later, u, call, hmoves, hrun, hcall, hacquiring, rfl⟩ := justified_run h i _ hi
    obtain ⟨hcountu, hboundu⟩ := counted_run hrun
    refine ⟨earlier, later, u, call, hmoves, hrun, hcall, hacquiring, ?_⟩
    have hle := UInt32.le_iff_toNat_le.1 hboundu
    have hge := UInt32.le_iff_toNat_le.1 hfull
    omega
  · have hlt : ¬ s.inFlight ≥ maximum := by
      rw [ge_iff_le, UInt32.le_iff_toNat_le]
      omega
    have hlooping := getElem?_put hi (.looping s.inFlight) i
    rw [if_pos rfl] at hlooping
    have hadmitted := getElem?_put hlooping .admitted i
    rw [if_pos rfl] at hadmitted
    simp only [System.run, inFlightGuard, Calls.next, hi, Option.bind_some, hlooping]
    simp only [hlt, if_false, Calls.put, and_self, if_true, Option.bind_some]
    exact hadmitted

/-- Two calls race for one slot; the exchange of the second fails, and its next turn refuses it. -/
theorem race_for_one_slot : ∃ s, (inFlightGuard 1).run (inFlightGuard 1).init
      [.start, .start, .load 0, .load 1, .attempt 0 false, .attempt 1 false, .attempt 1 false] = some s ∧
    s.calls = [.admitted, .refused] ∧ s.calls.countP Call.isAdmitted ≤ 1 := by
  have hrun : (inFlightGuard 1).run (inFlightGuard 1).init
      [.start, .start, .load 0, .load 1, .attempt 0 false, .attempt 1 false, .attempt 1 false] =
        some ⟨1, [.admitted, .refused]⟩ := by decide
  obtain ⟨-, hbound, -⟩ := inFlightGuard_bounds_calls hrun
  exact ⟨_, hrun, rfl, hbound⟩

end WasiAuth.Middleware
