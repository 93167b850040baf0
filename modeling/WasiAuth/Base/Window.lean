import Mathlib.Data.List.Pairwise
import Mathlib.Tactic.Common

/-! # Counting in windows of fixed length

A counter of attempts that starts a window with the first attempt and a new one with the first attempt after its end.
Times are integers; a history is the list of the attempts' times, oldest first.

`countP_window_le` bounds what is allowed in one window. Windows do not overlap, so an interval as long as a window
meets at most two of them (`countP_interval_le`).
-/

namespace FixedWindow

structure Window where
  count : Nat
  expires : Int
deriving DecidableEq

/-- The window after an attempt. -/
def attempt (length now : Int) : Option Window → Window
  | none => ⟨1, now + length⟩
  | some window => if window.expires ≤ now then ⟨1, now + length⟩ else ⟨window.count + 1, window.expires⟩

/-- An attempt and the window that counted it. -/
structure Event where
  time : Int
  window : Window
deriving DecidableEq

def events (length : Int) : Option Window → List Int → List Event
  | _, [] => []
  | window, now :: later => ⟨now, attempt length now window⟩ :: events length (some (attempt length now window)) later

/-- The attempt is among the first ones of its window. -/
def Event.allowed (maximum : Nat) (event : Event) : Bool := decide (event.window.count ≤ maximum)

section Windows
variable {length : Int}

/-- An attempt falls into the window at hand or starts a new one after its end. -/
theorem attempt_some (length now : Int) (window : Window) :
    now < window.expires ∧ attempt length now (some window) = ⟨window.count + 1, window.expires⟩ ∨
      window.expires ≤ now ∧ attempt length now (some window) = ⟨1, now + length⟩ := by
  by_cases h : window.expires ≤ now
  · exact .inr ⟨h, if_pos h⟩
  · exact .inl ⟨by omega, if_neg h⟩

theorem count_attempt_pos (length now : Int) (window : Option Window) : 0 < (attempt length now window).count := by
  cases window with
  | none => exact Nat.zero_lt_one
  | some window =>
    rcases attempt_some length now window with ⟨-, heq⟩ | ⟨-, heq⟩ <;> rw [heq]
    · exact Nat.succ_pos _
    · exact Nat.zero_lt_one

/-- After the end of its window an attempt starts a new one. -/
theorem attempt_of_expired {now : Int} {window : Window} (h : window.expires ≤ now) :
    attempt length now (some window) = ⟨1, now + length⟩ := if_pos h

theorem countP_le_add {α : Type} {p q r : α → Bool} : ∀ {l : List α}, (∀ a ∈ l, p a = true → q a = true ∨ r a = true) →
    l.countP p ≤ l.countP q + l.countP r
  | [], _ => Nat.zero_le _
  | a :: l, h => by
    obtain ⟨ha, hl⟩ := List.forall_mem_cons.1 h
    have hrest := countP_le_add hl
    rw [List.countP_cons, List.countP_cons, List.countP_cons]
    by_cases hp : p a = true
    · rcases ha hp with hq | hr
      · rw [if_pos hp, if_pos hq]
        omega
      · rw [if_pos hp, if_pos hr]
        omega
    · rw [if_neg hp]
      omega

variable (hlength : 0 < length)
include hlength

/-- Later windows follow the one at hand. -/
theorem expires_of_mem_events (event : Event) : ∀ (times : List Int) (window : Window),
    event ∈ events length (some window) times →
      event.window.expires = window.expires ∨ window.expires + length ≤ event.window.expires
  | now :: later, window, h => by
    have hlater := expires_of_mem_events event later (attempt length now (some window))
    have hhead : event = ⟨now, attempt length now (some window)⟩ ∨
        event ∈ events length (some (attempt length now (some window))) later := List.mem_cons.1 h
    rcases attempt_some length now window with ⟨hnow, heq⟩ | ⟨hnow, heq⟩ <;> rw [heq] at hhead hlater <;>
      dsimp only at hlater <;> rcases hhead with rfl | hmem
    · exact .inl rfl
    · exact hlater hmem
    · right
      dsimp only
      omega
    · have hfollows := hlater hmem
      omega

/-- What a window at hand still allows. -/
theorem countP_rest_le (maximum : Nat) : ∀ (times : List Int) (window : Window),
    (events length (some window) times).countP
      (fun event => event.allowed maximum && decide (event.window.expires = window.expires)) ≤ maximum - window.count
  | [], _ => Nat.zero_le _
  | now :: later, window => by
    rcases attempt_some length now window with ⟨hnow, heq⟩ | ⟨hnow, heq⟩
    · have hrest := countP_rest_le maximum later ⟨window.count + 1, window.expires⟩
      rw [events, heq, List.countP_cons]
      simp only [Event.allowed] at hrest ⊢
      split
      next hallowed =>
        simp only [Bool.and_eq_true, decide_eq_true_eq] at hallowed
        omega
      next => omega
    · -- every attempt from here on is in a later window
      rw [List.countP_eq_zero.2]
      · exact Nat.zero_le _
      · intro event hevent hsame
        simp only [Bool.and_eq_true, decide_eq_true_eq] at hsame
        rw [events, heq] at hevent
        rcases List.mem_cons.1 hevent with rfl | hevent
        · dsimp only at hsame
          omega
        · have hfollows := expires_of_mem_events hlength event later _ hevent
          dsimp only at hfollows
          omega

/-- A window allows no more than the maximum. -/
theorem countP_window_le (maximum : Nat) (expires : Int) :
    ∀ (times : List Int) (window : Option Window),
    (events length window times).countP
      (fun event => event.allowed maximum && decide (event.window.expires = expires)) ≤ maximum
  | [], _ => Nat.zero_le _
  | now :: later, window => by
    have hcount := count_attempt_pos length now window
    have hrest := countP_rest_le hlength maximum later (attempt length now window)
    have hlater := countP_window_le maximum expires later (some (attempt length now window))
    rw [events, List.countP_cons]
    split
    next hhead =>
      obtain ⟨hallowed, hexpires⟩ := Bool.and_eq_true_iff.1 hhead
      have hle : (attempt length now window).count ≤ maximum := of_decide_eq_true hallowed
      obtain rfl : (attempt length now window).expires = expires := of_decide_eq_true hexpires
      omega
    next => omega

/-! ## Intervals -/

/-- The attempts of later windows come after the end of earlier ones. -/
theorem pairwise_events : ∀ (times : List Int) (window : Option Window),
    (events length window times).Pairwise fun a b =>
      b.window.expires = a.window.expires ∨ a.window.expires + length ≤ b.window.expires
  | [], _ => List.Pairwise.nil
  | _ :: later, _ =>
    List.pairwise_cons.2 ⟨fun event h => expires_of_mem_events hlength event later _ h, pairwise_events later _⟩

/-- Two attempts have the same window, or one of the windows ends a length before the other. -/
def Apart (length : Int) (a b : Event) : Prop :=
  b.window.expires = a.window.expires ∨ a.window.expires + length ≤ b.window.expires ∨
    b.window.expires + length ≤ a.window.expires

theorem apart_of_mem_events {times : List Int} {window : Option Window} {a b : Event}
    (ha : a ∈ events length window times) (hb : b ∈ events length window times) : Apart length a b := by
  have hpairwise := pairwise_events hlength times window
  have happart : (events length window times).Pairwise (Apart length) := hpairwise.imp fun h => h.imp_right .inl
  have hflip : (events length window times).Pairwise (flip (Apart length)) := hpairwise.imp fun h => h.imp Eq.symm .inr
  exact happart.forall_of_forall_of_flip (fun _ _ => .inl rfl) hflip ha hb

/-- An attempt lies in the window that counts it, if the one at hand started before it. -/
theorem time_mem_attempt {now : Int} {window : Option Window}
    (hstarted : ∀ w ∈ window, w.expires ≤ now + length) :
    now < (attempt length now window).expires ∧ (attempt length now window).expires ≤ now + length := by
  cases window with
  | none =>
    dsimp only [attempt]
    omega
  | some window =>
    have hwindow := hstarted window rfl
    rcases attempt_some length now window with ⟨hnow, heq⟩ | ⟨hnow, heq⟩ <;> rw [heq] <;> dsimp only <;> omega

theorem time_mem_window (event : Event) : ∀ (times : List Int) (window : Option Window),
    times.Pairwise (· ≤ ·) → (∀ w ∈ window, ∀ now ∈ times, w.expires ≤ now + length) →
    event ∈ events length window times →
      event.time < event.window.expires ∧ event.window.expires ≤ event.time + length
  | now :: later, window, hclock, hstarted, h => by
    have hattempt := time_mem_attempt hlength fun w hw => hstarted w hw now List.mem_cons_self
    obtain ⟨hlater, hclock⟩ := List.pairwise_cons.1 hclock
    rcases List.mem_cons.1 h with rfl | h
    · exact hattempt
    · refine time_mem_window event later _ hclock (fun w hw now' hnow' => ?_) h
      obtain rfl := Option.mem_some.1 hw
      have hle := hlater now' hnow'
      omega

/-- Windows that are met within the length of one window are at most two: their ends lie in an interval shorter than two
lengths, and different ends are a length apart. -/
theorem exists_two_windows {times : List Int} (hclock : times.Pairwise (· ≤ ·)) (start : Int) :
    ∃ x y, ∀ event ∈ events length none times, start ≤ event.time → event.time < start + length →
      event.window.expires = x ∨ event.window.expires = y := by
  have hmem : ∀ event ∈ events length none times,
      event.time < event.window.expires ∧ event.window.expires ≤ event.time + length :=
    fun event h => time_mem_window hlength event times none hclock nofun h
  by_cases hsome : ∃ a ∈ events length none times, start ≤ a.time ∧ a.time < start + length
  · obtain ⟨a, ha, hafter, hbefore⟩ := hsome
    by_cases hother : ∃ b ∈ events length none times, (start ≤ b.time ∧ b.time < start + length) ∧
        b.window.expires ≠ a.window.expires
    · obtain ⟨b, hb, hb', hne⟩ := hother
      refine ⟨a.window.expires, b.window.expires, fun c hc hcafter hcbefore => ?_⟩
      have hab := apart_of_mem_events hlength ha hb
      have hac := apart_of_mem_events hlength ha hc
      have hbc := apart_of_mem_events hlength hb hc
      unfold Apart at hab hac hbc
      have hma := hmem a ha
      have hmb := hmem b hb
      have hmc := hmem c hc
      omega
    · refine ⟨a.window.expires, a.window.expires, fun c hc hcafter hcbefore => .inl ?_⟩
      by_contra hne
      exact hother ⟨c, hc, ⟨hcafter, hcbefore⟩, hne⟩
  · exact ⟨0, 0, fun a ha hafter hbefore => absurd ⟨a, ha, hafter, hbefore⟩ hsome⟩

/-- An interval as long as a window allows no more than twice the maximum. -/
theorem countP_interval_le (maximum : Nat) {times : List Int} (hclock : times.Pairwise (· ≤ ·))
    (start : Int) :
    (events length none times).countP
      (fun event => event.allowed maximum && decide (start ≤ event.time ∧ event.time < start + length)) ≤
        2 * maximum := by
  obtain ⟨x, y, htwo⟩ := exists_two_windows hlength hclock start
  have hx := countP_window_le hlength maximum x times none
  have hy := countP_window_le hlength maximum y times none
  have hsum : (events length none times).countP
      (fun event => event.allowed maximum && decide (start ≤ event.time ∧ event.time < start + length)) ≤
      (events length none times).countP (fun event => event.allowed maximum && decide (event.window.expires = x)) +
        (events length none times).countP fun event => event.allowed maximum && decide (event.window.expires = y) := by
    refine countP_le_add fun event hevent hp => ?_
    simp only [Bool.and_eq_true, decide_eq_true_eq] at hp ⊢
    exact (htwo event hevent hp.2.1 hp.2.2).imp (⟨hp.1, ·⟩) (⟨hp.1, ·⟩)
  omega

end Windows

end FixedWindow
