import WasiAuth.Base.Transition
import WasiAuth.Ingress.Caches

/-! # Connecting the tracker

`PostgresInvalidationTracker::connect` (native.rs:79-144) and the listener task it spawns, interleaved at
their atomic operations. Both write `healthy`: the task stores `false` when its connection ends, `connect`
stores `true` as its last operation, whatever the task has done by then. The queries of `connect` are
answered through the listener's own loop, so an answer needs a running listener at that moment, but nothing
keeps the connection up between the last answer and the store.

`Tracker` (`Ingress/Caches.lean`) starts where `connect` has returned, with `disconnect` as one step;
`currentEpoch_eq` is what justifies it, for the runs in which the store comes while the listener runs.
-/

namespace WasiAuth

open Transition

/-- The errors of `connect`. -/
inductive NativePostgresError
  | invalidationSchemaUnavailable
  | postgres
deriving DecidableEq

/-- What the server answers to a request of `connect`. -/
inductive Reply
  | complete
  | triggerCount (count : Int)
  | error
deriving DecidableEq

/-- Where `connect` stands. -/
inductive ConnectPhase
  | connecting
  /-- Awaits the answer to `LISTEN`. -/
  | listening
  /-- Awaits the number of triggers. -/
  | counting
  /-- Has seen eight triggers. -/
  | counted
  /-- Has stored `healthy = true`. -/
  | stored
  | returned (trackerId : Nat)
  | failed (error : NativePostgresError)
deriving DecidableEq

inductive Listener
  | unspawned
  | running
  /-- Has seen the end of the connection and stored `healthy = false`. -/
  | leaving
  | stopped
deriving DecidableEq

/-- A call of `connect` and the listener it has spawned. -/
structure Connecting where
  phase : ConnectPhase
  listener : Listener
  generation : Nat
  healthy : Bool
  /-- The answer the listener has forwarded and `connect` has not taken yet. -/
  reply : Option Reply
deriving DecidableEq

inductive ConnectAction
  /-- `tokio_postgres::connect` ends; on success the listener task is spawned. -/
  | opened (ok : Bool)
  /-- The listener's loop gets a message; one on the invalidation channel counts. -/
  | message (notification : Bool)
  /-- The listener's loop gets the server's answer to the request of `connect` and forwards it. -/
  | forward (reply : Reply)
  /-- The loop gets an error or the end of the connection: `healthy.store(false)`. -/
  | lose
  /-- `generation.fetch_add(1)`, and the task ends. -/
  | leave
  /-- `connect` goes on after its await. -/
  | resume
  /-- `healthy.store(true)`. -/
  | store
  /-- `Ok(Self ..)`. -/
  | finish (trackerId : Nat)
  /-- A holder of the tracker calls `invalidate`. -/
  | invalidate
deriving DecidableEq

namespace Connecting

/-- `connect` after an await that gave `reply`; `none` is the error of a connection that is gone. -/
def afterReply (s : Connecting) (reply : Option Reply) : ConnectPhase :=
  match s.phase, reply with
  | .listening, some .complete => .counting
  | .counting, some (.triggerCount count) =>
    if count = 8 then .counted else .failed .invalidationSchemaUnavailable
  | _, _ => .failed .postgres

def awaits (s : Connecting) : Bool := decide (s.phase = .listening) || decide (s.phase = .counting)

def next (s : Connecting) : ConnectAction → Option Connecting
  | .opened ok =>
    if s.phase = .connecting then
      if ok then some { s with phase := .listening, listener := .running }
      else some { s with phase := .failed .postgres }
    else none
  | .message notification =>
    if s.listener = .running then
      some (if notification then { s with generation := s.generation + 1 } else s)
    else none
  | .forward reply =>
    if s.listener = .running ∧ s.awaits ∧ s.reply = none then some { s with reply := some reply } else none
  | .lose => if s.listener = .running then some { s with listener := .leaving, healthy := false } else none
  | .leave =>
    if s.listener = .leaving then some { s with listener := .stopped, generation := s.generation + 1 }
    else none
  | .resume =>
    -- a forwarded answer is taken also when the listener has ended since; without one the await ends
    -- only with the connection
    if s.awaits ∧ (s.reply.isSome ∨ s.listener ≠ .running) then
      some { s with phase := s.afterReply s.reply, reply := none }
    else none
  | .store => if s.phase = .counted then some { s with phase := .stored, healthy := true } else none
  | .finish trackerId => if s.phase = .stored then some { s with phase := .returned trackerId } else none
  | .invalidate =>
    match s.phase with
    | .returned _ => some { s with generation := s.generation + 1 }
    | _ => none

/-- `current_epoch` of the tracker that `connect` has returned. -/
def currentEpoch (s : Connecting) : Option AuthorizationInvalidationEpoch :=
  match s.phase with
  | .returned trackerId => if s.healthy then some ⟨trackerId, s.generation⟩ else none
  | _ => none

end Connecting

/-- native.rs:79 -/
def connect : System Connecting ConnectAction := ⟨⟨.connecting, .unspawned, 1, false, none⟩, Connecting.next⟩

/-- The last store of `connect` is made while the listener still runs. -/
def storesWhileRunning (s : Connecting) (a : ConnectAction) : Prop := a = .store → s.listener = .running

instance (s : Connecting) (a : ConnectAction) : Decidable (storesWhileRunning s a) :=
  inferInstanceAs (Decidable (a = .store → s.listener = .running))

namespace Connecting

/-- The flag says what the listener does, once `connect` has stored it. -/
structure Truthful (s : Connecting) : Prop where
  ended : s.listener ≠ .running → s.healthy = false
  stored : s.phase = .stored ∨ (∃ id, s.phase = .returned id) → s.listener = .running → s.healthy = true

variable {s t : Connecting} {a : ConnectAction}

theorem Truthful.init : connect.init.Truthful :=
  ⟨fun _ => rfl, by rintro (h | ⟨_, h⟩) <;> cases h⟩

/-- An answer never takes `connect` to its store or beyond it. -/
theorem afterReply_ne {reply : Option Reply} :
    ¬ (s.afterReply reply = .stored ∨ ∃ id, s.afterReply reply = .returned id) := by
  unfold afterReply
  split
  · simp
  · split <;> simp
  · simp

theorem Truthful.next (h : s.Truthful) (hok : storesWhileRunning s a) (hn : s.next a = some t) : t.Truthful := by
  cases a with
  | opened ok =>
    simp only [Connecting.next] at hn
    split at hn
    · cases ok <;> cases hn
      · exact ⟨h.ended, by simp⟩
      · exact ⟨by simp, by simp⟩
    · cases hn
  | message notification =>
    simp only [Connecting.next, Option.ite_none_right_eq_some] at hn
    obtain ⟨-, hn⟩ := hn
    cases notification <;> cases hn <;> exact ⟨h.ended, h.stored⟩
  | forward reply =>
    simp only [Connecting.next, Option.ite_none_right_eq_some] at hn
    obtain ⟨-, hn⟩ := hn
    cases hn
    exact ⟨h.ended, h.stored⟩
  | lose =>
    simp only [Connecting.next, Option.ite_none_right_eq_some] at hn
    obtain ⟨-, hn⟩ := hn
    cases hn
    exact ⟨fun _ => rfl, by simp⟩
  | leave =>
    simp only [Connecting.next, Option.ite_none_right_eq_some] at hn
    obtain ⟨hl, hn⟩ := hn
    cases hn
    exact ⟨fun _ => h.ended (by simp [hl]), by simp⟩
  | resume =>
    simp only [Connecting.next, Option.ite_none_right_eq_some] at hn
    obtain ⟨-, hn⟩ := hn
    cases hn
    exact ⟨h.ended, fun hp => absurd hp afterReply_ne⟩
  | store =>
    simp only [Connecting.next, Option.ite_none_right_eq_some] at hn
    obtain ⟨-, hn⟩ := hn
    cases hn
    exact ⟨fun hl => absurd (hok rfl) hl, fun _ _ => rfl⟩
  | finish id =>
    simp only [Connecting.next, Option.ite_none_right_eq_some] at hn
    obtain ⟨hp, hn⟩ := hn
    cases hn
    exact ⟨h.ended, fun _ => h.stored (.inl hp)⟩
  | invalidate =>
    simp only [Connecting.next] at hn
    split at hn
    · rename_i id hp
      cases hn
      exact ⟨h.ended, fun _ => h.stored (.inr ⟨id, hp⟩)⟩
    · cases hn

theorem Truthful.of_reachableBy (h : ReachableBy connect storesWhileRunning s) : s.Truthful :=
  h.invariant .init fun hs hok hn => hs.next hok hn

/-- After `connect` has returned, the tracker gives its epoch exactly while the listener runs. -/
theorem currentEpoch_eq {trackerId : Nat} (h : ReachableBy connect storesWhileRunning s)
    (hp : s.phase = .returned trackerId) :
    s.currentEpoch = if s.listener = .running then some ⟨trackerId, s.generation⟩ else none := by
  have ht := Truthful.of_reachableBy h
  by_cases hl : s.listener = .running
  · simp [currentEpoch, hp, hl, ht.stored (.inr ⟨_, hp⟩) hl]
  · simp [currentEpoch, hp, hl, ht.ended hl]

end Connecting

open Connecting in
/-- A stopped listener leaves no epoch to be read, in every run whose store comes in time. -/
theorem currentEpoch_of_stopped {s : Connecting} (h : ReachableBy connect storesWhileRunning s)
    (hs : s.listener = .stopped) : s.currentEpoch = none := by
  cases hp : s.phase with
  | returned trackerId => simp [currentEpoch_eq h hp, hs]
  | _ => simp [Connecting.currentEpoch, hp]

/-- The actions of `connect` up to the check of the trigger count, all answered. -/
def connectRun : List ConnectAction :=
  [.opened true, .forward .complete, .resume, .forward (.triggerCount 8), .resume]

/-- The listener stops after `connect` has returned, with two notifications before. -/
theorem stopped_after_return : ∃ s : Connecting, ReachableBy connect storesWhileRunning s ∧
    s.phase = .returned 1 ∧ s.generation = 4 ∧ s.listener = .stopped ∧ s.currentEpoch = none := by
  obtain ⟨s, hs, hp⟩ := exists_reachableBy_of_run connect (fun s a => decide (storesWhileRunning s a))
    (connectRun ++ [.store, .message true, .finish 1, .message true, .lose, .leave])
    (fun s => decide (s.phase = .returned 1 ∧ s.generation = 4 ∧ s.listener = .stopped))
    (by decide +kernel) (fun h => of_decide_eq_true h)
  obtain ⟨hp, hg, hl⟩ := of_decide_eq_true hp
  exact ⟨s, hs, hp, hg, hl, currentEpoch_of_stopped hs hl⟩

/-- The connection is lost between the last answer and the store: `connect` returns a tracker that is
healthy and has no listener. -/
theorem healthy_without_listener :
    ∃ s, Reachable connect s ∧ s.listener = .stopped ∧ s.phase = .returned 1 ∧ s.currentEpoch = some ⟨1, 2⟩ := by
  obtain ⟨s, hs, hp⟩ := exists_reachable_of_run connect (connectRun ++ [.lose, .leave, .store, .finish 1])
    (fun s => decide (s.listener = .stopped ∧ s.phase = .returned 1 ∧ s.currentEpoch = some ⟨1, 2⟩))
    (by decide +kernel)
  exact ⟨s, hs, of_decide_eq_true hp⟩

end WasiAuth
