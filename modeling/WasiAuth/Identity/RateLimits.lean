import WasiAuth.Base.Window
import WasiAuth.Identity.Values
import WasiAuth.Postgres.Accounts

/-! # Rate limits

A bucket counts attempts in windows that start with the first attempt after the end of the last one
(`Base.Window`). The sums of the statement are of type `bigint`: where the end of a window does not fit, the statement
fails and changes nothing.

A `RateLimiter` is what the checks of one bucket have in common; the digest is a parameter.
-/

namespace WasiAuth

open Relational

/-- rate_limits.rs:116 -/
inductive RateLimitError
  | invalidRequest | transport
deriving DecidableEq

/-- rate_limits.rs:17 -/
structure RateLimitDecision where
  allowed : Bool
  retryAfterSeconds : Nat
deriving DecidableEq

/-! ## The statement -/

structure CheckRateLimit where
  bucketKey : String
  maximumAttempts : Int
  windowMs : Int
  nowMs : Int

/-- The row `check_rate_limit.sql` inserts or leaves after its update. -/
def Db.nextBucket (p : CheckRateLimit) (db : Db) : RateLimitBucket :=
  match db.rateLimitBuckets.find? p.bucketKey with
  | none => ⟨p.bucketKey, 1, p.nowMs + p.windowMs⟩
  | some bucket =>
    if bucket.windowExpiresAtMs ≤ p.nowMs then
      { bucket with attemptCount := 1, windowExpiresAtMs := p.nowMs + p.windowMs }
    else { bucket with attemptCount := bucket.attemptCount + 1 }

/-- `check_rate_limit.sql`; the sum in the list of values is computed also where the row exists. -/
def checkRateLimit (p : CheckRateLimit) (db : Db) : Except RateLimitError ((Bool × Int) × Db) :=
  if 2 ^ 63 ≤ p.nowMs + p.windowMs ∨ 2 ^ 63 ≤ (db.nextBucket p).attemptCount then .error .transport
  else do
    let db' ← (db.putBucket (db.nextBucket p)).mapError fun _ => .transport
    pure ((decide ((db.nextBucket p).attemptCount ≤ p.maximumAttempts),
      max ((db.nextBucket p).windowExpiresAtMs - p.nowMs) 0), db')

/-! ## The service -/

structure RateLimiter where
  sha256 : Bytes → Bytes
  scope : String
  subject : String
  maximumAttempts : Nat
  windowSeconds : Nat

/-- `u64::to_be_bytes`. -/
def toBeBytes (value : Nat) : Bytes := (List.range 8).map fun i => UInt8.ofNat (value / 256 ^ (7 - i))

/-- rate_limits.rs:93 -/
def RateLimiter.bucketKey (self : RateLimiter) : String :=
  self.scope ++ ":" ++ String.ofList ((self.sha256 (toBeBytes self.scope.utf8ByteSize ++ utf8Bytes self.scope ++
    toBeBytes self.subject.utf8ByteSize ++ utf8Bytes self.subject)).flatMap fun byte => Text.hexDigits 2 byte.toNat)

/-- The bounds `check` enforces. -/
def RateLimiter.valid (self : RateLimiter) : Bool :=
  decide (self.scope ≠ "") && decide (self.scope.utf8ByteSize ≤ 64) && !self.scope.toList.any isControl &&
    decide (self.subject ≠ "") && decide (self.subject.utf8ByteSize ≤ 1024) &&
    decide (1 ≤ self.maximumAttempts ∧ self.maximumAttempts ≤ 10000) &&
    decide (1 ≤ self.windowSeconds ∧ self.windowSeconds ≤ 86400)

def RateLimiter.request (self : RateLimiter) (nowUnixSeconds : Nat) : CheckRateLimit where
  bucketKey := self.bucketKey
  maximumAttempts := u64ToI64 self.maximumAttempts
  windowMs := u64ToI64 (min (self.windowSeconds * 1000) (2 ^ 64 - 1))
  nowMs := u64ToI64 (saturatingMs nowUnixSeconds)

/-- rate_limits.rs:48 -/
def RateLimiter.check (self : RateLimiter) (nowUnixSeconds : Nat) (db : Db) :
    Except RateLimitError (RateLimitDecision × Db) :=
  if !self.valid then .error .invalidRequest
  else do
    let ((allowed, retryAfterMs), db) ← checkRateLimit (self.request nowUnixSeconds) db
    pure (⟨allowed, min (retryAfterMs.toNat + 999) (2 ^ 64 - 1) / 1000⟩, db)

/-- An answered check and the end of the window that counted it. -/
structure RateLimitAttempt where
  nowUnixSeconds : Nat
  decision : RateLimitDecision
  windowExpiresAtMs : Option Int
deriving DecidableEq

def RateLimiter.windowExpiresAtMs (self : RateLimiter) (db : Db) : Option Int :=
  (db.rateLimitBuckets.find? self.bucketKey).map RateLimitBucket.windowExpiresAtMs

/-- The checks of the bucket at the given times, one after the other; one that fails leaves the database as it was. -/
def RateLimiter.attempts (self : RateLimiter) : List Nat → Db → List RateLimitAttempt × Db
  | [], db => ([], db)
  | now :: later, db =>
    match self.check now db with
    | .error _ => self.attempts later db
    | .ok (decision, db') =>
      (⟨now, decision, self.windowExpiresAtMs db'⟩ :: (self.attempts later db').1, (self.attempts later db').2)

/-! ## One check -/

def RateLimiter.window (self : RateLimiter) (db : Db) : Option FixedWindow.Window :=
  (db.rateLimitBuckets.find? self.bucketKey).map fun bucket => ⟨bucket.attemptCount, bucket.windowExpiresAtMs⟩

theorem putBucket_spec (bucket : RateLimitBucket) (db : Db) :
    ∃ db', db.putBucket bucket = .ok db' ∧ db'.rateLimitBuckets.find? bucket.bucketKey = some bucket := by
  unfold Db.putBucket
  cases hfind : db.rateLimitBuckets.find? bucket.bucketKey with
  | some old => exact ⟨_, rfl, Table.find?_set_self hfind⟩
  | none =>
    obtain ⟨buckets, hinsert⟩ := Table.exists_insertOr (e := SqlError.uniqueViolation) hfind
    refine ⟨{ db with rateLimitBuckets := buckets }, ?_, ?_⟩
    · simp [hinsert, ok_bind, pure, Except.pure]
    · rw [Table.find?_of_insertOr hinsert, if_pos rfl]

variable {limiter : RateLimiter} {now : Nat} {db : Db}

theorem RateLimiter.bounds_of_valid (h : limiter.valid = true) :
    1 ≤ limiter.maximumAttempts ∧ limiter.maximumAttempts ≤ 10000 ∧ 1 ≤ limiter.windowSeconds ∧
      limiter.windowSeconds ≤ 86400 := by
  simp only [valid, Bool.and_eq_true, decide_eq_true_eq] at h
  exact ⟨h.1.2.1, h.1.2.2, h.2.1, h.2.2⟩

theorem nextBucket_eq (p : CheckRateLimit) (db : Db) :
    (db.nextBucket p).bucketKey = p.bucketKey ∧
      (⟨(db.nextBucket p).attemptCount, (db.nextBucket p).windowExpiresAtMs⟩ : FixedWindow.Window) =
        FixedWindow.attempt p.windowMs p.nowMs ((db.rateLimitBuckets.find? p.bucketKey).map fun bucket =>
          ⟨bucket.attemptCount, bucket.windowExpiresAtMs⟩) := by
  unfold Db.nextBucket
  cases hfind : db.rateLimitBuckets.find? p.bucketKey with
  | none => exact ⟨rfl, rfl⟩
  | some bucket =>
    have hkey := (Table.find?_eq_some.1 hfind).2
    by_cases hexpired : bucket.windowExpiresAtMs ≤ p.nowMs
    · simp [hexpired, hkey, FixedWindow.attempt]
    · simp [hexpired, hkey, FixedWindow.attempt]

/-- The end of a window that starts now fits into a `bigint`. -/
def RateLimiter.Fits (self : RateLimiter) (now : Nat) : Prop := now * 1000 + self.windowSeconds * 1000 < 2 ^ 63

theorem request_eq (hvalid : limiter.valid = true) (hfits : limiter.Fits now) :
    limiter.request now =
      ⟨limiter.bucketKey, limiter.maximumAttempts, limiter.windowSeconds * 1000, now * 1000⟩ := by
  obtain ⟨-, hmaximum, -, hwindow⟩ := RateLimiter.bounds_of_valid hvalid
  unfold RateLimiter.Fits at hfits
  simp only [RateLimiter.request, u64ToI64, saturatingMs, CheckRateLimit.mk.injEq, true_and]
  omega

/-- A check counts the attempt and answers by the number it has in its window, as long as the numbers fit. -/
theorem check_of_fits (hvalid : limiter.valid = true) (hfits : limiter.Fits now) {next : FixedWindow.Window}
    (hnext : FixedWindow.attempt (limiter.windowSeconds * 1000) (now * 1000) (limiter.window db) = next)
    (hcount : next.count < 2 ^ 63) :
    ∃ db', limiter.check now db =
        .ok (⟨decide (next.count ≤ limiter.maximumAttempts),
          min ((max (next.expires - now * 1000) 0).toNat + 999) (2 ^ 64 - 1) / 1000⟩, db') ∧
      limiter.window db' = some next := by
  obtain ⟨hkey, hwindow⟩ := nextBucket_eq (limiter.request now) db
  rw [request_eq hvalid hfits] at hkey hwindow
  replace hwindow := hwindow.trans hnext
  subst hwindow
  obtain ⟨db', hput, hfind⟩ := putBucket_spec (db.nextBucket (limiter.request now)) db
  rw [request_eq hvalid hfits] at hput hfind
  rw [hkey] at hfind
  refine ⟨db', ?_, ?_⟩
  · unfold RateLimiter.Fits at hfits
    have hsums : ¬ ((2 : Int) ^ 63 ≤ now * 1000 + limiter.windowSeconds * 1000 ∨
        2 ^ 63 ≤ (db.nextBucket ⟨limiter.bucketKey, limiter.maximumAttempts, limiter.windowSeconds * 1000,
          now * 1000⟩).attemptCount) := by
      dsimp only at hcount
      omega
    simp only [RateLimiter.check, hvalid, Bool.not_true, Bool.false_eq_true, if_false, request_eq hvalid hfits,
      checkRateLimit, if_neg hsums, hput, Except.mapError, ok_bind, Nat.cast_le]
    rfl
  · rw [RateLimiter.window, hfind]
    rfl

theorem check_of_not_fits (hvalid : limiter.valid = true) (hfits : ¬ limiter.Fits now) :
    limiter.check now db = .error .transport := by
  obtain ⟨-, -, hpos, hwindow⟩ := RateLimiter.bounds_of_valid hvalid
  unfold RateLimiter.Fits at hfits
  have hsum : (2 : Int) ^ 63 ≤ (limiter.request now).nowMs + (limiter.request now).windowMs := by
    simp only [RateLimiter.request, u64ToI64, saturatingMs]
    omega
  simp only [RateLimiter.check, hvalid, Bool.not_true, Bool.false_eq_true, if_false, checkRateLimit,
    if_pos (Or.inl hsum), error_bind]

theorem check_of_count_overflow (hvalid : limiter.valid = true)
    (hcount : 2 ^ 63 ≤ (db.nextBucket (limiter.request now)).attemptCount) :
    limiter.check now db = .error .transport := by
  simp only [RateLimiter.check, hvalid, Bool.not_true, Bool.false_eq_true, if_false, checkRateLimit,
    if_pos (Or.inr hcount), error_bind]

theorem valid_of_check {decision : RateLimitDecision} {db' : Db} (h : limiter.check now db = .ok (decision, db')) :
    limiter.valid = true := by
  unfold RateLimiter.check at h
  split at h
  · cases h
  next hvalid => simpa using hvalid

/-- The bucket's window ends within the `bigint` range. -/
def RateLimiter.InRange (self : RateLimiter) (db : Db) : Prop := ∀ window ∈ self.window db, window.expires < 2 ^ 63

/-- What an answered check did. By the time it tells to wait for, the window is over. -/
theorem check_eq_ok {decision : RateLimitDecision} {db' : Db} (hrange : limiter.InRange db)
    (h : limiter.check now db = .ok (decision, db')) : ∃ next,
      FixedWindow.attempt (limiter.windowSeconds * 1000) (now * 1000) (limiter.window db) = next ∧
      limiter.window db' = some next ∧ decision.allowed = decide (next.count ≤ limiter.maximumAttempts) ∧
      next.expires < 2 ^ 63 ∧ next.expires ≤ (now + decision.retryAfterSeconds : Nat) * 1000 := by
  have hvalid := valid_of_check h
  have hfits : limiter.Fits now := by
    by_contra hfits
    rw [check_of_not_fits hvalid hfits] at h
    cases h
  refine ⟨_, rfl, ?_⟩
  generalize hnext : FixedWindow.attempt (limiter.windowSeconds * 1000) (now * 1000) (limiter.window db) = next
  have hcount : next.count < 2 ^ 63 := by
    by_contra hcount
    rw [check_of_count_overflow hvalid] at h
    · cases h
    · have hwindow := (nextBucket_eq (limiter.request now) db).2
      rw [request_eq hvalid hfits] at hwindow ⊢
      rw [← hwindow.trans hnext] at hcount
      exact Nat.le_of_not_lt hcount
  have hexpires : next.expires < 2 ^ 63 := by
    rw [← hnext]
    unfold RateLimiter.Fits at hfits
    cases hwindow : limiter.window db with
    | none =>
      dsimp only [FixedWindow.attempt]
      omega
    | some window =>
      have hold := hrange window hwindow
      rcases FixedWindow.attempt_some (limiter.windowSeconds * 1000) (now * 1000) window with ⟨-, heq⟩ | ⟨-, heq⟩ <;>
        rw [heq] <;> dsimp only <;> omega
  obtain ⟨db'', hcheck, hwindow⟩ := check_of_fits hvalid hfits hnext hcount
  rw [hcheck] at h
  cases h
  refine ⟨hwindow, rfl, hexpires, ?_⟩
  dsimp only
  omega

/-! ## Checks in a row -/

/-- When an attempt was made, which window counted it and whether it was allowed. -/
def RateLimitAttempt.summary (attempt : RateLimitAttempt) : Int × Option Int × Bool :=
  (attempt.nowUnixSeconds * 1000, attempt.windowExpiresAtMs, attempt.decision.allowed)

def eventSummary (maximum : Nat) (event : FixedWindow.Event) : Int × Option Int × Bool :=
  (event.time, some event.window.expires, event.allowed maximum)

theorem attempts_eq_events : ∀ (times : List Nat) {db : Db}, limiter.InRange db →
    limiter.InRange (limiter.attempts times db).2 ∧ ∃ answered : List Nat, answered.Sublist times ∧
      (limiter.attempts times db).1.map RateLimitAttempt.summary =
        (FixedWindow.events (limiter.windowSeconds * 1000) (limiter.window db)
          (answered.map fun now : Nat => (now : Int) * 1000)).map (eventSummary limiter.maximumAttempts)
  | [], _, hrange => ⟨hrange, [], .slnil, rfl⟩
  | now :: later, db, hrange => by
    rw [RateLimiter.attempts]
    cases hcheck : limiter.check now db with
    | error e =>
      obtain ⟨hrange', answered, hsublist, heq⟩ := attempts_eq_events later hrange
      exact ⟨hrange', answered, hsublist.cons now, heq⟩
    | ok result =>
      obtain ⟨next, hnext, hwindow, hallowed, hexpires, -⟩ := check_eq_ok hrange hcheck
      have hrange' : limiter.InRange result.2 := by
        intro window hmem
        rw [hwindow] at hmem
        exact Option.mem_some.1 hmem ▸ hexpires
      obtain ⟨hrange'', answered, hsublist, heq⟩ := attempts_eq_events later hrange'
      refine ⟨hrange'', now :: answered, hsublist.cons_cons now, ?_⟩
      have hends : limiter.windowExpiresAtMs result.2 = some next.expires := by
        have hmap := congrArg (Option.map FixedWindow.Window.expires) hwindow
        rwa [RateLimiter.window, Option.map_map] at hmap
      rw [hwindow] at heq
      simp only [List.map_cons, heq, FixedWindow.events, hnext, RateLimitAttempt.summary, eventSummary, hends, hallowed,
        FixedWindow.Event.allowed]

theorem inRange_of_new (hnew : db.rateLimitBuckets.find? limiter.bucketKey = none) : limiter.InRange db := by
  intro window hmem
  rw [RateLimiter.window, hnew] at hmem
  cases hmem

theorem attempts_of_not_valid (hvalid : limiter.valid = false) : ∀ (times : List Nat) (db : Db),
    (limiter.attempts times db).1 = []
  | [], _ => rfl
  | now :: later, db => by
    have hcheck : limiter.check now db = .error .invalidRequest := by simp [RateLimiter.check, hvalid]
    rw [RateLimiter.attempts, hcheck]
    exact attempts_of_not_valid hvalid later db

/-- The answered checks on a new bucket are the attempts of a counter along a clock that does not go back. -/
theorem attempts_eq_nil_or_events {times : List Nat} (hnew : db.rateLimitBuckets.find? limiter.bucketKey = none)
    (hclock : times.Pairwise (· ≤ ·)) :
    (limiter.attempts times db).1 = [] ∨ ∃ times' : List Int, times'.Pairwise (· ≤ ·) ∧
      (0 : Int) < limiter.windowSeconds * 1000 ∧ (limiter.attempts times db).1.map RateLimitAttempt.summary =
        (FixedWindow.events (limiter.windowSeconds * 1000) none times').map (eventSummary limiter.maximumAttempts) := by
  cases hvalid : limiter.valid with
  | false => exact .inl (attempts_of_not_valid hvalid times db)
  | true =>
    have hwindow : limiter.window db = none := by rw [RateLimiter.window, hnew, Option.map_none]
    have hpos := (RateLimiter.bounds_of_valid hvalid).2.2.1
    obtain ⟨-, answered, hsublist, hevents⟩ := attempts_eq_events times (inRange_of_new hnew)
    rw [hwindow] at hevents
    refine .inr ⟨_, ?_, by omega, hevents⟩
    exact List.pairwise_map.2 ((hclock.sublist hsublist).imp fun hle => by omega)

theorem countP_attempts {events : List FixedWindow.Event} {attempts : List RateLimitAttempt} {maximum : Nat}
    (h : attempts.map RateLimitAttempt.summary = events.map (eventSummary maximum))
    (p : Int × Option Int × Bool → Bool) :
    attempts.countP (fun attempt => p attempt.summary) = events.countP fun event => p (eventSummary maximum event) := by
  have hcount := congrArg (List.countP p) h
  rwa [List.countP_map, List.countP_map] at hcount

theorem check_after_retry {decision : RateLimitDecision} {db' : Db} {retry : Nat} (hrange : limiter.InRange db)
    (h : limiter.check now db = .ok (decision, db')) (hretry : now + decision.retryAfterSeconds ≤ retry) :
    (limiter.Fits retry → ∃ answer db'', limiter.check retry db' = .ok (answer, db'') ∧ answer.allowed = true) ∧
      (¬ limiter.Fits retry → limiter.check retry db' = .error .transport) := by
  have hvalid := valid_of_check h
  obtain ⟨next, -, hwindow, -, -, hexpires⟩ := check_eq_ok hrange h
  refine ⟨fun hfits => ?_, fun hfits => check_of_not_fits hvalid hfits⟩
  have hreset : FixedWindow.attempt (limiter.windowSeconds * 1000) (retry * 1000) (limiter.window db') =
      ⟨1, retry * 1000 + limiter.windowSeconds * 1000⟩ := by
    rw [hwindow]
    exact FixedWindow.attempt_of_expired (by omega)
  obtain ⟨db'', hcheck, -⟩ := check_of_fits hvalid hfits hreset (Nat.one_lt_two_pow (by decide))
  exact ⟨_, db'', hcheck, decide_eq_true (RateLimiter.bounds_of_valid hvalid).1⟩

/-- In each window at most the maximum is allowed, in each interval of a window's length at most twice that, and whoever
is refused and waits as long as it is told is allowed, as long as the end of the new window fits into a `bigint`; where
it does not, the check fails. -/
theorem rate_limit_windows (limiter : RateLimiter) (db : Db)
    (hnew : db.rateLimitBuckets.find? limiter.bucketKey = none) (times : List Nat) (hclock : times.Pairwise (· ≤ ·)) :
    (∀ expires, (limiter.attempts times db).1.countP (fun attempt => attempt.decision.allowed &&
      decide (attempt.windowExpiresAtMs = some expires)) ≤ limiter.maximumAttempts) ∧
    (∀ start : Int, (limiter.attempts times db).1.countP (fun attempt => attempt.decision.allowed &&
      decide (start ≤ attempt.nowUnixSeconds * 1000 ∧
        attempt.nowUnixSeconds * 1000 < start + limiter.windowSeconds * 1000)) ≤ 2 * limiter.maximumAttempts) ∧
    ∀ now decision db', limiter.check now (limiter.attempts times db).2 = .ok (decision, db') →
      decision.allowed = false → ∀ retry, now + decision.retryAfterSeconds ≤ retry →
        (limiter.Fits retry → ∃ answer db'', limiter.check retry db' = .ok (answer, db'') ∧ answer.allowed = true) ∧
          (¬ limiter.Fits retry → limiter.check retry db' = .error .transport) := by
  have hrange := (attempts_eq_events times (inRange_of_new hnew)).1
  refine ⟨fun expires => ?_, fun start => ?_,
    fun now decision db' h _ retry hretry => check_after_retry hrange h hretry⟩
  · rcases attempts_eq_nil_or_events hnew hclock with hnil | ⟨times', -, hlength, hevents⟩
    · rw [hnil]
      exact Nat.zero_le _
    · refine (countP_attempts hevents fun summary => summary.2.2 && decide (summary.2.1 = some expires)).trans_le ?_
      simpa only [eventSummary, Option.some.injEq] using
        FixedWindow.countP_window_le hlength limiter.maximumAttempts expires times' none
  · rcases attempts_eq_nil_or_events hnew hclock with hnil | ⟨times', hclock', hlength, hevents⟩
    · rw [hnil]
      exact Nat.zero_le _
    · refine (countP_attempts hevents fun summary => summary.2.2 && decide (start ≤ summary.1 ∧
        summary.1 < start + limiter.windowSeconds * 1000)).trans_le ?_
      exact FixedWindow.countP_interval_le hlength limiter.maximumAttempts hclock' start

def loginLimiter (maximumAttempts windowSeconds : Nat) : RateLimiter :=
  ⟨fun _ => [], "password-login", "person@example.com", maximumAttempts, windowSeconds⟩

/-- One login a minute: the second one is told to wait for the rest of it. -/
theorem login_allowed_after_retry : ∃ decision db' answer db'',
    (loginLimiter 1 60).check 10 ((loginLimiter 1 60).attempts [0] .empty).2 = .ok (decision, db') ∧
      decision = ⟨false, 50⟩ ∧ (loginLimiter 1 60).check 60 db' = .ok (answer, db'') ∧ answer.allowed = true := by
  have hdenied : ∃ db', (loginLimiter 1 60).check 10 ((loginLimiter 1 60).attempts [0] .empty).2 =
      .ok (⟨false, 50⟩, db') := ⟨_, rfl⟩
  obtain ⟨db', hdenied⟩ := hdenied
  obtain ⟨answer, db'', hanswer, hallowed⟩ := ((rate_limit_windows (loginLimiter 1 60) .empty rfl [0] (by decide)).2.2
    10 _ db' hdenied rfl 60 (by decide)).1 (by unfold RateLimiter.Fits; decide)
  exact ⟨_, db', answer, db'', hdenied, rfl, hanswer, hallowed⟩

/-- At the last second in which a window of one second ends within the `bigint` range, a refused caller is told to wait
for one second; the check it then makes fails. -/
theorem exists_retry_fails : ∃ (limiter : RateLimiter) (now retry : Nat) (decision : RateLimitDecision) (db' : Db),
    limiter.check now (limiter.attempts [now] .empty).2 = .ok (decision, db') ∧ decision.allowed = false ∧
      now + decision.retryAfterSeconds = retry ∧ retry < 2 ^ 64 ∧ limiter.check retry db' = .error .transport := by
  have hdenied : ∃ db', (loginLimiter 1 1).check 9223372036854774
      ((loginLimiter 1 1).attempts [9223372036854774] .empty).2 = .ok (⟨false, 1⟩, db') := ⟨_, rfl⟩
  obtain ⟨db', hdenied⟩ := hdenied
  refine ⟨loginLimiter 1 1, 9223372036854774, 9223372036854775, _, db', hdenied, rfl, rfl, by decide, ?_⟩
  exact check_of_not_fits (by decide +kernel) (by unfold RateLimiter.Fits; decide)

end WasiAuth
