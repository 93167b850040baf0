import WasiAuth.Base.Headers
import WasiAuth.Identity.Values

/-! # Trailers-only gRPC responses

`spin_grpc.rs` polls the body of a response before it is sent. A status that comes before any data is moved into the
response headers; what else has been read is replayed. The body is any value that can be polled: an answer is pending
(with the waker called or not), a frame, an error or the end. `Delivers` says what a body hands out when it is polled
until it ends, `Follows` the same of a body one answer of which has been read; both loops keep it
(`firstPoll_follows`, `pollAwaiting_follows`), and `finishNormalization` turns it into what the response delivers. The
`http` crate is a parameter (`Headers.Library`).

| source | model |
|---|---|
| `wake_flag` after a poll | the `Bool` of an answer |
| `HeaderMap::extend`, `insert`, `contains_key`, `HeaderValue::from_static` | operations of `http` |
-/

namespace WasiAuth.SpinGrpc

inductive Frame (Map : Type) where
  | data (bytes : Bytes)
  | trailers (headers : Map)
deriving DecidableEq

inductive Poll (α : Type) where
  | pending
  | ready (value : α)

/-- spin_grpc.rs:20 -/
abbrev BodyFramePoll (Map E : Type) := Poll (Option (Except E (Frame Map)))

/-- A body is polled: its answer, whether the waker was called by then, and the body that is left. -/
abbrev PollFrame (Map B E : Type) := B → BodyFramePoll Map E × Bool × B

/-- spin_grpc.rs:34 -/
structure GrpcResponseBody (Map B : Type) where
  first : Option (Frame Map)
  body : Option B

structure Response (Map B : Type) where
  status : Nat
  headers : Map
  body : B

section Model
variable {Map B E : Type} (poll : PollFrame Map B E)

/-- spin_grpc.rs:50 -/
def GrpcResponseBody.pollFrame : PollFrame Map (GrpcResponseBody Map B) E
  | ⟨some frame, body⟩ => (.ready (some (.ok frame)), false, ⟨none, body⟩)
  | ⟨none, some body⟩ =>
    let (answer, woken, body) := poll body
    (answer, woken, ⟨none, some body⟩)
  | ⟨none, none⟩ => (.ready none, false, ⟨none, none⟩)

/-- spin_grpc.rs:149 -/
def isEmptyDataPoll : BodyFramePoll Map E → Bool
  | .ready (some (.ok (.data bytes))) => bytes.isEmpty
  | _ => false

def Poll.isPending {α : Type} : Poll α → Bool
  | .pending => true
  | .ready _ => false

/-- The loop (spin_grpc.rs:105-117): at most eight empty frames are dropped, and a pending body that has called the
waker is polled again at most eight times. -/
def firstPoll (immediateRepolls discardedEmptyFrames : Nat) (body : B) : BodyFramePoll Map E × B :=
  let (answer, requestedRepoll, body) := poll body
  if isEmptyDataPoll answer ∧ discardedEmptyFrames < 8 then
    firstPoll immediateRepolls (discardedEmptyFrames + 1) body
  else if ¬ answer.isPending ∨ ¬ requestedRepoll ∨ 8 ≤ immediateRepolls then (answer, body)
  else firstPoll (immediateRepolls + 1) discardedEmptyFrames body
termination_by (8 - immediateRepolls) + (8 - discardedEmptyFrames)
decreasing_by all_goals omega

end Model

section Response
variable (http : Headers.Library String) {B E : Type}

/-- Adds the status of a call that has ended without one. -/
def withGrpcStatus (headers : http.Map) : http.Map :=
  if http.containsKey headers "grpc-status" then headers
  else http.insert headers "grpc-status" (http.fromStatic "0")

/-- spin_grpc.rs:160 -/
def finishNormalization (response : Response http.Map B) (body : B) (firstPoll : BodyFramePoll http.Map E) :
    Response http.Map (GrpcResponseBody http.Map B) :=
  match firstPoll with
  | .pending => { response with body := ⟨none, some body⟩ }
  | .ready (some (.ok (.trailers trailers))) =>
    { response with
      headers := withGrpcStatus http (http.extend response.headers trailers)
      body := ⟨none, none⟩ }
  | .ready (some (.ok frame)) => { response with body := ⟨some frame, some body⟩ }
  | .ready (some (.error _)) =>
    { response with
      headers := http.insert (http.insert response.headers "grpc-status" (http.fromStatic "13"))
        "grpc-message" (http.fromStatic "response%20body%20failed%20before%20its%20first%20frame")
      body := ⟨none, none⟩ }
  | .ready none => { response with headers := withGrpcStatus http response.headers, body := ⟨none, none⟩ }

/-- spin_grpc.rs:91 -/
def normalizeTrailersOnlyResponse (poll : PollFrame http.Map B E) (response : Response http.Map B) :
    Response http.Map (GrpcResponseBody http.Map B) :=
  let (answer, body) := firstPoll poll 0 0 response.body
  finishNormalization http response body answer

end Response

section Awaiting
variable {Map B E : Type}

/-- The future of `normalize_trailers_only_response_awaiting_first_frame` between two polls. -/
structure Awaiting (B : Type) where
  body : B
  discardedEmptyFrames : Nat

/-- One poll of `normalize_trailers_only_response_awaiting_first_frame` (spin_grpc.rs:129): it runs until the body is
pending or its loop ends. -/
def pollAwaiting (poll : PollFrame Map B E) (discardedEmptyFrames : Nat) (body : B) : BodyFramePoll Map E × Awaiting B :=
  let (answer, _, body) := poll body
  if isEmptyDataPoll answer ∧ discardedEmptyFrames < 8 then
    pollAwaiting poll (discardedEmptyFrames + 1) body
  else (answer, ⟨body, discardedEmptyFrames⟩)
termination_by 8 - discardedEmptyFrames
decreasing_by omega

/-- The future, polled as long as it is pending, ends with the response. -/
inductive Resolves (http : Headers.Library String) (poll : PollFrame http.Map B E) (response : Response http.Map B) :
    Awaiting B → Response http.Map (GrpcResponseBody http.Map B) → Prop
  | ready {state state' : Awaiting B} {answer : Option (Except E (Frame http.Map))}
      (h : pollAwaiting poll state.discardedEmptyFrames state.body = (.ready answer, state')) :
      Resolves http poll response state (finishNormalization http response state'.body (.ready answer))
  | pending {state state' : Awaiting B} {result : Response http.Map (GrpcResponseBody http.Map B)}
      (h : pollAwaiting poll state.discardedEmptyFrames state.body = (.pending, state'))
      (hrest : Resolves http poll response state' result) : Resolves http poll response state result

end Awaiting

/-! ## What a body delivers -/

/-- How a body ends. -/
inductive Ending (Map E : Type) where
  | finished
  | trailers (headers : Map)
  | failed (error : E)

def Ending.answer {Map E : Type} : Ending Map E → Option (Except E (Frame Map))
  | .finished => none
  | .trailers headers => some (.ok (.trailers headers))
  | .failed error => some (.error error)

/-- Polled until it ends, the body hands out the data and ends so. -/
inductive Delivers {Map B E : Type} (poll : PollFrame Map B E) : B → Bytes → Ending Map E → Prop
  | pending {body body' : B} {woken : Bool} {data : Bytes} {ending : Ending Map E}
      (h : poll body = (.pending, woken, body')) (hrest : Delivers poll body' data ending) :
      Delivers poll body data ending
  | data {body body' : B} {woken : Bool} {bytes data : Bytes} {ending : Ending Map E}
      (h : poll body = (.ready (some (.ok (.data bytes))), woken, body')) (hrest : Delivers poll body' data ending) :
      Delivers poll body (bytes ++ data) ending
  | ending {body body' : B} {woken : Bool} {ending : Ending Map E} (h : poll body = (.ready ending.answer, woken, body')) :
      Delivers poll body [] ending

/-- The answer, and then the body, deliver the data and the ending. -/
inductive Follows {Map B E : Type} (poll : PollFrame Map B E) : BodyFramePoll Map E → B → Bytes → Ending Map E → Prop
  | pending {body : B} {data : Bytes} {ending : Ending Map E} (h : Delivers poll body data ending) :
      Follows poll .pending body data ending
  | data {body : B} {bytes data : Bytes} {ending : Ending Map E} (h : Delivers poll body data ending) :
      Follows poll (.ready (some (.ok (.data bytes)))) body (bytes ++ data) ending
  | ending {body : B} {ending : Ending Map E} : Follows poll (.ready ending.answer) body [] ending

section Delivery
variable {Map B E : Type} {poll : PollFrame Map B E} {body : B} {data : Bytes} {ending : Ending Map E}

theorem Delivers.follows (h : Delivers poll body data ending) :
    Follows poll (poll body).1 (poll body).2.2 data ending := by
  cases h with
  | pending h hrest =>
    rw [h]
    exact .pending hrest
  | data h hrest =>
    rw [h]
    exact .data hrest
  | ending h =>
    rw [h]
    exact .ending

theorem Follows.of_isEmptyDataPoll {answer : BodyFramePoll Map E} (h : Follows poll answer body data ending)
    (hempty : isEmptyDataPoll answer = true) : Delivers poll body data ending := by
  cases h with
  | pending => cases hempty
  | data h =>
    rw [List.isEmpty_iff.1 hempty]
    exact h
  | ending => cases ending <;> cases hempty

theorem Follows.of_isPending {answer : BodyFramePoll Map E} (h : Follows poll answer body data ending)
    (hpending : answer.isPending = true) : Delivers poll body data ending := by
  cases h with
  | pending h => exact h
  | data => cases hpending
  | ending => cases hpending

theorem firstPoll_follows (repolls discarded : Nat) (body : B) (h : Delivers poll body data ending) :
    Follows poll (firstPoll poll repolls discarded body).1 (firstPoll poll repolls discarded body).2 data ending := by
  fun_induction firstPoll poll repolls discarded body with
  | case1 repolls discarded body answer woken body' hpoll hempty ih =>
    have hfollows := h.follows
    simp only [hpoll] at hfollows ⊢
    rw [if_pos hempty]
    exact ih (hfollows.of_isEmptyDataPoll hempty.1)
  | case2 repolls discarded body answer woken body' hpoll hempty hready =>
    have hfollows := h.follows
    simp only [hpoll] at hfollows ⊢
    rw [if_neg hempty, if_pos hready]
    exact hfollows
  | case3 repolls discarded body answer woken body' hpoll hempty hready ih =>
    have hfollows := h.follows
    simp only [hpoll] at hfollows ⊢
    rw [if_neg hempty, if_neg hready]
    exact ih (hfollows.of_isPending (not_not.1 (not_or.1 hready).1))

theorem pollAwaiting_follows (discarded : Nat) (body : B) (h : Delivers poll body data ending) :
    Follows poll (pollAwaiting poll discarded body).1 (pollAwaiting poll discarded body).2.body data ending := by
  fun_induction pollAwaiting poll discarded body with
  | case1 discarded body answer woken body' hpoll hempty ih =>
    have hfollows := h.follows
    simp only [hpoll] at hfollows ⊢
    rw [if_pos hempty]
    exact ih (hfollows.of_isEmptyDataPoll hempty.1)
  | case2 discarded body answer woken body' hpoll hempty =>
    have hfollows := h.follows
    simp only [hpoll] at hfollows ⊢
    rw [if_neg hempty]
    exact hfollows

theorem Delivers.replayed (h : Delivers poll body data ending) :
    Delivers (GrpcResponseBody.pollFrame poll) ⟨none, some body⟩ data ending := by
  induction h with
  | pending h _ ih => exact .pending (by rw [GrpcResponseBody.pollFrame, h]) ih
  | data h _ ih => exact .data (by rw [GrpcResponseBody.pollFrame, h]) ih
  | ending h => exact .ending (by rw [GrpcResponseBody.pollFrame, h])

end Delivery

/-! ## The response -/

/-- The ending has been moved into the headers. -/
structure Moved (http : Headers.Library String) {E : Type} (ending : Ending http.Map E) (before after : http.Map) :
    Prop where
  status : http.containsKey after "grpc-status" = true
  internal : ∀ error, ending = .failed error → http.getAll after "grpc-status" = [http.fromStatic "13"]
  values : ∀ trailers, ending = .trailers trailers →
    ∀ name, ∀ value ∈ http.getAll trailers name, value ∈ http.getAll after name
  others : ∀ name, name ≠ "grpc-status" → name ≠ "grpc-message" →
    (∀ trailers, ending = .trailers trailers → http.containsKey trailers name = false) →
      http.getAll after name = http.getAll before name

/-- The response delivers the data and the ending, the ending in its headers only if there is no data. -/
def Normalized (http : Headers.Library String) {B E : Type} (poll : PollFrame http.Map B E)
    (response : Response http.Map B) (data : Bytes) (ending : Ending http.Map E)
    (result : Response http.Map (GrpcResponseBody http.Map B)) : Prop :=
  result.status = response.status ∧
  (result.headers = response.headers ∧ Delivers (GrpcResponseBody.pollFrame poll) result.body data ending ∨
    data = [] ∧ Delivers (GrpcResponseBody.pollFrame poll) result.body [] .finished ∧
      Moved http ending response.headers result.headers)

section Normalization
variable {http : Headers.Library String} {B E : Type} {poll : PollFrame http.Map B E} {body : B} {data : Bytes}
  {ending : Ending http.Map E}

theorem Delivers.exists_resolves (response : Response http.Map B) (h : Delivers poll body data ending)
    (discarded : Nat) : ∃ result, Resolves http poll response ⟨body, discarded⟩ result := by
  induction h generalizing discarded with
  | pending h _ ih =>
    obtain ⟨result, hresult⟩ := ih discarded
    exact ⟨result, .pending (by rw [pollAwaiting, h]; rfl) hresult⟩
  | @data body body' woken bytes _ _ h _ ih =>
    by_cases hempty : bytes.isEmpty = true ∧ discarded < 8
    · -- The frame is dropped, and the future goes on as it would with the rest of the body.
      have hskip : pollAwaiting poll discarded body = pollAwaiting poll (discarded + 1) body' := by
        rw [pollAwaiting, h]
        exact if_pos hempty
      obtain ⟨result, hresult⟩ := ih (discarded + 1)
      cases hresult with
      | ready hready => exact ⟨_, .ready (hskip.trans hready)⟩
      | pending hpending hrest => exact ⟨_, .pending (hskip.trans hpending) hrest⟩
    · have hready : pollAwaiting poll discarded body = (.ready (some (.ok (.data bytes))), ⟨body', discarded⟩) := by
        rw [pollAwaiting, h]
        exact if_neg hempty
      exact ⟨_, .ready hready⟩
  | @ending body body' woken ending h =>
    have hready : pollAwaiting poll discarded body = (.ready ending.answer, ⟨body', discarded⟩) := by
      rw [pollAwaiting, h]
      exact if_neg (by cases ending <;> simp [isEmptyDataPoll, Ending.answer])
    exact ⟨_, .ready hready⟩

theorem withGrpcStatus_spec (headers : http.Map) :
    http.containsKey (withGrpcStatus http headers) "grpc-status" = true ∧
      (∀ name, ∀ value ∈ http.getAll headers name, value ∈ http.getAll (withGrpcStatus http headers) name) ∧
      ∀ name, name ≠ "grpc-status" → http.getAll (withGrpcStatus http headers) name = http.getAll headers name := by
  unfold withGrpcStatus
  split
  next hstatus => exact ⟨hstatus, fun _ _ hvalue => hvalue, fun _ _ => rfl⟩
  next hstatus =>
    have hothers (name : String) (hname : name ≠ "grpc-status") :=
      http.getAll_insert_of_ne headers "grpc-status" (http.fromStatic "0") name hname
    refine ⟨by rw [http.containsKey_iff, http.getAll_insert_self]; simp, fun name value hvalue => ?_, hothers⟩
    by_cases hname : name = "grpc-status"
    · rw [hname, Headers.Library.getAll_eq_nil (Bool.eq_false_iff.2 hstatus)] at hvalue
      cases hvalue
    · rwa [hothers name hname]

theorem moved_finished (headers : http.Map) :
    Moved http (Ending.finished : Ending http.Map E) headers (withGrpcStatus http headers) := by
  obtain ⟨hstatus, -, hothers⟩ := withGrpcStatus_spec headers
  exact ⟨hstatus, fun _ h => (nomatch h), fun _ h => (nomatch h), fun name hname _ _ => hothers name hname⟩

theorem moved_trailers (headers trailers : http.Map) :
    Moved http (Ending.trailers trailers : Ending http.Map E) headers
      (withGrpcStatus http (http.extend headers trailers)) := by
  obtain ⟨hstatus, hvalues, hothers⟩ := withGrpcStatus_spec (http.extend headers trailers)
  refine ⟨hstatus, fun _ h => (nomatch h), fun _ h name value hvalue => ?_, fun name hname _ htrailers => ?_⟩
  · cases h
    refine hvalues name value ?_
    have hkey := (http.containsKey_iff trailers name).2 (List.ne_nil_of_mem hvalue)
    rwa [http.getAll_extend, if_pos hkey]
  · rw [hothers name hname, http.getAll_extend]
    exact if_neg (Bool.eq_false_iff.1 (htrailers trailers rfl))

theorem moved_failed (headers : http.Map) (error : E) (message : Bytes) :
    Moved http (Ending.failed error) headers
      (http.insert (http.insert headers "grpc-status" (http.fromStatic "13")) "grpc-message" message) := by
  have hstatus : http.getAll (http.insert (http.insert headers "grpc-status" (http.fromStatic "13")) "grpc-message"
      message) "grpc-status" = [http.fromStatic "13"] := by
    rw [http.getAll_insert_of_ne _ _ _ _ (by decide), http.getAll_insert_self]
  refine ⟨by rw [http.containsKey_iff, hstatus]; simp, fun _ _ => hstatus, fun _ h => (nomatch h), ?_⟩
  intro name hname hmessage _
  rw [http.getAll_insert_of_ne _ _ _ _ hmessage, http.getAll_insert_of_ne _ _ _ _ hname]

theorem Follows.normalized {answer : BodyFramePoll http.Map E} (h : Follows poll answer body data ending)
    (response : Response http.Map B) :
    Normalized http poll response data ending (finishNormalization http response body answer) := by
  have hended : Delivers (GrpcResponseBody.pollFrame poll) ⟨none, none⟩ [] .finished := .ending rfl
  cases h with
  | pending h => exact ⟨rfl, .inl ⟨rfl, h.replayed⟩⟩
  | data h => exact ⟨rfl, .inl ⟨rfl, .data rfl h.replayed⟩⟩
  | ending =>
    cases ending with
    | finished => exact ⟨rfl, .inr ⟨rfl, hended, moved_finished _⟩⟩
    | trailers trailers => exact ⟨rfl, .inr ⟨rfl, hended, moved_trailers _ _⟩⟩
    | failed error => exact ⟨rfl, .inr ⟨rfl, hended, moved_failed _ _ _⟩⟩

theorem Resolves.normalized {response : Response http.Map B} {state : Awaiting B}
    {result : Response http.Map (GrpcResponseBody http.Map B)} (h : Resolves http poll response state result)
    (hbody : Delivers poll state.body data ending) : Normalized http poll response data ending result := by
  induction h with
  | @ready state _ _ h =>
    have hfollows := pollAwaiting_follows state.discardedEmptyFrames state.body hbody
    rw [h] at hfollows
    exact hfollows.normalized response
  | @pending state _ _ h _ ih =>
    have hfollows := pollAwaiting_follows state.discardedEmptyFrames state.body hbody
    rw [h] at hfollows
    exact ih (hfollows.of_isPending rfl)

/-- Both variants hand out the data of the body and its ending, the ending perhaps in the headers. -/
theorem normalization_delivers (http : Headers.Library String) (poll : PollFrame http.Map B E)
    (response : Response http.Map B) (data : Bytes) (ending : Ending http.Map E)
    (h : Delivers poll response.body data ending) :
    Normalized http poll response data ending (normalizeTrailersOnlyResponse http poll response) ∧
    (∃ result, Resolves http poll response ⟨response.body, 0⟩ result) ∧
    ∀ result, Resolves http poll response ⟨response.body, 0⟩ result →
      Normalized http poll response data ending result :=
  ⟨(firstPoll_follows 0 0 response.body h).normalized response, h.exists_resolves response 0,
    fun _ hresult => hresult.normalized h⟩

end Normalization

abbrev Fields := List (String × Bytes)

def scripted : PollFrame Fields (List (BodyFramePoll Fields Unit × Bool)) Unit
  | [] => (.ready none, false, [])
  | (answer, woken) :: rest => (answer, woken, rest)

/-- An empty frame and a pending answer come before the status of a failed call. -/
def refusedCall : Response Fields (List (BodyFramePoll Fields Unit × Bool)) where
  status := 200
  headers := [("content-type", utf8Bytes "application/grpc")]
  body := [(.ready (some (.ok (.data []))), false), (.pending, true),
    (.ready (some (.ok (.trailers [("grpc-status", utf8Bytes "8")]))), false)]

theorem refusedCall_normalized : ∃ ending,
    Normalized .fields scripted refusedCall [] ending (normalizeTrailersOnlyResponse .fields scripted refusedCall) := by
  have h : Delivers scripted refusedCall.body ([] ++ []) (.trailers [("grpc-status", utf8Bytes "8")]) :=
    .data rfl (.pending rfl (.ending rfl))
  exact ⟨_, (normalization_delivers .fields scripted refusedCall _ _ h).1⟩

end WasiAuth.SpinGrpc
