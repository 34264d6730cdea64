import ChaosFramework.DirectIO.QueryAnswers

/-!
# Synchronous requests

`ZMQDirectIOClientConnection` sends one request at a time, on one of two sockets, and waits for the
answer. A call that runs into the timeout leaves its answer to a later one, which skips answers with
a smaller counter. The counter has sixteen bits; after it has started again at zero a late answer
has a larger counter, and is returned.

On the other side a worker keeps the answer that it has not sent, and the dispatcher stamps whatever
it finds. Where no handler makes an answer, the kept one goes out instead.
-/

namespace ChaosFramework.DirectIO.ClientConnection

open Bytes Transition List Option Function

inductive Socket
  | priority | service
  deriving DecidableEq, Repr

/-- A request. The counter of an asynchronous one is not set. -/
structure Request where
  /-- The number of the call. It is not sent. -/
  id : ℕ
  counter : BitVec 16
  synchronous : Bool
  deriving DecidableEq, Repr

structure Answer where
  counter : BitVec 16
  /-- The call whose request the handler has made the answer for, if it was one of this
  connection. It is not sent. -/
  producedFor : Option ℕ
  deriving DecidableEq, Repr

/-- What is on the way on a socket. -/
structure Line where
  requests : List Request
  answers : List Answer
  deriving DecidableEq, Repr

/-! ### The server -/

/-- What becomes of a request at its handler. -/
inductive Outcome
  /-- The handler makes an answer. -/
  | answered
  /-- There is no handler for the address and the channel, or it makes no answer. -/
  | silent
  /-- The handler makes an answer and throws. -/
  | thrown
  /-- The dispatcher returns an error, or the handler throws before it makes an answer. -/
  | refused
  deriving DecidableEq, Repr

/-- The dispatcher stamps the answer with the counter of the request. The thread sends it if the
request asks for one, and keeps it otherwise. -/
def stamp (counter : BitVec 16) (synchronous : Bool) (answer : Option Answer) :
    Option Answer × Option Answer :=
  let stamped := answer.map fun answer => { answer with counter := counter }
  if synchronous then (stamped, none) else (none, stamped)

/-- One turn of a worker thread: what is sent, and `data_pack_answer` after it. -/
def work (id : Option ℕ) (counter : BitVec 16) (synchronous : Bool)
    (dataPackAnswer : Option Answer) : Outcome → Option Answer × Option Answer
  | .answered => stamp counter synchronous (some ⟨0, id⟩)
  | .silent => stamp counter synchronous dataPackAnswer
  | .thrown => (none, some ⟨0, id⟩)
  | .refused => (none, dataPackAnswer)

/-! ### Steps -/

structure State where
  messageCounter : BitVec 16
  /-- The number of calls so far. -/
  calls : ℕ
  lines : Socket → Line
  /-- The answers that the worker threads keep. -/
  dataPackAnswer : ℕ → Option Answer
  /-- The call that holds the mutex, if it has sent its request. -/
  waiting : Option (Socket × Request)
  /-- The answers that calls have returned. -/
  returned : List (Request × Answer)

def State.init : State where
  messageCounter := 0
  calls := 0
  lines := fun _ => ⟨[], []⟩
  dataPackAnswer := fun _ => none
  waiting := none
  returned := []

inductive Label
  /-- A synchronous call increments the counter and sends its request. -/
  | send (socket : Socket)
  /-- The same, but `sendDatapack` fails. -/
  | sendFails
  | sendAsynchronous (socket : Socket)
  /-- A worker thread handles one of the requests on a socket. -/
  | serve (socket : Socket) (index worker : ℕ) (outcome : Outcome)
  /-- A worker thread handles a request of another client. -/
  | serveOther (counter : BitVec 16) (synchronous : Bool) (worker : ℕ) (outcome : Outcome)
  | loseRequest (socket : Socket) (index : ℕ)
  | loseAnswer (socket : Socket) (index : ℕ)
  /-- One turn of the loop of the call. -/
  | receive
  /-- `reveiceDatapack` fails, usually with a timeout. -/
  | receiveFails
  deriving DecidableEq, Repr

namespace State

variable (s : State)

def setLine (socket : Socket) (line : Line) : State :=
  { s with lines := update s.lines socket line }

def step : Label → Option State
  | .send socket =>
      -- the mutex is held until the call returns
      if s.waiting = none then
        let request : Request := ⟨s.calls, s.messageCounter, true⟩
        some
          { s.setLine socket ⟨(s.lines socket).requests ++ [request], (s.lines socket).answers⟩ with
            messageCounter := s.messageCounter + 1
            calls := s.calls + 1
            waiting := some (socket, request) }
      else none
  | .sendFails =>
      if s.waiting = none then
        some { s with messageCounter := s.messageCounter + 1, calls := s.calls + 1 }
      else none
  | .sendAsynchronous socket =>
      if s.waiting = none then
        -- `message_counter` is left alone
        let request : Request := ⟨s.calls, 0, false⟩
        some
          { s.setLine socket ⟨(s.lines socket).requests ++ [request], (s.lines socket).answers⟩ with
            calls := s.calls + 1 }
      else none
  | .serve socket index worker outcome =>
      (s.lines socket).requests[index]?.map fun request =>
        let result := work (some request.id) request.counter request.synchronous
          (s.dataPackAnswer worker) outcome
        { s.setLine socket ⟨(s.lines socket).requests.eraseIdx index,
            (s.lines socket).answers ++ result.1.toList⟩ with
          dataPackAnswer := update s.dataPackAnswer worker result.2 }
  | .serveOther counter synchronous worker outcome =>
      let result := work none counter synchronous (s.dataPackAnswer worker) outcome
      some { s with dataPackAnswer := update s.dataPackAnswer worker result.2 }
  | .loseRequest socket index =>
      some (s.setLine socket
        ⟨(s.lines socket).requests.eraseIdx index, (s.lines socket).answers⟩)
  | .loseAnswer socket index =>
      some (s.setLine socket
        ⟨(s.lines socket).requests, (s.lines socket).answers.eraseIdx index⟩)
  | .receive =>
      s.waiting.bind fun (socket, request) =>
        match (s.lines socket).answers with
        | [] => none
        | answer :: answers =>
            let rest := s.setLine socket ⟨(s.lines socket).requests, answers⟩
            -- only a smaller counter keeps the loop going, a larger one ends it as well
            if answer.counter < request.counter then some rest
            else some { rest with waiting := none, returned := s.returned ++ [(request, answer)] }
  | .receiveFails => s.waiting.map fun _ => { s with waiting := none }

/-- Every answer was made for the request of the call that has returned it. -/
def Matched : Prop :=
  ∀ exchange ∈ s.returned, exchange.2.producedFor = some exchange.1.id

instance : Decidable s.Matched :=
  inferInstanceAs (Decidable (∀ exchange ∈ s.returned, _))

/-- The condition on a step. A synchronous request gets a counter above those of all that is still
on its socket, and no thread has kept an answer when it handles a synchronous
request for which no handler makes one. -/
def Distinct : Label → Prop
  | .send socket =>
      (∀ request ∈ (s.lines socket).requests,
        request.synchronous → request.counter < s.messageCounter) ∧
      ∀ answer ∈ (s.lines socket).answers, answer.counter < s.messageCounter
  | .serve socket index worker .silent =>
      ∀ request ∈ (s.lines socket).requests[index]?,
        request.synchronous → s.dataPackAnswer worker = none
  | _ => True

instance (label : Label) : Decidable (s.Distinct label) := by
  unfold Distinct
  split <;> infer_instance

/-! ### Answers that are skipped or returned -/

/-- The invariant. What is on the socket of the call that waits has a smaller counter or
belongs to the call. -/
structure Tracked : Prop where
  matched : s.Matched
  requests : ∀ {socket call}, s.waiting = some (socket, call) →
    ∀ request ∈ (s.lines socket).requests, request.synchronous →
      request.counter < call.counter ∨ request.id = call.id
  answers : ∀ {socket call}, s.waiting = some (socket, call) →
    ∀ answer ∈ (s.lines socket).answers,
      answer.counter < call.counter ∨ answer.producedFor = some call.id

end State

section Runs

variable {s t : State} {label : Label} {id : Option ℕ} {counter : BitVec 16} {synchronous : Bool}
  {kept : Option Answer} {out : Outcome} {ans : Answer} {socket : Socket} {line : Line}

/-- What is sent has the counter of the request, and was made for it unless it had been kept. -/
theorem work_sends (sent : (work id counter synchronous kept out).1 = some ans) :
    synchronous = true ∧ ans.counter = counter ∧
      (ans.producedFor = id ∨ out = .silent ∧ kept ≠ none) := by
  cases out with
  | answered =>
    cases synchronous with
    | false => cases sent
    | true =>
      cases sent
      exact ⟨rfl, rfl, .inl rfl⟩
  | silent =>
    cases synchronous with
    | false => cases sent
    | true =>
      obtain ⟨before, found, rfl⟩ := map_eq_some_iff.mp sent
      exact ⟨rfl, rfl, .inr ⟨rfl, ne_none_iff_exists'.mpr ⟨before, found⟩⟩⟩
  | thrown | refused => cases sent

namespace State

theorem tracked_init : init.Tracked where
  matched _ hm := nomatch hm
  requests waiting := nomatch waiting
  answers waiting := nomatch waiting

/-- Without a call that waits only the returned answers matter. -/
theorem tracked_of_not_waiting (matched : s.Matched) (idle : s.waiting = none) : s.Tracked where
  matched := matched
  requests waiting := by
    rw [idle] at waiting
    cases waiting
  answers waiting := by
    rw [idle] at waiting
    cases waiting

@[simp] theorem lines_setLine_self : (s.setLine socket line).lines socket = line :=
  update_self ..

theorem lines_setLine_of_ne {other : Socket} (different : other ≠ socket) :
    (s.setLine socket line).lines other = s.lines other :=
  update_of_ne different ..

section

variable (tracked : s.Tracked)

include tracked

/-- Steps that do not touch the call, and that put nothing on a socket which could be taken for
its answer. -/
theorem Tracked.of_setLine (hr : t.returned = s.returned)
    (waiting : t.waiting = s.waiting) (lines : t.lines = (s.setLine socket line).lines)
    (requests : ∀ req ∈ line.requests, req.synchronous → req ∈ (s.lines socket).requests)
    (answers : ∀ ans ∈ line.answers, ans ∈ (s.lines socket).answers ∨
      ∃ req ∈ (s.lines socket).requests, req.synchronous ∧
        ans.counter = req.counter ∧ ans.producedFor = some req.id) :
    t.Tracked where
  matched := by
    rw [Matched, hr]
    exact tracked.matched
  requests {used call} waits req hm sync := by
    rw [waiting] at waits
    rw [lines] at hm
    obtain rfl | same := eq_or_ne used socket
    · rw [lines_setLine_self] at hm
      exact tracked.requests waits req (requests req hm sync) sync
    · rw [lines_setLine_of_ne same] at hm
      exact tracked.requests waits req hm sync
  answers {used call} waits ans hm := by
    rw [waiting] at waits
    rw [lines] at hm
    obtain rfl | same := eq_or_ne used socket
    · rw [lines_setLine_self] at hm
      rcases answers ans hm with old | ⟨req, ho, sync, counter, produced⟩
      · exact tracked.answers waits ans old
      · rw [counter, produced, some_inj]
        exact tracked.requests waits req ho sync
    · rw [lines_setLine_of_ne same] at hm
      exact tracked.answers waits ans hm

/-- The call takes the first answer: it is skipped, or it is its own. -/
theorem Tracked.receive (taken : s.step .receive = some t) : t.Tracked := by
  obtain ⟨⟨socket, call⟩, waits, hr⟩ := bind_eq_some_iff.mp taken
  dsimp only at hr
  split at hr
  · cases hr
  next ans answers found =>
    split at hr
    next =>
      cases hr
      refine tracked.of_setLine rfl rfl rfl (fun req hm _ => hm) ?_
      intro other hm
      rw [found]
      exact .inl (mem_cons_of_mem _ hm)
    next notSmaller =>
      cases hr
      refine tracked_of_not_waiting (fun exchange hm => ?_) rfl
      rcases mem_append.mp hm with old | new
      · exact tracked.matched exchange old
      · -- the answer was not skipped, so it is not one of those with a smaller counter
        obtain rfl := mem_singleton.mp new
        have own := tracked.answers waits ans (by rw [found]; exact mem_cons_self ..)
        exact own.resolve_left notSmaller

theorem Tracked.serve {ix wk : ℕ} (hd : s.Distinct (.serve socket ix wk out))
    (taken : s.step (.serve socket ix wk out) = some t) : t.Tracked := by
  obtain ⟨req, found, rfl⟩ := map_eq_some_iff.mp taken
  have ho := mem_of_getElem? found
  refine tracked.of_setLine rfl rfl rfl (fun other hm _ => mem_of_mem_eraseIdx hm) ?_
  intro ans hm
  rcases mem_append.mp hm with old | new
  · exact .inl old
  · -- nothing was kept, so what is sent was made for this request
    obtain ⟨sync, counter, produced⟩ := work_sends (mem_toList.mp new)
    refine .inr ⟨req, ho, sync, counter, produced.resolve_right ?_⟩
    rintro ⟨rfl, kept⟩
    exact kept (hd req found sync)

theorem Tracked.send (hd : s.Distinct (.send socket))
    (taken : s.step (.send socket) = some t) : t.Tracked := by
  obtain ⟨smallerRequests, smallerAnswers⟩ := hd
  rw [step, ite_none_right_eq_some, some_inj] at taken
  obtain ⟨-, rfl⟩ := taken
  refine ⟨tracked.matched, ?_, ?_⟩
  · intro used call waits req hm sync
    cases waits
    rw [show State.lines _ socket = _ from update_self ..] at hm
    rcases mem_append.mp hm with old | new
    · exact .inl (smallerRequests req old sync)
    · exact .inr (by rw [mem_singleton.mp new])
  · intro used call waits ans hm
    cases waits
    rw [show State.lines _ socket = _ from update_self ..] at hm
    exact .inl (smallerAnswers ans hm)

theorem Tracked.step (hd : s.Distinct label) (taken : s.step label = some t) : t.Tracked := by
  cases label with
  | send socket => exact tracked.send hd taken
  | serve socket ix wk out => exact tracked.serve hd taken
  | receive => exact tracked.receive taken
  | sendFails | sendAsynchronous socket =>
    rw [State.step, ite_none_right_eq_some, some_inj] at taken
    obtain ⟨idle, rfl⟩ := taken
    exact tracked_of_not_waiting tracked.matched idle
  | serveOther counter synchronous wk out =>
    cases taken
    exact { tracked with }
  | loseRequest socket ix =>
    cases taken
    exact tracked.of_setLine rfl rfl rfl (fun req hm _ => mem_of_mem_eraseIdx hm)
      fun ans hm => .inl hm
  | loseAnswer socket ix =>
    cases taken
    exact tracked.of_setLine rfl rfl rfl (fun req hm _ => hm)
      fun ans hm => .inl (mem_of_mem_eraseIdx hm)
  | receiveFails =>
    obtain ⟨call, -, rfl⟩ := map_eq_some_iff.mp taken
    exact tracked_of_not_waiting tracked.matched rfl

end

/-- As long as the counters are distinct, every call returns the answer to its own request. -/
theorem answers_matched (labels : List Label)
    (distinct : Admissible State.step Distinct .init labels)
    (run : execute State.step .init labels = some t) : t.Matched :=
  (distinct.invariant (fun tracked distinct taken => tracked.step distinct taken) tracked_init
    run).matched

/-- A call runs into the timeout, and its answer is skipped by the next one. -/
theorem answers_matched_late :
    ∃ t, execute State.step .init [.send .service, .receiveFails, .send .service,
        .serve .service 0 0 .answered, .receive, .serve .service 0 0 .answered, .receive] = some t ∧
      t.returned = [(⟨1, 1, true⟩, ⟨1, some 1⟩)] ∧ t.Matched :=
  ⟨_, rfl, rfl, answers_matched [.send .service, .receiveFails, .send .service,
    .serve .service 0 0 .answered, .receive, .serve .service 0 0 .answered, .receive]
    (by decide) rfl⟩

/-! ### Counters that start again -/

/-- The state after a number of requests that were all answered at once. -/
def idle (n : ℕ) : State :=
  { init with
    messageCounter := BitVec.ofNat 16 n
    calls := n
    returned := (List.range n).map fun i =>
      (⟨i, BitVec.ofNat 16 i, true⟩, ⟨BitVec.ofNat 16 i, some i⟩) }

theorem execute_idle (n : ℕ) :
    execute State.step (idle n) [.send .service, .serve .service 0 0 .answered, .receive] =
      some (idle (n + 1)) := by
  simp [execute, State.step, idle, init, setLine, work, stamp, range_succ, BitVec.ofNat_add]

theorem execute_replicate_idle (n : ℕ) :
    execute State.step .init (replicate n
      [.send .service, .serve .service 0 0 .answered, .receive]).flatten = some (idle n) := by
  induction n with
  | zero => rfl
  | succ n ih =>
    rw [replicate_succ', flatten_concat, execute_append, ih, bind_some, execute_idle]

/-- A call after a number of requests runs into the timeout. The next one returns its answer if the
counter has started again. -/
theorem execute_late {n : ℕ} (again : BitVec.ofNat 16 n + 1#16 = 0#16) :
    (execute State.step (idle n) [.send .service, .receiveFails, .send .service,
        .serve .service 0 0 .answered, .receive]).map returned =
      some ((idle n).returned ++ [(⟨n + 1, 0, true⟩, ⟨BitVec.ofNat 16 n, some n⟩)]) := by
  simp [execute, State.step, idle, init, setLine, work, stamp, again]

/-- After 65535 requests one runs into the timeout. Its answer is returned by the next call, whose
counter is zero. An answer to an asynchronous request is returned by a call for whose request there
is no handler. -/
theorem other_answers_returned :
    (execute State.step .init ((List.replicate 65535
          [.send .service, .serve .service 0 0 .answered, .receive]).flatten ++
        [.send .service, .receiveFails, .send .service, .serve .service 0 0 .answered,
          .receive])).map (fun t => t.returned.getLast?) =
        some (some (⟨65536, 0, true⟩, ⟨65535, some 65535⟩)) ∧
      (execute State.step .init [.sendAsynchronous .service, .serve .service 0 0 .answered,
          .send .service, .serve .service 0 0 .silent, .receive]).map returned =
        some [(⟨1, 0, true⟩, ⟨0, some 0⟩)] := by
  constructor
  · have late := congrArg (Option.map getLast?)
      (execute_late (show BitVec.ofNat 16 65535 + 1#16 = 0#16 by decide))
    rw [map_some, getLast?_concat] at late
    rw [execute_append, execute_replicate_idle]
    exact late
  · rfl

end State

end Runs

end ChaosFramework.DirectIO.ClientConnection
