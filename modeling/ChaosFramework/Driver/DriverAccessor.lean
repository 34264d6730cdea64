import Mathlib.Data.List.Nodup
import Mathlib.Data.Nat.Basic
import Mathlib.Order.Basic
import ChaosFramework.Transition

/-!
# Messages to a driver

The accessors of a driver put messages into its command queue. The thread of the driver takes them
one after the other and puts the id of a processed message into the queue that the message names:
`accessor_sync_mq` for `send`, `accessor_async_mq` for `sendAsync`.

`send` takes any id from its queue and compares it with `MMR_EXECUTED`, and `getLastAsyncMsg` looks
into the queue of `send`. The answers are right as long as the sends of an accessor do not overlap,
the driver executes the message with the id 0 and no other one, and nobody asks for asynchronous
messages while there is one to be delivered (`sound_of_orderly`).
-/

namespace ChaosFramework.Driver

open Transition List Option Function

inductive MsgManagmentResult
  | executed
  | threadDispatched
  | error
  deriving DecidableEq, Repr

/-- The values of the enumeration. -/
def MsgManagmentResult.code : MsgManagmentResult → ℕ
  | .executed => 0
  | .threadDispatched => 1
  | .error => 2

inductive Opcode
  | initDriver
  | deinitDriver
  | setBypass
  | clearBypass
  /-- An opcode that is left to `execOpcode`. -/
  | custom (code : ℕ)
  deriving DecidableEq, Repr

/-- How the code of the driver that is called for a message ends. -/
inductive Outcome
  | returned (result : MsgManagmentResult)
  | chaosException
  | otherException
  deriving DecidableEq, Repr

/-- What a round of `scanForMessage` sets `opcode_submission_result` to, if it sets it. -/
def submissionResult : Opcode → Outcome → Option MsgManagmentResult
  | .setBypass, .returned _ | .clearBypass, .returned _ => none
  | .initDriver, .returned _ | .deinitDriver, .returned _ => some .executed
  | .custom _, .returned result => some result
  -- The result of an initialization is set before `driverInit` is called.
  | .initDriver, .chaosException => some .executed
  | _, .chaosException => none
  | _, .otherException => some .error

inductive Phase
  /-- The message has its id and is not in the command queue yet. -/
  | numbered
  | queued
  /-- The thread of the driver works on it. -/
  | taken
  | answered (result : Option MsgManagmentResult)
  deriving DecidableEq, Repr

/-- A call of `send` or `sendAsync`, with its message. -/
structure Message where
  accessor : ℕ
  synchronous : Bool
  id : ℕ
  opcode : Opcode
  priority : ℤ
  phase : Phase
  /-- What `send` has returned. -/
  returned : Option Bool
  /-- The id was returned by `getLastAsyncMsg`. -/
  delivered : Bool
  deriving DecidableEq, Repr

/-- A call of `getLastAsyncMsg`, with the ids that it could have returned. -/
structure Poll where
  accessor : ℕ
  result : Option ℕ
  waiting : List ℕ
  deriving DecidableEq, Repr

/-- A driver, its accessors and the calls that have been made. -/
structure Exchange where
  messages : ℕ → Message
  next : ℕ
  messagesCount : ℕ → ℕ
  commandQueue : List ℕ
  accessorSyncMq : ℕ → List ℕ
  accessorAsyncMq : ℕ → List ℕ
  /-- The message on which the thread of the driver works. -/
  current : Option ℕ
  /-- The loop of `scanForMessage` has been left. -/
  terminated : Bool
  polls : List Poll

namespace Exchange

def init : Exchange where
  messages _ := ⟨0, false, 0, .custom 0, 0, .numbered, none, false⟩
  next := 0
  messagesCount _ := 0
  commandQueue := []
  accessorSyncMq _ := []
  accessorAsyncMq _ := []
  current := none
  terminated := false
  polls := []

/-- The first part of `send` and `sendAsync`: the message gets its id. The priority is a sum of
unsigned numbers of 32 bits that is kept as a signed one. -/
def number (s : Exchange) (accessor : ℕ) (synchronous : Bool) (opcode : Opcode)
    (basePriority incPriority : ℕ) : Exchange :=
  { s with
    messages := update s.messages s.next
      ⟨accessor, synchronous, s.messagesCount accessor, opcode,
        Int.bmod (basePriority + incPriority) 4294967296, .numbered, none, false⟩
    next := s.next + 1
    messagesCount := update s.messagesCount accessor
      ((s.messagesCount accessor + 1) % 18446744073709551616) }

def setPhase (s : Exchange) (m : ℕ) (phase : Phase) : Exchange :=
  { s with messages := update s.messages m { s.messages m with phase } }

/-- `drvResponseMQ->push(id)`. -/
def pushResponse (s : Exchange) (m : ℕ) : Exchange :=
  let accessor := (s.messages m).accessor
  let id := (s.messages m).id
  if (s.messages m).synchronous then
    { s with
      accessorSyncMq := update s.accessorSyncMq accessor
        (s.accessorSyncMq accessor ++ [id]) }
  else
    { s with
      accessorAsyncMq := update s.accessorAsyncMq accessor
        (s.accessorAsyncMq accessor ++ [id]) }

/-- An id leaves the queue of synchronous answers. -/
def popSync (s : Exchange) (accessor id : ℕ) : Exchange :=
  { s with
    accessorSyncMq := update s.accessorSyncMq accessor
      ((s.accessorSyncMq accessor).erase id) }

/-- The asynchronous messages of an accessor that have been processed and not been delivered. -/
def waiting (s : Exchange) (accessor : ℕ) : List ℕ :=
  (List.range s.next).filter fun m =>
    (s.messages m).synchronous = false ∧ (s.messages m).accessor = accessor ∧
      (s.messages m).phase matches .answered _ ∧ (s.messages m).delivered = false

/-- The message that a delivered id stands for. -/
def deliver (s : Exchange) (accessor id : ℕ) : Exchange :=
  match (s.waiting accessor).find? fun m => (s.messages m).id = id with
  | some m =>
      { s with
        messages := update s.messages m { s.messages m with delivered := true } }
  | none => s

end Exchange

/-- The steps of the callers and of the thread of the driver. The queues are heaps that do not say
which of the elements with the highest priority comes first: the label says it. -/
inductive Move
  | send (accessor : ℕ) (opcode : Opcode) (basePriority incPriority : ℕ)
  | sendAsync (accessor : ℕ) (opcode : Opcode) (basePriority incPriority : ℕ)
  /-- The message is put into the command queue. -/
  | submit (message : ℕ)
  /-- The thread of the driver takes a message. -/
  | take (message : ℕ)
  /-- It has processed the message and puts its id into the queue of the answers. -/
  | respond (outcome : Outcome)
  /-- `send` takes an id and returns. -/
  | finish (message id : ℕ)
  | getLastAsyncMsg (accessor : ℕ) (result : Option ℕ)
  deriving DecidableEq, Repr

namespace Exchange

def step (s : Exchange) : Move → Option Exchange
  | .send accessor opcode basePriority incPriority =>
      some (s.number accessor true opcode basePriority incPriority)
  | .sendAsync accessor opcode basePriority incPriority =>
      some (s.number accessor false opcode basePriority incPriority)
  | .submit m =>
      if m < s.next ∧ (s.messages m).phase = .numbered then
        some { s.setPhase m .queued with commandQueue := s.commandQueue ++ [m] }
      else none
  | .take m =>
      if s.terminated = false ∧ s.current = none ∧ m ∈ s.commandQueue ∧
          ∀ k ∈ s.commandQueue, (s.messages k).priority ≤ (s.messages m).priority then
        some { s.setPhase m .taken with
          commandQueue := s.commandQueue.erase m, current := some m }
      else none
  | .respond outcome =>
      match s.current with
      | none => none
      | some m =>
          some { (s.setPhase m (.answered (submissionResult (s.messages m).opcode outcome))
              ).pushResponse m with
            current := none
            terminated := (s.messages m).opcode = .deinitDriver }
  | .finish m id =>
      if m < s.next ∧ (s.messages m).synchronous ∧ (s.messages m).phase ≠ .numbered ∧
          (s.messages m).returned = none ∧ id ∈ s.accessorSyncMq (s.messages m).accessor then
        some { s.popSync (s.messages m).accessor id with
          messages := update s.messages m
            { s.messages m with returned := some (id = MsgManagmentResult.executed.code) } }
      else none
  | .getLastAsyncMsg accessor none =>
      if s.accessorSyncMq accessor = [] then
        some { s with polls := s.polls ++
          [⟨accessor, none, (s.waiting accessor).map fun m => (s.messages m).id⟩] }
      else none
  | .getLastAsyncMsg accessor (some id) =>
      if id ∈ s.accessorSyncMq accessor then
        some { (s.popSync accessor id).deliver accessor id with polls := s.polls ++
          [⟨accessor, some id, (s.waiting accessor).map fun m => (s.messages m).id⟩] }
      else none

structure Sound (s : Exchange) : Prop where
  /-- A `send` that has returned was processed, and returned whether it was executed. -/
  sends : ∀ m < s.next, ∀ result, (s.messages m).returned = some result →
    ∃ answer, (s.messages m).phase = .answered answer ∧
      (result = true ↔ answer = some .executed)
  /-- An asynchronous message that has been processed is delivered by the next calls. -/
  polls : ∀ p ∈ s.polls,
    match p.result with
    | none => p.waiting = []
    | some id => id ∈ p.waiting

/-- A `send` is in progress. -/
def Open (s : Exchange) (m : ℕ) : Prop :=
  m < s.next ∧ (s.messages m).synchronous = true ∧ (s.messages m).returned = none

instance decidableOpen (s : Exchange) (m : ℕ) : Decidable (s.Open m) :=
  inferInstanceAs (Decidable (_ ∧ _ ∧ _))

/-- The sends of an accessor do not overlap, a synchronous message is executed if its id is that of
the result, and asynchronous messages are asked for when there is no answer of either kind. -/
def Orderly (s : Exchange) : Move → Prop
  | .send accessor _ _ _ => ∀ m < s.next, s.Open m → (s.messages m).accessor ≠ accessor
  | .respond outcome =>
      match s.current with
      | none => True
      | some m => (s.messages m).synchronous = true →
          ((s.messages m).id = MsgManagmentResult.executed.code ↔
            submissionResult (s.messages m).opcode outcome = some .executed)
  | .getLastAsyncMsg accessor _ => s.accessorSyncMq accessor = [] ∧ s.waiting accessor = []
  | _ => True

instance decidableOrderly (s : Exchange) (l : Move) : Decidable (s.Orderly l) := by
  unfold Orderly
  repeat' split
  all_goals infer_instance

/-! ### The command queue -/

/-- A message is in one place at a time. -/
structure Scheduled (s : Exchange) : Prop where
  queued : ∀ m ∈ s.commandQueue, m < s.next ∧ (s.messages m).phase = .queued
  nodup : s.commandQueue.Nodup
  taken : ∀ m ∈ s.current, m < s.next ∧ (s.messages m).phase = .taken

variable {s : Exchange}

theorem setPhase_self (m : ℕ) (phase : Phase) :
    (s.setPhase m phase).messages m = { s.messages m with phase } :=
  update_self ..

theorem setPhase_of_ne {m n : ℕ} (different : n ≠ m) (phase : Phase) :
    (s.setPhase m phase).messages n = s.messages n :=
  update_of_ne different ..

/-- Apart from the queues of the answers nothing changes when the driver answers. -/
theorem pushResponse_eq (m : ℕ) : ∃ sync async, s.pushResponse m =
    { s with accessorSyncMq := sync, accessorAsyncMq := async } := by
  unfold pushResponse
  split
  · exact ⟨_, _, rfl⟩
  · exact ⟨_, _, rfl⟩

section

variable (scheduled : Scheduled s) {m : ℕ} {t : Exchange}

include scheduled

/-- A change of other messages than those in the hands of the driver. -/
theorem Scheduled.congr (queue : t.commandQueue = s.commandQueue)
    (hc : t.current = s.current) (next : s.next ≤ t.next)
    (phases : ∀ m < s.next, (t.messages m).phase = (s.messages m).phase) : Scheduled t := by
  constructor
  case queued =>
    intro m hm
    obtain ⟨hs, hp⟩ := scheduled.queued m (queue ▸ hm)
    exact ⟨hs.trans_le next, (phases m hs).trans hp⟩
  case nodup => exact queue ▸ scheduled.nodup
  case taken =>
    intro m isCurrent
    obtain ⟨hs, hp⟩ := scheduled.taken m (hc ▸ isCurrent)
    exact ⟨hs.trans_le next, (phases m hs).trans hp⟩

theorem Scheduled.submit (hs : m < s.next) (hp : (s.messages m).phase = .numbered) :
    Scheduled { s.setPhase m .queued with commandQueue := s.commandQueue ++ [m] } := by
  have ne_of_phase {k : ℕ} (different : (s.messages k).phase ≠ .numbered) : k ≠ m := by
    rintro rfl
    exact different hp
  constructor
  case queued =>
    intro k hm
    rcases mem_append.mp hm with isOld | isNew
    · obtain ⟨smallK, hq⟩ := scheduled.queued k isOld
      have different := ne_of_phase (k := k) (by simp [hq])
      exact ⟨smallK, (congrArg Message.phase (setPhase_of_ne different _)).trans hq⟩
    · obtain rfl := mem_singleton.mp isNew
      exact ⟨hs, congrArg Message.phase (setPhase_self ..)⟩
  case nodup =>
    apply scheduled.nodup.append (nodup_singleton _)
    intro k isOld isNew
    obtain rfl := mem_singleton.mp isNew
    rw [(scheduled.queued k isOld).2] at hp
    cases hp
  case taken =>
    intro k isCurrent
    obtain ⟨smallK, ht⟩ := scheduled.taken k isCurrent
    have different := ne_of_phase (k := k) (by simp [ht])
    exact ⟨smallK, (congrArg Message.phase (setPhase_of_ne different _)).trans ht⟩

theorem Scheduled.take (hm : m ∈ s.commandQueue) :
    Scheduled { s.setPhase m .taken with
      commandQueue := s.commandQueue.erase m, current := some m } := by
  constructor
  case queued =>
    intro k ht
    obtain ⟨different, isOld⟩ := scheduled.nodup.mem_erase_iff.mp ht
    obtain ⟨smallK, hq⟩ := scheduled.queued k isOld
    exact ⟨smallK, (congrArg Message.phase (setPhase_of_ne different _)).trans hq⟩
  case nodup => exact scheduled.nodup.erase m
  case taken =>
    intro k isCurrent
    obtain rfl := mem_some_iff.mp isCurrent
    exact ⟨(scheduled.queued m hm).1, congrArg Message.phase (setPhase_self ..)⟩

/-- The driver puts a message down again. -/
theorem Scheduled.respond (hc : s.current = some m)
    (queue : t.commandQueue = s.commandQueue) (none : t.current = none) (next : t.next = s.next)
    (phases : ∀ k, k ≠ m → (t.messages k).phase = (s.messages k).phase) : Scheduled t := by
  constructor
  case queued =>
    intro k hm
    obtain ⟨hs, hq⟩ := scheduled.queued k (queue ▸ hm)
    have different : k ≠ m := by
      rintro rfl
      rw [(scheduled.taken k hc).2] at hq
      cases hq
    exact ⟨next ▸ hs, (phases k different).trans hq⟩
  case nodup => exact queue ▸ scheduled.nodup
  case taken =>
    intro k isCurrent
    rw [none] at isCurrent
    cases isCurrent

end

/-! ### The answers -/

structure Answering (s : Exchange) : Prop where
  /-- There is one `send` of an accessor at a time. -/
  alone : ∀ m n, s.Open m → s.Open n → (s.messages m).accessor = (s.messages n).accessor → m = n
  /-- An answer in the queue is for the `send` in progress. -/
  answers : ∀ accessor, ∀ id ∈ s.accessorSyncMq accessor, ∃ m, s.Open m ∧
    (s.messages m).accessor = accessor ∧ (s.messages m).id = id ∧
      ∃ answer, (s.messages m).phase = .answered answer
  single : ∀ accessor, (s.accessorSyncMq accessor).length ≤ 1
  agrees : ∀ m < s.next, (s.messages m).synchronous = true → ∀ answer,
    (s.messages m).phase = .answered answer →
      ((s.messages m).id = MsgManagmentResult.executed.code ↔ answer = some .executed)
  sound : Sound s

section

variable (ha : Answering s) {m : ℕ} {phase : Phase} {t : Exchange}

include ha

/-- A `send` that waits for an answer while there is one has been processed. -/
theorem Answering.answered {id : ℕ} (isOpen : s.Open m)
    (hm : id ∈ s.accessorSyncMq (s.messages m).accessor) :
    (s.messages m).id = id ∧ ∃ ans, (s.messages m).phase = .answered ans := by
  obtain ⟨n, openN, accessor, hs, answered⟩ := ha.answers _ id hm
  obtain rfl := ha.alone n m openN isOpen accessor
  exact ⟨hs, answered⟩

/-- A message on which the driver works has not been answered. -/
theorem Answering.returned_of_taken (hs : m < s.next)
    (ht : (s.messages m).phase = .taken) : (s.messages m).returned = none := by
  cases hh : (s.messages m).returned with
  | none => rfl
  | some res =>
    obtain ⟨ans, answered, -⟩ := ha.sound.sends m hs res hh
    rw [ht] at answered
    cases answered

/-- A message changes its phase or what is returned for it, and the queues change with it. -/
theorem Answering.change {returned : Option Bool}
    (messages : t.messages = update s.messages m { s.messages m with phase, returned })
    (next : t.next = s.next) (polls : t.polls = s.polls)
    (ret : returned = none → (s.messages m).returned = none)
    (answers : ∀ accessor, ∀ id ∈ t.accessorSyncMq accessor,
      (t.Open m ∧ (s.messages m).accessor = accessor ∧ (s.messages m).id = id ∧
        ∃ answer, phase = .answered answer) ∨
      id ∈ s.accessorSyncMq accessor ∧
        ((s.messages m).accessor = accessor → ∀ ans, (s.messages m).phase ≠ .answered ans))
    (single : ∀ accessor, (t.accessorSyncMq accessor).length ≤ 1)
    (agrees : (s.messages m).synchronous = true → ∀ answer, phase = .answered answer →
      ((s.messages m).id = MsgManagmentResult.executed.code ↔ answer = some .executed))
    (sends : ∀ result, returned = some result →
      ∃ answer, phase = .answered answer ∧ (result = true ↔ answer = some .executed)) :
    Answering t := by
  have self : t.messages m = { s.messages m with phase, returned } := by rw [messages, update_self]
  have other {n : ℕ} (different : n ≠ m) : t.messages n = s.messages n := by
    rw [messages, update_of_ne different]
  have accessors (n : ℕ) : (t.messages n).accessor = (s.messages n).accessor := by
    obtain rfl | he := eq_or_ne n m
    · rw [self]
    · rw [other he]
  have opens {n : ℕ} (isOpen : t.Open n) : s.Open n := by
    rw [Open, next] at isOpen
    obtain rfl | he := eq_or_ne n m
    · rw [self] at isOpen
      exact ⟨isOpen.1, isOpen.2.1, ret isOpen.2.2⟩
    · rwa [other he] at isOpen
  constructor
  case alone =>
    intro n k isOpen ho he
    rw [accessors, accessors] at he
    exact ha.alone n k (opens isOpen) (opens ho) he
  case answers =>
    intro accessor id hm
    obtain ⟨isOpen, rest⟩ | ⟨ho, hn⟩ := answers accessor id hm
    · exact ⟨m, isOpen, by rwa [self]⟩
    · obtain ⟨n, isOpen, rest⟩ := ha.answers accessor id ho
      have different : n ≠ m := by
        rintro rfl
        obtain ⟨mine, -, ans, answered⟩ := rest
        exact hn mine ans answered
      refine ⟨n, ?_, by rwa [other different]⟩
      rwa [Open, next, other different]
  case single => exact single
  case agrees =>
    intro n hs isSent ans answered
    obtain rfl | he := eq_or_ne n m
    · rw [self] at isSent answered ⊢
      exact agrees isSent ans answered
    · rw [other he] at isSent answered ⊢
      exact ha.agrees n (next ▸ hs) isSent ans answered
  case sound =>
    refine ⟨fun n hs res hh => ?_, polls ▸ ha.sound.polls⟩
    obtain rfl | he := eq_or_ne n m
    · rw [self] at hh ⊢
      exact sends res hh
    · rw [other he] at hh ⊢
      exact ha.sound.sends n (next ▸ hs) res hh

/-- A message that is not answered changes its phase. -/
theorem Answering.setPhase (hs : m < s.next) (hb : ∀ ans, (s.messages m).phase ≠ .answered ans)
    (after : ∀ ans, phase ≠ .answered ans) : Answering (s.setPhase m phase) := by
  refine ha.change rfl rfl rfl id (fun _ _ hm => .inr ⟨hm, fun _ => hb⟩) ha.single ?_ ?_
  · exact fun _ ans answered => absurd answered (after ans)
  · intro res hh
    obtain ⟨ans, answered, -⟩ := ha.sound.sends m hs res hh
    exact absurd answered (hb ans)

/-- Fields that the callers do not look at. -/
theorem Answering.congr (messages : t.messages = s.messages) (next : t.next = s.next)
    (queue : t.accessorSyncMq = s.accessorSyncMq) (polls : t.polls = s.polls) : Answering t := by
  obtain ⟨alone, answers, hs, agrees, sends, polled⟩ := ha
  cases t
  subst messages next queue polls
  exact ⟨alone, answers, hs, agrees, sends, polled⟩

theorem Answering.number {accessor : ℕ} {sync : Bool} {op : Opcode} {basePriority incPriority : ℕ}
    (free : sync = true → ∀ m < s.next, s.Open m → (s.messages m).accessor ≠ accessor) :
    Answering (s.number accessor sync op basePriority incPriority) := by
  set t := s.number accessor sync op basePriority incPriority
  have old {m : ℕ} (hs : m < s.next) : t.messages m = s.messages m :=
    update_of_ne hs.ne ..
  have new : t.messages s.next = ⟨accessor, sync, s.messagesCount accessor, op,
      Int.bmod (basePriority + incPriority) 4294967296, .numbered, none, false⟩ :=
    update_self ..
  have split {m : ℕ} (hs : m < t.next) : m = s.next ∨ m < s.next := by
    have bound : m < s.next + 1 := hs
    omega
  have openOld {m : ℕ} (hs : m < s.next) : t.Open m ↔ s.Open m := by
    rw [Open, old hs]
    exact and_congr_left fun _ => ⟨fun _ => hs, fun _ => hs.trans (Nat.lt_succ_self _)⟩
  constructor
  case alone =>
    intro m n openM openN same
    rcases split openM.1 with rfl | smallM <;> rcases split openN.1 with rfl | smallN
    · rfl
    · have isSend : sync = true := by simpa [new] using openM.2.1
      rw [new, old smallN] at same
      exact absurd same.symm (free isSend n smallN ((openOld smallN).mp openN))
    · have isSend : sync = true := by simpa [new] using openN.2.1
      rw [new, old smallM] at same
      exact absurd same (free isSend m smallM ((openOld smallM).mp openM))
    · rw [old smallM, old smallN] at same
      exact ha.alone m n ((openOld smallM).mp openM) ((openOld smallN).mp openN) same
  case answers =>
    intro a id hm
    obtain ⟨m, isOpen, rest⟩ := ha.answers a id hm
    refine ⟨m, (openOld isOpen.1).mpr isOpen, ?_⟩
    rwa [old isOpen.1]
  case single => exact ha.single
  case agrees =>
    intro m hs isSend ans phase
    rcases split hs with rfl | isOld
    · rw [new] at phase
      cases phase
    · rw [old isOld] at isSend phase ⊢
      exact ha.agrees m isOld isSend ans phase
  case sound =>
    refine ⟨fun m hs res hh => ?_, ha.sound.polls⟩
    rcases split hs with rfl | isOld
    · rw [new] at hh
      cases hh
    · rw [old isOld] at hh ⊢
      exact ha.sound.sends m isOld res hh

end

section Respond

variable {m : ℕ} {ans : Option MsgManagmentResult}

/-- The state after the driver has answered a message. -/
def answerTo (s : Exchange) (m : ℕ) (answer : Option MsgManagmentResult) : Exchange :=
  (s.setPhase m (.answered answer)).pushResponse m

variable (s m ans) in
theorem answerTo_eq : ∃ sync async, s.answerTo m ans =
    { s.setPhase m (.answered ans) with accessorSyncMq := sync, accessorAsyncMq := async } :=
  pushResponse_eq m

theorem answerTo_self :
    (s.answerTo m ans).messages m = { s.messages m with phase := .answered ans } := by
  obtain ⟨sync, async, answered⟩ := answerTo_eq s m ans
  rw [answered]
  exact setPhase_self ..

theorem answerTo_of_ne {n : ℕ} (different : n ≠ m) :
    (s.answerTo m ans).messages n = s.messages n := by
  obtain ⟨sync, async, answered⟩ := answerTo_eq s m ans
  rw [answered]
  exact setPhase_of_ne different _

variable (ha : Answering s) (hs : m < s.next) (ht : (s.messages m).phase = .taken)

include ha hs ht

/-- An answer in the queue would be that of the message that is to be answered. -/
theorem Answering.queue_empty (isSend : (s.messages m).synchronous = true) :
    s.accessorSyncMq (s.messages m).accessor = [] := by
  have waits := ha.returned_of_taken hs ht
  apply eq_nil_iff_forall_not_mem.mpr
  intro id hm
  obtain ⟨-, ans, answered⟩ := ha.answered ⟨hs, isSend, waits⟩ hm
  rw [ht] at answered
  cases answered

theorem Answering.answerTo_queue (accessor : ℕ) :
    (s.answerTo m ans).accessorSyncMq accessor =
      if (s.messages m).synchronous = true ∧ accessor = (s.messages m).accessor then
        [(s.messages m).id]
      else s.accessorSyncMq accessor := by
  rw [answerTo, pushResponse, setPhase_self]
  by_cases isSend : (s.messages m).synchronous = true
  · rw [if_pos isSend]
    by_cases same : accessor = (s.messages m).accessor
    · rw [if_pos ⟨isSend, same⟩, same]
      exact (update_self ..).trans (congrArg (· ++ [_]) (ha.queue_empty hs ht isSend))
    · rw [if_neg fun both => same both.2]
      exact update_of_ne same ..
  · rw [if_neg isSend, if_neg fun both => isSend both.1]
    rfl

/-- The driver answers a message: the queue of its accessor was empty. -/
theorem Answering.respond (ans : Option MsgManagmentResult)
    (right : (s.messages m).synchronous = true →
      ((s.messages m).id = MsgManagmentResult.executed.code ↔ ans = some .executed)) :
    Answering (s.answerTo m ans) := by
  have hw := ha.returned_of_taken hs ht
  obtain ⟨sync, async, answered⟩ := answerTo_eq s m ans
  have next : (s.answerTo m ans).next = s.next := by rw [answered]; rfl
  have polls : (s.answerTo m ans).polls = s.polls := by rw [answered]; rfl
  have messages : (s.answerTo m ans).messages = (s.setPhase m (.answered ans)).messages := by
    rw [answered]
  refine ha.change messages next polls id (fun accessor id hm => ?_) (fun accessor => ?_) ?_ ?_
  · rw [ha.answerTo_queue hs ht] at hm
    split at hm
    next both =>
      obtain rfl := mem_singleton.mp hm
      refine .inl ⟨?_, both.2.symm, rfl, ans, rfl⟩
      rw [Open, next, answerTo_self]
      exact ⟨hs, both.1, hw⟩
    next => exact .inr ⟨hm, fun _ => by simp [ht]⟩
  · rw [ha.answerTo_queue hs ht]
    split
    · exact le_rfl
    · exact ha.single accessor
  · intro isSend given hg
    obtain rfl := Phase.answered.inj hg
    exact right isSend
  · rw [hw]
    nofun

end Respond

section Finish

variable {m id : ℕ}

/-- The state after a `send` has taken an answer from the queue of its accessor. -/
def finishWith (s : Exchange) (m id : ℕ) : Exchange :=
  { s.popSync (s.messages m).accessor id with
    messages := update s.messages m
      { s.messages m with returned := some (id = MsgManagmentResult.executed.code) } }

/-- The answer was the only one. -/
theorem Answering.finishWith_queue (ha : Answering s)
    (hm : id ∈ s.accessorSyncMq (s.messages m).accessor) (accessor : ℕ) :
    (s.finishWith m id).accessorSyncMq accessor =
      if accessor = (s.messages m).accessor then [] else s.accessorSyncMq accessor := by
  obtain rfl | same := eq_or_ne accessor ((s.messages m).accessor)
  · have queue : (s.finishWith m id).accessorSyncMq (s.messages m).accessor =
        (s.accessorSyncMq (s.messages m).accessor).erase id :=
      update_self ..
    rw [if_pos rfl, queue, ← length_eq_zero_iff, length_erase_of_mem hm]
    have := ha.single (s.messages m).accessor
    omega
  · rw [if_neg same]
    exact update_of_ne same ..

/-- A `send` takes the answer, which is its own. -/
theorem Answering.finish (ha : Answering s) (isOpen : s.Open m)
    (hm : id ∈ s.accessorSyncMq (s.messages m).accessor) : Answering (s.finishWith m id) := by
  obtain ⟨rfl, ans, answered⟩ := ha.answered isOpen hm
  have agrees := ha.agrees m isOpen.1 isOpen.2.1
  refine ha.change rfl rfl rfl nofun (fun accessor id ht => ?_) (fun accessor => ?_)
    (fun _ => agrees) fun res hh => ?_
  · rw [ha.finishWith_queue hm] at ht
    split at ht
    · cases ht
    next otherwise => exact .inr ⟨ht, fun he => absurd he.symm otherwise⟩
  · rw [ha.finishWith_queue hm]
    split
    · exact Nat.zero_le _
    · exact ha.single accessor
  · refine ⟨ans, answered, ?_⟩
    rw [← agrees ans answered]
    cases hh
    exact decide_eq_true_iff

end Finish

/-- Nothing is delivered when there is nothing to deliver. -/
theorem Answering.poll (ha : Answering s) {accessor : ℕ} (nothing : s.waiting accessor = []) :
    Answering { s with polls := s.polls ++
      [⟨accessor, none, (s.waiting accessor).map fun m => (s.messages m).id⟩] } := by
  refine ⟨ha.alone, ha.answers, ha.single, ha.agrees, ha.sound.sends, fun p hm => ?_⟩
  rcases mem_append.mp hm with isOld | isNew
  · exact ha.sound.polls p isOld
  · obtain rfl := mem_singleton.mp isNew
    rw [nothing]
    rfl

/-! ### Runs -/

/-- The queue of the driver, and the answers. -/
def Kept (s : Exchange) : Prop := Scheduled s ∧ Answering s

section Steps

variable {t : Exchange} (hk : Kept s) {accessor m : ℕ}

include hk

theorem Kept.number {sync : Bool} {op : Opcode} {base inc : ℕ}
    (free : sync = true → ∀ m < s.next, s.Open m → (s.messages m).accessor ≠ accessor) :
    Kept (s.number accessor sync op base inc) := by
  refine ⟨hk.1.congr rfl rfl (Nat.le_succ _) fun m hs => ?_, hk.2.number free⟩
  exact congrArg Message.phase (update_of_ne hs.ne ..)

theorem Kept.submit (ht : s.step (.submit m) = some t) : Kept t := by
  obtain ⟨enabled, ⟨⟩⟩ := ite_none_right_eq_some.mp ht
  have hq : Answering (s.setPhase m .queued) := by
    apply hk.2.setPhase enabled.1
    · simp [enabled.2]
    · simp
  exact ⟨hk.1.submit enabled.1 enabled.2, hq.congr rfl rfl rfl rfl⟩

theorem Kept.take (ht : s.step (.take m) = some t) : Kept t := by
  obtain ⟨enabled, ⟨⟩⟩ := ite_none_right_eq_some.mp ht
  obtain ⟨-, -, hm, -⟩ := enabled
  have isTaken : Answering (s.setPhase m .taken) := by
    apply hk.2.setPhase (hk.1.queued m hm).1
    · simp [(hk.1.queued m hm).2]
    · simp
  exact ⟨hk.1.take hm, isTaken.congr rfl rfl rfl rfl⟩

theorem Kept.respond {out : Outcome} (ho : s.Orderly (.respond out))
    (ht : s.step (.respond out) = some t) : Kept t := by
  simp only [step] at ht
  cases hc : s.current with
  | none =>
    rw [hc] at ht
    cases ht
  | some m =>
    rw [hc] at ht
    cases ht
    simp only [Orderly, hc] at ho
    obtain ⟨hs, hp⟩ := hk.1.taken m hc
    have ha := hk.2.respond hs hp _ ho
    obtain ⟨sync, async, answered⟩ :=
      answerTo_eq s m (submissionResult (s.messages m).opcode out)
    refine ⟨hk.1.respond hc ?_ rfl ?_ fun n different => ?_, ha.congr rfl rfl rfl rfl⟩
    · exact (congrArg Exchange.commandQueue answered :)
    · exact (congrArg Exchange.next answered :)
    · exact congrArg Message.phase (answerTo_of_ne different)

theorem Kept.finish {id : ℕ} (ht : s.step (.finish m id) = some t) : Kept t := by
  obtain ⟨enabled, ⟨⟩⟩ := ite_none_right_eq_some.mp ht
  obtain ⟨hs, isSend, -, waits, hm⟩ := enabled
  refine ⟨hk.1.congr rfl rfl le_rfl fun n _ => ?_, hk.2.finish ⟨hs, isSend, waits⟩ hm⟩
  by_cases same : n = m <;> simp [same]

theorem Kept.getLastAsyncMsg {res : Option ℕ} (ho : s.Orderly (.getLastAsyncMsg accessor res))
    (ht : s.step (.getLastAsyncMsg accessor res) = some t) : Kept t := by
  cases res with
  | none =>
    obtain ⟨-, ⟨⟩⟩ := ite_none_right_eq_some.mp ht
    exact ⟨hk.1.congr rfl rfl le_rfl fun _ _ => rfl, hk.2.poll ho.2⟩
  | some id =>
    rw [step, ho.1] at ht
    cases ht

end Steps

theorem keeps_step {t : Exchange} (l : Move) (hk : Kept s) (ho : s.Orderly l)
    (ht : s.step l = some t) : Kept t := by
  cases l with
  | send accessor op base inc =>
    cases ht
    exact hk.number fun _ => ho
  | sendAsync accessor op base inc =>
    cases ht
    exact hk.number nofun
  | submit m => exact hk.submit ht
  | take m => exact hk.take ht
  | respond out => exact hk.respond ho ht
  | finish m id => exact hk.finish ht
  | getLastAsyncMsg accessor res => exact hk.getLastAsyncMsg ho ht

theorem answering_init : Answering init := by
  constructor
  case alone => exact fun _ _ isOpen => absurd isOpen.1 (Nat.not_lt_zero _)
  case answers => exact fun _ _ hm => absurd hm not_mem_nil
  case single => exact fun _ => Nat.zero_le _
  case agrees => exact fun _ hs => absurd hs (Nat.not_lt_zero _)
  case sound =>
    exact ⟨fun _ hs => absurd hs (Nat.not_lt_zero _), nofun⟩

theorem scheduled_init : Scheduled init where
  queued := fun _ hm => absurd hm not_mem_nil
  nodup := nodup_nil
  taken := fun _ isCurrent => absurd isCurrent (not_mem_none _)

/-- Whatever the callers and the driver do, and in whatever order. -/
theorem sound_of_orderly {moves : List Move} {s : Exchange}
    (orderly : Admissible step Orderly init moves) (run : execute step init moves = some s) :
    Sound s :=
  (orderly.invariant (keeps_step _) ⟨scheduled_init, answering_init⟩ run).2.sound

/-- A call of `send` on the accessor 0 that is the only one, with the number of its message. -/
def sendMoves (message id : ℕ) (result : MsgManagmentResult) : List Move :=
  [.send 0 (.custom 7) 0 0, .submit message, .take message, .respond (.returned result),
    .finish message id]

/-- The first message is executed, the second one is not, and a third one is not waited for. -/
theorem sound_of_orderly_twice :
    let moves := sendMoves 0 0 .executed ++ [.getLastAsyncMsg 0 none] ++ sendMoves 1 1 .error ++
      [.sendAsync 0 (.custom 7) 0 0, .submit 2, .take 2, .respond (.returned .executed)]
    ∃ s, execute step init moves = some s ∧ Admissible step Orderly init moves ∧ Sound s ∧
      (s.messages 0).returned = some true ∧ (s.messages 1).returned = some false := by
  have ho : Admissible step Orderly init
      (sendMoves 0 0 .executed ++ [.getLastAsyncMsg 0 none] ++ sendMoves 1 1 .error ++
        [.sendAsync 0 (.custom 7) 0 0, .submit 2, .take 2, .respond (.returned .executed)]) := by
    decide
  exact ⟨_, rfl, ho, sound_of_orderly ho rfl, rfl, rfl⟩

/-- The second message is executed as well, and its `send` says that it is not. The asynchronous
message is not found. -/
theorem executed_message_reported_as_failed :
    ∃ s, execute step init (sendMoves 0 0 .executed ++ sendMoves 1 1 .executed ++
        [.sendAsync 0 (.custom 7) 0 0, .submit 2, .take 2, .respond (.returned .executed),
          .getLastAsyncMsg 0 none]) = some s ∧
      (s.messages 1).phase = .answered (some .executed) ∧
      (s.messages 1).returned = some false ∧ s.polls = [⟨0, none, [2]⟩] ∧ ¬ Sound s := by
  refine ⟨_, rfl, rfl, rfl, by decide, fun hs => ?_⟩
  obtain ⟨ans, answered, iff⟩ := hs.sends 1 (by decide) false rfl
  obtain rfl : some .executed = ans := Phase.answered.inj answered
  exact absurd (iff.mpr rfl) Bool.false_ne_true

end Exchange

end ChaosFramework.Driver
