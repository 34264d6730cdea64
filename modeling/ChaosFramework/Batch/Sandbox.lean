import ChaosFramework.Batch.Command
import Mathlib.Data.List.Count

/-!
# The serialized sandbox

`BatchCommandSandbox` runs one command at a time. The checker (`checkNextCommand`) decides which
command is the current one, the scheduler (`runCommand`) executes its steps. Callers enqueue
commands, ask for the current one to be killed or for the queue to be cleared.

The model is a transition function at mutex granularity. A thread is preempted where it takes or
releases `mutex_next_command_queue` or `mutext_access_current_command`, or waits on a semaphore, so
that the checker carries a program counter. Semaphores only decide when a thread runs again: a step
is enabled whenever the locks it needs are free.

Command objects live in a heap and are referred to by the number that `addCommandID` has given them;
a paused command stays reachable through the three handler functors.
-/

namespace ChaosFramework.Batch

open RunningPropertyType SubmissionRuleType HandlerType List

/-! ### The submission queue -/

/-- `PriorityQueuedElement`. The priority is an `int`. -/
structure PriorityQueuedElement where
  sequenceId : Nat
  priority : Int
  element : CommandRef
  deriving DecidableEq, Repr

/-- The order of the queue: `lhs` comes out after `rhs`. -/
def priorityCommandCompare (lhs rhs : PriorityQueuedElement) : Bool :=
  if lhs.priority < rhs.priority then true
  else if lhs.priority = rhs.priority then decide (rhs.sequenceId ≤ lhs.sequenceId)
  else false

/-- `CommandPriorityQueue`: the elements that wait, in no particular order. -/
abbrev CommandPriorityQueue := List PriorityQueuedElement

namespace CommandPriorityQueue

/-- `std::priority_queue::top`, an element that comes out after no other one. -/
def top : CommandPriorityQueue → Option PriorityQueuedElement
  | [] => none
  | e :: es =>
      match top es with
      | none => some e
      | some best => if priorityCommandCompare e best then some best else some e

/-- `std::priority_queue::pop`, given the element that `top` returned. -/
def pop (queue : CommandPriorityQueue) (first : PriorityQueuedElement) : CommandPriorityQueue :=
  queue.erase first

/-- The commands that wait. -/
def refs (queue : CommandPriorityQueue) : List CommandRef := queue.map (·.element)

theorem top_mem : ∀ {queue : CommandPriorityQueue} {first : PriorityQueuedElement},
    top queue = some first → first ∈ queue
  | e :: es, first, isTop => by
    unfold top at isTop
    cases inner : top es with
    | none =>
      rw [inner] at isTop
      exact mem_cons.mpr (Or.inl (Option.some.inj isTop).symm)
    | some best =>
      rw [inner] at isTop
      dsimp only at isTop
      split at isTop
      · cases isTop
        exact mem_cons_of_mem e (top_mem inner)
      · exact mem_cons.mpr (Or.inl (Option.some.inj isTop).symm)

variable {queue : CommandPriorityQueue}

theorem top_eq_none : top queue = none ↔ queue = [] := by
  cases queue with
  | nil => simp [top]
  | cons e es =>
    unfold top
    cases top es with
    | none => simp
    | some best => dsimp only; split <;> simp

variable {first : PriorityQueuedElement}

/-- Popping the top removes one occurrence of its command and nothing else. -/
theorem count_refs_pop (isTop : top queue = some first) (c : CommandRef) :
    (refs queue).count c =
      (refs (pop queue first)).count c + if first.element = c then 1 else 0 := by
  -- Up to order the queue is its top and what `pop` leaves.
  have split : queue.Perm (first :: pop queue first) := perm_cons_erase (top_mem isTop)
  have counted := (split.map (·.element)).count_eq c
  rw [refs, counted, map_cons, count_cons, refs]
  simp

theorem length_pop (isTop : top queue = some first) :
    (pop queue first).length + 1 = queue.length := by
  have hp : 0 < queue.length := length_pos_of_mem (top_mem isTop)
  rw [pop, length_erase_of_mem (top_mem isTop)]
  omega

end CommandPriorityQueue

/-! ### Running property against submission rule -/

/-- `RunningVSSubmissioneResult`. -/
inductive RunningVSSubmissionResult
  | noChange | timedRetry | stackCurrentCommand | killCurrentCommand
  | currentCmdHasEnded | currentCmdHasFaulted
  deriving DecidableEq, Repr

/-- The table `running_vs_submition`, with four rows and three columns. -/
def runningVsSubmition : List (List RunningVSSubmissionResult) :=
  [[.timedRetry, .timedRetry, .noChange],
   [.stackCurrentCommand, .killCurrentCommand, .noChange],
   [.currentCmdHasEnded, .currentCmdHasEnded, .currentCmdHasEnded],
   [.currentCmdHasFaulted, .currentCmdHasFaulted, .currentCmdHasFaulted]]

/-- `CHECK_RUNNING_VS_SUBMISSION`; `none` when an index lies outside the table. -/
def checkRunningVsSubmission (running submission : Nat) : Option RunningVSSubmissionResult :=
  runningVsSubmition[running]?.bind fun row => row[submission]?

theorem checkRunningVsSubmission_isSome {running sub : Nat} :
    (checkRunningVsSubmission running sub).isSome ↔ running < 4 ∧ sub < 3 := by
  constructor
  · intro found
    by_cases row : running < 4
    · refine ⟨row, ?_⟩
      by_contra column
      have hb : 3 ≤ sub := Nat.le_of_not_lt column
      interval_cases running <;>
        simp [checkRunningVsSubmission, runningVsSubmition, hb] at found
    · have hb : 4 ≤ running := Nat.le_of_not_lt row
      simp [checkRunningVsSubmission, runningVsSubmition, hb] at found
  · rintro ⟨row, column⟩
    interval_cases running <;> interval_cases sub <;> rfl

/-! ### State -/

/-- `WaitingCommandFunctionOpcode`. -/
inductive WaitingCommandFunctionOpcode
  | wcfoClearQueue
  deriving DecidableEq, Repr

/-- `RunningCommandFunctionOpcode`. -/
inductive RunningCommandFunctionOpcode
  | rcfoTerminate
  deriving DecidableEq, Repr

/-- Where the checker thread stands in its loop. -/
inductive CheckerPoint
  /-- At the head of the loop, or waiting. -/
  | idle
  /-- It has released the queue with this value of `queue_empty`. -/
  | queueChecked (queueEmpty : Bool)
  /-- It holds `mutext_access_current_command` and has taken `next` from the queue; the
  current command is going to be paused. -/
  | stacking (next : CommandRef)
  /-- As `stacking`, but the current command has got its closing event and is going to
  be removed. -/
  | replacing (next : CommandRef)
  /-- The queue was empty and the unlocked test found the current command ended; it is
  about to take `mutext_access_current_command`. -/
  | ending
  /-- About to test whether the default command has to be installed. -/
  | stickyCheck
  deriving DecidableEq, Repr

/-- The checker holds `mutext_access_current_command`. -/
def CheckerPoint.holdsCurrent : CheckerPoint → Bool
  | .stacking _ | .replacing _ => true
  | _ => false

/-- The command that the checker has taken out of the queue and not yet installed. -/
def CheckerPoint.inHand : CheckerPoint → List CommandRef
  | .stacking next | .replacing next => [next]
  | _ => []

/-- The sandbox, its two threads and the calls that are in flight. -/
structure BatchCommandSandbox where
  scheduleWorkFlag : Bool
  deinitialized : Bool
  commandSequenceId : Nat
  defaultStickyCommand : Option CommandRef
  currentExecutingCommand : Option CommandRef
  stackRunCmdOp : List RunningCommandFunctionOpcode
  stackWaitCmdOp : List WaitingCommandFunctionOpcode
  commandSubmittedQueue : CommandPriorityQueue
  /-- The top of the stack comes first. -/
  commandStack : List CommandRef
  acquireHandlerFunctor : Option CommandRef
  correlationHandlerFunctor : Option CommandRef
  endHandlerFunctor : Option CommandRef
  lastCmdStepStartUsec : Nat
  cmdStat : BatchCommandStat
  /-- The command objects. -/
  commands : CommandRef → BatchCommand
  /-- Calls of `enqueueCommand` that have left the queue mutex and have not yet
  refreshed the statistics. -/
  enqueuing : Nat
  checker : CheckerPoint
  /-- Every event reported so far, oldest first. -/
  events : List CommandEvent

namespace BatchCommandSandbox

/-- The object a reference that was never handed out stands for. -/
def noCommand : BatchCommand := instanceCommandInfo ⟨"", 0, ⟨0, 0, 0, 0⟩⟩ submitNormal 0 0

/-- The sandbox after `init`. -/
def init : BatchCommandSandbox where
  scheduleWorkFlag := false
  deinitialized := false
  commandSequenceId := 0
  defaultStickyCommand := none
  currentExecutingCommand := none
  stackRunCmdOp := []
  stackWaitCmdOp := []
  commandSubmittedQueue := []
  commandStack := []
  acquireHandlerFunctor := none
  correlationHandlerFunctor := none
  endHandlerFunctor := none
  lastCmdStepStartUsec := 0
  cmdStat := ⟨0, 0⟩
  commands := fun _ => noCommand
  enqueuing := 0
  checker := .idle
  events := []

/-- Call the event handler. -/
@[simps] def emit (s : BatchCommandSandbox) (type : BatchCommandEventType) (c : CommandRef)
    (fault : Option FaultDescription) : BatchCommandSandbox :=
  { s with events := s.events ++ [⟨c, type, fault, s.cmdStat⟩] }

/-- Write to a command object. -/
@[simps] def update (s : BatchCommandSandbox) (c : CommandRef) (f : BatchCommand → BatchCommand) :
    BatchCommandSandbox :=
  { s with commands := Function.update s.commands c (f (s.commands c)) }

/-- Move the checker thread. -/
@[simps] def goto (s : BatchCommandSandbox) (point : CheckerPoint) : BatchCommandSandbox :=
  { s with checker := point }

/-- `current_executing_command.reset()`. -/
@[simps] def resetCurrent (s : BatchCommandSandbox) : BatchCommandSandbox :=
  { s with currentExecutingCommand := none }

/-- `command_submitted_queue.pop()` with the refresh of the statistics. -/
@[simps] def popSubmitted (s : BatchCommandSandbox) (first : PriorityQueuedElement) :
    BatchCommandSandbox :=
  { s with
    commandSubmittedQueue := s.commandSubmittedQueue.pop first
    cmdStat := { s.cmdStat with
      queuedCommands := (s.commandSubmittedQueue.pop first).length % 2 ^ 32 } }

/-- `command_stack.pop()` with the refresh of the statistics; `rest` is what remains. -/
@[simps] def popStack (s : BatchCommandSandbox) (rest : List CommandRef) : BatchCommandSandbox :=
  { s with
    commandStack := rest
    cmdStat := { s.cmdStat with stackedCommands := rest.length % 2 ^ 32 } }

/-- The next reference, stored with the 64-bit identifier derived from it. -/
@[simps] def addCommandID (s : BatchCommandSandbox) (command : BatchCommand) :
    BatchCommandSandbox :=
  { s with
    commandSequenceId := s.commandSequenceId + 1
    commands := Function.update s.commands (s.commandSequenceId + 1)
      { command with uniqueId := (s.commandSequenceId + 1) % 2 ^ 64 } }

/-! ### Handlers -/

/-- `installHandler` on a command. The running event precedes the set handler. -/
@[simps] def installHandler (s : BatchCommandSandbox) (next : CommandRef) (now : Nat)
    (setOutcome : HandlerOutcome) : BatchCommandSandbox :=
  { (s.emit .running next none).update next (·.setUp now setOutcome) with
    acquireHandlerFunctor :=
      if (s.commands next).implements htAcquisition then some next else s.acquireHandlerFunctor
    correlationHandlerFunctor :=
      if (s.commands next).implements htCorrelation then some next
      else s.correlationHandlerFunctor
    endHandlerFunctor := some next
    currentExecutingCommand := some next }

/-- `installHandler` on the null pointer. -/
@[simps] def uninstallHandlers (s : BatchCommandSandbox) : BatchCommandSandbox :=
  { s with
    currentExecutingCommand := none
    acquireHandlerFunctor := none
    correlationHandlerFunctor := none
    endHandlerFunctor := none }

/-- A functor that points to `c` is cleared when the class of `c` has that handler. -/
def clearFunctor (s : BatchCommandSandbox) (c : CommandRef) (handler : Nat)
    (functor : Option CommandRef) : Option CommandRef :=
  if (s.commands c).implements handler ∧ functor = some c then none else functor

/-- `removeHandler`. An exception that escapes `endHandler` ends the process, so the
call only has an effect on its own command. -/
@[simps] def removeHandler (s : BatchCommandSandbox) (c : CommandRef)
    (endOutcome : HandlerOutcome) : BatchCommandSandbox :=
  { s.update c (·.callHandler endOutcome) with
    acquireHandlerFunctor :=
      -- A class with at most the set handler leaves the function here.
      if (s.commands c).implementedHandler ≤ 1 then s.acquireHandlerFunctor
      else s.clearFunctor c htAcquisition s.acquireHandlerFunctor
    correlationHandlerFunctor :=
      if (s.commands c).implementedHandler ≤ 1 then s.correlationHandlerFunctor
      else s.clearFunctor c htCorrelation s.correlationHandlerFunctor }

/-! ### Callers -/

/-- The critical section of `enqueueCommand`. -/
def submit (s : BatchCommandSandbox) (command : BatchCommand) (priority : Nat) :
    BatchCommandSandbox :=
  let s := s.addCommandID command
  let c := s.commandSequenceId
  let s := s.emit .queued c none
  { s with
    commandSubmittedQueue :=
      s.commandSubmittedQueue ++ [⟨(s.commands c).uniqueId, Int.bmod priority (2 ^ 32), c⟩]
    enqueuing := s.enqueuing + 1 }

/-- `enqueueCommand` up to the release of the queue mutex. -/
def enqueueCommand (s : BatchCommandSandbox) (command : BatchCommand) (priority : Nat) :
    BatchCommandSandbox :=
  if s.deinitialized then s else s.submit command priority

/-- The refresh of the statistics after the queue mutex has been released. The size of the queue
is read without the mutex, so another step may come between the read and the write. -/
def enqueueDone (s : BatchCommandSandbox) (size : Nat) : Option BatchCommandSandbox :=
  if s.enqueuing = 0 then none
  else some { s with
    enqueuing := s.enqueuing - 1
    cmdStat := { s.cmdStat with queuedCommands := size % 2 ^ 32 } }

@[simps] def killCurrentCommand (s : BatchCommandSandbox) : BatchCommandSandbox :=
  { s with stackRunCmdOp := .rcfoTerminate :: s.stackRunCmdOp }

@[simps] def clearCommandQueue (s : BatchCommandSandbox) : BatchCommandSandbox :=
  { s with stackWaitCmdOp := .wcfoClearQueue :: s.stackWaitCmdOp }

/-- A write to the features of the current command, under its mutex. -/
def updateCurrentFeatures (s : BatchCommandSandbox) (f : Features → Features) :
    Option BatchCommandSandbox :=
  if s.checker.holdsCurrent then none
  else match s.currentExecutingCommand with
    | some c => some (s.update c fun command =>
        { command with commandFeatures := f command.commandFeatures })
    | none => some s

def setCurrentCommandFeatures (s : BatchCommandSandbox) (features : Features) :
    Option BatchCommandSandbox :=
  s.updateCurrentFeatures fun current => { current with
    featuresFlag := current.featuresFlag ||| features.featuresFlag
    featureSchedulerStepsDelay := features.featureSchedulerStepsDelay }

def setCurrentCommandScheduerStepDelay (s : BatchCommandSandbox) (schedulerStepDelay : Nat) :
    Option BatchCommandSandbox :=
  s.updateCurrentFeatures fun current =>
    { current with featureSchedulerStepsDelay := schedulerStepDelay }

/-- `setDefaultStickyCommand` on an instance that the executor has made without
submission data. The executor refuses the call while it is started. -/
def setDefaultStickyCommand (s : BatchCommandSandbox) (description : CommandClass) :
    Option BatchCommandSandbox :=
  if s.scheduleWorkFlag then none
  else
    -- `reset` releases the old default command; nothing is done about the functors.
    let command := instanceCommandInfo description submitNormal 1000000 1000000
    let s := s.addCommandID { command with sticky := true }
    some { s with defaultStickyCommand := some s.commandSequenceId }

def start (s : BatchCommandSandbox) : Option BatchCommandSandbox :=
  if s.scheduleWorkFlag ∨ s.deinitialized then none
  else some { s with scheduleWorkFlag := true, lastCmdStepStartUsec := 0 }

/-- `stop` up to the end of the two joins. The steps that a thread takes after the flag
is lowered and before it ends are steps it can take with the flag raised. -/
def stop (s : BatchCommandSandbox) : Option BatchCommandSandbox :=
  if s.scheduleWorkFlag ∧ s.checker = .idle then some { s with scheduleWorkFlag := false }
  else none

/-! ### Emptying the queue and the stack -/

/-- The loop that pops every waiting command and reports it; `n` bounds the number of
rounds and is the length of the queue at both call sites. -/
def drainSubmittedQueue (type : BatchCommandEventType) :
    Nat → BatchCommandSandbox → BatchCommandSandbox
  | 0, s => s
  | n + 1, s =>
      match s.commandSubmittedQueue.top with
      | none => s
      -- The statistics are refreshed before the event is reported.
      | some first =>
          drainSubmittedQueue type n ((s.popSubmitted first).emit type first.element none)

/-- The loop of `deinit` over the stack. -/
def killStack : List CommandRef → BatchCommandSandbox → BatchCommandSandbox
  | [], s => s
  | c :: rest, s =>
      killStack rest ((s.popStack rest).emit .killed c none)

/-- `consumeWaitCmdOps` once the try-lock has succeeded. -/
def consumeWaitCmdOps : List WaitingCommandFunctionOpcode → BatchCommandSandbox →
    BatchCommandSandbox
  | [], s => s
  | .wcfoClearQueue :: rest, s =>
      let s := drainSubmittedQueue .dequeue s.commandSubmittedQueue.length s
      consumeWaitCmdOps rest { s with stackWaitCmdOp := rest }

/-- The first part of `deinit`: a current command that is not sticky is killed. -/
def killCurrent (s : BatchCommandSandbox) : BatchCommandSandbox :=
  match s.currentExecutingCommand with
  | some c =>
      if (s.commands c).sticky then s
      else (s.emit .killed c none).resetCurrent
  | none => s

/-- `deinit`, called on a stopped sandbox. -/
def deinit (s : BatchCommandSandbox) : Option BatchCommandSandbox :=
  if s.scheduleWorkFlag ∨ s.deinitialized then none
  else
    let s := s.killCurrent
    let s := killStack s.commandStack s
    let s := drainSubmittedQueue .killed s.commandSubmittedQueue.length s
    some { s with
      acquireHandlerFunctor := none
      correlationHandlerFunctor := none
      deinitialized := true }

/-! ### The checker thread -/

/-- The head of the loop, under the queue mutex. `ownsLock` tells whether the try-lock on
the opcode stack succeeded. -/
def checkQueue (s : BatchCommandSandbox) (ownsLock : Bool) : Option BatchCommandSandbox :=
  if s.scheduleWorkFlag ∧ s.checker = .idle then
    let s := if ownsLock then consumeWaitCmdOps s.stackWaitCmdOp s else s
    some (s.goto (.queueChecked s.commandSubmittedQueue.isEmpty))
  else none

/-- The value the switch of the loop is made on. What stands behind the table is not
known: `adjacent` is the enumerator read there. -/
def currentCheckValue (s : BatchCommandSandbox) (c next : CommandRef)
    (adjacent : RunningVSSubmissionResult) : RunningVSSubmissionResult :=
  let value := (checkRunningVsSubmission (s.commands c).runningProperty
    (s.commands next).submissionRule).getD adjacent
  if value = .noChange ∧ (s.commands c).sticky then .stackCurrentCommand else value

/-- The queue was not empty and there is a current command: the part of the switch that
holds both mutexes. -/
def compareWithCurrent (s : BatchCommandSandbox) (adjacent : RunningVSSubmissionResult) :
    Option BatchCommandSandbox :=
  match s.checker, s.currentExecutingCommand, s.commandSubmittedQueue.top with
  | .queueChecked false, some c, some first =>
      let close (type : BatchCommandEventType) (fault : Option FaultDescription) :=
        ((s.emit type c fault).popSubmitted first).goto (.replacing first.element)
      match s.currentCheckValue c first.element adjacent with
      | .noChange | .timedRetry => some (s.goto .idle)
      | .stackCurrentCommand => some ((s.popSubmitted first).goto (.stacking first.element))
      | .killCurrentCommand => some (close .killed none)
      | .currentCmdHasEnded => some (close .completed none)
      | .currentCmdHasFaulted => some (close .fault (some (s.commands c).faultDescription))
  | _, _, _ => none

/-- The rest of the switch, under the mutex of the current command only. -/
def finishSwitch (s : BatchCommandSandbox) (now : Nat) (setOutcome endOutcome : HandlerOutcome) :
    Option BatchCommandSandbox :=
  match s.checker, s.currentExecutingCommand with
  | .stacking next, some c =>
      -- A sticky command is reported as paused but not kept on the stack.
      let s := if (s.commands c).sticky then s else { s with commandStack := c :: s.commandStack }
      some (((s.emit .paused c none).installHandler next now setOutcome).goto .idle)
  | .replacing next, some c =>
      some (((s.removeHandler c endOutcome).installHandler next now setOutcome).goto .idle)
  | _, _ => none

/-- The queue was not empty and there is no current command. -/
def installFirst (s : BatchCommandSandbox) (now : Nat) (setOutcome : HandlerOutcome) :
    Option BatchCommandSandbox :=
  match s.checker, s.currentExecutingCommand, s.commandSubmittedQueue.top with
  | .queueChecked false, none, some first =>
      -- This branch does not take `mutext_access_current_command`.
      some (((s.installHandler first.element now setOutcome).popSubmitted first).goto .idle)
  | _, _, _ => none

/-- The queue was empty: the test of the running property, which holds no mutex. -/
def checkEnded (s : BatchCommandSandbox) : Option BatchCommandSandbox :=
  match s.checker, s.currentExecutingCommand with
  | .queueChecked true, some c =>
      if rpEnd ≤ (s.commands c).runningProperty then some (s.goto .ending)
      else some (s.goto .stickyCheck)
  | .queueChecked true, none => some (s.goto .stickyCheck)
  | _, _ => none

/-- The event chosen by the switch over the property of an ended command. The switch has no
default case. -/
def endEvents (s : BatchCommandSandbox) (c : CommandRef) : List CommandEvent :=
  match (s.commands c).runningProperty with
  | 2 => [⟨c, .completed, none, s.cmdStat⟩]
  | 3 => [⟨c, .fault, some (s.commands c).faultDescription, s.cmdStat⟩]
  | 4 => [⟨c, .fatalFault, some (s.commands c).faultDescription, s.cmdStat⟩]
  | _ => []

/-- Report the end of a command. -/
@[simps] def reportEnd (s : BatchCommandSandbox) (c : CommandRef) : BatchCommandSandbox :=
  { s with events := s.events ++ s.endEvents c }

/-- The branch entered after `checkEnded` has found the command ended. The switch of
`reportEnd` reads the running property again, now under the mutex. -/
def endCurrent (s : BatchCommandSandbox) (now : Nat) (setOutcome endOutcome : HandlerOutcome) :
    Option BatchCommandSandbox :=
  match s.checker, s.currentExecutingCommand with
  | .ending, some c =>
      let s := s.resetCurrent.reportEnd c
      -- With a stacked command the ended one is removed even when it is sticky.
      match s.commandStack with
      | next :: rest =>
          let s := (s.removeHandler c endOutcome).installHandler next now setOutcome
          some ((s.popStack rest).goto .stickyCheck)
      | [] =>
          if (s.commands c).sticky then some (s.goto .stickyCheck)
          else some ((s.removeHandler c endOutcome).uninstallHandlers.goto .stickyCheck)
  | _, _ => none

/-- The last lines of the loop. -/
def installSticky (s : BatchCommandSandbox) (now : Nat) (setOutcome : HandlerOutcome) :
    Option BatchCommandSandbox :=
  match s.checker with
  | .stickyCheck =>
      match s.currentExecutingCommand, s.defaultStickyCommand with
      | none, some d =>
          if (s.commands d).sticky then
            let s := s.update d fun command => { command with alreadySetupped := false }
            some ((s.installHandler d now setOutcome).goto .idle)
          else some (s.goto .idle)
      | _, _ => some (s.goto .idle)
  | _ => none

/-! ### The scheduler thread -/

/-- `consumeRunCmdOps` once the try-lock has succeeded. -/
def consumeRunCmdOps (c : CommandRef) :
    List RunningCommandFunctionOpcode → BatchCommandSandbox → BatchCommandSandbox
  | [], s => s
  | .rcfoTerminate :: rest, s =>
      let s := if (s.commands c).sticky then s else s.update c (·.setRunningProperty rpEnd)
      consumeRunCmdOps c rest { s with stackRunCmdOp := rest }

/-- A functor call: nothing happens on the null pointer. -/
def callFunctor (s : BatchCommandSandbox) (functor : Option CommandRef)
    (f : BatchCommand → BatchCommand) : BatchCommandSandbox :=
  match functor with
  | some c => s.update c f
  | none => s

/-- One round on the current command `c`: pending opcodes, the two functors, then
`commandPost`. -/
def runCurrent (s : BatchCommandSandbox) (c : CommandRef) (ownsLock : Bool) (now : Nat)
    (acquireOutcome correlationOutcome : HandlerOutcome) (timeoutOutcome : TimeoutOutcome) :
    BatchCommandSandbox :=
  let s := if ownsLock then consumeRunCmdOps c s.stackRunCmdOp s else s
  let s := { s with lastCmdStepStartUsec := now }
  -- The functors may point to a command that was interrupted, not to `c`.
  let s := s.callFunctor s.acquireHandlerFunctor (·.acquireFunctor acquireOutcome)
  let s := s.callFunctor s.correlationHandlerFunctor (·.correlationFunctor correlationOutcome)
  s.update c (·.commandPost now timeoutOutcome)

/-- The part of one round of `runCommand` that holds the mutex of the current command. -/
def runCommand (s : BatchCommandSandbox) (ownsLock : Bool) (now : Nat)
    (acquireOutcome correlationOutcome : HandlerOutcome) (timeoutOutcome : TimeoutOutcome) :
    Option BatchCommandSandbox :=
  if s.scheduleWorkFlag ∧ s.checker.holdsCurrent = false then
    -- What follows the mutex reports nothing: the body of `EndFunctor` is commented out.
    match s.currentExecutingCommand with
    | some c =>
        some (s.runCurrent c ownsLock now acquireOutcome correlationOutcome timeoutOutcome)
    | none => some { s with lastCmdStepStartUsec := 0 }
  else none

/-! ### Steps -/

/-- What can happen next: a call, or a step of one of the two threads. User handlers, the
clock and the try-locks are inputs. -/
inductive Action
  | setDefaultStickyCommand (description : CommandClass)
  | start
  | stop
  | deinit
  | enqueueCommand (description : CommandClass)
      (submissionRule submissionRetryDelay schedulerStepDelay priority : Nat)
  | enqueueDone (size : Nat)
  | killCurrentCommand
  | clearCommandQueue
  | setCurrentCommandFeatures (features : Features)
  | setCurrentCommandScheduerStepDelay (schedulerStepDelay : Nat)
  | checkQueue (ownsLock : Bool)
  | compareWithCurrent (adjacent : RunningVSSubmissionResult)
  | finishSwitch (now : Nat) (setOutcome endOutcome : HandlerOutcome)
  | installFirst (now : Nat) (setOutcome : HandlerOutcome)
  | checkEnded
  | endCurrent (now : Nat) (setOutcome endOutcome : HandlerOutcome)
  | installSticky (now : Nat) (setOutcome : HandlerOutcome)
  | runCommand (ownsLock : Bool) (now : Nat)
      (acquireOutcome correlationOutcome : HandlerOutcome) (timeoutOutcome : TimeoutOutcome)
  deriving DecidableEq, Repr

/-- One step at mutex granularity. -/
def step (s : BatchCommandSandbox) : Action → Option BatchCommandSandbox
  | .setDefaultStickyCommand description => s.setDefaultStickyCommand description
  | .start => s.start
  | .stop => s.stop
  | .deinit => s.deinit
  | .enqueueCommand description submissionRule submissionRetryDelay schedulerStepDelay priority =>
      some (s.enqueueCommand
        (instanceCommandInfo description submissionRule submissionRetryDelay schedulerStepDelay)
        priority)
  | .enqueueDone size => s.enqueueDone size
  | .killCurrentCommand => some s.killCurrentCommand
  | .clearCommandQueue => some s.clearCommandQueue
  | .setCurrentCommandFeatures features => s.setCurrentCommandFeatures features
  | .setCurrentCommandScheduerStepDelay schedulerStepDelay =>
      s.setCurrentCommandScheduerStepDelay schedulerStepDelay
  | .checkQueue ownsLock => s.checkQueue ownsLock
  | .compareWithCurrent adjacent => s.compareWithCurrent adjacent
  | .finishSwitch now setOutcome endOutcome => s.finishSwitch now setOutcome endOutcome
  | .installFirst now setOutcome => s.installFirst now setOutcome
  | .checkEnded => s.checkEnded
  | .endCurrent now setOutcome endOutcome => s.endCurrent now setOutcome endOutcome
  | .installSticky now setOutcome => s.installSticky now setOutcome
  | .runCommand ownsLock now acquireOutcome correlationOutcome timeoutOutcome =>
      s.runCommand ownsLock now acquireOutcome correlationOutcome timeoutOutcome

end BatchCommandSandbox

end ChaosFramework.Batch
