import ChaosFramework.Batch.Command
import ChaosFramework.Transition
import Mathlib.Data.List.Count

/-!
# The parallel sandbox

One worker thread serves all its commands in turn. An iteration walks over `execution_command_list`,
gives every command that is due one step, and then empties the submission queue, running the set
handler of each new command. Whether a command stays is decided by the handler mask and the running
property, whether its end is reported by a separate switch over the running property. `Concludes`
says when the two agree.

Submissions interleave with the walk but not with the emptying of the queue, which is done under the
queue lock. An exception that leaves an end handler ends the process, so no step is enabled there.
-/

namespace ChaosFramework.Batch

open RunningPropertyType SubmissionRuleType HandlerType Transition List Option Function

/-- `RunningCommandStat`: a command with the time of its next step. -/
structure RunningCommandStat where
  command : CommandRef
  nextExecTimestamp : Nat
  deriving DecidableEq, Repr

namespace RunningCommandStat

def canRun (stat : RunningCommandStat) (currentTs : Nat) : Bool :=
  stat.nextExecTimestamp ≤ currentTs

def computeNextRun (stat : RunningCommandStat) (schedulerStepsDelay currentTs : Nat) :
    RunningCommandStat :=
  { stat with nextExecTimestamp := (currentTs + schedulerStepsDelay) % 2 ^ 64 }

end RunningCommandStat

/-- What the clock and the user code decide in one call of `processCommand`. -/
structure ProcessOutcome where
  stepStart : Nat
  setTime : Nat
  stepEnd : Nat
  setOutcome : HandlerOutcome
  acquireOutcome : HandlerOutcome
  correlationOutcome : HandlerOutcome
  timeoutOutcome : TimeoutOutcome
  endOutcome : HandlerOutcome
  deriving DecidableEq, Repr

namespace BatchCommand

/-- The `try` block of `processCommand` with its catch clauses: the command afterwards and
the value of `result`. -/
def callHandlers (c : BatchCommand) (setHandlerCall : Bool) (outcome : ProcessOutcome) :
    BatchCommand × Bool :=
  if setHandlerCall then
    let called := (c.startHandler outcome.setTime).callHandler outcome.setOutcome
    match outcome.setOutcome.raised with
    | none =>
        ({ called with alreadySetupped := true },
          c.implements htAcquisition || c.implements htCorrelation)
    | some raised => (called.catchException "Set Handler" raised, false)
  else if c.runningProperty < rpEnd then
    let acquired := c.callHandler outcome.acquireOutcome
    match outcome.acquireOutcome.raised with
    | some raised => (acquired.catchException "Set Handler" raised, false)
    | none =>
        let correlated := acquired.callHandler outcome.correlationOutcome
        match outcome.correlationOutcome.raised with
        | some raised => (correlated.catchException "Set Handler" raised, false)
        | none =>
            let posted := correlated.commandPost outcome.stepStart outcome.timeoutOutcome
            (posted, posted.runningProperty == rpExsc || posted.runningProperty == rpNormal)
  else (c, false)

/-- The event that the switch over the running property reports. -/
def closingEvent (c : BatchCommand) : Option BatchCommandEventType :=
  if c.runningProperty = rpFault then some .fault
  else if c.runningProperty = rpFatalFault then some .fatalFault
  else if c.runningProperty = rpEnd then some .completed
  else none

variable {c : BatchCommand}

theorem closingEvent_isSome (ended : rpEnd ≤ c.runningProperty)
    (hk : c.runningProperty ≤ rpFatalFault) : c.closingEvent.isSome := by
  simp only [rpEnd, rpFatalFault] at ended hk
  unfold closingEvent
  interval_cases c.runningProperty <;> rfl

theorem closingEvent_eq {type : BatchCommandEventType} (hc : c.closingEvent = some type) :
    type = .completed ∨ type = .fault ∨ type = .fatalFault := by
  unfold closingEvent at hc
  split_ifs at hc <;> cases hc
  · exact .inr (.inl rfl)
  · exact .inr (.inr rfl)
  · exact .inl rfl

@[simp] theorem callHandlers_fixedPart (call : Bool) (out : ProcessOutcome) :
    (c.callHandlers call out).1.fixedPart = c.fixedPart := by
  unfold callHandlers
  split
  · cases out.setOutcome.raised with
    | none => exact callHandler_fixedPart _
    | some raised =>
      exact ((callHandler_handled _).trans (catchException_handled _ raised)).fixedPart
  split
  · have acquired := callHandler_handled (c := c) out.acquireOutcome
    have correlated := acquired.trans (callHandler_handled out.correlationOutcome)
    cases out.acquireOutcome.raised with
    | some raised => exact (acquired.trans (catchException_handled _ raised)).fixedPart
    | none =>
      cases out.correlationOutcome.raised with
      | none => exact (correlated.trans (commandPost_handled _ _)).fixedPart
      | some raised => exact (correlated.trans (catchException_handled _ raised)).fixedPart
  · rfl

end BatchCommand

/-- Every value that a handler gives to the running property is one of the five
constants. -/
def ProcessOutcome.Known (outcome : ProcessOutcome) : Prop :=
  ∀ called ∈ [outcome.setOutcome, outcome.acquireOutcome, outcome.correlationOutcome,
      outcome.timeoutOutcome.toHandlerOutcome, outcome.endOutcome],
    called.Leaves (· ≤ rpFatalFault)

instance (outcome : ProcessOutcome) : Decidable outcome.Known :=
  inferInstanceAs (Decidable (∀ _ ∈ _, _))

/-- The class has a handler for the steps after the set handler, or the set handler ends
the command, by raising or by setting an ended property. -/
def BatchCommand.Concludes (c : BatchCommand) (setOutcome : HandlerOutcome) : Prop :=
  c.implements htAcquisition ∨ c.implements htCorrelation ∨ setOutcome.raised.isSome ∨
    setOutcome.property.any (fun property => rpEnd ≤ property % 256)

instance (c : BatchCommand) (setOutcome : HandlerOutcome) : Decidable (c.Concludes setOutcome) :=
  inferInstanceAs (Decidable (_ ∨ _))

namespace BatchCommand

variable {c : BatchCommand} {call : Bool} {out : ProcessOutcome}

theorem callHandlers_known (call : Bool) (hk : out.Known) (hb : c.runningProperty ≤ rpFatalFault) :
    (c.callHandlers call out).1.runningProperty ≤ rpFatalFault := by
  simp only [ProcessOutcome.Known, forall_mem_cons] at hk
  obtain ⟨set, ha, correlate, timeout, -, -⟩ := hk
  -- Each handler starts from what the one before it has left.
  have acquired := callHandler_leaves ha hb
  have correlated := callHandler_leaves correlate acquired
  unfold callHandlers
  split
  · cases ht : out.setOutcome.raised with
    | none => exact callHandler_leaves set hb
    | some raised => exact catchException_leaves (Q := (· ≤ rpFatalFault)) (set.2 raised ht)
  split
  · cases ht : out.acquireOutcome.raised with
    | some raised =>
      exact catchException_leaves (Q := (· ≤ rpFatalFault)) (ha.2 raised ht)
    | none =>
      cases ht : out.correlationOutcome.raised with
      | some raised =>
        exact catchException_leaves (Q := (· ≤ rpFatalFault)) (correlate.2 raised ht)
      | none =>
        -- `commandPost` is reached only when neither handler has raised.
        exact commandPost_leaves (Q := (· ≤ rpFatalFault)) timeout.1 (by decide) correlated
  · exact hb

theorem closingEvent_catchException (dom : String) (raised : HandlerException) :
    (c.catchException dom raised).closingEvent ≠ none := by
  cases raised <;> simp [catchException, setNamedFault, setRunningProperty, closingEvent]

theorem closingEvent_ne_none (ended : rpEnd ≤ c.runningProperty)
    (hk : c.runningProperty ≤ rpFatalFault) : c.closingEvent ≠ none :=
  isSome_iff_ne_none.mp (closingEvent_isSome ended hk)

/-- **The flag and the switch agree.** Under the two conditions a command that the switch
does not report is kept. -/
theorem callHandlers_agree (hk : out.Known) (hb : c.runningProperty ≤ rpFatalFault)
    (concludes : call = true → c.Concludes out.setOutcome)
    (hs : (c.callHandlers call out).1.closingEvent = none) :
    (c.callHandlers call out).2 = true := by
  have after := callHandlers_known call hk hb
  unfold callHandlers at hs after ⊢
  split at hs
  next set =>
    rw [if_pos set] at after ⊢
    cases ht : out.setOutcome.raised with
    | some raised =>
      rw [ht] at hs
      exact absurd hs (closingEvent_catchException _ raised)
    | none =>
      rw [ht] at hs after
      rcases concludes set with acquires | correlates | raises | ends
      · simp [acquires]
      · simp [correlates]
      · rw [ht] at raises
        cases raises
      · obtain ⟨property, hw, ended⟩ := (Option.any_eq_true ..).mp ends
        refine absurd hs (closingEvent_ne_none ?_ after)
        simpa [callHandler, hw, setRunningProperty] using of_decide_eq_true ended
  next walk =>
    rw [if_neg walk] at after ⊢
    split at hs
    next running =>
      rw [if_pos running] at after ⊢
      cases ht : out.acquireOutcome.raised with
      | some raised =>
        rw [ht] at hs
        exact absurd hs (closingEvent_catchException _ raised)
      | none =>
        rw [ht] at hs after
        cases ht : out.correlationOutcome.raised with
        | some raised =>
          rw [ht] at hs
          exact absurd hs (closingEvent_catchException _ raised)
        | none =>
          rw [ht] at hs after
          -- The flag looks for the two values below the ended ones.
          have below := Nat.lt_of_not_le fun ended => closingEvent_ne_none ended after hs
          simp only [rpEnd] at below
          simp only [rpExsc, rpNormal, Bool.or_eq_true, beq_iff_eq]
          omega
    next stopped =>
      exact absurd hs (closingEvent_ne_none (Nat.le_of_not_lt stopped) hb)

end BatchCommand

/-! ### State -/

/-- The sandbox and its worker thread. The execution list is split at the iterator of the
walk; between two walks everything is before it. -/
structure BatchCommandParallelSandbox where
  threadRun : Bool
  commandSequenceId : Nat
  visited : List RunningCommandStat
  toVisit : List RunningCommandStat
  submitionCommandQueue : List RunningCommandStat
  cmdStat : BatchCommandStat
  commands : CommandRef → BatchCommand
  /-- The variable `current_ts` of the worker. -/
  currentTs : Nat
  /-- The worker is inside an iteration. -/
  iterating : Bool
  /-- Every event reported so far, oldest first. -/
  events : List CommandEvent
  /-- Every call of an `endHandler` that has returned. -/
  endHandlerCalls : List CommandRef

namespace BatchCommandParallelSandbox

/-- The sandbox after its construction. -/
def init : BatchCommandParallelSandbox where
  threadRun := false
  commandSequenceId := 0
  visited := []
  toVisit := []
  submitionCommandQueue := []
  cmdStat := ⟨0, 0⟩
  commands := fun _ => instanceCommandInfo ⟨"", 0, ⟨0, 0, 0, 0⟩⟩ submitNormal 0 0
  currentTs := 0
  iterating := false
  events := []
  endHandlerCalls := []

def executionCommandList (s : BatchCommandParallelSandbox) : List RunningCommandStat :=
  s.visited ++ s.toVisit

/-- Call the event handler. The fault part of `command_info` is filled nowhere. -/
@[simps] def emit (s : BatchCommandParallelSandbox) (type : BatchCommandEventType)
    (c : CommandRef) : BatchCommandParallelSandbox :=
  { s with events := s.events ++ [⟨c, type, none, s.cmdStat⟩] }

/-- The next reference, stored with the 64-bit identifier derived from it. -/
@[simps] def addCommandID (s : BatchCommandParallelSandbox) (command : BatchCommand) :
    BatchCommandParallelSandbox :=
  { s with
    commandSequenceId := s.commandSequenceId + 1
    commands := update s.commands (s.commandSequenceId + 1)
      { command with uniqueId := (s.commandSequenceId + 1) % 2 ^ 64 } }

/-- `cmd_stat.queued_commands++` and `--` on a `uint32_t`. -/
@[simps] def countQueued (s : BatchCommandParallelSandbox) (change : Int) :
    BatchCommandParallelSandbox :=
  { s with cmdStat := { s.cmdStat with
      queuedCommands := (((s.cmdStat.queuedCommands : Int) + change) % 2 ^ 32).toNat } }

/-- `enqueueCommand`. The priority is ignored. -/
def enqueueCommand (s : BatchCommandParallelSandbox) (command : BatchCommand) :
    BatchCommandParallelSandbox :=
  let s := (s.countQueued 1).addCommandID command
  let c := s.commandSequenceId
  let s := s.emit .queued c
  { s with submitionCommandQueue := s.submitionCommandQueue ++ [⟨c, 0⟩] }

/-! ### The worker -/

/-- The command as the handlers have left it, and the new value of `current_ts`. -/
@[simps] def afterHandlers (s : BatchCommandParallelSandbox) (c : CommandRef)
    (command : BatchCommand) (now : Nat) : BatchCommandParallelSandbox :=
  { s with commands := update s.commands c command, currentTs := now }

/-- A branch of the final switch: the event, then `endHandler`. -/
@[simps] def close (s : BatchCommandParallelSandbox) (c : CommandRef)
    (type : BatchCommandEventType) (endOutcome : HandlerOutcome) :
    BatchCommandParallelSandbox :=
  { s with
    events := s.events ++ [⟨c, type, none, s.cmdStat⟩]
    commands := update s.commands c ((s.commands c).callHandler endOutcome)
    endHandlerCalls := s.endHandlerCalls ++ [c] }

/-- `processCommand`: the state, the rescheduled command and the returned flag. -/
def processCommand (s : BatchCommandParallelSandbox) (setHandlerCall : Bool)
    (stat : RunningCommandStat) (outcome : ProcessOutcome) :
    Option (BatchCommandParallelSandbox × RunningCommandStat × Bool) :=
  let c := stat.command
  let (command, result) := (s.commands c).callHandlers setHandlerCall outcome
  let s := s.afterHandlers c command outcome.stepEnd
  let finish (s : BatchCommandParallelSandbox) (result : Bool) :=
    (s, stat.computeNextRun (s.commands c).commandFeatures.featureSchedulerStepsDelay s.currentTs,
      result)
  match command.closingEvent with
  | none => some (finish s result)
  | some type =>
      if outcome.endOutcome.raised.isSome then none
      else some (finish (s.close c type outcome.endOutcome) false)

/-- The worker reads the clock and starts to walk over the execution list. -/
def beginIteration (s : BatchCommandParallelSandbox) (now : Nat) :
    Option BatchCommandParallelSandbox :=
  if s.threadRun ∧ s.iterating = false then
    some { s with
      iterating := true, currentTs := now, visited := [], toVisit := s.visited ++ s.toVisit }
  else none

/-- One round of the walk. -/
def visitCommand (s : BatchCommandParallelSandbox) (outcome : ProcessOutcome) :
    Option BatchCommandParallelSandbox :=
  match s.iterating, s.toVisit with
  | true, stat :: rest =>
      if stat.canRun s.currentTs then
        (s.processCommand false stat outcome).map fun (s, stat, result) =>
          { s with visited := if result then s.visited ++ [stat] else s.visited, toVisit := rest }
      else some { s with visited := s.visited ++ [stat], toVisit := rest }
  | _, _ => none

/-- One round of the loop that empties the submission queue, for its first element. -/
def admitCommand (s : BatchCommandParallelSandbox) (stat : RunningCommandStat)
    (rest : List RunningCommandStat) (outcome : ProcessOutcome) :
    Option BatchCommandParallelSandbox :=
  let s := (s.countQueued (-1)).emit .running stat.command
  (s.processCommand true stat outcome).map fun (s, stat, result) =>
    { s with
      visited := if result then s.visited ++ [stat] else s.visited
      submitionCommandQueue := rest }

/-- The loop that empties the submission queue. -/
def admitCommands (outcomes : CommandRef → ProcessOutcome) :
    List RunningCommandStat → BatchCommandParallelSandbox → Option BatchCommandParallelSandbox
  | [], s => some s
  | stat :: rest, s =>
      (s.admitCommand stat rest (outcomes stat.command)).bind (admitCommands outcomes rest)

/-- The second half of an iteration. -/
def endIteration (s : BatchCommandParallelSandbox) (outcomes : CommandRef → ProcessOutcome) :
    Option BatchCommandParallelSandbox :=
  if s.iterating ∧ s.toVisit = [] then
    (admitCommands outcomes s.submitionCommandQueue s).map fun s => { s with iterating := false }
  else none

/-! ### Transitions -/

/-- The steps of the sandbox. -/
inductive Action
  | start
  | stop
  | enqueueCommand (description : CommandClass)
      (submissionRule submissionRetryDelay schedulerStepDelay : Nat)
  | beginIteration (now : Nat)
  | visitCommand (outcome : ProcessOutcome)
  | endIteration (outcomes : CommandRef → ProcessOutcome)

/-- The transition function. `stop` joins the worker, which ends between two iterations. -/
def step (s : BatchCommandParallelSandbox) : Action → Option BatchCommandParallelSandbox
  | .start =>
      if s.threadRun = false ∧ s.iterating = false then some { s with threadRun := true } else none
  | .stop =>
      if s.threadRun ∧ s.iterating = false then some { s with threadRun := false } else none
  | .enqueueCommand description submissionRule submissionRetryDelay schedulerStepDelay =>
      some (s.enqueueCommand (instanceCommandInfo description submissionRule submissionRetryDelay
        schedulerStepDelay))
  | .beginIteration now => s.beginIteration now
  | .visitCommand outcome => s.visitCommand outcome
  | .endIteration outcomes => s.endIteration outcomes

/-! ### Where a command is -/

variable {s t : BatchCommandParallelSandbox} {c : CommandRef}

/-- How often a command waits in the submission queue. -/
def inQueue (s : BatchCommandParallelSandbox) (c : CommandRef) : Nat :=
  (s.submitionCommandQueue.map (·.command)).count c

/-- How often a command is in the execution list. -/
def inExecution (s : BatchCommandParallelSandbox) (c : CommandRef) : Nat :=
  (s.executionCommandList.map (·.command)).count c

/-- How often the end handler of a command has been called. -/
def ended (s : BatchCommandParallelSandbox) (c : CommandRef) : Nat := s.endHandlerCalls.count c

/-- The types of the events reported for a command, oldest first. -/
def history (s : BatchCommandParallelSandbox) (c : CommandRef) : List BatchCommandEventType :=
  historyOf s.events c

/-- The stages of a command. -/
inductive Stage
  | fresh
  | queued
  | executing
  | closed (last : BatchCommandEventType)
  deriving DecidableEq

/-- The events reported for a command that has reached a stage. -/
def Stage.word : Stage → List BatchCommandEventType
  | .fresh => []
  | .queued => [.queued]
  | .executing => [.queued, .running]
  | .closed last => [.queued, .running, last]

/-- How a command is closed, and how often its end handler has been called. -/
def Stage.Ends : Stage → Nat → Prop
  | .closed last, calls =>
      (last = .completed ∨ last = .fault ∨ last = .fatalFault) ∧ calls = 1
  | _, calls => calls = 0

/-- A command is found where its stage says, and has been reported and ended
accordingly. -/
structure Tracked (s : BatchCommandParallelSandbox) (c : CommandRef) (stage : Stage) : Prop where
  reported : s.history c = stage.word
  waiting : s.inQueue c = if stage = .queued then 1 else 0
  executing : s.inExecution c = if stage = .executing then 1 else 0
  closed : stage.Ends (s.ended c)

variable {stage : Stage} {stat next : RunningCommandStat} {out : ProcessOutcome}
  {cmd : BatchCommand} {call result : Bool} {outcomes : CommandRef → ProcessOutcome}
  {r : BatchCommandParallelSandbox} {rest : List RunningCommandStat}

/-- All that `Tracked` reads. -/
def account (s : BatchCommandParallelSandbox) (c : CommandRef) :
    List BatchCommandEventType × Nat × Nat × Nat :=
  (s.history c, s.inQueue c, s.inExecution c, s.ended c)

attribute [local simp] account history inQueue inExecution ended executionCommandList Stage.word
  enqueueCommand

theorem Tracked.of_account (tracked : s.Tracked c stage) (same : t.account c = s.account c) :
    t.Tracked c stage := by
  simp only [account, Prod.mk.injEq] at same
  obtain ⟨hr, hw, executing, ended⟩ := same
  refine ⟨hr ▸ tracked.reported, hw ▸ tracked.waiting, executing ▸ tracked.executing,
    ended ▸ tracked.closed⟩

theorem Tracked.queued_of_mem (tracked : s.Tracked c stage) (waits : 0 < s.inQueue c) :
    stage = .queued := by
  by_contra other
  rw [tracked.waiting, if_neg other] at waits
  exact absurd waits (Nat.lt_irrefl 0)

theorem Tracked.executing_of_mem (tracked : s.Tracked c stage) (he : 0 < s.inExecution c) :
    stage = .executing := by
  by_contra other
  rw [tracked.executing, if_neg other] at he
  exact absurd he (Nat.lt_irrefl 0)

/-- A step from `s` to `t` takes the command from a stage to a stage, and submits it
neither for the first time nor away. -/
def Follows (s t : BatchCommandParallelSandbox) (c : CommandRef) : Prop :=
  ∀ stage, s.Tracked c stage → ∃ later, t.Tracked c later ∧ (later = .fresh ↔ stage = .fresh)

theorem follows_of_account (same : t.account c = s.account c) : Follows s t c :=
  fun stage tracked => ⟨stage, tracked.of_account same, Iff.rfl⟩

theorem Follows.trans (first : Follows s t c) (second : Follows t r c) : Follows s r c := by
  intro stage tracked
  obtain ⟨mid, hr, same⟩ := first stage tracked
  obtain ⟨later, last, hs⟩ := second mid hr
  exact ⟨later, last, hs.trans same⟩

/-! ### What one call of `processCommand` does -/

/-- The two ways in which `processCommand` returns: it keeps a command that it has not
reported, or reports it, calls its end handler and gives it up. -/
inductive Processed (s : BatchCommandParallelSandbox) (c : CommandRef) (outcome : ProcessOutcome)
    (command : BatchCommand) : BatchCommandParallelSandbox → Bool → Prop
  | kept : Processed s c outcome command (s.afterHandlers c command outcome.stepEnd) true
  | closed (type : BatchCommandEventType)
      (known : type = .completed ∨ type = .fault ∨ type = .fatalFault) :
      Processed s c outcome command
        ((s.afterHandlers c command outcome.stepEnd).close c type outcome.endOutcome) false

theorem processCommand_cases {called : BatchCommand × Bool}
    (hh : (s.commands stat.command).callHandlers call out = called)
    (hp : s.processCommand call stat out = some (t, next, result)) :
    next.command = stat.command ∧
      (called.1.closingEvent = none ∧ result = called.2 ∧
          t = s.afterHandlers stat.command called.1 out.stepEnd ∨
        ∃ type, called.1.closingEvent = some type ∧ result = false ∧
          t = (s.afterHandlers stat.command called.1 out.stepEnd).close stat.command type
            out.endOutcome) := by
  unfold processCommand at hp
  dsimp only at hp
  rw [hh] at hp
  split at hp
  next silent =>
    obtain ⟨rfl, rfl, rfl⟩ := hp
    exact ⟨rfl, .inl ⟨silent, rfl, rfl⟩⟩
  next type closes =>
    split at hp
    -- An exception of the end handler leaves no state behind.
    next => cases hp
    next =>
      obtain ⟨rfl, rfl, rfl⟩ := hp
      exact ⟨rfl, .inr ⟨type, closes, rfl, rfl⟩⟩

theorem processCommand_processed (hk : out.Known)
    (hb : (s.commands stat.command).runningProperty ≤ rpFatalFault)
    (concludes : call = true → (s.commands stat.command).Concludes out.setOutcome)
    (hp : s.processCommand call stat out = some (t, next, result)) :
    next.command = stat.command ∧ Processed s stat.command out
      ((s.commands stat.command).callHandlers call out).1 t result := by
  obtain ⟨named, ⟨hs, rfl, rfl⟩ | ⟨type, hc, rfl, rfl⟩⟩ :=
    processCommand_cases rfl hp
  · rw [BatchCommand.callHandlers_agree hk hb concludes hs]
    exact ⟨named, .kept⟩
  · exact ⟨named, .closed type (BatchCommand.closingEvent_eq hc)⟩

/-- What user code can do to a command object: the constants stay known, the fixed part
stays as it is. -/
def KeepsCommands (s t : BatchCommandParallelSandbox) : Prop :=
  ∀ c, (t.commands c).fixedPart = (s.commands c).fixedPart ∧
    ((s.commands c).runningProperty ≤ rpFatalFault → (t.commands c).runningProperty ≤ rpFatalFault)

theorem keepsCommands_of_processed (hk : out.Known)
    (hp : Processed s c out
      ((s.commands c).callHandlers call out).1 t result) : KeepsCommands s t := by
  intro d
  obtain rfl | same := eq_or_ne d c
  · have hc : (s.commands d).runningProperty ≤ rpFatalFault →
        ((s.commands d).callHandlers call out).1.runningProperty ≤ rpFatalFault :=
      BatchCommand.callHandlers_known call hk
    cases hp with
    | kept => simpa using hc
    | closed type _ =>
      have ending : out.endOutcome.Leaves (· ≤ rpFatalFault) := hk _ (by simp)
      simp only [close_commands, afterHandlers_commands, update_self,
        BatchCommand.callHandler_fixedPart, BatchCommand.callHandlers_fixedPart, true_and]
      exact fun hb => BatchCommand.callHandler_leaves ending (hc hb)
  · cases hp <;> simp [same]

/-! ### One command along one step -/

/-- One round of the walk in which the command is processed. -/
theorem visit_follows (whole : s.toVisit = stat :: rest) (named : next.command = stat.command)
    (hp : Processed s stat.command out cmd t result) :
    Follows s { t with
      visited := if result then t.visited ++ [next] else t.visited, toVisit := rest } c := by
  cases hp with
  | kept =>
    exact follows_of_account (by simp [whole, named])
  | closed type hk =>
    intro stage tracked
    have executing := tracked.executing
    simp only [inExecution, executionCommandList, whole, map_append, map_cons,
      count_append, count_cons, beq_iff_eq] at executing
    -- The command is the one that is closed, or nothing about it changes.
    by_cases same : stat.command = c
    · obtain rfl : stage = .executing := tracked.executing_of_mem (by
        simp [whole, same])
      refine ⟨.closed type, ⟨?_, tracked.waiting, ?_, hk, ?_⟩, by simp⟩
      · have hr := tracked.reported
        simp_all
      · simp only [same] at executing
        simpa using (by omega : _ + _ = 0)
      · have ends : s.ended c = 0 := tracked.closed
        simp_all
    · refine ⟨stage, tracked.of_account ?_, Iff.rfl⟩
      simp [whole, same]

/-- One round of the loop that empties the queue. -/
theorem admit_follows
    (whole : s.submitionCommandQueue = stat :: rest) (named : next.command = stat.command)
    (hp : Processed ((s.countQueued (-1)).emit .running stat.command) stat.command out
      cmd t result) :
    Follows s { t with
      visited := if result then t.visited ++ [next] else t.visited
      submitionCommandQueue := rest } c := by
  intro stage tracked
  by_cases same : stat.command = c
  · obtain rfl : stage = .queued := tracked.queued_of_mem (by simp [whole, same])
    have hr := tracked.reported
    have waiting := tracked.waiting
    have executing := tracked.executing
    have ends : s.ended c = 0 := tracked.closed
    -- One round takes the command from queued to executing, or straight to closed.
    cases hp with
    | kept =>
      refine ⟨.executing, ⟨?_, ?_, ?_, ends⟩, by simp⟩
      · simp_all
      · simp_all
      · simp_all
    | closed type hk =>
      refine ⟨.closed type, ⟨?_, ?_, executing, hk, ?_⟩, by simp⟩
      · simp_all
      · simp_all
      · simp_all
  · refine ⟨stage, tracked.of_account ?_, Iff.rfl⟩
    cases hp <;>
      simp [whole, same, named]

/-- Steps in which the flag and the switch agree: handlers only set the five constants, and
every command that is admitted concludes. -/
def Conclusive (s : BatchCommandParallelSandbox) : Action → Prop
  | .visitCommand outcome => outcome.Known
  | .endIteration outcomes => ∀ stat ∈ s.submitionCommandQueue,
      (outcomes stat.command).Known ∧
        (s.commands stat.command).Concludes (outcomes stat.command).setOutcome
  | _ => True

instance (action : Action) : Decidable (s.Conclusive action) := by
  unfold Conclusive
  split <;> infer_instance

/-- What the worker keeps while it goes from `s` to `t`. -/
structure Serves (s t : BatchCommandParallelSandbox) : Prop where
  follows : ∀ c, Follows s t c
  commands : KeepsCommands s t
  sequence : t.commandSequenceId = s.commandSequenceId

theorem Serves.trans (first : Serves s t) (second : Serves t r) : Serves s r where
  follows c := (first.follows c).trans (second.follows c)
  commands c := ⟨(second.commands c).1.trans (first.commands c).1,
    fun hb => (second.commands c).2 ((first.commands c).2 hb)⟩
  sequence := second.sequence.trans first.sequence

theorem Processed.sequence (hp : Processed s c out cmd t result) :
    t.commandSequenceId = s.commandSequenceId := by
  cases hp <;> rfl

section

variable (hk : out.Known) (hb : ∀ c, (s.commands c).runningProperty ≤ rpFatalFault)

include hk hb

theorem visitCommand_serves (taken : s.visitCommand out = some t) : Serves s t := by
  unfold visitCommand at taken
  split at taken
  next stat rest iterating whole =>
    split at taken
    next =>
      obtain ⟨⟨r, next, result⟩, hp, rfl⟩ := map_eq_some_iff.mp taken
      obtain ⟨named, he⟩ :=
        processCommand_processed hk (hb stat.command) (by simp) hp
      have kept : KeepsCommands s r := keepsCommands_of_processed hk he
      exact ⟨fun c => visit_follows whole named he, kept, he.sequence⟩
    next =>
      cases taken
      exact ⟨fun c => follows_of_account (by simp [whole]), fun c => ⟨rfl, id⟩, rfl⟩
  next => cases taken

theorem admitCommand_serves (concludes : (s.commands stat.command).Concludes out.setOutcome)
    (whole : s.submitionCommandQueue = stat :: rest)
    (taken : s.admitCommand stat rest out = some t) :
    Serves s t ∧ t.submitionCommandQueue = rest := by
  obtain ⟨⟨r, next, result⟩, hp, rfl⟩ := map_eq_some_iff.mp taken
  obtain ⟨named, he⟩ := processCommand_processed
    (s := (s.countQueued (-1)).emit .running stat.command) hk (hb stat.command)
    (fun _ => concludes) hp
  have kept : KeepsCommands _ r := keepsCommands_of_processed hk he
  exact ⟨⟨fun c => admit_follows whole named he, kept, he.sequence⟩, rfl⟩

end

theorem concludes_of_fixedPart {c d : BatchCommand} {setOut : HandlerOutcome}
    (same : c.fixedPart = d.fixedPart) (concludes : d.Concludes setOut) :
    c.Concludes setOut := by
  unfold BatchCommand.Concludes at concludes ⊢
  rwa [BatchCommand.implements_of_fixedPart same, BatchCommand.implements_of_fixedPart same]

/-- The loop serves every command of the queue and leaves the queue empty. -/
theorem admitCommands_serves
    {queue : List RunningCommandStat} (whole : s.submitionCommandQueue = queue)
    (hb : ∀ c, (s.commands c).runningProperty ≤ rpFatalFault)
    (concludes : ∀ stat ∈ queue, (outcomes stat.command).Known ∧
      (s.commands stat.command).Concludes (outcomes stat.command).setOutcome)
    (taken : admitCommands outcomes queue s = some t) :
    Serves s t ∧ t.submitionCommandQueue = [] := by
  -- The conditions on the rest of the queue survive a round, since a round changes neither
  -- the mask of a class nor, beyond the constants, a running property.
  induction queue generalizing s with
  | nil =>
    cases taken
    exact ⟨⟨fun c => follows_of_account rfl, fun c => ⟨rfl, id⟩, rfl⟩, whole⟩
  | cons stat rest ih =>
    obtain ⟨mid, first, later⟩ := bind_eq_some_iff.mp taken
    obtain ⟨hk, concludesNow⟩ := concludes stat (mem_cons_self ..)
    obtain ⟨served, left⟩ := admitCommand_serves hk hb concludesNow whole first
    obtain ⟨servedLater, empty⟩ := ih left (fun c => (served.commands c).2 (hb c))
      (fun other hm => by
        obtain ⟨knownToo, hc⟩ := concludes other (mem_cons_of_mem stat hm)
        exact ⟨knownToo, concludes_of_fixedPart (served.commands _).1 hc⟩) later
    exact ⟨served.trans servedLater, empty⟩

theorem endIteration_serves (hb : ∀ c, (s.commands c).runningProperty ≤ rpFatalFault)
    (conclusive : s.Conclusive (.endIteration outcomes))
    (taken : s.endIteration outcomes = some t) :
    Serves s t ∧ t.submitionCommandQueue = [] := by
  unfold endIteration at taken
  split at taken
  next =>
    obtain ⟨r, ha, rfl⟩ := map_eq_some_iff.mp taken
    obtain ⟨served, empty⟩ := admitCommands_serves rfl hb conclusive ha
    exact ⟨served.trans ⟨fun c => follows_of_account rfl, fun c => ⟨rfl, id⟩, rfl⟩, empty⟩
  next => cases taken

/-! ### Runs -/

/-- Every command is at a stage, the ones that have been submitted past the first. -/
structure Custody (s : BatchCommandParallelSandbox) : Prop where
  tracked : ∀ c : Nat, ∃ stage, s.Tracked c stage ∧
    (stage = .fresh ↔ ¬ (0 < c ∧ c ≤ s.commandSequenceId))
  known : ∀ c, (s.commands c).runningProperty ≤ rpFatalFault

theorem Custody.serves (hc : s.Custody) (served : Serves s t) : t.Custody where
  tracked c := by
    obtain ⟨stage, tracked, hs⟩ := hc.tracked c
    obtain ⟨later, hr, same⟩ := served.follows c stage tracked
    exact ⟨later, hr, served.sequence ▸ same.trans hs⟩
  known c := (served.commands c).2 (hc.known c)

theorem custody_init : init.Custody where
  tracked c := by
    refine ⟨.fresh, ⟨rfl, rfl, rfl, rfl⟩, iff_of_true rfl ?_⟩
    simp only [init]
    omega
  known _ := show rpNormal ≤ rpFatalFault by decide

theorem Custody.enqueueCommand (hc : s.Custody)
    (normal : cmd.runningProperty = rpNormal) : (s.enqueueCommand cmd).Custody where
  tracked c := by
    obtain ⟨stage, tracked, hs⟩ := hc.tracked c
    obtain rfl | new := eq_or_ne c (s.commandSequenceId + 1)
    · -- A number above the counter belongs to no command yet.
      obtain rfl : stage = .fresh := hs.mpr (by omega)
      have hr := tracked.reported
      have waiting := tracked.waiting
      refine ⟨.queued, ⟨?_, ?_, tracked.executing, tracked.closed⟩, ?_⟩
      · simp_all
      · simp_all
      · simp
    · refine ⟨stage, tracked.of_account (by simp [Ne.symm new]), hs.trans ?_⟩
      simp only [BatchCommandParallelSandbox.enqueueCommand, emit_commandSequenceId,
        addCommandID_commandSequenceId, countQueued_commandSequenceId]
      omega
  known c := by
    simp only [BatchCommandParallelSandbox.enqueueCommand, emit_commands,
      addCommandID_commands, update_apply]
    split
    · exact normal ▸ (by decide)
    · exact hc.known c

theorem step_custody {act : Action} (hc : s.Custody) (conclusive : s.Conclusive act)
    (taken : s.step act = some t) : t.Custody := by
  cases act with
  | start | stop | beginIteration =>
    all_goals
      simp only [step, beginIteration, ite_none_right_eq_some, Option.some.injEq] at taken
      obtain ⟨-, rfl⟩ := taken
      refine hc.serves ⟨fun c => follows_of_account ?_, fun c => ⟨rfl, id⟩, rfl⟩
      simp
  | enqueueCommand =>
    cases taken
    exact hc.enqueueCommand rfl
  | visitCommand out =>
    exact hc.serves (visitCommand_serves conclusive hc.known taken)
  | endIteration outcomes =>
    exact hc.serves (endIteration_serves hc.known conclusive taken).1

theorem custody_of_run {acts : List Action} (conclusive : Admissible step Conclusive init acts)
    (run : execute step init acts = some s) : s.Custody :=
  conclusive.invariant step_custody custody_init run

/-- **Nothing leaves in silence.** In every run of conclusive steps a submitted command waits,
having been reported as queued, or executes, having been reported as running, or has left, having
got exactly one closing event and one call of its end handler. Every iteration reports all the
waiting commands as running. -/
theorem enqueued_command_reported (actions : List Action)
    (conclusive : Admissible step Conclusive init actions)
    (run : execute step init actions = some s) :
    (∀ c : Nat, 0 < c → c ≤ s.commandSequenceId →
      (s.inQueue c = 1 ∧ s.inExecution c = 0 ∧ s.history c = [.queued] ∧ s.ended c = 0) ∨
      (s.inQueue c = 0 ∧ s.inExecution c = 1 ∧ s.history c = [.queued, .running] ∧ s.ended c = 0) ∨
      (s.inQueue c = 0 ∧ s.inExecution c = 0 ∧ s.ended c = 1 ∧
        ∃ last, (last = .completed ∨ last = .fault ∨ last = .fatalFault) ∧
          s.history c = [.queued, .running, last])) ∧
    ∀ outcomes t, s.Conclusive (.endIteration outcomes) → s.step (.endIteration outcomes) = some t →
      ∀ c : Nat, 0 < c → c ≤ t.commandSequenceId → [.queued, .running] <+: t.history c := by
  have hc := custody_of_run conclusive run
  constructor
  · intro c hp hs
    obtain ⟨stage, tracked, hf⟩ := hc.tracked c
    cases stage with
    | fresh => exact absurd ⟨hp, hs⟩ (hf.mp rfl)
    | queued => exact .inl ⟨tracked.waiting, tracked.executing, tracked.reported, tracked.closed⟩
    | executing =>
      exact .inr (.inl ⟨tracked.waiting, tracked.executing, tracked.reported, tracked.closed⟩)
    | closed last =>
      exact .inr (.inr ⟨tracked.waiting, tracked.executing, tracked.closed.2, last,
        tracked.closed.1, tracked.reported⟩)
  · intro outcomes t concludes taken c hp hs
    -- The iteration ends with an empty queue, so no command is left in its first stage.
    obtain ⟨served, empty⟩ := endIteration_serves hc.known concludes taken
    obtain ⟨stage, tracked, hf⟩ := (hc.serves served).tracked c
    rw [tracked.reported]
    cases stage with
    | fresh => exact absurd ⟨hp, hs⟩ (hf.mp rfl)
    | queued =>
      have hw := tracked.waiting
      simp [empty] at hw
    | executing => exact prefix_refl _
    | closed last => exact ⟨[last], rfl⟩

/-- Handlers that return at once and change nothing. -/
def quietOutcome : ProcessOutcome :=
  ⟨10, 10, 20, .silent, .silent, .silent, .silent, .silent⟩

/-- One command is submitted and admitted, then given one step. -/
def servedRun (implementedHandler : Nat) (setOutcome acquireOutcome : HandlerOutcome) :
    List Action :=
  [.start, .enqueueCommand ⟨"served", implementedHandler, ⟨0, 0, 0, 0⟩⟩ submitNormal 0 0,
    .beginIteration 10,
    .endIteration fun _ => { quietOutcome with setOutcome := setOutcome },
    .beginIteration 30, .visitCommand { quietOutcome with acquireOutcome := acquireOutcome }]

/-- A command with an acquire handler that sets the ended property. -/
theorem enqueued_command_reported_completed :
    ∃ s, execute step init (servedRun 3 .silent ⟨some rpEnd, none, none⟩) = some s ∧
      s.history 1 = [.queued, .running, .completed] ∧
      ((s.inQueue 1 = 1 ∧ s.inExecution 1 = 0 ∧ s.history 1 = [.queued] ∧ s.ended 1 = 0) ∨
      (s.inQueue 1 = 0 ∧ s.inExecution 1 = 1 ∧ s.history 1 = [.queued, .running] ∧ s.ended 1 = 0) ∨
      (s.inQueue 1 = 0 ∧ s.inExecution 1 = 0 ∧ s.ended 1 = 1 ∧
        ∃ last, (last = .completed ∨ last = .fault ∨ last = .fatalFault) ∧
          s.history 1 = [.queued, .running, last])) := by
  refine ⟨_, rfl, by decide, ?_⟩
  exact (enqueued_command_reported (servedRun 3 .silent ⟨some rpEnd, none, none⟩) (by decide)
    rfl).1 1 (by decide) (by decide)

/-- A class with nothing but a set handler, which returns without touching the running property,
loses its commands without a closing event. So does one with an acquire handler that sets a value
which is none of the constants. -/
theorem set_only_command_vanishes :
    (∃ s, execute step init ((servedRun 1 .silent .silent).take 4) = some s ∧
      s.commandSequenceId = 1 ∧ s.inQueue 1 = 0 ∧ s.inExecution 1 = 0 ∧
      s.history 1 = [.queued, .running] ∧ s.ended 1 = 0) ∧
    ∃ s, execute step init (servedRun 3 .silent ⟨some 7, none, none⟩) = some s ∧
      s.commandSequenceId = 1 ∧ s.inQueue 1 = 0 ∧ s.inExecution 1 = 0 ∧
      s.history 1 = [.queued, .running] ∧ s.ended 1 = 0 := by
  refine ⟨⟨_, rfl, by decide⟩, ⟨_, rfl, by decide⟩⟩

end BatchCommandParallelSandbox

end ChaosFramework.Batch
