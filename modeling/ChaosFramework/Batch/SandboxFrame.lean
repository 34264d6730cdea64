import ChaosFramework.Batch.Sandbox

/-!
# What a step of the serialized sandbox writes

Every invariant of the sandbox speaks about the command objects at some point, which are written in
few ways: `writes` lists them for each action, `creates` gives the object that an action adds, and
`step_commands` says that there is nothing else. The remaining lemmas say which containers the loops
and the handler functions leave alone.
-/

namespace ChaosFramework.Batch.BatchCommandSandbox

open RunningPropertyType SubmissionRuleType HandlerType List Option BatchCommand
  CommandPriorityQueue

variable {s t : BatchCommandSandbox} {c d : CommandRef}

/-! ### Loops

One induction rule for each loop: what every round keeps, the loop keeps. A view of the
state that no round changes is the most frequent case. -/

section Loops

variable {α : Type*} {M : BatchCommandSandbox → Prop} {stack : List CommandRef}
  {ops : List WaitingCommandFunctionOpcode} {type : BatchCommandEventType} {owns : Bool} {n : Nat}
  (view : BatchCommandSandbox → α)

theorem drainSubmittedQueue_keeps (n : Nat)
    (round : ∀ {s first}, M s → s.commandSubmittedQueue.top = some first →
      M ((s.popSubmitted first).emit type first.element none))
    (hh : M s) : M (drainSubmittedQueue type n s) := by
  induction n generalizing s with
  | zero => exact hh
  | succ n ih =>
    unfold drainSubmittedQueue
    cases isTop : s.commandSubmittedQueue.top with
    | none => exact hh
    | some first => exact ih (round hh isTop)

theorem drainSubmittedQueue_frame
    (round : ∀ s first,
      view ((popSubmitted s first).emit type first.element none) = view s := by intros; rfl) :
    view (drainSubmittedQueue type n s) = view s :=
  drainSubmittedQueue_keeps (M :=
    fun r => view r = view s) n (fun kept _ => (round _ _).trans kept) rfl

/-- The motive also follows what is left of the stack. -/
theorem killStack_keeps {M : List CommandRef → BatchCommandSandbox → Prop}
    (round : ∀ {s c rest}, M (c :: rest) s → M rest ((s.popStack rest).emit .killed c none))
    (hh : M stack s) : M [] (killStack stack s) := by
  induction stack generalizing s with
  | nil => exact hh
  | cons c rest ih => exact ih (round hh)

theorem killStack_frame
    (round : ∀ s rest c, view ((popStack s rest).emit .killed c none) = view s := by
      intros; rfl) :
    view (killStack stack s) = view s :=
  killStack_keeps (M := fun _ r => view r = view s) (fun kept => (round _ _ _).trans kept) rfl

theorem consumeWaitCmdOps_keeps (popped : ∀ {s rest}, M s → M { s with stackWaitCmdOp := rest })
    (round : ∀ {s first}, M s → s.commandSubmittedQueue.top = some first →
      M ((s.popSubmitted first).emit .dequeue first.element none))
    (hh : M s) : M (consumeWaitCmdOps ops s) := by
  induction ops generalizing s with
  | nil => exact hh
  | cons op rest ih => exact ih (popped (drainSubmittedQueue_keeps _ round hh))

theorem consumeWaitCmdOps_frame
    (popped : ∀ s rest, view { s with stackWaitCmdOp := rest } = view s := by intros; rfl)
    (round : ∀ s first,
      view ((popSubmitted s first).emit .dequeue first.element none) = view s := by intros; rfl) :
    view (consumeWaitCmdOps ops s) = view s :=
  consumeWaitCmdOps_keeps (M := fun r => view r = view s)
    (fun kept => (popped _ _).trans kept) (fun kept _ => (round _ _).trans kept) rfl

/-- The first part of `checkQueue`, which drains the queue only with the lock of the opcodes. -/
theorem drained_frame {drained : BatchCommandSandbox}
    (ops : drained = if owns then consumeWaitCmdOps s.stackWaitCmdOp s else s)
    (popped : ∀ s rest, view { s with stackWaitCmdOp := rest } = view s := by intros; rfl)
    (round : ∀ s first,
      view ((popSubmitted s first).emit .dequeue first.element none) = view s := by intros; rfl) :
    view drained = view s := by
  subst ops
  split
  · exact consumeWaitCmdOps_frame view popped round
  · rfl

theorem consumeRunCmdOps_keeps {ops : List RunningCommandFunctionOpcode}
    (popped : ∀ {s rest}, M s → M { s with stackRunCmdOp := rest })
    (ended : ∀ {s}, M s → M (s.update c (·.setRunningProperty rpEnd)))
    (hh : M s) : M (consumeRunCmdOps c ops s) := by
  induction ops generalizing s with
  | nil => exact hh
  | cons op rest ih =>
    refine ih (popped ?_)
    split
    · exact hh
    · exact ended hh

theorem consumeRunCmdOps_frame {ops : List RunningCommandFunctionOpcode}
    (popped : ∀ s rest, view { s with stackRunCmdOp := rest } = view s)
    (written : ∀ s f, view (update s c f) = view s) :
    view (consumeRunCmdOps c ops s) = view s :=
  consumeRunCmdOps_keeps (M := fun r => view r = view s)
    (fun kept => (popped _ _).trans kept) (fun kept => (written _ _).trans kept) rfl

theorem killCurrent_frame
    (hk : ∀ s c, view ((emit s .killed c none).resetCurrent) = view s := by intros; rfl) :
    view s.killCurrent = view s := by
  unfold killCurrent
  split
  · split
    · rfl
    · exact hk s _
  · rfl

/-- What `deinit` kills: the current command, those on the stack and those in the queue. -/
theorem killAll_frame
    (hc : ∀ s c, view ((emit s .killed c none).resetCurrent) = view s := by intros; rfl)
    (hp : ∀ s rest c, view ((popStack s rest).emit .killed c none) = view s := by
      intros; rfl)
    (hw : ∀ s first,
      view ((popSubmitted s first).emit .killed first.element none) = view s := by intros; rfl) :
    view (drainSubmittedQueue .killed n (killStack stack s.killCurrent)) = view s :=
  (drainSubmittedQueue_frame view hw).trans
    ((killStack_frame view hp).trans (killCurrent_frame view hc))

theorem callFunctor_frame {functor : Option CommandRef} {f : BatchCommand → BatchCommand}
    (written : ∀ s c, view (update s c f) = view s := by intros; rfl) :
    view (s.callFunctor functor f) = view s := by
  cases functor with
  | none => rfl
  | some c => exact written s c

/-- A round on the current command writes command objects, the opcode stack and the
start time of the step. -/
theorem runCurrent_frame {now : Nat} {acq corr : HandlerOutcome} {tout : TimeoutOutcome}
    (popped : ∀ s rest, view { s with stackRunCmdOp := rest } = view s := by intros; rfl)
    (timed : ∀ s now, view { s with lastCmdStepStartUsec := now } = view s := by intros; rfl)
    (written : ∀ s c f, view (update s c f) = view s := by intros; rfl) :
    view (s.runCurrent c owns now acq corr tout) =
      view s := by
  refine (written _ c _).trans ?_
  refine (callFunctor_frame view fun s d => written s d _).trans ?_
  refine (callFunctor_frame view fun s d => written s d _).trans ?_
  refine (timed _ now).trans ?_
  split
  · exact consumeRunCmdOps_frame view popped fun s f => written s c f
  · rfl

end Loops

@[simp] theorem drainSubmittedQueue_commands (type : BatchCommandEventType) (n : Nat) :
    (drainSubmittedQueue type n s).commands = s.commands :=
  drainSubmittedQueue_frame (·.commands)

@[simp] theorem killStack_commands (stack : List CommandRef) :
    (killStack stack s).commands = s.commands :=
  killStack_frame (·.commands)

@[simp] theorem killStack_commandSubmittedQueue (stack : List CommandRef) :
    (killStack stack s).commandSubmittedQueue = s.commandSubmittedQueue :=
  killStack_frame (·.commandSubmittedQueue)

@[simp] theorem consumeWaitCmdOps_commands (ops : List WaitingCommandFunctionOpcode) :
    (consumeWaitCmdOps ops s).commands = s.commands :=
  consumeWaitCmdOps_frame (·.commands)

@[simp] theorem killCurrent_commands : s.killCurrent.commands = s.commands :=
  killCurrent_frame (·.commands)

@[simp] theorem killCurrent_commandStack : s.killCurrent.commandStack = s.commandStack :=
  killCurrent_frame (·.commandStack)

@[simp] theorem killCurrent_commandSubmittedQueue :
    s.killCurrent.commandSubmittedQueue = s.commandSubmittedQueue :=
  killCurrent_frame (·.commandSubmittedQueue)

/-! ### The effects of a step -/

/-- What a step of the sandbox can do, one constructor for each path through the code.
The executable `step` takes one of them, see `step_effect`. -/
inductive Effect (s : BatchCommandSandbox) : Action → BatchCommandSandbox → Prop
  | setDefault {description : CommandClass} (stopped : s.scheduleWorkFlag = false) :
      Effect s (.setDefaultStickyCommand description)
        { s.addCommandID { instanceCommandInfo description submitNormal 1000000 1000000 with
            sticky := true } with
          defaultStickyCommand := some (s.commandSequenceId + 1) }
  | start (stopped : s.scheduleWorkFlag = false) (live : s.deinitialized = false) :
      Effect s .start { s with scheduleWorkFlag := true, lastCmdStepStartUsec := 0 }
  | stop (started : s.scheduleWorkFlag = true) (point : s.checker = .idle) :
      Effect s .stop { s with scheduleWorkFlag := false }
  | deinit (stopped : s.scheduleWorkFlag = false) (live : s.deinitialized = false) :
      Effect s .deinit
        { drainSubmittedQueue .killed s.commandSubmittedQueue.length
            (killStack s.commandStack s.killCurrent) with
          acquireHandlerFunctor := none
          correlationHandlerFunctor := none
          deinitialized := true }
  | refuse {description : CommandClass} {rule retryDelay stepDelay priority : Nat}
      (dead : s.deinitialized = true) :
      Effect s (.enqueueCommand description rule retryDelay stepDelay priority) s
  | enqueue {description : CommandClass} {rule retryDelay stepDelay priority : Nat}
      (live : s.deinitialized = false) :
      Effect s (.enqueueCommand description rule retryDelay stepDelay priority)
        (s.submit (instanceCommandInfo description rule retryDelay stepDelay) priority)
  | enqueueDone {size : Nat} :
      Effect s (.enqueueDone size) { s with
        enqueuing := s.enqueuing - 1
        cmdStat := { s.cmdStat with queuedCommands := size % 2 ^ 32 } }
  | kill : Effect s .killCurrentCommand s.killCurrentCommand
  | clear : Effect s .clearCommandQueue s.clearCommandQueue
  | features {features : Features} {c : CommandRef}
      (current : s.currentExecutingCommand = some c) :
      Effect s (.setCurrentCommandFeatures features) (s.update c fun command =>
        { command with commandFeatures := { command.commandFeatures with
          featuresFlag := command.commandFeatures.featuresFlag ||| features.featuresFlag
          featureSchedulerStepsDelay := features.featureSchedulerStepsDelay } })
  | noFeatures {features : Features} (vacant : s.currentExecutingCommand = none) :
      Effect s (.setCurrentCommandFeatures features) s
  | stepDelay {delay : Nat} {c : CommandRef} (current : s.currentExecutingCommand = some c) :
      Effect s (.setCurrentCommandScheduerStepDelay delay) (s.update c fun command =>
        { command with commandFeatures :=
          { command.commandFeatures with featureSchedulerStepsDelay := delay } })
  | noStepDelay {delay : Nat} (vacant : s.currentExecutingCommand = none) :
      Effect s (.setCurrentCommandScheduerStepDelay delay) s
  | checkQueue {ownsLock : Bool} (started : s.scheduleWorkFlag = true)
      (point : s.checker = .idle) {drained : BatchCommandSandbox}
      (ops : drained = if ownsLock then consumeWaitCmdOps s.stackWaitCmdOp s else s) :
      Effect s (.checkQueue ownsLock)
        (drained.goto (.queueChecked drained.commandSubmittedQueue.isEmpty))
  | retry {adjacent : RunningVSSubmissionResult} {c : CommandRef}
      (point : s.checker = .queueChecked false) (current : s.currentExecutingCommand = some c) :
      Effect s (.compareWithCurrent adjacent) (s.goto .idle)
  | stack {adjacent : RunningVSSubmissionResult} {c : CommandRef}
      {first : PriorityQueuedElement} (point : s.checker = .queueChecked false)
      (current : s.currentExecutingCommand = some c)
      (isTop : s.commandSubmittedQueue.top = some first) :
      Effect s (.compareWithCurrent adjacent)
        ((s.popSubmitted first).goto (.stacking first.element))
  | close {adjacent : RunningVSSubmissionResult} {c : CommandRef}
      {first : PriorityQueuedElement} {type : BatchCommandEventType}
      {fault : Option FaultDescription} (point : s.checker = .queueChecked false)
      (current : s.currentExecutingCommand = some c)
      (isTop : s.commandSubmittedQueue.top = some first)
      (closing : type = .killed ∨ type = .completed ∨
        type = .fault ∧ fault = some (s.commands c).faultDescription) :
      Effect s (.compareWithCurrent adjacent)
        (((s.emit type c fault).popSubmitted first).goto (.replacing first.element))
  | finishStack {now : Nat} {setOutcome endOutcome : HandlerOutcome} {c next : CommandRef}
      (point : s.checker = .stacking next) (current : s.currentExecutingCommand = some c)
      {stacked : BatchCommandSandbox}
      (pushed : stacked = { s with
        commandStack := if (s.commands c).sticky then s.commandStack else c :: s.commandStack }) :
      Effect s (.finishSwitch now setOutcome endOutcome)
        (((stacked.emit .paused c none).installHandler next now setOutcome).goto .idle)
  | finishReplace {now : Nat} {setOutcome endOutcome : HandlerOutcome} {c next : CommandRef}
      (point : s.checker = .replacing next) (current : s.currentExecutingCommand = some c) :
      Effect s (.finishSwitch now setOutcome endOutcome)
        (((s.removeHandler c endOutcome).installHandler next now setOutcome).goto .idle)
  | installFirst {now : Nat} {setOutcome : HandlerOutcome} {first : PriorityQueuedElement}
      (point : s.checker = .queueChecked false) (vacant : s.currentExecutingCommand = none)
      (isTop : s.commandSubmittedQueue.top = some first) :
      Effect s (.installFirst now setOutcome)
        (((s.installHandler first.element now setOutcome).popSubmitted first).goto .idle)
  | foundEnded {c : CommandRef} (point : s.checker = .queueChecked true)
      (current : s.currentExecutingCommand = some c)
      (ended : rpEnd ≤ (s.commands c).runningProperty) :
      Effect s .checkEnded (s.goto .ending)
  | foundNoneEnded (point : s.checker = .queueChecked true) :
      Effect s .checkEnded (s.goto .stickyCheck)
  | resume {now : Nat} {setOutcome endOutcome : HandlerOutcome} {c next : CommandRef}
      {rest : List CommandRef} (point : s.checker = .ending)
      (current : s.currentExecutingCommand = some c) (stacked : s.commandStack = next :: rest) :
      Effect s (.endCurrent now setOutcome endOutcome)
        (((((s.resetCurrent.reportEnd c).removeHandler c endOutcome).installHandler next now
          setOutcome).popStack rest).goto .stickyCheck)
  | endSticky {now : Nat} {setOutcome endOutcome : HandlerOutcome} {c : CommandRef}
      (point : s.checker = .ending) (current : s.currentExecutingCommand = some c)
      (unstacked : s.commandStack = []) (sticky : (s.commands c).sticky = true) :
      Effect s (.endCurrent now setOutcome endOutcome)
        ((s.resetCurrent.reportEnd c).goto .stickyCheck)
  | endLast {now : Nat} {setOutcome endOutcome : HandlerOutcome} {c : CommandRef}
      (point : s.checker = .ending) (current : s.currentExecutingCommand = some c)
      (unstacked : s.commandStack = []) (plain : (s.commands c).sticky = false) :
      Effect s (.endCurrent now setOutcome endOutcome)
        (((s.resetCurrent.reportEnd c).removeHandler c endOutcome).uninstallHandlers.goto
          .stickyCheck)
  | installSticky {now : Nat} {setOutcome : HandlerOutcome} {d : CommandRef}
      (point : s.checker = .stickyCheck) (vacant : s.currentExecutingCommand = none)
      (default : s.defaultStickyCommand = some d) (sticky : (s.commands d).sticky = true) :
      Effect s (.installSticky now setOutcome)
        (((s.update d fun command => { command with alreadySetupped := false }).installHandler
          d now setOutcome).goto .idle)
  | skipSticky {now : Nat} {setOutcome : HandlerOutcome} (point : s.checker = .stickyCheck) :
      Effect s (.installSticky now setOutcome) (s.goto .idle)
  | run {ownsLock : Bool} {now : Nat} {acquireOutcome correlationOutcome : HandlerOutcome}
      {timeoutOutcome : TimeoutOutcome} {c : CommandRef} (started : s.scheduleWorkFlag = true)
      (released : s.checker.holdsCurrent = false)
      (current : s.currentExecutingCommand = some c) :
      Effect s (.runCommand ownsLock now acquireOutcome correlationOutcome timeoutOutcome)
        (s.runCurrent c ownsLock now acquireOutcome correlationOutcome timeoutOutcome)
  | runNothing {ownsLock : Bool} {now : Nat} {acquireOutcome correlationOutcome : HandlerOutcome}
      {timeoutOutcome : TimeoutOutcome} (vacant : s.currentExecutingCommand = none) :
      Effect s (.runCommand ownsLock now acquireOutcome correlationOutcome timeoutOutcome)
        { s with lastCmdStepStartUsec := 0 }

theorem compareWithCurrent_effect {adjacent : RunningVSSubmissionResult}
    (ht : s.compareWithCurrent adjacent = some t) :
    Effect s (.compareWithCurrent adjacent) t := by
  unfold compareWithCurrent at ht
  split at ht
  next c first point current isTop =>
    split at ht <;> cases ht
    · exact .retry point current
    · exact .retry point current
    · exact .stack point current isTop
    · exact .close point current isTop (.inl rfl)
    · exact .close point current isTop (.inr (.inl rfl))
    · exact .close point current isTop (.inr (.inr ⟨rfl, rfl⟩))
  next => cases ht

variable {now : Nat} {setOut endOut : HandlerOutcome}

theorem finishSwitch_effect (ht : s.finishSwitch now setOut endOut = some t) :
    Effect s (.finishSwitch now setOut endOut) t := by
  unfold finishSwitch at ht
  split at ht
  next next' c point current =>
    cases ht
    refine .finishStack point current ?_
    split <;> rfl
  next next' c point current =>
    cases ht
    exact .finishReplace point current
  next => cases ht

theorem endCurrent_effect (ht : s.endCurrent now setOut endOut = some t) :
    Effect s (.endCurrent now setOut endOut) t := by
  unfold endCurrent at ht
  split at ht
  next c point current =>
    dsimp only at ht
    split at ht
    next next' rest stacked =>
      cases ht
      exact .resume point current stacked
    next unstacked =>
      split at ht
      next sticky =>
        cases ht
        exact .endSticky point current unstacked sticky
      next plain =>
        cases ht
        exact .endLast point current unstacked (Bool.eq_false_iff.mpr plain)
  next => cases ht

theorem installSticky_effect (ht : s.installSticky now setOut = some t) :
    Effect s (.installSticky now setOut) t := by
  unfold installSticky at ht
  split at ht
  next point =>
    split at ht
    next d vacant default =>
      split at ht
      next sticky =>
        cases ht
        exact .installSticky point vacant default sticky
      next =>
        cases ht
        exact .skipSticky point
    next =>
      cases ht
      exact .skipSticky point
  next => cases ht

theorem setDefaultStickyCommand_effect {descr : CommandClass}
    (ht : s.setDefaultStickyCommand descr = some t) :
    Effect s (.setDefaultStickyCommand descr) t := by
  unfold setDefaultStickyCommand at ht
  obtain ⟨-, ⟨⟩⟩ := ite_none_left_eq_some.mp ht
  exact .setDefault (by simp_all)

theorem start_effect (ht : s.start = some t) : Effect s .start t := by
  unfold start at ht
  obtain ⟨-, ⟨⟩⟩ := ite_none_left_eq_some.mp ht
  exact .start (by simp_all) (by simp_all)

theorem stop_effect (ht : s.stop = some t) : Effect s .stop t := by
  obtain ⟨he, ⟨⟩⟩ := ite_none_right_eq_some.mp ht
  exact .stop he.1 he.2

/-- The two loops of `deinit` start from the stack and the queue of the first state. -/
theorem deinit_effect (ht : s.deinit = some t) : Effect s .deinit t := by
  simp only [deinit, killCurrent_commandStack, killStack_commandSubmittedQueue,
    killCurrent_commandSubmittedQueue] at ht
  obtain ⟨-, ⟨⟩⟩ := ite_none_left_eq_some.mp ht
  exact .deinit (by simp_all) (by simp_all)

theorem enqueueDone_effect {size : Nat} (ht : s.enqueueDone size = some t) :
    Effect s (.enqueueDone size) t := by
  obtain ⟨-, ⟨⟩⟩ := ite_none_left_eq_some.mp ht
  exact .enqueueDone

theorem checkQueue_effect {owns : Bool} (ht : s.checkQueue owns = some t) :
    Effect s (.checkQueue owns) t := by
  obtain ⟨he, ⟨⟩⟩ := ite_none_right_eq_some.mp ht
  exact .checkQueue he.1 he.2 rfl

theorem installFirst_effect (ht : s.installFirst now setOut = some t) :
    Effect s (.installFirst now setOut) t := by
  unfold installFirst at ht
  split at ht
  next first point vacant isTop =>
    cases ht
    exact .installFirst point vacant isTop
  next => cases ht

theorem checkEnded_effect (ht : s.checkEnded = some t) : Effect s .checkEnded t := by
  unfold checkEnded at ht
  split at ht
  next c point current =>
    split at ht <;> cases ht
    next ended => exact .foundEnded point current ended
    next => exact .foundNoneEnded point
  next point vacant =>
    cases ht
    exact .foundNoneEnded point
  next => cases ht

variable {act : Action} {first : PriorityQueuedElement} {queue : CommandPriorityQueue}
  {cmd : BatchCommand} {f : BatchCommand → BatchCommand}

/-- **Inversion.** Every step has one of the listed effects. -/
theorem step_effect (ht : s.step act = some t) : Effect s act t := by
  cases act with
  | setDefaultStickyCommand descr => exact setDefaultStickyCommand_effect ht
  | start => exact start_effect ht
  | stop => exact stop_effect ht
  | deinit => exact deinit_effect ht
  | enqueueCommand descr rule retry stepDelay prio =>
    simp only [step, enqueueCommand] at ht
    cases ht
    split
    next dead => exact .refuse dead
    next live => exact .enqueue (Bool.eq_false_iff.mpr live)
  | enqueueDone => exact enqueueDone_effect ht
  | killCurrentCommand =>
    cases ht
    exact .kill
  | clearCommandQueue =>
    cases ht
    exact .clear
  | setCurrentCommandFeatures features =>
    simp only [step, setCurrentCommandFeatures, updateCurrentFeatures] at ht
    split at ht
    · cases ht
    · split at ht <;> cases ht
      next c cur => exact .features cur
      next vacant => exact .noFeatures vacant
  | setCurrentCommandScheduerStepDelay delay =>
    simp only [step, setCurrentCommandScheduerStepDelay, updateCurrentFeatures] at ht
    split at ht
    · cases ht
    · split at ht <;> cases ht
      next c cur => exact .stepDelay cur
      next vacant => exact .noStepDelay vacant
  | checkQueue owns => exact checkQueue_effect ht
  | compareWithCurrent adjacent => exact compareWithCurrent_effect ht
  | finishSwitch now setOut endOut => exact finishSwitch_effect ht
  | installFirst now setOut => exact installFirst_effect ht
  | checkEnded => exact checkEnded_effect ht
  | endCurrent now setOut endOut => exact endCurrent_effect ht
  | installSticky now setOut => exact installSticky_effect ht
  | runCommand owns now acq corr tout =>
    simp only [step, runCommand] at ht
    split at ht
    next enabled =>
      split at ht <;> cases ht
      next c cur => exact .run enabled.1 enabled.2 cur
      next vacant => exact .runNothing vacant
    next => cases ht

/-! ### Command objects -/

/-- The functions an action may apply to a command object. -/
def Action.writes : Action → List (BatchCommand → BatchCommand)
  | .setCurrentCommandFeatures features =>
      [fun command => { command with commandFeatures := { command.commandFeatures with
        featuresFlag := command.commandFeatures.featuresFlag ||| features.featuresFlag
        featureSchedulerStepsDelay := features.featureSchedulerStepsDelay } }]
  | .setCurrentCommandScheduerStepDelay schedulerStepDelay =>
      [fun command => { command with commandFeatures :=
        { command.commandFeatures with featureSchedulerStepsDelay := schedulerStepDelay } }]
  | .finishSwitch now setOutcome endOutcome | .endCurrent now setOutcome endOutcome =>
      [(·.callHandler endOutcome), (·.setUp now setOutcome)]
  | .installFirst now setOutcome => [(·.setUp now setOutcome)]
  | .installSticky now setOutcome =>
      [fun command => { command with alreadySetupped := false }, (·.setUp now setOutcome)]
  | .runCommand _ now acquireOutcome correlationOutcome timeoutOutcome =>
      [(·.setRunningProperty rpEnd), (·.acquireFunctor acquireOutcome),
        (·.correlationFunctor correlationOutcome), (·.commandPost now timeoutOutcome)]
  | _ => []

/-- The command object an action adds, before it gets its identifier. -/
def Action.creates : Action → Option BatchCommand
  | .setDefaultStickyCommand description =>
      some { instanceCommandInfo description submitNormal 1000000 1000000 with sticky := true }
  | .enqueueCommand description submissionRule submissionRetryDelay schedulerStepDelay _ =>
      some (instanceCommandInfo description submissionRule submissionRetryDelay
        schedulerStepDelay)
  | _ => none

section Keeps

variable {P : CommandRef → BatchCommand → Prop}

section

variable (hh : ∀ d, P d (s.commands d)) {f : BatchCommand → BatchCommand}

include hh

theorem update_keeps
    (closed : ∀ cmd, P c cmd → P c (f cmd)) : ∀ d, P d ((s.update c f).commands d) := by
  intro d
  obtain rfl | same := eq_or_ne d c
  · simpa [update] using closed _ (hh d)
  · simpa [same] using hh d

theorem addCommandID_keeps
    (created : ∀ id, P (s.commandSequenceId + 1) { cmd with uniqueId := id }) :
    ∀ d, P d ((s.addCommandID cmd).commands d) := by
  intro d
  obtain rfl | same := eq_or_ne d (s.commandSequenceId + 1)
  · simpa [addCommandID] using created _
  · simpa [same] using hh d

theorem installHandler_keeps {next : CommandRef}
    (closed : ∀ d cmd, P d cmd → P d (cmd.setUp now setOut)) :
    ∀ d, P d ((s.installHandler next now setOut).commands d) := by
  have emitted : ∀ d, P d ((s.emit .running next none).commands d) := hh
  exact update_keeps (f := (·.setUp now setOut)) emitted (closed next)

theorem removeHandler_keeps (closed : ∀ d cmd, P d cmd → P d (cmd.callHandler endOut)) :
    ∀ d, P d ((s.removeHandler c endOut).commands d) :=
  update_keeps hh (closed c)

theorem callFunctor_keeps {functor : Option CommandRef} (closed : ∀ d cmd, P d cmd → P d (f cmd)) :
    ∀ d, P d ((s.callFunctor functor f).commands d) := by
  cases functor with
  | none => exact hh
  | some c => exact update_keeps hh (closed c)

end

/-- **Frame of the heap.** A property of single command objects that the writes of an
action keep, and that the object it adds has, is kept by the step. -/
theorem step_commands (ht : s.step act = some t) (hh : ∀ d, P d (s.commands d))
    (closed : ∀ f ∈ act.writes, ∀ d cmd, P d cmd → P d (f cmd))
    (created : ∀ cmd ∈ act.creates, ∀ id, P (s.commandSequenceId + 1) { cmd with uniqueId := id }) :
    ∀ d, P d (t.commands d) := by
  cases step_effect ht with
  | setDefault | enqueue => exact addCommandID_keeps hh (created _ rfl)
  | deinit =>
    intro d
    simpa using hh d
  | features hc | stepDelay hc =>
    exact update_keeps hh (closed _ (mem_singleton.mpr rfl) _)
  | @checkQueue owns _ _ drained ops =>
    subst ops
    intro d
    cases owns
    · exact hh d
    · simpa using hh d
  | finishStack _ _ hp =>
    subst hp
    exact installHandler_keeps hh (closed _ (by simp [Action.writes]))
  | finishReplace =>
    exact installHandler_keeps (removeHandler_keeps hh (closed _ (by simp [Action.writes])))
      (closed _ (by simp [Action.writes]))
  | installFirst => exact installHandler_keeps hh (closed _ (by simp [Action.writes]))
  | @resume _ _ _ c =>
    have hr : ∀ d, P d ((s.resetCurrent.reportEnd c).commands d) := hh
    exact installHandler_keeps (removeHandler_keeps hr (closed _ (by simp [Action.writes])))
      (closed _ (by simp [Action.writes]))
  | @endLast _ _ _ c =>
    have hr : ∀ d, P d ((s.resetCurrent.reportEnd c).commands d) := hh
    exact removeHandler_keeps hr (closed _ (by simp [Action.writes]))
  | installSticky =>
    exact installHandler_keeps (update_keeps hh (closed _ (by simp [Action.writes]) _))
      (closed _ (by simp [Action.writes]))
  -- Four writes, in the order of the source: opcodes, acquire, correlation, `commandPost`.
  | @run owns now acq corr tout c =>
    refine update_keeps (f := (·.commandPost now tout))
      (callFunctor_keeps (callFunctor_keeps ?_ ?_) ?_) ?_
    · split
      · exact consumeRunCmdOps_keeps (M := fun r => ∀ d, P d (r.commands d)) (fun kept => kept)
          (fun kept => update_keeps kept (closed _ (by simp [Action.writes]) c)) hh
      · exact hh
    · exact closed _ (by simp [Action.writes])
    · exact closed _ (by simp [Action.writes])
    · exact closed _ (by simp [Action.writes]) c
  | _ => exact hh

end Keeps

/-- Every running property that the handlers called by an action can leave satisfies `Q`. -/
def Action.Leaves (Q : Nat → Prop) : Action → Prop
  | .finishSwitch _ setOutcome endOutcome | .endCurrent _ setOutcome endOutcome =>
      setOutcome.Leaves Q ∧ endOutcome.Leaves Q
  | .installFirst _ setOutcome | .installSticky _ setOutcome => setOutcome.Leaves Q
  | .runCommand _ _ acquireOutcome correlationOutcome timeoutOutcome =>
      acquireOutcome.Leaves Q ∧ correlationOutcome.Leaves Q ∧
        ∀ property ∈ timeoutOutcome.property, Q (property % 256)
  | _ => True

instance (Q : Nat → Prop) [DecidablePred Q] (action : Action) : Decidable (action.Leaves Q) := by
  unfold Action.Leaves
  split <;> infer_instance

/-- The sandbox itself writes the ended and the plain fault property. -/
theorem writes_leaves {Q : Nat → Prop} (hl : act.Leaves Q) (ended : Q rpEnd)
    (fault : Q rpFault) (write : f ∈ act.writes)
    (hb : Q cmd.runningProperty) :
    Q (f cmd).runningProperty := by
  cases act <;> simp only [Action.writes, mem_cons, not_mem_nil, or_false] at write
  case setCurrentCommandFeatures | setCurrentCommandScheduerStepDelay => subst write; exact hb
  case finishSwitch | endCurrent =>
    rcases write with rfl | rfl
    · exact callHandler_leaves hl.2 hb
    · exact setUp_leaves hl.1 hb
  case installFirst now setOut =>
    have ho : setOut.Leaves Q := hl
    subst write
    exact setUp_leaves ho hb
  case installSticky now setOut =>
    have ho : setOut.Leaves Q := hl
    rcases write with rfl | rfl
    · exact hb
    · exact setUp_leaves ho hb
  -- The terminate opcode writes `RP_END`, a timeout at most `RP_FAULT`.
  case runCommand =>
    obtain ⟨ha, hc, timeout⟩ := hl
    rcases write with rfl | rfl | rfl | rfl
    · exact ended
    · exact acquireFunctor_leaves ha hb
    · exact correlationFunctor_leaves hc hb
    · exact commandPost_leaves timeout fault hb

theorem creates_runningProperty (new : cmd ∈ act.creates) : cmd.runningProperty = rpNormal := by
  cases act <;>
    simp only [Action.creates, mem_def, Option.some.injEq, reduceCtorEq] at new
  all_goals subst new; rfl

theorem writes_fixedPart (write : f ∈ act.writes)
    (cmd : BatchCommand) : (f cmd).fixedPart = cmd.fixedPart := by
  cases act <;> simp only [Action.writes, mem_cons, not_mem_nil, or_false] at write
  case setCurrentCommandFeatures | setCurrentCommandScheduerStepDelay => subst write; rfl
  case finishSwitch | endCurrent => rcases write with rfl | rfl <;> simp
  case installFirst => subst write; simp
  case installSticky =>
    rcases write with rfl | rfl
    · rfl
    · simp
  case runCommand => rcases write with rfl | rfl | rfl | rfl <;> simp

/-- A step changes the fixed fields of no object that it does not add. -/
theorem step_fixedPart (ht : s.step act = some t)
    (old : s.commandSequenceId < c → t.commandSequenceId < c) :
    (t.commands c).fixedPart = (s.commands c).fixedPart := by
  -- The next reference is special: it is the one that a step may add.
  by_cases hu : c = s.commandSequenceId + 1
  · have kept : t.commandSequenceId < s.commandSequenceId + 1 := by
      subst hu
      exact old (Nat.lt_succ_self _)
    have written (none : act.creates = none) :
      (t.commands c).fixedPart = (s.commands c).fixedPart :=
      step_commands (P := fun d cmd => cmd.fixedPart = (s.commands d).fixedPart) ht
        (fun _ => rfl) (fun f write d cmd same => (writes_fixedPart write cmd).trans same)
        (fun cmd new => by rw [none] at new; cases new) c
    -- `refuse` shares its action with `enqueue`, so `creates` alone does not tell them apart.
    cases step_effect ht with
    | setDefault | enqueue => exact absurd kept (lt_irrefl _)
    | refuse => rfl
    | _ => exact written rfl
  · refine step_commands
      (P := fun d cmd => d ≠ s.commandSequenceId + 1 →
        cmd.fixedPart = (s.commands d).fixedPart) ht ?_ ?_ ?_ c hu
    · exact fun d _ => rfl
    · exact fun f write d cmd kept old => (writes_fixedPart write cmd).trans (kept old)
    · exact fun cmd _ id new => absurd rfl new

/-! ### References -/

/-- A command waits to become the current one: in the queue, in the hand of the checker or
on the stack. -/
def Pending (s : BatchCommandSandbox) (c : CommandRef) : Prop :=
  c ∈ s.commandSubmittedQueue.refs ∨ c ∈ s.checker.inHand ∨ c ∈ s.commandStack

/-- The sandbox reaches the command `c` through one of its containers. -/
def Refers (s : BatchCommandSandbox) (c : CommandRef) : Prop :=
  s.Pending c ∨ s.currentExecutingCommand = some c ∨ s.defaultStickyCommand = some c

/-- Only objects that exist are referred to, and the checker of a stopped sandbox is at the
head of its loop. -/
structure Allocated (s : BatchCommandSandbox) : Prop where
  refers : ∀ c, s.Refers c → c ≤ s.commandSequenceId
  idle : s.scheduleWorkFlag = false → s.checker = .idle

theorem mem_refs_of_pop (hm : c ∈ (queue.pop first).refs) : c ∈ queue.refs := by
  obtain ⟨elem, kept, rfl⟩ := List.mem_map.mp hm
  exact List.mem_map.mpr ⟨elem, mem_of_mem_erase kept, rfl⟩

theorem top_mem_refs (isTop : queue.top = some first) : first.element ∈ queue.refs :=
  List.mem_map.mpr ⟨first, top_mem isTop, rfl⟩

theorem Pending.of_goto {point : CheckerPoint} (pending : (s.goto point).Pending c)
    (free : point.inHand = []) : s.Pending c := by
  rcases pending with queue | hand | stack
  · exact .inl queue
  · rw [goto_checker, free] at hand
    cases hand
  · exact .inr (.inr stack)

theorem Pending.of_popSubmitted (pending : (s.popSubmitted first).Pending c) : s.Pending c :=
  pending.imp_left mem_refs_of_pop

theorem Pending.of_popStack {rest : List CommandRef} (pending : (s.popStack rest).Pending c)
    (hs : s.commandStack = d :: rest) : s.Pending c := by
  rcases pending with queue | hand | stack
  · exact .inl queue
  · exact .inr (.inl hand)
  · exact .inr (.inr (hs ▸ mem_cons_of_mem d stack))

theorem Pending.of_killStack {stack : List CommandRef} (whole : s.commandStack = stack)
    (pending : (killStack stack s).Pending c) : s.Pending c :=
  (killStack_keeps (M := fun rest r => r.commandStack = rest ∧ (r.Pending c → s.Pending c))
    (fun kept => ⟨rfl, fun popped => kept.2 (Pending.of_popStack popped kept.1)⟩)
    ⟨whole, id⟩).2 pending

theorem Pending.of_drainSubmittedQueue {type : BatchCommandEventType} {n : Nat}
    (pending : (drainSubmittedQueue type n s).Pending c) : s.Pending c :=
  drainSubmittedQueue_keeps (M := fun r => r.Pending c → s.Pending c) n
    (fun kept _ popped => kept (Pending.of_popSubmitted popped)) id pending

theorem Pending.of_consumeWaitCmdOps {ops : List WaitingCommandFunctionOpcode}
    (pending : (consumeWaitCmdOps ops s).Pending c) : s.Pending c :=
  consumeWaitCmdOps_keeps (M := fun r => r.Pending c → s.Pending c) (fun kept => kept)
    (fun kept _ popped => kept (Pending.of_popSubmitted popped)) id pending

section PendingSimp

/-! Installing, removing and reporting move no pending command. -/

@[simp] theorem pending_update (f : BatchCommand → BatchCommand) :
    (s.update d f).Pending c ↔ s.Pending c := Iff.rfl

@[simp] theorem pending_resetCurrent : s.resetCurrent.Pending c ↔ s.Pending c := Iff.rfl

@[simp] theorem pending_reportEnd : (s.reportEnd d).Pending c ↔ s.Pending c := Iff.rfl

@[simp] theorem pending_installHandler (now : Nat) (setOut : HandlerOutcome) :
    (s.installHandler d now setOut).Pending c ↔ s.Pending c := Iff.rfl

@[simp] theorem pending_removeHandler (endOut : HandlerOutcome) :
    (s.removeHandler d endOut).Pending c ↔ s.Pending c := Iff.rfl

@[simp] theorem pending_uninstallHandlers : s.uninstallHandlers.Pending c ↔ s.Pending c := Iff.rfl

end PendingSimp

section

variable (ht : s.step act = some t)

include ht

/-- A pending command was pending before, or has just been paused, or has just been
submitted. -/
theorem step_pending (pending : t.Pending c) :
    s.Pending c ∨ s.currentExecutingCommand = some c ∧ (s.commands c).sticky = false ∨
      c = s.commandSequenceId + 1 ∧ t.commandSequenceId = s.commandSequenceId + 1 ∧
        (t.commands c).sticky = false := by
  cases step_effect ht with
  | enqueue =>
    rcases pending with queue | rest
    · simp only [refs, submit, map_append, mem_append] at queue
      rcases queue with queue | new
      · exact .inl (.inl queue)
      · obtain rfl : c = s.commandSequenceId + 1 := mem_singleton.mp new
        exact .inr (.inr ⟨rfl, rfl, by simp [submit, instanceCommandInfo]⟩)
    · exact .inl (.inr rest)
  | deinit =>
    have drained : (drainSubmittedQueue .killed s.commandSubmittedQueue.length
      (killStack s.commandStack s.killCurrent)).Pending c := pending
    have killed := Pending.of_killStack killCurrent_commandStack drained.of_drainSubmittedQueue
    exact .inl ((killCurrent_frame (·.Pending c)).mp killed)
  | @checkQueue owns started point drained ops =>
    subst ops
    have hw := pending.of_goto rfl
    cases owns
    · exact .inl hw
    · exact .inl hw.of_consumeWaitCmdOps
  | stack _ _ isTop | close _ _ isTop =>
    left
    rcases pending with queue | hand | stack
    · exact .inl (mem_refs_of_pop queue)
    · obtain rfl := mem_singleton.mp hand
      exact .inl (top_mem_refs isTop)
    · exact .inr (.inr stack)
  | @finishStack now setOut endOut d next point hc stacked hp =>
    subst hp
    rcases pending.of_goto rfl with queue | hand | stack
    · exact .inl (.inl queue)
    · exact .inl (.inr (.inl hand))
    · split at stack
      next => exact .inl (.inr (.inr stack))
      -- Only a plain command is pushed on the stack.
      next plain =>
        rcases mem_cons.mp stack with rfl | stack
        · exact .inr (.inl ⟨hc, Bool.eq_false_iff.mpr plain⟩)
        · exact .inl (.inr (.inr stack))
  | installFirst => exact .inl (by simpa using (pending.of_goto rfl).of_popSubmitted)
  | @resume _ _ _ d next rest point hc stacked =>
    have popped := Pending.of_popStack (pending.of_goto rfl) (by simpa using stacked)
    exact .inl (by simpa using popped)
  | run =>
    exact .inl ((runCurrent_frame (·.Pending c)).mp pending)
  | finishReplace | installSticky | endSticky | endLast | retry | foundEnded | foundNoneEnded
  | skipSticky => exact .inl (by simpa using pending.of_goto rfl)
  | _ => exact .inl pending

/-- The current command was the current one before, or was pending, or is the default
command, installed in a free slot. -/
theorem step_current (hc : t.currentExecutingCommand = some c) :
    s.currentExecutingCommand = some c ∨ s.Pending c ∨
      s.currentExecutingCommand = none ∧ s.defaultStickyCommand = some c ∧
        t.defaultStickyCommand = some c := by
  cases step_effect ht with
  | deinit =>
    have hk : s.killCurrent.currentExecutingCommand = some c :=
      ((drainSubmittedQueue_frame (·.currentExecutingCommand)).trans
        (killStack_frame (·.currentExecutingCommand))).symm.trans hc
    -- The loops leave the slot alone, so it is what `killCurrent` has left.
    unfold killCurrent at hk
    split at hk
    · split at hk
      · exact .inl hk
      · cases hk
    · exact .inl hk
  | checkQueue started point ops =>
    exact .inl ((drained_frame (·.currentExecutingCommand) ops).symm.trans hc)
  | finishStack point | finishReplace point =>
    cases hc
    exact .inr (.inl (.inr (.inl (by rw [point]; exact mem_singleton_self _))))
  | installFirst _ _ isTop =>
    cases hc
    exact .inr (.inl (.inl (top_mem_refs isTop)))
  | resume _ _ stacked =>
    cases hc
    exact .inr (.inl (.inr (.inr (stacked ▸ mem_cons_self))))
  | endSticky | endLast => cases hc
  | stack | close => exact .inl (by simpa using hc)
  | installSticky _ hv hd =>
    cases hc
    exact .inr (.inr ⟨hv, hd, by simpa using hd⟩)
  | run =>
    exact .inl ((runCurrent_frame (·.currentExecutingCommand)).symm.trans hc)
  | _ => exact .inl hc

/-- The default command changes only by a new one. -/
theorem step_default (hd : t.defaultStickyCommand = some c) :
    s.defaultStickyCommand = some c ∨
      c = s.commandSequenceId + 1 ∧ t.commandSequenceId = s.commandSequenceId + 1 := by
  cases step_effect ht with
  | setDefault => exact .inr ⟨(Option.some.inj hd).symm, rfl⟩
  | deinit =>
    exact .inl ((killAll_frame (·.defaultStickyCommand)).symm.trans hd)
  | checkQueue started point ops =>
    exact .inl ((drained_frame (·.defaultStickyCommand) ops).symm.trans hd)
  | finishStack _ _ hp =>
    subst hp
    exact .inl (by simpa using hd)
  | stack | close | finishReplace | installFirst | resume | endSticky | endLast | installSticky =>
    exact .inl (by simpa using hd)
  | run =>
    exact .inl ((runCurrent_frame (·.defaultStickyCommand)).symm.trans hd)
  | _ => exact .inl hd

/-- What a step refers to was referred to before, or is the object it has added. -/
theorem step_refers (hr : t.Refers c) :
    s.Refers c ∨ c = s.commandSequenceId + 1 ∧ t.commandSequenceId = s.commandSequenceId + 1 := by
  rcases hr with pending | hc | hd
  · rcases step_pending ht pending with hb | ⟨hc, -⟩ | ⟨new, counter, -⟩
    · exact .inl (.inl hb)
    · exact .inl (.inr (.inl hc))
    · exact .inr ⟨new, counter⟩
  · rcases step_current ht hc with hb | pending | ⟨-, hd, -⟩
    · exact .inl (.inr (.inl hb))
    · exact .inl (.inl pending)
    · exact .inl (.inr (.inr hd))
  · rcases step_default ht hd with hb | new
    · exact .inl (.inr (.inr hb))
    · exact .inr new

end

theorem not_refers_init (c : CommandRef) : ¬ init.Refers c := by
  rintro ((queue | hand | stack) | hc | hd)
  · cases queue
  · cases hand
  · cases stack
  · cases hc
  · cases hd

theorem allocated_init : init.Allocated where
  refers := fun c hr => absurd hr (not_refers_init c)
  idle := fun _ => rfl

/-- The thread control and the counter, which neither a loop nor the scheduler writes. -/
def control (s : BatchCommandSandbox) : Bool × CheckerPoint × CommandRef :=
  (s.scheduleWorkFlag, s.checker, s.commandSequenceId)

@[simp] theorem control_deinit : (drainSubmittedQueue .killed s.commandSubmittedQueue.length
    (killStack s.commandStack s.killCurrent)).control = s.control :=
  killAll_frame control

@[simp] theorem control_runCurrent (owns : Bool) (now : Nat)
    (acq corr : HandlerOutcome) (tout : TimeoutOutcome) :
    (s.runCurrent c owns now acq corr tout).control =
      s.control :=
  runCurrent_frame control

/-- The steps that add an object: the default command, or a plain submitted one. -/
inductive Adds (s : BatchCommandSandbox) : BatchCommandSandbox → Prop
  | default {command : BatchCommand} (sticky : command.sticky = true) :
      Adds s { s.addCommandID command with
        defaultStickyCommand := some (s.commandSequenceId + 1) }
  | submitted {command : BatchCommand} {priority : Nat} (plain : command.sticky = false) :
      Adds s (s.submit command priority)

theorem Adds.counter (adds : s.Adds t) : t.commandSequenceId = s.commandSequenceId + 1 := by
  cases adds <;> rfl

section Control

variable (hi : s.scheduleWorkFlag = false → s.checker = .idle)
include hi

theorem idle_of_control (same : t.control = s.control) :
    (s.Adds t ∨ t.commandSequenceId = s.commandSequenceId) ∧
      (t.scheduleWorkFlag = false → t.checker = .idle) := by
  simp only [control, Prod.mk.injEq] at same
  obtain ⟨flag, point, counter⟩ := same
  exact ⟨.inr counter, fun hs => point.trans (hi (flag.symm.trans hs))⟩

/-- A step that the checker takes away from the head of its loop shows that the sandbox is
started. -/
theorem idle_of_checker (point : CheckerPoint) (away : s.checker ≠ .idle)
    (moved : t.control = (s.goto point).control) :
    (s.Adds t ∨ t.commandSequenceId = s.commandSequenceId) ∧
      (t.scheduleWorkFlag = false → t.checker = .idle) := by
  simp only [control, Prod.mk.injEq] at moved
  obtain ⟨flag, -, counter⟩ := moved
  exact ⟨.inr counter, fun hs => absurd (hi (flag.symm.trans hs)) away⟩

/-- Only two kinds of steps move the counter, and the checker of a stopped sandbox stays at
the head of its loop. -/
theorem step_control (ht : s.step act = some t) :
    (s.Adds t ∨ t.commandSequenceId = s.commandSequenceId) ∧
      (t.scheduleWorkFlag = false → t.checker = .idle) := by
  cases step_effect ht with
  | setDefault => exact ⟨.inl (.default rfl), hi⟩
  | enqueue => exact ⟨.inl (.submitted rfl), hi⟩
  | start => exact ⟨.inr rfl, nofun⟩
  | stop _ point => exact ⟨.inr rfl, fun _ => point⟩
  | deinit => exact idle_of_control hi control_deinit
  | @checkQueue owns started _ drained ops =>
    have same : drained.control = s.control :=
      drained_frame control ops
    simp only [control, Prod.mk.injEq] at same
    obtain ⟨flag, -, counter⟩ := same
    refine ⟨.inr counter, fun hs => ?_⟩
    rw [goto_scheduleWorkFlag, flag, started] at hs
    cases hs
  | run => exact idle_of_control hi (control_runCurrent ..)
  | finishStack _ _ hp =>
    subst hp
    exact ⟨.inr (by simp), fun _ => rfl⟩
  | retry | skipSticky | finishReplace | installFirst | installSticky =>
    exact ⟨.inr (by simp), fun _ => rfl⟩
  -- The checker moves inside its loop, which it only does while the sandbox is started.
  | stack point | close point | foundEnded point | foundNoneEnded point =>
    exact idle_of_checker hi _ (by simp [point]) (by rfl)
  | resume point | endSticky point | endLast point =>
    exact idle_of_checker hi .stickyCheck (by simp [point]) (by simp [control])
  | _ => exact ⟨.inr rfl, hi⟩

end Control

theorem step_allocated (ha : s.Allocated) (ht : s.step act = some t) :
    t.Allocated := by
  obtain ⟨counter, hi⟩ := step_control ha.idle ht
  refine ⟨fun c hr => ?_, hi⟩
  rcases step_refers ht hr with hb | ⟨rfl, new⟩
  · have old := ha.refers c hb
    rcases counter with adds | same
    · rw [adds.counter]
      exact old.trans (Nat.le_succ _)
    · rwa [same]
  · exact new.ge

end ChaosFramework.Batch.BatchCommandSandbox
