import ChaosFramework.Batch.Lifecycle

/-!
# Custody of the submitted commands

For one command, `Tracked` relates the phase reached by its events with the containers in which it
is found; a step moves a command from a phase to a phase of the automaton of `Lifecycle`.

This depends on one fact about running properties: when the checker reaches the locked switch over
the ended command, the property must still be one of the three ended values. `Disciplined` is that
fact, `Behaved` the condition on user code that keeps it.
-/

namespace ChaosFramework.Batch

open RunningPropertyType SubmissionRuleType HandlerType Transition List CommandPriorityQueue
  BatchCommand CheckerPoint

/-- The closing event of the current command has been reported, but the command is still
in the slot. -/
def CheckerPoint.replaces : CheckerPoint → Bool
  | .replacing _ => true
  | _ => false

namespace BatchCommandSandbox

variable {s t : BatchCommandSandbox} {c d next : CommandRef} {p : Phase}
  {first : PriorityQueuedElement} {type : BatchCommandEventType} {act : Action} {now : Nat}
  {setOut endOut : HandlerOutcome} {rest : List CommandRef} {cmd : BatchCommand}

/-! ### Where a command is -/

/-- The types of the events reported for a command, oldest first. -/
def history (s : BatchCommandSandbox) (c : CommandRef) : List BatchCommandEventType :=
  historyOf s.events c

/-- How often a command waits in the queue. -/
def inQueue (s : BatchCommandSandbox) (c : CommandRef) : Nat :=
  s.commandSubmittedQueue.refs.count c

/-- Whether a command is the one that the checker is about to install. -/
def inHand (s : BatchCommandSandbox) (c : CommandRef) : Nat := s.checker.inHand.count c

/-- Whether a command is the current one and has not been reported as closed. -/
def inSlot (s : BatchCommandSandbox) (c : CommandRef) : Nat :=
  if s.currentExecutingCommand = some c ∧ s.checker.replaces = false then 1 else 0

/-- How often a command is on the stack. -/
def onStack (s : BatchCommandSandbox) (c : CommandRef) : Nat := s.commandStack.count c

/-- How many closing events have been reported for a command. -/
def closings (s : BatchCommandSandbox) (c : CommandRef) : Nat :=
  (s.history c).countP (·.closing)

/-- The events of a command lead to the phase `p`, and it is found where a command of
that phase belongs. -/
structure Tracked (s : BatchCommandSandbox) (c : CommandRef) (p : Phase) : Prop where
  phase : phaseOf (s.history c) = some p
  waiting : s.inQueue c + s.inHand c = if p = .queued then 1 else 0
  current : s.inSlot c = if p = .running then 1 else 0
  stacked : s.onStack c = if p = .paused then 1 else 0

/-- All that `Tracked` reads. -/
def account (s : BatchCommandSandbox) (c : CommandRef) :
    List BatchCommandEventType × Nat × Nat × Nat :=
  (s.history c, s.inQueue c + s.inHand c, s.inSlot c, s.onStack c)

attribute [local simp] account history inQueue inHand inSlot onStack CheckerPoint.inHand
  CheckerPoint.replaces

section

variable (tracked : s.Tracked c p)

include tracked

theorem Tracked.of_account (same : t.account c = s.account c) : t.Tracked c p := by
  simp only [account, Prod.mk.injEq] at same
  obtain ⟨history, hw, hc, hs⟩ := same
  exact ⟨history ▸ tracked.phase, hw ▸ tracked.waiting, hc ▸ tracked.current, hs ▸ tracked.stacked⟩

theorem Tracked.queued_of_top
    (isTop : s.commandSubmittedQueue.top = some first) (taken : first.element = c) :
    p = .queued := by
  by_contra other
  have hc := count_refs_pop isTop c
  have waiting := tracked.waiting
  rw [if_neg other, inQueue, hc, if_pos taken] at waiting
  omega

theorem Tracked.queued_of_inHand (hh : s.checker.inHand = [c]) : p = .queued := by
  by_contra other
  have hw := tracked.waiting
  rw [if_neg other, inHand, hh, count_singleton_self] at hw
  omega

theorem Tracked.running_of_current (hc : s.currentExecutingCommand = some c)
    (open' : s.checker.replaces = false) : p = .running := by
  by_contra other
  have occupied := tracked.current
  rw [if_neg other, inSlot, if_pos ⟨hc, open'⟩] at occupied
  exact absurd occupied one_ne_zero

theorem Tracked.paused_of_stack (hs : s.commandStack = c :: rest) : p = .paused := by
  by_contra other
  have kept := tracked.stacked
  rw [if_neg other, onStack, hs, count_cons_self] at kept
  omega

end

theorem inQueue_popSubmitted (isTop : s.commandSubmittedQueue.top = some first) (c : CommandRef) :
    s.inQueue c = (s.popSubmitted first).inQueue c + if first.element = c then 1 else 0 :=
  count_refs_pop isTop c

/-! ### One command along one step -/

/-- A step from `s` to `t` takes the command from a phase to a phase, and does not touch a
command that has never been submitted. -/
def Follows (s t : BatchCommandSandbox) (c : CommandRef) : Prop :=
  ∀ p, s.Tracked c p → ∃ q, t.Tracked c q ∧ (p = .fresh → q = .fresh)

theorem follows_of_account (same : t.account c = s.account c) : Follows s t c :=
  fun p tracked => ⟨p, tracked.of_account same, id⟩

theorem Follows.trans {r : BatchCommandSandbox} (first : Follows s t c)
    (second : Follows t r c) : Follows s r c := by
  intro p tracked
  obtain ⟨q, hm, kept⟩ := first p tracked
  obtain ⟨r, last, keptToo⟩ := second q hm
  exact ⟨r, last, fun fresh => keptToo (kept fresh)⟩

/-- A step that moves the command `d` only. -/
theorem Follows.of_others (moved : Follows s t d)
    (ho : d ≠ c → t.account c = s.account c) : Follows s t c := by
  by_cases same : d = c
  · exact same ▸ moved
  · exact follows_of_account (ho same)

/-- A command that moves reports the event that leads to its new phase. -/
theorem Tracked.advance {q : Phase} (tracked : s.Tracked c p) (ev : BatchCommandEventType)
    (next : p.advance ev = some q) (hr : t.history c = s.history c ++ [ev])
    (hw : t.inQueue c + t.inHand c = if q = .queued then 1 else 0)
    (hc : t.inSlot c = if q = .running then 1 else 0)
    (hs : t.onStack c = if q = .paused then 1 else 0) : t.Tracked c q := by
  refine ⟨?_, hw, hc, hs⟩
  rw [hr, phaseOf_append_singleton, tracked.phase]
  exact next

/-- One round of the loops that empty the queue. -/
theorem drainRound_follows (hc : type = .dequeue ∨ type = .killed)
    (isTop : s.commandSubmittedQueue.top = some first) :
    Follows s ((s.popSubmitted first).emit type first.element none) c := by
  have hp := inQueue_popSubmitted isTop
  refine Follows.of_others (d := first.element) (fun p tracked => ?_) fun other => ?_
  · obtain rfl := tracked.queued_of_top isTop rfl
    have hw := tracked.waiting
    rw [hp, if_pos rfl, if_pos rfl] at hw
    refine ⟨.closed, tracked.advance type ?_ ?_ ?_ tracked.current tracked.stacked, by simp⟩
    · rcases hc with rfl | rfl <;> rfl
    · simp
    · change (s.popSubmitted first).inQueue _ + s.inHand _ = 0
      omega
  · have same := hp c
    rw [if_neg other] at same
    simp only [account, Prod.mk.injEq]
    exact ⟨by simp [other], congrArg (· + s.inHand c) same.symm, rfl, rfl⟩

theorem drainSubmittedQueue_follows (hc : type = .dequeue ∨ type = .killed) (n : Nat) :
    Follows s (drainSubmittedQueue type n s) c :=
  drainSubmittedQueue_keeps (M := fun r => Follows s r c) n
    (fun kept isTop => kept.trans (drainRound_follows hc isTop)) (follows_of_account rfl)

theorem consumeWaitCmdOps_follows (ops : List WaitingCommandFunctionOpcode) :
    Follows s (consumeWaitCmdOps ops s) c :=
  consumeWaitCmdOps_keeps (M := fun r => Follows s r c)
    (fun kept => kept.trans (follows_of_account rfl))
    (fun kept isTop => kept.trans (drainRound_follows (.inl rfl) isTop)) (follows_of_account rfl)

theorem killRound_follows (whole : s.commandStack = d :: rest) :
    Follows s ((s.popStack rest).emit .killed d none) c := by
  refine Follows.of_others (d := d) (fun p tracked => ?_) fun other => ?_
  · obtain rfl := tracked.paused_of_stack whole
    have hs := tracked.stacked
    rw [onStack, whole, count_cons_self] at hs
    exact ⟨.closed, tracked.advance .killed rfl (by simp) tracked.waiting tracked.current
      (Nat.succ.inj hs), by simp⟩
  · simp [whole, other, -replaces]

theorem killStack_follows (stack : List CommandRef) (whole : s.commandStack = stack) :
    Follows s (killStack stack s) c :=
  (killStack_keeps (M := fun rest r => r.commandStack = rest ∧ Follows s r c)
    (fun kept => ⟨rfl, kept.2.trans (killRound_follows kept.1)⟩)
    ⟨whole, follows_of_account rfl⟩).2

theorem killCurrent_follows (open' : s.checker.replaces = false) : Follows s s.killCurrent c := by
  unfold killCurrent
  split
  next d current =>
    split
    next => exact follows_of_account rfl
    next =>
      refine Follows.of_others (d := d) (fun p tracked => ?_) fun other => by simp [current, other]
      obtain rfl := tracked.running_of_current current open'
      exact ⟨.closed,
        tracked.advance .killed rfl (by simp) tracked.waiting (by simp) tracked.stacked, by simp⟩
  next => exact follows_of_account rfl

/-- The first half of a switch takes the new command from the queue into the hand of the
checker. -/
theorem takeFirst_account (point : CheckerPoint)
    (isTop : s.commandSubmittedQueue.top = some first) (free : s.checker.inHand = [])
    (hh : point.inHand = [first.element]) :
    ((s.popSubmitted first).goto point).inQueue c + ((s.popSubmitted first).goto point).inHand c =
      s.inQueue c + s.inHand c := by
  have hp := inQueue_popSubmitted isTop c
  have hand : ((s.popSubmitted first).goto point).inHand c =
      if first.element = c then 1 else 0 := by
    rw [inHand, goto_checker, hh, count_singleton]
    simp
  have before : s.inHand c = 0 := by rw [inHand, free, count_nil]
  rw [hand, before]
  exact hp.symm

theorem close_follows {fault : Option FaultDescription}
    (closing : Phase.running.advance type = some .closed)
    (point : s.checker = .queueChecked false) (hc : s.currentExecutingCommand = some d)
    (isTop : s.commandSubmittedQueue.top = some first) :
    Follows s (((s.emit type d fault).popSubmitted first).goto (.replacing first.element)) c := by
  have hw (c : CommandRef) := takeFirst_account (s := s.emit type d fault) (c := c)
    (.replacing first.element) isTop (by rw [emit_checker, point]; rfl) rfl
  refine Follows.of_others (d := d) (fun p tracked => ?_) fun other => ?_
  · obtain rfl := tracked.running_of_current hc (by rw [point]; rfl)
    exact ⟨.closed, tracked.advance type closing (by simp) ((hw d).trans tracked.waiting)
      (by simp) tracked.stacked, by simp⟩
  · simp only [account, Prod.mk.injEq]
    exact ⟨by simp [other], hw c, by simp [hc, other], rfl⟩

/-- The second half of a switch that pauses the current command. -/
theorem finishStack_follows {pushed : BatchCommandSandbox} (plain : (s.commands c).sticky = false)
    (point : s.checker = .stacking next) (hc : s.currentExecutingCommand = some d)
    (hp : pushed = { s with
      commandStack := if (s.commands d).sticky then s.commandStack else d :: s.commandStack }) :
    Follows s (((pushed.emit .paused d none).installHandler next now setOut).goto .idle) c := by
  subst hp
  intro p tracked
  have hand : s.checker.inHand = [next] := by rw [point]; rfl
  obtain rfl | paused := eq_or_ne d c
  · obtain rfl := tracked.running_of_current hc (by rw [point]; rfl)
    -- The command in hand waits, so it is not the one that runs.
    have other : next ≠ d := by
      rintro rfl
      cases tracked.queued_of_inHand hand
    have hw := tracked.waiting
    have stacked := tracked.stacked
    exact ⟨.paused, tracked.advance .paused rfl (by simp [other]) (by simp_all) (by simp [other])
      (by simp_all), by simp⟩
  · obtain rfl | hi := eq_or_ne next c
    · obtain rfl := tracked.queued_of_inHand hand
      have hw := tracked.waiting
      have stacked := tracked.stacked
      refine ⟨.running, tracked.advance .running rfl ?_ ?_ ?_ ?_, by simp⟩
      · simp [paused]
      · simp_all
      · simp
      · split <;> simp_all
    · refine ⟨p, tracked.of_account ?_, id⟩
      simp only [account, Prod.mk.injEq]
      refine ⟨by simp [paused, hi], ?_, ?_, ?_⟩
      · simp [point, hi]
      · simp [hc, paused, hi]
      · split <;> simp [paused]

/-- The second half of a switch that removes the current command. The slot is already
counted as free. -/
theorem finishReplace_follows (point : s.checker = .replacing next) :
    Follows s (((s.removeHandler d endOut).installHandler next now setOut).goto .idle)
      c := by
  refine Follows.of_others (d := next) (fun p tracked => ?_) fun other => by simp [point, other]
  obtain rfl := tracked.queued_of_inHand (by rw [point]; rfl)
  have hw := tracked.waiting
  exact ⟨.running, tracked.advance .running rfl (by simp) (by simp_all) (by simp)
    (by simpa using tracked.stacked), by simp⟩

theorem installFirst_follows (point : s.checker = .queueChecked false)
    (hv : s.currentExecutingCommand = none)
    (isTop : s.commandSubmittedQueue.top = some first) :
    Follows s (((s.installHandler first.element now setOut).popSubmitted first).goto .idle)
      c := by
  have hp := count_refs_pop isTop
  -- The top of the queue moves to the slot; any other command stays where it is.
  refine Follows.of_others (d := first.element) (fun p tracked => ?_) fun other => ?_
  · obtain rfl := tracked.queued_of_top isTop rfl
    have hw := tracked.waiting
    rw [inQueue, hp, if_pos rfl, if_pos rfl] at hw
    exact ⟨.running, tracked.advance .running rfl (by simp) (by simp; omega) (by simp)
      (by simpa using tracked.stacked), by simp⟩
  · simp [point, hv, other, hp c]

/-- A command that has ended by one of the three ended values is reported. -/
theorem reportEnd_history (ended : rpEnd ≤ (s.commands c).runningProperty)
    (known : (s.commands c).runningProperty ≤ rpFatalFault) :
    ∃ ev, Phase.running.advance ev = some .closed ∧
      (s.reportEnd c).history c = s.history c ++ [ev] := by
  have values : (s.commands c).runningProperty = 2 ∨ (s.commands c).runningProperty = 3 ∨
      (s.commands c).runningProperty = 4 := by
    simp only [rpEnd, rpFatalFault] at ended known
    omega
  rcases values with hp | hp | hp
  · exact ⟨.completed, rfl, by simp [endEvents, hp]⟩
  · exact ⟨.fault, rfl, by simp [endEvents, hp]⟩
  · exact ⟨.fatalFault, rfl, by simp [endEvents, hp]⟩

/-- The reports about another command do not change the history of this one. -/
theorem reportEnd_history_of_ne (other : d ≠ c) : (s.reportEnd d).history c = s.history c := by
  simp only [history, reportEnd_events, endEvents]
  split <;> simp [other]

/-- The current command is reported as ended and leaves the slot. -/
theorem reportEnd_follows (point : s.checker = .ending) (hc : s.currentExecutingCommand = some d)
    (ended : rpEnd ≤ (s.commands d).runningProperty)
    (known : (s.commands d).runningProperty ≤ rpFatalFault) :
    Follows s (s.resetCurrent.reportEnd d) c := by
  refine Follows.of_others (d := d) (fun p tracked => ?_) fun other => ?_
  · obtain rfl := tracked.running_of_current hc (by rw [point]; rfl)
    -- Between `RP_END` and `RP_FATAL_FAULT` the switch has a case.
    obtain ⟨ev, closing, hr⟩ :=
      reportEnd_history ended known
    exact ⟨.closed, tracked.advance ev closing hr (by simpa using tracked.waiting)
      (by simp) (by simpa using tracked.stacked), by simp⟩
  · simp only [account, Prod.mk.injEq]
    exact ⟨reportEnd_history_of_ne other, by simp, by simp [hc, other], by simp⟩

/-- The command on top of the stack goes back to the free slot. -/
theorem resume_follows (point : s.checker = .ending)
    (hv : s.currentExecutingCommand = none) (hs : s.commandStack = next :: rest) :
    Follows s ((((s.removeHandler d endOut).installHandler next now setOut).popStack
      rest).goto .stickyCheck) c := by
  refine Follows.of_others (d := next) (fun p tracked => ?_) fun other => ?_
  · obtain rfl := tracked.paused_of_stack hs
    have hw := tracked.waiting
    have kept := tracked.stacked
    rw [onStack, hs, count_cons_self] at kept
    exact ⟨.running, tracked.advance .running rfl (by simp) (by simp_all) (by simp)
      (Nat.succ.inj kept), by simp⟩
  · simp [point, hv, hs, other]

/-! ### Running properties -/

/-- While the checker waits for the mutex in front of the switch over the ended command, a
timeout handler does not put the command back into a running state. -/
def KeepsEnding (s : BatchCommandSandbox) : Action → Prop
  | .runCommand _ _ _ _ timeoutOutcome =>
      s.checker = .ending → ∀ property ∈ timeoutOutcome.property, rpEnd ≤ property % 256
  | _ => True

/-- User code writes no running property but the five of `RunningPropertyType`, and keeps
a command ended that the checker has found ended. -/
def Behaved (s : BatchCommandSandbox) (action : Action) : Prop :=
  action.Leaves (· ≤ rpFatalFault) ∧ s.KeepsEnding action

instance : ∀ action, Decidable (s.KeepsEnding action)
  | .runCommand .. => by unfold KeepsEnding; infer_instance
  | .setDefaultStickyCommand _ | .start | .stop | .deinit | .enqueueCommand .. | .enqueueDone _
  | .killCurrentCommand | .clearCommandQueue | .setCurrentCommandFeatures _
  | .setCurrentCommandScheduerStepDelay _ | .checkQueue _ | .compareWithCurrent _ | .checkEnded
  | .finishSwitch .. | .endCurrent .. | .installFirst .. | .installSticky .. => .isTrue trivial

instance (action : Action) : Decidable (s.Behaved action) := inferInstanceAs (Decidable (_ ∧ _))

/-- Every running property is one of the five, and a command that the checker has found
ended is still ended. -/
structure Disciplined (s : BatchCommandSandbox) : Prop where
  known : ∀ c, (s.commands c).runningProperty ≤ rpFatalFault
  ending : s.checker = .ending →
    ∃ c, s.currentExecutingCommand = some c ∧ rpEnd ≤ (s.commands c).runningProperty

theorem disciplined_init : init.Disciplined where
  known := fun _ => by simp [init, noCommand, instanceCommandInfo]
  ending := nofun

/-- In the window in front of the locked switch, a behaved round of the scheduler leaves an
ended command ended: the functors skip it and the timeout handler keeps it ended. -/
theorem writes_ended {owns : Bool} {acq corr : HandlerOutcome} {tout : TimeoutOutcome}
    (hs : ∀ property ∈ tout.property, rpEnd ≤ property % 256)
    {f : BatchCommand → BatchCommand}
    (write : f ∈ (Action.runCommand owns now acq corr
      tout).writes) (ended : rpEnd ≤ cmd.runningProperty) :
    rpEnd ≤ (f cmd).runningProperty := by
  simp only [Action.writes, mem_cons, not_mem_nil, or_false] at write
  rcases write with rfl | rfl | rfl | rfl
  · exact show 2 ≤ 2 % 256 by decide
  · dsimp only
    rwa [acquireFunctor, if_neg (Nat.not_lt.mpr ended)]
  · dsimp only
    rwa [correlationFunctor, if_neg (Nat.not_lt.mpr ended)]
  · exact commandPost_leaves hs (show 2 ≤ 3 by decide) ended

theorem step_disciplined (ha : s.Allocated) (hd : s.Disciplined) (behaved : s.Behaved act)
    (taken : s.step act = some t) : t.Disciplined := by
  have known : ∀ c, (t.commands c).runningProperty ≤ rpFatalFault := by
    refine step_commands (P := fun _ cmd => cmd.runningProperty ≤ rpFatalFault) taken hd.known ?_ ?_
    · exact fun f write d cmd =>
        writes_leaves behaved.1 (show 2 ≤ 4 by decide) (show 3 ≤ 4 by decide) write
    · exact fun cmd new id => creates_runningProperty new ▸ (show 1 ≤ 4 by decide)
  refine ⟨known, fun point => ?_⟩
  -- The checker either enters the window, and has just read an ended property, or stays in it.
  cases step_effect taken with
  | foundEnded _ hc ended => exact ⟨_, hc, ended⟩
  | @run owns now acq corr tout c started hr hc =>
    have same : s.checker = .ending := (runCurrent_frame (·.checker)).symm.trans point
    obtain ⟨d, slot, ended⟩ := hd.ending same
    obtain rfl := Option.some.inj (hc.symm.trans slot)
    refine ⟨c, ?_, ?_⟩
    · exact (runCurrent_frame (·.currentExecutingCommand)).trans hc
    · refine step_commands (P := fun d cmd => d = c → rpEnd ≤ cmd.runningProperty) taken
        ?_ ?_ ?_ c rfl
      · rintro d rfl
        exact ended
      · exact fun f write d cmd kept same' => writes_ended (behaved.2 same) write (kept same')
      · exact nofun
  | features hc | stepDelay hc =>
    obtain ⟨d, slot, ended⟩ := hd.ending point
    obtain rfl := Option.some.inj (hc.symm.trans slot)
    exact ⟨_, slot, by simpa using ended⟩
  | setDefault hs => cases (ha.idle hs).symm.trans point
  | enqueue =>
    obtain ⟨d, slot, ended⟩ := hd.ending point
    have old : d ≠ s.commandSequenceId + 1 :=
      (Nat.lt_succ_of_le (ha.refers d (.inr (.inl slot)))).ne
    exact ⟨d, slot, by simpa [submit, old] using ended⟩
  | deinit hs =>
    have same := congrArg (fun control => control.2.1) (control_deinit (s := s))
    cases (ha.idle hs).symm.trans (same.symm.trans point)
  | start | stop | enqueueDone | refuse | noFeatures | noStepDelay | runNothing | kill | clear =>
    exact hd.ending point
  | _ => cases point

/-- The report that comes first in all the branches behind the unlocked test needs the discipline of
user code. -/
theorem ending_follows (hd : s.Disciplined) (point : s.checker = .ending)
    (hc : s.currentExecutingCommand = some d) :
    Follows s (s.resetCurrent.reportEnd d) c := by
  obtain ⟨e, slot, ended⟩ := hd.ending point
  obtain rfl := Option.some.inj (hc.symm.trans slot)
  exact reportEnd_follows point hc ended (hd.known d)

/-- Every step follows every plain command that it does not add. -/
theorem step_follows (ha : s.Allocated) (hd : s.Disciplined)
    (taken : s.step act = some t) (plain : (s.commands c).sticky = false)
    (old : s.commandSequenceId < c → t.commandSequenceId < c) : Follows s t c := by
  cases step_effect taken with
  | enqueue =>
    have other : c ≠ s.commandSequenceId + 1 := by
      rintro rfl
      exact absurd (old (Nat.lt_succ_self _)) (lt_irrefl _)
    exact follows_of_account (by simp [submit, refs, other.symm, -replaces])
  -- The parts of `deinit`, one after the other.
  | deinit hs =>
    have open' : s.checker.replaces = false := by rw [ha.idle hs]; rfl
    refine (killCurrent_follows open').trans ?_
    refine (killStack_follows _ killCurrent_commandStack).trans ?_
    refine (drainSubmittedQueue_follows (.inr rfl) s.commandSubmittedQueue.length).trans ?_
    exact follows_of_account rfl
  | @checkQueue owns started point drained ops =>
    have drained_follows : Follows s drained c := by
      subst ops
      split
      · exact consumeWaitCmdOps_follows _
      · exact follows_of_account rfl
    have free : drained.checker = .idle := (drained_frame (·.checker) ops).trans point
    refine drained_follows.trans (follows_of_account ?_)
    simp [free]
  -- From the queue to the hand of the checker: `waiting` counts both.
  | stack point hc isTop =>
    refine follows_of_account ?_
    simp only [account, Prod.mk.injEq]
    refine ⟨rfl, takeFirst_account _ isTop (by rw [point]; rfl) rfl, ?_, rfl⟩
    simp [point]
  | close point hc isTop closing =>
    refine close_follows ?_ point hc isTop
    rcases closing with rfl | rfl | ⟨rfl, -⟩ <;> rfl
  | finishStack point hc hp => exact finishStack_follows plain point hc hp
  | finishReplace point => exact finishReplace_follows point
  | installFirst point hv isTop => exact installFirst_follows point hv isTop
  | resume point hc stacked =>
    refine (ending_follows hd point hc).trans ?_
    exact resume_follows (by simpa using point) (by simp) (by simpa using stacked)
  | endSticky point hc | endLast point hc =>
    exact (ending_follows hd point hc).trans (follows_of_account (by simp [point]))
  -- The default command is sticky, so it is not the plain one that is followed.
  | @installSticky _ _ d point hv default sticky =>
    have other : d ≠ c := by
      rintro rfl
      exact absurd plain (by simp [sticky])
    exact follows_of_account (by simp [point, hv, other])
  | run => exact follows_of_account (runCurrent_frame (·.account c))
  | retry point | foundEnded point | foundNoneEnded point | skipSticky point =>
    exact follows_of_account (by simp [point])
  | _ => exact follows_of_account rfl

/-- The command that `enqueueCommand` adds is queued and nowhere else. -/
theorem submit_tracked {prio : Nat} (fresh : s.Tracked (s.commandSequenceId + 1) .fresh) :
    (s.submit cmd prio).Tracked (s.commandSequenceId + 1) .queued := by
  have hw := fresh.waiting
  refine fresh.advance .queued rfl ?_ ?_ fresh.current fresh.stacked
  · simp [submit]
  · simp_all [submit, refs]

/-! ### After deinit -/

theorem drainSubmittedQueue_empties {n : Nat} (he : s.commandSubmittedQueue.length ≤ n) :
    (drainSubmittedQueue type n s).commandSubmittedQueue = [] := by
  induction n generalizing s with
  | zero => exact length_eq_zero_iff.mp (Nat.le_zero.mp he)
  | succ n ih =>
    unfold drainSubmittedQueue
    cases isTop : s.commandSubmittedQueue.top with
    | none => exact top_eq_none.mp isTop
    | some first =>
      have hs := length_pop isTop
      refine ih ?_
      simp only [emit_commandSubmittedQueue, popSubmitted_commandSubmittedQueue]
      omega

theorem killStack_empties (stack : List CommandRef) (whole : s.commandStack = stack) :
    (killStack stack s).commandStack = [] :=
  killStack_keeps (M := fun rest r => r.commandStack = rest) (fun _ => rfl) whole

theorem killCurrent_sticky (hc : s.killCurrent.currentExecutingCommand = some c) :
    (s.commands c).sticky = true := by
  unfold killCurrent at hc
  split at hc
  next d slot =>
    split at hc
    next sticky =>
      obtain rfl := Option.some.inj (slot.symm.trans hc)
      exact sticky
    next => cases hc
  next vacant => cases vacant.symm.trans hc

/-- A sandbox that has been deinitialized is stopped and holds no plain command. -/
structure Retired (s : BatchCommandSandbox) : Prop where
  stopped : s.scheduleWorkFlag = false
  queue : s.commandSubmittedQueue = []
  stack : s.commandStack = []
  current : ∀ c, s.currentExecutingCommand = some c → (s.commands c).sticky = true

theorem deinit_retired (hs : s.scheduleWorkFlag = false) :
    Retired { drainSubmittedQueue .killed s.commandSubmittedQueue.length
        (killStack s.commandStack s.killCurrent) with
      acquireHandlerFunctor := none
      correlationHandlerFunctor := none
      deinitialized := true } where
  stopped := (congrArg Prod.fst control_deinit).trans hs
  queue := drainSubmittedQueue_empties (by simp)
  stack := (drainSubmittedQueue_frame (·.commandStack)).trans
    (killStack_empties _ killCurrent_commandStack)
  current := by
    intro c hc
    rw [(drainSubmittedQueue_frame (·.currentExecutingCommand)).trans
      (killStack_frame (·.currentExecutingCommand))] at hc
    simpa using killCurrent_sticky hc

/-- Nothing restarts a deinitialized sandbox or submits to it. -/
theorem step_retired (ha : s.Allocated)
    (retired : s.deinitialized = true → s.Retired) (taken : s.step act = some t)
    (dead : t.deinitialized = true) : t.Retired := by
  have fixed : ∀ c, c ≤ s.commandSequenceId →
      (t.commands c).sticky = (s.commands c).sticky := fun c old =>
    sticky_of_fixedPart (step_fixedPart taken fun new => absurd old (not_le.mpr new))
  have hr : s.scheduleWorkFlag = true → s.deinitialized = true → t.Retired := by
    intro started dead
    cases started.symm.trans (retired dead).stopped
  -- The checker of a stopped sandbox is at the head of its loop.
  have checkerStep : s.checker ≠ .idle → s.deinitialized = true → t.Retired :=
    fun away dead => absurd (ha.idle (retired dead).stopped) away
  have hu : s.deinitialized = true → t.scheduleWorkFlag = s.scheduleWorkFlag →
      t.commandSubmittedQueue = s.commandSubmittedQueue → t.commandStack = s.commandStack →
      t.currentExecutingCommand = s.currentExecutingCommand → t.Retired := by
    intro dead flag queue stack hc
    refine ⟨flag.trans (retired dead).stopped, queue.trans (retired dead).queue,
      stack.trans (retired dead).stack, fun c slot => ?_⟩
    have hb := hc.symm.trans slot
    rw [fixed c (ha.refers c (.inr (.inl hb)))]
    exact (retired dead).current c hb
  cases step_effect taken with
  | deinit hs => exact deinit_retired hs
  | start _ live | enqueue live => exact absurd (live.symm.trans dead) (by decide)
  | stop started => exact hr started dead
  | run started =>
    exact hr started ((runCurrent_frame (·.deinitialized)).symm.trans dead)
  | checkQueue started point ops =>
    exact hr started ((drained_frame (·.deinitialized) ops).symm.trans dead)
  | finishStack point _ hp =>
    subst hp
    exact checkerStep (by simp [point]) dead
  | retry point | stack point | close point | finishReplace point | installFirst point
  | foundEnded point | foundNoneEnded point | resume point
  | endSticky point | endLast point | installSticky point | skipSticky point =>
    refine checkerStep (by simp [point]) ?_
    simpa using dead
  | _ => exact hu dead rfl rfl rfl rfl

/-! ### Whole runs -/

/-- The invariant of the runs in which user code is behaved. -/
structure Custody (s : BatchCommandSandbox) : Prop where
  allocated : s.Allocated
  disciplined : s.Disciplined
  retired : s.deinitialized = true → s.Retired
  tracked : ∀ c, (s.commands c).sticky = false → ∃ p, s.Tracked c p
  unused : ∀ c, s.commandSequenceId < c → (s.commands c).sticky = false ∧ s.Tracked c .fresh

theorem custody_init : init.Custody where
  allocated := allocated_init
  disciplined := disciplined_init
  retired := nofun
  tracked := fun _ _ => ⟨.fresh, rfl, rfl, rfl, rfl⟩
  unused := fun _ _ => ⟨rfl, rfl, rfl, rfl, rfl⟩

theorem step_custody (hc : s.Custody) (behaved : s.Behaved act)
    (taken : s.step act = some t) : t.Custody := by
  obtain ⟨counter, -⟩ := step_control hc.allocated.idle taken
  have fixed (c : CommandRef) (old : s.commandSequenceId < c → t.commandSequenceId < c) :
      (t.commands c).sticky = (s.commands c).sticky :=
    sticky_of_fixedPart (step_fixedPart taken old)
  have hf (c : CommandRef) (old : s.commandSequenceId < c → t.commandSequenceId < c)
      (plain : (s.commands c).sticky = false) : Follows s t c :=
    step_follows hc.allocated hc.disciplined taken plain old
  refine ⟨step_allocated hc.allocated taken,
    step_disciplined hc.allocated hc.disciplined behaved taken,
    step_retired hc.allocated hc.retired taken, fun c plain => ?_, fun c new => ?_⟩
  · by_cases old : s.commandSequenceId < c → t.commandSequenceId < c
    · rw [fixed c old] at plain
      obtain ⟨p, tracked⟩ := hc.tracked c plain
      obtain ⟨q, after, -⟩ := hf c old plain p tracked
      exact ⟨q, after⟩
    · -- The command has been added by this step.
      obtain ⟨new, added⟩ := Classical.not_imp.mp old
      rcases counter with adds | same
      · obtain rfl : c = s.commandSequenceId + 1 :=
          le_antisymm (adds.counter ▸ not_lt.mp added) new
        cases adds with
        | default sticky => simp [sticky] at plain
        | submitted => exact ⟨.queued, submit_tracked (hc.unused _ new).2⟩
      · exact absurd (same ▸ new) added
  · have hb : s.commandSequenceId < c := by
      rcases counter with adds | same
      · rw [adds.counter] at new
        omega
      · exact same ▸ new
    obtain ⟨plain, fresh⟩ := hc.unused c hb
    obtain ⟨q, after, kept⟩ := hf c (fun _ => new) plain _ fresh
    obtain rfl := kept rfl
    exact ⟨(fixed c fun _ => new).trans plain, after⟩

theorem custody_of_run {acts : List Action} (behaved : Admissible step Behaved init acts)
    (run : execute step init acts = some s) : s.Custody :=
  behaved.invariant step_custody custody_init run

/-- In one phase, and in one place: the weights of `Tracked` and the closing events add up
to one for a submitted command. -/
theorem Tracked.places (tracked : s.Tracked c p) (hs : p ≠ .fresh) :
    s.inQueue c + s.inHand c + s.inSlot c + s.onStack c + s.closings c = 1 := by
  rw [tracked.waiting, tracked.current, tracked.stacked, closings,
    countP_closing_of_phaseOf tracked.phase]
  cases p <;> simp_all

/-- A command that is nowhere and has been submitted is closed. -/
theorem Tracked.closed_of_retired (tracked : s.Tracked c p) (hs : p ≠ .fresh)
    (retired : s.Retired) (hi : s.checker = .idle) (plain : (s.commands c).sticky = false) :
    s.closings c = 1 := by
  have places := tracked.places hs
  have slot : s.inSlot c = 0 := by
    refine if_neg fun occupied => ?_
    cases plain.symm.trans (retired.current c occupied.1)
  rw [inQueue, inHand, onStack, slot, retired.queue, retired.stack, hi] at places
  simpa [refs] using places

/-- **Life of a submitted command.** In every run in which user code is behaved the events of a
submitted plain command are a prefix of a word of `lifecycle`; it is in exactly one of the queue,
the hand of the checker, the current slot, the stack and the closed commands, and in the hand only
while the mutex of the current command is held; after `deinit` it has had exactly one closing event.
-/
theorem submitted_command_lifecycle (actions : List Action)
    (behaved : Admissible step Behaved init actions)
    (run : execute step init actions = some s) (plain : (s.commands c).sticky = false)
    (submitted : .queued ∈ s.history c) :
    (∃ full ∈ lifecycle.matches', s.history c <+: full) ∧
      s.inQueue c + s.inHand c + s.inSlot c + s.onStack c + s.closings c = 1 ∧
      (s.checker.holdsCurrent = false →
        s.inQueue c + (if s.currentExecutingCommand = some c then 1 else 0) + s.onStack c +
          s.closings c = 1) ∧
      (s.deinitialized = true → s.closings c = 1) := by
  have hc := custody_of_run behaved run
  obtain ⟨p, tracked⟩ := hc.tracked c plain
  have started : p ≠ .fresh := by
    rintro rfl
    rw [show s.history c = [] from words_of_phaseOf tracked.phase] at submitted
    cases submitted
  have places := tracked.places started
  refine ⟨prefix_lifecycle_of_phaseOf tracked.phase, places, fun hr => ?_, fun dead => ?_⟩
  -- Off the mutex nothing is in the hand of the checker and no slot is being replaced.
  · have hand : s.inHand c = 0 := by
      cases point : s.checker <;> simp_all [holdsCurrent]
    have slot : s.inSlot c = if s.currentExecutingCommand = some c then 1 else 0 := by
      cases point : s.checker <;> simp_all [holdsCurrent]
    rw [hand, slot] at places
    exact places
  · have retired := hc.retired dead
    exact tracked.closed_of_retired started retired (hc.allocated.idle retired.stopped) plain

/-- A class with a set and a correlation handler and a timeout of 500 microseconds. -/
def timedClass : CommandClass := ⟨"timed", 5, ⟨4, 0, 0, 500⟩⟩

/-- A handler that returns after one `setRunningProperty` call. -/
def sets (property : Nat) : HandlerOutcome := ⟨some property, none, none⟩

/-- A command ends itself in its first step and is closed by the checker. -/
def ordinaryRun : List Action :=
  [.start, .enqueueCommand timedClass submitNormal 1000 1000 50, .enqueueDone 1, .checkQueue true,
    .installFirst 100 .silent, .runCommand true 200 .silent (sets rpEnd) .silent,
    .checkQueue true, .checkEnded, .endCurrent 300 .silent .silent, .installSticky 400 .silent,
    .stop, .deinit]

/-- As `ordinaryRun`, but the scheduler makes one more step between the unlocked test and the
locked switch, and in that step the timeout handler asks for more time. -/
def revivedRun : List Action :=
  [.start, .enqueueCommand timedClass submitNormal 1000 1000 50, .enqueueDone 1, .checkQueue true,
    .installFirst 100 .silent, .runCommand true 200 .silent (sets rpEnd) .silent,
    .checkQueue true, .checkEnded,
    .runCommand true 700 .silent .silent ⟨sets rpNormal, false⟩,
    .endCurrent 800 .silent .silent, .installSticky 900 .silent, .stop, .deinit]

theorem submitted_command_lifecycle_ordinary :
    ∃ s, execute step init ordinaryRun = some s ∧ s.history 1 = [.queued, .running, .completed] ∧
      s.closings 1 = 1 := by
  refine ⟨_, rfl, by decide, ?_⟩
  exact (submitted_command_lifecycle ordinaryRun (by decide) rfl (by decide)
    (by decide)).2.2.2 (by decide)

/-- The switch after the unlocked test finds no ended property and reports nothing: the
command disappears without a closing event. -/
theorem revived_command_vanishes :
    ∃ s, execute step init revivedRun = some s ∧ (s.commands 1).sticky = false ∧
      s.history 1 = [.queued, .running] ∧ s.deinitialized = true ∧ s.closings 1 = 0 ∧
      s.inQueue 1 = 0 ∧ s.currentExecutingCommand = none ∧ s.onStack 1 = 0 := by
  decide

end BatchCommandSandbox

end ChaosFramework.Batch
