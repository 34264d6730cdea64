import ChaosFramework.Batch.SandboxFrame
import ChaosFramework.Batch.ParallelSandbox

/-!
# Sandboxes as execution channels

The executor talks to a sandbox of either kind through `AbstractSandbox`: it enqueues commands, gets
identifiers back and is called with events. A command is submitted under the next number of its
sandbox, its identifier is that number in 64 bits (`Numbered`), and a step reports events of
commands that have a number; only a submission announces a command (`step_reports`).
-/

namespace ChaosFramework.Batch

open RunningPropertyType SubmissionRuleType HandlerType List Option Function

/-! ### What a step of the serialized sandbox reports -/

namespace BatchCommandSandbox

variable {s t r : BatchCommandSandbox} {c : CommandRef} {act : Action}

/-- Between `s` and `t` only commands that `s` refers to have been reported, none of them as
queued. -/
def Reports (s t : BatchCommandSandbox) : Prop :=
  ∃ new, t.events = s.events ++ new ∧
    ∀ event ∈ new, s.Refers event.command ∧ event.type ≠ .queued

theorem reports_of_events (same : t.events = s.events) : Reports s t :=
  ⟨[], by rw [same, append_nil], nofun⟩

theorem reports_one (ev : CommandEvent) (added : t.events = s.events ++ [ev])
    (hr : s.Refers ev.command) (later : ev.type ≠ .queued) : Reports s t := by
  refine ⟨[ev], added, fun other hm => ?_⟩
  obtain rfl := mem_singleton.mp hm
  exact ⟨hr, later⟩

theorem Reports.trans (first : Reports s t)
    (hr : ∀ c, t.Refers c → s.Refers c) (second : Reports t r) : Reports s r := by
  obtain ⟨new, added, known⟩ := first
  obtain ⟨more, addedToo, knownToo⟩ := second
  refine ⟨new ++ more, by rw [addedToo, added, append_assoc], fun ev hm => ?_⟩
  rcases mem_append.mp hm with old | last
  · exact known ev old
  · exact ⟨hr _ (knownToo ev last).1, (knownToo ev last).2⟩

/-- A loop reports commands and refers to nothing new. -/
def Shrinks (s t : BatchCommandSandbox) : Prop := Reports s t ∧ ∀ c, t.Refers c → s.Refers c

theorem Shrinks.refl (s : BatchCommandSandbox) : Shrinks s s :=
  ⟨reports_of_events rfl, fun _ => id⟩

theorem Shrinks.trans (first : Shrinks s t) (second : Shrinks t r) :
    Shrinks s r :=
  ⟨first.1.trans first.2 second.1, fun c hr => first.2 c (second.2 c hr)⟩

theorem drainRound_shrinks {type : BatchCommandEventType} {first : PriorityQueuedElement}
    (later : type ≠ .queued) (isTop : s.commandSubmittedQueue.top = some first) :
    Shrinks s ((s.popSubmitted first).emit type first.element none) := by
  refine ⟨reports_one ⟨first.element, type, none, _⟩ rfl
    (.inl (.inl (top_mem_refs isTop))) later, fun c hr => ?_⟩
  rcases hr with hp | other
  · exact .inl (Pending.of_popSubmitted hp)
  · exact .inr other

theorem killRound_shrinks {d : CommandRef} {rest : List CommandRef}
    (whole : s.commandStack = d :: rest) :
    Shrinks s ((s.popStack rest).emit .killed d none) := by
  refine ⟨reports_one ⟨d, .killed, none, _⟩ rfl
    (.inl (.inr (.inr (whole ▸ mem_cons_self ..)))) (by simp), fun c hr => ?_⟩
  rcases hr with hp | other
  · exact .inl (Pending.of_popStack hp whole)
  · exact .inr other

theorem killCurrent_shrinks : Shrinks s s.killCurrent := by
  unfold killCurrent
  split
  next d hc =>
    split
    · exact Shrinks.refl s
    · refine ⟨reports_one ⟨d, .killed, none, _⟩ rfl (.inr (.inl hc)) (by simp), fun c hr => ?_⟩
      rcases hr with hp | hc | hd
      · exact .inl hp
      · cases hc
      · exact .inr (.inr hd)
  next => exact Shrinks.refl s

theorem deinit_shrinks : Shrinks s (drainSubmittedQueue .killed s.commandSubmittedQueue.length
    (killStack s.commandStack s.killCurrent)) := by
  have stack : Shrinks s (killStack s.commandStack s.killCurrent) :=
    (killStack_keeps (M := fun rest r => r.commandStack = rest ∧ Shrinks s r)
      (fun kept => ⟨rfl, kept.2.trans (killRound_shrinks kept.1)⟩)
      ⟨killCurrent_commandStack, killCurrent_shrinks⟩).2
  exact drainSubmittedQueue_keeps _
    (fun kept isTop => kept.trans (drainRound_shrinks (by simp) isTop)) stack

theorem endEvents_later {ev : CommandEvent} (hm : ev ∈ s.endEvents c) :
    ev.command = c ∧ ev.type ≠ .queued := by
  unfold endEvents at hm
  split at hm <;> simp only [mem_singleton, not_mem_nil] at hm
  all_goals subst hm; exact ⟨rfl, by simp⟩

/-- The current command is reported as ended, then possibly another one as running. -/
theorem reports_end (more : List CommandEvent) (hc : s.currentExecutingCommand = some c)
    (added : t.events = s.events ++ (s.endEvents c ++ more))
    (known : ∀ ev ∈ more, s.Refers ev.command ∧ ev.type ≠ .queued) : Reports s t := by
  refine ⟨_, added, fun ev hm => ?_⟩
  rcases mem_append.mp hm with ended | other
  · obtain ⟨named, later⟩ := endEvents_later ended
    exact ⟨named ▸ .inr (.inl hc), later⟩
  · exact known ev other

/-- A step reports commands that are referred to, or announces the command it submits. -/
theorem step_reports (taken : s.step act = some t) :
    Reports s t ∨ s.deinitialized = false ∧
      t.events = s.events ++ [⟨s.commandSequenceId + 1, .queued, none, s.cmdStat⟩] ∧
      ∃ descr rule retry delay prio, act = .enqueueCommand descr rule retry delay prio := by
  cases step_effect taken with
  | enqueue live => exact .inr ⟨live, rfl, _, _, _, _, _, rfl⟩
  | deinit => exact .inl deinit_shrinks.1
  -- The drained commands were all in the queue of the first state: `Shrinks` remembers that.
  | @checkQueue owns _ _ drained ops =>
    left
    subst ops
    split
    · exact (consumeWaitCmdOps_keeps (fun kept => kept.trans ⟨reports_of_events rfl, fun _ => id⟩)
        (fun kept isTop => kept.trans (drainRound_shrinks (by simp) isTop)) (Shrinks.refl s)).1
    · exact reports_of_events rfl
  | @close _ d _ type fault _ hc _ closing =>
    refine .inl (reports_one ⟨d, type, fault, _⟩ rfl (.inr (.inl hc)) ?_)
    rcases closing with rfl | rfl | ⟨rfl, -⟩ <;> simp
  | @finishStack _ _ _ d next point hc _ hp =>
    subst hp
    have hh : s.Refers next := .inl (.inr (.inl (point ▸ mem_singleton_self _)))
    refine .inl ⟨[⟨d, .paused, none, s.cmdStat⟩, ⟨next, .running, none, s.cmdStat⟩], by simp, ?_⟩
    simp only [forall_mem_cons, not_mem_nil, false_imp_iff, implies_true, and_true]
    exact ⟨⟨.inr (.inl hc), by simp⟩, hh, by simp⟩
  | @finishReplace _ _ _ d next point hc =>
    have hh : s.Refers next := .inl (.inr (.inl (point ▸ mem_singleton_self _)))
    exact .inl (reports_one ⟨next, .running, none, _⟩ (by rfl) hh (by simp))
  | @installFirst _ _ first _ _ isTop =>
    exact .inl (reports_one ⟨first.element, .running, none, _⟩ (by rfl)
      (.inl (.inl (top_mem_refs isTop))) (by simp))
  -- Two events: the end of the current command and the return of the paused one.
  | @resume _ _ _ d next rest _ hc stacked =>
    refine .inl (reports_end [⟨next, .running, none, s.cmdStat⟩] hc (by simp [endEvents]) ?_)
    simp only [forall_mem_cons, not_mem_nil, false_imp_iff, implies_true, and_true]
    exact ⟨.inl (.inr (.inr (stacked ▸ mem_cons_self ..))), by simp⟩
  | @endSticky _ _ _ d _ hc | @endLast _ _ _ d _ hc =>
    exact .inl (reports_end [] hc (by simp [endEvents]) (by simp))
  | @installSticky _ _ d _ _ hd =>
    exact .inl (reports_one ⟨d, .running, none, _⟩ (by rfl) (.inr (.inr hd)) (by simp))
  | run =>
    exact .inl (reports_of_events (runCurrent_frame (·.events)))
  | _ => exact .inl (reports_of_events rfl)

/-- A step that adds no object leaves the counter alone. -/
theorem step_commandSequenceId (taken : s.step act = some t)
    (none : act.creates = none) : t.commandSequenceId = s.commandSequenceId := by
  cases step_effect taken with
  | setDefault | enqueue => cases none
  | deinit =>
    have same := control_deinit (s := s)
    exact congrArg (·.2.2) same
  | checkQueue _ _ ops =>
    rw [goto_commandSequenceId]
    exact drained_frame (·.commandSequenceId) ops
  | @run owns now acq corr tout c =>
    have same := control_runCurrent (s := s) (c := c) owns now acq corr tout
    exact congrArg (·.2.2) same
  | finishStack _ _ hp =>
    subst hp
    simp
  | _ => simp

/-- Commands are numbered from one, and the identifier is the number in 64 bits. -/
structure Numbered (s : BatchCommandSandbox) : Prop where
  allocated : s.Allocated
  positive : ∀ c : Nat, s.Refers c → 0 < c
  named : ∀ c : Nat, 0 < c → c ≤ s.commandSequenceId → (s.commands c).uniqueId = c % 2 ^ 64

theorem Adds.uniqueId (adds : s.Adds t) :
    (t.commands (s.commandSequenceId + 1)).uniqueId = (s.commandSequenceId + 1) % 2 ^ 64 := by
  cases adds <;> simp [submit]

theorem step_numbered (hn : s.Numbered) (taken : s.step act = some t) : t.Numbered where
  allocated := step_allocated hn.allocated taken
  positive c hr := by
    rcases step_refers taken hr with before | ⟨rfl, -⟩
    · exact hn.positive c before
    · exact Nat.succ_pos _
  named c hp below := by
    -- A step adds at most one object, under the next number, and renames none.
    have kept (old : c ≤ s.commandSequenceId) : (t.commands c).uniqueId = c % 2 ^ 64 := by
      have same := step_fixedPart taken fun above => absurd above (Nat.not_lt.mpr old)
      rw [show (t.commands c).uniqueId = (s.commands c).uniqueId from
        congrArg BatchCommand.FixedPart.uniqueId same]
      exact hn.named c hp old
    rcases (step_control hn.allocated.idle taken).1 with adds | same
    · rw [adds.counter] at below
      rcases Nat.le_succ_iff.mp below with old | rfl
      · exact kept old
      · exact adds.uniqueId
    · exact kept (same ▸ below)

/-- The sandbox refers to the command or has reported it. -/
def Knows (s : BatchCommandSandbox) (c : CommandRef) : Prop :=
  s.Refers c ∨ ∃ event ∈ s.events, event.command = c

/-- The events of the command begin with its announcement, which is not repeated. -/
def Opened (s : BatchCommandSandbox) (c : CommandRef) : Prop :=
  ∃ later, historyOf s.events c = .queued :: later ∧ .queued ∉ later

structure Announced (s : BatchCommandSandbox) : Prop where
  numbered : s.Numbered
  known : ∀ c : Nat, s.Knows c →
    0 < c ∧ c ≤ s.commandSequenceId ∧ ((s.commands c).sticky = false → s.Opened c)

theorem Opened.step (ho : s.Opened c) (hb : c ≤ s.commandSequenceId)
    (ht : s.step act = some t) : t.Opened c := by
  obtain ⟨later, he, hn⟩ := ho
  rcases step_reports ht with ⟨new, events, hr⟩ | ⟨-, events, -⟩
  · refine ⟨later ++ historyOf new c, by rw [events, historyOf_append, he, cons_append], ?_⟩
    have unqueued : .queued ∉ historyOf new c := by
      intro hm
      obtain ⟨ev, hf, type⟩ := List.mem_map.mp hm
      exact (hr ev (mem_filter.mp hf).1).2 type
    exact fun hm => (mem_append.mp hm).elim hn unqueued
  · -- another command is announced
    have other : s.commandSequenceId + 1 ≠ c := (Nat.lt_succ_of_le hb).ne'
    exact ⟨later, by simp [events, he, other], hn⟩

/-- Only the object that a step adds is new. -/
theorem adds_of_knows (hn : s.Numbered) (hs : ¬ s.Knows c) (hk : t.Knows c)
    (ht : s.step act = some t) : s.Adds t ∧ c = s.commandSequenceId + 1 := by
  rcases hk with hr | ⟨ev, hm, rfl⟩
  · rcases step_refers ht hr with hb | ⟨hc, hq⟩
    · exact absurd (.inl hb) hs
    · exact ⟨(step_control hn.allocated.idle ht).1.resolve_right (by omega), hc⟩
  · rcases step_reports ht with ⟨new, events, hr⟩ | ⟨hl, events, _, _, _, _, _, rfl⟩
    · rcases mem_append.mp (events ▸ hm) with ho | hn
      · exact absurd (.inr ⟨ev, ho, rfl⟩) hs
      · exact absurd (.inl (hr ev hn).1) hs
    · cases step_effect ht with
      | refuse hd => cases hl.symm.trans hd
      | enqueue =>
        rcases mem_append.mp (events ▸ hm) with ho | hn
        · exact absurd (.inr ⟨ev, ho, rfl⟩) hs
        · exact ⟨.submitted rfl, by rw [mem_singleton.mp hn]⟩

theorem step_announced (ha : s.Announced) (ht : s.step act = some t) : t.Announced := by
  refine ⟨step_numbered ha.numbered ht, fun c hk => ?_⟩
  by_cases hs : s.Knows c
  · obtain ⟨hp, hb, hq⟩ := ha.known c hs
    have fixed := step_fixedPart ht fun new => absurd hb (not_le.mpr new)
    refine ⟨hp, hb.trans ?_, fun plain => (hq ?_).step hb ht⟩
    · rcases (step_control ha.numbered.allocated.idle ht).1 with adds | he
      · exact adds.counter ▸ Nat.le_succ _
      · exact he.ge
    · rwa [BatchCommand.sticky_of_fixedPart fixed] at plain
  · obtain ⟨adds, rfl⟩ := adds_of_knows ha.numbered hs hk ht
    refine ⟨Nat.succ_pos _, adds.counter.ge, fun plain => ?_⟩
    cases adds with
    | default sticky => simp [sticky] at plain
    | submitted =>
      have none : historyOf s.events (s.commandSequenceId + 1) = [] := by
        simpa [historyOf] using fun ev hm he => hs (.inr ⟨ev, hm, he⟩)
      exact ⟨[], by simp [submit, none], not_mem_nil⟩

/-- **Announced first, and once.** Whatever the threads and the user code do, every event is about
a command that has got its identifier, and the first event of a plain command is its announcement,
which is not repeated. -/
theorem command_announced_first (actions : List Action) (s : BatchCommandSandbox)
    (run : Transition.execute step init actions = some s) (event : CommandEvent)
    (reported : event ∈ s.events) :
    (s.commands event.command).uniqueId = event.command % 2 ^ 64 ∧
      ((s.commands event.command).sticky = false →
        ∃ later, historyOf s.events event.command = .queued :: later ∧ .queued ∉ later) := by
  have ha : s.Announced := by
    refine Transition.invariant_of_execute step_announced ⟨⟨allocated_init, fun c hr => ?_,
      fun c hp hb => ?_⟩, fun c hk => ?_⟩ run
    · exact absurd hr (not_refers_init c)
    · exact absurd hb (Nat.not_le.mpr hp)
    · rcases hk with hr | ⟨ev, hm, -⟩
      · exact absurd hr (not_refers_init c)
      · cases hm
  obtain ⟨hp, hb, hq⟩ := ha.known event.command (.inr ⟨event, reported, rfl⟩)
  exact ⟨ha.numbered.named _ hp hb, hq⟩

/-- A command that is never run is announced all the same. -/
theorem command_announced_first_killed :
    let actions : List Action := [.enqueueCommand ⟨"a", 5, ⟨0, 0, 0, 0⟩⟩ 0 10 10 50, .deinit]
    ∃ s, Transition.execute step init actions = some s ∧
      ∃ later, historyOf s.events 1 = .queued :: later ∧ .queued ∉ later := by
  intro actions
  exact ⟨_, rfl, (command_announced_first actions _ rfl _ (mem_cons_self ..)).2 rfl⟩

end BatchCommandSandbox

/-! ### What a step of the parallel sandbox reports -/

namespace BatchCommandParallelSandbox

variable {s t : BatchCommandParallelSandbox} {c : CommandRef} {out : ProcessOutcome}

/-- A command is in one of the two containers. -/
def Refers (s : BatchCommandParallelSandbox) (c : CommandRef) : Prop :=
  c ∈ (s.executionCommandList ++ s.submitionCommandQueue).map (·.command)

/-- The worker goes from `s` to `t`: it reports commands of the two containers, none of them
as queued, and brings in nothing new. -/
structure Works (s t : BatchCommandParallelSandbox) : Prop where
  reports : ∃ new, t.events = s.events ++ new ∧
    ∀ event ∈ new, s.Refers event.command ∧ event.type ≠ .queued
  refers : ∀ c, t.Refers c → s.Refers c
  fixed : ∀ c, (t.commands c).fixedPart = (s.commands c).fixedPart
  sequence : t.commandSequenceId = s.commandSequenceId

theorem Works.of_same (he : t.events = s.events) (hc : t.commands = s.commands)
    (hs : t.commandSequenceId = s.commandSequenceId)
    (hr : ∀ c, t.Refers c → s.Refers c) : Works s t where
  reports := ⟨[], by rw [he, append_nil], nofun⟩
  refers := hr
  fixed c := by rw [hc]
  sequence := hs

theorem Works.trans {r : BatchCommandParallelSandbox} (first : Works s t) (second : Works t r) :
    Works s r where
  reports := by
    obtain ⟨new, added, known⟩ := first.reports
    obtain ⟨more, addedToo, knownToo⟩ := second.reports
    refine ⟨new ++ more, by rw [addedToo, added, append_assoc], fun ev hm => ?_⟩
    rcases mem_append.mp hm with old | last
    · exact known ev old
    · exact ⟨first.refers _ (knownToo ev last).1, (knownToo ev last).2⟩
  refers c later := first.refers c (second.refers c later)
  fixed c := (second.fixed c).trans (first.fixed c)
  sequence := second.sequence.trans first.sequence

/-- `processCommand` writes its own command, reports nothing else and moves nothing. -/
theorem processCommand_works {call res : Bool} {stat next : RunningCommandStat}
    (hh : s.Refers stat.command)
    (hp : s.processCommand call stat out = some (t, next, res)) :
    next.command = stat.command ∧ Works s t ∧ t.visited = s.visited ∧ t.toVisit = s.toVisit ∧
      t.submitionCommandQueue = s.submitionCommandQueue := by
  obtain ⟨named, ⟨-, -, rfl⟩ | ⟨type, hc, -, rfl⟩⟩ := processCommand_cases rfl hp
  · refine ⟨named, ⟨⟨[], by simp, by simp⟩, fun c => id, fun c => ?_, rfl⟩, rfl, rfl, rfl⟩
    by_cases same : c = stat.command <;> simp [same]
  · have later : type ≠ .queued := by
      rcases BatchCommand.closingEvent_eq hc with rfl | rfl | rfl <;> simp
    refine ⟨named, ⟨⟨[_], rfl, by simpa using ⟨hh, later⟩⟩, fun c => id, fun c => ?_, rfl⟩,
      rfl, rfl, rfl⟩
    obtain rfl | same := eq_or_ne c stat.command
    · simp
    · simp [same]

theorem visitCommand_works (taken : s.visitCommand out = some t) :
    Works s t := by
  unfold visitCommand at taken
  split at taken
  next stat rest _ whole =>
    have hh : s.Refers stat.command := by simp [Refers, executionCommandList, whole]
    split at taken
    next =>
      obtain ⟨⟨r, next, res⟩, hp, rfl⟩ := map_eq_some_iff.mp taken
      obtain ⟨named, works, -, toVisit, -⟩ := processCommand_works hh hp
      refine works.trans (Works.of_same rfl rfl rfl fun c hr => ?_)
      -- The processed command stays where it was or goes away.
      simp only [Refers, executionCommandList, map_append, mem_append] at hr ⊢
      rw [toVisit, whole, map_cons, mem_cons]
      cases res with
      | false => tauto
      | true =>
        simp only [if_true, map_append, mem_append, map_cons, map_nil, mem_singleton, named] at hr
        tauto
    next =>
      cases taken
      refine Works.of_same rfl rfl rfl fun c hr => ?_
      simpa [Refers, executionCommandList, whole] using hr
  next => cases taken

theorem admitCommand_works {stat : RunningCommandStat} {rest : List RunningCommandStat}
    (whole : s.submitionCommandQueue = stat :: rest)
    (taken : s.admitCommand stat rest out = some t) :
    Works s t ∧ t.submitionCommandQueue = rest := by
  obtain ⟨⟨r, next, res⟩, hp, rfl⟩ := map_eq_some_iff.mp taken
  have hh : s.Refers stat.command := by simp [Refers, whole]
  have announced : Works s ((s.countQueued (-1)).emit .running stat.command) :=
    ⟨⟨[_], rfl, by simpa using hh⟩, fun c => id, fun c => rfl, rfl⟩
  obtain ⟨named, works, hv, -, queue⟩ := processCommand_works
    (s := (s.countQueued (-1)).emit .running stat.command) hh hp
  refine ⟨announced.trans (works.trans (Works.of_same rfl rfl rfl fun c hr => ?_)), rfl⟩
  simp only [Refers, executionCommandList, map_append, mem_append] at hr ⊢
  rw [queue, emit_submitionCommandQueue, countQueued_submitionCommandQueue, whole, map_cons,
    mem_cons]
  cases res with
  | false => tauto
  | true =>
    simp only [if_true, map_append, mem_append, map_cons, map_nil, mem_singleton, named] at hr
    tauto

theorem admitCommands_works {outs : CommandRef → ProcessOutcome}
    {queue : List RunningCommandStat} (whole : s.submitionCommandQueue = queue)
    (taken : admitCommands outs queue s = some t) : Works s t := by
  induction queue generalizing s with
  | nil =>
    cases taken
    exact Works.of_same rfl rfl rfl fun c => id
  | cons stat rest ih =>
    obtain ⟨mid, first, later⟩ := bind_eq_some_iff.mp taken
    obtain ⟨works, left⟩ := admitCommand_works whole first
    exact works.trans (ih left later)

/-- A step of the worker, or the announcement of a submitted command. -/
theorem step_works {act : Action} (taken : s.step act = some t) :
    Works s t ∨ ∃ descr rule retry delay, act = .enqueueCommand descr rule retry delay := by
  cases act with
  | start | stop =>
    all_goals
      simp only [step, ite_none_right_eq_some, Option.some.injEq] at taken
      obtain ⟨-, rfl⟩ := taken
      exact .inl (Works.of_same rfl rfl rfl fun c => id)
  | beginIteration =>
    simp only [step, beginIteration, ite_none_right_eq_some, Option.some.injEq] at taken
    obtain ⟨-, rfl⟩ := taken
    refine .inl (Works.of_same rfl rfl rfl fun c hr => ?_)
    simpa [Refers, executionCommandList] using hr
  | enqueueCommand => exact .inr ⟨_, _, _, _, rfl⟩
  | visitCommand out => exact .inl (visitCommand_works taken)
  | endIteration outs =>
    simp only [step, endIteration, ite_none_right_eq_some] at taken
    obtain ⟨r, ha, rfl⟩ := map_eq_some_iff.mp taken.2
    exact .inl ((admitCommands_works rfl ha).trans (Works.of_same rfl rfl rfl fun c => id))

/-- Commands are numbered from one, and the identifier is the number in 64 bits. -/
structure Numbered (s : BatchCommandParallelSandbox) : Prop where
  refers : ∀ c : Nat, s.Refers c → 0 < c ∧ c ≤ s.commandSequenceId
  named : ∀ c : Nat, 0 < c → c ≤ s.commandSequenceId → (s.commands c).uniqueId = c % 2 ^ 64

theorem Numbered.works (hn : s.Numbered) (works : Works s t) : t.Numbered where
  refers c hr := works.sequence ▸ hn.refers c (works.refers c hr)
  named c hp below := by
    rw [show (t.commands c).uniqueId = (s.commands c).uniqueId from
      congrArg BatchCommand.FixedPart.uniqueId (works.fixed c)]
    exact hn.named c hp (works.sequence ▸ below)

theorem Numbered.enqueueCommand (hn : s.Numbered) (cmd : BatchCommand) :
    (s.enqueueCommand cmd).Numbered where
  refers c hr := by
    simp only [Refers, BatchCommandParallelSandbox.enqueueCommand, ← append_assoc,
      map_append, mem_append, map_cons, map_nil, mem_singleton] at hr
    rcases hr with old | rfl
    · have before : s.Refers c := by
        rw [Refers, map_append, mem_append]
        exact old
      obtain ⟨hp, below⟩ := hn.refers c before
      exact ⟨hp, Nat.le_succ_of_le below⟩
    · exact ⟨Nat.succ_pos _, Nat.le_refl _⟩
  named c hp below := by
    simp only [BatchCommandParallelSandbox.enqueueCommand, emit_commands, addCommandID_commands,
      emit_commandSequenceId, addCommandID_commandSequenceId,
      countQueued_commandSequenceId] at below ⊢
    obtain rfl | new := eq_or_ne c (s.commandSequenceId + 1)
    · simp
    · rw [update_of_ne new]
      exact hn.named c hp (by omega)

end BatchCommandParallelSandbox

/-! ### Both kinds -/

/-- `AbstractSandbox`. -/
inductive Sandbox
  | serialized (s : BatchCommandSandbox)
  | parallel (s : BatchCommandParallelSandbox)

/-- A step of a sandbox of one of the kinds. -/
inductive SandboxAction
  | serialized (action : BatchCommandSandbox.Action)
  | parallel (action : BatchCommandParallelSandbox.Action)

/-- Steps that the executor takes itself: submissions and the default command. -/
def SandboxAction.fromExecutor : SandboxAction → Bool
  | .serialized (.enqueueCommand ..) | .serialized (.setDefaultStickyCommand _)
  | .parallel (.enqueueCommand ..) => true
  | _ => false

namespace Sandbox

def commandSequenceId : Sandbox → Nat
  | .serialized s => s.commandSequenceId
  | .parallel s => s.commandSequenceId

def events : Sandbox → List CommandEvent
  | .serialized s => s.events
  | .parallel s => s.events

/-- The `unique_id` of a command object. -/
def uniqueId : Sandbox → CommandRef → Nat
  | .serialized s, c => (s.commands c).uniqueId
  | .parallel s, c => (s.commands c).uniqueId

/-- The sandbox takes submissions: a serialized one refuses them after `deinit`. -/
def accepts : Sandbox → Bool
  | .serialized s => !s.deinitialized
  | .parallel _ => true

def step : Sandbox → SandboxAction → Option Sandbox
  | .serialized s, .serialized action => (s.step action).map .serialized
  | .parallel s, .parallel action => (s.step action).map .parallel
  | _, _ => none

/-- `enqueueCommand` on an instance of the class. -/
def enqueueCommand (sandbox : Sandbox) (description : CommandClass)
    (submissionRule submissionRetryDelay schedulerStepDelay priority : Nat) : Sandbox :=
  let command :=
    instanceCommandInfo description submissionRule submissionRetryDelay schedulerStepDelay
  match sandbox with
  | .serialized s => .serialized (s.enqueueCommand command priority)
  | .parallel s => .parallel (s.enqueueCommand command)

/-- The `unique_id` that the instance has after `enqueueCommand`. -/
def assignedId (sandbox : Sandbox) : Nat :=
  if sandbox.accepts then (sandbox.commandSequenceId + 1) % 2 ^ 64 else 0

/-- The value that `enqueueCommand` returns. The parallel sandbox never fills its
`result_id`. -/
def enqueueResult : Sandbox → Nat
  | .serialized s => assignedId (.serialized s)
  | .parallel _ => 0

/-- `setDefaultStickyCommand` on an instance of the class. The parallel sandbox ignores
it. -/
def setDefaultStickyCommand : Sandbox → CommandClass → Option Sandbox
  | .serialized s, description => (s.setDefaultStickyCommand description).map .serialized
  | .parallel s, _ => some (.parallel s)

/-- Commands are numbered from one, and the identifier is the number in 64 bits. -/
def Numbered : Sandbox → Prop
  | .serialized s => s.Numbered
  | .parallel s => s.Numbered

variable {s t : Sandbox}

theorem Numbered.uniqueId (hn : s.Numbered) {c : Nat} (hp : 0 < c)
    (below : c ≤ s.commandSequenceId) : s.uniqueId c = c % 2 ^ 64 := by
  cases s with
  | serialized s => exact BatchCommandSandbox.Numbered.named hn c hp below
  | parallel s => exact BatchCommandParallelSandbox.Numbered.named hn c hp below

/-- Between `s` and `t` the sandbox has reported commands that have a number, none of them
as queued. -/
structure Continues (s t : Sandbox) (new : List CommandEvent) : Prop where
  events : t.events = s.events ++ new
  numbered : t.Numbered
  about : ∀ event ∈ new, 0 < event.command ∧ event.command ≤ s.commandSequenceId ∧
    event.type ≠ .queued

theorem serialized_continues {inner later : BatchCommandSandbox}
    {act : BatchCommandSandbox.Action} (hn : inner.Numbered)
    (taken : inner.step act = some later) (reports : BatchCommandSandbox.Reports inner later) :
    ∃ new, Continues (.serialized inner) (.serialized later) new := by
  obtain ⟨new, added, known⟩ := reports
  refine ⟨new, added, BatchCommandSandbox.step_numbered hn taken, ?_⟩
  intro ev hm
  obtain ⟨hr, notQueued⟩ := known ev hm
  exact ⟨hn.positive _ hr, hn.allocated.refers _ hr, notQueued⟩

/-- The threads of a sandbox number no command. -/
theorem step_continues {act : SandboxAction} (hn : s.Numbered)
    (own : act.fromExecutor = false) (taken : s.step act = some t) :
    (∃ new, Continues s t new) ∧ t.commandSequenceId = s.commandSequenceId := by
  -- The two kinds of sandboxes have each their own account of a step.
  cases s with
  | serialized inner =>
    cases act with
    | parallel act => cases taken
    | serialized act =>
      obtain ⟨later, hs, rfl⟩ := map_eq_some_iff.mp taken
      rcases BatchCommandSandbox.step_reports hs with
        reports | ⟨-, -, _, _, _, _, _, rfl⟩
      · refine ⟨serialized_continues hn hs reports, ?_⟩
        refine BatchCommandSandbox.step_commandSequenceId hs ?_
        cases act <;> first | rfl | cases own
      · cases own
  | parallel inner =>
    cases act with
    | serialized act => cases taken
    | parallel act =>
      obtain ⟨later, hs, rfl⟩ := map_eq_some_iff.mp taken
      rcases BatchCommandParallelSandbox.step_works hs with
        works | ⟨_, _, _, _, rfl⟩
      · refine ⟨?_, works.sequence⟩
        obtain ⟨new, added, known⟩ := works.reports
        refine ⟨new, added, BatchCommandParallelSandbox.Numbered.works hn works, ?_⟩
        intro ev hm
        obtain ⟨hr, notQueued⟩ := known ev hm
        obtain ⟨hp, below⟩ :=
          BatchCommandParallelSandbox.Numbered.refers hn _ hr
        exact ⟨hp, below, notQueued⟩
      · cases own

/-- A submission that is accepted announces one command, under the next number. -/
theorem enqueueCommand_announces (hn : s.Numbered) (ha : s.accepts = true) (descr : CommandClass)
    (rule retry delay prio : Nat) :
    let t := s.enqueueCommand descr rule retry delay prio
    t.Numbered ∧ t.commandSequenceId = s.commandSequenceId + 1 ∧
      ∃ stats, t.events = s.events ++ [⟨s.commandSequenceId + 1, .queued, none, stats⟩] := by
  cases s with
  | serialized inner =>
    have live : inner.deinitialized = false := by simpa [accepts] using ha
    have stepped : inner.step (.enqueueCommand descr rule retry
        delay prio) = some (inner.enqueueCommand (instanceCommandInfo descr
          rule retry delay) prio) := rfl
    refine ⟨BatchCommandSandbox.step_numbered hn stepped, ?_⟩
    simp only [enqueueCommand, BatchCommandSandbox.enqueueCommand, live]
    exact ⟨rfl, _, rfl⟩
  | parallel inner =>
    exact ⟨BatchCommandParallelSandbox.Numbered.enqueueCommand hn _, rfl, _, rfl⟩

theorem setDefaultStickyCommand_silent {descr : CommandClass} (hn : s.Numbered)
    (taken : s.setDefaultStickyCommand descr = some t) :
    t.Numbered ∧ t.events = s.events ∧ s.commandSequenceId ≤ t.commandSequenceId ∧
      t.commandSequenceId ≤ s.commandSequenceId + 1 := by
  cases s with
  | serialized inner =>
    obtain ⟨later, hs, rfl⟩ := map_eq_some_iff.mp taken
    have asStep : inner.step (.setDefaultStickyCommand descr) = some later := hs
    have named := BatchCommandSandbox.step_numbered hn asStep
    unfold BatchCommandSandbox.setDefaultStickyCommand at hs
    split at hs
    · cases hs
    · cases hs
      exact ⟨named, rfl, Nat.le_succ _, Nat.le_refl _⟩
  | parallel inner =>
    cases taken
    exact ⟨hn, rfl, Nat.le_refl _, Nat.le_succ _⟩

end Sandbox

end ChaosFramework.Batch
