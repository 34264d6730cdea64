import ChaosFramework.Batch.SandboxFrame
import ChaosFramework.Transition

/-!
# Ownership of the installed handlers

The three handler functors hold plain pointers to command objects, which are owned by the current
slot, the stack and the default command. A paused command keeps its functors unless the next one has
the same handlers, and an ended default command keeps all of them.

The functors never point to an object without owner, except that `setDefaultStickyCommand` releases
the default command it replaces, whether or not a functor still points to it.
-/

namespace ChaosFramework.Batch.BatchCommandSandbox

open RunningPropertyType SubmissionRuleType HandlerType Transition List BatchCommand

variable {s t r : BatchCommandSandbox} {a c d next : CommandRef} {act : Action}
  {functor : Option CommandRef} {setOut : HandlerOutcome} {now handler : Nat}

/-- Some shared pointer of the sandbox keeps the command alive. -/
def Owned (s : BatchCommandSandbox) (c : CommandRef) : Prop :=
  s.currentExecutingCommand = some c ∨ c ∈ s.commandStack ∨ s.defaultStickyCommand = some c

/-- Some functor points to the command. -/
def Installed (s : BatchCommandSandbox) (c : CommandRef) : Prop :=
  s.acquireHandlerFunctor = some c ∨ s.correlationHandlerFunctor = some c ∨
    s.endHandlerFunctor = some c

instance : Decidable (s.Owned c) := inferInstanceAs (Decidable (_ ∨ _ ∨ _))
instance : Decidable (s.Installed c) := inferInstanceAs (Decidable (_ ∨ _ ∨ _))

/-- A default command is replaced only when no functor points to it. `deinit` releases
everything and is left out. -/
def ReleasesUninstalled (s : BatchCommandSandbox) : Action → Prop
  | .setDefaultStickyCommand _ => ∀ d ∈ s.defaultStickyCommand, ¬s.Installed d
  | .deinit => False
  | _ => True

instance (action : Action) : Decidable (s.ReleasesUninstalled action) := by
  unfold ReleasesUninstalled
  split <;> infer_instance

/-! ### The invariant -/

/-- A functor points to an owned command that has the handler. -/
def HeldBy (s : BatchCommandSandbox) (functor : Option CommandRef) (handler : Nat) : Prop :=
  ∀ a, functor = some a → s.Owned a ∧ (s.commands a).implements handler = true

/-- The current command has the end functor; the other two functors point to owned commands
that have the handler; a sticky current command is the default one. -/
structure Handlers (s : BatchCommandSandbox) : Prop where
  sticky : ∀ c, s.currentExecutingCommand = some c → (s.commands c).sticky = true →
    s.defaultStickyCommand = some c
  current : ∀ c, s.currentExecutingCommand = some c → s.endHandlerFunctor = some c
  ended : ∀ a, s.endHandlerFunctor = some a → s.Owned a
  acquire : s.HeldBy s.acquireHandlerFunctor htAcquisition
  correlation : s.HeldBy s.correlationHandlerFunctor htCorrelation

/-- All that `Handlers` reads, apart from the fixed part of the commands. -/
def holders (s : BatchCommandSandbox) :
    Option CommandRef × List CommandRef × Option CommandRef × Option CommandRef ×
      Option CommandRef × Option CommandRef :=
  (s.currentExecutingCommand, s.commandStack, s.defaultStickyCommand, s.acquireHandlerFunctor,
    s.correlationHandlerFunctor, s.endHandlerFunctor)

theorem Handlers.of_holders (hh : s.Handlers) (same : t.holders = s.holders)
    (fixed : ∀ c, s.Owned c → (t.commands c).fixedPart = (s.commands c).fixedPart) :
    t.Handlers := by
  simp only [holders, Prod.mk.injEq] at same
  obtain ⟨hc, stack, hd, ha, correlation, ended⟩ := same
  have ho (a : CommandRef) (hb : s.Owned a) : t.Owned a := by
    rwa [Owned, hc, stack, hd]
  have held {functor : Option CommandRef} {handler : Nat} (hb : s.HeldBy functor handler) :
      t.HeldBy functor handler := by
    intro a points
    obtain ⟨owner, implemented⟩ := hb a points
    rw [implements_of_fixedPart (fixed a owner)]
    exact ⟨ho a owner, implemented⟩
  refine ⟨fun c slot sticky => ?_, fun c slot => ?_, fun a points => ?_, ?_, ?_⟩
  · rw [hc] at slot
    rw [sticky_of_fixedPart (fixed c (.inl slot))] at sticky
    rw [hd]
    exact hh.sticky c slot sticky
  · rw [ended]
    exact hh.current c (hc ▸ slot)
  · exact ho a (hh.ended a (ended ▸ points))
  · rw [ha]
    exact held hh.acquire
  · rw [correlation]
    exact held hh.correlation

/-- Without functors and current command there is nothing to own. -/
theorem handlers_of_none (hv : s.currentExecutingCommand = none)
    (ha : s.acquireHandlerFunctor = none) (correlation : s.correlationHandlerFunctor = none)
    (ended : s.endHandlerFunctor = none) : s.Handlers := by
  refine ⟨?_, ?_, ?_, ?_, ?_⟩
  · intro c slot
    cases hv.symm.trans slot
  · intro c slot
    cases hv.symm.trans slot
  · intro a points
    cases ended.symm.trans points
  · intro a points
    cases ha.symm.trans points
  · intro a points
    cases correlation.symm.trans points

theorem Handlers.goto (hh : s.Handlers) (point : CheckerPoint) : (s.goto point).Handlers :=
  { hh with }

theorem Handlers.popSubmitted (hh : s.Handlers) (first : PriorityQueuedElement) :
    (s.popSubmitted first).Handlers :=
  { hh with }

theorem HeldBy.resetCurrent
    (held : s.HeldBy functor handler) (hv : s.currentExecutingCommand = none) :
    s.resetCurrent.HeldBy functor handler := by
  intro a points
  obtain ⟨owner, implemented⟩ := held a points
  rcases owner with slot | owner
  · cases hv.symm.trans slot
  · exact ⟨.inr owner, implemented⟩

/-- A sticky command that leaves the slot is still the default command. -/
theorem Handlers.resetCurrent (hh : s.Handlers)
    (hc : s.currentExecutingCommand = some c) (sticky : (s.commands c).sticky = true) :
    s.resetCurrent.Handlers := by
  have ho (a : CommandRef) (owner : s.Owned a) : s.resetCurrent.Owned a := by
    rcases owner with slot | owner
    · obtain rfl := Option.some.inj (hc.symm.trans slot)
      exact .inr (.inr (hh.sticky _ hc sticky))
    · exact .inr owner
  refine ⟨fun c slot => (by cases slot), fun c slot => (by cases slot), ?_, ?_, ?_⟩
  · exact fun a points => ho a (hh.ended a points)
  · exact fun a points => ⟨ho a (hh.acquire a points).1, (hh.acquire a points).2⟩
  · exact fun a points =>
      ⟨ho a (hh.correlation a points).1, (hh.correlation a points).2⟩

/-- Installing a command over functors that need no current command to be owned. -/
theorem installHandler_handlers
    (sticky : (s.commands next).sticky = true → s.defaultStickyCommand = some next)
    (ha : s.resetCurrent.HeldBy s.acquireHandlerFunctor htAcquisition)
    (correlation : s.resetCurrent.HeldBy s.correlationHandlerFunctor htCorrelation) :
    (s.installHandler next now setOut).Handlers := by
  have fixed (c : CommandRef) :
      ((s.installHandler next now setOut).commands c).fixedPart = (s.commands c).fixedPart := by
    by_cases same : c = next <;> simp [same]
  have held {functor : Option CommandRef} {handler : Nat}
      (hb : s.resetCurrent.HeldBy functor handler) :
      (s.installHandler next now setOut).HeldBy
        (if (s.commands next).implements handler then some next else functor) handler := by
    intro a points
    rw [implements_of_fixedPart (fixed a)]
    -- The functor now points to the new command, or is the old one with an owner off the slot.
    split at points
    next implemented =>
      cases points
      exact ⟨.inl rfl, implemented⟩
    next =>
      obtain ⟨owner, implemented⟩ := hb a points
      rcases owner with slot | owner
      · cases slot
      · exact ⟨.inr owner, implemented⟩
  refine ⟨?_, ?_, ?_, held ha, held correlation⟩
  · rintro c slot stickyNext
    cases slot
    rw [sticky_of_fixedPart (fixed next)] at stickyNext
    exact sticky stickyNext
  · rintro c slot
    exact slot
  · rintro a points
    exact .inl points

/-- Removing the current command: what the functor still points to has another owner. The
state `r` is the one on which the code calls `removeHandler`, with the same owners apart from
the slot. -/
theorem cleared_heldBy (endOut : HandlerOutcome) (held : s.HeldBy functor handler)
    (blind : (s.commands c).implementedHandler ≤ 1 → (s.commands c).implements handler = false)
    (hc : s.currentExecutingCommand = some c) (stack : r.commandStack = s.commandStack)
    (hd : r.defaultStickyCommand = s.defaultStickyCommand)
    (correlation : r.commands = s.commands) :
    (r.removeHandler c endOut).resetCurrent.HeldBy
      (if (r.commands c).implementedHandler ≤ 1 then functor
        else r.clearFunctor c handler functor) handler := by
  intro a points
  rw [clearFunctor, correlation] at points
  -- `removeHandler` leaves early for a class with at most the set handler; by `blind`
  -- such a class was never installed in this functor.
  have kept : functor = some a ∧ a ≠ c := by
    split at points
    next small =>
      refine ⟨points, ?_⟩
      rintro rfl
      cases (blind small).symm.trans (held a points).2
    next =>
      split at points
      next => cases points
      next uncleared =>
        refine ⟨points, ?_⟩
        rintro rfl
        exact uncleared ⟨(held a points).2, points⟩
  obtain ⟨owner, implemented⟩ := held a kept.1
  have fixed : ((r.removeHandler c endOut).resetCurrent.commands a).fixedPart =
      (s.commands a).fixedPart := by
    simp [correlation, kept.2]
  rw [implements_of_fixedPart fixed]
  refine ⟨.inr ?_, implemented⟩
  rcases owner with slot | owner
  · exact absurd (Option.some.inj (slot.symm.trans hc)) kept.2
  · simpa [stack, hd] using owner

/-- The two states differ at most in the slot, as far as `Handlers` is concerned. -/
structure SameOwners (r s : BatchCommandSandbox) : Prop where
  stack : r.commandStack = s.commandStack
  default : r.defaultStickyCommand = s.defaultStickyCommand
  acquire : r.acquireHandlerFunctor = s.acquireHandlerFunctor
  correlation : r.correlationHandlerFunctor = s.correlationHandlerFunctor
  commands : r.commands = s.commands

/-- Removing the current command and installing another one. -/
theorem replace_handlers {endOut : HandlerOutcome} (hh : s.Handlers)
    (plain : (s.commands next).sticky = false) (hc : s.currentExecutingCommand = some c)
    (same : SameOwners r s) :
    ((r.removeHandler c endOut).installHandler next now setOut).Handlers := by
  have fixed :
    ((r.removeHandler c endOut).commands next).fixedPart = (s.commands next).fixedPart := by
    by_cases self : next = c <;> simp [same.commands, self]
  refine installHandler_handlers (fun sticky => ?_) ?_ ?_
  · cases plain.symm.trans ((sticky_of_fixedPart fixed).symm.trans sticky)
  · rw [removeHandler_acquireHandlerFunctor, same.acquire]
    exact cleared_heldBy endOut hh.acquire
      (fun small => (not_implements_of_mask_le_one small).1) hc same.stack
      same.default same.commands
  · rw [removeHandler_correlationHandlerFunctor, same.correlation]
    exact cleared_heldBy endOut hh.correlation
      (fun small => (not_implements_of_mask_le_one small).2) hc same.stack
      same.default same.commands

/-- A command that moves from the stack to the slot stays owned. -/
theorem Handlers.popStack {rest : List CommandRef} (hh : s.Handlers)
    (hc : s.currentExecutingCommand = some d) (hs : s.commandStack = d :: rest) :
    (s.popStack rest).Handlers := by
  have ho (a : CommandRef) (owner : s.Owned a) : (s.popStack rest).Owned a := by
    rcases owner with slot | stack | hd
    · exact .inl slot
    · rw [hs] at stack
      rcases mem_cons.mp stack with rfl | stack
      · exact .inl hc
      · exact .inr (.inl stack)
    · exact .inr (.inr hd)
  exact ⟨hh.sticky, hh.current, fun a points => ho a (hh.ended a points),
    fun a points => ⟨ho a (hh.acquire a points).1, (hh.acquire a points).2⟩,
    fun a points => ⟨ho a (hh.correlation a points).1, (hh.correlation a points).2⟩⟩

/-- Pausing the current command: it is owned by the stack from now on, or by the default slot
if it is sticky. -/
theorem finishStack_handlers {pushed : BatchCommandSandbox} (hh : s.Handlers)
    (plain : (s.commands next).sticky = false) (hc : s.currentExecutingCommand = some c)
    (pushing : pushed = { s with
      commandStack := if (s.commands c).sticky then s.commandStack else c :: s.commandStack }) :
    ((pushed.emit .paused c none).installHandler next now setOut).Handlers := by
  have held {functor : Option CommandRef} {handler : Nat} (hb : s.HeldBy functor handler) :
      (pushed.emit .paused c none).resetCurrent.HeldBy functor handler := by
    intro a points
    obtain ⟨owner, implemented⟩ := hb a points
    subst pushing
    refine ⟨.inr ?_, implemented⟩
    rcases owner with slot | stack | hd
    -- The command that leaves the slot.
    · obtain rfl := Option.some.inj (hc.symm.trans slot)
      split
      next sticky => exact .inr (hh.sticky _ hc sticky)
      next => exact .inl mem_cons_self
    · split
      next => exact .inl stack
      next => exact .inl (mem_cons_of_mem _ stack)
    · exact .inr hd
  refine installHandler_handlers (fun sticky => ?_) ?_ ?_
  · subst pushing
    cases plain.symm.trans sticky
  · have ha := held hh.acquire
    subst pushing
    exact ha
  · have correlation := held hh.correlation
    subst pushing
    exact correlation

theorem Owned.refers (ho : s.Owned c) : s.Refers c := by
  rcases ho with slot | stack | hd
  · exact .inr (.inl slot)
  · exact .inl (.inr (.inr stack))
  · exact .inr (.inr hd)

/-- The invariant of the runs that release only uninstalled default commands. -/
structure Ownership (s : BatchCommandSandbox) : Prop where
  allocated : s.Allocated
  pending : ∀ c, s.Pending c → (s.commands c).sticky = false
  handlers : s.Handlers

theorem ownership_init : init.Ownership where
  allocated := allocated_init
  pending := fun _ _ => rfl
  handlers := handlers_of_none rfl rfl rfl rfl

theorem step_pendingPlain (ho : s.Ownership)
    (ht : s.step act = some t) (pending : t.Pending c) : (t.commands c).sticky = false := by
  have fixed (hr : s.Refers c) : (t.commands c).sticky = (s.commands c).sticky :=
    sticky_of_fixedPart
      (step_fixedPart ht fun new =>
        absurd new (not_lt.mpr (ho.allocated.refers c hr)))
  rcases step_pending ht pending with hb | ⟨hc, plain⟩ | ⟨-, -, plain⟩
  · exact (fixed (.inl hb)).trans (ho.pending c hb)
  · exact (fixed (.inr (.inl hc))).trans plain
  · exact plain

/-- Replacing a default command to which no functor points. -/
theorem setDefault_handlers {cmd : BatchCommand} (ha : s.Allocated)
    (hh : s.Handlers) (hr : ∀ d ∈ s.defaultStickyCommand, ¬s.Installed d) :
    Handlers { s.addCommandID cmd with
      defaultStickyCommand := some (s.commandSequenceId + 1) } := by
  have kept (a : CommandRef) (hi : s.Installed a) (owner : s.Owned a) :
      Owned { s.addCommandID cmd with
        defaultStickyCommand := some (s.commandSequenceId + 1) } a ∧
        ((s.addCommandID cmd).commands a).implements = (s.commands a).implements := by
    have old : a ≠ s.commandSequenceId + 1 :=
      (Nat.lt_succ_of_le (ha.refers a owner.refers)).ne
    refine ⟨?_, by simp [old]⟩
    rcases owner with slot | stack | hd
    · exact .inl slot
    · exact .inr (.inl stack)
    · exact absurd hi (hr a hd)
  refine ⟨fun c slot sticky => ?_, hh.current, fun a points => ?_, fun a points => ?_,
    fun a points => ?_⟩
  · -- A sticky current command would be the released default one, with the end functor on it.
    have old : c ≠ s.commandSequenceId + 1 :=
      (Nat.lt_succ_of_le (ha.refers c (.inr (.inl slot)))).ne
    have before : (s.commands c).sticky = true := by simpa [old] using sticky
    exact absurd (.inr (.inr (hh.current c slot))) (hr c (hh.sticky c slot before))
  · exact (kept a (.inr (.inr points)) (hh.ended a points)).1
  · obtain ⟨owner, implemented⟩ := hh.acquire a points
    obtain ⟨ho, same⟩ := kept a (.inl points) owner
    exact ⟨ho, (congrFun same _).trans implemented⟩
  · obtain ⟨owner, implemented⟩ := hh.correlation a points
    obtain ⟨ho, same⟩ := kept a (.inr (.inl points)) owner
    exact ⟨ho, (congrFun same _).trans implemented⟩

section

variable (ho : s.Ownership) (hr : s.ReleasesUninstalled act) (ht : s.step act = some t)

include ho hr ht

theorem step_handlers : t.Handlers := by
  have hh := ho.handlers
  have hu (same : t.holders = s.holders) : t.Handlers :=
    hh.of_holders same fun c owner => step_fixedPart ht fun new =>
      absurd new (not_lt.mpr (ho.allocated.refers c owner.refers))
  have plain {next : CommandRef} (pending : s.Pending next) : (s.commands next).sticky = false :=
    ho.pending next pending
  cases step_effect ht with
  | setDefault => exact setDefault_handlers ho.allocated hh hr
  | deinit => exact hr.elim
  | @finishStack _ _ _ c next point hc pushed pushing =>
    have hand : s.Pending next := .inr (.inl (by rw [point]; exact mem_singleton_self _))
    exact (finishStack_handlers hh (plain hand) hc pushing).goto _
  | @finishReplace _ _ _ c next point hc =>
    have hand : s.Pending next := .inr (.inl (by rw [point]; exact mem_singleton_self _))
    exact (replace_handlers hh (plain hand) hc ⟨rfl, rfl, rfl, rfl, rfl⟩).goto _
  | @installFirst _ _ first point hv isTop =>
    have hw : s.Pending first.element := .inl (top_mem_refs isTop)
    refine ((installHandler_handlers (fun sticky => ?_) ?_ ?_).popSubmitted first).goto _
    · cases (plain hw).symm.trans sticky
    · exact hh.acquire.resetCurrent hv
    · exact hh.correlation.resetCurrent hv
  | @resume _ _ _ c next rest point hc hs =>
    have paused : s.Pending next := .inr (.inr (hs ▸ mem_cons_self))
    refine ((replace_handlers hh (plain paused) hc ?_).popStack rfl ?_).goto _
    · exact ⟨rfl, rfl, rfl, rfl, rfl⟩
    · simpa using hs
  | @endSticky _ _ _ c point hc unstacked sticky =>
    have left := hh.resetCurrent hc sticky
    exact Handlers.goto (left.of_holders (t := s.resetCurrent.reportEnd c) rfl fun _ _ => rfl) _
  -- The stack is empty: all three functors are set to null.
  | endLast => exact handlers_of_none rfl rfl rfl rfl
  | @installSticky _ _ d point hv hd sticky =>
    have reset := hh.of_holders
      (t := s.update d fun cmd => { cmd with alreadySetupped := false }) rfl fun c _ => by
        by_cases same : c = d <;> simp [fixedPart, same]
    refine Handlers.goto (installHandler_handlers ?_ ?_ ?_) _
    · exact fun _ => hd
    · exact reset.acquire.resetCurrent hv
    · exact reset.correlation.resetCurrent hv
  | checkQueue started point ops =>
    have same := drained_frame holders ops
    exact hu same
  -- Handlers write command objects only.
  | run =>
    exact hu (runCurrent_frame holders)
  | _ => exact hu rfl

theorem step_ownership : t.Ownership where
  allocated := step_allocated ho.allocated ht
  pending := fun _ => step_pendingPlain ho ht
  handlers := step_handlers ho hr ht

end

/-- **No dangling functor.** In every run that replaces a default command only when no functor
points to it, each command that a functor points to is the current one, on the stack or the default
one. -/
theorem installed_commands_owned (actions : List Action)
    (released : Admissible step ReleasesUninstalled init actions)
    (run : execute step init actions = some s) : ∀ a, s.Installed a → s.Owned a := by
  have ho := released.invariant step_ownership ownership_init run
  rintro a (ha | correlation | ended)
  · exact (ho.handlers.acquire a ha).1
  · exact (ho.handlers.correlation a correlation).1
  · exact ho.handlers.ended a ended

/-- A class that has only an acquisition handler, and one that has only a correlation handler. -/
def acquiringClass : CommandClass := ⟨"acquiring", 2, ⟨0, 0, 0, 0⟩⟩
def correlatingClass : CommandClass := ⟨"correlating", 4, ⟨0, 0, 0, 0⟩⟩

/-- The default command is installed, then interrupted by a submitted command of the other
class, and the sandbox is stopped. -/
def interruptedRun : List Action :=
  [.setDefaultStickyCommand acquiringClass, .start, .checkQueue true, .checkEnded,
    .installSticky 100 .silent, .enqueueCommand correlatingClass submitNormal 1000 1000 50,
    .enqueueDone 1, .checkQueue true, .compareWithCurrent .noChange,
    .finishSwitch 200 .silent .silent, .stop]

theorem installed_commands_owned_interrupted :
    ∃ s, execute step init interruptedRun = some s ∧ s.Installed 1 ∧ s.Owned 1 := by
  refine ⟨_, rfl, by decide, ?_⟩
  exact installed_commands_owned interruptedRun (by decide) rfl 1 (by decide)

/-- A new default command releases the interrupted one, to which the acquire functor still
points. -/
theorem replaced_default_dangles :
    ∃ s, execute step init (interruptedRun ++ [.setDefaultStickyCommand correlatingClass]) =
      some s ∧ s.acquireHandlerFunctor = some 1 ∧ ¬s.Owned 1 := by
  refine ⟨_, rfl, by decide, by decide⟩

end ChaosFramework.Batch.BatchCommandSandbox
