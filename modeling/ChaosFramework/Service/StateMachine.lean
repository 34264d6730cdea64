import ChaosFramework.Transition
import Mathlib.Computability.Language

/-!
# Services and their state machines

`InizializableService` and `StartableService` drive a virtual hook of their implementation from a
transition table: the event is processed first, then the hook is called, and the public
`serviceState` follows the machine when the hook has returned. An exception of the hook is answered
with an event that should lead back.

There is no row for the way back after a failed `start`, no attempt of it after a failed `deinit`,
and `InizializableService` takes it also when it has refused the call. `consistent_iff_reversible`
says that these are the only reasons why the two states disagree.
-/

namespace ChaosFramework.Service

open Transition Computability List Option

/-! ### Transition tables -/

/-- `CUStateKey::ControlUnitState`. The number that a state machine gives to its states is that
of the key. -/
inductive CUStateKey
  | deinit | init | start | stop | recoverableError | fatalError
  deriving DecidableEq, Repr

/-- The events of `service_state_machine::EventType`. -/
inductive EventType
  | init | deinit | start | stop | recoverableError | fatalError
  deriving DecidableEq, Repr

/-- A row of a transition table. No row of the services has a guard or an action. -/
structure Row where
  source : CUStateKey
  event : EventType
  target : CUStateKey
  deriving DecidableEq, Repr

/-- `process_event`. Without a row the event is not `HANDLED_TRUE` and the state stays. -/
def processEvent (table : List Row) (state : CUStateKey) (event : EventType) :
    Option CUStateKey :=
  (table.find? fun row => row.source == state && row.event == event).map Row.target

/-- The state after `process_event` when nobody asks whether it was handled. -/
def fire (table : List Row) (state : CUStateKey) (event : EventType) : CUStateKey :=
  (processEvent table state event).getD state

variable {state entered : CUStateKey}

theorem row_of_processEvent {table : List Row} {ev : EventType}
    (hh : processEvent table state ev = some entered) :
    ⟨state, ev, entered⟩ ∈ table := by
  obtain ⟨row, found, rfl⟩ := map_eq_some_iff.mp hh
  have test := find?_some found
  rw [Bool.and_eq_true, beq_iff_eq, beq_iff_eq] at test
  obtain ⟨rfl, rfl⟩ := test
  exact mem_of_find?_eq_some found

/-- `id_states_machine`. -/
def idStatesMachine : List Row :=
  [⟨.deinit, .init, .init⟩, ⟨.init, .deinit, .deinit⟩]

/-- `ss_state_machine`. -/
def ssStateMachine : List Row :=
  [⟨.deinit, .init, .init⟩, ⟨.init, .deinit, .deinit⟩, ⟨.init, .start, .start⟩,
    ⟨.start, .stop, .stop⟩, ⟨.stop, .start, .start⟩, ⟨.stop, .deinit, .deinit⟩]

/-! ### The services -/

/-- The two states of a service: that of its machine and the one that
`getServiceState` returns. -/
structure ServiceStates where
  machine : CUStateKey
  serviceState : CUStateKey
  deriving DecidableEq, Repr

/-- The virtual methods of a service. -/
inductive Hook
  | init | start | stop | deinit
  deriving DecidableEq, Repr

def Hook.event : Hook → EventType
  | init => .init
  | start => .start
  | stop => .stop
  | deinit => .deinit

/-- The common shape of the static methods: process the event, call the hook, publish the state.
`rollback` is the event that is processed when the hook throws. The method
returns `true` or throws a `CException`. -/
def callImplementation (table : List Row) (event : EventType) (rollback : Option EventType)
    (returns : Bool) (s : ServiceStates) : ServiceStates × Bool :=
  match processEvent table s.machine event with
  | none => (s, false)
  | some entered =>
      if returns then (⟨entered, entered⟩, true)
      else (⟨(rollback.map (fire table entered)).getD entered, s.serviceState⟩, false)

namespace StartableService

def initImplementation : Bool → ServiceStates → ServiceStates × Bool :=
  callImplementation ssStateMachine .init (some .deinit)

def startImplementation : Bool → ServiceStates → ServiceStates × Bool :=
  callImplementation ssStateMachine .start (some .init)

def stopImplementation : Bool → ServiceStates → ServiceStates × Bool :=
  callImplementation ssStateMachine .stop (some .start)

def deinitImplementation : Bool → ServiceStates → ServiceStates × Bool :=
  callImplementation ssStateMachine .deinit none

end StartableService

namespace InizializableService

/-- The outer handler catches the exception of the hook, after the inner one, and
the exception that refuses the call. It processes `deinit` in both cases. -/
def initImplementation (returns : Bool) (s : ServiceStates) : ServiceStates × Bool :=
  match callImplementation idStatesMachine .init (some .deinit) returns s with
  | (t, true) => (t, true)
  | (t, false) => (⟨fire idStatesMachine t.machine .deinit, t.serviceState⟩, false)

def deinitImplementation : Bool → ServiceStates → ServiceStates × Bool :=
  callImplementation idStatesMachine .deinit none

end InizializableService

/-! ### Sequences of calls -/

inductive Kind
  | inizializable | startable
  deriving DecidableEq, Repr

def Kind.table : Kind → List Row
  | inizializable => idStatesMachine
  | startable => ssStateMachine

/-- A call of the static method for a hook, and whether the hook returns when it is called. -/
structure Call where
  hook : Hook
  returns : Bool
  deriving DecidableEq, Repr

/-- The method that a call runs. An inizializable service has no `start` and no `stop`. -/
def Kind.method : Kind → Hook → Option (Bool → ServiceStates → ServiceStates × Bool)
  | inizializable, .init => some InizializableService.initImplementation
  | inizializable, .deinit => some InizializableService.deinitImplementation
  | inizializable, _ => none
  | startable, .init => some StartableService.initImplementation
  | startable, .start => some StartableService.startImplementation
  | startable, .stop => some StartableService.stopImplementation
  | startable, .deinit => some StartableService.deinitImplementation

/-- A service with what has happened to it. -/
structure Observed where
  states : ServiceStates
  /-- The hooks that returned, the first one first. A method returns exactly when its hook does. -/
  returned : List Hook
  /-- The state of the machine before and after every call that threw. -/
  thrown : List (CUStateKey × CUStateKey)
  deriving DecidableEq, Repr

def Observed.init : Observed := ⟨⟨.deinit, .deinit⟩, [], []⟩

def Observed.record (s : Observed) (hook : Hook) (result : ServiceStates × Bool) : Observed :=
  if result.2 then { s with states := result.1, returned := s.returned ++ [hook] }
  else
    { s with
      states := result.1
      thrown := s.thrown ++ [(s.states.machine, result.1.machine)] }

def step (kind : Kind) (s : Observed) (call : Call) : Option Observed :=
  (kind.method call.hook).map fun method => s.record call.hook (method call.returns s.states)

/-! ### Life cycles -/

/-- `(start stop)*` -/
def startStops : Language Hook := ({[.start, .stop]} : Language Hook)∗

/-- `(init (start stop)* deinit)*` -/
def lifeCycles : Language Hook := ({[.init]} * startStops * {[.deinit]})∗

theorem kstar_append {α : Type*} {l : Language α} {x y : List α} (many : x ∈ l∗) (one : y ∈ l) :
    x ++ y ∈ l∗ := by
  obtain ⟨words, rfl, members⟩ := Language.mem_kstar.mp many
  refine Language.mem_kstar.mpr ⟨words ++ [y], by simp, ?_⟩
  exact forall_mem_append.mpr ⟨members, forall_mem_singleton.mpr one⟩

variable {hooks : List Hook}

theorem startStops_append (pairs : hooks ∈ startStops) : hooks ++ [.start, .stop] ∈ startStops :=
  kstar_append pairs rfl

theorem lifeCycles_append {pairs : List Hook} (cycles : hooks ∈ lifeCycles)
    (hm : pairs ∈ startStops) : hooks ++ .init :: (pairs ++ [.deinit]) ∈ lifeCycles := by
  refine kstar_append cycles ?_
  rw [mul_assoc]
  exact Language.mem_mul.mpr ⟨[.init], rfl, pairs ++ [.deinit],
    Language.mem_mul.mpr ⟨pairs, hm, [.deinit], rfl, rfl⟩, rfl⟩

/-- Where the hooks that returned stand in the life cycle, for a state of the machine. -/
def Position : CUStateKey → List Hook → Prop
  | .deinit, hooks => hooks ∈ lifeCycles
  | .init, hooks | .stop, hooks =>
      ∃ cycles ∈ lifeCycles, ∃ pairs ∈ startStops, hooks = cycles ++ .init :: pairs
  | .start, hooks =>
      ∃ cycles ∈ lifeCycles, ∃ pairs ∈ startStops, hooks = cycles ++ .init :: (pairs ++ [.start])
  | _, _ => False

theorem position_init : Position .deinit [] := Language.nil_mem_kstar _

/-- A handled event moves along the life cycle. -/
theorem Position.advance {hook : Hook}
    (hp : Position state hooks) (row : ⟨state, hook.event, entered⟩ ∈ ssStateMachine) :
    Position entered (hooks ++ [hook]) := by
  have hi : ∀ {hooks}, Position .init hooks →
      Position .deinit (hooks ++ [.deinit]) ∧ Position .start (hooks ++ [.start]) := by
    rintro hooks ⟨cycles, hm, pairs, paired, rfl⟩
    refine ⟨?_, cycles, hm, pairs, paired, by simp⟩
    simpa [Position] using lifeCycles_append hm paired
  cases hook with
  | init =>
    obtain ⟨rfl, rfl⟩ : state = .deinit ∧ entered = .init := by
      simpa [ssStateMachine, Hook.event] using row
    exact ⟨hooks, hp, [], Language.nil_mem_kstar _, rfl⟩
  | start =>
    obtain ⟨rfl, rfl⟩ | ⟨rfl, rfl⟩ : state = .init ∧ entered = .start ∨
        state = .stop ∧ entered = .start := by
      simpa [ssStateMachine, Hook.event] using row
    · exact (hi hp).2
    · exact (hi hp).2
  | stop =>
    obtain ⟨rfl, rfl⟩ : state = .start ∧ entered = .stop := by
      simpa [ssStateMachine, Hook.event] using row
    obtain ⟨cycles, hm, pairs, paired, rfl⟩ := hp
    exact ⟨cycles, hm, pairs ++ [.start, .stop], startStops_append paired, by simp⟩
  | deinit =>
    obtain ⟨rfl, rfl⟩ | ⟨rfl, rfl⟩ : state = .init ∧ entered = .deinit ∨
        state = .stop ∧ entered = .deinit := by
      simpa [ssStateMachine, Hook.event] using row
    · exact (hi hp).1
    · exact (hi hp).1

/-- The hooks can be completed to whole life cycles. -/
theorem Position.isPrefix (hp : Position state hooks) : ∃ rest, hooks ++ rest ∈ lifeCycles := by
  cases state with
  | deinit => exact ⟨[], (append_nil hooks).symm ▸ hp⟩
  | init | stop =>
    obtain ⟨cycles, hm, pairs, paired, rfl⟩ := hp
    exact ⟨[.deinit], by simpa using lifeCycles_append hm paired⟩
  | start =>
    obtain ⟨cycles, hm, pairs, paired, rfl⟩ := hp
    exact ⟨[.stop, .deinit], by
      simpa using lifeCycles_append hm (startStops_append paired)⟩
  | recoverableError | fatalError => exact hp.elim

/-! ### What a call does -/

/-- The machine has a row for the hook, so that the method calls it. -/
def Accepts (kind : Kind) (machine : CUStateKey) (hook : Hook) : Prop :=
  (processEvent kind.table machine hook.event).isSome

instance decidableAccepts (kind : Kind) (machine : CUStateKey) (hook : Hook) :
    Decidable (Accepts kind machine hook) :=
  inferInstanceAs (Decidable (_ = true))

/-- No hook `start` or `deinit` throws, and an inizializable service is not initialized twice. -/
def Reversible : Kind → CUStateKey → Call → Prop
  | .startable, machine, call =>
      call.hook = .start ∨ call.hook = .deinit →
        Accepts .startable machine call.hook → call.returns
  | .inizializable, machine, call =>
      (call.hook = .init → Accepts .inizializable machine .init) ∧
      (call.hook = .deinit → Accepts .inizializable machine .deinit → call.returns)

instance decidableReversible : ∀ (kind : Kind) (machine : CUStateKey) (call : Call),
    Decidable (Reversible kind machine call)
  | .startable, _, _ => inferInstanceAs (Decidable (_ → _))
  | .inizializable, _, _ => inferInstanceAs (Decidable (_ ∧ _))

/-- The states in which a service of the kind can be. -/
def Kind.Has : Kind → CUStateKey → Prop
  | inizializable, machine => machine = .deinit ∨ machine = .init
  | startable, _ => True

/-- What a method does to a service whose two states are `machine`. -/
inductive Outcome (kind : Kind) (machine : CUStateKey) (call : Call) :
    ServiceStates × Bool → Prop
  | unchanged (reversible : Reversible kind machine call) :
      Outcome kind machine call (⟨machine, machine⟩, false)
  | advanced (reversible : Reversible kind machine call) (entered : CUStateKey)
      (row : ⟨machine, call.hook.event, entered⟩ ∈ kind.table) :
      Outcome kind machine call (⟨entered, entered⟩, true)
  | diverged (irreversible : ¬ Reversible kind machine call) (states : ServiceStates)
      (differ : states.serviceState ≠ states.machine) : Outcome kind machine call (states, false)

/-- Every row leads to another state. -/
theorem source_ne_target : ∀ row ∈ ssStateMachine, row.source ≠ row.target := by decide

theorem idStatesMachine_subset : ∀ row ∈ idStatesMachine, row ∈ ssStateMachine := by decide

theorem Kind.table_subset (kind : Kind) : ∀ row ∈ kind.table, row ∈ ssStateMachine := by
  cases kind
  · exact idStatesMachine_subset
  · exact fun _ hm => hm

/-- The rollback event leads back over every row of the event. -/
def LeadsBack (table : List Row) (event rollback : EventType) : Prop :=
  ∀ row ∈ table, row.event = event → fire table row.target rollback = row.source

instance decidableLeadsBack (table : List Row) (event rollback : EventType) :
    Decidable (LeadsBack table event rollback) :=
  List.decidableBAll ..

section Outcome

variable {kind : Kind} {mach : CUStateKey} {rets : Bool}

/-- A method that rolls back properly. -/
theorem outcome_of_leadsBack (hook : Hook) {rollback : EventType}
    (hr : Reversible kind mach ⟨hook, rets⟩)
    (back : LeadsBack kind.table hook.event rollback) :
    Outcome kind mach ⟨hook, rets⟩
      (callImplementation kind.table hook.event (some rollback) rets ⟨mach, mach⟩) := by
  rw [callImplementation]
  cases hh : processEvent kind.table mach hook.event with
  | none => exact .unchanged hr
  | some entered =>
    have row := row_of_processEvent hh
    cases rets with
    | true => exact .advanced hr entered row
    | false =>
      have same : fire kind.table entered rollback = mach := back _ row rfl
      simpa [same] using Outcome.unchanged hr

/-- A method that stays in the state it has entered when the hook throws. -/
theorem outcome_of_stays (hook : Hook) {rollback : Option EventType}
    (hr : Reversible kind mach ⟨hook, rets⟩ ↔ (Accepts kind mach hook → rets = true))
    (stays : ∀ entered, processEvent kind.table mach hook.event = some entered →
      (rollback.map (fire kind.table entered)).getD entered = entered) :
    Outcome kind mach ⟨hook, rets⟩
      (callImplementation kind.table hook.event rollback rets ⟨mach, mach⟩) := by
  rw [callImplementation]
  cases hh : processEvent kind.table mach hook.event with
  | none =>
    refine .unchanged (hr.mpr fun ha => ?_)
    simp [Accepts, hh] at ha
  | some entered =>
    have row := row_of_processEvent hh
    cases rets with
    | true => exact .advanced (hr.mpr fun _ => rfl) entered row
    | false =>
      have ha : Accepts kind mach hook := by simp [Accepts, hh]
      refine .diverged (fun allowed => ?_) _ ?_
      · exact Bool.false_ne_true (hr.mp allowed ha)
      · rw [stays entered hh]
        exact source_ne_target _ (kind.table_subset _ row)

end Outcome

variable {method : Bool → ServiceStates → ServiceStates × Bool} {mach : CUStateKey}

theorem outcome_startable (mach : CUStateKey) (call : Call)
    (hc : Kind.startable.method call.hook = some method) :
    Outcome .startable mach call (method call.returns ⟨mach, mach⟩) := by
  obtain ⟨hook, rets⟩ := call
  cases hook with
  | init =>
    cases hc
    refine outcome_of_leadsBack .init ?_ (by decide)
    simp [Reversible]
  | start =>
    cases hc
    refine outcome_of_stays .start ?_ fun entered hh => ?_
    · simp [Reversible]
    · -- The only state that `start` leads to has no row for `init`.
      have row := row_of_processEvent hh
      obtain ⟨-, rfl⟩ | ⟨-, rfl⟩ : mach = .init ∧ entered = .start ∨
          mach = .stop ∧ entered = .start := by
        simpa [Kind.table, ssStateMachine, Hook.event] using row
      · rfl
      · rfl
  | stop =>
    cases hc
    refine outcome_of_leadsBack .stop ?_ (by decide)
    simp [Reversible]
  | deinit =>
    cases hc
    refine outcome_of_stays .deinit ?_ fun entered _ => rfl
    simp [Reversible]

theorem outcome_inizializable (has : Kind.inizializable.Has mach) (call : Call)
    (hc : Kind.inizializable.method call.hook = some method) :
    Outcome .inizializable mach call (method call.returns ⟨mach, mach⟩) := by
  obtain ⟨hook, rets⟩ := call
  cases hook with
  | init =>
    cases hc
    rcases has with rfl | rfl
    · have ha : Reversible .inizializable .deinit ⟨.init, rets⟩ :=
        ⟨fun _ => rfl, nofun⟩
      cases rets with
      | true => exact .advanced ha .init (mem_cons_self ..)
      | false => exact .unchanged ha
    · -- The call is refused, and the outer handler deinitializes the machine.
      have hr : ¬ Reversible .inizializable .init ⟨.init, rets⟩ :=
        fun allowed => Bool.false_ne_true (allowed.1 rfl)
      exact .diverged hr ⟨.deinit, .init⟩ (by decide)
  | start | stop => cases hc
  | deinit =>
    cases hc
    refine outcome_of_stays .deinit ?_ fun entered _ => rfl
    simp [Reversible]

theorem outcome {kind : Kind} (has : kind.Has mach) (call : Call)
    (hc : kind.method call.hook = some method) :
    Outcome kind mach call (method call.returns ⟨mach, mach⟩) := by
  cases kind
  · exact outcome_inizializable has call hc
  · exact outcome_startable mach call hc

theorem Kind.has_target {kind : Kind} {row : Row} (hm : row ∈ kind.table) :
    kind.Has row.target := by
  cases kind with
  | inizializable =>
    obtain rfl | rfl : row = ⟨.deinit, .init, .init⟩ ∨ row = ⟨.init, .deinit, .deinit⟩ := by
      simpa [Kind.table, idStatesMachine] using hm
    · exact Or.inr rfl
    · exact Or.inl rfl
  | startable => exact trivial

/-! ### Sequences of calls -/

/-- The two states agree, no call that threw has moved the machine, and the hooks that returned
are the beginning of life cycles. -/
structure Consistent (s : Observed) : Prop where
  agree : s.states.serviceState = s.states.machine
  unmoved : ∀ call ∈ s.thrown, call.2 = call.1
  ordered : ∃ rest, s.returned ++ rest ∈ lifeCycles

/-- What carries `Consistent` through a sequence of calls. -/
structure Tracked (kind : Kind) (s : Observed) : Prop where
  agree : s.states = ⟨s.states.machine, s.states.machine⟩
  has : kind.Has s.states.machine
  unmoved : ∀ call ∈ s.thrown, call.2 = call.1
  position : Position s.states.machine s.returned

theorem tracked_init (kind : Kind) : Tracked kind .init where
  agree := rfl
  has := by
    cases kind
    · exact Or.inl rfl
    · exact trivial
  unmoved := nofun
  position := position_init

variable {kind : Kind} {s t : Observed} {call : Call}

section

variable (tracked : Tracked kind s)

include tracked

theorem Tracked.consistent : Consistent s where
  agree := congrArg ServiceStates.serviceState tracked.agree
  unmoved := tracked.unmoved
  ordered := tracked.position.isPrefix

theorem step_outcome (taken : step kind s call = some t) :
    ∃ res, Outcome kind s.states.machine call res ∧ t = s.record call.hook res := by
  obtain ⟨method, hc, rfl⟩ := map_eq_some_iff.mp taken
  refine ⟨_, ?_, rfl⟩
  rw [tracked.agree]
  exact outcome tracked.has call hc

theorem step_tracked (hr : Reversible kind s.states.machine call)
    (taken : step kind s call = some t) : Tracked kind t := by
  obtain ⟨res, ho, rfl⟩ := step_outcome tracked taken
  cases ho with
  | unchanged allowed =>
    exact ⟨rfl, tracked.has, forall_mem_append.mpr
      ⟨tracked.unmoved, forall_mem_singleton.mpr rfl⟩, tracked.position⟩
  | advanced allowed entered row =>
    exact ⟨rfl, Kind.has_target row, tracked.unmoved,
      tracked.position.advance (kind.table_subset _ row)⟩
  | diverged hi states differ => exact absurd hr hi

theorem reversible_of_step (taken : step kind s call = some t) (hc : Consistent t) :
    Reversible kind s.states.machine call := by
  obtain ⟨res, ho, rfl⟩ := step_outcome tracked taken
  cases ho with
  | unchanged allowed | advanced allowed entered row => exact allowed
  | diverged hi states differ => exact absurd hc.agree differ

end

/-- For every sequence of calls of a new service, the service is consistent after each of them
exactly when every call can be reversed. -/
theorem consistent_iff_reversible (kind : Kind) (calls : List Call) (t : Observed)
    (run : execute (step kind) .init calls = some t) :
    Admissible (step kind) (fun s call => Reversible kind s.states.machine call) .init calls ↔
      ∀ n r, execute (step kind) .init (calls.take n) = some r → Consistent r :=
  admissible_iff_forall_reached step_tracked Tracked.consistent reversible_of_step
    (tracked_init kind) run

/-- One whole life cycle in which `stop` fails once. -/
theorem consistent_iff_reversible_cycle :
    let calls : List Call :=
      [⟨.init, true⟩, ⟨.start, true⟩, ⟨.stop, false⟩, ⟨.stop, true⟩, ⟨.deinit, true⟩]
    ∃ t, execute (step .startable) .init calls = some t ∧
      ∀ n r, execute (step .startable) .init (calls.take n) = some r → Consistent r :=
  ⟨_, rfl, (consistent_iff_reversible .startable _ _ rfl).mp (by decide)⟩

/-- The hook `start` throws: the machine stays in `Start` while the service is still
initialized for its clients. -/
theorem start_throws :
    ∃ t, execute (step .startable) .init [⟨.init, true⟩, ⟨.start, false⟩] = some t ∧
      t.states = ⟨.start, .init⟩ ∧ ¬ Consistent t :=
  ⟨_, rfl, rfl, fun hc => nomatch hc.agree⟩

end ChaosFramework.Service
