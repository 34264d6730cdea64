import ChaosFramework.Service.StateMachine

/-!
# Services with errors

`SWEService` adds two error states to a startable service. Going into an error keeps the state that
is left in `last_state`; `recoverError` asks the implementation and then processes the event of
`last_state`. It looks at neither the state of the service nor the kind of the error, and
`last_state` is cleared by a recovery only. So the service may follow a `last_state` that is stale,
that of a fatal error, or none at all.

In the recoverable error state `last_state` is always the state in which the error occurred
(`Tracked`), and a recovery is right whenever it succeeds.
-/

namespace ChaosFramework.Service

open Transition List Option

/-- `swe_state_machine`. -/
def sweStateMachine : List Row :=
  [⟨.deinit, .init, .init⟩, ⟨.init, .deinit, .deinit⟩, ⟨.init, .start, .start⟩,
    ⟨.start, .stop, .stop⟩, ⟨.stop, .start, .start⟩, ⟨.stop, .deinit, .deinit⟩,
    ⟨.init, .recoverableError, .recoverableError⟩, ⟨.start, .recoverableError, .recoverableError⟩,
    ⟨.stop, .recoverableError, .recoverableError⟩, ⟨.deinit, .recoverableError, .recoverableError⟩,
    ⟨.recoverableError, .init, .init⟩, ⟨.recoverableError, .start, .start⟩,
    ⟨.recoverableError, .stop, .stop⟩, ⟨.recoverableError, .deinit, .deinit⟩,
    ⟨.init, .fatalError, .fatalError⟩, ⟨.start, .fatalError, .fatalError⟩,
    ⟨.stop, .fatalError, .fatalError⟩, ⟨.deinit, .fatalError, .fatalError⟩,
    ⟨.fatalError, .init, .init⟩]

/-- A service whose implementation has the state `σ`. -/
structure SWEService (σ : Type*) where
  machine : CUStateKey
  serviceState : CUStateKey
  /-- `last_state`, where `none` is `-1`. -/
  lastState : Option CUStateKey
  implementation : σ

/-- The virtual methods that are told about errors. What `recoverableErrorFromState` and
`fatalErrorFromState` throw is caught and forgotten, so that only their effect is left. -/
structure Handlers (σ : Type*) where
  recoverableErrorFromState : Option CUStateKey → σ → σ
  fatalErrorFromState : Option CUStateKey → σ → σ
  /-- `none` when it throws. -/
  beforeRecoverErrorFromState : Option CUStateKey → σ → σ × Option Bool
  /-- `false` when it throws. -/
  recoveredToState : Option CUStateKey → σ → σ × Bool

namespace SWEService

variable {σ : Type*}

/-- A service after its construction. -/
def init (implementation : σ) : SWEService σ := ⟨.deinit, .deinit, none, implementation⟩

/-- The static methods for `init`, `start`, `stop` and `deinit`. They call no hook. -/
def implementationOf (event : EventType) (s : SWEService σ) : SWEService σ × Bool :=
  match processEvent sweStateMachine s.machine event with
  | some entered => ({ s with machine := entered, serviceState := entered }, true)
  | none => (s, false)

def initImplementation : SWEService σ → SWEService σ × Bool := implementationOf .init

def startImplementation : SWEService σ → SWEService σ × Bool := implementationOf .start

def stopImplementation : SWEService σ → SWEService σ × Bool := implementationOf .stop

def deinitImplementation : SWEService σ → SWEService σ × Bool := implementationOf .deinit

/-- Unless the service is in an error already, the state of the machine is kept. -/
def keepLastState (s : SWEService σ) : SWEService σ :=
  if s.serviceState ≠ .recoverableError ∧ s.serviceState ≠ .fatalError then
    { s with lastState := some s.machine }
  else s

/-- The common shape of `goInRecoverableError` and `goInFatalError`. The state is published
before the implementation is told. -/
def goInError (event : EventType) (handler : Option CUStateKey → σ → σ) (s : SWEService σ) :
    SWEService σ × Bool :=
  let kept := s.keepLastState
  match processEvent sweStateMachine kept.machine event with
  | some entered =>
      ({ kept with
          machine := entered
          serviceState := entered
          implementation := handler kept.lastState kept.implementation }, true)
  | none => (kept, false)

def goInRecoverableError (handlers : Handlers σ) : SWEService σ → SWEService σ × Bool :=
  goInError .recoverableError handlers.recoverableErrorFromState

def goInFatalError (handlers : Handlers σ) : SWEService σ → SWEService σ × Bool :=
  goInError .fatalError handlers.fatalErrorFromState

/-- The event that leads to a state, in the `switch` of `recoverError`. -/
def recoveryEvent : CUStateKey → Option EventType
  | .init => some .init
  | .start => some .start
  | .stop => some .stop
  | .deinit => some .deinit
  | .recoverableError | .fatalError => none

/-- The state of the machine after the `switch` of `recoverError`, and `none` when the event is not
handled. In the `default` case nothing is processed and the recovery goes on. -/
def recoveryTarget (s : SWEService σ) : Option CUStateKey :=
  match s.lastState.bind recoveryEvent with
  | some event => processEvent sweStateMachine s.machine event
  | none => some s.machine

/-- `last_state` is cleared behind the call of `recoveredToState`, so not when that throws. -/
def recoverError (handlers : Handlers σ) (s : SWEService σ) : SWEService σ × Bool :=
  match handlers.beforeRecoverErrorFromState s.lastState s.implementation with
  | (asked, some true) =>
      match s.recoveryTarget with
      | some target =>
          let told := handlers.recoveredToState s.lastState asked
          ({ machine := target
             serviceState := target
             lastState := if told.2 then none else s.lastState
             implementation := told.1 }, true)
      | none => ({ s with implementation := asked }, false)
  | (asked, _) => ({ s with implementation := asked }, false)

end SWEService

/-! ### Sequences of calls -/

/-- A call, with the behaviour of the hooks that it may run. -/
inductive SWECall
  | initImplementation
  | startImplementation
  | stopImplementation
  | deinitImplementation
  | goInRecoverableError
  | goInFatalError
  /-- `agrees` is what `beforeRecoverErrorFromState` returns, or `none` when it throws,
  and `returns` says that `recoveredToState` does not throw. -/
  | recoverError (agrees : Option Bool) (returns : Bool)
  deriving DecidableEq, Repr

/-- An implementation that keeps the arguments with which `recoveredToState` is called. -/
def recordingHandlers (agrees : Option Bool) (returns : Bool) :
    Handlers (List (Option CUStateKey)) where
  recoverableErrorFromState _ told := told
  fatalErrorFromState _ told := told
  beforeRecoverErrorFromState _ told := (told, agrees)
  recoveredToState state told := (told ++ [state], returns)

/-- The service before a call of which the arguments are to be seen. -/
def SWEService.forgotten (s : SWEService (List (Option CUStateKey))) :
    SWEService (List (Option CUStateKey)) :=
  { s with implementation := [] }

/-- A call of `recoverError`, as it is seen from outside. -/
structure Recovery where
  /-- The state of the service before the call. -/
  before : CUStateKey
  /-- The state in which the service was immediately before its last recoverable error. -/
  failedFrom : Option CUStateKey
  after : CUStateKey
  result : Bool
  /-- The arguments of the calls of `recoveredToState`. -/
  told : List (Option CUStateKey)
  deriving DecidableEq, Repr

structure SWEObserved where
  service : SWEService (List (Option CUStateKey))
  failedFrom : Option CUStateKey
  recoveries : List Recovery

namespace SWEObserved

def init : SWEObserved := ⟨.init [], none, []⟩

/-- The service after a call. Its state is kept when it goes into the recoverable error. -/
def become (s : SWEObserved) (service : SWEService (List (Option CUStateKey))) : SWEObserved :=
  { s with
    service
    failedFrom :=
      if service.serviceState = .recoverableError ∧ s.service.serviceState ≠ .recoverableError then
        some s.service.serviceState
      else s.failedFrom }

def step (s : SWEObserved) : SWECall → Option SWEObserved
  | .initImplementation => some (s.become s.service.initImplementation.1)
  | .startImplementation => some (s.become s.service.startImplementation.1)
  | .stopImplementation => some (s.become s.service.stopImplementation.1)
  | .deinitImplementation => some (s.become s.service.deinitImplementation.1)
  | .goInRecoverableError =>
      some (s.become (s.service.goInRecoverableError (recordingHandlers none true)).1)
  | .goInFatalError => some (s.become (s.service.goInFatalError (recordingHandlers none true)).1)
  | .recoverError agrees returns =>
      let answer := s.service.forgotten.recoverError (recordingHandlers agrees returns)
      let seen : Recovery :=
        { before := s.service.serviceState
          failedFrom := s.failedFrom
          after := answer.1.serviceState
          result := answer.2
          told := answer.1.implementation }
      some { s.become answer.1 with recoveries := s.recoveries ++ [seen] }

end SWEObserved

/-- What a recovery should be: it moves the service out of the recoverable error only, and
when it succeeds the service is where it was before that error, and is told so once. -/
structure Recovery.Right (r : Recovery) : Prop where
  only : r.after ≠ r.before → r.before = .recoverableError
  back : r.result = true → r.before = .recoverableError ∧
    ∃ state, r.failedFrom = some state ∧ r.after = state ∧ r.told = [some state]

/-! ### The state before the error -/

/-- The states that `last_state` can be: those of a startable service. -/
def CUStateKey.Ordinary (state : CUStateKey) : Prop :=
  state ≠ .recoverableError ∧ state ≠ .fatalError

/-- The machine is what is published, `last_state` is an ordinary state, and in the recoverable
error it is the state in which the error occurred. -/
structure SWETracked (s : SWEObserved) : Prop where
  agree : s.service.serviceState = s.service.machine
  ordinary : ∀ state ∈ s.service.lastState, state.Ordinary
  failed : s.service.machine = .recoverableError →
    s.service.lastState.isSome ∧ s.failedFrom = s.service.lastState
  right : ∀ recovery ∈ s.recoveries, recovery.Right

theorem sweTracked_init : SWETracked .init where
  agree := rfl
  ordinary := nofun
  failed := nofun
  right := nofun

section Steps

variable {s t : SWEObserved} {srv : SWEService (List (Option CUStateKey))} {call : SWECall}

theorem event_of_recoverableError : ∀ row ∈ sweStateMachine, row.target = .recoverableError →
    row.event = .recoverableError ∧ row.source.Ordinary := by
  simp [sweStateMachine, CUStateKey.Ordinary]

/-- A transition that is not caused by an error. -/
theorem SWETracked.become_of_ordinary (tracked : SWETracked s)
    (agree : srv.serviceState = srv.machine)
    (ho : ∀ state ∈ srv.lastState, state.Ordinary)
    (elsewhere : srv.machine = .recoverableError →
      s.service.machine = .recoverableError ∧ srv.lastState = s.service.lastState) :
    SWETracked (s.become srv) := by
  refine ⟨agree, ho, fun error => ?_, tracked.right⟩
  obtain ⟨ha, same⟩ := elsewhere error
  obtain ⟨known, hf⟩ := tracked.failed ha
  have stays : (s.become srv).failedFrom = s.failedFrom :=
    if_neg fun enters => enters.2 (tracked.agree.trans ha)
  rw [stays]
  exact ⟨same ▸ known, hf.trans same.symm⟩

theorem SWETracked.implementationOf (tracked : SWETracked s) {ev : EventType}
    (other : ev ≠ .recoverableError) :
    SWETracked (s.become (s.service.implementationOf ev).1) := by
  rw [SWEService.implementationOf]
  cases hh : processEvent sweStateMachine s.service.machine ev with
  | none =>
    exact tracked.become_of_ordinary tracked.agree tracked.ordinary fun error => ⟨error, rfl⟩
  | some entered =>
    refine tracked.become_of_ordinary rfl tracked.ordinary fun error => ?_
    exact absurd (event_of_recoverableError _ (row_of_processEvent hh) error).1 other

theorem ordinary_keepLastState (tracked : SWETracked s) :
    ∀ state ∈ s.service.keepLastState.lastState, state.Ordinary := by
  rw [SWEService.keepLastState]
  split
  case isTrue ordinary =>
    intro state hm
    cases hm
    exact tracked.agree ▸ ordinary
  case isFalse => exact tracked.ordinary

theorem keepLastState_machine (srv : SWEService (List (Option CUStateKey))) :
    srv.keepLastState.machine = srv.machine ∧
      srv.keepLastState.serviceState = srv.serviceState := by
  rw [SWEService.keepLastState]
  split <;> exact ⟨rfl, rfl⟩

theorem SWETracked.goInError (tracked : SWETracked s) (ev : EventType)
    (handler : Option CUStateKey → List (Option CUStateKey) → List (Option CUStateKey)) :
    SWETracked (s.become (s.service.goInError ev handler).1) := by
  have hk := keepLastState_machine s.service
  rw [SWEService.goInError]
  cases hh : processEvent sweStateMachine s.service.keepLastState.machine ev with
  | none =>
    refine tracked.become_of_ordinary (hk.2.trans (tracked.agree.trans hk.1.symm))
      (ordinary_keepLastState tracked) fun error => ?_
    have ha : s.service.machine = .recoverableError := hk.1.symm.trans error
    refine ⟨ha, ?_⟩
    rw [SWEService.keepLastState, if_neg fun ho => ho.1 (tracked.agree.trans ha)]
  | some entered =>
    by_cases error : entered = .recoverableError
    · -- Only an ordinary state has a row into the error, and it has just been kept.
      have row := event_of_recoverableError _ (row_of_processEvent hh) error
      have ho : s.service.machine.Ordinary := hk.1 ▸ row.2
      have last : s.service.keepLastState.lastState = some s.service.machine := by
        rw [SWEService.keepLastState, if_pos (tracked.agree ▸ ho)]
      refine ⟨rfl, ordinary_keepLastState tracked, fun _ => ⟨?_, ?_⟩, tracked.right⟩
      · exact isSome_iff_exists.mpr ⟨_, last⟩
      · have enters : s.service.serviceState ≠ .recoverableError := tracked.agree ▸ ho.1
        exact (if_pos ⟨error, enters⟩).trans ((congrArg some tracked.agree).trans last.symm)
    · refine tracked.become_of_ordinary rfl (ordinary_keepLastState tracked) fun recoverable => ?_
      exact absurd recoverable error

/-! ### Recoveries -/

/-- The machine has no transition for the event of `last_state`. -/
def Unhandled (service : SWEService (List (Option CUStateKey))) : Bool :=
  (service.lastState.bind SWEService.recoveryEvent).any fun event =>
    (processEvent sweStateMachine service.machine event).isNone

/-- A recovery is requested in the recoverable error, or fails: the implementation does not agree
to it, or the event of `last_state` is not handled. -/
def Recoverable (s : SWEObserved) : SWECall → Prop
  | .recoverError agrees _ =>
      s.service.serviceState = .recoverableError ∨ agrees ≠ some true ∨ Unhandled s.service
  | _ => True

instance decidableRecoverable (s : SWEObserved) (call : SWECall) :
    Decidable (Recoverable s call) := by
  unfold Recoverable
  split <;> infer_instance

theorem unhandled_iff (srv : SWEService (List (Option CUStateKey))) :
    Unhandled srv ↔ srv.recoveryTarget = none := by
  rw [Unhandled, SWEService.recoveryTarget]
  cases srv.lastState.bind SWEService.recoveryEvent <;> simp

/-- In the recoverable error the way back is open to every ordinary state. -/
theorem recoveryTarget_of_recoverableError
    {state : CUStateKey} (error : srv.machine = .recoverableError)
    (last : srv.lastState = some state) (ho : state.Ordinary) :
    srv.recoveryTarget = some state := by
  rw [SWEService.recoveryTarget, last, error]
  cases state with
  | deinit | init | start | stop => rfl
  | recoverableError => exact absurd rfl ho.1
  | fatalError => exact absurd rfl ho.2

/-- What `recoverError` does and what is seen of it. -/
inductive RecoveryOutcome (s : SWEObserved) (agrees : Option Bool) :
    SWEService (List (Option CUStateKey)) × Bool → Prop
  | failed (told : agrees ≠ some true ∨ Unhandled s.service) :
      RecoveryOutcome s agrees (s.service.forgotten, false)
  | succeeded (target : CUStateKey) (last : Option CUStateKey)
      (agreed : agrees = some true) (handled : s.service.recoveryTarget = some target)
      (cleared : last = none ∨ last = s.service.lastState) :
      RecoveryOutcome s agrees (⟨target, target, last, [s.service.lastState]⟩, true)

theorem recoverError_outcome (s : SWEObserved) (agrees : Option Bool) (rets : Bool) :
    RecoveryOutcome s agrees
      (s.service.forgotten.recoverError (recordingHandlers agrees rets)) := by
  have same : s.service.forgotten.recoveryTarget = s.service.recoveryTarget := rfl
  rcases agrees with _ | _ | _
  · exact .failed (Or.inl (by simp))
  · exact .failed (Or.inl (by simp))
  · rw [SWEService.recoverError]
    simp only [same]
    cases hh : s.service.recoveryTarget with
    | none => exact .failed (Or.inr ((unhandled_iff _).mpr hh))
    | some target =>
      refine .succeeded target _ rfl hh ?_
      cases rets
      · exact Or.inr rfl
      · exact Or.inl rfl

/-- The recovery that `step` records. -/
theorem SWETracked.recoverError (tracked : SWETracked s) {agrees : Option Bool}
    {ans : SWEService (List (Option CUStateKey)) × Bool}
    (outcome : RecoveryOutcome s agrees ans)
    (recoverable : s.service.serviceState = .recoverableError ∨ agrees ≠ some true ∨
      Unhandled s.service) :
    SWETracked (s.become ans.1) ∧ Recovery.Right
      ⟨s.service.serviceState, s.failedFrom, ans.1.serviceState, ans.2, ans.1.implementation⟩ := by
  cases outcome with
  | failed told =>
    refine ⟨tracked.become_of_ordinary tracked.agree tracked.ordinary fun error => ⟨error, rfl⟩,
      (absurd rfl), nofun⟩
  | succeeded target last agreed hh hc =>
    have error : s.service.serviceState = .recoverableError := by
      rcases recoverable with error | hr | unhandled
      · exact error
      · exact absurd agreed hr
      · rw [unhandled_iff, hh] at unhandled
        cases unhandled
    have machine := tracked.agree.symm.trans error
    obtain ⟨known, hf⟩ := tracked.failed machine
    obtain ⟨state, kept⟩ := isSome_iff_exists.mp known
    have ho := tracked.ordinary state kept
    obtain rfl : target = state := Option.some.inj
      (hh.symm.trans (recoveryTarget_of_recoverableError machine kept ho))
    refine ⟨tracked.become_of_ordinary rfl ?_ fun stays => absurd stays ho.1,
      fun _ => error, fun _ => ⟨error, target, hf.trans kept, rfl, by rw [kept]⟩⟩
    rcases hc with rfl | rfl
    · intro other hm
      cases hm
    · exact tracked.ordinary

theorem step_sweTracked (tracked : SWETracked s)
    (recoverable : Recoverable s call) (taken : s.step call = some t) : SWETracked t := by
  cases call with
  | initImplementation | startImplementation | stopImplementation | deinitImplementation =>
    cases taken
    exact tracked.implementationOf (by decide)
  | goInRecoverableError | goInFatalError =>
    cases taken
    exact tracked.goInError ..
  | recoverError agrees rets =>
    cases taken
    obtain ⟨becomes, right⟩ :=
      tracked.recoverError (recoverError_outcome s agrees rets) recoverable
    exact ⟨becomes.agree, becomes.ordinary, becomes.failed,
      forall_mem_append.mpr ⟨tracked.right, forall_mem_singleton.mpr right⟩⟩

theorem recoverable_of_step (taken : s.step call = some t)
    (right : ∀ recovery ∈ t.recoveries, recovery.Right) : Recoverable s call := by
  cases call with
  | initImplementation | startImplementation | stopImplementation | deinitImplementation
  | goInRecoverableError | goInFatalError => exact trivial
  | recoverError agrees rets =>
    cases taken
    have last := right _ (mem_append_right _ (mem_singleton_self _))
    have outcome := recoverError_outcome s agrees rets
    generalize s.service.forgotten.recoverError (recordingHandlers agrees rets) = ans
      at outcome last
    cases outcome with
    | failed told => exact Or.inr told
    | succeeded target last agreed hh hc => exact Or.inl (last.back rfl).1

end Steps

/-- For every sequence of calls of a new service, all its recoveries are right exactly when each of
them is requested in the recoverable error or fails. -/
theorem recoveries_right_iff (calls : List SWECall) (t : SWEObserved)
    (run : execute SWEObserved.step .init calls = some t) :
    Admissible SWEObserved.step Recoverable .init calls ↔
      ∀ n r, execute SWEObserved.step .init (calls.take n) = some r →
        ∀ recovery ∈ r.recoveries, recovery.Right :=
  admissible_iff_forall_reached step_sweTracked SWETracked.right
    (fun _ => recoverable_of_step) sweTracked_init run

/-- An error while the service runs, and its recovery. -/
theorem recoveries_right_of_start :
    let calls : List SWECall := [.initImplementation, .startImplementation,
      .goInRecoverableError, .goInFatalError, .recoverError (some true) true, .stopImplementation]
    ∃ t, execute SWEObserved.step .init calls = some t ∧
      t.recoveries = [⟨.recoverableError, some .start, .start, true, [some .start]⟩] ∧
      ∀ n r, execute SWEObserved.step .init (calls.take n) = some r →
        ∀ recovery ∈ r.recoveries, recovery.Right :=
  ⟨_, rfl, rfl, (recoveries_right_iff _ _ rfl).mp (by decide)⟩

/-- A fatal error of an initialized service is recovered from, although it is not recoverable. -/
theorem fatal_error_recovered :
    ∃ t, execute SWEObserved.step .init
        [.initImplementation, .goInFatalError, .recoverError (some true) true] = some t ∧
      t.recoveries = [⟨.fatalError, none, .init, true, [some .init]⟩] ∧
      ¬ ∀ recovery ∈ t.recoveries, recovery.Right :=
  ⟨_, rfl, rfl, fun right => nomatch (right _ (mem_singleton_self _)).only (by decide)⟩

end ChaosFramework.Service
