import Mathlib.Logic.Function.Iterate
import ChaosFramework.Throwing
import ChaosFramework.Transition

/-!
# The life of a work unit

An iteration of the manager's thread makes a `WorkUnitManagement` for each unit in the queue, puts
it in the map of the registering units, and makes steps in the state machines of this map; units
that are stable leave the map, those that are published for the map of the registered units. To
unload a unit puts it back among the registering ones.

The operations are taken one after the other. What the hooks of the units do is part of the label.
Steps of state machines may throw, and what they have changed before stays.

The fields `driversCalled`, `completed` and `undefined` of `WorkUnitManagement` and `submitted`,
`rejected` and `discarded` of the manager are not in the source and say what has happened to the
units.
-/

namespace ChaosFramework.WorkUnits

open Throwing Throwing.Action Function

/-! ### The state machine -/

inductive UnitState
  | unpublished
  | startPublishing
  | publishing
  | published
  | startUnpublishing
  | unpublishing
  | publishingFailure
  deriving DecidableEq, Repr

inductive UnitEvent
  | publish
  | publishing
  | published
  | unpublish
  | unpublishing
  | unpublished
  | failure
  | reset
  deriving DecidableEq, Repr

/-- The transition table of `wu_state_machine`. -/
def processEvent : UnitState → UnitEvent → Option UnitState
  | .unpublished, .publish => some .startPublishing
  | .startPublishing, .publishing => some .publishing
  | .publishing, .published => some .published
  | .published, .unpublish => some .startUnpublishing
  | .startUnpublishing, .unpublishing => some .unpublishing
  | .unpublishing, .unpublished => some .unpublished
  | .publishing, .failure => some .publishingFailure
  | .startPublishing, .failure => some .publishingFailure
  | .publishingFailure, .reset => some .unpublished
  | _, _ => none

/-! ### Units -/

/-- An instance of a control unit. Two instances may have the same identifier. -/
structure WorkUnit where
  number : ℕ
  id : String
  /-- The instances that declare actions. -/
  actions : ℕ
  /-- The startup commands. -/
  commands : ℕ
  deriving DecidableEq, Repr

/-- The calls that a step in the state machine makes. -/
inductive Hook
  | initDrivers
  | defineActionAndDataset
  | registerAction (i : ℕ)
  | submitCommand (i : ℕ)
  | deregisterAction (i : ℕ)
  | stop
  | deinit
  | undefineActionAndDataset
  deriving DecidableEq, Repr

inductive Outcome
  | returns
  /-- A `CException`. -/
  | throws
  /-- Anything else. -/
  | throwsOther
  deriving DecidableEq, Repr

/-- What the environment decides for one step. -/
structure Behaviour where
  outcome : Hook → Outcome
  /-- The unit is started when it is to be unpublished. -/
  running : Bool
  /-- The unit is initialized or stopped when it is to be deinitialized. -/
  initialized : Bool

structure WorkUnitManagement where
  unit : WorkUnit
  state : UnitState
  active : Bool
  publishingCounterDelay : ℕ
  /-- How often the registration has been sent. -/
  sent : ℕ
  /-- `_initDrivers` has been called. -/
  driversCalled : Bool
  /-- The step in the state `published` has come to its end. -/
  completed : Bool
  /-- `_undefineActionAndDataset` has returned. -/
  undefined : Bool
  deriving DecidableEq, Repr

namespace WorkUnitManagement

def construct (unit : WorkUnit) : WorkUnitManagement :=
  ⟨unit, .unpublished, true, 0, 0, false, false, false⟩

/-- `SWITCH_SM_TO` -/
def switchTo (event : UnitEvent) : Action WorkUnitManagement := fun w =>
  match processEvent w.state event with
  | some state => ({ w with state }, true)
  | none => (w, false)

def turnOn : Action WorkUnitManagement := switchTo .publish

def turnOFF : Action WorkUnitManagement := switchTo .unpublish

def call (b : Behaviour) (hook : Hook) : Action WorkUnitManagement := fun w =>
  (w, b.outcome hook = .returns)

/-- A `CException` is logged. -/
def callLogged (b : Behaviour) (hook : Hook) : Action WorkUnitManagement := fun w =>
  (w, b.outcome hook ≠ .throwsOther)

def undefine (b : Behaviour) : Action WorkUnitManagement := fun w =>
  callLogged b .undefineActionAndDataset
    { w with undefined := w.undefined || b.outcome .undefineActionAndDataset = .returns }

def setup (b : Behaviour) : Action WorkUnitManagement :=
  sequence [always fun w => { w with driversCalled := true }, call b .initDrivers,
    call b .defineActionAndDataset]

/-- Behind the handler, too, the machine is switched to `publishing`, which then throws. -/
def startPublishing (b : Behaviour) : Action WorkUnitManagement :=
  sequence [always fun w => { w with active := true, publishingCounterDelay := 0 },
    (setup b).orElse (switchTo .failure), switchTo .publishing]

def publish : Action WorkUnitManagement :=
  always fun w => { w with
    sent := if w.publishingCounterDelay % 10 = 0 then w.sent + 1 else w.sent
    publishingCounterDelay := w.publishingCounterDelay + 1 }

/-- The calls of the step in the state `published`. -/
def registrations (u : WorkUnit) : List Hook :=
  (List.range u.actions).map .registerAction ++ (List.range u.commands).map .submitCommand

/-- The machine is not active any more before the first call is made. -/
def completePublishing (b : Behaviour) : Action WorkUnitManagement := fun w =>
  sequence [always fun w => { w with active := false },
    sequence ((registrations w.unit).map (call b)),
    always fun w => { w with completed := true }] w

def startUnpublishing (b : Behaviour) : Action WorkUnitManagement := fun w =>
  sequence [always fun w => { w with active := true },
    sequence ((List.range w.unit.actions).map fun i => call b (.deregisterAction i)),
    switchTo .unpublishing] w

def unpublish (b : Behaviour) : Action WorkUnitManagement :=
  sequence [if b.running then callLogged b .stop else always id,
    if b.initialized then callLogged b .deinit else always id,
    undefine b, switchTo .unpublished]

def scheduleSM (b : Behaviour) : Action WorkUnitManagement := fun w =>
  match w.state with
  | .unpublished => ({ w with active := false }, true)
  | .startPublishing => startPublishing b w
  | .publishing => publish w
  | .published => completePublishing b w
  -- From here on the way leads back to `unpublished`.
  | .startUnpublishing => startUnpublishing b w
  | .publishingFailure => ({ w with active := false }, true)
  | .unpublishing => unpublish b w

def smNeedToSchedule (w : WorkUnitManagement) : Bool :=
  w.active || (w.state ≠ .published && w.state ≠ .unpublished && w.state ≠ .publishingFailure)

/-- `EC_MDS_NODE_REGISTRATION_OK` -/
def registrationOk : Int := 500

/-- All the other results are failures. -/
def manageACKPack (id : String) (result : Option Int) : Action WorkUnitManagement := fun w =>
  if id ≠ w.unit.id then (w, false)
  else
    -- Without a result there is an error.
    match result with
    | some value => if value = registrationOk then switchTo .published w else switchTo .failure w
    | none => (w, false)

end WorkUnitManagement

open WorkUnitManagement

/-! ### The manager -/

/-- The maps are given by what they have for an identifier. -/
structure ControlManager where
  queue : List WorkUnit
  registering : String → Option WorkUnitManagement
  registered : String → Option WorkUnitManagement
  submitted : List WorkUnit
  /-- The duplicates. -/
  rejected : List WorkUnit
  discarded : String → List WorkUnitManagement

namespace ControlManager

def initial : ControlManager := ⟨[], fun _ => none, fun _ => none, [], [], fun _ => []⟩

/-- `std::map::insert` leaves an element that is there as it is. -/
def insertNew (map : String → Option WorkUnitManagement) (id : String) (w : WorkUnitManagement) :
    String → Option WorkUnitManagement :=
  update map id ((map id).or (some w))

def submitControlUnit (id : String) (actions commands : ℕ) (s : ControlManager) : ControlManager :=
  let unit : WorkUnit := ⟨s.submitted.length, id, actions, commands⟩
  { s with queue := s.queue ++ [unit], submitted := s.submitted ++ [unit] }

/-- The first unit of the queue gets a manager, unless its identifier is in use. -/
def takeSubmitted (b : String → Behaviour) (s : ControlManager) : ControlManager :=
  match s.queue with
  | [] => s
  | u :: rest =>
      let w := ((scheduleSM (b u.id)).andThen turnOn (construct u)).1
      -- A duplicate is dropped with its manager.
      if (s.registering u.id).isSome || (s.registered u.id).isSome then
        { s with queue := rest, rejected := u :: s.rejected }
      else { s with queue := rest, registering := insertNew s.registering u.id w }

def makeSMSteps (b : String → Behaviour) (s : ControlManager) : ControlManager :=
  { s with
    registering := fun id => (s.registering id).map fun w =>
      if w.smNeedToSchedule then (scheduleSM (b id) w).1 else w }

/-- Units that are not to be scheduled any more are erased. The published ones go to the registered
units, the others are gone. -/
def migrateStableAndUnstableSMCUInstance (s : ControlManager) : ControlManager :=
  { s with
    registering := fun id => (s.registering id).filter smNeedToSchedule
    registered := fun id =>
      match s.registering id with
      | some w => if w.smNeedToSchedule = false ∧ w.state = .published then
          (s.registered id).or (some w) else s.registered id
      | none => s.registered id
    discarded := fun id =>
      match s.registering id with
      | some w => if w.smNeedToSchedule = false ∧ w.state ≠ .published then
          w :: s.discarded id else s.discarded id
      | none => s.discarded id }

/-- An iteration. Without registering units the last two do nothing. -/
def manageControlUnit (b : String → Behaviour) (s : ControlManager) : ControlManager :=
  migrateStableAndUnstableSMCUInstance (makeSMSteps b ((takeSubmitted b)^[s.queue.length] s))

/-- The manager of the unit is in both maps when it is turned off. -/
def unloadControlUnit (id : String) : Action ControlManager := fun s =>
  match s.registered id with
  | none => (s, false)
  | some w =>
      match turnOFF w with
      | (w, true) => ({ s with
          registering := insertNew s.registering id w
          registered := update s.registered id none }, true)
      -- The exception leaves the unit in both maps.
      | (w, false) => ({ s with
          registering := insertNew s.registering id w
          registered := update s.registered id (some w) }, false)

def workUnitRegistrationACK (id : String) (result : Option Int) : Action ControlManager := fun s =>
  match s.registering id with
  | none => (s, false)
  | some w =>
      let (w, returns) := manageACKPack id result w
      ({ s with registering := update s.registering id (some w) }, returns)

end ControlManager

inductive Label
  | submit (id : String) (actions commands : ℕ)
  | unload (id : String)
  | ack (id : String) (result : Option Int)
  | iterate (b : String → Behaviour)

/-- One operation. All of them are always possible, and what they throw goes to the caller. -/
def step (s : ControlManager) : Label → Option ControlManager
  | .submit id actions commands => some (s.submitControlUnit id actions commands)
  | .unload id => some (s.unloadControlUnit id).1
  | .ack id result => some (s.workUnitRegistrationACK id result).1
  | .iterate b => some (s.manageControlUnit b)

end ChaosFramework.WorkUnits
