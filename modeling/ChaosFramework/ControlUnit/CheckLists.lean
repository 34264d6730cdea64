import ChaosFramework.Service.SWEService
import ChaosFramework.Throwing

/-!
# The check lists of a control unit

`AbstractControlUnit` divides its initialization and its start into phases. Check lists say which
phases are to do and which are done: two for the remote calls `_init` and `_start`, and two for the
methods `init` and `start` of the service, which are phases of the former ones. The remote calls and
the error handlers scan them forwards to do what is to do, and backwards to undo what is done. A
phase is marked before its body is run, and the body of a phase, or of its undoing, may throw, which
ends the scan.

For the statements about the order, a unit also keeps the phases that have been executed and not
undone, the latest first, and whether every phase so far was undone as the latest one.
-/

namespace ChaosFramework.ControlUnit

open Service Throwing Function

inductive Phase
  | callInitState
  | initSharedCache
  | completeOutputAttribute
  | completeInputAttribute
  | initSystemCache
  | callUnitDefineAttribute
  | createFastAccessVector
  | callUnitInit
  | updateConfiguration
  | pushDataset
  | initDB
  | createDataStorage
  | unit
  | implementation
  | restoreOnFirstStart
  | statTimer
  deriving DecidableEq, Repr

/-- The check lists `"_init"`, `"init"`, `"_start"` and `"start"`. -/
inductive ListName
  | initRp
  | initSM
  | startRp
  | startSM
  deriving DecidableEq, Repr

/-- The phases that can be in a check list, in the order of their numbers. -/
def phases : ListName → List Phase
  | .initRp =>
      [.callInitState, .initSharedCache, .completeOutputAttribute, .completeInputAttribute,
        .initSystemCache, .callUnitDefineAttribute, .createFastAccessVector, .callUnitInit,
        .updateConfiguration, .pushDataset]
  | .initSM => [.initDB, .createDataStorage]
  | .startRp => [.unit, .implementation, .restoreOnFirstStart]
  | .startSM => [.statTimer]

inductive Deed
  | doing (p : Phase)
  | undoing (p : Phase)
  deriving DecidableEq, Repr

/-- What the environment decides for one call: what throws, and whether the configuration asks for
a restore on the first start. -/
structure Behaviour where
  throwing : List Deed
  restores : Bool
  deriving DecidableEq, Repr

def Behaviour.throws (e : Behaviour) (d : Deed) : Bool := decide (d ∈ e.throwing)

structure AbstractControlUnit where
  toDo : Phase → Bool
  done : Phase → Bool
  /-- The phases that have been executed and not undone, the latest first. -/
  executed : List Phase
  /-- Every phase that was undone was the latest one. -/
  ordered : Bool

namespace AbstractControlUnit

/-- A unit after its construction. -/
def construct : AbstractControlUnit where
  toDo p := decide (p ≠ .restoreOnFirstStart)
  done _ := false
  executed := []
  ordered := true

/-! ### Check lists -/

def addElement (p : Phase) (u : AbstractControlUnit) : AbstractControlUnit :=
  { u with toDo := update u.toDo p true }

/-- An element that is removed is not to be undone. -/
def removeElement (p : Phase) (u : AbstractControlUnit) : AbstractControlUnit :=
  { u with
    toDo := update u.toDo p false
    done := update u.done p false
    executed := u.executed.erase p }

def doneOnElement (p : Phase) (u : AbstractControlUnit) : AbstractControlUnit :=
  { u with
    toDo := update u.toDo p false
    done := update u.done p true }

def redoElement (p : Phase) (u : AbstractControlUnit) : AbstractControlUnit :=
  { u with
    toDo := update u.toDo p true
    done := update u.done p false }

def record (p : Phase) (u : AbstractControlUnit) : AbstractControlUnit :=
  { u with executed := p :: u.executed }

def takeBack (p : Phase) (u : AbstractControlUnit) : AbstractControlUnit :=
  { u with
    executed := u.executed.erase p
    ordered := u.ordered && decide (u.executed.head? = some p) }

/-- `CHAOS_CHECK_LIST_DONE` and the body of the case. -/
def perform (p : Phase) (body : Action AbstractControlUnit) : Action AbstractControlUnit := fun u =>
  body ((u.doneOnElement p).record p)

/-- `CHAOS_CHECK_LIST_REDO` and the body of the case. -/
def revert (p : Phase) (body : Action AbstractControlUnit) : Action AbstractControlUnit := fun u =>
  body (u.redoElement p)

/-- The scan of what is to do, over a copy of the list. -/
def scanToDo (name : ListName) (cases : Phase → Action AbstractControlUnit) :
    Action AbstractControlUnit := fun u =>
  Action.sequence (((phases name).filter u.toDo).map cases) u

/-- The scan of what is done, from behind. -/
def scanDone (name : ListName) (cases : Phase → Action AbstractControlUnit) :
    Action AbstractControlUnit := fun u =>
  Action.sequence (((phases name).reverse.filter u.done).map cases) u

/-! ### Doing -/

variable (e : Behaviour)

/-- The body of a phase that only may throw. -/
def act (p : Phase) : Action AbstractControlUnit := fun u => (u, !e.throws (.doing p))

def doInitSMCheckList : Action AbstractControlUnit := scanToDo .initSM fun p => perform p (act e p)

/-- The logging channels are fetched first. -/
def init : Action AbstractControlUnit := (act e .callInitState).andThen (doInitSMCheckList e)

def doInitRpCases : Phase → Action AbstractControlUnit
  | .callInitState => perform .callInitState (init e)
  | .updateConfiguration => perform .updateConfiguration
      ((act e .updateConfiguration).andThen
        (.always fun u => if e.restores then u.addElement .restoreOnFirstStart else u))
  | p => perform p (act e p)

def doInitRpCheckList : Action AbstractControlUnit := scanToDo .initRp (doInitRpCases e)

def doStartSMCheckList : Action AbstractControlUnit :=
  scanToDo .startSM fun p => perform p (act e p)

def start : Action AbstractControlUnit := doStartSMCheckList e

/-- The restore takes itself from the list, also when it throws. -/
def doStartRpCases : Phase → Action AbstractControlUnit
  | .implementation => perform .implementation (start e)
  | .restoreOnFirstStart => perform .restoreOnFirstStart fun u =>
      (u.removeElement .restoreOnFirstStart, !e.throws (.doing .restoreOnFirstStart))
  | p => perform p (act e p)

def doStartRpCheckList : Action AbstractControlUnit := scanToDo .startRp (doStartRpCases e)

/-! ### Undoing -/

/-- The undoing that calls something: the others have an empty body or cannot throw. -/
def undoThrows (p : Phase) : Bool :=
  match p with
  | .createDataStorage | .callUnitDefineAttribute | .callUnitInit | .unit | .statTimer =>
      e.throws (.undoing p)
  | _ => false

/-- The body of the undoing of a phase. The phase counts as taken back also when the body throws,
as it is marked so; the phases before it stay executed. -/
def undo (p : Phase) : Action AbstractControlUnit := fun u => (u.takeBack p, !undoThrows e p)

/-- `CHEK_IF_NEED_TO_THROW` around the undoing of a phase. -/
def redoCase (flag : Bool) (p : Phase) : Action AbstractControlUnit :=
  revert p (Action.rethrow flag (undo e p))

def redoInitSMCheckList (flag : Bool) : Action AbstractControlUnit :=
  scanDone .initSM (redoCase e flag)

/-- The release of the logging channels cannot throw. -/
def deinit : Action AbstractControlUnit := redoInitSMCheckList e true

def redoInitRpCases (flag : Bool) : Phase → Action AbstractControlUnit
  | .callInitState => revert .callInitState
      (Action.rethrow flag ((deinit e).andThen (.always (takeBack .callInitState))))
  | p => redoCase e flag p

def redoInitRpCheckList (flag : Bool) : Action AbstractControlUnit :=
  scanDone .initRp (redoInitRpCases e flag)

def redoStartSMCheckList (flag : Bool) : Action AbstractControlUnit :=
  scanDone .startSM (redoCase e flag)

def stop : Action AbstractControlUnit := redoStartSMCheckList e true

/-- There is no case for the restore. -/
def redoStartRpCases (flag : Bool) : Phase → Action AbstractControlUnit
  | .implementation => revert .implementation
      (Action.rethrow flag ((stop e).andThen (.always (takeBack .implementation))))
  | .unit => redoCase e flag .unit
  | _ => .always id

def redoStartRpCheckList (flag : Bool) : Action AbstractControlUnit :=
  scanDone .startRp (redoStartRpCases e flag)

/-! ### Errors -/

def fatalErrorFromState : Option CUStateKey → Action AbstractControlUnit
  -- `deinit` comes before the check list of which it is the last phase to be undone.
  | some .init => (deinit e).andThen (redoInitRpCheckList e false).caught
  | some .start =>
      Action.sequence [stop e, (redoStartRpCheckList e false).caught, deinit e,
        (redoInitRpCheckList e false).caught]
  -- A stopped unit has the phases of its initialization still, but nothing is undone.
  | _ => .always id

def handlers : Handlers AbstractControlUnit where
  recoverableErrorFromState _ u := ((stop e).caught u).1
  fatalErrorFromState last u := (fatalErrorFromState e last u).1
  beforeRecoverErrorFromState _ u := (((start e).caught u).1, some true)
  recoveredToState _ u := (u, true)

end AbstractControlUnit

/-! ### Remote calls -/

section

variable (e : Behaviour) (s : SWEService AbstractControlUnit)

/-- The second part of a remote call, behind the transition. What it throws is a fatal error. -/
def attempt (action : Action AbstractControlUnit) : SWEService AbstractControlUnit × Bool :=
  match action s.implementation with
  | (u, true) => ({ s with implementation := u }, true)
  | (u, false) =>
      (({ s with implementation := u }.goInFatalError (AbstractControlUnit.handlers e)).1, false)

def rpcInit : SWEService AbstractControlUnit × Bool :=
  if s.serviceState = .init then (s, true)
  -- A recoverable error has to be left by a recovery first.
  else if s.serviceState = .recoverableError then (s, false)
  else
    match s.initImplementation with
    | (t, true) => attempt e t (AbstractControlUnit.doInitRpCheckList e)
    | (t, false) => (t, false)

def rpcStart : SWEService AbstractControlUnit × Bool :=
  if s.serviceState = .start then (s, true)
  else if s.serviceState = .recoverableError then (s, false)
  else
    match s.startImplementation with
    | (t, true) => attempt e t (AbstractControlUnit.doStartRpCheckList e)
    | (t, false) => (t, false)

/-- The transition is possible from the recoverable error. -/
def rpcStop : SWEService AbstractControlUnit × Bool :=
  if s.serviceState = .stop then (s, true)
  else
    match s.stopImplementation with
    | (t, true) => attempt e t (AbstractControlUnit.redoStartRpCheckList e true)
    | (t, false) => (t, false)

/-- The transition is possible from the recoverable error. -/
def rpcDeinit : SWEService AbstractControlUnit × Bool :=
  if s.serviceState = .deinit then (s, true)
  else
    match s.deinitImplementation with
    | (t, true) => attempt e t (AbstractControlUnit.redoInitRpCheckList e true)
    | (t, false) => (t, false)

/-- The result of `recoverError` is not looked at. -/
def rpcRecover : SWEService AbstractControlUnit × Bool :=
  if s.serviceState ≠ .recoverableError then (s, false)
  else ((s.recoverError (AbstractControlUnit.handlers e)).1, true)

end

inductive CallKind
  | init
  | start
  | stop
  | deinit
  | recover
  /-- The unit reports an error while it runs. -/
  | recoverableError
  | fatalError
  deriving DecidableEq, Repr

structure Call where
  kind : CallKind
  behaviour : Behaviour
  deriving DecidableEq, Repr

def Call.run (c : Call) (s : SWEService AbstractControlUnit) :
    SWEService AbstractControlUnit × Bool :=
  match c.kind with
  | .init => rpcInit c.behaviour s
  | .start => rpcStart c.behaviour s
  | .stop => rpcStop c.behaviour s
  | .deinit => rpcDeinit c.behaviour s
  | .recover => rpcRecover c.behaviour s
  | .recoverableError => s.goInRecoverableError (AbstractControlUnit.handlers c.behaviour)
  | .fatalError => s.goInFatalError (AbstractControlUnit.handlers c.behaviour)

/-- A unit with the call that has returned last, if it has not thrown. -/
structure Observed where
  service : SWEService AbstractControlUnit
  returned : Option CallKind

namespace Observed

def init : Observed := ⟨.init .construct, none⟩

def step (s : Observed) (c : Call) : Option Observed :=
  let answer := c.run s.service
  some ⟨answer.1, if answer.2 then some c.kind else none⟩

end Observed

end ChaosFramework.ControlUnit
