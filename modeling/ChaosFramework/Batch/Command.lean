import Mathlib.Tactic.IntervalCases

/-!
# Batch commands

The data model shared by the two sandboxes: the command object with its running property, the events
a sandbox reports about it, and the parts of the command class that the sandboxes call. User code
(`setHandler`, `acquireHandler`, `ccHandler`, `timeoutHandler`, `endHandler`) is an input: an
outcome says which running property the call left behind and whether it raised. Fixed-width fields
are natural numbers, reduced where the source narrows a value.
-/

namespace ChaosFramework.Batch

/-- `BatchCommandEventType`, in the order of the source. -/
inductive BatchCommandEventType
  | queued | waiting | running | paused | completed | fault | killed | fatalFault | dequeue
  deriving DecidableEq, Repr

/-! ### Running property, submission rule and handler masks -/

namespace RunningPropertyType

/-- The command cannot be killed or removed. -/
@[simp] def rpExsc : Nat := 0
/-- The command can be paused or killed. -/
@[simp] def rpNormal : Nat := 1
/-- The command has ended its work. -/
@[simp] def rpEnd : Nat := 2
/-- The command has had a fault. -/
@[simp] def rpFault : Nat := 3
/-- The command has had a fatal fault. -/
@[simp] def rpFatalFault : Nat := 4

end RunningPropertyType

namespace SubmissionRuleType

@[simp] def submitAndStack : Nat := 0
@[simp] def submitAndKill : Nat := 1
@[simp] def submitNormal : Nat := 2

end SubmissionRuleType

namespace HandlerType

def htSet : Nat := 1
def htAcquisition : Nat := 2
def htCorrelation : Nat := 4

end HandlerType

open RunningPropertyType HandlerType

/-- The description of a fault, filled before a command is put in a fault state. -/
structure FaultDescription where
  code : Int
  description : String
  domain : String
  deriving DecidableEq, Repr

/-- `features::Features`. -/
structure Features where
  featuresFlag : Nat
  featureSchedulerStepsDelay : Nat
  featureSubmissionRetryDelay : Nat
  featureCommandTimeout : Nat
  deriving DecidableEq, Repr

namespace FeaturesFlagTypes

def ffSetSchedulerDelay : Nat := 1
def ffSetSubmissionRetry : Nat := 2
def ffSetCommandTimeout : Nat := 4

end FeaturesFlagTypes

open FeaturesFlagTypes

/-- The command object. `implementedHandler` is the mask its class reports. -/
structure BatchCommand where
  sticky : Bool
  uniqueId : Nat
  commandAlias : String
  alreadySetupped : Bool
  implementedHandler : Nat
  runningProperty : Nat
  submissionRule : Nat
  commandFeatures : Features
  commandSetTimeUsec : Nat
  faultDescription : FaultDescription
  deriving DecidableEq, Repr

/-- What a handler may raise, in the order in which the sandboxes catch it.
`CFatalException` derives from `CException`, which derives from `std::exception`. -/
inductive HandlerException
  | cFatalException (errorCode : Int) (errorMessage errorDomain : String)
  | cException (errorCode : Int) (errorMessage errorDomain : String)
  | stdException (what : String)
  | unmanaged
  deriving DecidableEq, Repr

/-- What one call of a user handler does to its command: the argument of its last
`setRunningProperty` call, the features it leaves, and what it raises. -/
structure HandlerOutcome where
  property : Option Nat
  features : Option Features
  raised : Option HandlerException
  deriving DecidableEq, Repr

/-- The property that the catch clauses give to a command for an exception. -/
def HandlerException.faultProperty : HandlerException → Nat
  | .cException .. => rpFault
  | _ => rpFatalFault

/-- Every running property that the call can leave behind, by itself or through the
catch clauses around it, satisfies `Q`. -/
def HandlerOutcome.Leaves (outcome : HandlerOutcome) (Q : Nat → Prop) : Prop :=
  (∀ property ∈ outcome.property, Q (property % 256)) ∧
    ∀ raised ∈ outcome.raised, Q raised.faultProperty

instance (outcome : HandlerOutcome) (Q : Nat → Prop) [DecidablePred Q] :
    Decidable (outcome.Leaves Q) :=
  inferInstanceAs (Decidable (_ ∧ _))

/-- A handler that returns and changes nothing. -/
def HandlerOutcome.silent : HandlerOutcome := ⟨none, none, none⟩

/-- A `timeoutHandler` call also answers whether the timeout is a fault. -/
structure TimeoutOutcome extends HandlerOutcome where
  isFault : Bool
  deriving DecidableEq, Repr

/-- A timeout handler that reports no fault and changes nothing. -/
def TimeoutOutcome.silent : TimeoutOutcome := ⟨.silent, false⟩

namespace BatchCommand

/-- The bit test `implementedHandler() & handler`. -/
def implements (c : BatchCommand) (handler : Nat) : Bool :=
  c.implementedHandler &&& handler != 0

/-- The argument is a `uint8_t`. Bit 1 of `lockFeaturePropertyFlag`, which would make
the call fail, is set nowhere in the sources. -/
def setRunningProperty (c : BatchCommand) (property : Nat) : BatchCommand :=
  { c with runningProperty := property % 256 }

/-- `SET_NAMED_FAULT` and `SET_FAULT`. -/
def setNamedFault (c : BatchCommand) (fault : FaultDescription) (property : Nat) :
    BatchCommand :=
  { c.setRunningProperty property with faultDescription := fault }

/-- Effect of the body of a user handler on its command. -/
def callHandler (c : BatchCommand) (outcome : HandlerOutcome) : BatchCommand :=
  let c := match outcome.property with
    | some property => c.setRunningProperty property
    | none => c
  { c with commandFeatures := outcome.features.getD c.commandFeatures }

/-- The four `catch` clauses around a handler call. They differ between the call sites
only in the domain reported for foreign exceptions. -/
def catchException (c : BatchCommand) (domain : String) : HandlerException → BatchCommand
  | .cFatalException errorCode errorMessage errorDomain =>
      c.setNamedFault ⟨errorCode, errorMessage, errorDomain⟩ rpFatalFault
  | .cException errorCode errorMessage errorDomain =>
      c.setNamedFault ⟨errorCode, errorMessage, errorDomain⟩ rpFault
  | .stdException what => c.setNamedFault ⟨-1, what, domain⟩ rpFatalFault
  | .unmanaged => c.setNamedFault ⟨-2, "Unmanaged exception", domain⟩ rpFatalFault

/-- A handler call inside its `try` block. -/
def tryHandler (c : BatchCommand) (domain : String) (outcome : HandlerOutcome) :
    BatchCommand :=
  match outcome.raised with
  | none => c.callHandler outcome
  | some raised => (c.callHandler outcome).catchException domain raised

/-- `AcquireFunctor::operator()` on a non-null instance. -/
def acquireFunctor (c : BatchCommand) (outcome : HandlerOutcome) : BatchCommand :=
  if c.runningProperty < rpEnd then
    c.tryHandler ("Acquisition Handler:" ++ c.commandAlias) outcome
  else c

/-- `CorrelationFunctor::operator()` on a non-null instance. -/
def correlationFunctor (c : BatchCommand) (outcome : HandlerOutcome) : BatchCommand :=
  if c.runningProperty < rpEnd then c.tryHandler "Correlation Handler" outcome else c

/-- The base class only records the time. -/
def startHandler (c : BatchCommand) (now : Nat) : BatchCommand :=
  { c with commandSetTimeUsec := now }

/-- The set phase of `installHandler`: a handler that raises leaves `already_setupped`
false. -/
def setUp (c : BatchCommand) (now : Nat) (outcome : HandlerOutcome) : BatchCommand :=
  if !c.alreadySetupped && c.implements htSet then
    match outcome.raised with
    | none => { (c.startHandler now).callHandler outcome with alreadySetupped := true }
    | some raised =>
        ((c.startHandler now).callHandler outcome).catchException "Acquisition Handler" raised
  else c

/-- The test of `commandPost`: the offset is an `int64_t` compared with a `uint64_t`,
so a negative offset counts as a large one. -/
def timedOut (c : BatchCommand) (stepStart : Nat) : Bool :=
  c.commandFeatures.featuresFlag &&& ffSetCommandTimeout != 0 &&
    decide ((c.commandFeatures.featureCommandTimeout : Int) ≤
      ((stepStart : Int) - c.commandSetTimeUsec) % 2 ^ 64)

/-- The command after a timeout handler call; every fault here is a plain fault. -/
def handleTimeout (c : BatchCommand) (outcome : TimeoutOutcome) : BatchCommand :=
  let called := c.callHandler outcome.toHandlerOutcome
  match outcome.raised with
  | none =>
      if outcome.isFault then
        called.setNamedFault ⟨-1, "Command timeout", "commandPost"⟩ rpFault
      else called
  | some (.cFatalException errorCode errorMessage errorDomain)
  | some (.cException errorCode errorMessage errorDomain) =>
      called.setNamedFault ⟨errorCode, errorMessage, errorDomain⟩ rpFault
  | some (.stdException what) =>
      called.setNamedFault ⟨-2, what, "Acquisition Handler"⟩ rpFault
  | some .unmanaged =>
      called.setNamedFault ⟨-3, "Unmanaged exception", "Acquisition Handler"⟩ rpFault

/-- `commandPost`, called after every step whatever the running property is. -/
def commandPost (c : BatchCommand) (stepStart : Nat) (outcome : TimeoutOutcome) :
    BatchCommand :=
  if c.timedOut stepStart then c.handleTimeout outcome else c

/-! ### What user code cannot change -/

/-- The fields that are fixed once the command has been submitted. -/
structure FixedPart where
  sticky : Bool
  uniqueId : Nat
  commandAlias : String
  implementedHandler : Nat
  submissionRule : Nat
  deriving DecidableEq

/-- The fixed fields of a command. -/
def fixedPart (c : BatchCommand) : FixedPart :=
  ⟨c.sticky, c.uniqueId, c.commandAlias, c.implementedHandler, c.submissionRule⟩

variable {c d : BatchCommand}

section

variable (he : c.fixedPart = d.fixedPart)

include he

theorem sticky_of_fixedPart : c.sticky = d.sticky :=
  congrArg FixedPart.sticky he

theorem submissionRule_of_fixedPart : c.submissionRule = d.submissionRule :=
  congrArg FixedPart.submissionRule he

theorem implements_of_fixedPart (handler : Nat) : c.implements handler = d.implements handler := by
  have mask : c.implementedHandler = d.implementedHandler :=
    congrArg FixedPart.implementedHandler he
  rw [implements, implements, mask]

end

/-- `d` is `c` after calls of user code and the catch clauses around them. -/
def Handled (c d : BatchCommand) : Prop :=
  ∃ property features fault, d = { c with
    runningProperty := property, commandFeatures := features, faultDescription := fault }

theorem Handled.trans {e : BatchCommand} : Handled c d → Handled d e → Handled c e := by
  rintro ⟨_, _, _, rfl⟩ ⟨property, feat, fault, rfl⟩
  exact ⟨property, feat, fault, rfl⟩

theorem Handled.fixedPart : Handled c d → d.fixedPart = c.fixedPart := by
  rintro ⟨_, _, _, rfl⟩
  rfl

theorem handled_self : Handled c c := ⟨_, _, _, rfl⟩

theorem callHandler_handled (out : HandlerOutcome) : Handled c (c.callHandler out) := by
  unfold callHandler
  cases out.property <;> exact ⟨_, _, _, rfl⟩

theorem catchException_handled (dom : String) (raised : HandlerException) :
    Handled c (c.catchException dom raised) := by
  cases raised <;> exact ⟨_, _, _, rfl⟩

theorem tryHandler_handled (dom : String) (out : HandlerOutcome) :
    Handled c (c.tryHandler dom out) := by
  unfold tryHandler
  cases out.raised with
  | none => exact callHandler_handled out
  | some raised => exact (callHandler_handled out).trans (catchException_handled dom raised)

theorem acquireFunctor_handled (out : HandlerOutcome) : Handled c (c.acquireFunctor out) := by
  unfold acquireFunctor
  split
  · exact tryHandler_handled _ out
  · exact handled_self

theorem correlationFunctor_handled (out : HandlerOutcome) :
    Handled c (c.correlationFunctor out) := by
  unfold correlationFunctor
  split
  · exact tryHandler_handled _ out
  · exact handled_self

theorem commandPost_handled (begun : Nat) (out : TimeoutOutcome) :
    Handled c (c.commandPost begun out) := by
  have called : Handled c (c.callHandler out.toHandlerOutcome) := callHandler_handled _
  unfold commandPost handleTimeout
  split
  · rcases out.raised with _ | (_ | _ | _ | _) <;> dsimp only
    · split
      · exact called.trans ⟨_, _, _, rfl⟩
      · exact called
    all_goals exact called.trans ⟨_, _, _, rfl⟩
  · exact handled_self

@[simp] theorem setRunningProperty_fixedPart (property : Nat) :
    (c.setRunningProperty property).fixedPart = c.fixedPart := rfl

@[simp] theorem callHandler_fixedPart (out : HandlerOutcome) :
    (c.callHandler out).fixedPart = c.fixedPart := (callHandler_handled out).fixedPart

@[simp] theorem acquireFunctor_fixedPart (out : HandlerOutcome) :
    (c.acquireFunctor out).fixedPart = c.fixedPart := (acquireFunctor_handled out).fixedPart

@[simp] theorem correlationFunctor_fixedPart (out : HandlerOutcome) :
    (c.correlationFunctor out).fixedPart = c.fixedPart :=
  (correlationFunctor_handled out).fixedPart

@[simp] theorem commandPost_fixedPart (begun : Nat) (out : TimeoutOutcome) :
    (c.commandPost begun out).fixedPart = c.fixedPart :=
  (commandPost_handled begun out).fixedPart

/-- The set phase leaves the command alone or records the time and calls the handler; without an
exception it is not entered again. -/
theorem setUp_handled (now : Nat) (out : HandlerOutcome) :
    Handled (if !c.alreadySetupped && c.implements htSet then
      { c.startHandler now with alreadySetupped := out.raised.isNone } else c)
      (c.setUp now out) := by
  have hc := callHandler_handled (c := c.startHandler now) out
  unfold setUp
  split
  next enters =>
    cases out.raised with
    | none =>
      obtain ⟨property, feat, fault, result⟩ := hc
      exact ⟨property, feat, fault, by simp [result]⟩
    | some raised =>
      have flag : c.alreadySetupped = false := by simp_all
      obtain ⟨property, feat, fault, result⟩ :=
        hc.trans (catchException_handled "Acquisition Handler" raised)
      refine ⟨property, feat, fault, result.trans ?_⟩
      simp [startHandler, flag]
  next => exact handled_self

@[simp] theorem setUp_fixedPart (now : Nat) (out : HandlerOutcome) :
    (c.setUp now out).fixedPart = c.fixedPart := by
  have kept := (setUp_handled (c := c) now out).fixedPart
  split at kept <;> exact kept

/-- A class that implements at most the set handler has neither of the other two. -/
theorem not_implements_of_mask_le_one (small : c.implementedHandler ≤ 1) :
    c.implements htAcquisition = false ∧ c.implements htCorrelation = false := by
  unfold implements htAcquisition htCorrelation
  interval_cases c.implementedHandler <;> decide

/-! ### What user code leaves in the running property

`Q` stands for a set of property values. An operation that only writes values of `Q`
keeps a command inside `Q`. -/

section Leaves

variable {Q : Nat → Prop} {out : HandlerOutcome} {dom : String}

theorem callHandler_leaves (hl : out.Leaves Q)
    (hb : Q c.runningProperty) : Q (c.callHandler out).runningProperty := by
  unfold callHandler
  cases hw : out.property with
  | none => exact hb
  | some property => exact hl.1 property hw

theorem catchException_leaves {raised : HandlerException}
    (hl : Q raised.faultProperty) : Q (c.catchException dom raised).runningProperty := by
  cases raised <;> exact hl

section

variable (hl : out.Leaves Q) (hb : Q c.runningProperty)

include hl hb

theorem tryHandler_leaves : Q (c.tryHandler dom out).runningProperty := by
  unfold tryHandler
  cases ht : out.raised with
  | none => exact callHandler_leaves hl hb
  | some raised => exact catchException_leaves (hl.2 raised ht)

theorem acquireFunctor_leaves : Q (c.acquireFunctor out).runningProperty := by
  unfold acquireFunctor
  split
  · exact tryHandler_leaves hl hb
  · exact hb

theorem correlationFunctor_leaves : Q (c.correlationFunctor out).runningProperty := by
  unfold correlationFunctor
  split
  · exact tryHandler_leaves hl hb
  · exact hb

theorem setUp_leaves {now : Nat} : Q (c.setUp now out).runningProperty := by
  have hc : Q ((c.startHandler now).callHandler out).runningProperty :=
    callHandler_leaves hl hb
  unfold setUp
  split
  · cases ht : out.raised with
    | none => exact hc
    | some raised => exact catchException_leaves (hl.2 raised ht)
  · exact hb

end

/-- Whatever a timeout handler raises becomes a plain fault, so only the values it writes
itself matter. -/
theorem commandPost_leaves {begun : Nat} {out : TimeoutOutcome}
    (writes : ∀ property ∈ out.property, Q (property % 256)) (fault : Q rpFault)
    (hb : Q c.runningProperty) : Q (c.commandPost begun out).runningProperty := by
  have called : Q (c.callHandler out.toHandlerOutcome).runningProperty := by
    unfold callHandler
    cases hw : out.property with
    | none => exact hb
    | some property => exact writes property hw
  unfold commandPost handleTimeout
  split
  · rcases out.raised with _ | (_ | _ | _ | _) <;> dsimp only
    · split
      · exact fault
      · exact called
    all_goals exact fault
  · exact hb

end Leaves

end BatchCommand

/-- What a command description instantiates: the alias, the mask of the class and the
features its constructor leaves. -/
structure CommandClass where
  commandAlias : String
  implementedHandler : Nat
  features : Features
  deriving DecidableEq, Repr

/-- `instanceCommandInfo`: the `uint32_t` submission rule is stored in a `uint8_t`, no
value of it is refused. The identifier is given later, by `addCommandID`. -/
def instanceCommandInfo (description : CommandClass)
    (submissionRule submissionRetryDelay schedulerStepDelay : Nat) : BatchCommand where
  sticky := false
  uniqueId := 0
  commandAlias := description.commandAlias
  alreadySetupped := false
  implementedHandler := description.implementedHandler
  runningProperty := rpNormal
  submissionRule := submissionRule % 256
  commandFeatures :=
    { description.features with
      featuresFlag :=
        description.features.featuresFlag ||| ffSetSchedulerDelay ||| ffSetSubmissionRetry
      featureSchedulerStepsDelay := schedulerStepDelay
      featureSubmissionRetryDelay := submissionRetryDelay }
  commandSetTimeUsec := 0
  faultDescription := ⟨0, "", ""⟩

/-! ### References and events -/

/-- A reference to a command object: the number that `addCommandID` has given it. -/
abbrev CommandRef := Nat

/-- `BatchCommandStat`. -/
structure BatchCommandStat where
  queuedCommands : Nat
  stackedCommands : Nat
  deriving DecidableEq, Repr

/-- One call of `handleCommandEvent`. The fault is the content of
`command_and_fault` when the emitter has filled it. -/
structure CommandEvent where
  command : CommandRef
  type : BatchCommandEventType
  commandAndFault : Option FaultDescription
  commandsStats : BatchCommandStat
  deriving DecidableEq, Repr

/-- The types of the events reported for a command, oldest first. -/
def historyOf (events : List CommandEvent) (c : CommandRef) : List BatchCommandEventType :=
  (events.filter fun event => event.command = c).map (·.type)

@[simp] theorem historyOf_nil (c : CommandRef) : historyOf [] c = [] := rfl

@[simp] theorem historyOf_append (evs more : List CommandEvent) (c : CommandRef) :
    historyOf (evs ++ more) c = historyOf evs c ++ historyOf more c := by
  simp [historyOf]

@[simp] theorem historyOf_cons (ev : CommandEvent) (evs : List CommandEvent)
    (c : CommandRef) : historyOf (ev :: evs) c =
      (if ev.command = c then [ev.type] else []) ++ historyOf evs c := by
  by_cases he : ev.command = c <;> simp [historyOf, he]

end ChaosFramework.Batch
