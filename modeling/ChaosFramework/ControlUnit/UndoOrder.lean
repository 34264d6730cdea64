import ChaosFramework.ControlUnit.CheckLists

/-!
# The order in which the phases of a control unit are undone

`_init` and `_start` should have executed all their phases when they return; phases should be undone
once, in the reverse order; and none should be left when the unit is in `DEINIT` or in
`FATAL_ERROR`. The life cycle keeps to this as long as (`Careful`)

* nothing throws, except for the phases inside of `init` in `_init`, before anything else is done;
* there is no fatal error in `INIT`, `START` or `STOP`: its handler releases the data storage before
  the unit is deinitialized, and undoes nothing in `STOP`;
* the unit is not deinitialized in a recoverable error that occurred while it was started;
* only such an error is recovered: the recovery starts the timer in any case.
-/

namespace ChaosFramework.ControlUnit

open Service Throwing Transition AbstractControlUnit List Option Phase
open Throwing.Action (andThen_of_returns sequence_singleton always sequence_append)

/-! ### The property -/

/-- What is left of `_start` behind it: the restore takes itself from the list. -/
def startPhases : List Phase := [.unit, .implementation, .statTimer]

structure Observed.Regular (s : Observed) : Prop where
  initialized : s.returned = some .init →
    ∀ p ∈ phases .initRp ++ phases .initSM, p ∈ s.service.implementation.executed
  started : s.returned = some .start →
    ∀ p ∈ startPhases, p ∈ s.service.implementation.executed
  ordered : s.service.implementation.ordered = true
  released : s.service.serviceState = .deinit ∨ s.service.serviceState = .fatalError →
    s.service.implementation.executed = []

/-- The phases of `init`. -/
def insideInit : List Deed := [.doing .callInitState, .doing .initDB, .doing .createDataStorage]

/-- The condition on a call. -/
def Careful (s : Observed) (c : Call) : Prop :=
  match c.kind with
  | .init => ∀ d ∈ c.behaviour.throwing, d ∈ insideInit
  | .start => c.behaviour.throwing = []
  | .stop => c.behaviour.throwing = []
  | .deinit => c.behaviour.throwing = [] ∧
      (s.service.serviceState = .recoverableError → s.service.lastState ≠ some .start)
  | .recover => s.service.serviceState = .recoverableError → s.service.lastState = some .start
  | .recoverableError => True
  | .fatalError => s.service.serviceState ∉ [CUStateKey.init, .start, .stop]

instance decidableCareful (s : Observed) (c : Call) : Decidable (Careful s c) := by
  unfold Careful
  split <;> infer_instance

/-! ### Units in order -/

/-- A unit with the phases that are done and those that have been executed. They differ only while a
phase is undone. -/
def unitOf (done executed : List Phase) (restore : Bool) : AbstractControlUnit where
  toDo p := if p = .restoreOnFirstStart then restore else !decide (p ∈ done)
  done p := decide (p ∈ done)
  executed
  ordered := true

/-- A unit while nothing is undone. -/
abbrev settled (executed : List Phase) (restore : Bool) : AbstractControlUnit :=
  unitOf executed executed restore

section Phases

variable {p : Phase} {done executed base ps inside : List Phase} {rst : Bool} {e : Behaviour}
  {cases : Phase → Action AbstractControlUnit}

theorem eq_unitOf {u : AbstractControlUnit}
    (toDo : ∀ q, u.toDo q = (unitOf done executed rst).toDo q)
    (isDone : ∀ q, u.done q = decide (q ∈ done)) (same : u.executed = executed)
    (ordered : u.ordered = true) : u = unitOf done executed rst := by
  obtain ⟨_, _, _, _⟩ := u
  cases same
  cases ordered
  rw [AbstractControlUnit.mk.injEq]
  exact ⟨funext toDo, funext isDone, rfl, rfl⟩

theorem record_doneOnElement (p : Phase) (other : p ≠ .restoreOnFirstStart) :
    ((unitOf done executed rst).doneOnElement p).record p =
      unitOf (p :: done) (p :: executed) rst := by
  refine eq_unitOf (fun q => ?_) (fun q => ?_) rfl rfl <;> by_cases same : q = p <;>
    simp [doneOnElement, record, unitOf, same, other]

theorem redoElement_unitOf (p : Phase) {rest : List Phase} (other : p ≠ .restoreOnFirstStart)
    (same : ∀ q, q ∈ done ↔ q = p ∨ q ∈ rest) (once : p ∉ rest) :
    (unitOf done executed rst).redoElement p = unitOf rest executed rst := by
  refine eq_unitOf (fun q => ?_) (fun q => ?_) rfl rfl <;> by_cases hp : q = p <;>
    simp [redoElement, unitOf, hp, other, once, same]

theorem takeBack_unitOf :
    (unitOf done (p :: executed) rst).takeBack p = unitOf done executed rst := by
  simp [takeBack, unitOf]

/-- A phase without phases in it. -/
theorem perform_act (e : Behaviour) (p : Phase) (other : p ≠ .restoreOnFirstStart)
    (done executed : List Phase) (rst : Bool) :
    perform p (act e p) (unitOf done executed rst) =
      (unitOf (p :: done) (p :: executed) rst, !e.throws (.doing p)) := by
  rw [perform, record_doneOnElement p other, act]

theorem redoCase_unitOf (p : Phase) (other : p ≠ .restoreOnFirstStart) (once : p ∉ done)
    (flag : Bool) :
    redoCase e flag p (unitOf (p :: done) (p :: executed) rst) =
      (unitOf done executed rst, !undoThrows e p || !flag) := by
  rw [redoCase, revert, redoElement_unitOf p other (fun _ => mem_cons) once, Action.rethrow,
    undo, takeBack_unitOf]

/-- Phases are executed one behind the other. -/
theorem sequence_perform
    (steps : ∀ p ∈ ps, ∀ done executed, cases p (unitOf done executed rst) =
      (unitOf (p :: done) (p :: executed) rst, true)) :
    Action.sequence (ps.map cases) (unitOf done executed rst) =
      (unitOf (ps.reverse ++ done) (ps.reverse ++ executed) rst, true) := by
  induction ps generalizing done executed with
  | nil => rfl
  | cons p ps ih =>
    rw [map_cons, Action.sequence, andThen_of_returns (steps p mem_cons_self done executed),
      ih fun q later => steps q (mem_cons_of_mem p later)]
    simp

/-- The latest phases are undone one behind the other. -/
theorem sequence_revert
    (steps : ∀ p ∈ ps, ∀ done executed, p ∉ done →
      cases p (unitOf (p :: done) (p :: executed) rst) = (unitOf done executed rst, true))
    (hd : ps.Nodup) (disjoint : ∀ p ∈ ps, p ∉ done) :
    Action.sequence (ps.map cases) (unitOf (ps ++ done) (ps ++ executed) rst) =
      (unitOf done executed rst, true) := by
  induction ps with
  | nil => rfl
  | cons p ps ih =>
    obtain ⟨once, hd⟩ := nodup_cons.mp hd
    have latest : p ∉ ps ++ done := by
      rw [mem_append, not_or]
      exact ⟨once, disjoint p mem_cons_self⟩
    rw [map_cons, Action.sequence, cons_append, cons_append,
      andThen_of_returns (steps p mem_cons_self _ _ latest)]
    exact ih (fun q later => steps q (mem_cons_of_mem p later)) hd
      fun q later => disjoint q (mem_cons_of_mem p later)

/-! ### The timer -/

theorem start_unitOf (idle : .statTimer ∉ done) :
    start e (unitOf done executed rst) =
      (unitOf (.statTimer :: done) (.statTimer :: executed) rst,
        !e.throws (.doing .statTimer)) := by
  have isToDo : (phases .startSM).filter (unitOf done executed rst).toDo = [.statTimer] := by
    simp [phases, unitOf, idle]
  rw [start, doStartSMCheckList, scanToDo, isToDo, map_singleton, sequence_singleton]
  exact perform_act e .statTimer (by decide) done executed rst

theorem stop_of_running (once : .statTimer ∉ done) :
    stop e (unitOf (.statTimer :: done) (.statTimer :: executed) rst) =
      (unitOf done executed rst, !undoThrows e .statTimer) := by
  have isDone : (phases .startSM).reverse.filter
      (unitOf (.statTimer :: done) (.statTimer :: executed) rst).done = [.statTimer] := by
    simp [phases, unitOf]
  rw [stop, redoStartSMCheckList, scanDone, isDone, map_singleton, sequence_singleton,
    redoCase_unitOf .statTimer (by decide) once, Bool.not_true, Bool.or_false]

theorem stop_of_idle (idle : .statTimer ∉ done) :
    stop e (unitOf done executed rst) = (unitOf done executed rst, true) := by
  have hn : (phases .startSM).reverse.filter (unitOf done executed rst).done = [] := by
    simp [phases, unitOf, idle]
  rw [stop, redoStartSMCheckList, scanDone, hn]
  rfl

/-! ### Initialization -/

/-- The phases that `init` may have executed. -/
inductive Inside : List Phase → Prop
  | nothing : Inside []
  | initDB : Inside [.initDB]
  | whole : Inside [.createDataStorage, .initDB]

theorem Inside.mem_phases (hi : Inside inside) : ∀ p ∈ inside, p ∈ phases .initSM := by
  cases hi <;> decide

theorem Inside.nodup (hi : Inside inside) : inside.Nodup := by
  cases hi <;> decide

theorem init_unitOf (e : Behaviour) (rst : Bool) :
    (∃ inside, Inside inside ∧ init e (settled [.callInitState] rst) =
      (settled (inside ++ [.callInitState]) rst, false)) ∨
    init e (settled [.callInitState] rst) =
      (settled [.createDataStorage, .initDB, .callInitState] rst, true) := by
  have isToDo : doInitSMCheckList e (settled [.callInitState] rst) =
      Action.sequence ([.initDB, .createDataStorage].map fun p => perform p (act e p))
        (settled [.callInitState] rst) := rfl
  have fetch : act e .callInitState (settled [.callInitState] rst) =
      (_, !e.throws (.doing .callInitState)) := rfl
  have openDB := perform_act e .initDB (by decide) [.callInitState] [.callInitState] rst
  have create := perform_act e .createDataStorage (by decide) [.initDB, .callInitState]
  cases hf : e.throws (.doing .callInitState) with
  | true =>
    rw [hf] at fetch
    exact .inl ⟨[], .nothing, Action.andThen_of_throws fetch⟩
  | false =>
    rw [hf] at fetch
    rw [init, andThen_of_returns fetch, isToDo]
    cases opened : e.throws (.doing .initDB) with
    | true =>
      rw [opened] at openDB
      exact .inl ⟨_, .initDB, Action.andThen_of_throws openDB⟩
    | false =>
      rw [opened] at openDB
      rw [map_cons, map_singleton, Action.sequence, andThen_of_returns openDB,
        sequence_singleton, create]
      cases e.throws (.doing .createDataStorage) with
      | true => exact .inl ⟨_, .whole, rfl⟩
      | false => exact .inr rfl

theorem addElement_unitOf :
    (unitOf done executed rst).addElement .restoreOnFirstStart =
      unitOf done executed true := by
  refine eq_unitOf (fun q => ?_) (fun _ => rfl) rfl rfl
  by_cases same : q = .restoreOnFirstStart <;> simp [addElement, unitOf, same]

/-- The phases of `_init` between `init` and the configuration. -/
def cachePhases : List Phase :=
  [.initSharedCache, .completeOutputAttribute, .completeInputAttribute, .initSystemCache,
    .callUnitDefineAttribute, .createFastAccessVector, .callUnitInit]

theorem phases_initRp : phases .initRp =
    .callInitState :: (cachePhases ++ [.updateConfiguration, .pushDataset]) := rfl

/-- The phases after `_init`. -/
def initStack : List Phase :=
  [.pushDataset, .updateConfiguration] ++ cachePhases.reverse ++
    [.createDataStorage, .initDB, .callInitState]

/-- Nothing throws but the phases of `init`. -/
theorem throws_of_outside {d : Deed} (inside : ∀ d ∈ e.throwing, d ∈ insideInit)
    (ho : d ∉ insideInit) : e.throws d = false :=
  decide_eq_false fun thrown => ho (inside d thrown)

theorem updateConfiguration_unitOf (hr : e.throws (.doing .updateConfiguration) = false) :
    doInitRpCases e .updateConfiguration (unitOf done executed rst) =
      (unitOf (.updateConfiguration :: done) (.updateConfiguration :: executed)
        (rst || e.restores), true) := by
  rw [doInitRpCases, perform, record_doneOnElement .updateConfiguration (by decide),
    Action.andThen, act, hr]
  simp only [Bool.not_false, always]
  cases e.restores with
  | true => rw [if_pos rfl, addElement_unitOf, Bool.or_true]
  | false => rw [if_neg Bool.false_ne_true, Bool.or_false]

theorem cachePhases_unitOf (onlyInside : ∀ d ∈ e.throwing, d ∈ insideInit) :
    ∀ p ∈ cachePhases, ∀ done executed, doInitRpCases e p (unitOf done executed rst) =
      (unitOf (p :: done) (p :: executed) rst, true) := by
  intro p hc done executed
  have ho : Deed.doing p ∉ insideInit := by
    revert p
    decide
  have same : doInitRpCases e p = perform p (act e p) := by
    revert p
    simp [doInitRpCases, cachePhases]
  rw [same, perform_act e p (by rintro rfl; revert hc; decide),
    throws_of_outside onlyInside ho, Bool.not_false]

/-- **Initialization.** All the phases are executed, or one of those in `init` throws. -/
theorem doInitRpCheckList_unitOf (onlyInside : ∀ d ∈ e.throwing, d ∈ insideInit) (rst : Bool) :
    (∃ inside, Inside inside ∧ doInitRpCheckList e (settled [] rst) =
      (settled (inside ++ [.callInitState]) rst, false)) ∨
    doInitRpCheckList e (settled [] rst) = (settled initStack (rst || e.restores), true) := by
  have isToDo : doInitRpCheckList e (settled [] rst) =
      Action.sequence ((phases .initRp).map (doInitRpCases e)) (settled [] rst) := rfl
  have calls : doInitRpCases e .callInitState (settled [] rst) =
      init e (settled [.callInitState] rst) := by
    rw [doInitRpCases, perform, record_doneOnElement .callInitState (by decide)]
  have pushes := throws_of_outside (d := .doing .pushDataset) onlyInside (by decide)
  rw [isToDo, phases_initRp]
  obtain ⟨inside, hi, thrown⟩ | hr := init_unitOf e rst
  · exact .inl ⟨inside, hi, Action.andThen_of_throws (calls.trans thrown)⟩
  · right
    rw [map_cons, Action.sequence, andThen_of_returns (calls.trans hr),
      map_append, sequence_append (sequence_perform (cachePhases_unitOf onlyInside)),
      map_cons, Action.sequence, andThen_of_returns
        (updateConfiguration_unitOf (throws_of_outside onlyInside (by decide))),
      map_singleton, sequence_singleton]
    exact (perform_act e .pushDataset (by decide) _ _ _).trans (by rw [pushes]; rfl)

/-! ### Deinitialization -/

/-- Nothing is thrown while phases are undone. -/
def Behaviour.UndoesQuietly (e : Behaviour) : Prop := ∀ p, undoThrows e p = false

section

variable (hq : e.UndoesQuietly) {inside : List Phase}

include hq

theorem redoCase_quiet (flag : Bool) (p : Phase) (other : p ≠ .restoreOnFirstStart)
    (done executed : List Phase) (once : p ∉ done) :
    redoCase e flag p (unitOf (p :: done) (p :: executed) rst) =
      (unitOf done executed rst, true) := by
  rw [redoCase_unitOf p other once, hq p, Bool.not_false, Bool.true_or]

theorem deinit_unitOf (hi : Inside inside) (ho : ∀ p ∈ phases .initSM, p ∉ done) :
    deinit e (unitOf (inside ++ done) (inside ++ executed) rst) =
      (unitOf done executed rst, true) := by
  have db : Phase.initDB ∉ done := ho _ (by decide)
  have storage : createDataStorage ∉ done := ho _ (by decide)
  have isDone : (phases .initSM).reverse.filter
      (unitOf (inside ++ done) (inside ++ executed) rst).done = inside := by
    cases hi <;> simp [phases, unitOf, db, storage]
  rw [deinit, redoInitSMCheckList, scanDone, isDone]
  refine sequence_revert (fun p hp => redoCase_quiet hq true p ?_) hi.nodup
    fun p hp => ho p (hi.mem_phases p hp)
  rintro rfl
  exact absurd (hi.mem_phases _ hp) (by decide)

/-- The last phase to be undone, with those that are in it. -/
theorem callInitState_unitOf (hi : Inside inside) (flag : Bool) :
    redoInitRpCases e flag .callInitState (settled (inside ++ [.callInitState]) rst) =
      (settled [] rst, true) := by
  have once : callInitState ∉ inside := fun hp =>
    absurd (hi.mem_phases _ hp) (by decide)
  have marked : (settled (inside ++ [.callInitState])
      rst).redoElement .callInitState = unitOf inside (inside ++ [.callInitState]) rst :=
    redoElement_unitOf .callInitState (by decide)
      (fun q => by rw [mem_append, mem_singleton, or_comm]) once
  have deinitialized : deinit e (unitOf (inside ++ []) (inside ++ [.callInitState]) rst) =
      (unitOf [] [.callInitState] rst, true) :=
    deinit_unitOf hq hi (by simp)
  rw [append_nil] at deinitialized
  rw [redoInitRpCases, revert, marked]
  refine Action.rethrow_of_returns flag ?_
  rw [andThen_of_returns deinitialized, always, takeBack_unitOf]

theorem redoInitRpCheckList_unitOf (flag : Bool) :
    redoInitRpCheckList e flag (settled initStack rst) = (settled [] rst, true) := by
  have isDone : (phases .initRp).reverse.filter (settled initStack rst).done =
      [.pushDataset, .updateConfiguration] ++ cachePhases.reverse ++ [.callInitState] := rfl
  have later : ∀ p ∈ [.pushDataset, .updateConfiguration] ++ cachePhases.reverse,
      ∀ done executed, p ∉ done →
        redoInitRpCases e flag p (unitOf (p :: done) (p :: executed) rst) =
          (unitOf done executed rst, true) := by
    intro p hl done executed once
    have same : redoInitRpCases e flag p = redoCase e flag p := by
      revert p
      simp [redoInitRpCases, cachePhases]
    rw [same]
    refine redoCase_quiet hq flag p ?_ done executed once
    rintro rfl
    revert hl
    decide
  rw [redoInitRpCheckList, scanDone, isDone, map_append, initStack,
    sequence_append (sequence_revert later (by decide) (by decide)), map_singleton,
    sequence_singleton]
  exact callInitState_unitOf hq .whole flag

/-- The handler of a fatal error that occurs inside of `init`. -/
theorem fatalErrorFromState_init (hi : Inside inside) :
    fatalErrorFromState e (some .init) (settled (inside ++ [.callInitState]) rst) =
      (settled [] rst, true) := by
  rw [fatalErrorFromState, andThen_of_returns (deinit_unitOf hq hi (by decide))]
  exact callInitState_unitOf hq .nothing false

end

/-! ### Start and stop -/

/-- What a start finds: nothing, or what an initialization has left. -/
inductive Base : List Phase → Prop
  | nothing : Base []
  | initialized : Base initStack

theorem Base.not_mem (isBase : Base base) (other : p ∉ initStack) : p ∉ base := by
  cases isBase with
  | nothing => exact not_mem_nil
  | initialized => exact other

theorem statTimer_not_mem (isBase : Base base) :
    statTimer ∉ Phase.implementation :: .unit :: base := by
  simp [isBase.not_mem (p := .statTimer) (by decide)]

theorem restore_unitOf (first : .restoreOnFirstStart ∉ done) :
    doStartRpCases e .restoreOnFirstStart (unitOf done executed rst) =
      (unitOf done executed false, !e.throws (.doing .restoreOnFirstStart)) := by
  have restored : (((unitOf done executed rst).doneOnElement .restoreOnFirstStart).record
      .restoreOnFirstStart).removeElement .restoreOnFirstStart = unitOf done executed false := by
    refine eq_unitOf (fun q => ?_) (fun q => ?_) rfl rfl <;>
      by_cases same : q = .restoreOnFirstStart <;>
      simp [removeElement, record, doneOnElement, unitOf, same, first]
  rw [doStartRpCases, perform, restored]

theorem doStartRpCheckList_unitOf (hq : e.throwing = []) (isBase : Base base) (rst : Bool) :
    doStartRpCheckList e (settled base rst) =
      (settled (.statTimer :: .implementation :: .unit :: base) false, true) := by
  have hr (d : Deed) : e.throws d = false := by
    rw [Behaviour.throws, hq]
    rfl
  have isToDo : (phases .startRp).filter (settled base rst).toDo =
      [.unit, .implementation] ++ if rst then [.restoreOnFirstStart] else [] := by
    cases isBase <;> cases rst <;> rfl
  have first : restoreOnFirstStart ∉ statTimer :: .implementation :: .unit :: base := by
    simp [isBase.not_mem (p := .restoreOnFirstStart) (by decide)]
  have unitStarted : doStartRpCases e .unit (settled base rst) =
      (settled (.unit :: base) rst, true) := by
    rw [doStartRpCases, perform_act e .unit (by decide), hr, Bool.not_false]
    all_goals nofun
  have implementationStarted : doStartRpCases e .implementation (settled (.unit :: base) rst) =
      (settled (.statTimer :: .implementation :: .unit :: base) rst, true) := by
    rw [doStartRpCases, perform, record_doneOnElement .implementation (by decide),
      start_unitOf (statTimer_not_mem isBase), hr, Bool.not_false]
  have both : Action.sequence ([Phase.unit, .implementation].map (doStartRpCases e))
      (settled base rst) =
      (settled (.statTimer :: .implementation :: .unit :: base) rst, true) := by
    rw [map_cons, Action.sequence, andThen_of_returns unitStarted, map_singleton,
      sequence_singleton, implementationStarted]
  rw [doStartRpCheckList, scanToDo, isToDo, map_append, sequence_append both]
  cases rst with
  | false => rfl
  | true =>
    rw [if_pos rfl, map_singleton, sequence_singleton, restore_unitOf first, hr, Bool.not_false]

/-- **Stop.** The phases of the start are undone, with the timer or without. -/
theorem redoStartRpCheckList_unitOf (hq : e.UndoesQuietly)
    (isBase : Base base) (flag : Bool) {timer : List Phase}
    (ht : timer = [] ∨ timer = [.statTimer]) :
    redoStartRpCheckList e flag (settled (timer ++ .implementation :: .unit :: base) rst) =
      (settled base rst, true) := by
  have isDone : (phases .startRp).reverse.filter
      (settled (timer ++ .implementation :: .unit :: base) rst).done =
        [.implementation, .unit] := by
    obtain rfl | rfl := ht <;> cases isBase <;> rfl
  have noTimer : statTimer ∉ Phase.unit :: base := by
    simp [isBase.not_mem (p := .statTimer) (by decide)]
  have noUnit : Phase.unit ∉ base := isBase.not_mem (by decide)
  have marked :
    (settled (timer ++ .implementation :: .unit :: base) rst).redoElement .implementation =
      unitOf (timer ++ .unit :: base) (timer ++ .implementation :: .unit :: base) rst := by
    refine redoElement_unitOf .implementation (by decide) (fun q => ?_) ?_
    · rw [mem_append, mem_cons, or_left_comm, mem_append]
    · have := isBase.not_mem (p := .implementation) (by decide)
      obtain rfl | rfl := ht <;> simp [this]
  have stopped : stop e (unitOf (timer ++ .unit :: base)
      (timer ++ .implementation :: .unit :: base) rst) =
      (unitOf (.unit :: base) (.implementation :: .unit :: base) rst, true) := by
    obtain rfl | rfl := ht
    · exact stop_of_idle noTimer
    · rw [singleton_append, singleton_append, stop_of_running noTimer, hq, Bool.not_false]
  have undone : redoStartRpCases e flag .implementation
      (settled (timer ++ .implementation :: .unit :: base) rst) =
      (settled (.unit :: base) rst, true) := by
    rw [redoStartRpCases, revert, marked]
    refine Action.rethrow_of_returns flag ?_
    rw [andThen_of_returns stopped, always, takeBack_unitOf]
  rw [redoStartRpCheckList, scanDone, isDone, map_cons, Action.sequence,
    andThen_of_returns undone, map_singleton, sequence_singleton]
  exact redoCase_quiet hq flag .unit (by decide) base base noUnit

/-- There is nothing to stop. -/
theorem redoStartRpCheckList_of_base (isBase : Base base) (flag : Bool) :
    redoStartRpCheckList e flag (settled base rst) = (settled base rst, true) := by
  cases isBase <;> rfl

end Phases

/-! ### The life cycle -/

/-- The phases in a recoverable error, by the state in which it occurred. The timer is stopped. -/
inductive Failed : CUStateKey → List Phase → Prop
  | deinit : Failed .deinit []
  | init : Failed .init initStack
  | stop {base : List Phase} (isBase : Base base) : Failed .stop base
  | start {base : List Phase} (isBase : Base base) :
      Failed .start (.implementation :: .unit :: base)

/-- The executed phases in each state of the service. -/
inductive Lined : SWEService AbstractControlUnit → Prop
  | deinit (last : Option CUStateKey) (restore : Bool) :
      Lined ⟨.deinit, .deinit, last, unitOf [] [] restore⟩
  | init (last : Option CUStateKey) (restore : Bool) :
      Lined ⟨.init, .init, last, unitOf initStack initStack restore⟩
  | start (last : Option CUStateKey) (restore : Bool) {base : List Phase} (isBase : Base base) :
      Lined ⟨.start, .start, last, unitOf (.statTimer :: .implementation :: .unit :: base)
        (.statTimer :: .implementation :: .unit :: base) restore⟩
  | stop (last : Option CUStateKey) (restore : Bool) {base : List Phase} (isBase : Base base) :
      Lined ⟨.stop, .stop, last, unitOf base base restore⟩
  | recoverableError (restore : Bool) {last : CUStateKey} {executed : List Phase}
      (failed : Failed last executed) :
      Lined ⟨.recoverableError, .recoverableError, some last, unitOf executed executed restore⟩
  | fatalError (last : Option CUStateKey) (restore : Bool) :
      Lined ⟨.fatalError, .fatalError, last, unitOf [] [] restore⟩

variable {s : SWEService AbstractControlUnit} {c : Call}

theorem Lined.ordered (lined : Lined s) : s.implementation.ordered = true := by
  cases lined <;> rfl

theorem Lined.released (lined : Lined s)
    (final : s.serviceState = .deinit ∨ s.serviceState = .fatalError) :
    s.implementation.executed = [] := by
  cases lined with
  | deinit | fatalError => rfl
  | init | start | stop | recoverableError =>
    rcases final with final | final <;> cases final

/-- The phases that a call has to have executed when it returns. -/
def due : CallKind → List Phase
  | .init => phases .initRp ++ phases .initSM
  | .start => startPhases
  | _ => []

/-- A service in order, and all that is due if the call has returned. -/
def Fulfils (kind : CallKind) (answer : SWEService AbstractControlUnit × Bool) : Prop :=
  Lined answer.1 ∧ (answer.2 = true → ∀ p ∈ due kind, p ∈ answer.1.implementation.executed)

theorem due_init : ∀ p ∈ due .init, p ∈ initStack := by
  decide

section Calls

variable {s : SWEService AbstractControlUnit} {e : Behaviour} {base executed : List Phase}
  {u : AbstractControlUnit} {rst : Bool}

theorem undoesQuietly_of_inside (onlyInside : ∀ d ∈ e.throwing, d ∈ insideInit) :
    e.UndoesQuietly := by
  have ho (p : Phase) : e.throws (.undoing p) = false :=
    throws_of_outside onlyInside (by cases p <;> decide)
  intro p
  cases p <;> first | rfl | exact ho _

theorem undoesQuietly_of_quiet (hq : e.throwing = []) : e.UndoesQuietly :=
  undoesQuietly_of_inside (by simp [hq])

theorem attempt_of_returns {act : Action AbstractControlUnit}
    (hr : act s.implementation = (u, true)) :
    attempt e s act = ({ s with implementation := u }, true) := by
  rw [attempt, hr]

theorem fulfils_init (onlyInside : ∀ d ∈ e.throwing, d ∈ insideInit) (last : Option CUStateKey)
    (rst : Bool) :
    Fulfils .init (attempt e ⟨.init, .init, last, settled [] rst⟩ (doInitRpCheckList e)) := by
  obtain ⟨inside, hi, thrown⟩ | hr := doInitRpCheckList_unitOf onlyInside rst
  · have hq := undoesQuietly_of_inside onlyInside
    have failed : attempt e ⟨.init, .init, last, settled [] rst⟩ (doInitRpCheckList e) =
        (⟨.fatalError, .fatalError, some .init, settled [] rst⟩, false) := by
      have hh (u : AbstractControlUnit) :
          (SWEService.mk .init .init last u).goInFatalError (handlers e) =
            (⟨.fatalError, .fatalError, some .init, (fatalErrorFromState e (some .init) u).1⟩,
              true) := rfl
      rw [attempt, thrown]
      simp only
      rw [hh, fatalErrorFromState_init hq hi]
    rw [failed]
    exact ⟨.fatalError _ _, nofun⟩
  · rw [attempt_of_returns hr]
    exact ⟨.init _ _, fun _ => due_init⟩

theorem fulfils_rpcInit (lined : Lined s) (onlyInside : ∀ d ∈ e.throwing, d ∈ insideInit) :
    Fulfils .init (rpcInit e s) := by
  have hr : Fulfils .init (s, false) := ⟨lined, nofun⟩
  cases lined with
  | deinit last rst | fatalError last rst => exact fulfils_init onlyInside last rst
  | init last rst => exact ⟨.init _ _, fun _ => due_init⟩
  | start | stop | recoverableError => exact hr

theorem fulfils_start (hq : e.throwing = []) (last : Option CUStateKey) (rst : Bool)
    (isBase : Base base) :
    Fulfils .start (attempt e ⟨.start, .start, last, settled base rst⟩ (doStartRpCheckList e)) := by
  rw [attempt_of_returns (doStartRpCheckList_unitOf hq isBase rst)]
  exact ⟨.start _ _ isBase, fun _ => by simp [due, startPhases, unitOf]⟩

theorem fulfils_rpcStart (lined : Lined s) (hq : e.throwing = []) :
    Fulfils .start (rpcStart e s) := by
  have hr : Fulfils .start (s, false) := ⟨lined, nofun⟩
  cases lined with
  | deinit | fatalError | recoverableError => exact hr
  | init last rst => exact fulfils_start hq last rst .initialized
  | start last rst isBase =>
    exact ⟨.start _ _ isBase, fun _ => by simp [rpcStart, due, startPhases, unitOf]⟩
  | stop last rst isBase => exact fulfils_start hq last rst isBase

theorem fulfils_stop (e : Behaviour) (isBase : Base base) {last : Option CUStateKey}
    (undone : redoStartRpCheckList e true (settled executed rst) = (settled base rst, true)) :
    Fulfils .stop (attempt e ⟨.stop, .stop, last, settled executed rst⟩
      (redoStartRpCheckList e true)) := by
  rw [attempt_of_returns undone]
  exact ⟨.stop _ _ isBase, fun _ => nofun⟩

theorem fulfils_rpcStop (lined : Lined s) (hq : e.throwing = []) : Fulfils .stop (rpcStop e s) := by
  have hq := undoesQuietly_of_quiet hq
  have hr : Fulfils .stop (s, false) := ⟨lined, nofun⟩
  cases lined with
  | deinit | fatalError | init => exact hr
  | start last rst isBase =>
    exact fulfils_stop e isBase (redoStartRpCheckList_unitOf hq isBase true (.inr rfl))
  | stop last rst isBase => exact ⟨.stop _ _ isBase, fun _ => nofun⟩
  | recoverableError rst failed =>
    cases failed with
    | deinit => exact fulfils_stop e .nothing (redoStartRpCheckList_of_base .nothing true)
    | init => exact fulfils_stop e .initialized (redoStartRpCheckList_of_base .initialized true)
    | stop isBase => exact fulfils_stop e isBase (redoStartRpCheckList_of_base isBase true)
    | start isBase =>
      exact fulfils_stop e isBase (redoStartRpCheckList_unitOf hq isBase true (.inl rfl))

theorem fulfils_deinit (hq : e.UndoesQuietly) (isBase : Base base)
    (last : Option CUStateKey) (rst : Bool) :
    Fulfils .deinit (attempt e ⟨.deinit, .deinit, last, settled base rst⟩
      (redoInitRpCheckList e true)) := by
  have undone : redoInitRpCheckList e true (settled base rst) = (settled [] rst, true) := by
    cases isBase with
    | nothing => rfl
    | initialized => exact redoInitRpCheckList_unitOf hq true
  rw [attempt_of_returns undone]
  exact ⟨.deinit _ _, fun _ => nofun⟩

theorem fulfils_rpcDeinit (lined : Lined s) (hq : e.throwing = [])
    (hn : s.serviceState = .recoverableError → s.lastState ≠ some .start) :
    Fulfils .deinit (rpcDeinit e s) := by
  have hq := undoesQuietly_of_quiet hq
  have hr : Fulfils .deinit (s, false) := ⟨lined, nofun⟩
  cases lined with
  | deinit last rst => exact ⟨.deinit _ _, fun _ => nofun⟩
  | fatalError | start => exact hr
  | init last rst => exact fulfils_deinit hq .initialized last rst
  | stop last rst isBase => exact fulfils_deinit hq isBase last rst
  | recoverableError rst failed =>
    cases failed with
    | deinit => exact fulfils_deinit hq .nothing _ rst
    | init => exact fulfils_deinit hq .initialized _ rst
    | stop isBase => exact fulfils_deinit hq isBase _ rst
    | start isBase => exact absurd rfl (hn rfl)

theorem fulfils_rpcRecover (lined : Lined s)
    (hs : s.serviceState = .recoverableError → s.lastState = some .start) :
    Fulfils .recover (rpcRecover e s) := by
  have hr : Fulfils .recover (s, false) := ⟨lined, nofun⟩
  cases lined with
  | deinit | fatalError | init | start | stop => exact hr
  | recoverableError rst failed =>
    cases failed with
    | deinit | init | stop => cases hs rfl
    | start isBase =>
      -- The timer is started again, whether or not this throws.
      have recovered (u : AbstractControlUnit) :
          rpcRecover e ⟨.recoverableError, .recoverableError, some .start, u⟩ =
            (⟨.start, .start, none, (start e u).1⟩, true) := rfl
      rw [recovered, start_unitOf (statTimer_not_mem isBase)]
      exact ⟨.start _ _ isBase, fun _ => nofun⟩

theorem stop_idle_of_base (isBase : Base base) :
    stop e (settled base rst) = (settled base rst, true) :=
  stop_of_idle (isBase.not_mem (by decide))

/-- The handler of a recoverable error stops the timer. -/
theorem fulfils_stopped {state : CUStateKey}
    {rets : Bool} (last : Option CUStateKey) (failed : Failed state executed)
    (hs : stop e u = (settled executed rst, rets)) :
    Fulfils .recoverableError
      ((SWEService.mk state state last u).goInRecoverableError (handlers e)) := by
  have hh : (SWEService.mk state state last u).goInRecoverableError (handlers e) =
      (⟨.recoverableError, .recoverableError, some state, (stop e u).1⟩, true) := by
    cases failed <;> rfl
  rw [hh, hs]
  exact ⟨.recoverableError _ failed, fun _ => nofun⟩

theorem fulfils_recoverableError (lined : Lined s) :
    Fulfils .recoverableError (s.goInRecoverableError (handlers e)) := by
  have hr : Fulfils .recoverableError (s, false) := ⟨lined, nofun⟩
  cases lined with
  | deinit last rst => exact fulfils_stopped last .deinit (stop_idle_of_base .nothing)
  | init last rst => exact fulfils_stopped last .init (stop_idle_of_base .initialized)
  | start last rst isBase =>
    exact fulfils_stopped last (.start isBase) (stop_of_running (statTimer_not_mem isBase))
  | stop last rst isBase => exact fulfils_stopped last (.stop isBase) (stop_idle_of_base isBase)
  | recoverableError | fatalError => exact hr

theorem fulfils_fatalError (lined : Lined s)
    (idle : s.serviceState ∉ [CUStateKey.init, .start, .stop]) :
    Fulfils .fatalError (s.goInFatalError (handlers e)) := by
  have hr : Fulfils .fatalError (s, false) := ⟨lined, nofun⟩
  cases lined with
  | deinit last rst => exact ⟨.fatalError _ _, fun _ => nofun⟩
  | fatalError | recoverableError => exact hr
  | init | start | stop => simp at idle

end Calls

theorem Careful.fulfils {s : Observed} (lined : Lined s.service)
    (hc : Careful s c) : Fulfils c.kind (c.run s.service) := by
  obtain ⟨kind, e⟩ := c
  cases kind with
  | init => exact fulfils_rpcInit lined hc
  | start => exact fulfils_rpcStart lined hc
  | stop => exact fulfils_rpcStop lined hc
  | deinit => exact fulfils_rpcDeinit lined hc.1 hc.2
  | recover => exact fulfils_rpcRecover lined hc
  | recoverableError => exact fulfils_recoverableError lined
  | fatalError => exact fulfils_fatalError lined hc

/-! ### Runs -/

theorem step_regular {s t : Observed} (invariant : Lined s.service ∧ s.Regular)
    (hc : Careful s c) (taken : s.step c = some t) : Lined t.service ∧ t.Regular := by
  cases taken
  obtain ⟨lined, executed⟩ := hc.fulfils invariant.1
  have ofReturned {kind : CallKind}
      (hr : (if (c.run s.service).2 then some c.kind else none) = some kind) :
      ∀ p ∈ due kind, p ∈ (c.run s.service).1.implementation.executed := by
    obtain ⟨hs, same⟩ := ite_none_right_eq_some.mp hr
    cases same
    exact executed hs
  exact ⟨lined, ofReturned, ofReturned, lined.ordered, lined.released⟩

theorem lined_init : Lined Observed.init.service := by
  have toDo : (fun p => decide (p ≠ .restoreOnFirstStart)) = (settled [] false).toDo := by
    funext p
    cases p <;> rfl
  have fresh : AbstractControlUnit.construct = settled [] false := by
    rw [construct, toDo]
    rfl
  rw [Observed.init, fresh]
  exact .deinit none false

/-- In every sequence of remote calls and errors that are careful, every state is regular. -/
theorem regular_of_careful (calls : List Call) {t : Observed}
    (careful : Admissible Observed.step Careful .init calls)
    (run : execute Observed.step .init calls = some t) : t.Regular :=
  (careful.invariant step_regular ⟨lined_init, nofun, nofun, rfl, fun _ => rfl⟩ run).2

/-- A life cycle with a recovered error, and an initialization that is repeated. -/
def carefulCalls : List Call :=
  [⟨.init, ⟨[.doing .initDB], false⟩⟩, ⟨.init, ⟨[], true⟩⟩, ⟨.start, ⟨[], false⟩⟩,
    ⟨.recoverableError, ⟨[.undoing .statTimer], false⟩⟩, ⟨.recover, ⟨[], false⟩⟩,
    ⟨.stop, ⟨[], false⟩⟩, ⟨.deinit, ⟨[], false⟩⟩]

theorem regular_of_careful_cycle :
    ∃ t, execute Observed.step .init carefulCalls = some t ∧ t.Regular :=
  ⟨_, rfl, regular_of_careful carefulCalls (by decide) rfl⟩

/-- The last phase of `_init` throws. In the fatal error everything is undone, but not in order:
`deinit` releases the data storage before `unitDeinit` is called. -/
theorem storage_released_first :
    ∃ t, execute Observed.step .init [⟨.init, ⟨[.doing .pushDataset], false⟩⟩] = some t ∧
      t.service.serviceState = .fatalError ∧ t.service.implementation.ordered = false :=
  ⟨_, rfl, rfl, rfl⟩

end ChaosFramework.ControlUnit
