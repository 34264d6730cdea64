import Mathlib.Data.List.Count
import Mathlib.Data.List.Nodup
import ChaosFramework.ControlManager.WorkUnits

/-!
# Where the units are

A submitted unit that is not a duplicate is in the queue, in one of the two maps, or discarded, and
never in two of these places. This is a law of conservation, whatever the hooks do.

What a place says about a unit does not follow in general. The step that registers the actions of a
unit switches its activity off first, so a unit whose actions could not be registered goes to the
registered units all the same. A unit whose setup fails, or whose registration is refused, is
discarded without being undefined. `accounted_of_careful` is about runs in which none of this
happens.
-/

namespace ChaosFramework.WorkUnits

open Throwing Throwing.Action Transition List Function

open WorkUnitManagement

/-! ### Places -/

inductive Place
  | queue
  | registering
  | registered
  | discarded
  deriving DecidableEq, Repr

/-- How often the unit is among those that are managed. -/
def held (ws : List WorkUnitManagement) (u : WorkUnit) : ℕ := (ws.map (·.unit)).count u

namespace ControlManager

def places (s : ControlManager) (u : WorkUnit) : List Place :=
  List.replicate (s.queue.count u) .queue ++
    List.replicate (held (s.registering u.id).toList u) .registering ++
    List.replicate (held (s.registered u.id).toList u) .registered ++
    List.replicate (held (s.discarded u.id) u) .discarded

/-- The units are where they should be. -/
structure Accounted (s : ControlManager) : Prop where
  /-- A unit is kept under its own identifier. -/
  keyed : ∀ id w, s.registering id = some w ∨ s.registered id = some w ∨ w ∈ s.discarded id →
    w.unit.id = id
  /-- A unit is in one place. -/
  placed : ∀ u ∈ s.submitted, u ∉ s.rejected → ∃ place, s.places u = [place]
  /-- A registered unit has been published completely. -/
  completed : ∀ id w, s.registered id = some w → w.completed = true
  /-- A discarded unit has been undefined. -/
  undefined : ∀ id, ∀ w ∈ s.discarded id, w.driversCalled = true → w.undefined = true

end ControlManager

/-! ### Steps of a state machine -/

namespace WorkUnitManagement

/-- What the state says about the unit: before the drivers are initialized nothing has to be
undefined, a unit in publication is active until it is complete, and behind its publication it
is undefined. -/
def Sound (w : WorkUnitManagement) : Prop :=
  match w.state with
  | .startPublishing => w.driversCalled = false
  | .publishing => w.active = true
  | .published => w.completed = true ∨ w.active = true
  | .startUnpublishing => True
  | .unpublishing => True
  | .unpublished => w.undefined = true
  | .publishingFailure => w.driversCalled = false

/-- The setup and the registration of a unit return, and to undefine it does not throw what would be
logged only. -/
def Benign (b : Behaviour) (u : WorkUnit) : Prop :=
  b.outcome .initDrivers = .returns ∧ b.outcome .defineActionAndDataset = .returns ∧
    (∀ hook ∈ registrations u, b.outcome hook = .returns) ∧
    b.outcome .undefineActionAndDataset ≠ .throws

instance decidableBenign (b : Behaviour) (u : WorkUnit) : Decidable (Benign b u) :=
  inferInstanceAs (Decidable (_ ∧ _ ∧ (∀ hook ∈ registrations u, b.outcome hook = .returns) ∧ _))

variable {b : Behaviour} {w : WorkUnitManagement}

theorem call_of_returns {hook : Hook} (hr : b.outcome hook = .returns) :
    call b hook w = (w, true) := by
  rw [call, hr]
  rfl

theorem switchTo_of_some {ev : UnitEvent} {state : UnitState}
    (hh : processEvent w.state ev = some state) :
    switchTo ev w = ({ w with state }, true) := by
  rw [switchTo, hh]

section Keeps

variable (P : WorkUnitManagement → Prop)

theorem keeps_call (hook : Hook) : Keeps P (call b hook) := fun _ before => before

theorem keeps_callLogged (hook : Hook) : Keeps P (callLogged b hook) := fun _ before => before

theorem keeps_calls {α : Type} (hook : α → Hook) (xs : List α) :
    Keeps P (sequence (xs.map fun x => call b (hook x))) := by
  refine keeps_sequence fun a member => ?_
  obtain ⟨x, -, rfl⟩ := mem_map.mp member
  exact keeps_call P (hook x)

theorem keeps_switchTo {ev : UnitEvent}
    (keeps : ∀ w state, P w → processEvent w.state ev = some state → P { w with state }) :
    Keeps P (switchTo ev) := by
  intro w before
  rw [switchTo]
  split
  next state handled => exact keeps w state before handled
  next => exact before

end Keeps

/-- No step exchanges the unit. -/
theorem keeps_unit_scheduleSM (u : WorkUnit) : Keeps (·.unit = u) (scheduleSM b) := by
  have hs (ev : UnitEvent) : Keeps (·.unit = u) (switchTo ev) :=
    keeps_switchTo _ fun _ _ same _ => same
  have changed (f : WorkUnitManagement → WorkUnitManagement) (same : ∀ w, (f w).unit = w.unit) :
      Keeps (·.unit = u) (always f) := fun w before => (same w).trans before
  have setup : Keeps (·.unit = u) (setup b) :=
    (changed (fun w => { w with driversCalled := true }) fun _ => rfl).cons
      ((keeps_call _ .initDrivers).cons ((keeps_call _ .defineActionAndDataset).cons (keeps_nil _)))
  intro w same
  rw [scheduleSM]
  cases w.state with
  | unpublished | publishingFailure => exact same
  | startPublishing =>
    have keeps : Keeps (·.unit = u) (startPublishing b) :=
      (changed (fun w => { w with active := true, publishingCounterDelay := 0 }) fun _ => rfl).cons
        ((setup.orElse (hs .failure)).cons ((hs .publishing).cons (keeps_nil _)))
    exact keeps w same
  | publishing => exact changed _ (fun _ => rfl) w same
  | published =>
    have keeps := (changed (fun w => { w with active := false }) fun _ => rfl).cons
      ((keeps_calls (b := b) (·.unit = u) id (registrations w.unit)).cons
        ((changed (fun w => { w with completed := true }) fun _ => rfl).cons (keeps_nil _)))
    exact keeps w same
  | startUnpublishing =>
    have keeps := (changed (fun w => { w with active := true }) fun _ => rfl).cons
      ((keeps_calls (b := b) (·.unit = u) .deregisterAction (range w.unit.actions)).cons
        ((hs .unpublishing).cons (keeps_nil _)))
    exact keeps w same
  | unpublishing =>
    have possibly (flag : Bool) (hook : Hook) :
        Keeps (·.unit = u) (if flag then callLogged b hook else always id) := by
      cases flag
      · exact changed _ fun _ => rfl
      · exact keeps_callLogged _ hook
    have undefines : Keeps (·.unit = u) (undefine b) := fun _ before => before
    have keeps := (possibly b.running .stop).cons ((possibly b.initialized .deinit).cons
      (undefines.cons ((hs .unpublished).cons (keeps_nil _))))
    exact keeps w same

theorem setup_of_benign (benign : Benign b w.unit) :
    setup b w = ({ w with driversCalled := true }, true) := by
  obtain ⟨hd, defined, -, -⟩ := benign
  rw [setup, sequence_always, sequence_of_head_returns (call_of_returns hd),
    sequence_singleton, call_of_returns defined]

theorem startPublishing_of_benign (benign : Benign b w.unit) (state : w.state = .startPublishing) :
    (startPublishing b w).1.state = .publishing ∧ (startPublishing b w).1.active = true := by
  have hs :=
    setup_of_benign (w := { w with active := true, publishingCounterDelay := 0 }) benign
  rw [startPublishing, sequence_always, sequence_of_head_returns (orElse_of_returns hs),
    sequence_singleton]
  simp [switchTo, state, processEvent]

theorem completePublishing_of_benign (benign : Benign b w.unit) :
    (completePublishing b w).1 = { w with active := false, completed := true } := by
  have registers : sequence ((registrations w.unit).map (call b)) { w with active := false } =
      ({ w with active := false }, true) := by
    refine sequence_of_returns fun a member => ?_
    obtain ⟨hook, isHook, rfl⟩ := mem_map.mp member
    exact call_of_returns (benign.2.2.1 hook isHook)
  rw [completePublishing, sequence_always, sequence_of_head_returns registers]
  rfl

theorem startUnpublishing_state (state : w.state = .startUnpublishing) :
    (startUnpublishing b w).1.state = .startUnpublishing ∨
      (startUnpublishing b w).1.state = .unpublishing := by
  let P (w : WorkUnitManagement) : Prop := w.state = .startUnpublishing ∨ w.state = .unpublishing
  have activated : Keeps P (always fun w => { w with active := true }) := fun _ before => before
  have switched : Keeps P (switchTo .unpublishing) := by
    refine keeps_switchTo P fun w next before hh => ?_
    rcases before with hs | unpublishing
    · rw [hs] at hh
      exact .inr (Option.some.inj hh).symm
    · rw [unpublishing] at hh
      cases hh
  have keeps := activated.cons
    ((keeps_calls (b := b) P .deregisterAction (range w.unit.actions)).cons
      (switched.cons (keeps_nil P)))
  exact keeps w (.inl state)

/-- A unit that comes to the end of its life is undefined, unless an exception ends the step. -/
theorem unpublish_state (benign : Benign b w.unit) (state : w.state = .unpublishing) :
    (unpublish b w).1.state = .unpublishing ∨
      (unpublish b w).1.state = .unpublished ∧ (unpublish b w).1.undefined = true := by
  let P (w : WorkUnitManagement) : Prop :=
    w.state = .unpublishing ∨ w.state = .unpublished ∧ w.undefined = true
  -- `_stop` and `_deinit` belong to the unit and leave its manager as it is.
  have same (flag : Bool) (hook : Hook) :
      ((if flag then callLogged b hook else always id) w).1 = w := by
    cases flag <;> rfl
  refine andThen_induction (P := P) (fun _ => ?_) (fun _ => ?_)
  · rw [same]
    exact .inl state
  rw [same]
  refine andThen_induction (fun _ => ?_) (fun _ => ?_)
  · rw [same]
    exact .inl state
  rw [same]
  refine andThen_induction (fun _ => .inl state) (fun hr => ?_)
  -- The step goes on behind a `CException` as well, which is the case that is excluded.
  have other : b.outcome .undefineActionAndDataset ≠ .throwsOther := of_decide_eq_true hr
  have done : b.outcome .undefineActionAndDataset = .returns := by
    cases outcome : b.outcome .undefineActionAndDataset with
    | returns => rfl
    | throws => exact absurd outcome benign.2.2.2
    | throwsOther => exact absurd outcome other
  have handled : processEvent (undefine b w).1.state .unpublished = some .unpublished := by
    show processEvent w.state .unpublished = some .unpublished
    rw [state]
    rfl
  rw [sequence_singleton, switchTo_of_some handled]
  refine .inr ⟨rfl, ?_⟩
  show (w.undefined || decide (b.outcome .undefineActionAndDataset = .returns)) = true
  rw [done]
  exact Bool.or_true _

/-- The steps that are not disturbed keep what the state says. -/
theorem sound_scheduleSM (sound : Sound w) (benign : Benign b w.unit) :
    Sound (scheduleSM b w).1 := by
  cases state : w.state with
  | unpublished | publishingFailure =>
    simp only [Sound, scheduleSM, state] at sound ⊢
    exact sound
  | startPublishing =>
    obtain ⟨next, active⟩ := startPublishing_of_benign benign state
    simp only [Sound, scheduleSM, state, next]
    exact active
  | publishing =>
    simp only [Sound, scheduleSM, state, publish, always] at sound ⊢
    exact sound
  | published =>
    simp only [Sound, scheduleSM, state, completePublishing_of_benign benign]
    exact .inl trivial
  | startUnpublishing =>
    rcases startUnpublishing_state (b := b) state with next | next <;>
      simp only [Sound, scheduleSM, state, next]
  | unpublishing =>
    rcases unpublish_state benign state with next | ⟨next, undefined⟩
    · simp only [Sound, scheduleSM, state, next]
    · simp only [Sound, scheduleSM, state, next]
      exact undefined

theorem turnOFF_of_published (state : w.state = .published) :
    turnOFF w = ({ w with state := .startUnpublishing }, true) :=
  switchTo_of_some (by rw [state]; rfl)

theorem unit_manageACKPack (id : String) (res : Option Int) :
    (manageACKPack id res w).1.unit = w.unit := by
  have hs (ev : UnitEvent) : (switchTo ev w).1.unit = w.unit :=
    keeps_switchTo (·.unit = w.unit) (fun _ _ same _ => same) w rfl
  unfold manageACKPack
  split
  · rfl
  split
  · split
    · exact hs .published
    · exact hs .failure
  · rfl

/-- An acknowledgement makes a unit published while it is active. Only a refusal of a unit in
publication is dangerous. -/
theorem sound_manageACKPack (id : String) (res : Option Int) (sound : Sound w)
    (ha : w.state = .publishing → ∀ val ∈ res, val = registrationOk) :
    Sound (manageACKPack id res w).1 := by
  unfold manageACKPack
  split
  · exact sound
  split
  next val =>
    split
    next =>
      refine keeps_switchTo Sound (fun v next before hh => ?_) w sound
      cases state : v.state <;> rw [state] at hh <;> cases hh
      simp only [Sound, state] at before ⊢
      exact .inr before
    next refused =>
      rw [switchTo]
      split
      next next hh =>
        cases state : w.state <;> rw [state] at hh <;> cases hh
        · simp only [Sound, state] at sound ⊢
          exact sound
        · exact absurd (ha state val rfl) refused
      next => exact sound
  next => exact sound

end WorkUnitManagement

/-! ### Cells -/

/-- What the manager has under one identifier. -/
structure Cell where
  registering : Option WorkUnitManagement
  registered : Option WorkUnitManagement
  discarded : List WorkUnitManagement

namespace Cell

def units (c : Cell) : List WorkUnit :=
  (c.registering.toList ++ c.registered.toList ++ c.discarded).map (·.unit)

structure Tidy (id : String) (c : Cell) : Prop where
  keyed : ∀ u ∈ c.units, u.id = id
  apart : c.registering = none ∨ c.registered = none
  published : ∀ w ∈ c.registered, w.state = .published

structure Truthful (c : Cell) : Prop where
  sound : ∀ w ∈ c.registering, Sound w
  completed : ∀ w ∈ c.registered, w.completed = true
  undefined : ∀ w ∈ c.discarded, w.driversCalled = true → w.undefined = true

/-- What an operation does to a cell. The relation is about steps in the state machine. -/
inductive Change (R : WorkUnitManagement → WorkUnitManagement → Prop) : Cell → Cell → Prop
  | stays {c : Cell} : Change R c c
  | advanced {w v : WorkUnitManagement} {ws : List WorkUnitManagement} (step : R w v) :
      Change R ⟨some w, none, ws⟩ ⟨some v, none, ws⟩
  | registered {w : WorkUnitManagement} {ws : List WorkUnitManagement}
      (stable : w.smNeedToSchedule = false) (state : w.state = .published) :
      Change R ⟨some w, none, ws⟩ ⟨none, some w, ws⟩
  | discarded {w : WorkUnitManagement} {ws : List WorkUnitManagement}
      (stable : w.smNeedToSchedule = false) (state : w.state ≠ .published) :
      Change R ⟨some w, none, ws⟩ ⟨none, none, w :: ws⟩
  | unloaded {w : WorkUnitManagement} {ws : List WorkUnitManagement}
      (state : w.state = .published) :
      Change R ⟨none, some w, ws⟩ ⟨some { w with state := .startUnpublishing }, none, ws⟩

variable {R : WorkUnitManagement → WorkUnitManagement → Prop} {id : String} {c d : Cell}

theorem Change.units (change : Change R c d) (same : ∀ w v, R w v → v.unit = w.unit) :
    d.units = c.units := by
  cases change with
  | stays | registered | discarded | unloaded => rfl
  | @advanced w v ws step => simp [Cell.units, same w v step]

theorem Change.tidy (change : Change R c d) (same : ∀ w v, R w v → v.unit = w.unit)
    (tidy : c.Tidy id) : d.Tidy id := by
  have keyed : ∀ u ∈ d.units, u.id = id := by
    rw [change.units same]
    exact tidy.keyed
  cases change with
  | stays => exact tidy
  | advanced | unloaded => exact ⟨keyed, .inr rfl, nofun⟩
  | registered stable state =>
    refine ⟨keyed, .inl rfl, fun v isRegistered => ?_⟩
    cases isRegistered
    exact state
  | discarded => exact ⟨keyed, .inl rfl, nofun⟩

theorem Change.truthful (change : Change R c d)
    (sound : ∀ w v, c.registering = some w → R w v → Sound w → Sound v)
    (truthful : c.Truthful) : d.Truthful := by
  obtain ⟨isSound, completed, hu⟩ := truthful
  cases change with
  | stays => exact ⟨isSound, completed, hu⟩
  | @advanced w v ws step =>
    refine ⟨fun u hr => ?_, nofun, hu⟩
    cases hr
    exact sound w v rfl step (isSound w rfl)
  | @registered w ws stable state =>
    -- A published unit that is not active is complete.
    refine ⟨nofun, fun u isRegistered => ?_, hu⟩
    cases isRegistered
    have said := isSound w rfl
    simp only [Sound, state] at said
    rcases said with complete | active
    · exact complete
    · simp [smNeedToSchedule, active] at stable
  | @discarded w ws stable state =>
    -- It has come to the end of its life, or has failed before its drivers were initialized.
    refine ⟨nofun, nofun, fun u isDiscarded hd => ?_⟩
    rcases mem_cons.mp isDiscarded with rfl | old
    · have said := isSound u rfl
      cases isState : u.state with
      | published => exact absurd isState state
      | unpublished =>
        simp only [Sound, isState] at said
        exact said
      | publishingFailure =>
        simp only [Sound, isState, hd] at said
        cases said
      | startPublishing | publishing | startUnpublishing | unpublishing =>
        simp [smNeedToSchedule, isState] at stable
    · exact hu u old hd
  | @unloaded w ws state =>
    refine ⟨fun u hr => ?_, nofun, hu⟩
    cases hr
    exact trivial

end Cell

/-! ### Operations -/

namespace ControlManager

open Cell

def cell (s : ControlManager) (id : String) : Cell :=
  ⟨s.registering id, s.registered id, s.discarded id⟩

/-- Every unit is as often in a place as it has been submitted, which is once. -/
structure Conserved (s : ControlManager) : Prop where
  tidy : ∀ id, (s.cell id).Tidy id
  counted : ∀ u, s.queue.count u + (s.cell u.id).units.count u + s.rejected.count u =
    s.submitted.count u
  numbered : ∀ u ∈ s.submitted, u.number < s.submitted.length
  nodup : s.submitted.Nodup

/-- Only cells are changed. -/
structure Moved (R : String → WorkUnitManagement → WorkUnitManagement → Prop)
    (s t : ControlManager) : Prop where
  queue : t.queue = s.queue
  rejected : t.rejected = s.rejected
  submitted : t.submitted = s.submitted
  cells : ∀ id, Change (R id) (s.cell id) (t.cell id)

variable {R : String → WorkUnitManagement → WorkUnitManagement → Prop} {s t : ControlManager}
  {w : WorkUnitManagement} {id : String}

theorem Moved.conserved (moved : Moved R s t) (same : ∀ id w v, R id w v → v.unit = w.unit)
    (hc : Conserved s) : Conserved t := by
  refine ⟨fun id => (moved.cells id).tidy (same id) (hc.tidy id), fun u => ?_, ?_, ?_⟩
  · rw [moved.queue, moved.rejected, moved.submitted, (moved.cells u.id).units (same u.id)]
    exact hc.counted u
  · rw [moved.submitted]
    exact hc.numbered
  · rw [moved.submitted]
    exact hc.nodup

section

variable (hc : Conserved s) (hr : s.registering id = some w)

include hc hr

/-- A unit in one of the maps has been submitted. -/
theorem Conserved.submitted_of_registering : w.unit.id = id ∧ w.unit ∈ s.submitted := by
  have member : w.unit ∈ (s.cell id).units := by simp [cell, Cell.units, hr]
  have key := (hc.tidy id).keyed w.unit member
  refine ⟨key, count_pos_iff.mp ?_⟩
  have counted := hc.counted w.unit
  rw [key] at counted
  have positive := count_pos_iff.mpr member
  omega

theorem Conserved.vacant : s.registered id = none := by
  rcases (hc.tidy id).apart with absent | hv
  · cases hr.symm.trans absent
  · exact hv

theorem Conserved.cell_of_registering : s.cell id = ⟨some w, none, s.discarded id⟩ := by
  rw [cell, hr, hc.vacant hr]

end

theorem makeSMSteps_moved (b : String → Behaviour) (hc : Conserved s) :
    Moved (fun id w v => v = w ∨ v = (scheduleSM (b id) w).1) s (s.makeSMSteps b) := by
  refine ⟨rfl, rfl, rfl, fun id => ?_⟩
  cases hr : s.registering id with
  | none =>
    have same : (s.makeSMSteps b).cell id = s.cell id := by simp [cell, makeSMSteps, hr]
    rw [same]
    exact .stays
  | some w =>
    have after : (s.makeSMSteps b).cell id = ⟨some (if w.smNeedToSchedule then
        (scheduleSM (b id) w).1 else w), none, s.discarded id⟩ := by
      simp [cell, makeSMSteps, hr, hc.vacant hr]
    rw [hc.cell_of_registering hr, after]
    refine .advanced ?_
    split
    · exact .inr rfl
    · exact .inl rfl

theorem migrate_moved (hc : Conserved s) :
    Moved (fun _ _ _ => False) s s.migrateStableAndUnstableSMCUInstance := by
  refine ⟨rfl, rfl, rfl, fun id => ?_⟩
  cases hr : s.registering id with
  | none =>
    have same : s.migrateStableAndUnstableSMCUInstance.cell id = s.cell id := by
      simp [cell, migrateStableAndUnstableSMCUInstance, hr]
    rw [same]
    exact .stays
  | some w =>
    have hv := hc.vacant hr
    have before := hc.cell_of_registering hr
    cases stable : w.smNeedToSchedule with
    | true =>
      have same : s.migrateStableAndUnstableSMCUInstance.cell id = s.cell id := by
        simp [cell, migrateStableAndUnstableSMCUInstance, hr, stable]
      rw [same]
      exact .stays
    | false =>
      by_cases state : w.state = .published
      · have after : s.migrateStableAndUnstableSMCUInstance.cell id =
            ⟨none, some w, s.discarded id⟩ := by
          simp [cell, migrateStableAndUnstableSMCUInstance, hr, stable, state, hv]
        rw [before, after]
        exact .registered stable state
      · have after : s.migrateStableAndUnstableSMCUInstance.cell id =
            ⟨none, none, w :: s.discarded id⟩ := by
          simp [cell, migrateStableAndUnstableSMCUInstance, hr, stable, state, hv]
        rw [before, after]
        exact .discarded stable state

theorem unload_moved (id : String) (hc : Conserved s) :
    Moved (fun _ _ _ => False) s (s.unloadControlUnit id).1 := by
  cases isRegistered : s.registered id with
  | none =>
    have same : s.unloadControlUnit id = (s, false) := by rw [unloadControlUnit, isRegistered]
    rw [same]
    exact ⟨rfl, rfl, rfl, fun _ => .stays⟩
  | some w =>
    have tidy := hc.tidy id
    have state : w.state = .published := tidy.published w isRegistered
    have vacant : s.registering id = none := by
      rcases tidy.apart with vacant | absent
      · exact vacant
      · cases isRegistered.symm.trans absent
    have unloaded : s.unloadControlUnit id = ({ s with
        registering :=
          update s.registering id (some { w with state := .startUnpublishing })
        registered := update s.registered id none }, true) := by
      simp [unloadControlUnit, isRegistered, turnOFF_of_published state, insertNew, vacant]
    rw [unloaded]
    refine ⟨rfl, rfl, rfl, fun k => ?_⟩
    obtain rfl | same := eq_or_ne k id
    · have before : s.cell k = ⟨none, some w, s.discarded k⟩ := by rw [cell, vacant, isRegistered]
      rw [before]
      simp only [cell, update_self]
      exact .unloaded state
    · simp only [cell, update_of_ne same]
      exact .stays

theorem ack_moved (id : String) (res : Option Int) (hc : Conserved s) :
    Moved (fun k w v => k = id ∧ v = (manageACKPack id res w).1) s
      (s.workUnitRegistrationACK id res).1 := by
  cases hr : s.registering id with
  | none =>
    have same : s.workUnitRegistrationACK id res = (s, false) := by
      rw [workUnitRegistrationACK, hr]
    rw [same]
    exact ⟨rfl, rfl, rfl, fun _ => .stays⟩
  | some w =>
    have ha : (s.workUnitRegistrationACK id res).1 = { s with
        registering := update s.registering id (some (manageACKPack id res w).1) } := by
      simp only [workUnitRegistrationACK, hr]
    rw [ha]
    refine ⟨rfl, rfl, rfl, fun k => ?_⟩
    obtain rfl | same := eq_or_ne k id
    · have after : cell { s with
          registering := update s.registering k (some (manageACKPack k res w).1) } k =
          ⟨some (manageACKPack k res w).1, none, s.discarded k⟩ := by
        simp [cell, hc.vacant hr]
      rw [hc.cell_of_registering hr, after]
      exact .advanced ⟨rfl, rfl⟩
    · simp only [cell, update_of_ne same]
      exact .stays

/-- The manager of a unit that comes from the queue. -/
def fresh (u : WorkUnit) : WorkUnitManagement :=
  { construct u with active := false, state := .startPublishing }

/-- What happens to the first unit of the queue. -/
inductive Taken (s : ControlManager) : ControlManager → Prop
  | none (empty : s.queue = []) : Taken s s
  | rejected {u : WorkUnit} {rest : List WorkUnit} (next : s.queue = u :: rest) :
      Taken s { s with queue := rest, rejected := u :: s.rejected }
  | inserted {u : WorkUnit} {rest : List WorkUnit} {ws : List WorkUnitManagement}
      {t : ControlManager} (next : s.queue = u :: rest) (queue : t.queue = rest)
      (rejected : t.rejected = s.rejected) (submitted : t.submitted = s.submitted)
      (unused : s.cell u.id = ⟨Option.none, Option.none, ws⟩)
      (filled : t.cell u.id = ⟨some (fresh u), Option.none, ws⟩)
      (others : ∀ id, id ≠ u.id → t.cell id = s.cell id) : Taken s t

theorem taken (b : String → Behaviour) (s : ControlManager) : Taken s (s.takeSubmitted b) := by
  unfold takeSubmitted
  split
  next empty => exact .none empty
  next u rest next =>
    split
    next => exact .rejected next
    next unused =>
      simp only [Bool.or_eq_true, not_or, Bool.not_eq_true, Option.isSome_eq_false_iff,
        Option.isNone_iff_eq_none] at unused
      obtain ⟨absent, vacant⟩ := unused
      have isFresh : ((scheduleSM (b u.id)).andThen turnOn (construct u)).1 = fresh u := rfl
      have empty : s.cell u.id = ⟨none, none, s.discarded u.id⟩ := by rw [cell, absent, vacant]
      refine .inserted next rfl rfl rfl empty ?_ ?_
      · simp [cell, isFresh, insertNew, absent, vacant]
      · intro id different
        simp only [cell, insertNew, update_of_ne different]

theorem Taken.conserved (taken : Taken s t) (hc : Conserved s) :
    Conserved t ∧ t.submitted = s.submitted := by
  obtain ⟨tidy, counted, hn, nodup⟩ := hc
  cases taken with
  | none => exact ⟨⟨tidy, counted, hn, nodup⟩, rfl⟩
  | @rejected u rest next =>
    refine ⟨⟨tidy, fun v => ?_, hn, nodup⟩, rfl⟩
    have before := counted v
    rw [next, count_cons] at before
    show rest.count v + (s.cell v.id).units.count v + (u :: s.rejected).count v =
      s.submitted.count v
    rw [count_cons]
    omega
  -- The unit goes from the queue to the cell, which has room for it.
  | @inserted u rest ws t next queue rejected hs unused filled others =>
    have units : (t.cell u.id).units = u :: (s.cell u.id).units := by
      rw [filled, unused]
      rfl
    refine ⟨⟨fun id => ?_, fun v => ?_, hs ▸ hn, hs ▸ nodup⟩, hs⟩
    · obtain rfl | same := eq_or_ne id u.id
      · refine ⟨?_, .inr (by rw [filled]), by rw [filled]; nofun⟩
        rw [units]
        exact forall_mem_cons.mpr ⟨rfl, (tidy u.id).keyed⟩
      · rw [others id same]
        exact tidy id
    · have before := counted v
      rw [next, count_cons] at before
      rw [queue, rejected, hs]
      by_cases same : v.id = u.id
      · rw [same, units, count_cons]
        rw [same] at before
        omega
      · have different : u ≠ v := fun isSame => same (congrArg WorkUnit.id isSame).symm
        rw [others v.id same]
        simpa [different] using before

theorem Taken.truthful (taken : Taken s t) (truthful : ∀ id, (s.cell id).Truthful) :
    ∀ id, (t.cell id).Truthful := by
  cases taken with
  | none => exact truthful
  | rejected next => exact truthful
  | @inserted u rest ws t next queue rejected hs unused filled others =>
    intro id
    obtain rfl | same := eq_or_ne id u.id
    · have before := truthful u.id
      rw [unused] at before
      rw [filled]
      refine ⟨fun w isFresh => ?_, nofun, before.undefined⟩
      cases isFresh
      exact rfl
    · rw [others id same]
      exact truthful id

theorem takeSubmitted_iterate (b : String → Behaviour) (n : ℕ) (hc : Conserved s) :
    Conserved ((takeSubmitted b)^[n] s) ∧ ((takeSubmitted b)^[n] s).submitted = s.submitted ∧
      ((∀ id, (s.cell id).Truthful) → ∀ id, (((takeSubmitted b)^[n] s).cell id).Truthful) := by
  induction n generalizing s with
  | zero => exact ⟨hc, rfl, id⟩
  | succ n ih =>
    obtain ⟨next, hs⟩ := (taken b s).conserved hc
    obtain ⟨final, same, truthful⟩ := ih next
    exact ⟨final, same.trans hs, fun before => truthful ((taken b s).truthful before)⟩

theorem submit_conserved (id : String) (acts commands : ℕ) (hc : Conserved s) :
    Conserved (s.submitControlUnit id acts commands) := by
  obtain ⟨tidy, counted, hn, nodup⟩ := hc
  have new : ⟨s.submitted.length, id, acts, commands⟩ ∉ s.submitted := fun member =>
    absurd (hn _ member) (Nat.lt_irrefl _)
  refine ⟨tidy, fun v => ?_, ?_, ?_⟩
  · have before := counted v
    show (s.queue ++ _).count v + (s.cell v.id).units.count v + s.rejected.count v =
      (s.submitted ++ _).count v
    rw [count_append, count_append]
    omega
  · rw [submitControlUnit, length_append, forall_mem_append]
    exact ⟨fun u old => Nat.lt_succ_of_lt (hn u old), forall_mem_singleton.mpr (Nat.lt_succ_self _)⟩
  · exact nodup_append.mpr ⟨nodup, nodup_singleton _, fun a old =>
      forall_mem_singleton.mpr fun same => new (same ▸ old)⟩

section

variable (b : String → Behaviour) (hc : Conserved s)

include b hc

theorem steps_conserved : Conserved (s.makeSMSteps b) := by
  refine (makeSMSteps_moved b hc).conserved (fun id w v step => ?_) hc
  rcases step with rfl | rfl
  · rfl
  · exact keeps_unit_scheduleSM w.unit w rfl

theorem manage_conserved : Conserved (s.manageControlUnit b) := by
  have taken := (takeSubmitted_iterate b s.queue.length hc).1
  have stepped := steps_conserved b taken
  exact (migrate_moved stepped).conserved (fun _ _ _ => False.elim) stepped

/-- In an iteration without disturbances the places say what they should. -/
theorem manage_truthful (truthful : ∀ id, (s.cell id).Truthful)
    (benign : ∀ u ∈ s.submitted, Benign (b u.id) u) :
    ∀ id, ((s.manageControlUnit b).cell id).Truthful := by
  obtain ⟨taken, same, keeps⟩ := takeSubmitted_iterate b s.queue.length hc
  have stepped := steps_conserved b taken
  intro id
  refine ((migrate_moved stepped).cells id).truthful (fun _ _ _ hi => hi.elim) ?_
  refine ((makeSMSteps_moved b taken).cells id).truthful (fun w v hr step sound => ?_)
    (keeps truthful id)
  obtain ⟨key, isSubmitted⟩ := taken.submitted_of_registering hr
  rcases step with rfl | rfl
  · exact sound
  · rw [same] at isSubmitted
    exact sound_scheduleSM sound (key ▸ benign w.unit isSubmitted)

end

theorem length_places (s : ControlManager) (u : WorkUnit) :
    (s.places u).length = s.queue.count u + (s.cell u.id).units.count u := by
  simp only [places, held, cell, Cell.units, length_append, length_replicate,
    map_append, count_append]
  omega

end ControlManager

open ControlManager

/-! ### Runs -/

/-- The conservation of units does not depend on what the hooks do. -/
theorem step_conserved {s t : ControlManager} {label : Label} (hc : Conserved s)
    (taken : step s label = some t) : Conserved t := by
  cases label with
  | submit id acts commands =>
    cases taken
    exact submit_conserved id acts commands hc
  | unload id =>
    cases taken
    exact (unload_moved id hc).conserved (fun _ _ _ => False.elim) hc
  | ack id res =>
    cases taken
    refine (ack_moved id res hc).conserved (fun k w v ha => ?_) hc
    rw [ha.2]
    exact unit_manageACKPack id res
  | iterate b =>
    cases taken
    exact manage_conserved b hc

/-- Nothing goes wrong: the hooks of the setup and of the registration return, no registration is
refused, and what has to be undefined can be undefined. -/
def Careful (s : ControlManager) : Label → Prop
  | .iterate b => ∀ u ∈ s.submitted, Benign (b u.id) u
  | .ack id result => ∀ w ∈ s.registering id, w.state = .publishing →
      ∀ value ∈ result, value = registrationOk
  | _ => True

instance decidableCareful (s : ControlManager) (label : Label) : Decidable (Careful s label) := by
  unfold Careful
  split <;> infer_instance

/-- The invariant of careful runs. -/
structure Inv (s : ControlManager) : Prop where
  conserved : Conserved s
  truthful : ∀ id, (s.cell id).Truthful

theorem step_inv {s t : ControlManager} {label : Label} (inv : Inv s) (careful : Careful s label)
    (taken : step s label = some t) : Inv t := by
  obtain ⟨hc, truthful⟩ := inv
  refine ⟨step_conserved hc taken, ?_⟩
  cases label with
  | submit id acts commands =>
    cases taken
    exact truthful
  | unload id =>
    cases taken
    exact fun k => ((unload_moved id hc).cells k).truthful (fun _ _ _ hi => hi.elim) (truthful k)
  | ack id res =>
    cases taken
    intro k
    refine ((ack_moved id res hc).cells k).truthful (fun w v hr step sound => ?_) (truthful k)
    obtain ⟨rfl, rfl⟩ := step
    exact sound_manageACKPack k res sound (careful w hr)
  | iterate b =>
    cases taken
    exact manage_truthful b hc truthful careful

theorem inv_initial : Inv initial :=
  ⟨⟨fun _ => ⟨nofun, .inl rfl, nofun⟩, fun _ => rfl, nofun, nodup_nil⟩,
    fun _ => ⟨nofun, nofun, nofun⟩⟩

theorem accounted_of_inv {s : ControlManager} (inv : Inv s) : s.Accounted := by
  obtain ⟨hc, truthful⟩ := inv
  refine ⟨fun id w isKept => ?_, fun u isSubmitted isKept => ?_,
    fun id w => (truthful id).completed w, fun id => (truthful id).undefined⟩
  · refine (hc.tidy id).keyed w.unit (mem_map_of_mem ?_)
    simpa [cell] using isKept
  · refine length_eq_one_iff.mp ?_
    rw [length_places]
    have counted := hc.counted u
    rw [count_eq_zero_of_not_mem isKept, count_eq_one_of_mem hc.nodup isSubmitted] at counted
    exact counted

/-- **Where the units are.** In every run without disturbances each unit that is not a duplicate is
in one place, the registered units have been published completely, and the discarded ones have
been undefined. -/
theorem accounted_of_careful (labels : List Label)
    (admissible : Admissible step Careful initial labels) (t : ControlManager)
    (executed : execute step initial labels = some t) : t.Accounted :=
  accounted_of_inv (admissible.invariant step_inv inv_initial executed)

/-- **Conservation.** Whatever the hooks throw and the acks say, no unit is lost and none is in two
places: a unit is a rejected duplicate or in one place, once for its submission. The units are kept
under their own identifiers. The registered ones are published, and none of them is registering. -/
theorem units_conserved (labels : List Label) (t : ControlManager)
    (executed : execute step initial labels = some t) :
    (∀ u, (t.places u).length + t.rejected.count u = if u ∈ t.submitted then 1 else 0) ∧
      (∀ id w, t.registering id = some w ∨ t.registered id = some w ∨ w ∈ t.discarded id →
        w.unit.id = id) ∧
      ∀ id, ∀ w ∈ t.registered id,
        w.unit.id = id ∧ w.state = .published ∧ t.registering id = none := by
  have hc : Conserved t := invariant_of_execute step_conserved inv_initial.conserved executed
  have keyed (id : String) (w : WorkUnitManagement)
      (kept : t.registering id = some w ∨ t.registered id = some w ∨ w ∈ t.discarded id) :
      w.unit.id = id := by
    refine (hc.tidy id).keyed w.unit (mem_map_of_mem ?_)
    rcases kept with isThere | isThere | isThere <;> simp [cell, isThere]
  refine ⟨?_, keyed, ?_⟩
  · intro u
    rw [length_places, hc.counted u]
    split
    next hs => exact count_eq_one_of_mem hc.nodup hs
    next hs => exact count_eq_zero_of_not_mem hs
  · intro id w hr
    refine ⟨keyed id w (.inr (.inl hr)), (hc.tidy id).published w hr, ?_⟩
    rcases (hc.tidy id).apart with ha | hv
    · exact ha
    · cases hv.symm.trans hr

/-- All hooks return, except those that are given. -/
def behaving (hooks : List Hook) : String → Behaviour := fun _ =>
  ⟨fun hook => if hook ∈ hooks then .throws else .returns, true, true⟩

/-- A unit and a duplicate are submitted; the unit is published, unloaded and discarded. -/
def lifeOfUnit : List Label :=
  [.submit "BPM" 1 1, .submit "BPM" 1 1, .iterate (behaving []), .ack "BPM" (some 500),
    .iterate (behaving []), .unload "BPM", .iterate (behaving [.stop]), .iterate (behaving [.stop]),
    .iterate (behaving [])]

theorem accounted_of_careful_life :
    Admissible step Careful initial lifeOfUnit ∧
      ∃ t ∈ execute step initial lifeOfUnit, (t.discarded "BPM").length = 1 ∧ t.Accounted := by
  have ha : Admissible step Careful initial lifeOfUnit := by decide
  have discarded : ∃ t ∈ execute step initial lifeOfUnit, (t.discarded "BPM").length = 1 := by
    decide
  obtain ⟨t, he, once⟩ := discarded
  exact ⟨ha, t, he, once, accounted_of_careful lifeOfUnit ha t he⟩

/-- The actions of a published unit cannot be registered. -/
def unregistered : List Label :=
  [.submit "BPM" 1 0, .iterate (behaving []), .ack "BPM" (some 500),
    .iterate (behaving [.registerAction 0])]

/-- The registration of a unit is refused by the metadata server. -/
def refused : List Label :=
  [.submit "BPM" 1 0, .iterate (behaving []), .ack "BPM" (some 501), .iterate (behaving [])]

/-- The registration that is refused does not lose the unit. -/
theorem units_conserved_refused : ∃ t ∈ execute step initial refused,
    ∃ u ∈ t.submitted, (t.places u).length + t.rejected.count u = 1 := by
  have hs : ∃ t ∈ execute step initial refused, ∃ u ∈ t.submitted, u.id = "BPM" := by decide
  obtain ⟨t, he, u, hm, -⟩ := hs
  refine ⟨t, he, u, hm, ?_⟩
  rw [(units_conserved refused t he).1 u, if_pos hm]

/-- The first unit is registered without its actions, the second one is discarded without being
undefined. -/
theorem unaccounted_units :
    (∃ t ∈ execute step initial unregistered, ¬ t.Accounted) ∧
      ∃ t ∈ execute step initial refused, ¬ t.Accounted := by
  have incomplete : ∃ t ∈ execute step initial unregistered,
      ∃ w ∈ t.registered "BPM", w.completed = false := by decide
  have defined : ∃ t ∈ execute step initial refused,
      ∃ w ∈ t.discarded "BPM", w.driversCalled = true ∧ w.undefined = false := by decide
  obtain ⟨t, he, w, isRegistered, incomplete⟩ := incomplete
  obtain ⟨u, executedToo, v, isDiscarded, hd, defined⟩ := defined
  refine ⟨⟨t, he, fun accounted => ?_⟩, u, executedToo, fun accounted => ?_⟩
  · rw [accounted.completed "BPM" w isRegistered] at incomplete
    cases incomplete
  · rw [accounted.undefined "BPM" v isDiscarded hd] at defined
    cases defined

end ChaosFramework.WorkUnits
