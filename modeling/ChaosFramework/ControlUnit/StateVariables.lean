import ChaosFramework.Transition
import Mathlib.Data.List.Basic
import Mathlib.Order.Lattice

/-!
# State variables

The state variables of a control unit are the alarms of two catalogs, each with an attribute of the
system dataset that has to tell the highest level. It is written when an alarm has changed its
level, and once more by each of the three `setStateVariableSeverity`. The one that takes the number
of the alarm writes whether the catalog is clear, not the highest level.
-/

namespace ChaosFramework.ControlUnit

open Transition List

inductive StateVariableType
  | alarmCU
  | alarmDEV
  deriving DecidableEq

inductive MultiSeverityAlarmLevel
  | clear
  | warning
  | high
  deriving DecidableEq

def MultiSeverityAlarmLevel.code : MultiSeverityAlarmLevel → ℕ
  | .clear => 0
  | .warning => 1
  | .high => 2

/-- The catalog of a type, with the attribute of the system dataset. -/
structure AlarmCatalog where
  /-- The names and the current levels, in the order of the ids. -/
  alarms : List (String × MultiSeverityAlarmLevel)
  /-- The bitset of `StateFlagServerityRegular`. -/
  regular : List Bool
  /-- The attribute has four bytes. -/
  published : ℕ

namespace AlarmCatalog

/-- The new alarm, which is clear, is dropped if the name is in use. -/
def addAlarm (c : AlarmCatalog) (name : String) : AlarmCatalog :=
  if name ∈ c.alarms.map Prod.fst then c
  else { c with alarms := c.alarms ++ [(name, .clear)], regular := c.regular ++ [true] }

def maxLevel (c : AlarmCatalog) : ℕ :=
  c.alarms.foldl (fun maxv a => if maxv < a.2.code then a.2.code else maxv) 0

/-- The bits that are set are as many as the alarms. -/
def isCatalogClear (c : AlarmCatalog) : Bool := c.alarms.length == c.regular.count true

/-- An integer is written. -/
def publishMaxLevel (c : AlarmCatalog) : AlarmCatalog := { c with published := c.maxLevel }

/-- A Boolean is written, which is the first byte of the attribute. On a little endian host that is
the lowest one. -/
def publishNotClear (c : AlarmCatalog) : AlarmCatalog :=
  { c with published := c.published / 256 * 256 + (!c.isCatalogClear).toNat }

/-- An alarm whose level changes tells the catalog and the control unit (`alarmChanged`). -/
def setCurrentSeverity (c : AlarmCatalog) (severity : MultiSeverityAlarmLevel) (id : ℕ) :
    AlarmCatalog :=
  match c.alarms[id]? with
  | none => c
  | some (name, level) =>
      if level = severity then c
      else
        publishMaxLevel { c with
          alarms := c.alarms.set id (name, severity)
          regular := c.regular.set id (severity = .clear) }

def setAllAlarmSeverity (c : AlarmCatalog) (severity : MultiSeverityAlarmLevel) : AlarmCatalog :=
  (range c.alarms.length).foldl (setCurrentSeverity · severity) c

def levels (c : AlarmCatalog) : List MultiSeverityAlarmLevel := c.alarms.map Prod.snd

end AlarmCatalog

/-- `addStateVariable` and the three `setStateVariableSeverity`. -/
inductive StateVariableCall
  | add (name : String)
  | setAll (severity : MultiSeverityAlarmLevel)
  | setByName (name : String) (severity : MultiSeverityAlarmLevel)
  | setByOrderedID (id : ℕ) (severity : MultiSeverityAlarmLevel)
  deriving DecidableEq

/-- A call, on the catalog of its type. Until the first variable is added there is no catalog, and
the attribute is zero. -/
def AlarmCatalog.call : StateVariableCall → Option AlarmCatalog → Option AlarmCatalog
  | .add name, c => some ((c.getD ⟨[], [], 0⟩).addAlarm name)
  | .setAll severity, c => c.map fun c => (c.setAllAlarmSeverity severity).publishMaxLevel
  | .setByName name severity, c => c.map fun c =>
      match c.alarms.findIdx? (·.1 == name) with
      | none => c
      | some id => (c.setCurrentSeverity severity id).publishMaxLevel
  | .setByOrderedID id severity, c => c.map fun c =>
      if id < c.alarms.length then (c.setCurrentSeverity severity id).publishNotClear else c

/-- `map_variable_catalog` -/
abbrev StateVariables := StateVariableType → Option AlarmCatalog

namespace StateVariables

def init : StateVariables := fun _ => none

def step (s : StateVariables) (call : StateVariableType × StateVariableCall) :
    Option StateVariables :=
  some (Function.update s call.1 (AlarmCatalog.call call.2 (s call.1)))

/-- The attributes tell the highest levels. -/
def Tells (s : StateVariables) : Prop :=
  ∀ type, ∀ c ∈ s type, c.published = (c.levels.map (·.code)).foldr max 0

/-- An alarm is set by its number to a level that is not high, and no other alarm of its type is
high. -/
def NotHigh (s : StateVariables) : StateVariableType × StateVariableCall → Prop
  | (type, .setByOrderedID id severity) =>
      ∀ c ∈ s type, id < c.alarms.length → .high ∉ c.levels.set id severity
  | _ => True

instance decidableNotHigh (s : StateVariables) (call : StateVariableType × StateVariableCall) :
    Decidable (s.NotHigh call) := by
  unfold NotHigh
  split <;> infer_instance

end StateVariables

namespace AlarmCatalog

theorem maxLevel_eq (c : AlarmCatalog) : c.maxLevel = (c.levels.map (·.code)).foldr max 0 := by
  have h (l : List (String × MultiSeverityAlarmLevel)) (m : ℕ) :
      l.foldl (fun maxv a => if maxv < a.2.code then a.2.code else maxv) m =
        max m (((l.map Prod.snd).map (·.code)).foldr max 0) := by
    induction l generalizing m with
    | nil => simp
    | cons a l ih =>
      rw [foldl_cons, ih]
      simp only [map_cons, foldr_cons]
      split_ifs <;> omega
  rw [maxLevel, h, Nat.zero_max, levels]

theorem foldr_max_code (l : List MultiSeverityAlarmLevel) : (l.map (·.code)).foldr max 0 =
    if .high ∈ l then 2 else if ∀ level ∈ l, level = .clear then 0 else 1 := by
  induction l with
  | nil => rfl
  | cons level l ih =>
    rw [map_cons, foldr_cons, ih]
    cases level <;> simp [MultiSeverityAlarmLevel.code] <;> split_ifs <;> simp

theorem levels_setCurrentSeverity (c : AlarmCatalog) (severity : MultiSeverityAlarmLevel)
    (id : ℕ) : (c.setCurrentSeverity severity id).levels = c.levels.set id severity := by
  unfold setCurrentSeverity
  split
  next beyond =>
    rw [set_eq_of_length_le]
    rw [levels, length_map]
    exact getElem?_eq_none_iff.mp beyond
  next name level found =>
    split
    next same =>
      subst same
      have old : c.levels[id]? = some level := by rw [levels, getElem?_map, found]; rfl
      obtain ⟨hi, rfl⟩ := List.getElem?_eq_some_iff.mp old
      exact (set_getElem_self hi).symm
    next => simp [publishMaxLevel, levels, map_set]

/-- The attribute tells the levels, and the bitset the alarms that are clear. -/
structure Matches (c : AlarmCatalog) : Prop where
  tells : c.published = (c.levels.map (·.code)).foldr max 0
  regular : c.regular = c.levels.map fun level => decide (level = .clear)

variable {c : AlarmCatalog} (h : c.Matches)
include h

theorem matches_addAlarm (name : String) : (c.addAlarm name).Matches := by
  unfold addAlarm
  split
  · exact h
  · constructor
    · simp [h.tells, levels, MultiSeverityAlarmLevel.code]
    · simp [h.regular, levels]

theorem matches_publishMaxLevel : c.publishMaxLevel.Matches := ⟨maxLevel_eq c, h.regular⟩

theorem matches_setCurrentSeverity (severity : MultiSeverityAlarmLevel) (id : ℕ) :
    (c.setCurrentSeverity severity id).Matches := by
  unfold setCurrentSeverity
  split
  · exact h
  · split
    · exact h
    · refine ⟨maxLevel_eq _, ?_⟩
      simp [publishMaxLevel, levels, h.regular]

theorem matches_setAllAlarmSeverity (severity : MultiSeverityAlarmLevel) :
    (c.setAllAlarmSeverity severity).Matches := by
  unfold setAllAlarmSeverity
  generalize range c.alarms.length = ids
  induction ids generalizing c with
  | nil => exact h
  | cons id ids ih => exact ih (matches_setCurrentSeverity h severity id)

theorem isCatalogClear_iff : c.isCatalogClear = true ↔ ∀ level ∈ c.levels, level = .clear := by
  rw [isCatalogClear, beq_iff_eq, eq_comm, ← length_map Prod.snd,
    ← length_map fun level => decide (level = .clear), ← levels, ← h.regular, count_eq_length,
    h.regular]
  simp

/-- The Boolean is the highest level exactly if that is not two. -/
theorem tells_publishNotClear :
    c.publishNotClear.published = (c.levels.map (·.code)).foldr max 0 ↔ .high ∉ c.levels := by
  have hp : c.published / 256 * 256 = 0 := by
    rw [h.tells, foldr_max_code]
    split_ifs <;> rfl
  rw [publishNotClear, hp, foldr_max_code]
  by_cases hclear : ∀ level ∈ c.levels, level = .clear
  · have hh : .high ∉ c.levels := fun hm => nomatch hclear _ hm
    simp only [(isCatalogClear_iff h).mpr hclear, if_pos hclear]
    simp [hh]
  · rw [Bool.eq_false_iff.mpr (hclear ∘ (isCatalogClear_iff h).mp)]
    split_ifs with hh <;> simp [hh]

end AlarmCatalog

namespace StateVariables

open AlarmCatalog

variable {s t : StateVariables} {call : StateVariableType × StateVariableCall}

def Inv (s : StateVariables) : Prop := ∀ type, ∀ c ∈ s type, c.Matches

theorem inv_step (h : Inv s) (hn : s.NotHigh call) (ht : s.step call = some t) : Inv t := by
  obtain ⟨type, call⟩ := call
  cases ht
  intro other d hd
  by_cases ho : other = type
  · subst ho
    simp only [Function.update_self] at hd
    cases call with
    | add name =>
      cases hd
      cases hc : s other with
      | none => exact matches_addAlarm ⟨rfl, rfl⟩ name
      | some c => exact matches_addAlarm (h other c hc) name
    | setAll severity =>
      obtain ⟨c, hc, rfl⟩ := Option.map_eq_some_iff.mp hd
      exact matches_publishMaxLevel (matches_setAllAlarmSeverity (h other c hc) severity)
    | setByName name severity =>
      obtain ⟨c, hc, rfl⟩ := Option.map_eq_some_iff.mp hd
      split
      · exact h other c hc
      · exact matches_publishMaxLevel (matches_setCurrentSeverity (h other c hc) severity _)
    | setByOrderedID id severity =>
      obtain ⟨c, hc, rfl⟩ := Option.map_eq_some_iff.mp hd
      split
      · rename_i hi
        have hm := matches_setCurrentSeverity (h other c hc) severity id
        refine ⟨(tells_publishNotClear hm).mpr ?_, hm.regular⟩
        rw [levels_setCurrentSeverity]
        exact hn c hc hi
      · exact h other c hc
  · rw [Function.update_of_ne ho] at hd
    exact h other d hd

theorem notHigh_of_tells (h : Inv s) (ht : s.step call = some t) (hp : t.Tells) :
    s.NotHigh call := by
  unfold NotHigh
  split
  · rename_i type id severity
    cases ht
    intro c hc hi
    have hm := matches_setCurrentSeverity (h type c hc) severity id
    rw [← levels_setCurrentSeverity]
    refine (tells_publishNotClear hm).mp (hp type _ ?_)
    simp [AlarmCatalog.call, Option.mem_def.mp hc, hi]
  · trivial

/-- **The system attributes.** Whatever is added and set, each tells the highest level of its type
exactly as long as no alarm is high after a call with the number of an alarm. -/
theorem tells_iff_notHigh {calls : List (StateVariableType × StateVariableCall)}
    (run : execute step init calls = some t) :
    Admissible step NotHigh init calls ↔
      ∀ n r, execute step init (calls.take n) = some r → r.Tells :=
  admissible_iff_forall_reached inv_step (fun h type c hc => (h type c hc).tells) notHigh_of_tells
    nofun run

/-- Two alarms that are set in all the three ways. -/
theorem tells_iff_notHigh_two :
    let calls : List (StateVariableType × StateVariableCall) := [(.alarmCU, .add "a"),
      (.alarmCU, .add "b"), (.alarmCU, .setByName "b" .high), (.alarmCU, .setAll .clear),
      (.alarmCU, .setByOrderedID 1 .warning)]
    ∃ t, execute step init calls = some t ∧ t.Tells ∧ (t .alarmCU).map (·.published) = some 1 := by
  intro calls
  refine ⟨_, rfl, ?_, by decide⟩
  exact (@tells_iff_notHigh _ calls rfl).mp (by decide) 5 _ rfl

/-- An alarm that is set to the highest level by its number is published as the level one. -/
theorem high_published_as_one :
    ∃ t, execute step init [(.alarmCU, .add "a"), (.alarmCU, .setByOrderedID 0 .high)] = some t ∧
      (t .alarmCU).map (fun c => (c.levels, c.published)) = some ([.high], 1) ∧ ¬ t.Tells :=
  ⟨_, rfl, by decide, fun h => absurd (h .alarmCU _ rfl) (by decide)⟩

end StateVariables

end ChaosFramework.ControlUnit
