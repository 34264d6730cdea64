import ChaosFramework.Flags.Severities

/-!
# The current level of a flag

A flag whose current level is not among its levels must not be added to a catalog, where
`getCurrentStateLevel` would be dereferenced at the end. The two agree as long as the first level
comes by `addLevel`; the copy constructor leaves the levels behind, and `addLevelsFromSet` does not
choose a level. The deserialization of a catalog adds copies, so that it always looks behind the
end.
-/

namespace ChaosFramework.Flags

open Transition List Option
open Or (inr inl)

/-! ### The calls on flags -/

namespace World

def newFlag (w : World) (flag : StateFlag) : World :=
  { w.setFlag w.flagCount flag with flagCount := w.flagCount + 1 }

/-- What `StateFlagCatalogSDWrapper` writes of a catalog: its name, and the composed name of
each element with its flag. -/
def serializeCatalog (w : World) (c : ℕ) : String × List (String × SerializedFlag) :=
  ((w.catalogs c).catalogName,
    (w.catalogs c).container.map fun e =>
      (e.flagName, SerializedFlag.serialize (w.flags e.statusFlag)))

/-- The loop over the elements. All of them go through the flag of one wrapper, and a copy of it is
what comes to the catalog. -/
def deserializeElements (c : ℕ) (w : World) (wrapped : StateFlag) :
    List (String × SerializedFlag) → World
  | [] => w
  | (name, data) :: elements =>
      let read := SerializedFlag.deserialize wrapped data
      deserializeElements c ((w.newFlag read.copy).insertFlag c name w.flagCount) read elements

def deserializeCatalog (w : World) (c : ℕ) (data : String × List (String × SerializedFlag)) :
    World :=
  deserializeElements c
    { w.setCatalog c { w.catalogs c with catalogName := data.1 } with nextUuid := w.nextUuid + 1 }
    (.construct w.nextUuid "") data.2

inductive Call
  | construct (name : String)
  | addLevel (f : ℕ) (level : StateLevel)
  | addLevelsFromSet (f : ℕ) (levels : List StateLevel)
  | setCurrentLevel (f : ℕ) (level : ℤ)
  | copy (f : ℕ)
  | assign (f rhs : ℕ)
  /-- A catalog is serialized, and deserialized into another one. -/
  | transfer (src c : ℕ)
  | catalog (call : CatalogCall)
  deriving DecidableEq, Repr

def step (w : World) : Call → Option World
  | .construct name =>
      some { w.newFlag (.construct w.nextUuid name) with nextUuid := w.nextUuid + 1 }
  | .addLevel f level =>
      if f < w.flagCount then some (w.setFlag f ((w.flags f).addLevel level)) else none
  | .addLevelsFromSet f levels =>
      if f < w.flagCount then some (w.setFlag f ((w.flags f).addLevelsFromSet levels)) else none
  | .setCurrentLevel f level =>
      if f < w.flagCount then some (w.setCurrentLevel f level) else none
  | .copy f => if f < w.flagCount then some (w.newFlag (w.flags f).copy) else none
  | .assign f rhs =>
      if f < w.flagCount ∧ rhs < w.flagCount then
        some (w.setFlag f ((w.flags f).assign (w.flags rhs)))
      else none
  | .transfer src c =>
      if src < w.catalogCount ∧ c < w.catalogCount then
        some (w.deserializeCatalog c (w.serializeCatalog src))
      else none
  | .catalog call => w.catalogStep call

/-- A process without flags. -/
def init : World where
  flags _ := .construct 0 ""
  flagCount := 0
  nextUuid := 0
  catalogs _ := .construct ""
  catalogCount := 0
  looked := []

end World

/-! ### Levels -/

namespace StateFlag

variable {f g : StateFlag} {level : StateLevel} {levels : List StateLevel} {val : ℤ}

/-- The value is that of one of the levels. -/
def HasLevel (f : StateFlag) (value : ℤ) : Prop := ∃ level ∈ f.setLevels, level.value = value

instance decidableHasLevel (f : StateFlag) (value : ℤ) : Decidable (f.HasLevel value) :=
  inferInstanceAs (Decidable (∃ level ∈ f.setLevels, _))

theorem findLevel_isSome : (f.findLevel val).isSome ↔ f.HasLevel val := by
  rw [findLevel]
  simp [HasLevel]

theorem hasLevel_insertLevel :
    (f.insertLevel level).HasLevel val ↔ level.value = val ∨ f.HasLevel val := by
  simp [HasLevel, insertLevel]

/-- The current level is among the levels, or there are none. -/
def Settled (f : StateFlag) : Prop := f.setLevels = [] ∨ f.HasLevel f.currentLevel

theorem Settled.hasLevel (settled : f.Settled) (levels : f.setLevels ≠ []) :
    f.HasLevel f.currentLevel :=
  settled.resolve_left levels

theorem Settled.addLevel (settled : f.Settled) (level : StateLevel) :
    (f.addLevel level).Settled := by
  rw [StateFlag.addLevel]
  split
  case isTrue present => exact settled
  case isFalse absent =>
    split
    case isTrue first => exact inr (hasLevel_insertLevel.mpr (inl rfl))
    case isFalse more =>
      have levels : f.setLevels ≠ [] := fun empty => more (by rw [empty]; rfl)
      exact inr (hasLevel_insertLevel.mpr (inr (settled.hasLevel levels)))

theorem currentLevel_addLevelsFromSet :
    (f.addLevelsFromSet levels).currentLevel = f.currentLevel := by
  rw [addLevelsFromSet]
  induction levels generalizing f with
  | nil => rfl
  | cons level levels ih =>
    rw [foldl_cons, ih]
    split <;> rfl

theorem hasLevel_addLevelsFromSet :
    (f.addLevelsFromSet levels).HasLevel val ↔
      f.HasLevel val ∨ ∃ level ∈ levels, level.value = val := by
  rw [addLevelsFromSet]
  induction levels generalizing f with
  | nil => simp
  | cons level levels ih =>
    rw [foldl_cons, ih]
    simp only [exists_mem_cons_iff]
    split
    case isTrue present =>
      have known := findLevel_isSome.mp present
      constructor
      · rintro (old | new)
        · exact inl old
        · exact inr (inr new)
      · rintro (old | rfl | new)
        · exact inl old
        · exact inl known
        · exact inr new
    case isFalse absent =>
      rw [hasLevel_insertLevel]
      tauto

theorem Settled.addLevelsFromSet (settled : f.Settled)
    (chosen : f.setLevels ≠ [] ∨ levels = [] ∨ ∃ level ∈ levels, level.value = f.currentLevel) :
    (f.addLevelsFromSet levels).Settled := by
  rcases chosen with some | rfl | chosen
  · exact inr (by
      rw [currentLevel_addLevelsFromSet, hasLevel_addLevelsFromSet]
      exact inl (settled.hasLevel some))
  · exact settled
  · exact inr (by
      rw [currentLevel_addLevelsFromSet, hasLevel_addLevelsFromSet]
      exact inr chosen)

end StateFlag

variable {flags others : ℕ → StateFlag}

theorem Grows.setLevels (grows : Grows flags others) (f : ℕ) :
    (others f).setLevels = (flags f).setLevels := by
  obtain ⟨_, -, same⟩ := grows f
  rw [same]

theorem Grows.settled (grows : Grows flags others)
    (settled : ∀ f, (flags f).Settled) (f : ℕ) : (others f).Settled := by
  obtain ⟨_, -, same⟩ := grows f
  rw [same]
  exact settled f

/-! ### Sequences of calls -/

namespace World

/-- The current level was one of the levels whenever it was looked up. -/
def LooksUp (w : World) : Prop := ∀ flag ∈ w.looked, flag.HasLevel flag.currentLevel

instance decidableLooksUp (w : World) : Decidable w.LooksUp :=
  inferInstanceAs (Decidable (∀ flag ∈ w.looked, _))

/-- The levels come before the flag is added to a catalog and the current one is among the first
of them, and no catalog with flags is deserialized. -/
def LevelsFirst (w : World) : Call → Prop
  | .addLevelsFromSet f levels =>
      (w.flags f).setLevels ≠ [] ∨ levels = [] ∨
        ∃ level ∈ levels, level.value = (w.flags f).currentLevel
  | .transfer src _ => (w.catalogs src).container = []
  | .catalog (.addFlag c f) =>
      (w.catalogs c).hasName (w.flags f).name ∨ (w.flags f).setLevels ≠ []
  | .catalog (.appendCatalog c src) => ∀ e ∈ (w.catalogs src).container,
      (w.catalogs c).hasName (composedName (w.catalogs src) e) ∨
        (w.flags e.statusFlag).setLevels ≠ []
  | _ => True

structure Sound (w : World) : Prop where
  settled : ∀ f, (w.flags f).Settled
  looked : w.LooksUp

namespace Sound

variable {w t : World} {c f times rhs : ℕ} {name : String} {flag : StateFlag} {call : Call}
  (hs : w.Sound)

include hs

theorem setFlag (settled : flag.Settled) : (w.setFlag f flag).Sound := by
  refine ⟨fun g => ?_, hs.looked⟩
  obtain rfl | same := eq_or_ne g f
  · simpa [World.setFlag] using settled
  · simpa [World.setFlag, same] using hs.settled g

theorem newFlag (settled : flag.Settled) : (w.newFlag flag).Sound := by
  have next : (w.setFlag w.flagCount flag).Sound := hs.setFlag settled
  exact ⟨next.settled, next.looked⟩

theorem grow (grows : Grows w.flags others)
    (flags : t.flags = others) (hl : t.looked = w.looked) : t.Sound :=
  ⟨flags ▸ grows.settled hs.settled, fun flag member => hs.looked flag (hl ▸ member)⟩

theorem look (known : flag.HasLevel flag.currentLevel) : (w.look flag times).Sound := by
  refine ⟨hs.settled, fun other member => ?_⟩
  rcases mem_append.mp member with old | new
  · exact hs.looked other old
  · exact eq_of_mem_replicate new ▸ known

theorem insertFlag (levels : (w.flags f).setLevels ≠ []) : (w.insertFlag c name f).Sound :=
  look (hs.grow (Grows.addListener w.flags f c) rfl rfl) ((hs.settled f).hasLevel levels)

theorem addNamed (levels : (w.catalogs c).hasName name ∨ (w.flags f).setLevels ≠ []) :
    (w.addNamed c name f).Sound := by
  rw [World.addNamed]
  split
  case isTrue named => exact hs
  case isFalse unnamed => exact hs.insertFlag (levels.resolve_left unnamed)

/-- The loop of `appendCatalog`: the names stay in use and the levels stay. -/
theorem append {src : ℕ} {todo : List StateFlagElement} (different : c ≠ src)
    (levels : ∀ e ∈ todo, (w.catalogs c).hasName (composedName (w.catalogs src) e) ∨
      (w.flags e.statusFlag).setLevels ≠ []) :
    (todo.foldl (fun w e => w.addNamed c (composedName (w.catalogs src) e) e.statusFlag) w).Sound :=
  by
  induction todo generalizing w with
  | nil => exact hs
  | cons e todo ih =>
    have added := added_addNamed w c (composedName (w.catalogs src) e) e.statusFlag
    refine ih (hs.addNamed (levels e (mem_cons_self ..))) fun d member => ?_
    rw [added.others src different.symm, added.grows.setLevels]
    refine (levels d (mem_cons_of_mem e member)).imp_left ?_
    rintro ⟨old, known, same⟩
    exact ⟨old, added.stays old known, same⟩

/-- The level has been found before the listeners are told. -/
theorem setCurrentLevel (level : ℤ) : (w.setCurrentLevel f level).Sound := by
  rw [World.setCurrentLevel]
  split
  case isTrue missing => exact hs
  case isFalse found =>
    split
    case isFalse same => exact hs
    case isTrue changed =>
      have hp : (w.flags f).HasLevel level :=
        StateFlag.findLevel_isSome.mp (isSome_iff_ne_none.mpr (by simpa using found))
      have known : ((w.flags f).withLevel level).HasLevel
          ((w.flags f).withLevel level).currentLevel := hp
      have next : (w.setFlag f ((w.flags f).withLevel level)).Sound := hs.setFlag (inr known)
      refine look ⟨next.settled, next.looked⟩ ?_
      simpa [World.setFlag] using known

theorem setLevels {changes : List (ℕ × ℤ)} : (w.setLevels changes).Sound := by
  induction changes generalizing w with
  | nil => exact hs
  | cons change changes ih => exact ih (hs.setCurrentLevel _)

theorem assignCatalog : (w.assignCatalog c rhs).Sound := by
  obtain ⟨others, result, grows, -⟩ := listen_spec
    (w.setCatalog c { w.catalogs rhs with bits := (w.catalogs c).bits }) c
    (w.catalogs rhs).container
  rw [World.assignCatalog, result]
  exact hs.grow grows rfl rfl

theorem catalogStep {call : CatalogCall}
    (first : w.LevelsFirst (.catalog call)) (taken : w.catalogStep call = some t) : t.Sound := by
  cases call with
  | construct name =>
    cases taken
    exact ⟨hs.settled, hs.looked⟩
  | addFlag c f =>
    obtain ⟨-, ⟨⟩⟩ := ite_none_right_eq_some.mp taken
    exact hs.addNamed first
  | appendCatalog c src =>
    obtain ⟨⟨-, -, different⟩, ⟨⟩⟩ := ite_none_right_eq_some.mp taken
    exact hs.append different first
  | setFlagStateByName c name level | setFlagStateByID c id level | setAllFlagState c level =>
    obtain ⟨-, ⟨⟩⟩ := ite_none_right_eq_some.mp taken
    exact hs.setLevels
  | setApplyRawFlagsValue c buf =>
    obtain ⟨-, ⟨⟩⟩ := ite_none_right_eq_some.mp taken
    rw [World.setApplyRawFlagsValue]
    split
    · exact hs
    · exact hs.setLevels
  | copy src =>
    obtain ⟨-, ⟨⟩⟩ := ite_none_right_eq_some.mp taken
    exact assignCatalog ⟨hs.settled, hs.looked⟩
  | assign c rhs =>
    obtain ⟨-, ⟨⟩⟩ := ite_none_right_eq_some.mp taken
    split
    · exact hs
    · exact hs.assignCatalog

theorem step (first : w.LevelsFirst call) (taken : w.step call = some t) : t.Sound := by
  cases call with
  | construct name =>
    cases taken
    have next : (w.newFlag (.construct w.nextUuid name)).Sound := hs.newFlag (inl rfl)
    exact ⟨next.settled, next.looked⟩
  | addLevel f level =>
    obtain ⟨-, ⟨⟩⟩ := ite_none_right_eq_some.mp taken
    exact hs.setFlag ((hs.settled f).addLevel level)
  | addLevelsFromSet f levels =>
    obtain ⟨-, ⟨⟩⟩ := ite_none_right_eq_some.mp taken
    exact hs.setFlag ((hs.settled f).addLevelsFromSet first)
  | setCurrentLevel f level =>
    obtain ⟨-, ⟨⟩⟩ := ite_none_right_eq_some.mp taken
    exact hs.setCurrentLevel level
  | copy f =>
    obtain ⟨-, ⟨⟩⟩ := ite_none_right_eq_some.mp taken
    exact hs.newFlag (inl rfl)
  | assign f rhs =>
    obtain ⟨-, ⟨⟩⟩ := ite_none_right_eq_some.mp taken
    exact hs.setFlag (hs.settled rhs)
  | transfer src c =>
    obtain ⟨-, ⟨⟩⟩ := ite_none_right_eq_some.mp taken
    have none : (w.serializeCatalog src).2 = [] := map_eq_nil_iff.mpr first
    rw [World.deserializeCatalog, none]
    exact ⟨hs.settled, hs.looked⟩
  | catalog call => exact hs.catalogStep first taken

end Sound

theorem sound_init : init.Sound := ⟨fun _ => inl rfl, nofun⟩

instance decidableLevelsFirst (w : World) (call : Call) : Decidable (w.LevelsFirst call) := by
  unfold LevelsFirst
  split <;> infer_instance

end World

/-- In every sequence of calls that gives flags their levels first, the current level is one of the
levels whenever a flag is added to a catalog or fired. -/
theorem looksUp_of_levelsFirst (calls : List World.Call) (t : World)
    (run : execute World.step .init calls = some t)
    (first : Admissible World.step World.LevelsFirst .init calls) : t.LooksUp :=
  (first.invariant World.Sound.step World.sound_init run).looked

/-- A flag gets its levels, is added to two catalogs and changes its level; a copy of it gets
levels of its own. -/
def copiedFlag : List World.Call :=
  [.construct "a", .addLevel 0 ⟨3, .regular⟩, .addLevelsFromSet 0 [⟨0, .high⟩],
    .catalog (.construct "A"), .catalog (.construct "B"), .catalog (.addFlag 0 0),
    .catalog (.appendCatalog 1 0), .setCurrentLevel 0 0, .copy 0, .addLevel 1 ⟨0, .regular⟩,
    .catalog (.addFlag 0 1)]

theorem looksUp_of_levelsFirst_copy :
    ∃ t, execute World.step .init copiedFlag = some t ∧ t.looked.length = 10 ∧ t.LooksUp :=
  ⟨_, rfl, by decide, looksUp_of_levelsFirst copiedFlag _ rfl (by decide)⟩

/-- A catalog with one proper flag is serialized and deserialized: the flag that
comes to the second catalog has no level when its current one is looked up. -/
theorem deserialized_without_levels :
    ∃ t, execute World.step .init [.construct "a", .addLevel 0 ⟨0, .regular⟩,
        .catalog (.construct "A"), .catalog (.addFlag 0 0), .catalog (.construct "B"),
        .transfer 0 1] = some t ∧
      (t.flags 0).HasLevel 0 ∧ (t.flags 1).setLevels = [] ∧ ¬ t.LooksUp :=
  ⟨_, rfl, by decide, by decide, by decide⟩

end ChaosFramework.Flags
