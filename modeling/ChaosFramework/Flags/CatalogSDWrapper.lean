import ChaosFramework.Flags.Catalog
import Mathlib.Data.List.TakeWhile

/-!
# The wrappers that serialize a catalog

`StateFlagCatalogSDWrapper` writes the elements of a catalog in their order, each with a flag that
`StateFlagSDWrapper` writes with its levels. The flags are read into one scratch flag, and the
catalog gets copies of it. A copy has no levels and the uuid of the scratch flag, so the container
refuses all copies but the first.

Texts are lists of characters, ended by their first null character. The bits of the severities are
not modelled here.
-/

namespace ChaosFramework.Flags.SDWrapper

open List

/-- `StateLevel`, without the counter, which is not serialized. -/
structure StateLevel where
  value : BitVec 8
  tag : List Char
  description : List Char
  severity : StateFlagServerity
  deriving DecidableEq, Repr

structure StateFlag where
  uuid : ℕ
  name : List Char
  description : List Char
  currentLevel : BitVec 8
  /-- `set_levels`, in the order of the values, which are unique. -/
  setLevels : List StateLevel
  deriving DecidableEq, Repr

/-- An element; its `seq_id` is its position in the catalog. -/
structure StateFlagElement where
  flagName : List Char
  statusFlag : StateFlag
  deriving DecidableEq, Repr

structure StateFlagCatalog where
  catalogName : List Char
  container : List StateFlagElement
  deriving DecidableEq, Repr

/-! ### The documents -/

structure LevelDocument where
  value : ℤ
  tag : List Char
  description : List Char
  severity : ℤ
  deriving DecidableEq, Repr

/-- The array of the levels is not written without a level. -/
structure FlagDocument where
  name : List Char
  description : List Char
  levelSet : Option (List LevelDocument)
  deriving DecidableEq, Repr

structure CatalogDocument where
  catalogName : List Char
  flagSet : Option (List (List Char × FlagDocument))
  deriving DecidableEq, Repr

/-- The text that `getStringValue` returns for the text that was added. -/
def getStringValue (text : List Char) : List Char := text.takeWhile (· ≠ Char.ofNat 0)

/-- What is appended to an array, which is written only if there is something. -/
def finalizeArray {α : Type*} (elements : List α) : Option (List α) :=
  if elements = [] then none else some elements

def severityCode : StateFlagServerity → ℤ
  | .regular => 0
  | .warning => 1
  | .high => 2
  | .severe => 3
  | .undefuned => 4

def severityOfCode : ℤ → StateFlagServerity
  | 0 => .regular
  | 1 => .warning
  | 2 => .high
  | 3 => .severe
  | _ => .undefuned

namespace StateLevel

def serialize (level : StateLevel) : LevelDocument :=
  ⟨level.value.toInt, level.tag, level.description, severityCode level.severity⟩

def deserialize (document : LevelDocument) : StateLevel where
  value := BitVec.ofInt 8 document.value
  tag := getStringValue document.tag
  description := getStringValue document.description
  severity := severityOfCode document.severity

end StateLevel

namespace StateFlag

def construct (uuid : ℕ) : StateFlag := ⟨uuid, [], [], 0, []⟩

/-- The copy constructor, which leaves the levels out. -/
def copy (src : StateFlag) : StateFlag := { src with setLevels := [] }

/-- `operator=`, which keeps the uuid. -/
def assign (flag rhs : StateFlag) : StateFlag := { rhs with uuid := flag.uuid }

/-- The first level becomes the current one. -/
def addLevel (flag : StateFlag) (level : StateLevel) : StateFlag :=
  if level.value ∈ flag.setLevels.map (·.value) then flag
  else
    { flag with
      setLevels := flag.setLevels.orderedInsert
        (fun first second => first.value.toInt ≤ second.value.toInt) level
      currentLevel := if flag.setLevels = [] then level.value else flag.currentLevel }

def serialize (flag : StateFlag) : FlagDocument :=
  ⟨flag.name, flag.description, finalizeArray (flag.setLevels.map StateLevel.serialize)⟩

/-- The flag of a wrapper after `deserialize`. Of a name with slashes the last part is kept. -/
def deserialize (wrapped : StateFlag) (document : FlagDocument) : StateFlag :=
  ((document.levelSet.getD []).map StateLevel.deserialize).foldl addLevel
    { wrapped with
      name := ((getStringValue document.name).reverse.takeWhile (· ≠ '/')).reverse
      description := getStringValue document.description
      setLevels := [] }

end StateFlag

namespace StateFlagCatalog

/-- The insertion fails silently if the name or the uuid is there. -/
def insert (catalog : StateFlagCatalog) (name : List Char) (flag : StateFlag) : StateFlagCatalog :=
  if ∃ e ∈ catalog.container, e.flagName = name ∨ e.statusFlag.uuid = flag.uuid then catalog
  else { catalog with container := catalog.container ++ [⟨name, flag⟩] }

/-- `serialize`, with the scratch flag, to which each flag is assigned. -/
def serialize (catalog : StateFlagCatalog) (scratch : StateFlag) : CatalogDocument where
  catalogName := catalog.catalogName
  flagSet := finalizeArray (catalog.container.map fun e =>
    (e.flagName, (scratch.assign e.statusFlag).serialize))

/-- The loop of `deserialize`. -/
def deserializeFlags (catalog : StateFlagCatalog) (scratch : StateFlag) :
    List (List Char × FlagDocument) → StateFlagCatalog
  | [] => catalog
  | (name, document) :: rest =>
      let scratch := scratch.deserialize document
      deserializeFlags (catalog.insert (getStringValue name) scratch.copy) scratch rest

/-- `deserialize` into an empty catalog. -/
def deserialize (scratch : StateFlag) (document : CatalogDocument) : StateFlagCatalog :=
  deserializeFlags ⟨getStringValue document.catalogName, []⟩ scratch (document.flagSet.getD [])

/-- The catalogs have the same name and, in the same order, the same names, descriptions and
levels of the flags. -/
structure Same (first second : StateFlagCatalog) : Prop where
  catalogName : first.catalogName = second.catalogName
  container : first.container.map (fun e =>
      (e.flagName, e.statusFlag.name, e.statusFlag.description, e.statusFlag.setLevels)) =
    second.container.map fun e =>
      (e.flagName, e.statusFlag.name, e.statusFlag.description, e.statusFlag.setLevels)

variable {cat : StateFlagCatalog} {scratch : StateFlag}

theorem getD_finalizeArray {α : Type*} (elems : List α) :
    (finalizeArray elems).getD [] = elems := by
  unfold finalizeArray
  split
  next empty => exact empty.symm
  next => rfl

theorem uuid_deserialize (doc : FlagDocument) : (scratch.deserialize doc).uuid = scratch.uuid := by
  unfold StateFlag.deserialize
  generalize (doc.levelSet.getD []).map StateLevel.deserialize = levels
  refine foldlRecOn (motive := (StateFlag.uuid · = scratch.uuid)) levels _ rfl ?_
  intro flag kept level _
  unfold StateFlag.addLevel
  split <;> exact kept

/-- A catalog with a copy of the scratch flag gets no other one. -/
theorem deserializeFlags_of_uuid {flags : List (List Char × FlagDocument)}
    (hp : ∃ e ∈ cat.container, e.statusFlag.uuid = scratch.uuid) :
    cat.deserializeFlags scratch flags = cat := by
  induction flags generalizing scratch with
  | nil => rfl
  | cons flag flags ih =>
    obtain ⟨e, member, same⟩ := hp
    have known : e.statusFlag.uuid = (scratch.deserialize flag.2).uuid :=
      same.trans (uuid_deserialize flag.2).symm
    have refused : cat.insert (getStringValue flag.1) (scratch.deserialize flag.2).copy =
        cat := if_pos ⟨e, member, .inr known⟩
    rw [deserializeFlags, refused]
    exact ih ⟨e, member, known⟩

/-- Of all the flags the first one is read, and without its levels. -/
theorem deserialize_serialize (writer reader : StateFlag) :
    deserialize reader (cat.serialize writer) = ⟨getStringValue cat.catalogName,
      (cat.container.take 1).map fun e => ⟨getStringValue e.flagName,
        (reader.deserialize (writer.assign e.statusFlag).serialize).copy⟩⟩ := by
  rw [deserialize, serialize, getD_finalizeArray]
  cases cat.container with
  | nil => rfl
  | cons e rest =>
    rw [map_cons, deserializeFlags, deserializeFlags_of_uuid]
    · rfl
    · exact ⟨_, mem_singleton_self _, rfl⟩

theorem getStringValue_eq_self {text : List Char} :
    text = getStringValue text ↔ Char.ofNat 0 ∉ text := by
  rw [eq_comm, getStringValue, takeWhile_eq_self_iff]
  simp only [decide_eq_true_eq]
  exact ⟨fun other member => other _ member rfl,
    fun absent _ member => ne_of_mem_of_not_mem member absent⟩

/-- A catalog comes back the same exactly when it has no flags and no null character in its
name. -/
theorem same_deserialize_iff (catalog : StateFlagCatalog) (writer reader : StateFlag)
    (levels : ∀ e ∈ catalog.container, e.statusFlag.setLevels ≠ []) :
    catalog.Same (deserialize reader (catalog.serialize writer)) ↔
      catalog.container = [] ∧ Char.ofNat 0 ∉ catalog.catalogName := by
  rw [deserialize_serialize, ← getStringValue_eq_self]
  constructor
  · rintro ⟨name, container⟩
    refine ⟨?_, name⟩
    cases first : catalog.container with
    | nil => rfl
    | cons e rest =>
      -- the copy of the first flag has no levels
      rw [first] at container levels
      simp only [map_cons, take_succ_cons, List.cons.injEq, Prod.mk.injEq] at container
      exact absurd container.1.2.2.2 (levels e mem_cons_self)
  · rintro ⟨empty, name⟩
    refine ⟨name, ?_⟩
    rw [empty]
    rfl

theorem same_deserialize_iff_empty :
    Same ⟨['a'], []⟩ (deserialize (.construct 2) (serialize ⟨['a'], []⟩ (.construct 1))) ∧
      ¬ Same ⟨['a'], [⟨['b'], ⟨3, ['b'], [], 0, [⟨0, ['t'], [], .high⟩]⟩⟩]⟩
        (deserialize (.construct 2) (serialize
          ⟨['a'], [⟨['b'], ⟨3, ['b'], [], 0, [⟨0, ['t'], [], .high⟩]⟩⟩]⟩ (.construct 1))) := by
  constructor
  · exact (same_deserialize_iff ⟨['a'], []⟩ (.construct 1) (.construct 2) nofun).mpr
      ⟨rfl, by decide⟩
  · intro same
    have flagless := (same_deserialize_iff _ (.construct 1) (.construct 2) (by simp)).mp same
    exact cons_ne_nil _ _ flagless.1

/-- Of two flags one comes back, without its level and with a part of its name. -/
theorem levels_lost :
    deserialize (.construct 4) (serialize ⟨['c'],
        [⟨['a', '/', 'b'], ⟨1, ['a', '/', 'b'], [], 0, [⟨0, ['t'], [], .high⟩]⟩⟩,
          ⟨['d'], ⟨2, ['d'], [], 0, [⟨0, ['t'], [], .high⟩]⟩⟩]⟩ (.construct 3)) =
      ⟨['c'], [⟨['a', '/', 'b'], ⟨4, ['b'], [], 0, []⟩⟩]⟩ := by
  decide

end StateFlagCatalog

end ChaosFramework.Flags.SDWrapper
