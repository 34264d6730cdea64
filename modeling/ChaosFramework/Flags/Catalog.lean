import ChaosFramework.Transition
import Mathlib.Data.Finset.Card
import Mathlib.Data.List.Sort

/-!
# State flags and their catalogs

A `StateFlag` has levels, of which one is the current one, and listeners that it tells about a
change of its level. A `StateFlagCatalog` is a listener: it holds flags, which other catalogs may
hold as well, and keeps for every severity a bitset with one bit for each of them.

The model has a heap of flags and catalogs (`World`), which are named by numbers. As in the code,
the elements of a catalog, in a container whose insertion fails silently when a key is present, are
kept apart from the bitsets.

The look-up of the current level dereferences the iterator of a `find` without comparing it with the
end. `World.looked` keeps the flags for which it was done; behind the end the model goes on without
a severity.
-/

namespace ChaosFramework.Flags

/-! ### Flags -/

/-- `StateFlagServerity`. The last one is the bound of the loops over the others. -/
inductive StateFlagServerity
  | regular | warning | high | severe | undefuned
  deriving DecidableEq, Repr

/-- The severities that the loops run through. -/
def severities : List StateFlagServerity := [.regular, .warning, .high, .severe]

structure StateLevel where
  value : ℤ
  severity : StateFlagServerity
  deriving DecidableEq, Repr

structure StateFlag where
  uuid : ℕ
  name : String
  currentLevel : ℤ
  /-- `set_levels`, in the order of the values, which are unique. -/
  setLevels : List StateLevel
  /-- The catalogs that listen to the flag. -/
  listeners : Finset ℕ
  deriving DecidableEq

namespace StateFlag

def construct (uuid : ℕ) (name : String) : StateFlag := ⟨uuid, name, 0, [], ∅⟩

def findLevel (f : StateFlag) (value : ℤ) : Option StateLevel :=
  f.setLevels.find? fun level => level.value == value

def insertLevel (f : StateFlag) (level : StateLevel) : StateFlag :=
  { f with
    setLevels := f.setLevels.orderedInsert (fun first second => first.value ≤ second.value) level }

/-- The first level becomes the current one. -/
def addLevel (f : StateFlag) (level : StateLevel) : StateFlag :=
  if (f.findLevel level.value).isSome then f
  else if f.setLevels.length + 1 = 1 then
    { f.insertLevel level with currentLevel := level.value }
  else f.insertLevel level

/-- Here no level becomes the current one. -/
def addLevelsFromSet (f : StateFlag) (levels : List StateLevel) : StateFlag :=
  levels.foldl
    (fun f level => if (f.findLevel level.value).isSome then f else f.insertLevel level) f

/-- `none` when the end iterator is dereferenced. -/
def getCurrentStateLevel (f : StateFlag) : Option StateLevel := f.findLevel f.currentLevel

/-- The severity of the current level. -/
def severity (f : StateFlag) : Option StateFlagServerity :=
  f.getCurrentStateLevel.map StateLevel.severity

/-- The copy constructor: neither the levels nor the listeners are copied, the uuid is. -/
def copy (f : StateFlag) : StateFlag := ⟨f.uuid, f.name, f.currentLevel, [], ∅⟩

/-- `operator=` -/
def assign (f rhs : StateFlag) : StateFlag :=
  { f with name := rhs.name, currentLevel := rhs.currentLevel, setLevels := rhs.setLevels }

def withLevel (f : StateFlag) (level : ℤ) : StateFlag := { f with currentLevel := level }

def addListener (f : StateFlag) (catalog : ℕ) : StateFlag :=
  { f with listeners := insert catalog f.listeners }

end StateFlag

/-- What `StateFlagSDWrapper` writes of a flag. -/
structure SerializedFlag where
  name : String
  levels : List StateLevel
  deriving DecidableEq

namespace SerializedFlag

def serialize (f : StateFlag) : SerializedFlag := ⟨f.name, f.setLevels⟩

/-- The flag of a wrapper after `deserialize`. A composed name is cut to its last part. -/
def deserialize (wrapped : StateFlag) (data : SerializedFlag) : StateFlag :=
  data.levels.foldl StateFlag.addLevel
    { wrapped with name := (data.name.splitOn "/").getLastD "", setLevels := [] }

end SerializedFlag

/-! ### Catalogs -/

structure StateFlagElement where
  seqId : ℕ
  flagName : String
  /-- The flag, which is shared. -/
  statusFlag : ℕ
  deriving DecidableEq, Repr

structure StateFlagCatalog where
  catalogName : String
  /-- `catalog_container`, in the order of `seq_id`. -/
  container : List StateFlagElement
  /-- `map_severity_bf_flag`. It is read with `operator[]`: a missing entry is an empty bitset. -/
  bits : StateFlagServerity → List Bool

namespace StateFlagCatalog

def construct (name : String) : StateFlagCatalog := ⟨name, [], fun _ => []⟩

def hasName (c : StateFlagCatalog) (name : String) : Prop :=
  ∃ e ∈ c.container, e.flagName = name

instance decidableHasName (c : StateFlagCatalog) (name : String) : Decidable (c.hasName name) :=
  inferInstanceAs (Decidable (∃ e ∈ c.container, _))

def hasUuid (c : StateFlagCatalog) (flags : ℕ → StateFlag) (uuid : ℕ) : Prop :=
  ∃ e ∈ c.container, (flags e.statusFlag).uuid = uuid

instance decidableHasUuid (c : StateFlagCatalog) (flags : ℕ → StateFlag) (uuid : ℕ) :
    Decidable (c.hasUuid flags uuid) :=
  inferInstanceAs (Decidable (∃ e ∈ c.container, _))

def hasSeqId (c : StateFlagCatalog) (seqId : ℕ) : Prop := ∃ e ∈ c.container, e.seqId = seqId

instance decidableHasSeqId (c : StateFlagCatalog) (seqId : ℕ) : Decidable (c.hasSeqId seqId) :=
  inferInstanceAs (Decidable (∃ e ∈ c.container, _))

/-- The three indexes of the container are unique: an insertion with a key that is present
does nothing. The new `seq_id` is the size of the container, so the element is the last one. -/
def insert (c : StateFlagCatalog) (flags : ℕ → StateFlag) (name : String) (flag : ℕ) :
    StateFlagCatalog :=
  if c.hasSeqId c.container.length ∨ c.hasName name ∨ c.hasUuid flags (flags flag).uuid then c
  else { c with container := c.container ++ [⟨c.container.length, name, flag⟩] }

def addMemberToSeverityMap (c : StateFlagCatalog) (flag : StateFlag) : StateFlagCatalog :=
  { c with
    bits := fun s => if s ∈ severities then c.bits s ++ [flag.severity == some s] else c.bits s }

/-- The bits of a flag that says it has changed. They are found by its uuid. -/
def stateFlagUpdated (c : StateFlagCatalog) (flags : ℕ → StateFlag) (flag : StateFlag) :
    StateFlagCatalog :=
  match c.container.find? fun e => (flags e.statusFlag).uuid == flag.uuid with
  | none => c
  | some e =>
      { c with
        bits := fun s =>
          if s ∈ severities then (c.bits s).set e.seqId (flag.severity == some s) else c.bits s }

/-- `none` is the empty pointer. -/
def getFlagByOrderedID (c : StateFlagCatalog) (id : ℕ) : Option ℕ :=
  (c.container.find? fun e => e.seqId == id).map StateFlagElement.statusFlag

def getFlagsForSeverity (c : StateFlagCatalog) (s : StateFlagServerity) : List (Option ℕ) :=
  ((c.bits s).zipIdx.filter Prod.fst).map fun bit => c.getFlagByOrderedID bit.2

/-- `AlarmCatalog::isCatalogClear` -/
def isCatalogClear (c : StateFlagCatalog) : Bool :=
  c.container.length == (c.getFlagsForSeverity .regular).length

end StateFlagCatalog

/-! ### The heap -/

structure World where
  flags : ℕ → StateFlag
  /-- The flags below are constructed. -/
  flagCount : ℕ
  /-- The next result of `generateUUIDLite`. -/
  nextUuid : ℕ
  catalogs : ℕ → StateFlagCatalog
  catalogCount : ℕ
  /-- The flags of which `getCurrentStateLevel` was called, as they were then. -/
  looked : List StateFlag

namespace World

def setFlag (w : World) (f : ℕ) (flag : StateFlag) : World :=
  { w with flags := Function.update w.flags f flag }

def setCatalog (w : World) (c : ℕ) (catalog : StateFlagCatalog) : World :=
  { w with catalogs := Function.update w.catalogs c catalog }

def look (w : World) (flag : StateFlag) (times : ℕ) : World :=
  { w with looked := w.looked ++ List.replicate times flag }

/-- What `addFlag`, `appendCatalog` and the deserialization do with a flag: the bits are pushed
whether the insertion has succeeded or not. -/
def insertFlag (w : World) (c : ℕ) (name : String) (f : ℕ) : World :=
  let inserted := (w.catalogs c).insert w.flags name f
  ((w.setCatalog c (inserted.addMemberToSeverityMap (w.flags f))).setFlag f
    ((w.flags f).addListener c)).look (w.flags f) severities.length

/-- A flag that is added under a name, unless the name is in use. -/
def addNamed (w : World) (c : ℕ) (name : String) (f : ℕ) : World :=
  if (w.catalogs c).hasName name then w else w.insertFlag c name f

def addFlag (w : World) (c f : ℕ) : World := w.addNamed c (w.flags f).name f

def composedName (catalog : StateFlagCatalog) (e : StateFlagElement) : String :=
  catalog.catalogName ++ "/" ++ e.flagName

def appendCatalog (w : World) (c src : ℕ) : World :=
  (w.catalogs src).container.foldl
    (fun w e => w.addNamed c (composedName (w.catalogs src) e) e.statusFlag) w

/-- Every listener is told. They are different objects, so their order does not matter. -/
def fire (w : World) (f : ℕ) : World :=
  let flag := w.flags f
  { w with
    catalogs := fun c =>
      if c ∈ flag.listeners then (w.catalogs c).stateFlagUpdated w.flags flag else w.catalogs c
  }.look flag flag.listeners.card

def setCurrentLevel (w : World) (f : ℕ) (level : ℤ) : World :=
  let flag := w.flags f
  if (flag.findLevel level).isNone then w
  else if flag.currentLevel ≠ level then
    (w.setFlag f (flag.withLevel level)).fire f
  else w

/-- `setCurrentLevel` on several flags, one after the other. -/
def setLevels (w : World) (changes : List (ℕ × ℤ)) : World :=
  changes.foldl (fun w change => w.setCurrentLevel change.1 change.2) w

/-- `setFlagState` for an element that was looked up. -/
def setFlagState (w : World) (e : Option StateFlagElement) (level : ℤ) : World :=
  w.setLevels (e.toList.map fun e => (e.statusFlag, level))

def setAllFlagState (w : World) (c : ℕ) (level : ℤ) : World :=
  w.setLevels ((w.catalogs c).container.map fun e => (e.statusFlag, level))

/-- The inner loop sets all the flags, and it is run once for each byte of the buffer. -/
def setApplyRawFlagsValue (w : World) (c : ℕ) (buffer : List ℤ) : World :=
  let container := (w.catalogs c).container
  if buffer.length ≠ container.length then w
  else
    w.setLevels (List.replicate buffer.length
      (container.map fun e => (e.statusFlag, buffer.getD e.seqId 0))).flatten

/-- `operator=` of the catalog: the name and the elements are copied, the bitsets are not, and the
catalog goes on listening to the flags that it had. -/
def assignCatalog (w : World) (c rhs : ℕ) : World :=
  let source := w.catalogs rhs
  let copied := w.setCatalog c { source with bits := (w.catalogs c).bits }
  source.container.foldl
    (fun w e => w.setFlag e.statusFlag ((w.flags e.statusFlag).addListener c)) copied

/-- The copy constructor assigns to an object whose map of bitsets is empty. -/
def copyCatalog (w : World) (src : ℕ) : World :=
  { w.setCatalog w.catalogCount (.construct "") with
    catalogCount := w.catalogCount + 1 }.assignCatalog w.catalogCount src

/-! ### Calls -/

/-- The calls that go through a catalog. -/
inductive CatalogCall
  | construct (name : String)
  | addFlag (c f : ℕ)
  | appendCatalog (c src : ℕ)
  | setFlagStateByName (c : ℕ) (name : String) (level : ℤ)
  | setFlagStateByID (c id : ℕ) (level : ℤ)
  | setAllFlagState (c : ℕ) (level : ℤ)
  | setApplyRawFlagsValue (c : ℕ) (buffer : List ℤ)
  | copy (src : ℕ)
  | assign (c rhs : ℕ)
  deriving DecidableEq, Repr

/-- A call is enabled when the objects exist. A catalog that is appended to itself waits for the
read lock while it has the write lock. -/
def catalogStep (w : World) : CatalogCall → Option World
  | .construct name =>
      some { w.setCatalog w.catalogCount (.construct name) with catalogCount := w.catalogCount + 1 }
  | .addFlag c f =>
      if c < w.catalogCount ∧ f < w.flagCount then some (w.addFlag c f) else none
  | .appendCatalog c src =>
      if c < w.catalogCount ∧ src < w.catalogCount ∧ c ≠ src then some (w.appendCatalog c src)
      else none
  | .setFlagStateByName c name level =>
      if c < w.catalogCount then
        some (w.setFlagState ((w.catalogs c).container.find? (·.flagName == name)) level)
      else none
  | .setFlagStateByID c id level =>
      if c < w.catalogCount then
        some (w.setFlagState ((w.catalogs c).container.find? (·.seqId == id)) level)
      else none
  | .setAllFlagState c level =>
      if c < w.catalogCount then some (w.setAllFlagState c level) else none
  | .setApplyRawFlagsValue c buffer =>
      if c < w.catalogCount then some (w.setApplyRawFlagsValue c buffer) else none
  | .copy src => if src < w.catalogCount then some (w.copyCatalog src) else none
  | .assign c rhs =>
      if c < w.catalogCount ∧ rhs < w.catalogCount then
        some (if c = rhs then w else w.assignCatalog c rhs)
      else none

end World

end ChaosFramework.Flags
