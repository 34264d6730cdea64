import Mathlib.Data.List.Nodup
import Mathlib.Data.Nat.Basic
import Mathlib.Order.Basic
import ChaosFramework.Transition
import ChaosFramework.UniqueIndex

/-!
# Instances of drivers

`DriverManager` hands out accessors. Requests with the same alias, version and hardware parameter
share an instance of the driver, which lives as long as one of its accessors is not released.

The instances are found by a string in which the three parts follow each other without a separator.
When the initialization of a new instance throws, nobody deletes it. An accessor finds its instance
by a uuid, which is the first part of a random one. Apart from this every instance is shared by
those who asked for it, and is initialized and deinitialized once.
-/

namespace ChaosFramework.Driver

open Transition UniqueIndex Function

structure DrvRequestInfo where
  driverAlias : String
  version : String
  initParameter : String
  deriving DecidableEq, Repr

/-- What the parser of JSON documents finds in an initialization parameter: the texts of the
documents under `driver_param` and `device_param`. -/
structure InitDocument where
  driverParam : Option String
  deviceParam : Option String
  deriving DecidableEq, Repr

abbrev Parser := String → InitDocument

/-- What identifies an instance. -/
structure Hardware where
  driverAlias : String
  version : String
  parameter : String
  deriving DecidableEq, Repr

/-- The hardware that is requested. -/
def DrvRequestInfo.hardware (parse : Parser) (r : DrvRequestInfo) : Hardware :=
  ⟨r.driverAlias, r.version, (parse r.initParameter).driverParam.getD r.initParameter⟩

/-- `stringForMap`. -/
def Hardware.identificationString (h : Hardware) : String :=
  h.driverAlias ++ h.version ++ h.parameter

structure AbstractDriver where
  driverUuid : String
  identificationString : String
  /-- The number of the instancer that has made it. -/
  instancer : ℕ
  accessorCount : ℕ
  /-- The accessors, by their numbers. -/
  accessors : List ℕ
  /-- How often `init` and `deinit` have been called. -/
  inits : ℕ
  deinits : ℕ
  deleted : Bool
  deriving DecidableEq, Repr

structure DriverAccessor where
  driverUuid : String
  accessorIndex : ℕ
  /-- The command queue, by the number of the instance that owns it. -/
  commandQueue : ℕ
  deviceParam : Option String
  deriving DecidableEq, Repr

structure DriverManager where
  drivers : ℕ → AbstractDriver
  nextDriver : ℕ
  accessors : ℕ → DriverAccessor
  nextAccessor : ℕ
  mapDriverAliasVersionInstancer : String → Option ℕ
  mapParameterLiveInstance : String → Option ℕ
  mapDriverUUIDHashLiveInstance : String → Option ℕ
  /-- An accessor was erased from a vector in which it is not. -/
  corrupted : Bool

namespace DriverManager

def init : DriverManager where
  drivers _ := ⟨"", "", 0, 0, [], 0, 0, false⟩
  nextDriver := 0
  accessors _ := ⟨"", 0, 0, none⟩
  nextAccessor := 0
  mapDriverAliasVersionInstancer _ := none
  mapParameterLiveInstance _ := none
  mapDriverUUIDHashLiveInstance _ := none
  corrupted := false

/-- The first registration of a name stays. Without an instancer or a description an exception is
thrown. -/
def registerDriver (m : DriverManager) (instancer : Option ℕ)
    (description : Option (String × String)) : DriverManager :=
  match instancer, description with
  | some instancer, some (name, version) =>
      match m.mapDriverAliasVersionInstancer (name ++ version) with
      | some _ => m
      | none =>
          { m with
            mapDriverAliasVersionInstancer :=
              update m.mapDriverAliasVersionInstancer (name ++ version) (some instancer) }
  | _, _ => m

/-- `AbstractDriver::getNewAccessor`, with the parameter that the manager sets. -/
def getNewAccessor (m : DriverManager) (i : ℕ) (deviceParam : Option String) : DriverManager :=
  { m with
    accessors := update m.accessors m.nextAccessor
      ⟨(m.drivers i).driverUuid, (m.drivers i).accessorCount, i, deviceParam⟩
    nextAccessor := m.nextAccessor + 1
    drivers := update m.drivers i
      { m.drivers i with
        accessorCount := (m.drivers i).accessorCount + 1
        accessors := (m.drivers i).accessors ++ [m.nextAccessor] } }

/-- A new instance, after the call of its `init`. -/
def createDriver (m : DriverManager) (uuid identification : String) (instancer : ℕ) :
    DriverManager :=
  { m with
    drivers := update m.drivers m.nextDriver
      ⟨uuid, identification, instancer, 0, [], 1, 0, false⟩
    nextDriver := m.nextDriver + 1 }

/-- An insertion does not replace what is there. -/
def insertNew (map : String → Option ℕ) (key : String) (i : ℕ) : String → Option ℕ :=
  match map key with
  | some _ => map
  | none => update map key (some i)

/-- The new instance is put into the maps. -/
def publishDriver (m : DriverManager) (i : ℕ) : DriverManager :=
  { m with
    mapParameterLiveInstance :=
      insertNew m.mapParameterLiveInstance (m.drivers i).identificationString i
    mapDriverUUIDHashLiveInstance :=
      insertNew m.mapDriverUUIDHashLiveInstance (m.drivers i).driverUuid i }

/-- The uuid is drawn when an instance is made, and `returns` says that its `init` does not throw.
The second component is the accessor, or none when an exception is thrown. -/
def getNewAccessorForDriverInstance (parse : Parser) (m : DriverManager) (r : DrvRequestInfo)
    (uuid : String) (returns : Bool) : DriverManager × Option ℕ :=
  let stringForMap := (r.hardware parse).identificationString
  let deviceParam := (parse r.initParameter).deviceParam
  match m.mapParameterLiveInstance stringForMap with
  | some i => (m.getNewAccessor i deviceParam, some m.nextAccessor)
  | none =>
      match m.mapDriverAliasVersionInstancer (r.driverAlias ++ r.version) with
      | none => (m, none)
      | some instancer =>
          let created := m.createDriver uuid stringForMap instancer
          if returns then
            ((created.publishDriver m.nextDriver).getNewAccessor m.nextDriver deviceParam,
              some m.nextAccessor)
          else (created, none)

/-- `AbstractDriver::releaseAccessor`. The accessor is erased at the place where it is found. -/
def eraseAccessor (m : DriverManager) (i a : ℕ) : DriverManager :=
  if a ∈ (m.drivers i).accessors then
    { m with
      drivers := update m.drivers i
        { m.drivers i with accessors := (m.drivers i).accessors.erase a } }
  else { m with corrupted := true }

/-- An instance without accessors is deinitialized, whatever `deinit` throws, and deleted. -/
def disposeDriver (m : DriverManager) (i : ℕ) : DriverManager :=
  { m with
    mapParameterLiveInstance :=
      update m.mapParameterLiveInstance (m.drivers i).identificationString none
    mapDriverUUIDHashLiveInstance :=
      update m.mapDriverUUIDHashLiveInstance (m.drivers i).driverUuid none
    drivers := update m.drivers i
      { m.drivers i with deinits := (m.drivers i).deinits + 1, deleted := true } }

def releaseAccessor (m : DriverManager) (a : ℕ) : DriverManager :=
  match m.mapDriverUUIDHashLiveInstance (m.accessors a).driverUuid with
  | none => m
  | some i =>
      let erased := m.eraseAccessor i a
      if (erased.drivers i).accessors = [] then erased.disposeDriver i else erased

/-- The instances that exist. -/
def alive (m : DriverManager) : List ℕ :=
  (List.range m.nextDriver).filter fun i => (m.drivers i).deleted = false

theorem mem_alive {m : DriverManager} {i : ℕ} :
    i ∈ m.alive ↔ i < m.nextDriver ∧ (m.drivers i).deleted = false := by
  simp [alive]

end DriverManager

/-! ### Sequences of calls -/

inductive Request
  | registerDriver (instancer : Option ℕ) (description : Option (String × String))
  | getNewAccessorForDriverInstance (info : DrvRequestInfo) (uuid : String) (returns : Bool)
  | releaseAccessor (accessor : ℕ)
  deriving DecidableEq, Repr

/-- How an accessor was requested and what has become of it. -/
structure Lease where
  hardware : Hardware
  /-- The instances that existed before the request. -/
  alive : List ℕ
  released : Bool
  deriving DecidableEq, Repr

/-- A manager, with the leases of the accessors. -/
structure Usage where
  manager : DriverManager
  leases : ℕ → Lease

namespace Usage

def init : Usage := ⟨.init, fun _ => ⟨⟨"", "", ""⟩, [], true⟩⟩

/-- An accessor that has not been released. -/
def InUse (s : Usage) (a : ℕ) : Prop :=
  a < s.manager.nextAccessor ∧ (s.leases a).released = false

instance decidableInUse (s : Usage) (a : ℕ) : Decidable (s.InUse a) :=
  inferInstanceAs (Decidable (_ ∧ _))

/-- An accessor is released by those who have it. -/
def step (parse : Parser) (s : Usage) : Request → Option Usage
  | .registerDriver instancer description =>
      some { s with manager := s.manager.registerDriver instancer description }
  | .getNewAccessorForDriverInstance info uuid returns =>
      match s.manager.getNewAccessorForDriverInstance parse info uuid returns with
      | (manager, none) => some { s with manager }
      | (manager, some a) =>
          some ⟨manager,
            update s.leases a ⟨info.hardware parse, s.manager.alive, false⟩⟩
  | .releaseAccessor a =>
      if s.InUse a then
        some ⟨s.manager.releaseAccessor a,
          update s.leases a { s.leases a with released := true }⟩
      else none

/-- The instance that an accessor belongs to. -/
def instanceOf (s : Usage) (a : ℕ) : ℕ := (s.manager.accessors a).commandQueue

structure Sound (s : Usage) : Prop where
  /-- A later accessor shares the instance of an earlier one if it was requested for the same
  hardware while the instance existed. -/
  shared : ∀ a b, a < b → b < s.manager.nextAccessor →
    (s.instanceOf a = s.instanceOf b ↔
      (s.leases a).hardware = (s.leases b).hardware ∧ s.instanceOf a ∈ (s.leases b).alive)
  needed : ∀ i < s.manager.nextDriver,
    i ∈ s.manager.alive ↔ ∃ a, s.InUse a ∧ s.instanceOf a = i
  initialized : ∀ i < s.manager.nextDriver, (s.manager.drivers i).inits = 1
  deinitialized : ∀ i < s.manager.nextDriver,
    (s.manager.drivers i).deinits = if i ∈ s.manager.alive then 0 else 1
  intact : s.manager.corrupted = false

/-- A new instance is made for the request. -/
def Creates (parse : Parser) (s : Usage) (info : DrvRequestInfo) : Prop :=
  s.manager.mapParameterLiveInstance (info.hardware parse).identificationString = none ∧
    (s.manager.mapDriverAliasVersionInstancer (info.driverAlias ++ info.version)).isSome

instance decidableCreates (parse : Parser) (s : Usage) (info : DrvRequestInfo) :
    Decidable (s.Creates parse info) :=
  inferInstanceAs (Decidable (_ ∧ _))

/-- The string of the request is not that of other hardware in use, and a new instance can be
initialized and has a uuid of its own. -/
def Careful (parse : Parser) (s : Usage) : Request → Prop
  | .getNewAccessorForDriverInstance info uuid returns =>
      (∀ a < s.manager.nextAccessor, (s.leases a).released = false →
        (s.leases a).hardware.identificationString = (info.hardware parse).identificationString →
          (s.leases a).hardware = info.hardware parse) ∧
      (s.Creates parse info →
        returns = true ∧ s.manager.mapDriverUUIDHashLiveInstance uuid = none)
  | _ => True

instance decidableCareful (parse : Parser) (s : Usage) (r : Request) :
    Decidable (s.Careful parse r) := by
  unfold Careful
  split <;> infer_instance

/-! ### The invariant -/

/-- The maps find the instances that are alive. -/
structure Listed (s : Usage) : Prop where
  byString : Indexes s.manager.mapParameterLiveInstance (· ∈ s.manager.alive)
    fun i => (s.manager.drivers i).identificationString
  byUuid : Indexes s.manager.mapDriverUUIDHashLiveInstance (· ∈ s.manager.alive)
    fun i => (s.manager.drivers i).driverUuid

/-- The instances that are alive know their accessors. -/
structure Attached (s : Usage) : Prop where
  members : ∀ i ∈ s.manager.alive, ∀ a,
    a ∈ (s.manager.drivers i).accessors ↔ s.InUse a ∧ s.instanceOf a = i
  nodup : ∀ i ∈ s.manager.alive, (s.manager.drivers i).accessors.Nodup
  used : ∀ a, s.InUse a → s.instanceOf a ∈ s.manager.alive

/-- The accessors know their instances, and share them with those that were requested for the same
hardware. -/
structure Traced (s : Usage) : Prop where
  old : ∀ a < s.manager.nextAccessor, s.instanceOf a < s.manager.nextDriver
  uuid : ∀ a < s.manager.nextAccessor,
    (s.manager.accessors a).driverUuid = (s.manager.drivers (s.instanceOf a)).driverUuid
  string : ∀ a < s.manager.nextAccessor, (s.leases a).hardware.identificationString =
    (s.manager.drivers (s.instanceOf a)).identificationString
  shared : ∀ a b, a < b → b < s.manager.nextAccessor →
    (s.instanceOf a = s.instanceOf b ↔
      (s.leases a).hardware = (s.leases b).hardware ∧ s.instanceOf a ∈ (s.leases b).alive)

/-- Every instance is initialized once, and deinitialized once when it ends. -/
structure Counted (s : Usage) : Prop where
  initialized : ∀ i < s.manager.nextDriver, (s.manager.drivers i).inits = 1
  deinitialized : ∀ i < s.manager.nextDriver,
    (s.manager.drivers i).deinits = if i ∈ s.manager.alive then 0 else 1
  intact : s.manager.corrupted = false

/-- The maps, the instances and the leases agree. An instance may be without accessors. -/
structure Linked (s : Usage) : Prop extends Listed s, Attached s, Traced s, Counted s

/-- No instance is without accessors. -/
def Needed (s : Usage) : Prop := ∀ i ∈ s.manager.alive, (s.manager.drivers i).accessors ≠ []

variable {s : Usage}

theorem Linked.sound (hl : Linked s) (hn : Needed s) : Sound s where
  shared := hl.shared
  needed i _ := by
    constructor
    · intro ha
      obtain ⟨a, hm⟩ := List.exists_mem_of_ne_nil _ (hn i ha)
      exact ⟨a, (hl.members i ha a).mp hm⟩
    · rintro ⟨a, inUse, rfl⟩
      exact hl.used a inUse
  initialized := hl.initialized
  deinitialized := hl.deinitialized
  intact := hl.intact

theorem linked_init : Linked init where
  byString := ⟨fun _ _ => nofun, fun _ => nofun⟩
  byUuid := ⟨fun _ _ => nofun, fun _ => nofun⟩
  members := fun _ => nofun
  nodup := fun _ => nofun
  used := fun _ inUse => absurd inUse.1 (Nat.not_lt_zero _)
  old := fun _ small => absurd small (Nat.not_lt_zero _)
  uuid := fun _ small => absurd small (Nat.not_lt_zero _)
  string := fun _ small => absurd small (Nat.not_lt_zero _)
  shared := fun _ _ _ small => absurd small (Nat.not_lt_zero _)
  initialized := fun _ small => absurd small (Nat.not_lt_zero _)
  deinitialized := fun _ small => absurd small (Nat.not_lt_zero _)
  intact := rfl

end Usage

end ChaosFramework.Driver
