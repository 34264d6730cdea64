import ChaosFramework.Driver.InstanceLinks

/-!
# Shared instances

Every call of the driver manager keeps the instances and their accessors linked, as long as it is
careful (`Usage.linked_step`), and so does every sequence of calls (`Usage.sound_of_careful`).
-/

namespace ChaosFramework.Driver

open Transition

namespace Usage

variable {s t : Usage}

/-- The condition of a request keeps different hardware apart: the instance that a request finds is
one of the same hardware. -/
theorem Linked.hardware_eq (hl : Linked s) (hn : Needed s) {hw : Hardware} {i : ℕ}
    (apart : ∀ a < s.manager.nextAccessor, (s.leases a).released = false →
      (s.leases a).hardware.identificationString = hw.identificationString →
        (s.leases a).hardware = hw)
    (hf : s.manager.mapParameterLiveInstance hw.identificationString = some i) :
    ∀ a < s.manager.nextAccessor, s.instanceOf a = i → (s.leases a).hardware = hw := by
  obtain ⟨ha, string⟩ := hl.byString.found _ i hf
  obtain ⟨b, hm⟩ := List.exists_mem_of_ne_nil _ (hn i ha)
  obtain ⟨inUse, own⟩ := (hl.members i ha b).mp hm
  have hardwareB : (s.leases b).hardware = hw := by
    apply apart b inUse.1 inUse.2
    rw [hl.string b inUse.1, own, string]
  intro a small ownA
  -- Accessors of one instance have been requested for the same hardware, whichever came first.
  rcases lt_trichotomy a b with hb | same | after
  · rw [((hl.shared a b hb inUse.1).mp (ownA.trans own.symm)).1, hardwareB]
  · rw [same, hardwareB]
  · rw [← ((hl.shared b a after small).mp (own.trans ownA.symm)).1, hardwareB]

theorem linked_register (hl : Linked s) (hn : Needed s) (inst : Option ℕ)
    (descr : Option (String × String)) :
    Linked { s with manager := s.manager.registerDriver inst descr } ∧
      Needed { s with manager := s.manager.registerDriver inst descr } := by
  unfold DriverManager.registerDriver
  split
  · split
    · exact ⟨hl, hn⟩
    · exact ⟨⟨⟨hl.byString, hl.byUuid⟩, ⟨hl.members, hl.nodup, hl.used⟩,
        ⟨hl.old, hl.uuid, hl.string, hl.shared⟩,
        ⟨hl.initialized, hl.deinitialized, hl.intact⟩⟩, hn⟩
  · exact ⟨hl, hn⟩

section Get

variable {parse : Parser} {info : DrvRequestInfo} {uuid : String} {rets : Bool}

theorem linked_get (hl : Linked s) (hn : Needed s)
    (hc : s.Careful parse (.getNewAccessorForDriverInstance info uuid rets))
    (taken : s.step parse (.getNewAccessorForDriverInstance info uuid rets) = some t) :
    Linked t ∧ Needed t := by
  obtain ⟨apart, new⟩ := hc
  cases hf : s.manager.mapParameterLiveInstance (info.hardware parse).identificationString with
  | some i =>
    simp only [step, DriverManager.getNewAccessorForDriverInstance, hf] at taken
    cases taken
    obtain ⟨ha, string⟩ := hl.byString.found _ i hf
    refine ⟨lease_linked hl ha string.symm fun a small => ?_,
      lease_needed fun j isAliveToo _ => hn j isAliveToo⟩
    constructor
    · intro own
      exact ⟨hl.hardware_eq hn apart hf a small own, own ▸ ha⟩
    · rintro ⟨hardware, isAliveToo⟩
      -- An instance that is alive is the one that its string leads to.
      have hp := hl.byString.listed _ isAliveToo
      rw [← hl.string a small, hardware, hf] at hp
      exact (Option.some.inj hp).symm
  | none =>
    cases known : s.manager.mapDriverAliasVersionInstancer (info.driverAlias ++ info.version) with
    | none =>
      simp only [step, DriverManager.getNewAccessorForDriverInstance, hf, known] at taken
      cases taken
      exact ⟨hl, hn⟩
    | some inst =>
      obtain ⟨rfl, newUuid⟩ := new ⟨hf, by rw [known]; rfl⟩
      simp only [step, DriverManager.getNewAccessorForDriverInstance, hf, known] at taken
      cases taken
      constructor
      · apply lease_linked (publish_linked hl hf newUuid) (publish_alive.mpr (.inl rfl))
        · rw [publish_drivers_new]
        · intro a small
          rw [publish_instanceOf]
          constructor
          · intro own
            exact absurd own (hl.old a small).ne
          · rintro ⟨hardware, ha⟩
            have same : (s.leases a).hardware = info.hardware parse := hardware
            have hp := hl.byString.listed _ ha
            rw [← hl.string a small, same, hf] at hp
            cases hp
      · refine lease_needed (s := s.publish uuid _ inst) fun j ha different => ?_
        rw [publish_drivers_old different]
        rcases publish_alive.mp ha with new | ⟨_, hw⟩
        · exact absurd new different
        · exact hn j hw

end Get

theorem linked_release (parse : Parser) (hl : Linked s) (hn : Needed s) {a : ℕ}
    (taken : s.step parse (.releaseAccessor a) = some t) : Linked t ∧ Needed t := by
  rw [step] at taken
  split at taken
  case isFalse => cases taken
  case isTrue inUse =>
    obtain rfl := (Option.some.inj taken).symm
    have ha := hl.used a inUse
    have member := hl.member inUse
    have found : s.manager.mapDriverUUIDHashLiveInstance (s.manager.accessors a).driverUuid =
        some (s.instanceOf a) := by
      rw [hl.uuid a inUse.1]
      exact hl.byUuid.listed _ ha
    have erased := erase_linked member hl
    have others (j : ℕ) (hw : j ∈ s.manager.alive) (different : j ≠ s.instanceOf a) :
        ((s.erase a).manager.drivers j).accessors ≠ [] := by
      rw [erase_drivers_of_ne member different]
      exact hn j hw
    simp only [DriverManager.releaseAccessor, found]
    split
    case isTrue empty =>
      refine ⟨dispose_linked erased ((erase_same member).alive ▸ ha) empty, fun j isAliveToo => ?_⟩
      obtain ⟨different, hw⟩ := dispose_alive (s := s.erase a).mp isAliveToo
      rw [(erase_same member).alive] at hw
      have hu := dispose_drivers_of_ne (s := s.erase a) different
      exact fun empty => others j hw different (hu ▸ empty)
    case isFalse nonempty =>
      refine ⟨erased, fun j isAliveToo => ?_⟩
      by_cases same : j = s.instanceOf a
      · rw [same]
        exact nonempty
      · exact others j ((erase_same member).alive ▸ isAliveToo) same

theorem linked_step (parse : Parser) (r : Request) (hl : Linked s ∧ Needed s)
    (hc : s.Careful parse r) (taken : s.step parse r = some t) : Linked t ∧ Needed t := by
  cases r with
  | registerDriver inst descr =>
    cases taken
    exact linked_register hl.1 hl.2 inst descr
  | getNewAccessorForDriverInstance info uuid rets =>
    exact linked_get hl.1 hl.2 hc taken
  | releaseAccessor a => exact linked_release parse hl.1 hl.2 taken

/-- A parser for which every parameter is a parameter of the driver as it stands. -/
def plainParser : Parser := fun _ => ⟨none, none⟩

/-- The request of a driver with the given alias and version, and with the parameter `port=1`. -/
def requestOf (driverAlias version : String) (uuid : String) (returns : Bool) : Request :=
  .getNewAccessorForDriverInstance ⟨driverAlias, version, "port=1"⟩ uuid returns

end Usage

end ChaosFramework.Driver
