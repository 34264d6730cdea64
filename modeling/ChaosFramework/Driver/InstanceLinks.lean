import ChaosFramework.Driver.DriverManager

/-!
# Instances and their accessors

What the calls of the driver manager are made of: an accessor is handed out, a new instance is
published, an accessor is erased from its instance, and an instance ends. Each one is a function of
the state that keeps the invariant.
-/

namespace ChaosFramework.Driver

open Transition UniqueIndex List Function DriverManager

namespace Usage

variable {s : Usage}

/-! ### Changes to the accessors -/

/-- The instances are the same but for their accessors. -/
structure SameInstances (s t : Usage) : Prop where
  byString : t.manager.mapParameterLiveInstance = s.manager.mapParameterLiveInstance
  byUuid : t.manager.mapDriverUUIDHashLiveInstance = s.manager.mapDriverUUIDHashLiveInstance
  next : t.manager.nextDriver = s.manager.nextDriver
  corrupted : t.manager.corrupted = s.manager.corrupted
  drivers : ∀ j, ∃ count accessors, t.manager.drivers j =
    { s.manager.drivers j with accessorCount := count, accessors := accessors }

namespace SameInstances

variable {t : Usage} (he : SameInstances s t)
include he

theorem view {α : Type*} (view : AbstractDriver → α) (j : ℕ)
    (hi : ∀ d count accessors,
      view { d with accessorCount := count, accessors := accessors } = view d := by intros; rfl) :
    view (t.manager.drivers j) = view (s.manager.drivers j) := by
  obtain ⟨_, _, hc⟩ := he.drivers j
  rw [hc, hi]

theorem alive : t.manager.alive = s.manager.alive := by
  simp only [DriverManager.alive, he.next, he.view (·.deleted)]

theorem listed (hl : Listed s) : Listed t := by
  constructor
  · rw [he.byString, he.alive]
    exact hl.byString.congr (fun _ => .rfl) fun j => he.view (·.identificationString) j
  · rw [he.byUuid, he.alive]
    exact hl.byUuid.congr (fun _ => .rfl) fun j => he.view (·.driverUuid) j

theorem counted (hc : Counted s) : Counted t where
  initialized j small := (he.view (·.inits) j).trans (hc.initialized j (he.next ▸ small))
  deinitialized j small := by
    rw [he.view (·.deinits), he.alive]
    exact hc.deinitialized j (he.next ▸ small)
  intact := he.corrupted.trans hc.intact

end SameInstances

/-! ### A new accessor -/

/-- The state after an accessor of an instance has been handed out. -/
def lease (s : Usage) (i : ℕ) (deviceParam : Option String) (hardware : Hardware)
    (alive : List ℕ) : Usage :=
  ⟨s.manager.getNewAccessor i deviceParam,
    update s.leases s.manager.nextAccessor ⟨hardware, alive, false⟩⟩

section Lease

variable {i a j : ℕ} {param : Option String} {hardware : Hardware} {alive : List ℕ}

theorem lease_drivers_of_ne (different : j ≠ i) :
    (s.lease i param hardware alive).manager.drivers j = s.manager.drivers j :=
  update_of_ne different ..

theorem lease_drivers_self :
    (s.lease i param hardware alive).manager.drivers i =
      { s.manager.drivers i with
        accessorCount := (s.manager.drivers i).accessorCount + 1
        accessors := (s.manager.drivers i).accessors ++ [s.manager.nextAccessor] } :=
  update_self ..

theorem lease_same : SameInstances s (s.lease i param hardware alive) where
  byString := rfl
  byUuid := rfl
  next := rfl
  corrupted := rfl
  drivers j := by
    obtain rfl | he := eq_or_ne j i
    · exact ⟨_, _, lease_drivers_self⟩
    · exact ⟨_, _, lease_drivers_of_ne he⟩

theorem lease_instanceOf_old (isOld : a ≠ s.manager.nextAccessor) :
    (s.lease i param hardware alive).instanceOf a = s.instanceOf a := by
  simp only [instanceOf, lease, getNewAccessor, update_of_ne isOld]

theorem lease_instanceOf_new :
    (s.lease i param hardware alive).instanceOf s.manager.nextAccessor = i := by
  simp [instanceOf, lease, getNewAccessor]

theorem lease_leases_old (isOld : a ≠ s.manager.nextAccessor) :
    (s.lease i param hardware alive).leases a = s.leases a :=
  update_of_ne isOld ..

theorem lease_leases_new :
    (s.lease i param hardware alive).leases s.manager.nextAccessor = ⟨hardware, alive, false⟩ :=
  update_self ..

theorem lease_accessors_old (isOld : a ≠ s.manager.nextAccessor) :
    (s.lease i param hardware alive).manager.accessors a = s.manager.accessors a :=
  update_of_ne isOld ..

/-- An accessor is an old one or the new one. -/
theorem lease_cases (small : a < (s.lease i param hardware alive).manager.nextAccessor) :
    a = s.manager.nextAccessor ∨ a ≠ s.manager.nextAccessor ∧ a < s.manager.nextAccessor := by
  have bound : a < s.manager.nextAccessor + 1 := small
  omega

theorem lease_inUse : (s.lease i param hardware alive).InUse a ↔
    a = s.manager.nextAccessor ∨ s.InUse a := by
  constructor
  · rintro ⟨small, hu⟩
    rcases lease_cases small with new | ⟨different, isOld⟩
    · exact .inl new
    · rw [lease_leases_old different] at hu
      exact .inr ⟨isOld, hu⟩
  · rintro (rfl | ⟨small, hu⟩)
    · exact ⟨Nat.lt_succ_self _, by rw [lease_leases_new]⟩
    · exact ⟨Nat.lt_succ_of_lt small, by rwa [lease_leases_old small.ne]⟩

/-- The number of the next accessor is in no list yet. -/
theorem Attached.next_not_mem (attached : Attached s) (ha : j ∈ s.manager.alive) :
    s.manager.nextAccessor ∉ (s.manager.drivers j).accessors := fun hm =>
  absurd ((attached.members j ha _).mp hm).1.1 (lt_irrefl _)

theorem lease_members (attached : Attached s) (ha : j ∈ s.manager.alive) (a : ℕ) :
    a ∈ ((s.lease i param hardware alive).manager.drivers j).accessors ↔
      (s.lease i param hardware alive).InUse a ∧
        (s.lease i param hardware alive).instanceOf a = j := by
  have hb := attached.members j ha a
  rw [lease_inUse]
  obtain rfl | new := eq_or_ne a s.manager.nextAccessor
  · rw [lease_instanceOf_new]
    obtain rfl | he := eq_or_ne j i
    · simp [lease_drivers_self]
    · rw [lease_drivers_of_ne he]
      simp [attached.next_not_mem ha, Ne.symm he]
  · rw [lease_instanceOf_old new]
    obtain rfl | he := eq_or_ne j i
    · simp [lease_drivers_self, new, hb]
    · simp [lease_drivers_of_ne he, new, hb]

theorem lease_attached (attached : Attached s) (ha : i ∈ s.manager.alive) :
    Attached (s.lease i param hardware alive) := by
  constructor
  · intro j isAliveToo a
    rw [lease_same.alive] at isAliveToo
    exact lease_members attached isAliveToo a
  · intro j isAliveToo
    rw [lease_same.alive] at isAliveToo
    obtain rfl | he := eq_or_ne j i
    · rw [lease_drivers_self]
      apply (attached.nodup j isAliveToo).append (nodup_singleton _)
      intro a hm new
      obtain rfl := mem_singleton.mp new
      exact attached.next_not_mem isAliveToo hm
    · rw [lease_drivers_of_ne he]
      exact attached.nodup j isAliveToo
  · intro a inUse
    rw [lease_same.alive]
    rcases lease_inUse.mp inUse with rfl | inUseToo
    · rw [lease_instanceOf_new]
      exact ha
    · rw [lease_instanceOf_old inUseToo.1.ne]
      exact attached.used a inUseToo

theorem lease_traced (ht : Traced s) (ha : i ∈ s.manager.alive)
    (string : hardware.identificationString = (s.manager.drivers i).identificationString)
    (fits : ∀ a < s.manager.nextAccessor,
      s.instanceOf a = i ↔ (s.leases a).hardware = hardware ∧ s.instanceOf a ∈ alive) :
    Traced (s.lease i param hardware alive) := by
  constructor
  · intro a small
    rcases lease_cases small with rfl | ⟨different, isOld⟩
    · rw [lease_instanceOf_new]
      exact (mem_alive.mp ha).1
    · rw [lease_instanceOf_old different]
      exact ht.old a isOld
  · intro a small
    rw [lease_same.view (·.driverUuid)]
    rcases lease_cases small with rfl | ⟨different, isOld⟩
    · rw [lease_instanceOf_new]
      simp [lease, getNewAccessor]
    · rw [lease_instanceOf_old different, lease_accessors_old different]
      exact ht.uuid a isOld
  · intro a small
    rw [lease_same.view (·.identificationString)]
    rcases lease_cases small with rfl | ⟨different, isOld⟩
    · rw [lease_instanceOf_new, lease_leases_new]
      exact string
    · rw [lease_instanceOf_old different, lease_leases_old different]
      exact ht.string a isOld
  · intro a b hb small
    rcases lease_cases small with rfl | ⟨different, isOld⟩
    · rw [lease_instanceOf_new, lease_instanceOf_old hb.ne, lease_leases_new,
        lease_leases_old hb.ne]
      exact fits a hb
    · have older : a ≠ s.manager.nextAccessor := (hb.trans isOld).ne
      rw [lease_instanceOf_old different, lease_instanceOf_old older, lease_leases_old different,
        lease_leases_old older]
      exact ht.shared a b hb isOld

theorem lease_linked (hl : Linked s) (ha : i ∈ s.manager.alive)
    (string : hardware.identificationString = (s.manager.drivers i).identificationString)
    (fits : ∀ a < s.manager.nextAccessor,
      s.instanceOf a = i ↔ (s.leases a).hardware = hardware ∧ s.instanceOf a ∈ alive) :
    Linked (s.lease i param hardware alive) :=
  ⟨lease_same.listed hl.toListed, lease_attached hl.toAttached ha,
    lease_traced hl.toTraced ha string fits, lease_same.counted hl.toCounted⟩

/-- The instance has an accessor afterwards. -/
theorem lease_needed (hn : ∀ j ∈ s.manager.alive, j ≠ i → (s.manager.drivers j).accessors ≠ []) :
    Needed (s.lease i param hardware alive) := by
  intro j ha
  rw [lease_same.alive] at ha
  obtain rfl | he := eq_or_ne j i
  · rw [lease_drivers_self]
    exact append_ne_nil_of_right_ne_nil _ (cons_ne_nil _ _)
  · rw [lease_drivers_of_ne he]
    exact hn j ha he

end Lease

/-! ### A new instance -/

/-- The state after a new instance has been put into the maps. -/
def publish (s : Usage) (uuid key : String) (instancer : ℕ) : Usage :=
  { s with manager :=
      (s.manager.createDriver uuid key instancer).publishDriver s.manager.nextDriver }

section Publish

variable {uuid key : String} {inst i : ℕ}

theorem publish_drivers_new : (s.publish uuid key inst).manager.drivers s.manager.nextDriver =
    ⟨uuid, key, inst, 0, [], 1, 0, false⟩ :=
  update_self ..

theorem publish_drivers_old (isOld : i ≠ s.manager.nextDriver) :
    (s.publish uuid key inst).manager.drivers i = s.manager.drivers i :=
  update_of_ne isOld ..

theorem publish_instanceOf (a : ℕ) : (s.publish uuid key inst).instanceOf a = s.instanceOf a := rfl

theorem publish_alive : i ∈ (s.publish uuid key inst).manager.alive ↔
    i = s.manager.nextDriver ∨ i ≠ s.manager.nextDriver ∧ i ∈ s.manager.alive := by
  have next : (s.publish uuid key inst).manager.nextDriver = s.manager.nextDriver + 1 := rfl
  rw [mem_alive, mem_alive, next]
  obtain rfl | isNew := eq_or_ne i s.manager.nextDriver
  · simp [publish_drivers_new]
  · rw [publish_drivers_old isNew]
    have small : i < s.manager.nextDriver + 1 ↔ i < s.manager.nextDriver := by omega
    simp [isNew, small]

theorem publish_byString (missing : s.manager.mapParameterLiveInstance key = none) :
    (s.publish uuid key inst).manager.mapParameterLiveInstance =
      update s.manager.mapParameterLiveInstance key (some s.manager.nextDriver) := by
  simp [publish, publishDriver, createDriver, insertNew, missing]

theorem publish_byUuid (missing : s.manager.mapDriverUUIDHashLiveInstance uuid = none) :
    (s.publish uuid key inst).manager.mapDriverUUIDHashLiveInstance =
      update s.manager.mapDriverUUIDHashLiveInstance uuid (some s.manager.nextDriver) := by
  simp [publish, publishDriver, createDriver, insertNew, missing]

theorem next_not_alive : s.manager.nextDriver ∉ s.manager.alive := fun ha =>
  absurd (mem_alive.mp ha).1 (lt_irrefl _)

theorem publish_listed (hl : Listed s) (newString : s.manager.mapParameterLiveInstance key = none)
    (hn : s.manager.mapDriverUUIDHashLiveInstance uuid = none) :
    Listed (s.publish uuid key inst) := by
  constructor
  · rw [publish_byString newString]
    refine hl.byString.insert newString ?_ (fun _ => publish_alive) ?_ next_not_alive
    · rw [publish_drivers_new]
    · exact fun i isOld => by rw [publish_drivers_old isOld]
  · rw [publish_byUuid hn]
    refine hl.byUuid.insert hn ?_ (fun _ => publish_alive) ?_ next_not_alive
    · rw [publish_drivers_new]
    · exact fun i isOld => by rw [publish_drivers_old isOld]

theorem publish_attached (attached : Attached s) (ht : Traced s) :
    Attached (s.publish uuid key inst) := by
  constructor
  · intro i ha a
    rcases publish_alive.mp ha with rfl | ⟨isOld, hw⟩
    · rw [publish_drivers_new]
      constructor
      · intro hm
        cases hm
      · rintro ⟨inUse, new⟩
        exact absurd new (ht.old a inUse.1).ne
    · rw [publish_drivers_old isOld]
      exact attached.members i hw a
  · intro i ha
    rcases publish_alive.mp ha with rfl | ⟨isOld, hw⟩
    · rw [publish_drivers_new]
      exact nodup_nil
    · rw [publish_drivers_old isOld]
      exact attached.nodup i hw
  · intro a inUse
    have hw := attached.used a inUse
    exact publish_alive.mpr (.inr ⟨(mem_alive.mp hw).1.ne, hw⟩)

theorem publish_traced (ht : Traced s) : Traced (s.publish uuid key inst) := by
  constructor
  · exact fun a small => (ht.old a small).trans (Nat.lt_succ_self _)
  · intro a small
    rw [publish_instanceOf, publish_drivers_old (ht.old a small).ne]
    exact ht.uuid a small
  · intro a small
    rw [publish_instanceOf, publish_drivers_old (ht.old a small).ne]
    exact ht.string a small
  · exact ht.shared

theorem publish_counted (hc : Counted s) : Counted (s.publish uuid key inst) := by
  have isOld {i : ℕ} (small : i < s.manager.nextDriver + 1) (different : i ≠ s.manager.nextDriver) :
      i < s.manager.nextDriver := by omega
  constructor
  · intro i small
    obtain rfl | isNew := eq_or_ne i s.manager.nextDriver
    · rw [publish_drivers_new]
    · rw [publish_drivers_old isNew]
      exact hc.initialized i (isOld small isNew)
  · intro i small
    obtain rfl | isNew := eq_or_ne i s.manager.nextDriver
    · rw [publish_drivers_new, if_pos (publish_alive.mpr (.inl rfl))]
    · rw [publish_drivers_old isNew, hc.deinitialized i (isOld small isNew)]
      simp [publish_alive, isNew]
  · exact hc.intact

theorem publish_linked (hl : Linked s) (newString : s.manager.mapParameterLiveInstance key = none)
    (hn : s.manager.mapDriverUUIDHashLiveInstance uuid = none) :
    Linked (s.publish uuid key inst) :=
  ⟨publish_listed hl.toListed newString hn,
    publish_attached hl.toAttached hl.toTraced, publish_traced hl.toTraced,
    publish_counted hl.toCounted⟩

end Publish

/-! ### A released accessor -/

/-- The state after an accessor has been taken from its instance. -/
def erase (s : Usage) (a : ℕ) : Usage :=
  ⟨s.manager.eraseAccessor (s.instanceOf a) a,
    update s.leases a { s.leases a with released := true }⟩

section Erase

variable {a : ℕ}

theorem Attached.member (attached : Attached s) (inUse : s.InUse a) :
    a ∈ (s.manager.drivers (s.instanceOf a)).accessors :=
  (attached.members _ (attached.used a inUse) a).mpr ⟨inUse, rfl⟩

variable (hm : a ∈ (s.manager.drivers (s.instanceOf a)).accessors)
include hm

theorem erase_manager : (s.erase a).manager =
    { s.manager with
      drivers := update s.manager.drivers (s.instanceOf a)
        { s.manager.drivers (s.instanceOf a) with
          accessors := (s.manager.drivers (s.instanceOf a)).accessors.erase a } } :=
  if_pos hm

theorem erase_drivers_self : (s.erase a).manager.drivers (s.instanceOf a) =
    { s.manager.drivers (s.instanceOf a) with
      accessors := (s.manager.drivers (s.instanceOf a)).accessors.erase a } := by
  rw [erase_manager hm]
  exact update_self ..

theorem erase_drivers_of_ne {i : ℕ} (different : i ≠ s.instanceOf a) :
    (s.erase a).manager.drivers i = s.manager.drivers i := by
  rw [erase_manager hm]
  exact update_of_ne different ..

theorem erase_same : SameInstances s (s.erase a) where
  byString := by rw [erase_manager hm]
  byUuid := by rw [erase_manager hm]
  next := by rw [erase_manager hm]
  corrupted := by rw [erase_manager hm]
  drivers j := by
    by_cases he : j = s.instanceOf a
    · rw [he]
      exact ⟨_, _, erase_drivers_self hm⟩
    · exact ⟨_, _, erase_drivers_of_ne hm he⟩

theorem erase_instanceOf (b : ℕ) : (s.erase a).instanceOf b = s.instanceOf b := by
  simp only [instanceOf, erase_manager hm]

theorem erase_inUse {b : ℕ} : (s.erase a).InUse b ↔ b ≠ a ∧ s.InUse b := by
  rw [InUse, erase_manager hm]
  by_cases he : b = a <;> simp [erase, InUse, he]

omit hm in
theorem erase_leases {α : Type*} (view : Lease → α) (b : ℕ)
    (hi : ∀ l released, view { l with released := released } = view l := by intros; rfl) :
    view ((s.erase a).leases b) = view (s.leases b) := by
  obtain rfl | he := eq_or_ne b a
  · simp only [erase, update_self, hi]
  · simp only [erase, update_of_ne he]

theorem erase_attached (attached : Attached s) : Attached (s.erase a) := by
  constructor
  · intro i ha b
    rw [(erase_same hm).alive] at ha
    rw [erase_inUse hm, erase_instanceOf hm]
    obtain rfl | he := eq_or_ne i (s.instanceOf a)
    · rw [erase_drivers_self hm, (attached.nodup _ ha).mem_erase_iff, attached.members _ ha,
        and_assoc]
    · rw [erase_drivers_of_ne hm he, attached.members i ha]
      constructor
      · rintro ⟨inUse, rfl⟩
        exact ⟨⟨fun eq => he (eq ▸ rfl), inUse⟩, rfl⟩
      · exact fun ⟨⟨_, inUse⟩, instanceEq⟩ => ⟨inUse, instanceEq⟩
  · intro i ha
    rw [(erase_same hm).alive] at ha
    obtain rfl | he := eq_or_ne i (s.instanceOf a)
    · rw [erase_drivers_self hm]
      exact (attached.nodup _ ha).erase a
    · rw [erase_drivers_of_ne hm he]
      exact attached.nodup i ha
  · intro b inUse
    rw [erase_instanceOf hm, (erase_same hm).alive]
    exact attached.used b ((erase_inUse hm).mp inUse).2

theorem erase_traced (ht : Traced s) : Traced (s.erase a) := by
  have manager := erase_manager hm
  have hardware (b : ℕ) : ((s.erase a).leases b).hardware = (s.leases b).hardware :=
    erase_leases (·.hardware) b
  constructor
  · intro b small
    rw [manager] at small
    rw [erase_instanceOf hm, manager]
    exact ht.old b small
  · intro b small
    rw [manager] at small
    rw [(erase_same hm).view (·.driverUuid), erase_instanceOf hm, manager]
    exact ht.uuid b small
  · intro b small
    rw [manager] at small
    rw [(erase_same hm).view (·.identificationString), hardware, erase_instanceOf hm]
    exact ht.string b small
  · intro b c hb small
    rw [manager] at small
    rw [erase_instanceOf hm, erase_instanceOf hm, hardware, hardware, erase_leases (·.alive)]
    exact ht.shared b c hb small

theorem erase_linked (hl : Linked s) : Linked (s.erase a) :=
  ⟨(erase_same hm).listed hl.toListed, erase_attached hm hl.toAttached,
    erase_traced hm hl.toTraced, (erase_same hm).counted hl.toCounted⟩

end Erase

/-! ### The end of an instance -/

/-- The state after an instance has been deinitialized and deleted. -/
def dispose (s : Usage) (i : ℕ) : Usage := { s with manager := s.manager.disposeDriver i }

section Dispose

variable {i j : ℕ}

theorem dispose_drivers_self : (s.dispose i).manager.drivers i =
    { s.manager.drivers i with
      deinits := (s.manager.drivers i).deinits + 1, deleted := true } :=
  update_self ..

theorem dispose_drivers_of_ne (different : j ≠ i) :
    (s.dispose i).manager.drivers j = s.manager.drivers j :=
  update_of_ne different ..

theorem dispose_drivers {α : Type*} (view : AbstractDriver → α) (j : ℕ)
    (hi : ∀ d deinits deleted,
      view { d with deinits := deinits, deleted := deleted } = view d := by intros; rfl) :
    view ((s.dispose i).manager.drivers j) = view (s.manager.drivers j) := by
  by_cases he : j = i
  · rw [he, dispose_drivers_self, hi]
  · rw [dispose_drivers_of_ne he]

theorem dispose_alive : j ∈ (s.dispose i).manager.alive ↔ j ≠ i ∧ j ∈ s.manager.alive := by
  have next : (s.dispose i).manager.nextDriver = s.manager.nextDriver := rfl
  rw [mem_alive, mem_alive, next]
  obtain rfl | he := eq_or_ne j i
  · simp [dispose_drivers_self]
  · simp [dispose_drivers_of_ne he, he]

theorem dispose_listed (hl : Listed s) (ha : i ∈ s.manager.alive) : Listed (s.dispose i) := by
  constructor
  · exact hl.byString.remove ha (fun _ => dispose_alive)
      fun j => dispose_drivers (·.identificationString) j
  · exact hl.byUuid.remove ha (fun _ => dispose_alive) fun j => dispose_drivers (·.driverUuid) j

theorem dispose_attached (attached : Attached s)
    (hu : (s.manager.drivers i).accessors = []) : Attached (s.dispose i) := by
  constructor
  · intro j isAliveToo a
    obtain ⟨different, hw⟩ := dispose_alive.mp isAliveToo
    rw [dispose_drivers_of_ne different]
    exact attached.members j hw a
  · intro j isAliveToo
    obtain ⟨different, hw⟩ := dispose_alive.mp isAliveToo
    rw [dispose_drivers_of_ne different]
    exact attached.nodup j hw
  · intro a inUse
    refine dispose_alive.mpr ⟨fun own => ?_, attached.used a inUse⟩
    have hm := attached.member inUse
    rw [show s.instanceOf a = i from own, hu] at hm
    cases hm

theorem dispose_traced (ht : Traced s) : Traced (s.dispose i) := by
  constructor
  · exact ht.old
  · intro a small
    rw [dispose_drivers (·.driverUuid)]
    exact ht.uuid a small
  · intro a small
    rw [dispose_drivers (·.identificationString)]
    exact ht.string a small
  · exact ht.shared

theorem dispose_counted (hc : Counted s) (ha : i ∈ s.manager.alive) : Counted (s.dispose i) := by
  constructor
  · intro j small
    rw [dispose_drivers (·.inits)]
    exact hc.initialized j small
  · intro j small
    obtain rfl | he := eq_or_ne j i
    · rw [dispose_drivers_self, hc.deinitialized j small, if_pos ha, if_neg]
      exact fun isAliveToo => (dispose_alive.mp isAliveToo).1 rfl
    · rw [dispose_drivers_of_ne he, hc.deinitialized j small]
      simp [dispose_alive, he]
  · exact hc.intact

theorem dispose_linked (hl : Linked s) (ha : i ∈ s.manager.alive)
    (hu : (s.manager.drivers i).accessors = []) : Linked (s.dispose i) :=
  ⟨dispose_listed hl.toListed ha, dispose_attached hl.toAttached hu,
    dispose_traced hl.toTraced, dispose_counted hl.toCounted ha⟩

end Dispose

end Usage

end ChaosFramework.Driver
