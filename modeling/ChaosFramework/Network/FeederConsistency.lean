import ChaosFramework.Network.FeederSlots

/-!
# When the containers of the feeder agree

`Consistent` is what callers of the feeder may expect. `Organized` adds what the operations rely on:
the slots are named by the map, and its two sides are inverse to each other. A careful step keeps
it, and a careless one ends consistency at once.
-/

namespace ChaosFramework.Network.URLServiceFeeder

open Utility Transition Option

variable {s t : URLServiceFeeder} {idx i : Nat} {act : Action}

/-- What the callers of the feeder rely on. -/
structure Consistent (s : URLServiceFeeder) : Prop where
  partition : ∀ i < s.capacity,
    (i ∈ s.availableUrl ∧ i ∉ s.onlineIndexes ∧ i ∉ s.offlineUrls) ∨
      (i ∉ s.availableUrl ∧ i ∈ s.onlineIndexes ∧ i ∉ s.offlineUrls) ∨
      (i ∉ s.availableUrl ∧ i ∉ s.onlineIndexes ∧ i ∈ s.offlineUrls)
  online : ∀ i, i ∈ s.onlineIndexes ↔
    i < s.capacity ∧ (s.serviceList i).online = true ∧ (s.serviceList i).service ≠ none
  feeds : ∀ i ∈ s.occupied, (s.serviceList i).online = true → s.getService.2 ≠ none
  number : s.getNumberOfURL = s.occupied.card

/-- The online set holds the occupied slots that are flagged online. -/
def Listed (s : URLServiceFeeder) : Prop :=
  ∀ i, i ∈ s.onlineIndexes ↔ i ∈ s.occupied ∧ (s.serviceList i).online = true

namespace Listed

theorem init : URLServiceFeeder.init.Listed := by
  intro i
  simp [URLServiceFeeder.init, onlineIndexes]

theorem occupy {url : String} {prio : Nat} {srv : ServicePtr} (hl : s.Listed)
    (ha : s.Allotted) (free : idx ∈ s.availableUrl) (new : s.NewPosition) :
    (s.occupy idx url prio srv).Listed := by
  intro i
  rw [mem_occupied_occupy ((ha.available idx).mp free).1, occupy_serviceList, onlineIndexes_occupy]
  by_cases same : i = idx
  · simp [same, new]
  · simpa [same] using hl i

theorem clear : s.clear.Listed := by
  intro i
  rw [occupied_clear]
  simp [URLServiceFeeder.clear, onlineIndexes]

variable (hl : s.Listed)

include hl

theorem grow : s.grow.Listed := by
  intro i
  rw [onlineIndexes_grow, occupied_grow]
  refine (hl i).trans (and_congr_right fun hh => ?_)
  rw [grow_serviceList_of_occupied hh]

theorem takeOffline (hb : idx < s.capacity) : (s.takeOffline idx).Listed := by
  intro i
  rw [occupied_takeOffline hb, takeOffline_serviceList]
  refine onlineIndexes_removeFromOnlineQueue.trans ?_
  rw [onlineIndexes_updateSlot, hl i]
  by_cases equal : i = idx <;> simp [equal]

theorem bringOnline (ha : s.Allotted) (hb : idx < s.capacity)
    (put : idx ∈ s.onlineIndexes ∨ (s.NewPosition ↔ idx ∈ s.occupied)) :
    (s.bringOnline idx).Listed := by
  intro i
  rw [occupied_bringOnline hb, bringOnline_serviceList, onlineIndexes_bringOnline ha hb]
  obtain rfl | equal := eq_or_ne i idx
  · rw [Function.update_self, hl i]
    rcases put with isOnline | new
    · simp [(hl i).mp isOnline]
    · simpa [new] using fun held _ => held
  · simpa [equal] using hl i

theorem release (hb : idx < s.capacity) : (s.release idx).Listed := by
  intro i
  rw [occupied_release hb, release_serviceList]
  refine onlineIndexes_removeFromOnlineQueue.trans ?_
  rw [hl i]
  by_cases equal : i = idx <;> simp [equal]

theorem of_rescheduled (hr : Rescheduled s t) (same : t.onlineIndexes = s.onlineIndexes) :
    t.Listed := by
  intro i
  rw [same, hr.occupied, hr.serviceList]
  exact hl i

end Listed

/-- The service and the online flag of a slot determine where its index is found. -/
structure Organized (s : URLServiceFeeder) : Prop extends Named s where
  online : ∀ i, i ∈ s.onlineIndexes ↔ i ∈ s.occupied ∧ (s.serviceList i).online = true
  offline : ∀ i, i ∈ s.offlineUrls ↔ i ∈ s.occupied ∧ (s.serviceList i).online = false
  inverse : s.mappingUrlIndex.Inverse
  number : s.mappingUrlIndex.size = s.occupied.card

theorem organized_init : init.Organized where
  toNamed := named_init
  online := Listed.init
  offline i := by simp [init, occupied]
  inverse := Bimap.inverse_empty
  number := by simp [init, occupied, Bimap.empty, Bimap.size]

section

variable (ho : s.Organized)

include ho

theorem Organized.consistent : s.Consistent where
  partition i hb := by
    rw [ho.available, ho.online, ho.offline]
    by_cases hh : i ∈ s.occupied
    · cases flag : (s.serviceList i).online <;> simp [hh]
    · simp [hh, hb]
  online i := by
    rw [ho.online, mem_occupied, isSome_iff_ne_none]
    tauto
  feeds i hh flag := by
    obtain ⟨next, isOnline, fed⟩ := getService_of_online ((ho.online i).mpr ⟨hh, flag⟩)
    have hs := (mem_occupied.mp ((ho.online next).mp isOnline).1).2
    rw [fed]
    exact isSome_iff_ne_none.mp hs
  number := ho.number

/-! ### Careful calls -/

theorem Organized.listed : s.Listed := ho.online

theorem Organized.grow : s.grow.Organized := by
  refine ⟨ho.toNamed.grow, ho.listed.grow, fun i => ?_, ?_, ?_⟩
  · rw [offlineUrls_grow, occupied_grow]
    refine (ho.offline i).trans (and_congr_right fun hh => ?_)
    rw [grow_serviceList_of_occupied hh]
  · rw [mappingUrlIndex_grow]
    exact ho.inverse
  · rw [mappingUrlIndex_grow, occupied_grow]
    exact ho.number

theorem Organized.occupy {url : String} {prio : Nat} {srv : ServicePtr}
    (free : idx ∈ s.availableUrl) (unknown : s.mappingUrlIndex.findByLeftKey url = none)
    (new : s.NewPosition) : (s.occupy idx url prio srv).Organized := by
  obtain ⟨hb, vacant⟩ := (ho.available idx).mp free
  refine ⟨ho.toNamed.occupy free, ho.listed.occupy ho.toAllotted free new,
    fun i => ?_, ho.inverse.insert unknown (ho.unnamed vacant), ?_⟩
  · rw [mem_occupied_occupy hb, occupy_serviceList]
    change i ∈ s.offlineUrls ↔ _
    rw [ho.offline]
    by_cases same : i = idx <;> simp [vacant, same]
  · rw [card_occupied_occupy hb vacant, ← ho.number]
    exact Bimap.size_insert_of_new unknown

end

section Index

variable (ho : s.Organized) (hb : idx < s.capacity)
include ho hb

theorem Organized.takeOffline (hh : idx ∈ s.occupied) : (s.takeOffline idx).Organized := by
  have same := occupied_takeOffline hb
  refine ⟨ho.toNamed.takeOffline hb, ho.listed.takeOffline hb, fun i => ?_, ho.inverse, ?_⟩
  · rw [same, takeOffline_serviceList]
    change i ∈ insert idx s.offlineUrls ↔ _
    rw [Finset.mem_insert, ho.offline]
    by_cases equal : i = idx <;> simp [hh, equal]
  · rw [same]
    exact ho.number

theorem Organized.bringOnline
    (put : idx ∈ s.onlineIndexes ∨ (s.NewPosition ↔ idx ∈ s.occupied)) :
    (s.bringOnline idx).Organized := by
  have same := occupied_bringOnline hb
  refine ⟨ho.toNamed.bringOnline hb, ho.listed.bringOnline ho.toAllotted hb put, fun i => ?_,
    ho.inverse, ?_⟩
  · rw [same, bringOnline_serviceList]
    change i ∈ s.offlineUrls.erase idx ↔ _
    rw [Finset.mem_erase, ho.offline]
    by_cases equal : i = idx <;> simp [equal]
  · rw [same]
    exact ho.number

theorem Organized.release (hl : idx ∉ s.offlineUrls) : (s.release idx).Organized := by
  have freed := occupied_release hb
  refine ⟨ho.toNamed.release hb, ho.listed.release hb, fun i => ?_, ho.inverse.removebyRightKey, ?_⟩
  · rw [freed, release_serviceList]
    change i ∈ s.offlineUrls ↔ _
    -- `removeURL` does not touch the offline set.
    obtain rfl | equal := eq_or_ne i idx
    · simp [hl]
    · simpa [equal] using ho.offline i
  · rw [freed]
    change (s.mappingUrlIndex.removebyRightKey idx).size = _
    -- Removing a free slot finds no entry and changes no number.
    by_cases hh : idx ∈ s.occupied
    · have hn := (ho.named idx _).mpr ⟨hh, rfl⟩
      have smaller := Bimap.size_removebyRightKey hn ((ho.inverse _ _).mpr hn)
      rw [Finset.card_erase_of_mem hh, ← ho.number]
      omega
    · rw [Bimap.removebyRightKey_of_none (ho.unnamed hh), Finset.erase_eq_of_notMem hh]
      exact ho.number

end Index

/-- Only a feeder without URLs survives `clear`, as the map keeps its entries. -/
theorem Organized.clear (ho : s.Organized) (none : s.getNumberOfURL = 0) :
    s.clear.Organized := by
  have empty : s.occupied = ∅ := Finset.card_eq_zero.mp (ho.number.symm.trans none)
  refine ⟨ho.toNamed.clear empty, Listed.clear, fun i => ?_, ho.inverse, ?_⟩
  · rw [occupied_clear]
    have known := ho.offline i
    rw [empty] at known
    simp [URLServiceFeeder.clear, known]
  · rw [occupied_clear]
    exact none

theorem Organized.of_rescheduled (ho : s.Organized) (hr : Rescheduled s t)
    (same : t.onlineIndexes = s.onlineIndexes) : t.Organized := by
  refine ⟨ho.toNamed.of_rescheduled hr, ho.listed.of_rescheduled hr same, ?_, ?_, ?_⟩
  · rw [hr.offlineUrls, hr.occupied, hr.serviceList]
    exact ho.offline
  · rw [hr.mappingUrlIndex]
    exact ho.inverse
  · rw [hr.mappingUrlIndex, hr.occupied]
    exact ho.number

/-! ### One step -/

/-- A caller that adds no URL twice, puts no slot on or off line that is free, removes no slot
that is offline and clears nothing but an empty feeder, while the counter hands out no position that
is in use. (A free slot for which it does is not put online after all.) -/
def Careful (s : URLServiceFeeder) : Action → Prop
  | .addURL url _ service =>
      service.isSome → s.mappingUrlIndex.findByLeftKey url = none ∧ s.NewPosition
  | .removeURL idx => idx ∉ s.offlineUrls
  | .setURLOffline idx => idx ∉ s.availableUrl
  | .setURLOnline idx =>
      idx < s.capacity → idx ∈ s.onlineIndexes ∨ (s.NewPosition ↔ idx ∉ s.availableUrl)
  | .clear => s.getNumberOfURL = 0
  | .getService => s.Repositions
  | .setFeedMode _ => True

instance (s : URLServiceFeeder) (action : Action) : Decidable (s.Careful action) := by
  cases action <;> unfold Careful <;> infer_instance

/-- A slot that exists is available or occupied. -/
theorem Organized.notMem_availableUrl (ho : s.Organized) (hb : idx < s.capacity) :
    idx ∉ s.availableUrl ↔ idx ∈ s.occupied := by
  simp [ho.available, hb]

theorem step_organized (ho : s.Organized)
    (hc : s.Careful act) (taken : step s act = some t) : t.Organized := by
  cases step_effect taken with
  | addNothing => exact ho.grow
  | addURL free =>
    obtain ⟨unknown, new⟩ := hc rfl
    refine ho.grow.occupy free ?_ (newPosition_grow.mpr new)
    rw [mappingUrlIndex_grow]
    exact unknown
  | removeURL hb => exact ho.release hb hc
  | setURLOffline hb => exact ho.takeOffline hb (ho.held hb hc)
  | setURLOnline hb =>
    have put := hc hb
    rw [ho.notMem_availableUrl hb] at put
    exact ho.bringOnline hb put
  | removeNothing | offlineNothing | onlineNothing => exact ho
  | clear => exact ho.clear hc
  | getService hr =>
    cases taken
    exact ho.of_rescheduled hr (onlineIndexes_getService hc)
  | setFeedMode hr =>
    cases taken
    exact ho.of_rescheduled hr rfl

theorem Consistent.disjoint (hc : s.Consistent) (idx : Nat) (hb : idx < s.capacity)
    (ha : idx ∈ s.availableUrl) : idx ∉ s.onlineIndexes ∧ idx ∉ s.offlineUrls := by
  rcases hc.partition idx hb with ⟨-, offline⟩ | ⟨taken, -⟩ | ⟨taken, -⟩
  · exact offline
  · exact absurd ha taken
  · exact absurd ha taken

/-- A careless step leaves no consistent feeder behind. -/
theorem careful_of_consistent (ho : s.Organized)
    (taken : step s act = some t) (hc : t.Consistent) : s.Careful act := by
  have hh := step_occupied ho.toAllotted taken
  cases step_effect taken with
  | addNothing => exact nofun
  | @addURL url _ _ idx free =>
    intro given
    obtain ⟨hb, vacant⟩ := (ho.grow.available idx).mp free
    constructor
    · -- an insertion under a known key does not make the map larger
      by_contra known
      have number := hc.number
      rw [card_occupied_occupy hb vacant, ← ho.grow.number] at number
      rw [← mappingUrlIndex_grow] at known
      have same := Bimap.size_insert_of_old (b := idx) (isSome_iff_ne_none.mpr known)
      change (s.grow.mappingUrlIndex.insert url idx).size = _ at number
      omega
    · -- the new slot has got into the online set
      rw [← newPosition_grow]
      have isOnline := (hc.online idx).mpr ⟨hb, by simp [occupy_serviceList]⟩
      rcases onlineIndexes_occupy.mp isOnline with old | new
      · exact absurd ((ho.grow.online idx).mp old).1 vacant
      · exact new.2
  | @removeNothing idx beyond =>
    intro offline
    exact Nat.lt_asymm beyond (mem_occupied.mp ((ho.offline idx).mp offline).1).1
  | @removeURL idx hb =>
    intro offline
    exact (hc.disjoint idx hb (Finset.mem_insert_self ..)).2 offline
  | @offlineNothing idx beyond =>
    intro ha
    exact Nat.lt_asymm beyond ((ho.available idx).mp ha).1
  | @onlineNothing idx beyond => exact fun hb => absurd hb (Nat.lt_asymm beyond)
  | @setURLOffline idx hb =>
    intro ha
    exact (hc.disjoint idx hb ha).2 (Finset.mem_insert_self ..)
  | @setURLOnline idx hb =>
    intro _
    rw [ho.notMem_availableUrl hb, or_iff_not_imp_left]
    intro offline
    have put := hc.online idx
    rw [onlineIndexes_bringOnline ho.toAllotted hb, bringOnline_serviceList,
      Function.update_self] at put
    simpa [offline, mem_occupied, hb, bringOnline_capacity, isSome_iff_ne_none] using put
  | clear =>
    have number := hc.number
    rw [hh] at number
    exact number
  | getService hr =>
    cases taken
    refine repositions_of_onlineIndexes ho.once fun i isOnline => ?_
    obtain ⟨hi, flag⟩ := (ho.online i).mp isOnline
    obtain ⟨hb, service⟩ := mem_occupied.mp hi
    rw [hc.online, hr.capacity, hr.serviceList]
    exact ⟨hb, flag, isSome_iff_ne_none.mp service⟩
  | setFeedMode => trivial

/-! ### Runs -/

/-- The feeder is consistent all along a run exactly when every call of the run is careful. -/
theorem consistent_iff_careful {actions : List Action} (run : execute step init actions = some s) :
    Admissible step Careful init actions ↔
      ∀ n t, execute step init (actions.take n) = some t → t.Consistent :=
  admissible_iff_forall_reached step_organized Organized.consistent careful_of_consistent
    organized_init run

theorem consistent_iff_careful_round_trip :
    ∃ s, execute step init [.addURL "a" 1 (some 7), .setURLOffline 0, .setURLOnline 0,
        .addURL "b" 1 (some 8), .removeURL 0, .addURL "a" 1 (some 9), .getService] = some s ∧
      s.Consistent := by
  have hc : Admissible step Careful init [.addURL "a" 1 (some 7), .setURLOffline 0,
      .setURLOnline 0, .addURL "b" 1 (some 8), .removeURL 0, .addURL "a" 1 (some 9),
      .getService] := by decide
  exact ⟨_, rfl, (consistent_iff_careful rfl).mp hc 7 _ rfl⟩

/-- An offline slot that is removed is in two sets. A removed slot that is put online makes
`getService` return no service although one is online. A cleared feeder counts its URLs
still, and a URL that is added twice counts once. -/
theorem removed_offline_slot_in_two_sets :
    (∃ s, execute step init [.addURL "a" 1 (some 7), .setURLOffline 0, .removeURL 0] = some s ∧
      0 ∈ s.availableUrl ∧ 0 ∈ s.offlineUrls ∧ ¬ s.Consistent) ∧
    (∃ s, execute step init [.addURL "a" 1 (some 7), .addURL "b" 1 (some 8), .removeURL 0,
        .setURLOnline 0, .getService] = some s ∧
      1 ∈ s.occupied ∧ (s.serviceList 1).online = true ∧ s.getService.2 = none ∧ ¬ s.Consistent) ∧
    (∃ s, execute step init [.addURL "a" 1 (some 7), .clear] = some s ∧
      s.occupied = ∅ ∧ s.getNumberOfURL = 1 ∧ ¬ s.Consistent) ∧
    (∃ s, execute step init [.addURL "a" 1 (some 7), .addURL "a" 1 (some 8)] = some s ∧
      s.occupied = {0, 1} ∧ s.getNumberOfURL = 1 ∧ ¬ s.Consistent) := by
  refine ⟨⟨_, rfl, by decide, by decide, fun hc => ?_⟩,
    ⟨_, rfl, by decide, by decide, by decide, fun hc => ?_⟩,
    ⟨_, rfl, by decide, by decide, fun hc => ?_⟩,
    ⟨_, rfl, by decide, by decide, fun hc => ?_⟩⟩
  · exact (hc.disjoint 0 (by decide) (by decide)).2 (by decide)
  · exact hc.feeds 1 (by decide) (by decide) (by decide)
  · exact absurd hc.number (by decide)
  · exact absurd hc.number (by decide)

end ChaosFramework.Network.URLServiceFeeder
