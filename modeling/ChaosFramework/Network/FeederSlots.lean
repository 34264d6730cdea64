import ChaosFramework.Network.URLServiceFeeder

/-!
# The slots of the feeder

What the feeder keeps in order whatever its callers do. A slot is occupied by `addURL` and freed by
`removeURL` and `clear`, and by nothing else (`step_occupied`). The available slots are those that
are not occupied, an occupied slot has an entry in the map, and an index is in the online set once
(`Allotted`). As long as `clear` is not called with URLs in the feeder, the entry is the URL of the
slot (`Named`). Whether an index gets into the online set, and whether it stays there when its
service is fed, depends on the position that it is given (`NewPosition`, `Repositions`).
-/

namespace ChaosFramework.Network.URLServiceFeeder

open Utility Transition List Function
open Finset (mem_Ico mem_erase mem_insert)

variable {s t : URLServiceFeeder} {idx i : Nat} {act : Action}

/-- The slots that hold a service: those of the URLs added and not removed or cleared. -/
def occupied (s : URLServiceFeeder) : Finset Nat :=
  (Finset.range s.capacity).filter fun i => (s.serviceList i).service.isSome

theorem mem_occupied : i ∈ s.occupied ↔ i < s.capacity ∧ (s.serviceList i).service.isSome := by
  simp [occupied]

/-- What holds of every feeder. -/
structure Allotted (s : URLServiceFeeder) : Prop where
  indexed : ∀ i < s.capacity, (s.serviceList i).index = i
  available : ∀ i, i ∈ s.availableUrl ↔ i < s.capacity ∧ i ∉ s.occupied
  once : s.onlineIndexes.Nodup
  mapped : ∀ i ∈ s.occupied, (s.mappingUrlIndex.findByRightKey i).isSome

theorem allotted_init : init.Allotted where
  indexed i below := absurd below (Nat.not_lt_zero i)
  available i := by simp [init]
  once := nodup_nil
  mapped i hh := absurd (mem_occupied.mp hh).1 (Nat.not_lt_zero i)

/-- A slot that is not available is occupied. -/
theorem Allotted.held (ha : s.Allotted) (below : idx < s.capacity)
    (taken : idx ∉ s.availableUrl) : idx ∈ s.occupied := by
  by_contra free
  exact taken ((ha.available idx).mpr ⟨below, free⟩)

/-! ### The online set -/

/-- The position that is taken next is not in use. -/
def NewPosition (s : URLServiceFeeder) : Prop :=
  ∀ element ∈ s.setUrlsOnline, element.roundRobingStartPosition ≠ s.nextPosition

instance (s : URLServiceFeeder) : Decidable s.NewPosition :=
  inferInstanceAs (Decidable (∀ element ∈ s.setUrlsOnline, _))

/-- An index is added unless its position is in use. -/
theorem onlineIndexes_insertOnline (idx prio : Nat) :
    i ∈ (s.insertOnline idx prio).onlineIndexes ↔
      i ∈ s.onlineIndexes ∨ i = idx ∧ s.NewPosition := by
  simp only [onlineIndexes, insertOnline_setUrlsOnline]
  split
  next collides =>
    obtain ⟨elem, hm, hf⟩ := any_eq_true.mp collides
    rw [Bool.or_eq_true, beq_iff_eq, beq_iff_eq] at hf
    refine ⟨.inl, ?_⟩
    rintro (old | ⟨rfl, new⟩)
    · exact old
    · exact mem_map.mpr ⟨elem, hm, hf.resolve_right (new elem hm)⟩
  next apart =>
    have new : s.NewPosition := by
      intro elem hm he
      exact apart (any_eq_true.mpr ⟨elem, hm, by simp [he]⟩)
    simp [new]

theorem nodup_insertOnline (once : s.onlineIndexes.Nodup) (idx prio : Nat) :
    (s.insertOnline idx prio).onlineIndexes.Nodup := by
  simp only [onlineIndexes, insertOnline_setUrlsOnline]
  split
  next => exact once
  next apart =>
    rw [map_append, map_singleton]
    refine once.append (nodup_singleton idx) (disjoint_singleton.mpr fun hm => apart ?_)
    obtain ⟨elem, hm, he⟩ := mem_map.mp hm
    exact any_eq_true.mpr ⟨elem, hm, by simp [he]⟩

theorem nodup_filter (once : s.onlineIndexes.Nodup) (p : URLServiceIndex → Bool) :
    ((s.setUrlsOnline.filter p).map (·.globalIndex)).Nodup :=
  once.sublist (filter_sublist.map _)

@[simp] theorem onlineIndexes_updateSlot (f : URLService → URLService) :
    (s.updateSlot idx f).onlineIndexes = s.onlineIndexes := rfl

theorem onlineIndexes_removeFromOnlineQueue :
    i ∈ (s.removeFromOnlineQueue idx).onlineIndexes ↔ i ≠ idx ∧ i ∈ s.onlineIndexes := by
  simp only [onlineIndexes, removeFromOnlineQueue_setUrlsOnline, mem_map, mem_filter,
    decide_eq_true_eq]
  constructor
  · rintro ⟨elem, ⟨member, other⟩, rfl⟩
    exact ⟨other, elem, member, rfl⟩
  · rintro ⟨other, elem, member, rfl⟩
    exact ⟨elem, ⟨member, other⟩, rfl⟩

section Write

variable {slot : URLService} (hc : t.capacity = s.capacity)
  (hs : t.serviceList = update s.serviceList idx slot)
include hc hs

/-- A write to a slot that exists frees it, occupies it or leaves it as it was. -/
theorem mem_occupied_of_write (below : idx < s.capacity) :
    i ∈ t.occupied ↔ if i = idx then slot.service.isSome else i ∈ s.occupied := by
  rw [mem_occupied, hc, hs]
  by_cases same : i = idx <;> simp [below, same, mem_occupied]

theorem Allotted.indexed_of_write (ha : s.Allotted) (hn : slot.index = (s.serviceList idx).index) :
    ∀ i < t.capacity, (t.serviceList i).index = i := by
  intro i below
  rw [hc] at below
  rw [hs]
  obtain rfl | same := eq_or_ne i idx
  · rw [update_self, hn]
    exact ha.indexed i below
  · rw [update_of_ne same]
    exact ha.indexed i below

theorem occupied_of_write (below : idx < s.capacity)
    (kept : slot.service = (s.serviceList idx).service) : t.occupied = s.occupied := by
  ext i
  rw [mem_occupied_of_write hc hs below, kept]
  by_cases same : i = idx <;> simp [mem_occupied, below, same]

end Write

theorem occupied_addSlots : s.addSlots.occupied = s.occupied := by
  ext i
  simp only [mem_occupied, addSlots_capacity, addSlots_serviceList, mem_Ico]
  split
  next new =>
    simp only [Option.isSome_none, Bool.false_eq_true, and_false, false_iff]
    omega
  next old =>
    refine and_congr_left fun _ => ?_
    omega

theorem addSlots_serviceList_of_occupied (hh : i ∈ s.occupied) :
    s.addSlots.serviceList i = s.serviceList i := by
  have below := (mem_occupied.mp hh).1
  rw [addSlots_serviceList, if_neg]
  rw [mem_Ico]
  omega

/-- When no slot is available the old slots are all occupied, and the new ones are not. -/
theorem Allotted.addSlots (ha : s.Allotted) (full : s.availableUrl = ∅) :
    s.addSlots.Allotted := by
  -- An old slot that is free would be available.
  have old (i : Nat) (below : i < s.capacity) : i ∈ s.occupied := by
    by_contra free
    have listed := (ha.available i).mpr ⟨below, free⟩
    rw [full] at listed
    cases listed
  refine ⟨fun i below => ?_, fun i => ?_, ha.once, fun i hh => ?_⟩
  · rw [addSlots_serviceList]
    split
    next => rfl
    next outside =>
      refine ha.indexed i ?_
      rw [mem_Ico] at outside
      rw [addSlots_capacity] at below
      omega
  · rw [occupied_addSlots, addSlots_availableUrl, mem_Ico]
    constructor
    · rintro ⟨above, below⟩
      refine ⟨below, fun hh => ?_⟩
      exact Nat.not_le.mpr (mem_occupied.mp hh).1 above
    · rintro ⟨below, free⟩
      refine ⟨?_, below⟩
      by_contra under
      exact free (old i (Nat.lt_of_not_le under))
  · rw [occupied_addSlots] at hh
    exact ha.mapped i hh

theorem occupied_grow (s : URLServiceFeeder) : s.grow.occupied = s.occupied := by
  unfold grow
  split
  · exact occupied_addSlots
  · rfl

theorem grow_serviceList_of_occupied (hh : i ∈ s.occupied) :
    s.grow.serviceList i = s.serviceList i := by
  unfold grow
  split
  · exact addSlots_serviceList_of_occupied hh
  · rfl

theorem onlineIndexes_grow (s : URLServiceFeeder) : s.grow.onlineIndexes = s.onlineIndexes := by
  unfold grow
  split <;> rfl

theorem newPosition_grow : s.grow.NewPosition ↔ s.NewPosition := by
  unfold grow
  split <;> rfl

theorem offlineUrls_grow (s : URLServiceFeeder) : s.grow.offlineUrls = s.offlineUrls := by
  unfold grow
  split <;> rfl

theorem mappingUrlIndex_grow (s : URLServiceFeeder) :
    s.grow.mappingUrlIndex = s.mappingUrlIndex := by
  unfold grow
  split <;> rfl

theorem Allotted.grow (ha : s.Allotted) : s.grow.Allotted := by
  unfold URLServiceFeeder.grow
  split
  next full => exact ha.addSlots full
  next => exact ha

theorem grow_available (s : URLServiceFeeder) : s.grow.availableUrl ≠ ∅ := by
  unfold grow
  split
  · refine Finset.Nonempty.ne_empty ⟨s.capacity, ?_⟩
    rw [addSlots_availableUrl, mem_Ico]
    exact ⟨Nat.le_refl _, Nat.lt_add_of_pos_right (by decide)⟩
  next some => exact some

section Occupy

variable {url : String} {prio : Nat} {service : ServicePtr}

theorem mem_occupied_occupy (below : idx < s.capacity) :
    i ∈ (s.occupy idx url prio service).occupied ↔ i = idx ∨ i ∈ s.occupied := by
  rw [mem_occupied_of_write (occupy_capacity ..) (occupy_serviceList ..) below]
  by_cases same : i = idx <;> simp [same]

theorem card_occupied_occupy (below : idx < s.capacity) (free : idx ∉ s.occupied) :
    (s.occupy idx url prio service).occupied.card = s.occupied.card + 1 := by
  have hi : (s.occupy idx url prio service).occupied = insert idx s.occupied := by
    ext i
    rw [mem_occupied_occupy below, mem_insert]
  rw [hi, Finset.card_insert_of_notMem free]

theorem onlineIndexes_occupy : i ∈ (s.occupy idx url prio service).onlineIndexes ↔
    i ∈ s.onlineIndexes ∨ i = idx ∧ s.NewPosition :=
  onlineIndexes_insertOnline idx prio

theorem Allotted.occupy (ha : s.Allotted) (free : idx ∈ s.availableUrl) :
    (s.occupy idx url prio service).Allotted := by
  obtain ⟨below, vacant⟩ := (ha.available idx).mp free
  have hs := occupy_serviceList s idx url prio service
  refine ⟨ha.indexed_of_write (occupy_capacity ..) hs rfl, fun i => ?_, ?_, fun i hh => ?_⟩
  · rw [mem_occupied_occupy below]
    change i ∈ s.availableUrl.erase idx ↔ i < s.capacity ∧ _
    rw [mem_erase, ha.available]
    tauto
  · exact nodup_insertOnline ha.once idx prio
  · change ((s.mappingUrlIndex.insert url idx).findByRightKey i).isSome
    rw [Bimap.findByRightKey_insert]
    rw [mem_occupied_occupy below] at hh
    by_cases same : i = idx
    · simp [same]
    · rw [if_neg same]
      exact ha.mapped i (hh.resolve_left same)

end Occupy

/-! ### The operations on an index -/

theorem occupied_takeOffline (below : idx < s.capacity) :
    (s.takeOffline idx).occupied = s.occupied :=
  occupied_of_write (takeOffline_capacity s idx) (takeOffline_serviceList s idx) below rfl

theorem Allotted.takeOffline (ha : s.Allotted) (below : idx < s.capacity) :
    (s.takeOffline idx).Allotted := by
  have hs := takeOffline_serviceList s idx
  have same := occupied_takeOffline below
  refine ⟨ha.indexed_of_write (takeOffline_capacity s idx) hs rfl, ?_, nodup_filter ha.once _, ?_⟩
  · rw [same]
    exact ha.available
  · rw [same]
    exact ha.mapped

theorem occupied_bringOnline (below : idx < s.capacity) :
    (s.bringOnline idx).occupied = s.occupied :=
  occupied_of_write (bringOnline_capacity s idx) (bringOnline_serviceList s idx) below rfl

theorem onlineIndexes_bringOnline (ha : s.Allotted) (below : idx < s.capacity) :
    i ∈ (s.bringOnline idx).onlineIndexes ↔ i ∈ s.onlineIndexes ∨ i = idx ∧ s.NewPosition := by
  have hi : (s.serviceList idx).index = idx := ha.indexed idx below
  have added := onlineIndexes_insertOnline (i := i)
    (s := { s with offlineUrls := s.offlineUrls.erase idx }.updateSlot idx fun slot =>
      { slot with online := true }) (s.serviceList idx).index (s.serviceList idx).priority
  rw [hi] at added
  refine Iff.trans ?_ added
  simp [bringOnline, hi]

theorem Allotted.bringOnline (ha : s.Allotted) (below : idx < s.capacity) :
    (s.bringOnline idx).Allotted := by
  have hs := bringOnline_serviceList s idx
  have same := occupied_bringOnline below
  refine ⟨ha.indexed_of_write (bringOnline_capacity s idx) hs rfl, ?_, ?_, ?_⟩
  · rw [same]
    exact ha.available
  · exact nodup_insertOnline ha.once _ _
  · rw [same]
    exact ha.mapped

theorem occupied_release (below : idx < s.capacity) :
    (s.release idx).occupied = s.occupied.erase idx := by
  ext i
  rw [mem_occupied_of_write (release_capacity s idx) (release_serviceList s idx) below]
  by_cases same : i = idx <;> simp [same]

theorem Allotted.release (ha : s.Allotted) (below : idx < s.capacity) :
    (s.release idx).Allotted := by
  have freed := occupied_release below
  have hs := release_serviceList s idx
  refine ⟨ha.indexed_of_write (release_capacity s idx) hs rfl, fun i => ?_,
    nodup_filter ha.once _, fun i hh => ?_⟩
  · rw [freed]
    change i ∈ insert idx s.availableUrl ↔ i < s.capacity ∧ _
    rw [mem_insert, ha.available]
    by_cases equal : i = idx <;> simp [equal, below]
  · rw [freed, mem_erase] at hh
    change ((s.mappingUrlIndex.removebyRightKey idx).findByRightKey i).isSome
    rw [Bimap.findByRightKey_removebyRightKey, if_neg hh.1]
    exact ha.mapped i hh.2

theorem occupied_clear : s.clear.occupied = ∅ := by
  ext i
  rw [mem_occupied]
  by_cases below : i < s.capacity <;> simp [clear, below]

theorem Allotted.clear (ha : s.Allotted) : s.clear.Allotted := by
  refine ⟨fun i below => ?_, fun i => ?_, nodup_nil, fun i hh => ?_⟩
  · have inside : i < s.capacity := below
    simpa [URLServiceFeeder.clear, inside] using ha.indexed i inside
  · rw [occupied_clear]
    have known := ha.available i
    simp only [URLServiceFeeder.clear, Finset.mem_union, known]
    simpa using fun below _ => below
  · rw [occupied_clear] at hh
    cases hh

/-! ### The service that is fed -/

/-- `getService` returns the service of an index of the online set, when there is one. -/
theorem getService_of_online (online : i ∈ s.onlineIndexes) :
    ∃ next ∈ s.onlineIndexes, s.getService.2 = (s.serviceList next).service := by
  have nonempty : s.setUrlsOnline ≠ [] := by
    intro empty
    rw [onlineIndexes, empty] at online
    cases online
  cases mode : s.feedMode with
  | roundRobin =>
    obtain ⟨next, least⟩ := Option.ne_none_iff_exists'.mp
      (fun none => nonempty (leastBy_eq_none.mp none) :
        leastBy (·.roundRobingStartPosition) s.setUrlsOnline ≠ none)
    refine ⟨next.globalIndex, mem_map.mpr ⟨next, leastBy_mem least, rfl⟩, ?_⟩
    simp [getService, mode, getNextFromSetByRoundRobin, least]
  | failOver =>
    obtain ⟨next, least⟩ := Option.ne_none_iff_exists'.mp
      (fun none => nonempty (leastBy_eq_none.mp none) :
        leastBy (·.globalIndex) s.setUrlsOnline ≠ none)
    refine ⟨next.globalIndex, mem_map.mpr ⟨next, leastBy_mem least, rfl⟩, ?_⟩
    simp [getService, mode, getNextFromSetByPriority, least]

/-- What `getService` and `setFeedMode` may change: the positions, and the online set, from which
an index may be erased. -/
structure Rescheduled (s t : URLServiceFeeder) : Prop where
  capacity : t.capacity = s.capacity
  serviceList : t.serviceList = s.serviceList
  availableUrl : t.availableUrl = s.availableUrl
  offlineUrls : t.offlineUrls = s.offlineUrls
  mappingUrlIndex : t.mappingUrlIndex = s.mappingUrlIndex
  onlineIndexes : t.onlineIndexes.Sublist s.onlineIndexes

theorem Rescheduled.occupied (hr : Rescheduled s t) : t.occupied = s.occupied := by
  rw [URLServiceFeeder.occupied, hr.capacity, hr.serviceList]
  rfl

theorem Allotted.of_rescheduled (ha : s.Allotted) (hr : Rescheduled s t) :
    t.Allotted := by
  refine ⟨?_, ?_, ha.once.sublist hr.onlineIndexes, ?_⟩
  · rw [hr.capacity, hr.serviceList]
    exact ha.indexed
  · rw [hr.availableUrl, hr.capacity, hr.occupied]
    exact ha.available
  · rw [hr.mappingUrlIndex, hr.occupied]
    exact ha.mapped

/-- No other element has the position that the next one gets. -/
def Repositions (s : URLServiceFeeder) : Prop :=
  s.feedMode = .roundRobin → ∀ next ∈ leastBy (·.roundRobingStartPosition) s.setUrlsOnline,
    ∀ element ∈ s.setUrlsOnline, element ≠ next →
      element.roundRobingStartPosition ≠ s.nextPosition

instance (s : URLServiceFeeder) : Decidable s.Repositions :=
  inferInstanceAs (Decidable (_ → ∀ next ∈ leastBy _ _, ∀ element ∈ s.setUrlsOnline, _))

theorem NewPosition.repositions (new : s.NewPosition) : s.Repositions :=
  fun _ _ _ elem hm _ => new elem hm

section Reposition

variable {next elem : URLServiceIndex}

/-- The index of an element that moves is kept. -/
theorem map_reposition
    (free : ∀ elem ∈ s.setUrlsOnline, elem ≠ next →
      elem.roundRobingStartPosition ≠ s.nextPosition) :
    (s.reposition next).map (·.globalIndex) = s.onlineIndexes := by
  rw [reposition, if_neg]
  · rw [onlineIndexes, map_map]
    refine map_congr_left fun elem _ => ?_
    rw [comp_apply]
    split <;> rfl
  · rw [any_eq_true]
    rintro ⟨elem, isOther, same⟩
    obtain ⟨isIn, other⟩ := mem_filter.mp isOther
    exact free elem isIn (of_decide_eq_true other) (beq_iff_eq.mp same)

/-- An element that cannot get its position is erased. -/
theorem reposition_of_taken (isIn : elem ∈ s.setUrlsOnline) (other : elem ≠ next)
    (same : elem.roundRobingStartPosition = s.nextPosition) :
    s.reposition next = s.setUrlsOnline.filter (· ≠ next) := by
  rw [reposition, if_pos]
  exact any_eq_true.mpr ⟨elem, mem_filter.mpr ⟨isIn, decide_eq_true other⟩, beq_iff_eq.mpr same⟩

theorem reposition_sublist (s : URLServiceFeeder) (next : URLServiceIndex) :
    ((s.reposition next).map (·.globalIndex)).Sublist s.onlineIndexes := by
  by_cases free : ∀ elem ∈ s.setUrlsOnline, elem ≠ next →
      elem.roundRobingStartPosition ≠ s.nextPosition
  · rw [map_reposition free]
  · push Not at free
    obtain ⟨elem, isIn, other, same⟩ := free
    rw [reposition_of_taken isIn other same]
    exact filter_sublist.map _

end Reposition

theorem getService_rescheduled (s : URLServiceFeeder) : Rescheduled s s.getService.1 := by
  unfold getService
  cases s.feedMode with
  | failOver => exact ⟨rfl, rfl, rfl, rfl, rfl, .refl _⟩
  | roundRobin =>
    unfold getNextFromSetByRoundRobin
    cases leastBy (·.roundRobingStartPosition) s.setUrlsOnline with
    | none => exact ⟨rfl, rfl, rfl, rfl, rfl, .refl _⟩
    | some next => exact ⟨rfl, rfl, rfl, rfl, rfl, s.reposition_sublist next⟩

theorem onlineIndexes_getService (hr : s.Repositions) :
    s.getService.1.onlineIndexes = s.onlineIndexes := by
  unfold getService
  cases hm : s.feedMode with
  | failOver => rfl
  | roundRobin =>
    unfold getNextFromSetByRoundRobin
    cases hl : leastBy (·.roundRobingStartPosition) s.setUrlsOnline with
    | none => rfl
    | some next => exact map_reposition (hr hm next hl)

theorem repositions_of_onlineIndexes (once : s.onlineIndexes.Nodup)
    (kept : ∀ i ∈ s.onlineIndexes, i ∈ s.getService.1.onlineIndexes) : s.Repositions := by
  intro mode next least elem isIn other same
  have nextIn : next ∈ s.setUrlsOnline := leastBy_mem least
  have after := kept next.globalIndex (mem_map.mpr ⟨next, nextIn, rfl⟩)
  simp only [getService, mode, getNextFromSetByRoundRobin, Option.mem_def.mp least] at after
  change next.globalIndex ∈ (s.reposition next).map (·.globalIndex) at after
  rw [reposition_of_taken isIn other same] at after
  obtain ⟨remaining, filtered, equal⟩ := mem_map.mp after
  obtain ⟨remainingIn, different⟩ := mem_filter.mp filtered
  exact of_decide_eq_true different (inj_on_of_nodup_map once remainingIn nextIn equal)

/-! ### Several positions -/

/-- The positions that are taken next are not in use. -/
def NewPositions (s : URLServiceFeeder) (n : Nat) : Prop :=
  ∀ k < n, ∀ element ∈ s.setUrlsOnline,
    element.roundRobingStartPosition ≠ (s.lastRoundRobinIndex + 1 + k) % 2 ^ 64

instance (s : URLServiceFeeder) (n : Nat) : Decidable (s.NewPositions n) :=
  inferInstanceAs (Decidable (∀ k < n, ∀ element ∈ s.setUrlsOnline, _))

theorem NewPositions.newPosition {n : Nat} (new : s.NewPositions (n + 1)) : s.NewPosition :=
  new 0 (Nat.succ_pos n)

/-- A slot that is put online takes the first position. -/
theorem NewPositions.setURLOnline {n : Nat} (new : s.NewPositions (n + 1)) (bounded : n < 2 ^ 64)
    (taken : s.setURLOnline idx = some t) : t.NewPositions n := by
  rcases setURLOnline_cases taken with ⟨-, rfl⟩ | ⟨-, rfl⟩
  · exact fun k below => new k (Nat.lt_succ_of_lt below)
  · intro k below elem isIn
    have others := new (k + 1) (Nat.succ_lt_succ below)
    simp only [bringOnline, insertOnline_setUrlsOnline, insertOnline_lastRoundRobinIndex,
      nextPosition, updateSlot_setUrlsOnline, updateSlot_lastRoundRobinIndex] at isIn ⊢
    have shifted : ((s.lastRoundRobinIndex + 1) % 2 ^ 64 + 1 + k) % 2 ^ 64 =
        (s.lastRoundRobinIndex + 1 + (k + 1)) % 2 ^ 64 := by omega
    split at isIn
    · rw [shifted]
      exact others elem isIn
    · rcases mem_append.mp isIn with old | added
      · rw [shifted]
        exact others elem old
      · obtain rfl := mem_singleton.mp added
        dsimp only
        omega

/-! ### One step -/

/-- The slots held by the URLs that were added and not removed or cleared since, followed
through a step. -/
def holdings (held : Finset Nat) (s : URLServiceFeeder) : Action → Finset Nat
  | .addURL url priority service =>
      match (s.addURL url priority service).2 with
      | some idx => insert idx held
      | none => held
  | .removeURL idx => held.erase idx
  | .clear => ∅
  | .setURLOffline _ | .setURLOnline _ | .getService | .setFeedMode _ => held

theorem addURL_none (url : String) (prio : Nat) : s.addURL url prio none = (s.grow, none) := by
  unfold addURL
  dsimp only
  cases first s.grow.availableUrl <;> rfl

theorem addURL_some (url : String) (prio : Nat) (service : ServicePtr) :
    ∃ idx ∈ s.grow.availableUrl, s.addURL url prio (some service) =
      (s.grow.occupy idx url prio service, some idx) := by
  obtain ⟨idx, least⟩ := Option.ne_none_iff_exists'.mp
    fun none => s.grow_available (first_eq_none.mp none)
  refine ⟨idx, first_mem least, ?_⟩
  unfold addURL
  dsimp only
  rw [least]

/-- What the calls do to the feeder. The three operations on an index do nothing when the
index is above the capacity. -/
inductive Effect (s : URLServiceFeeder) : Action → URLServiceFeeder → Prop
  | addNothing {url : String} {priority : Nat} : Effect s (.addURL url priority none) s.grow
  | addURL {url : String} {priority : Nat} {service : ServicePtr} {idx : Nat}
      (free : idx ∈ s.grow.availableUrl)
      (added : s.addURL url priority (some service) =
        (s.grow.occupy idx url priority service, some idx)) :
      Effect s (.addURL url priority (some service)) (s.grow.occupy idx url priority service)
  | removeNothing {idx : Nat} (beyond : s.capacity < idx) : Effect s (.removeURL idx) s
  | removeURL {idx : Nat} (below : idx < s.capacity) : Effect s (.removeURL idx) (s.release idx)
  | offlineNothing {idx : Nat} (beyond : s.capacity < idx) : Effect s (.setURLOffline idx) s
  | setURLOffline {idx : Nat} (below : idx < s.capacity) :
      Effect s (.setURLOffline idx) (s.takeOffline idx)
  | onlineNothing {idx : Nat} (beyond : s.capacity < idx) : Effect s (.setURLOnline idx) s
  | setURLOnline {idx : Nat} (below : idx < s.capacity) :
      Effect s (.setURLOnline idx) (s.bringOnline idx)
  | clear : Effect s .clear s.clear
  | getService {t : URLServiceFeeder} (rescheduled : Rescheduled s t) : Effect s .getService t
  | setFeedMode {t : URLServiceFeeder} {feedMode : URLServiceFeedMode}
      (rescheduled : Rescheduled s t) : Effect s (.setFeedMode feedMode) t

/-- **Inversion.** Every step has one of the listed effects. -/
theorem step_effect (taken : step s act = some t) : Effect s act t := by
  cases act with
  | addURL url prio service =>
    cases taken
    cases service with
    | none =>
      rw [addURL_none]
      exact .addNothing
    | some service =>
      obtain ⟨idx, free, added⟩ := s.addURL_some url prio service
      rw [added]
      exact .addURL free added
  | removeURL idx =>
    rcases removeURL_cases taken with ⟨beyond, rfl⟩ | ⟨below, rfl⟩
    · exact .removeNothing beyond
    · exact .removeURL below
  | setURLOffline idx =>
    rcases setURLOffline_cases taken with ⟨beyond, rfl⟩ | ⟨below, rfl⟩
    · exact .offlineNothing beyond
    · exact .setURLOffline below
  | setURLOnline idx =>
    rcases setURLOnline_cases taken with ⟨beyond, rfl⟩ | ⟨below, rfl⟩
    · exact .onlineNothing beyond
    · exact .setURLOnline below
  | clear =>
    cases taken
    exact .clear
  | getService =>
    cases taken
    exact .getService s.getService_rescheduled
  | setFeedMode feedMode =>
    cases taken
    exact .setFeedMode ⟨rfl, rfl, rfl, rfl, rfl, .refl _⟩

/-- The service pointers tell which URLs were added and not removed or cleared. -/
theorem step_occupied (ha : s.Allotted)
    (taken : step s act = some t) : t.occupied = holdings s.occupied s act := by
  cases step_effect taken with
  | addNothing => rw [holdings, addURL_none, occupied_grow]
  | @addURL _ _ _ idx free added =>
    rw [holdings, added, ← s.occupied_grow]
    ext i
    rw [mem_occupied_occupy ((ha.grow.available idx).mp free).1, mem_insert]
  | removeNothing beyond =>
    -- an index above the capacity is the index of no slot
    refine (Finset.erase_eq_of_notMem fun hh => ?_).symm
    exact Nat.lt_asymm beyond (mem_occupied.mp hh).1
  | removeURL below => exact occupied_release below
  | setURLOffline below => exact occupied_takeOffline below
  | setURLOnline below => exact occupied_bringOnline below
  | offlineNothing | onlineNothing => rfl
  | clear => exact occupied_clear
  | getService hr | setFeedMode hr => exact hr.occupied

theorem step_allotted (ha : s.Allotted) (taken : step s act = some t) : t.Allotted := by
  cases step_effect taken with
  | addNothing => exact ha.grow
  | addURL free => exact ha.grow.occupy free
  | removeURL below => exact ha.release below
  | setURLOffline below => exact ha.takeOffline below
  | setURLOnline below => exact ha.bringOnline below
  | removeNothing | offlineNothing | onlineNothing => exact ha
  | clear => exact ha.clear
  | getService hr | setFeedMode hr =>
    exact ha.of_rescheduled hr

/-! ### The names of the slots -/

/-- The map tells the URL of every occupied slot and of no other. -/
structure Named (s : URLServiceFeeder) : Prop extends Allotted s where
  paired : s.mappingUrlIndex.LeftPaired
  named : ∀ i url, s.mappingUrlIndex.findByRightKey i = some url ↔
    i ∈ s.occupied ∧ (s.serviceList i).url = url

theorem named_init : init.Named where
  toAllotted := allotted_init
  paired := Bimap.leftPaired_empty
  named i url := by
    rw [show init.mappingUrlIndex.findByRightKey i = none from rfl]
    simp [init, occupied]

namespace Named

theorem unnamed (hn : s.Named) (vacant : idx ∉ s.occupied) :
    s.mappingUrlIndex.findByRightKey idx = none := by
  by_contra found
  obtain ⟨old, entry⟩ := Option.ne_none_iff_exists'.mp found
  exact vacant ((hn.named idx old).mp entry).1

theorem grow (hn : s.Named) : s.grow.Named := by
  refine ⟨hn.toAllotted.grow, ?_, fun i url => ?_⟩
  · rw [mappingUrlIndex_grow]
    exact hn.paired
  · rw [mappingUrlIndex_grow, occupied_grow]
    refine (hn.named i url).trans (and_congr_right fun hh => ?_)
    rw [grow_serviceList_of_occupied hh]

/-- The URL may have another slot already; only the left side of the map minds. -/
theorem occupy {url : String} {prio : Nat} {service : ServicePtr} (hn : s.Named)
    (free : idx ∈ s.availableUrl) : (s.occupy idx url prio service).Named := by
  obtain ⟨below, vacant⟩ := (hn.available idx).mp free
  have hu := hn.unnamed vacant
  refine ⟨hn.toAllotted.occupy free, hn.paired.insert hu, fun i other => ?_⟩
  rw [mem_occupied_occupy below, occupy_serviceList]
  change (s.mappingUrlIndex.insert url idx).findByRightKey i = some other ↔ _
  rw [Bimap.findByRightKey_insert]
  obtain rfl | same := eq_or_ne i idx
  · simp [hu]
  · simpa [same] using hn.named i other

variable (hn : s.Named)

include hn

/-- A write that leaves the service and the URL of the slot alone. -/
theorem of_write {slot : URLService} (ha : t.Allotted) (below : idx < s.capacity)
    (hc : t.capacity = s.capacity)
    (hs : t.serviceList = update s.serviceList idx slot)
    (mapping : t.mappingUrlIndex = s.mappingUrlIndex)
    (service : slot.service = (s.serviceList idx).service)
    (url : slot.url = (s.serviceList idx).url) : t.Named := by
  refine ⟨ha, mapping ▸ hn.paired, fun i other => ?_⟩
  rw [mapping, occupied_of_write hc hs below service, hs]
  refine (hn.named i other).trans (and_congr_right fun _ => ?_)
  obtain rfl | same := eq_or_ne i idx
  · rw [update_self, url]
  · rw [update_of_ne same]

theorem takeOffline (below : idx < s.capacity) : (s.takeOffline idx).Named :=
  hn.of_write (hn.toAllotted.takeOffline below) below (takeOffline_capacity s idx)
    (takeOffline_serviceList s idx) rfl rfl rfl

theorem bringOnline (below : idx < s.capacity) : (s.bringOnline idx).Named :=
  hn.of_write (hn.toAllotted.bringOnline below) below (bringOnline_capacity s idx)
    (bringOnline_serviceList s idx) rfl rfl rfl

theorem release (below : idx < s.capacity) : (s.release idx).Named := by
  refine ⟨hn.toAllotted.release below, hn.paired.removebyRightKey, fun i url => ?_⟩
  rw [occupied_release below, release_serviceList]
  change (s.mappingUrlIndex.removebyRightKey idx).findByRightKey i = some url ↔ _
  rw [Bimap.findByRightKey_removebyRightKey]
  by_cases same : i = idx
  · simp [same]
  · simpa [same] using hn.named i url

/-- The map keeps its entries when the feeder is cleared, so there must not be any. -/
theorem clear (empty : s.occupied = ∅) : s.clear.Named := by
  refine ⟨hn.toAllotted.clear, hn.paired, fun i url => ?_⟩
  have entry := hn.named i url
  rw [empty] at entry
  rw [occupied_clear]
  change s.mappingUrlIndex.findByRightKey i = some url ↔ _
  simpa using entry

theorem of_rescheduled (hr : Rescheduled s t) : t.Named := by
  refine ⟨hn.toAllotted.of_rescheduled hr, ?_, ?_⟩
  · rw [hr.mappingUrlIndex]
    exact hn.paired
  · rw [hr.mappingUrlIndex, hr.occupied, hr.serviceList]
    exact hn.named

end Named

/-- Only `clear` can spoil the names. -/
theorem step_named (hn : s.Named)
    (empty : act = .clear → s.occupied = ∅) (taken : step s act = some t) : t.Named := by
  cases step_effect taken with
  | addNothing => exact hn.grow
  | addURL free => exact hn.grow.occupy free
  | removeURL below => exact hn.release below
  | setURLOffline below => exact hn.takeOffline below
  | setURLOnline below => exact hn.bringOnline below
  | removeNothing | offlineNothing | onlineNothing => exact hn
  | clear => exact hn.clear (empty rfl)
  | getService hr | setFeedMode hr => exact hn.of_rescheduled hr

/-- The entry of a slot stays in the map until the slot is removed. -/
theorem step_entry (act : Action) {url : String} (taken : step s act = some t)
    (other : act ≠ .removeURL i) (entry : s.mappingUrlIndex.findByRightKey i = some url) :
    t.mappingUrlIndex.findByRightKey i = some url := by
  have grown : s.grow.mappingUrlIndex.findByRightKey i = some url := by
    rwa [mappingUrlIndex_grow]
  cases step_effect taken with
  | addNothing => exact grown
  | @addURL new _ _ idx =>
    change (s.grow.mappingUrlIndex.insert new idx).findByRightKey i = some url
    rw [Bimap.findByRightKey_insert]
    by_cases same : i = idx
    · -- `insert` does not overwrite the entry of a known index
      subst same
      simp [grown]
    · rwa [if_neg same]
  | @removeURL idx =>
    change (s.mappingUrlIndex.removebyRightKey idx).findByRightKey i = some url
    have different : i ≠ idx := by
      rintro rfl
      exact other rfl
    rwa [Bimap.findByRightKey_removebyRightKey, if_neg different]
  | getService hr | setFeedMode hr => rwa [hr.mappingUrlIndex]
  | _ => exact entry

/-! ### The services -/

/-- The services of the URLs that were added and not removed or cleared since, by their index. -/
def stock (s : URLServiceFeeder) (act : Action) (_ : URLServiceFeeder)
    (services : Nat → Option ServicePtr) : Nat → Option ServicePtr :=
  match act with
  | .addURL url priority service =>
      match (s.addURL url priority service).2 with
      | some idx => update services idx service
      | none => services
  | .removeURL idx => update services idx none
  | .clear => fun _ => none
  | .setURLOffline _ | .setURLOnline _ | .getService | .setFeedMode _ => services

/-- The feeder as a map from the indexes to the services. -/
structure Stocked (s : URLServiceFeeder) (services : Nat → Option ServicePtr) : Prop where
  allotted : s.Allotted
  held : ∀ i, (s.serviceList i).service = services i
  vacant : ∀ i, s.capacity ≤ i → services i = none

variable {services : Nat → Option ServicePtr}

theorem Stocked.grow (hk : Stocked s services) : Stocked s.grow services := by
  refine ⟨hk.allotted.grow, fun i => ?_, fun i hb => hk.vacant i ?_⟩
  · rw [← hk.held i, URLServiceFeeder.grow]
    split
    · rw [addSlots_serviceList]
      split
      next new => exact ((hk.held i).trans (hk.vacant i (mem_Ico.mp new).1)).symm
      next => rfl
    · rfl
  · refine Nat.le_trans ?_ hb
    rw [URLServiceFeeder.grow]
    split
    · exact Nat.le_add_right ..
    · exact Nat.le_refl _

/-- A write to a slot that exists. -/
theorem Stocked.write {slot : URLService} (hk : Stocked s services) (ha : t.Allotted)
    (hb : idx < s.capacity) (hc : t.capacity = s.capacity)
    (hs : t.serviceList = update s.serviceList idx slot) :
    Stocked t (update services idx slot.service) := by
  refine ⟨ha, fun i => ?_, fun i hi => ?_⟩
  · rw [hs]
    obtain rfl | he := eq_or_ne i idx
    · rw [update_self, update_self]
    · rw [update_of_ne he, update_of_ne he]
      exact hk.held i
  · rw [hc] at hi
    rw [update_of_ne (by omega)]
    exact hk.vacant i hi

theorem step_stocked (hk : Stocked s services) (ht : step s act = some t) :
    Stocked t (stock s act t services) := by
  have ha := step_allotted hk.allotted ht
  -- Neither the state of a service nor its position matters.
  have same : ∀ idx, update services idx (s.serviceList idx).service = services := fun idx => by
    rw [hk.held idx, update_eq_self]
  cases step_effect ht with
  | addNothing =>
    rw [stock, addURL_none]
    exact hk.grow
  | addURL hf added =>
    rw [stock, added]
    exact hk.grow.write ha ((hk.allotted.grow.available _).mp hf).1 (occupy_capacity ..)
      (occupy_serviceList ..)
  | removeNothing beyond =>
    have hv := hk.vacant _ beyond.le
    rw [stock, ← hv, update_eq_self]
    exact hk
  | removeURL hb => exact hk.write ha hb (release_capacity ..) (release_serviceList ..)
  | setURLOffline hb =>
    have hw := hk.write ha hb (takeOffline_capacity ..) (takeOffline_serviceList ..)
    rwa [same] at hw
  | setURLOnline hb =>
    have hw := hk.write ha hb (bringOnline_capacity ..) (bringOnline_serviceList ..)
    rwa [same] at hw
  | offlineNothing | onlineNothing => exact hk
  | clear =>
    refine ⟨ha, fun i => ?_, fun _ _ => rfl⟩
    by_cases hb : i < s.capacity
    · simp [URLServiceFeeder.clear, hb, stock]
    · simpa [URLServiceFeeder.clear, hb, stock] using
        (hk.held i).trans (hk.vacant i (Nat.le_of_not_lt hb))
  | getService hr | setFeedMode hr =>
    refine ⟨ha, fun i => ?_, fun i hb => hk.vacant i (hr.capacity ▸ hb)⟩
    rw [hr.serviceList]
    exact hk.held i

/-- **No service of a removed URL.** Whatever the callers do, `getService` returns nothing or the
service of a URL that was added and not removed or cleared since, and `addURL` hands out no index
that such a URL has. -/
theorem getService_of_stock (acts : List Action) (s : URLServiceFeeder)
    (services : Nat → Option ServicePtr)
    (run : execute (recorded step stock) (init, fun _ => none) acts = some (s, services)) :
    (∀ service ∈ s.getService.2, ∃ i ∈ s.onlineIndexes, services i = some service) ∧
      ∀ url prio service, ∀ idx ∈ (s.addURL url prio service).2, services idx = none := by
  have hk : Stocked s services := by
    refine @invariant_of_execute _ _ _ (fun k => Stocked k.1 k.2) (fun hk ht => ?_) _ _ _
      ⟨allotted_init, fun _ => rfl, fun _ _ => rfl⟩ run
    obtain ⟨ht, hf⟩ := recorded_eq_some.mp ht
    exact hf ▸ step_stocked hk ht
  constructor
  · intro service hg
    cases ho : s.setUrlsOnline with
    | nil =>
      cases hm : s.feedMode <;>
        simp [getService, getNextFromSetByRoundRobin, getNextFromSetByPriority, leastBy, ho, hm]
          at hg
    | cons first rest =>
      obtain ⟨i, hi, he⟩ := getService_of_online (s := s) (i := first.globalIndex)
        (by simp [onlineIndexes, ho])
      rw [he, hk.held i] at hg
      exact ⟨i, hi, hg⟩
  · intro url prio service idx added
    cases service with
    | none =>
      rw [addURL_none] at added
      cases added
    | some service =>
      obtain ⟨i, hf, he⟩ := s.addURL_some url prio service
      rw [he] at added
      obtain rfl := Option.some.inj added
      obtain ⟨hb, hv⟩ := (hk.grow.allotted.available i).mp hf
      rw [← hk.grow.held i]
      simpa [mem_occupied, hb] using hv

/-- The second URL gets the slot of the first one. -/
theorem getService_of_stock_again :
    ∃ k, execute (recorded step stock) (init, fun _ => none)
        [.addURL "a" 0 (some 7), .removeURL 0, .addURL "b" 0 (some 8)] = some k ∧
      ∃ i ∈ k.1.onlineIndexes, k.2 i = some 8 := by
  refine ⟨_, rfl, ?_⟩
  exact (getService_of_stock [.addURL "a" 0 (some 7), .removeURL 0, .addURL "b" 0 (some 8)]
    _ _ rfl).1 8 (by decide)

end ChaosFramework.Network.URLServiceFeeder
