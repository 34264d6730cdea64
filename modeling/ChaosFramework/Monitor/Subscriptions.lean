import ChaosFramework.Monitor.QuantumSlotScheduler
import Mathlib.Data.List.Nodup
import Mathlib.Data.Set.Insert

/-!
# Removed consumers are left alone

What the scheduler is for is a set of subscriptions. `subscribers` reads that set off the slots: the
execution of a request changes it as the request says, and nothing else adds to it. `settled` is the
set after all the requests that are still pending.

A removal that is executed by its caller overtakes the additions that are still pending, and one
that waits can be woken by the completion of another removal of its consumer. With `Ordered` calls
neither happens, and a consumer is not notified any more once its removal has returned.
-/

namespace ChaosFramework.Monitor.QuantumSlotScheduler

open Transition List Option Function QuantumSlot Subscription ScheduleSlot

variable {s t : QuantumSlotScheduler} {sub : Subscription} {ci : SlotConsumerInfo}
  {entry other : ScheduleSlot} {first second set : Set Subscription} {pos : Nat}
  {slotKey : SlotKey}

/-! ### The slots are filed under their keys -/

structure Filed (s : QuantumSlotScheduler) : Prop where
  keyed : ∀ entry ∈ s.setSlots, (s.objects entry.quantumSlot).slotKey = entry.quantumSlotKey
  unique : (s.setSlots.map (·.quantumSlotKey)).Nodup
  allocated : ∀ entry ∈ s.setSlots, entry.quantumSlot < s.created

theorem filed_init : init.Filed where
  keyed := nofun
  unique := nodup_nil
  allocated := nofun

theorem Filed.eq_of_key (filed : s.Filed) (first : entry ∈ s.setSlots)
    (second : other ∈ s.setSlots) (same : entry.quantumSlotKey = other.quantumSlotKey) :
    entry = other :=
  inj_on_of_nodup_map filed.unique first second same

theorem mem_of_lookup (found : s.lookup slotKey = some entry) :
    entry ∈ s.setSlots ∧ entry.quantumSlotKey = slotKey :=
  ⟨mem_of_find?_eq_some found, by simpa using find?_some found⟩

theorem ne_of_lookup_none (missing : s.lookup slotKey = none)
    (member : entry ∈ s.setSlots) : entry.quantumSlotKey ≠ slotKey := by
  simpa using find?_eq_none.mp missing entry member

/-- The consumers of the slots, as the subscriptions they have. -/
def subscribers (s : QuantumSlotScheduler) : Set Subscription :=
  {subscription | ∃ entry ∈ s.setSlots,
    (s.objects entry.quantumSlot).slotKey = subscription.slotKey ∧
      subscription.consumer ∈ (s.objects entry.quantumSlot).pointers}

theorem mem_subscribers_iff (filed : s.Filed) (member : entry ∈ s.setSlots)
    (key : entry.quantumSlotKey = sub.slotKey) :
    sub ∈ s.subscribers ↔ sub.consumer ∈ (s.objects entry.quantumSlot).pointers := by
  constructor
  · rintro ⟨found, listed, named, hr⟩
    rw [filed.keyed found listed] at named
    rwa [filed.eq_of_key member listed (key.trans named.symm)]
  · intro hr
    exact ⟨entry, member, (filed.keyed entry member).trans key, hr⟩

section Update

variable {f : QuantumSlot → QuantumSlot} (keeps : ∀ slot, (f slot).slotKey = slot.slotKey)
include keeps

theorem slotKey_updateSlot (slot ref : SlotRef) :
    ((s.updateSlot slot f).objects ref).slotKey = (s.objects ref).slotKey := by
  rw [updateSlot_objects]
  obtain rfl | same := eq_or_ne ref slot
  · rw [update_self, keeps]
  · rw [update_of_ne same]

theorem Filed.updateSlot (filed : s.Filed) (slot : SlotRef) : (s.updateSlot slot f).Filed := by
  refine ⟨fun entry member => ?_, filed.unique, filed.allocated⟩
  rw [slotKey_updateSlot keeps]
  exact filed.keyed entry member

/-- A change to a slot concerns the subscriptions of its key only. -/
theorem mem_subscribers_updateSlot (filed : s.Filed) (member : entry ∈ s.setSlots) :
    sub ∈ (s.updateSlot entry.quantumSlot f).subscribers ↔
      if sub.slotKey = entry.quantumSlotKey
      then sub.consumer ∈ (f (s.objects entry.quantumSlot)).pointers
      else sub ∈ s.subscribers := by
  split
  next same =>
    rw [mem_subscribers_iff (filed.updateSlot keeps _) member same.symm, updateSlot_objects,
      update_self]
  next different =>
    refine exists_congr fun found => and_congr_right fun listed => ?_
    rw [slotKey_updateSlot keeps]
    refine and_congr_right fun named => ?_
    have elsewhere : found.quantumSlot ≠ entry.quantumSlot := by
      intro same
      rw [same, filed.keyed entry member] at named
      exact different named.symm
    rw [updateSlot_objects, update_of_ne elsewhere]

end Update

section File

variable {slot : QuantumSlot}

theorem fileSlot_objects_of_filed (filed : s.Filed) (member : entry ∈ s.setSlots) :
    (s.fileSlot slot).objects entry.quantumSlot = s.objects entry.quantumSlot := by
  rw [fileSlot_objects, update_of_ne (Nat.ne_of_lt (filed.allocated entry member))]

theorem Filed.fileSlot (filed : s.Filed) (new : s.lookup slot.slotKey = none) :
    (s.fileSlot slot).Filed := by
  refine ⟨forall_mem_append.mpr ⟨fun entry old => ?_, forall_mem_singleton.mpr ?_⟩, ?_,
    forall_mem_append.mpr ⟨fun entry old => Nat.lt_succ_of_lt (filed.allocated entry old),
      forall_mem_singleton.mpr (Nat.lt_succ_self _)⟩⟩
  · rw [fileSlot_objects_of_filed filed old]
    exact filed.keyed entry old
  · simp
  · rw [fileSlot_setSlots, map_append, nodup_append]
    refine ⟨filed.unique, nodup_singleton _, fun key member last added => ?_⟩
    obtain ⟨entry, listed, rfl⟩ := List.mem_map.mp member
    rw [mem_singleton.mp added]
    exact ne_of_lookup_none new listed

theorem mem_subscribers_fileSlot (filed : s.Filed) :
    sub ∈ (s.fileSlot slot).subscribers ↔ sub ∈ s.subscribers ∨
      slot.slotKey = sub.slotKey ∧ sub.consumer ∈ slot.pointers := by
  constructor
  · rintro ⟨entry, member, named, hr⟩
    rcases mem_append.mp member with old | last
    · rw [fileSlot_objects_of_filed filed old] at named hr
      exact .inl ⟨entry, old, named, hr⟩
    · obtain rfl := mem_singleton.mp last
      rw [fileSlot_objects, update_self] at named hr
      exact .inr ⟨named, hr⟩
  · rintro (⟨entry, old, named, hr⟩ | ⟨named, hr⟩)
    · refine ⟨entry, mem_append_left _ old, ?_⟩
      rw [fileSlot_objects_of_filed filed old]
      exact ⟨named, hr⟩
    · refine ⟨_, mem_append_right _ (mem_singleton_self _), ?_⟩
      rw [fileSlot_objects, update_self]
      exact ⟨named, hr⟩

end File

/-! ### What a request does -/

/-- The abstract effect of a request. -/
def effect (set : Set Subscription) (ci : SlotConsumerInfo) : Set Subscription :=
  if ci.operation then insert ci.toSubscription set else set \ {ci.toSubscription}

theorem effect_mono (hi : first ⊆ second)
    (ci : SlotConsumerInfo) : effect first ci ⊆ effect second ci := by
  unfold effect
  split
  · exact Set.insert_subset_insert hi
  · exact fun sub member => ⟨hi member.1, member.2⟩

theorem foldl_effect_mono (hi : first ⊆ second) (reqs : List SlotConsumerInfo) :
    reqs.foldl effect first ⊆ reqs.foldl effect second := by
  induction reqs generalizing first second with
  | nil => exact hi
  | cons ci rest ih => exact ih (effect_mono hi ci)

theorem eq_iff_of_slotKey (key : sub.slotKey = ci.slotKey) :
    sub = ci.toSubscription ↔ sub.consumer = ci.consumer := by
  constructor
  · rintro rfl
    rfl
  · exact eq_of_slotKey key

/-- The slot that an addition files when it finds none. -/
def newSlot (ci : SlotConsumerInfo) : QuantumSlot :=
  (QuantumSlot.create ci.keyToMonitor ci.quantumMultiplier.toInt).addNewConsumer ci.consumer
    ci.consumerPriority

theorem slotKey_newSlot (ci : SlotConsumerInfo) : (newSlot ci).slotKey = ci.slotKey :=
  slotKey_addNewConsumer

/-- An addition joins the slot that it finds, or files a new one, or is lost. -/
theorem addKeyConsumer_cases (s : QuantumSlotScheduler) (ci : SlotConsumerInfo) :
    (∃ entry, s.lookup ci.lookupKey = some entry ∧ s._addKeyConsumer ci =
        s.updateSlot entry.quantumSlot (·.addNewConsumer ci.consumer ci.consumerPriority)) ∨
      (s.lookup ci.lookupKey = none ∧ (s.lookup ci.slotKey).isSome ∧ s._addKeyConsumer ci = s) ∨
      (s.lookup ci.lookupKey = none ∧ s.lookup ci.slotKey = none ∧
        s._addKeyConsumer ci = s.fileSlot (newSlot ci)) := by
  unfold _addKeyConsumer
  cases found : s.lookup ci.lookupKey with
  | some entry => exact .inl ⟨entry, rfl, rfl⟩
  | none =>
    dsimp only
    split
    next taken => exact .inr (.inl ⟨rfl, taken, rfl⟩)
    next free => exact .inr (.inr ⟨rfl, by simpa using free, rfl⟩)

theorem addKeyConsumer_filed (filed : s.Filed) : (s._addKeyConsumer ci).Filed := by
  rcases s.addKeyConsumer_cases ci with ⟨entry, -, joined⟩ | ⟨-, -, lost⟩ | ⟨-, free, filedNew⟩
  · rw [joined]
    exact filed.updateSlot (fun _ => slotKey_addNewConsumer) _
  · rwa [lost]
  · rw [filedNew]
    refine filed.fileSlot ?_
    rwa [slotKey_newSlot]

theorem subscribers_add (filed : s.Filed) (hs : ci.Small) :
    (s._addKeyConsumer ci).subscribers = insert ci.toSubscription s.subscribers := by
  ext sub
  rw [Set.mem_insert_iff]
  unfold _addKeyConsumer
  rw [hs.lookupKey_eq]
  cases found : s.lookup ci.slotKey with
  -- The slot exists: the consumer joins it.
  | some entry =>
    obtain ⟨member, key⟩ := mem_of_lookup found
    rw [mem_subscribers_updateSlot (fun _ => slotKey_addNewConsumer) filed member, key]
    by_cases same : sub.slotKey = ci.slotKey
    · rw [if_pos same, mem_pointers_addNewConsumer, eq_iff_of_slotKey same,
        mem_subscribers_iff filed member (key.trans same.symm)]
    · rw [if_neg same, or_iff_right]
      rintro rfl
      exact same rfl
  | none =>
    rw [if_neg (by simp), mem_subscribers_fileSlot filed, mem_pointers_addNewConsumer, or_comm]
    refine or_congr_left ?_
    -- A slot is made for the key; it has no consumer but the new one.
    have empty : sub.consumer ∉ (create ci.keyToMonitor ci.quantumMultiplier.toInt).pointers := by
      simp [create, pointers]
    rw [or_iff_left empty]
    constructor
    · rintro ⟨key, consumer⟩
      exact eq_of_slotKey key.symm consumer
    · rintro rfl
      exact ⟨rfl, rfl⟩

theorem removeKeyConsumer_snd (s : QuantumSlotScheduler) (ci : SlotConsumerInfo) :
    (s._removeKeyConsumer ci).2 = true := by
  unfold _removeKeyConsumer
  split
  · rfl
  · split <;> rfl

/-- The slots after a removal are those of one update, whether or not it changed anything. -/
theorem removeKeyConsumer_cases (s : QuantumSlotScheduler) (ci : SlotConsumerInfo) :
    (s.lookup ci.lookupKey = none ∧ (s._removeKeyConsumer ci).1 = s) ∨
      ∃ entry free, s.lookup ci.lookupKey = some entry ∧ (s._removeKeyConsumer ci).1 =
        { s.updateSlot entry.quantumSlot fun slot => (slot.removeConsumer ci.consumer).1 with
          freeOfWork := free } := by
  unfold _removeKeyConsumer
  cases found : s.lookup ci.lookupKey with
  | none => exact .inl ⟨rfl, rfl⟩
  | some entry =>
    dsimp only
    split
    next => exact .inr ⟨entry, _, rfl, rfl⟩
    next absent =>
      refine .inr ⟨entry, s.freeOfWork, rfl, ?_⟩
      have same : ((s.objects entry.quantumSlot).removeConsumer ci.consumer).1 =
          s.objects entry.quantumSlot := by
        unfold removeConsumer at absent ⊢
        split
        next known => simp [known] at absent
        next => rfl
      simp [updateSlot, same]

theorem removeKeyConsumer_filed (filed : s.Filed) : (s._removeKeyConsumer ci).1.Filed := by
  rcases s.removeKeyConsumer_cases ci with ⟨-, same⟩ | ⟨entry, free, -, hu⟩
  · rwa [same]
  · rw [hu]
    have kept := filed.updateSlot (f := fun slot => (slot.removeConsumer ci.consumer).1)
      (fun _ => slotKey_removeConsumer) entry.quantumSlot
    exact { kept with }

theorem subscribers_remove (filed : s.Filed) (hs : ci.Small) :
    (s._removeKeyConsumer ci).1.subscribers = s.subscribers \ {ci.toSubscription} := by
  ext sub
  rw [Set.mem_sdiff, Set.mem_singleton_iff]
  rcases s.removeKeyConsumer_cases ci with ⟨missing, same⟩ | ⟨entry, free, found, hu⟩
  -- No slot: then the key had no subscription, as slots are filed under their own key.
  · rw [hs.lookupKey_eq] at missing
    rw [same]
    refine (and_iff_left_of_imp ?_).symm
    rintro ⟨entry, member, named, -⟩ rfl
    exact ne_of_lookup_none missing member ((filed.keyed entry member).symm.trans named)
  · rw [hs.lookupKey_eq] at found
    obtain ⟨member, key⟩ := mem_of_lookup found
    rw [hu]
    refine (mem_subscribers_updateSlot (fun _ => slotKey_removeConsumer) filed member).trans ?_
    rw [key]
    by_cases same : sub.slotKey = ci.slotKey
    · rw [if_pos same, mem_pointers_removeConsumer, eq_iff_of_slotKey same,
        mem_subscribers_iff filed member (key.trans same.symm), and_comm]
    · rw [if_neg same]
      refine (and_iff_left ?_).symm
      rintro rfl
      exact same rfl

/-- The execution of a request changes the subscriptions as it says, and nothing else that
matters here. -/
structure Executes (s t : QuantumSlotScheduler) (ci : SlotConsumerInfo) : Prop where
  filed : t.Filed
  subscribers : t.subscribers = effect s.subscribers ci
  inProcess : t.inProcess = s.inProcess
  queue : t.queueNewQuantumSlotConsumer = s.queueNewQuantumSlotConsumer
  waiting : t.waiting = s.waiting
  withdrawn : t.withdrawn = s.withdrawn
  notifications : t.notifications = s.notifications

theorem executes_add (filed : s.Filed) (hs : ci.Small) (adds : ci.operation = true) :
    Executes s (s._addKeyConsumer ci) ci := by
  have subscribers : (s._addKeyConsumer ci).subscribers = effect s.subscribers ci := by
    rw [subscribers_add filed hs, effect, if_pos adds]
  refine ⟨addKeyConsumer_filed filed, subscribers, ?_, ?_, ?_, ?_, ?_⟩
  all_goals
    unfold _addKeyConsumer
    split
    · rfl
    · split <;> rfl

theorem executes_remove (filed : s.Filed) (hs : ci.Small) (removes : ci.operation = false) :
    Executes s (s._removeKeyConsumer ci).1 ci := by
  have subscribers : (s._removeKeyConsumer ci).1.subscribers = effect s.subscribers ci := by
    rw [subscribers_remove filed hs, effect, if_neg (by simp [removes])]
  refine ⟨removeKeyConsumer_filed filed, subscribers, ?_, ?_, ?_, ?_, ?_⟩
  all_goals
    rcases s.removeKeyConsumer_cases ci with ⟨-, same⟩ | ⟨entry, free, -, hu⟩
    · rw [same]
    · rw [hu]
      rfl

/-! ### Pending requests -/

/-- The requests that the scan thread has still to execute, in their order. -/
def pending (s : QuantumSlotScheduler) : List SlotConsumerInfo :=
  s.inProcess.toList ++ s.queueNewQuantumSlotConsumer

/-- The subscriptions once all the pending requests have been executed. -/
def settled (s : QuantumSlotScheduler) : Set Subscription := s.pending.foldl effect s.subscribers

/-- The invariant. A removal that waits is behind all the additions of its subscription. -/
structure Orderly (s : QuantumSlotScheduler) : Prop where
  filed : s.Filed
  small : ∀ ci ∈ s.pending, ci.Small
  waiting : ∀ subscription ∈ s.waiting, subscription ∉ s.settled
  absent : ∀ subscription ∈ s.withdrawn, subscription ∉ s.subscribers
  unrequested : ∀ subscription ∈ s.withdrawn, ∀ ci ∈ s.pending, ci.operation = true →
    ci.toSubscription ≠ subscription
  silent : ∀ notification ∈ s.notifications, notification.withdrawn = false

theorem orderly_init : init.Orderly where
  filed := filed_init
  small := nofun
  waiting := nofun
  absent := nofun
  unrequested := nofun
  silent := nofun

/-- What the scan passes and the fetchers may change: they add no consumer to a slot. -/
structure Serves (s t : QuantumSlotScheduler) : Prop where
  filed : s.Filed → t.Filed
  pending : t.pending = s.pending
  waiting : t.waiting = s.waiting
  withdrawn : t.withdrawn = s.withdrawn
  subscribers : s.Filed → t.subscribers ⊆ s.subscribers

theorem Orderly.of_serves (ho : s.Orderly) (serves : Serves s t)
    (silent : ∀ note ∈ t.notifications, note.withdrawn = false) : t.Orderly := by
  have fewer := serves.subscribers ho.filed
  refine ⟨serves.filed ho.filed, ?_, ?_, ?_, ?_, silent⟩
  · rw [serves.pending]
    exact ho.small
  · rw [serves.waiting]
    intro sub member later
    refine ho.waiting sub member ?_
    rw [settled, serves.pending] at later
    exact foldl_effect_mono fewer _ later
  · rw [serves.withdrawn]
    intro sub member hr
    exact ho.absent sub member (fewer hr)
  · rw [serves.withdrawn, serves.pending]
    exact ho.unrequested

/-- Slots that change in nothing but their quantum. -/
theorem Serves.of_map {f : ScheduleSlot → ScheduleSlot}
    (sameSlot : ∀ entry, (f entry).quantumSlot = entry.quantumSlot)
    (sameKey : ∀ entry, (f entry).quantumSlotKey = entry.quantumSlotKey)
    (sameSlots : t.setSlots = s.setSlots.map f) (objects : t.objects = s.objects)
    (hc : t.created = s.created) (hp : t.pending = s.pending)
    (hw : t.waiting = s.waiting) (withdrawn : t.withdrawn = s.withdrawn) : Serves s t := by
  refine ⟨fun filed => ⟨fun entry member => ?_, ?_, fun entry member => ?_⟩, hp, hw, withdrawn,
    fun filed => ?_⟩
  · rw [sameSlots] at member
    obtain ⟨old, listed, rfl⟩ := List.mem_map.mp member
    rw [objects, sameSlot, sameKey]
    exact filed.keyed old listed
  · have keys : (·.quantumSlotKey) ∘ f = fun entry : ScheduleSlot => entry.quantumSlotKey :=
      funext sameKey
    rw [sameSlots, List.map_map, keys]
    exact filed.unique
  · rw [sameSlots] at member
    obtain ⟨old, listed, rfl⟩ := List.mem_map.mp member
    rw [hc, sameSlot]
    exact filed.allocated old listed
  · rintro sub ⟨entry, member, named, hr⟩
    rw [sameSlots] at member
    obtain ⟨old, listed, rfl⟩ := List.mem_map.mp member
    rw [objects, sameSlot] at named hr
    exact ⟨old, listed, named, hr⟩

theorem Serves.of_filter {keep : ScheduleSlot → Bool}
    (sameSlots : t.setSlots = s.setSlots.filter keep) (objects : t.objects = s.objects)
    (hc : t.created = s.created) (hp : t.pending = s.pending)
    (hw : t.waiting = s.waiting) (withdrawn : t.withdrawn = s.withdrawn) : Serves s t := by
  refine ⟨fun filed => ⟨fun entry member => ?_, ?_, fun entry member => ?_⟩, hp, hw, withdrawn,
    fun filed => ?_⟩
  · rw [sameSlots] at member
    rw [objects]
    exact filed.keyed entry (mem_of_mem_filter member)
  · rw [sameSlots]
    exact filed.unique.sublist (filter_sublist.map _)
  · rw [sameSlots] at member
    rw [hc]
    exact filed.allocated entry (mem_of_mem_filter member)
  · rintro sub ⟨entry, member, named, hr⟩
    rw [sameSlots] at member
    rw [objects] at named hr
    exact ⟨entry, mem_of_mem_filter member, named, hr⟩

theorem Serves.of_same (sameSlots : t.setSlots = s.setSlots) (objects : t.objects = s.objects)
    (hc : t.created = s.created) (hp : t.pending = s.pending)
    (hw : t.waiting = s.waiting) (withdrawn : t.withdrawn = s.withdrawn) : Serves s t :=
  .of_map (f :=
    id) (fun _ => rfl) (fun _ => rfl) (by rw [sameSlots, List.map_id]) objects hc hp hw withdrawn

section

variable (ho : s.Orderly)

include ho

/-- The first of the pending requests is executed. -/
theorem Orderly.of_executes (announced : s.pending = ci :: s.queueNewQuantumSlotConsumer)
    (executes : Executes { s with inProcess := none } t ci) : t.Orderly := by
  have left : t.pending = s.queueNewQuantumSlotConsumer := by
    rw [pending, executes.inProcess, executes.queue]
    rfl
  have subscribers : t.subscribers = effect s.subscribers ci := executes.subscribers
  have settled : t.settled = s.settled := by
    rw [QuantumSlotScheduler.settled, QuantumSlotScheduler.settled, left, announced, subscribers,
      foldl_cons]
  refine ⟨executes.filed, fun req member => ?_, ?_, ?_, ?_, ?_⟩
  · rw [left] at member
    exact ho.small req (announced ▸ mem_cons_of_mem ci member)
  · rw [executes.waiting, settled]
    exact ho.waiting
  · rw [executes.withdrawn, subscribers]
    intro sub member hr
    have ha := ho.absent sub member
    unfold effect at hr
    split at hr
    next adds =>
      -- an addition of a withdrawn subscription is not pending
      rcases hr with same | old
      · exact ho.unrequested sub member ci (announced ▸ mem_cons_self ..) adds same.symm
      · exact ha old
    next => exact ha hr.1
  · rw [executes.withdrawn, left]
    intro sub member req queued
    exact ho.unrequested sub member req (announced ▸ mem_cons_of_mem ci queued)
  · rw [executes.notifications]
    exact ho.silent

/-! ### The scan thread and the fetchers -/

theorem Orderly.scanSlot {order : List SlotRef} (taken : s.scanSlot order = some t) :
    t.Orderly := by
  obtain ⟨-, ⟨⟩⟩ := ite_none_right_eq_some.mp taken
  exact ho.of_serves (.of_map scan_quantumSlot scan_quantumSlotKey
    rfl rfl rfl rfl rfl rfl) ho.silent

theorem Orderly.takeConsumerInfo (taken : s.takeConsumerInfo = some t) : t.Orderly := by
  unfold QuantumSlotScheduler.takeConsumerInfo at taken
  split at taken
  next ci rest idle queue =>
    cases taken
    refine ho.of_serves (.of_same rfl rfl rfl ?_ rfl rfl) ho.silent
    rw [pending, pending, idle, queue]
    rfl
  next => cases taken

/-- The execution of a request is what the pending requests announced. -/
theorem Orderly.processConsumerInfo (taken : s.processConsumerInfo = some t) : t.Orderly := by
  unfold QuantumSlotScheduler.processConsumerInfo at taken
  cases hp : s.inProcess with
  | none =>
    rw [hp] at taken
    cases taken
  | some ci =>
    rw [hp] at taken
    cases taken
    have announced : s.pending = ci :: s.queueNewQuantumSlotConsumer := by
      rw [pending, hp]
      rfl
    have hs : ci.Small := ho.small ci (announced ▸ mem_cons_self ..)
    have filed : Filed { s with inProcess := none } :=
      ⟨ho.filed.keyed, ho.filed.unique, ho.filed.allocated⟩
    cases kind : ci.operation with
    | true => exact ho.of_executes announced (executes_add filed hs kind)
    | false => exact ho.of_executes announced (executes_remove filed hs kind)

theorem Orderly.fetchValue (taken : s.fetchValue = some t) : t.Orderly := by
  unfold QuantumSlotScheduler.fetchValue at taken
  split at taken <;> cases taken
  exact ho.of_serves (.of_same rfl rfl rfl rfl rfl rfl) ho.silent

end

theorem live_of_dispatchedSlot {stage : DispatchStage} {slot : SlotRef}
    (found : s.dispatchedSlot pos stage = some slot) :
    ∃ entry ∈ s.setSlots, entry.quantumSlot = slot := by
  unfold dispatchedSlot at found
  split at found
  next => cases found
  next dispatch listed =>
    split at found
    next ready =>
      cases found
      simpa [live] using ready.2
    next => cases found

theorem Orderly.checkSlot (ho : s.Orderly) (taken : s.checkSlot pos = some t) : t.Orderly := by
  obtain ⟨slot, -, hc⟩ := bind_eq_some_iff.mp taken
  split at hc
  next =>
    cases hc
    exact ho.of_serves (.of_same rfl rfl rfl rfl rfl rfl) ho.silent
  next =>
    obtain ⟨entry, -, rfl⟩ := map_eq_some_iff.mp hc
    exact ho.of_serves (.of_filter rfl rfl rfl rfl rfl rfl) ho.silent

/-- The consumers of a slot that exists are subscribers, so none of them is withdrawn. -/
theorem Orderly.sendValue {reached : Nat} {hasData : Bool} (ho : s.Orderly)
    (taken : s.sendValue pos hasData reached = some t) : t.Orderly := by
  obtain ⟨slot, found, rfl⟩ := map_eq_some_iff.mp taken
  obtain ⟨entry, member, rfl⟩ := live_of_dispatchedSlot found
  refine ho.of_serves (.of_same rfl rfl rfl rfl rfl rfl) fun note sent => ?_
  rcases mem_append.mp sent with old | new
  · exact ho.silent note old
  · obtain ⟨cons, hn, rfl⟩ := List.mem_map.mp new
    rw [Bool.eq_false_iff]
    intro hit
    obtain ⟨sub, withdrawn, same⟩ := List.any_eq_true.mp hit
    obtain ⟨key, rfl⟩ := of_decide_eq_true same
    exact ho.absent sub withdrawn ⟨entry, member, key.symm, mem_of_mem_take hn⟩

theorem Orderly.resetSlot (ho : s.Orderly) (taken : s.resetSlot pos = some t) : t.Orderly := by
  obtain ⟨slot, -, reset⟩ := bind_eq_some_iff.mp taken
  obtain ⟨entry, -, rfl⟩ := map_eq_some_iff.mp reset
  refine ho.of_serves (.of_map (fun entry => ?_) (fun entry => ?_) rfl rfl rfl rfl rfl rfl)
    ho.silent
  · split <;> rfl
  · split <;> rfl

/-! ### The calls of the users -/

/-- No subscription is added while its removal waits, no removal overtakes a pending addition
of its subscription, no removal returns while a request of its subscription is pending, and
the multipliers fit in an `int`. -/
def Ordered (s : QuantumSlotScheduler) : Action → Prop
  | .addKeyConsumer subscription _ => subscription.Small ∧ subscription ∉ s.waiting
  | .removeKeyConsumer subscription => subscription.Small ∧
      ∀ ci ∈ s.pending, ci.operation = true → ci.toSubscription ≠ subscription
  | .submitRemoval subscription => subscription.Small
  | .completeRemoval subscription => ∀ ci ∈ s.pending, ci.toSubscription ≠ subscription
  | _ => True

instance (s : QuantumSlotScheduler) (action : Action) : Decidable (s.Ordered action) := by
  cases action <;> unfold Ordered <;> infer_instance

/-- A request that is not about the subscription does not decide about it. -/
theorem mem_effect_of_ne (other : ci.toSubscription ≠ sub) : sub ∈ effect set ci ↔ sub ∈ set := by
  unfold effect
  split
  · rw [Set.mem_insert_iff, or_iff_right other.symm]
  · rw [Set.mem_sdiff, Set.mem_singleton_iff, and_iff_left other.symm]

theorem mem_foldl_effect_of_ne {reqs : List SlotConsumerInfo}
    (other : ∀ ci ∈ reqs, ci.toSubscription ≠ sub) :
    sub ∈ reqs.foldl effect set ↔ sub ∈ set := by
  induction reqs generalizing set with
  | nil => exact Iff.rfl
  | cons ci rest ih =>
    rw [foldl_cons, ih fun req member => other req (mem_cons_of_mem ci member)]
    exact mem_effect_of_ne (other ci (mem_cons_self ..))

theorem settled_push (hp : t.pending = s.pending ++ [ci])
    (subscribers : t.subscribers = s.subscribers) : t.settled = effect s.settled ci := by
  rw [settled, hp, subscribers, foldl_append]
  rfl

theorem pending_push {queue : List SlotConsumerInfo} (idle : t.inProcess = s.inProcess)
    (pushed : t.queueNewQuantumSlotConsumer = s.queueNewQuantumSlotConsumer ++ queue) :
    t.pending = s.pending ++ queue := by
  rw [pending, pending, idle, pushed, append_assoc]

section

variable (ho : s.Orderly) (hs : sub.Small)

include ho hs

theorem Orderly.addKeyConsumer {cprio : Nat} (idle : sub ∉ s.waiting) :
    (s.addKeyConsumer sub cprio).Orderly := by
  have pushed := pending_push (s := s) (t := s.addKeyConsumer sub cprio) rfl rfl
  refine ⟨⟨ho.filed.keyed, ho.filed.unique, ho.filed.allocated⟩,
    ?_, fun other member => ?_, fun other member => ?_, fun other member => ?_, ho.silent⟩
  · rw [pushed]
    exact forall_mem_append.mpr ⟨ho.small, forall_mem_singleton.mpr hs⟩
  -- A removal that waits is for another triple, by the guard.
  · rw [settled_push pushed rfl, mem_effect_of_ne]
    · exact ho.waiting other member
    · rintro rfl
      exact idle member
  · exact ho.absent other (mem_of_mem_filter member)
  · rw [pushed]
    refine forall_mem_append.mpr ⟨ho.unrequested other (mem_of_mem_filter member), ?_⟩
    have different := (mem_filter.mp member).2
    simpa using Ne.symm (of_decide_eq_true different)

theorem Orderly.removeKeyConsumer
    (alone : ∀ ci ∈ s.pending, ci.operation = true → ci.toSubscription ≠ sub) :
    (s.removeKeyConsumer sub).Orderly := by
  have executes : Executes s (s._removeKeyConsumer ⟨sub, false, 0⟩).1
      ⟨sub, false, 0⟩ := executes_remove ho.filed hs rfl
  obtain ⟨mid, removed⟩ : ∃ mid, s._removeKeyConsumer ⟨sub, false, 0⟩ = (mid, true) :=
    ⟨_, Prod.ext rfl (s.removeKeyConsumer_snd _)⟩
  rw [QuantumSlotScheduler.removeKeyConsumer, removed]
  rw [removed] at executes
  have same : mid.pending = s.pending := by
    rw [pending, pending, executes.inProcess, executes.queue]
  -- The removal is executed at once, past the queue.
  have fewer : mid.subscribers ⊆ s.subscribers := by
    rw [executes.subscribers]
    exact fun other member => member.1
  refine ⟨⟨executes.filed.keyed, executes.filed.unique, executes.filed.allocated⟩, ?_, ?_, ?_, ?_,
    ?_⟩
  · change ∀ ci ∈ mid.pending, ci.Small
    rw [same]
    exact ho.small
  · change ∀ other ∈ mid.waiting, other ∉ mid.pending.foldl effect mid.subscribers
    rw [executes.waiting, same]
    -- Fewer subscriptions now are fewer once the queue has been worked off.
    intro other member later
    exact ho.waiting other member (foldl_effect_mono fewer _ later)
  · change ∀ other ∈ sub :: mid.withdrawn, other ∉ mid.subscribers
    rw [executes.withdrawn]
    refine forall_mem_cons.mpr ⟨?_, fun other old hr => ho.absent other old (fewer hr)⟩
    rw [executes.subscribers]
    exact fun hr => hr.2 rfl
  · change ∀ other ∈ sub :: mid.withdrawn, ∀ ci ∈ mid.pending, _
    rw [executes.withdrawn, same]
    exact forall_mem_cons.mpr ⟨alone, ho.unrequested⟩
  · rw [executes.notifications]
    exact ho.silent

theorem Orderly.submitRemoval : (s.submitRemoval sub).Orderly := by
  have pushed := pending_push (s := s) (t := s.submitRemoval sub) rfl rfl
  refine ⟨⟨ho.filed.keyed, ho.filed.unique, ho.filed.allocated⟩,
    ?_, fun other member => ?_, ho.absent, fun other member => ?_, ho.silent⟩
  · rw [pushed]
    exact forall_mem_append.mpr ⟨ho.small, forall_mem_singleton.mpr hs⟩
  · rw [settled_push pushed rfl]
    rintro ⟨later, different⟩
    rcases mem_cons.mp member with rfl | old
    · exact different rfl
    · exact ho.waiting other old later
  · rw [pushed]
    exact forall_mem_append.mpr ⟨ho.unrequested other member, forall_mem_singleton.mpr nofun⟩

end

theorem Orderly.completeRemoval (ho : s.Orderly) (done : ∀ ci ∈ s.pending, ci.toSubscription ≠ sub)
    (taken : s.completeRemoval sub = some t) : t.Orderly := by
  obtain ⟨ready, ⟨⟩⟩ := ite_none_right_eq_some.mp taken
  refine ⟨⟨ho.filed.keyed, ho.filed.unique, ho.filed.allocated⟩, ho.small,
    fun other member => ho.waiting other (mem_of_mem_erase member),
    fun other member => ?_, fun other member => ?_, ho.silent⟩
  · rcases mem_cons.mp member with rfl | old
    · -- nothing is pending, so the subscriptions are settled
      have gone := ho.waiting other ready.1
      rwa [settled, mem_foldl_effect_of_ne done] at gone
    · exact ho.absent other old
  · rcases mem_cons.mp member with rfl | old
    · exact fun ci request _ => done ci request
    · exact ho.unrequested other old

theorem step_orderly {act : Action} (ho : s.Orderly) (ordered : s.Ordered act)
    (taken : step s act = some t) : t.Orderly := by
  cases act with
  | addKeyConsumer sub cprio =>
    cases taken
    exact ho.addKeyConsumer ordered.1 ordered.2
  | removeKeyConsumer sub =>
    cases taken
    exact ho.removeKeyConsumer ordered.1 ordered.2
  | submitRemoval sub =>
    cases taken
    exact ho.submitRemoval ordered
  | completeRemoval sub => exact ho.completeRemoval ordered taken
  | scanSlot order => exact ho.scanSlot taken
  | takeConsumerInfo => exact ho.takeConsumerInfo taken
  | processConsumerInfo => exact ho.processConsumerInfo taken
  | fetchValue => exact ho.fetchValue taken
  | checkSlot pos => exact ho.checkSlot taken
  | sendValue pos hasData reached => exact ho.sendValue taken
  | resetSlot pos => exact ho.resetSlot taken

/-- A withdrawn consumer is in no slot of its key, and it was not notified after its
withdrawal. -/
structure LeftAlone (s : QuantumSlotScheduler) : Prop where
  absent : ∀ subscription ∈ s.withdrawn, ∀ entry ∈ s.setSlots,
    (s.objects entry.quantumSlot).slotKey = subscription.slotKey →
      subscription.consumer ∉ (s.objects entry.quantumSlot).pointers
  silent : ∀ notification ∈ s.notifications, notification.withdrawn = false

theorem Orderly.leftAlone (ho : s.Orderly) : s.LeftAlone where
  absent sub member entry listed key hr :=
    ho.absent sub member ⟨entry, listed, key, hr⟩
  silent := ho.silent

/-- A consumer whose removal has returned is in no slot and is not notified, until it is added
again, in every interleaving in which the calls are ordered. -/
theorem removed_consumer_left_alone {actions : List Action}
    (admissible : Admissible step Ordered init actions)
    (run : execute step init actions = some s) : s.LeftAlone :=
  (admissible.invariant step_orderly orderly_init run).leftAlone

/-- A consumer is added, gets a value and is removed, and its slot is erased. -/
def lifetime : List Action :=
  [.addKeyConsumer ⟨"k", 1, 9⟩ 500, .takeConsumerInfo, .processConsumerInfo, .scanSlot [0],
    .fetchValue, .checkSlot 0, .sendValue 0 true 1, .resetSlot 0, .submitRemoval ⟨"k", 1, 9⟩,
    .takeConsumerInfo, .processConsumerInfo, .completeRemoval ⟨"k", 1, 9⟩, .scanSlot [0],
    .fetchValue, .checkSlot 0]

theorem removed_consumer_left_alone_erased :
    ∃ s, execute step init lifetime = some s ∧ s.withdrawn = [⟨"k", 1, 9⟩] ∧
      s.notifications.length = 1 ∧ s.setSlots = [] ∧ s.LeftAlone := by
  have ordered : Admissible step Ordered init lifetime := by decide
  exact ⟨_, rfl, by decide, by decide, by decide, removed_consumer_left_alone ordered rfl⟩

/-- A removal that overtakes the addition, one that is woken by the flag which an earlier removal
has left, and one whose multiplier is too large for an `int`. -/
theorem removed_consumer_notified :
    (∃ s, execute step init [.addKeyConsumer ⟨"k", 1, 9⟩ 500, .removeKeyConsumer ⟨"k", 1, 9⟩,
        .takeConsumerInfo, .processConsumerInfo, .scanSlot [0], .fetchValue, .checkSlot 0,
        .sendValue 0 true 1] = some s ∧
      s.withdrawn = [⟨"k", 1, 9⟩] ∧ s.notifications = [⟨⟨"k", 1⟩, 9, true, true⟩] ∧
      ¬ s.LeftAlone) ∧
    (∃ s, execute step init [.addKeyConsumer ⟨"k", 1, 9⟩ 500, .takeConsumerInfo,
        .processConsumerInfo, .removeKeyConsumer ⟨"k", 1, 9⟩, .addKeyConsumer ⟨"k", 1, 9⟩ 500,
        .takeConsumerInfo, .processConsumerInfo, .submitRemoval ⟨"k", 1, 9⟩,
        .completeRemoval ⟨"k", 1, 9⟩, .scanSlot [0], .fetchValue, .checkSlot 0,
        .sendValue 0 true 1] = some s ∧
      s.withdrawn = [⟨"k", 1, 9⟩] ∧ s.notifications = [⟨⟨"k", 1⟩, 9, true, true⟩] ∧
      ¬ s.LeftAlone) ∧
    (∃ s, execute step init [.addKeyConsumer ⟨"k", 2147483648, 9⟩ 500, .takeConsumerInfo,
        .processConsumerInfo, .removeKeyConsumer ⟨"k", 2147483648, 9⟩] = some s ∧
      s.withdrawn = [⟨"k", 2147483648, 9⟩] ∧ (s.objects 0).pointers = [9] ∧ ¬ s.LeftAlone) := by
  refine ⟨⟨_, rfl, by decide, by decide, fun alone => ?_⟩,
    ⟨_, rfl, by decide, by decide, fun alone => ?_⟩,
    ⟨_, rfl, by decide, by decide, fun alone => ?_⟩⟩
  · exact absurd (alone.silent _ (mem_singleton_self _)) (by decide)
  · exact absurd (alone.silent _ (mem_singleton_self _)) (by decide)
  · exact alone.absent _ (mem_singleton_self _) _ (mem_singleton_self _) (by decide) (by decide)

end ChaosFramework.Monitor.QuantumSlotScheduler
