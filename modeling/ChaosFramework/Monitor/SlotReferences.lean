import ChaosFramework.Monitor.Subscriptions
import Mathlib.Data.List.Perm.Subperm

/-!
# One reference to a slot

The queue of the active slots and the fetchers hold plain pointers to the slots. A pass of the scan
queues a slot only when its quantum has come down to zero, and sets it to -1 then, where it stays
until the dispatch is over. So there is one reference at a time, and only the fetcher that holds it
erases the slot.

The value -1 is also that of a slot whose multiplier is the largest `unsigned int`. With `Counted`
additions no such slot is made; the guard is exact.
-/

namespace ChaosFramework.Monitor.QuantumSlotScheduler

open Transition List ScheduleSlot Subscription

variable {s t : QuantumSlotScheduler} {ci : SlotConsumerInfo} {slot : SlotRef}
  {entry other : ScheduleSlot} {act : Action}

/-- The references to slots: those in the queue and those of the fetchers. -/
def active (s : QuantumSlotScheduler) : List SlotRef :=
  s.queueActiveSlot ++ s.dispatching.map (·.slot)

/-- What the users of the pointers rely on. -/
structure Exclusive (s : QuantumSlotScheduler) : Prop where
  single : s.active.Nodup
  disabled : ∀ entry ∈ s.setSlots, entry.currentQuantum = -1 ↔ entry.quantumSlot ∈ s.active
  queued : ∀ slot ∈ s.queueActiveSlot, s.live slot
  found : ∀ dispatch ∈ s.dispatching, ∃ entry,
    s.lookup (s.objects dispatch.slot).slotKey = some entry ∧ entry.quantumSlot = dispatch.slot

/-- The invariant. -/
structure Tracked (s : QuantumSlotScheduler) : Prop where
  filed : s.Filed
  single : s.active.Nodup
  disabled : ∀ entry ∈ s.setSlots, entry.currentQuantum = -1 ↔ entry.quantumSlot ∈ s.active
  listed : ∀ slot ∈ s.active, ∃ entry ∈ s.setSlots, entry.quantumSlot = slot
  counted : ∀ entry ∈ s.setSlots,
    entry.quantumSlotKey.quantum ≠ -1 ∧ entry.quantumSlotKey.quantum < 2147483648

theorem tracked_init : init.Tracked where
  filed := filed_init
  single := nodup_nil
  disabled := nofun
  listed := nofun
  counted := nofun

section

variable (filed : s.Filed) (first : entry ∈ s.setSlots) (second : other ∈ s.setSlots)

include filed first second

theorem Filed.eq_of_slot (same : entry.quantumSlot = other.quantumSlot) : entry = other := by
  refine filed.eq_of_key first second ?_
  rw [← filed.keyed entry first, same, filed.keyed other second]

theorem Filed.key_eq_iff :
    entry.quantumSlotKey = other.quantumSlotKey ↔ entry.quantumSlot = other.quantumSlot := by
  constructor
  · intro same
    rw [filed.eq_of_key first second same]
  · intro same
    rw [filed.eq_of_slot first second same]

end

theorem Filed.lookup_slotKey (filed : s.Filed) (member : entry ∈ s.setSlots) :
    s.lookup (s.objects entry.quantumSlot).slotKey = some entry := by
  rw [filed.keyed entry member]
  cases found : s.lookup entry.quantumSlotKey with
  | none => exact absurd rfl (ne_of_lookup_none found member)
  | some first =>
    obtain ⟨listed, key⟩ := mem_of_lookup found
    rw [filed.eq_of_key listed member key]

theorem Tracked.exclusive (tracked : s.Tracked) : s.Exclusive where
  single := tracked.single
  disabled := tracked.disabled
  queued slot member := by
    obtain ⟨entry, hl, rfl⟩ := tracked.listed slot (mem_append_left _ member)
    exact any_eq_true.mpr ⟨entry, hl, decide_eq_true rfl⟩
  found dispatch member := by
    obtain ⟨entry, hl, same⟩ :=
      tracked.listed dispatch.slot (mem_append_right _ (mem_map_of_mem member))
    rw [← same]
    exact ⟨entry, tracked.filed.lookup_slotKey hl, rfl⟩

/-! ### What happens to the references -/

/-- The references pass from hand to hand, and the slots stay. -/
theorem Tracked.of_perm (tracked : s.Tracked) (filed : t.Filed)
    (hs : t.setSlots = s.setSlots) (moved : t.active.Perm s.active) : t.Tracked where
  filed := filed
  single := moved.nodup_iff.mpr tracked.single
  disabled := by
    rw [hs]
    intro entry member
    rw [moved.mem_iff]
    exact tracked.disabled entry member
  listed slot member := by
    rw [hs]
    exact tracked.listed slot (moved.mem_iff.mp member)
  counted := by
    rw [hs]
    exact tracked.counted

theorem Tracked.fileSlot {slot : QuantumSlot} (tracked : s.Tracked)
    (new : s.lookup slot.slotKey = none) (counts : slot.quantumMultiplier ≠ -1)
    (small : slot.quantumMultiplier < 2147483648) : (s.fileSlot slot).Tracked where
  filed := tracked.filed.fileSlot new
  single := tracked.single
  disabled entry member := by
    rcases mem_append.mp member with old | last
    · exact tracked.disabled entry old
    · obtain rfl := mem_singleton.mp last
      refine iff_of_false counts fun hr => ?_
      -- a reference is to a slot that was created before
      obtain ⟨entry, hl, same⟩ := tracked.listed s.created hr
      exact absurd same (Nat.ne_of_lt (tracked.filed.allocated entry hl))
  listed slot member := by
    obtain ⟨entry, hl, same⟩ := tracked.listed slot member
    exact ⟨entry, mem_append_left _ hl, same⟩
  counted entry member := by
    rcases mem_append.mp member with old | last
    · exact tracked.counted entry old
    · obtain rfl := mem_singleton.mp last
      exact ⟨counts, small⟩

theorem currentQuantum_of_isDue (due : entry.isDue = true) :
    entry.currentQuantum = 0 ∨ entry.currentQuantum = 1 := by
  unfold ScheduleSlot.isDue decrementQuantum at due
  split at due
  · have zero := of_decide_eq_true due
    dsimp only at zero
    omega
  · exact .inl (of_decide_eq_true due)

/-- A pass disables the slots that are due and no others. -/
theorem scan_currentQuantum (entry : ScheduleSlot) :
    entry.scan.currentQuantum = -1 ↔ entry.currentQuantum = -1 ∨ entry.isDue = true := by
  unfold ScheduleSlot.scan
  by_cases due : entry.isDue = true
  · rw [if_pos due]
    exact iff_of_true rfl (.inr due)
  · rw [if_neg due, or_iff_left due]
    unfold decrementQuantum
    split
    next positive =>
      dsimp only
      omega
    next => exact Iff.rfl

section

variable (tracked : s.Tracked)

include tracked

theorem Tracked.mem_dueSlots (member : entry ∈ s.setSlots) :
    entry.quantumSlot ∈ s.dueSlots ↔ entry.isDue = true := by
  constructor
  · intro due
    obtain ⟨other, hf, same⟩ := mem_map.mp due
    obtain ⟨listed, isDue⟩ := mem_filter.mp hf
    rwa [tracked.filed.eq_of_slot member listed same.symm]
  · intro due
    exact mem_map_of_mem (mem_filter.mpr ⟨member, due⟩)

theorem Tracked.nodup_dueSlots : s.dueSlots.Nodup := by
  have slots : s.setSlots.Nodup := tracked.filed.unique.of_map _
  refine (slots.filter _).map_on fun first listed second listedToo same => ?_
  exact tracked.filed.eq_of_slot (mem_of_mem_filter listed) (mem_of_mem_filter listedToo) same

/-- A slot that is due is not disabled, so that it has no reference yet. -/
theorem Tracked.disjoint_dueSlots : s.active.Disjoint s.dueSlots := by
  intro slot hr due
  obtain ⟨entry, hl, rfl⟩ := tracked.listed slot hr
  have disabled := (tracked.disabled entry hl).mpr hr
  have quantum := currentQuantum_of_isDue ((tracked.mem_dueSlots hl).mp due)
  omega

theorem Tracked.scanSlot {order : List SlotRef} (taken : s.scanSlot order = some t) :
    t.Tracked := by
  obtain ⟨permuted, ⟨⟩⟩ := Option.ite_none_right_eq_some.mp taken
  have filed : Filed { s with
      setSlots := s.setSlots.map ScheduleSlot.scan
      queueActiveSlot := s.queueActiveSlot ++ order } :=
    Serves.filed (.of_map scan_quantumSlot scan_quantumSlotKey rfl rfl rfl rfl rfl rfl)
      tracked.filed
  -- the new references are behind those of the queue, before those of the fetchers
  have moved : (s.queueActiveSlot ++ order ++ s.dispatching.map (·.slot)).Perm
      (s.active ++ s.dueSlots) := by
    rw [active, append_assoc, append_assoc]
    exact (perm_append_comm.trans (permuted.append_left _)).append_left _
  refine ⟨filed, ?_, ?_, ?_, ?_⟩
  · refine moved.nodup_iff.mpr ?_
    exact tracked.single.append tracked.nodup_dueSlots tracked.disjoint_dueSlots
  · intro entry member
    obtain ⟨old, hl, rfl⟩ := mem_map.mp member
    rw [scan_currentQuantum, scan_quantumSlot, tracked.disabled old hl,
      ← tracked.mem_dueSlots hl, ← mem_append]
    exact moved.mem_iff.symm
  · intro slot member
    rcases mem_append.mp (moved.mem_iff.mp member) with hr | due
    · obtain ⟨entry, hl, same⟩ := tracked.listed slot hr
      exact ⟨entry.scan, mem_map_of_mem hl, (scan_quantumSlot entry).trans same⟩
    · obtain ⟨entry, hf, same⟩ := mem_map.mp due
      exact ⟨entry.scan, mem_map_of_mem (mem_of_mem_filter hf), (scan_quantumSlot entry).trans same⟩
  · intro entry member
    obtain ⟨old, hl, rfl⟩ := mem_map.mp member
    rw [scan_quantumSlotKey]
    exact tracked.counted old hl

theorem Tracked.fetchValue (taken : s.fetchValue = some t) : t.Tracked := by
  unfold QuantumSlotScheduler.fetchValue at taken
  split at taken
  next => cases taken
  next slot rest queue =>
    cases taken
    refine tracked.of_perm
      ⟨tracked.filed.keyed, tracked.filed.unique, tracked.filed.allocated⟩ rfl ?_
    simp only [active, queue, map_append, ← append_assoc]
    exact perm_append_comm

end

/-! ### The fetchers -/

section Dispatch

variable {pos : Nat} {stage : DispatchStage}

theorem getElem?_of_dispatchedSlot (found : s.dispatchedSlot pos stage = some slot) :
    s.dispatching[pos]? = some ⟨slot, stage⟩ := by
  unfold dispatchedSlot at found
  split at found
  next => cases found
  next dispatch listed =>
    split at found
    next ready =>
      cases found
      rw [listed, ← ready.1]
    next => cases found

theorem slots_advance {next : DispatchStage} (found : s.dispatching[pos]? = some ⟨slot, stage⟩) :
    (s.dispatching.set pos ⟨slot, next⟩).map (·.slot) = s.dispatching.map (·.slot) := by
  have hh : (s.dispatching.map (·.slot))[pos]? = some slot := by
    rw [getElem?_map, found]
    rfl
  obtain ⟨bound, same⟩ := List.getElem?_eq_some_iff.mp hh
  rw [map_set]
  rw [← same, set_getElem_self]

/-- A fetcher that has finished gives its reference up. -/
theorem perm_active_eraseIdx (found : s.dispatching[pos]? = some ⟨slot, stage⟩) :
    s.active.Perm (slot :: (s.queueActiveSlot ++ (s.dispatching.eraseIdx pos).map (·.slot))) := by
  obtain ⟨bound, hh⟩ := List.getElem?_eq_some_iff.mp found
  have parted := getElem_cons_eraseIdx_perm bound
  rw [hh] at parted
  exact ((parted.symm.map (·.slot)).append_left _).trans perm_middle

variable (tracked : s.Tracked) {rest : List SlotRef}

include tracked

/-- The one reference to a slot is given up. -/
theorem Tracked.notMem_of_perm (parted : s.active.Perm (slot :: rest)) : slot ∉ rest ∧ rest.Nodup :=
  nodup_cons.mp (parted.nodup_iff.mp tracked.single)

/-- The references to the other slots stay when one is given up. -/
theorem Tracked.disabled_iff_of_perm (parted : s.active.Perm (slot :: rest))
    (member : entry ∈ s.setSlots) (different : entry.quantumSlot ≠ slot) :
    entry.currentQuantum = -1 ↔ entry.quantumSlot ∈ rest := by
  rw [tracked.disabled entry member, parted.mem_iff, mem_cons, or_iff_right different]

theorem Tracked.checkSlot (taken : s.checkSlot pos = some t) : t.Tracked := by
  obtain ⟨slot, hd, hc⟩ := Option.bind_eq_some_iff.mp taken
  have hh := getElem?_of_dispatchedSlot hd
  split at hc
  next =>
    cases hc
    refine tracked.of_perm
      ⟨tracked.filed.keyed, tracked.filed.unique, tracked.filed.allocated⟩ rfl ?_
    rw [active, active, slots_advance hh]
  next =>
    obtain ⟨found, lookup, rfl⟩ := Option.map_eq_some_iff.mp hc
    obtain ⟨erased, hl, rfl⟩ := live_of_dispatchedSlot hd
    have parted := perm_active_eraseIdx hh
    obtain ⟨gone, single⟩ := tracked.notMem_of_perm parted
    -- the slot that is erased is the one whose reference is given up
    have stays (entry : ScheduleSlot) (member : entry ∈ s.setSlots) :
        entry.quantumSlotKey ≠ (s.objects erased.quantumSlot).slotKey ↔
          entry.quantumSlot ≠ erased.quantumSlot := by
      rw [tracked.filed.keyed erased hl]
      exact not_congr (tracked.filed.key_eq_iff member hl)
    refine ⟨Serves.filed (.of_filter rfl rfl rfl rfl rfl rfl) tracked.filed, single, ?_, ?_, ?_⟩
    · intro entry member
      obtain ⟨old, kept⟩ := mem_filter.mp member
      exact tracked.disabled_iff_of_perm parted old ((stays entry old).mp (of_decide_eq_true kept))
    · intro slot member
      obtain ⟨entry, old, rfl⟩ :=
        tracked.listed slot (parted.mem_iff.mpr (mem_cons_of_mem _ member))
      have other : entry.quantumSlot ≠ erased.quantumSlot := by
        intro same
        rw [same] at member
        exact gone member
      exact ⟨entry, mem_filter.mpr ⟨old, decide_eq_true ((stays entry old).mpr other)⟩, rfl⟩
    · intro entry member
      exact tracked.counted entry (mem_of_mem_filter member)

theorem Tracked.sendValue {hasData : Bool} {reached : Nat}
    (taken : s.sendValue pos hasData reached = some t) : t.Tracked := by
  obtain ⟨slot, hd, rfl⟩ := Option.map_eq_some_iff.mp taken
  refine tracked.of_perm ⟨tracked.filed.keyed, tracked.filed.unique, tracked.filed.allocated⟩ rfl ?_
  rw [active, active]
  rw [slots_advance (getElem?_of_dispatchedSlot hd)]

theorem Tracked.resetSlot (taken : s.resetSlot pos = some t) : t.Tracked := by
  obtain ⟨slot, hd, reset⟩ := Option.bind_eq_some_iff.mp taken
  obtain ⟨found, lookup, rfl⟩ := Option.map_eq_some_iff.mp reset
  obtain ⟨started, hl, rfl⟩ := live_of_dispatchedSlot hd
  have parted := perm_active_eraseIdx (getElem?_of_dispatchedSlot hd)
  obtain ⟨gone, single⟩ := tracked.notMem_of_perm parted
  rw [tracked.filed.keyed started hl]
  refine ⟨Serves.filed (.of_map (fun entry => ?_) (fun entry => ?_) rfl rfl rfl rfl
    rfl rfl) tracked.filed, single, ?_, ?_, ?_⟩
  · split <;> rfl
  · split <;> rfl
  · intro entry member
    obtain ⟨old, ho, rfl⟩ := mem_map.mp member
    split
    next same =>
      -- the slot is started again with its multiplier, which is not -1
      obtain rfl := tracked.filed.eq_of_key ho hl same
      have multiplier : (s.objects old.quantumSlot).quantumMultiplier =
          old.quantumSlotKey.quantum := by
        rw [← tracked.filed.keyed old hl]
        rfl
      refine iff_of_false ?_ gone
      rw [multiplier]
      exact (tracked.counted old hl).1
    next different =>
      exact tracked.disabled_iff_of_perm parted ho
        (mt (tracked.filed.key_eq_iff ho hl).mpr different)
  · intro slot member
    obtain ⟨entry, old, rfl⟩ :=
      tracked.listed slot (parted.mem_iff.mpr (mem_cons_of_mem _ member))
    refine ⟨_, mem_map_of_mem old, ?_⟩
    split <;> rfl
  · intro entry member
    obtain ⟨old, ho, rfl⟩ := mem_map.mp member
    have hc := tracked.counted old ho
    split
    · exact hc
    · exact hc

end Dispatch

/-! ### The requests -/

theorem removeKeyConsumer_setSlots (s : QuantumSlotScheduler) (ci : SlotConsumerInfo) :
    (s._removeKeyConsumer ci).1.setSlots = s.setSlots ∧
      (s._removeKeyConsumer ci).1.active = s.active := by
  rcases s.removeKeyConsumer_cases ci with ⟨-, same⟩ | ⟨entry, free, -, hu⟩
  · rw [same]
    exact ⟨rfl, rfl⟩
  · rw [hu]
    exact ⟨rfl, rfl⟩

section

variable (tracked : s.Tracked)

include tracked

theorem Tracked.remove : (s._removeKeyConsumer ci).1.Tracked := by
  obtain ⟨hs, active⟩ := s.removeKeyConsumer_setSlots ci
  refine tracked.of_perm (removeKeyConsumer_filed tracked.filed) hs ?_
  rw [active]

theorem Tracked.add (counts : ci.quantumMultiplier ≠ 4294967295) :
    (s._addKeyConsumer ci).Tracked := by
  have filed : (s._addKeyConsumer ci).Filed := addKeyConsumer_filed tracked.filed
  rcases s.addKeyConsumer_cases ci with ⟨entry, -, joined⟩ | ⟨-, -, lost⟩ | ⟨-, free, filedNew⟩
  · rw [joined] at filed ⊢
    exact tracked.of_perm filed rfl (Perm.refl _)
  · rwa [lost]
  · have multiplier : (newSlot ci).quantumMultiplier = ci.quantumMultiplier.toInt :=
      congrArg SlotKey.quantum (slotKey_newSlot ci)
    have bound := BitVec.toInt_lt (x := ci.quantumMultiplier)
    rw [filedNew]
    refine tracked.fileSlot (by rwa [slotKey_newSlot]) ?_ ?_
    · intro same
      exact counts (BitVec.eq_of_toInt_eq same)
    · exact bound

/-- Additions with a multiplier that, as an `int`, is not the value of a disabled slot. -/
def Counted (s : QuantumSlotScheduler) : Action → Prop
  | .processConsumerInfo => ∀ ci ∈ s.inProcess, ci.operation = true →
      ci.quantumMultiplier ≠ 4294967295
  | _ => True

instance (s : QuantumSlotScheduler) : DecidablePred s.Counted := fun action => by
  unfold Counted
  split <;> infer_instance

theorem Tracked.of_same (ho : t.objects = s.objects)
    (hc : t.created = s.created) (hs : t.setSlots = s.setSlots)
    (ha : t.active = s.active) : t.Tracked := by
  refine tracked.of_perm ⟨?_, ?_, ?_⟩ hs (by rw [ha])
  · rw [ho, hs]
    exact tracked.filed.keyed
  · rw [hs]
    exact tracked.filed.unique
  · rw [hs, hc]
    exact tracked.filed.allocated

theorem Tracked.processConsumerInfo (hc : s.Counted .processConsumerInfo)
    (taken : s.processConsumerInfo = some t) : t.Tracked := by
  unfold QuantumSlotScheduler.processConsumerInfo at taken
  cases hp : s.inProcess with
  | none =>
    rw [hp] at taken
    cases taken
  | some ci =>
    rw [hp] at taken
    cases taken
    have idle : Tracked { s with inProcess := none } := tracked.of_same rfl rfl rfl rfl
    split
    next adds => exact idle.add (hc ci hp adds)
    next => exact idle.remove

theorem Tracked.removeKeyConsumer {sub : Subscription} : (s.removeKeyConsumer sub).Tracked := by
  have hr : (s._removeKeyConsumer ⟨sub, false, 0⟩).1.Tracked := tracked.remove
  unfold QuantumSlotScheduler.removeKeyConsumer
  split
  next executed =>
    rw [executed] at hr
    exact hr.of_same rfl rfl rfl rfl
  next executed =>
    rw [executed] at hr
    exact hr.of_same rfl rfl rfl rfl

theorem step_tracked (hc : s.Counted act) (taken : step s act = some t) : t.Tracked := by
  cases act with
  | addKeyConsumer sub cprio | submitRemoval sub =>
    cases taken
    exact tracked.of_same rfl rfl rfl rfl
  | removeKeyConsumer sub =>
    cases taken
    exact tracked.removeKeyConsumer
  | completeRemoval sub =>
    obtain ⟨-, same⟩ := Option.ite_none_right_eq_some.mp taken
    cases same
    exact tracked.of_same rfl rfl rfl rfl
  | scanSlot order => exact tracked.scanSlot taken
  | takeConsumerInfo =>
    change s.takeConsumerInfo = some t at taken
    unfold QuantumSlotScheduler.takeConsumerInfo at taken
    split at taken <;> cases taken
    exact tracked.of_same rfl rfl rfl rfl
  | processConsumerInfo => exact tracked.processConsumerInfo hc taken
  | fetchValue => exact tracked.fetchValue taken
  | checkSlot pos => exact tracked.checkSlot taken
  | sendValue pos hasData reached => exact tracked.sendValue taken
  | resetSlot pos => exact tracked.resetSlot taken

/-- The slot of the excluded multiplier is disabled when it is filed. -/
theorem Tracked.counted_of_exclusive
    (exclusive : (s._addKeyConsumer ci).Exclusive) : ci.quantumMultiplier ≠ 4294967295 := by
  intro largest
  have signed : ci.slotKey.quantum = -1 := by
    rw [slotKey, largest]
    rfl
  have unsigned : ci.lookupKey.quantum = 4294967295 := by
    rw [lookupKey, largest]
    rfl
  rcases s.addKeyConsumer_cases ci with ⟨entry, found, -⟩ | ⟨-, found, -⟩ | ⟨-, -, filedNew⟩
  · obtain ⟨member, key⟩ := mem_of_lookup found
    have small := (tracked.counted entry member).2
    rw [key] at small
    omega
  · obtain ⟨entry, found⟩ := Option.isSome_iff_exists.mp found
    obtain ⟨member, key⟩ := mem_of_lookup found
    exact (tracked.counted entry member).1 (key ▸ signed)
  · rw [filedNew] at exclusive
    have multiplier : (newSlot ci).quantumMultiplier = -1 :=
      (congrArg SlotKey.quantum (slotKey_newSlot ci)).trans signed
    have referred : s.created ∈ s.active :=
      (exclusive.disabled _ (mem_append_right _ (mem_singleton_self _))).mp multiplier
    obtain ⟨entry, hl, same⟩ := tracked.listed s.created referred
    exact absurd same (Nat.ne_of_lt (tracked.filed.allocated entry hl))

theorem counted_of_step (taken : step s act = some t) (exclusive : t.Exclusive) :
    s.Counted act := by
  cases act with
  | processConsumerInfo =>
    intro ci hp adds
    unfold step QuantumSlotScheduler.processConsumerInfo at taken
    rw [Option.mem_def.mp hp] at taken
    cases taken
    rw [if_pos adds] at exclusive
    have idle : Tracked { s with inProcess := none } := tracked.of_same rfl rfl rfl rfl
    exact idle.counted_of_exclusive exclusive
  | _ => exact trivial

end

/-- In every interleaving the additions are counted exactly if, in all the states it passes
through, there is at most one reference to a slot, the quantum of a slot is -1 exactly while there
is one, the queued slots exist and the fetchers find theirs. -/
theorem counted_iff_exclusive {actions : List Action} (run : execute step init actions = some s) :
    Admissible step Counted init actions ↔
      ∀ n r, execute step init (actions.take n) = some r → r.Exclusive :=
  admissible_iff_forall_reached step_tracked Tracked.exclusive counted_of_step tracked_init run

/-- Two keys are fetched at once, by two fetchers. -/
def twoFetchers : List Action :=
  [.addKeyConsumer ⟨"k", 1, 9⟩ 500, .addKeyConsumer ⟨"l", 1, 9⟩ 500, .takeConsumerInfo,
    .processConsumerInfo, .takeConsumerInfo, .processConsumerInfo, .scanSlot [1, 0], .fetchValue,
    .fetchValue, .checkSlot 1, .sendValue 1 true 1, .checkSlot 0, .scanSlot [], .resetSlot 1]

theorem counted_iff_exclusive_twoFetchers :
    ∃ s, execute step init twoFetchers = some s ∧ s.active = [1] ∧
      s.setSlots.map (·.currentQuantum) = [1, -1] ∧
      ∀ n r, execute step init (twoFetchers.take n) = some r → r.Exclusive := by
  have hc : Admissible step Counted init twoFetchers := by decide
  exact ⟨_, rfl, by decide, by decide, (counted_iff_exclusive rfl).mp hc⟩

/-- The slot of the largest multiplier has the quantum -1 although nothing refers to it. -/
theorem disabled_without_reference :
    ∃ s, execute step init [.addKeyConsumer ⟨"k", 4294967295, 9⟩ 500, .takeConsumerInfo,
        .processConsumerInfo] = some s ∧
      s.setSlots = [⟨0, -1, ⟨"k", -1⟩⟩] ∧ s.active = [] ∧ ¬ s.Exclusive := by
  refine ⟨_, rfl, by decide, by decide, fun exclusive => ?_⟩
  exact absurd ((exclusive.disabled _ (mem_singleton_self _)).mp (by decide)) (by decide)

end ChaosFramework.Monitor.QuantumSlotScheduler
