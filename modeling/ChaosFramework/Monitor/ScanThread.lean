import ChaosFramework.Monitor.QuantumSlotScheduler
import Mathlib.Algebra.Ring.Nat
import Mathlib.Data.List.Nodup
import Mathlib.Data.List.TakeWhile

/-!
# The scan thread in detail

The loop of `scanSlot` runs over the slots in the order of their quantum, which is the key that it
writes. The slots that were visited are below those that follow, so no element moves and every slot
is visited once.

`_checkRemoveAndAddNewConsumer` has a budget for the requests, and subtracts for each of them the
time since its own start. A slot keeps its consumers by their priority, but they all get that of the
slot, and stay in the order of their registrations.
-/

namespace ChaosFramework.Monitor

open Transition List Option Function

/-! ### A pass over the slots -/

namespace ScheduleSlot

/-- `ScheduleSlotDisableQuantum`. -/
def disableQuantum (entry : ScheduleSlot) : ScheduleSlot := { entry with currentQuantum := -1 }

/-- `modify` on the index of the quantum, for the element between the two parts of the index:
the parts around the element and the element afterwards. -/
def modify (op : ScheduleSlot → ScheduleSlot) (front : List ScheduleSlot) (entry : ScheduleSlot)
    (back : List ScheduleSlot) : List ScheduleSlot × ScheduleSlot × List ScheduleSlot :=
  let written := op entry
  if (∀ before ∈ front.getLast?, before.currentQuantum ≤ written.currentQuantum) ∧
      ∀ after ∈ back.head?, written.currentQuantum ≤ after.currentQuantum then
    (front, written, back)
  else
    let below (other : ScheduleSlot) : Bool := other.currentQuantum ≤ written.currentQuantum
    ((front ++ back).takeWhile below, written, (front ++ back).dropWhile below)

/-- The loop of `scanSlot`, with what is before the iterator and from it on, the queue and the
slots that were visited. -/
def scanLoop : Nat → List ScheduleSlot → List ScheduleSlot → List SlotRef → List SlotKey →
    Option (List ScheduleSlot × List SlotRef × List SlotKey)
  | _, front, [], queue, visited => some (front, queue, visited)
  | 0, _, _ :: _, _, _ => none
  | fuel + 1, front, entry :: back, queue, visited =>
      let (front, entry, back) := modify decrementQuantum front entry back
      let visited := visited ++ [entry.quantumSlotKey]
      if entry.currentQuantum = 0 then
        let (front, entry, back) := modify disableQuantum front entry back
        scanLoop fuel (front ++ [entry]) back (queue ++ [entry.quantumSlot]) visited
      else scanLoop fuel (front ++ [entry]) back queue visited

variable {entry : ScheduleSlot} {front back : List ScheduleSlot}

theorem modify_in_place {op : ScheduleSlot → ScheduleSlot}
    (before : ∀ other ∈ front, other.currentQuantum ≤ (op entry).currentQuantum)
    (after : ∀ other ∈ back, (op entry).currentQuantum ≤ other.currentQuantum) :
    modify op front entry back = (front, op entry, back) :=
  if_pos ⟨fun other last => before other (mem_of_getLast? last),
    fun other first => after other (mem_of_head? first)⟩

/-- The slots before the iterator wait for a fetcher, or are below all those from it on. -/
def Passed (front rest : List ScheduleSlot) : Prop :=
  ∀ before ∈ front, before.currentQuantum = -1 ∨
    0 < before.currentQuantum ∧ ∀ entry ∈ rest, before.currentQuantum < entry.currentQuantum

theorem decrementQuantum_currentQuantum (entry : ScheduleSlot) :
    entry.decrementQuantum.currentQuantum =
      if 0 < entry.currentQuantum then entry.currentQuantum - 1 else entry.currentQuantum := by
  unfold decrementQuantum
  split <;> rfl

theorem decrementQuantum_same (entry : ScheduleSlot) :
    entry.decrementQuantum.quantumSlotKey = entry.quantumSlotKey ∧
      entry.decrementQuantum.quantumSlot = entry.quantumSlot := by
  unfold decrementQuantum
  split <;> exact ⟨rfl, rfl⟩

theorem isDue_eq (entry : ScheduleSlot) :
    entry.isDue = decide (entry.currentQuantum = 0 ∨ entry.currentQuantum = 1) := by
  rw [isDue, decrementQuantum_currentQuantum, decide_eq_decide]
  split <;> omega

theorem scan_eq (bound : -1 ≤ entry.currentQuantum) :
    entry.scan = { entry with currentQuantum :=
      if 1 < entry.currentQuantum then entry.currentQuantum - 1 else -1 } := by
  obtain ⟨slot, quantum, key⟩ := entry
  rw [scan, isDue_eq, decrementQuantum]
  split_ifs <;> simp only [decide_eq_true_eq, ScheduleSlot.mk.injEq, true_and, and_true] at * <;>
    omega

variable {visited : List SlotKey} {queue : List SlotRef}

/-- The body of the loop writes the element and leaves it where it is. -/
theorem scanLoop_step {fuel : Nat} (passed : Passed front (entry :: back))
    (least : ∀ other ∈ back, entry.currentQuantum ≤ other.currentQuantum)
    (bound : -1 ≤ entry.currentQuantum) :
    scanLoop (fuel + 1) front (entry :: back) queue visited =
      scanLoop fuel (front ++ [entry.scan]) back
        (queue ++ if entry.isDue then [entry.quantumSlot] else [])
        (visited ++ [entry.quantumSlotKey]) := by
  have value := entry.decrementQuantum_currentQuantum
  obtain ⟨key, slot⟩ := entry.decrementQuantum_same
  have below (other : ScheduleSlot) (member : other ∈ front) : other.currentQuantum = -1 ∨
      0 < other.currentQuantum ∧ other.currentQuantum < entry.currentQuantum :=
    (passed other member).imp_right (And.imp_right fun less => less entry (mem_cons_self ..))
  have decremented : modify decrementQuantum front entry back = _ :=
    modify_in_place (fun other member => by have := below other member; split at value <;> omega)
      (fun other member => by have := least other member; split at value <;> omega)
  rw [scanLoop, decremented]
  by_cases due : entry.decrementQuantum.currentQuantum = 0
  · -- the slots before a slot that is due wait all for a fetcher
    have disabled : modify disableQuantum front entry.decrementQuantum back = _ :=
      modify_in_place
        (fun other member => by
          have := below other member
          simp only [disableQuantum]
          split at value <;> omega)
        (fun other member => by
          have := least other member
          simp only [disableQuantum]
          omega)
    simp [due, disabled, isDue, scan, disableQuantum, key, slot]
  · simp [due, isDue, scan, key]

theorem scanLoop_eq {rest : List ScheduleSlot} (passed : Passed front rest)
    (sorted : rest.Pairwise (·.currentQuantum ≤ ·.currentQuantum))
    (hb : ∀ entry ∈ rest, -1 ≤ entry.currentQuantum) :
    scanLoop rest.length front rest queue visited =
      some (front ++ rest.map scan, queue ++ (rest.filter isDue).map (·.quantumSlot),
        visited ++ rest.map (·.quantumSlotKey)) := by
  induction rest generalizing front queue visited with
  | nil => simp [scanLoop]
  | cons entry back ih =>
    obtain ⟨least, rest⟩ := pairwise_cons.mp sorted
    obtain ⟨bound, hb⟩ := forall_mem_cons.mp hb
    rw [length_cons, scanLoop_step passed least bound, ih ?_ rest hb]
    · cases due : entry.isDue <;> simp [due]
    · intro other member
      rcases mem_append.mp member with old | new
      · exact (passed other old).imp_right
          (And.imp_right fun less later inside => less later (mem_cons_of_mem _ inside))
      · obtain rfl := mem_singleton.mp new
        rw [scan_eq bound]
        dsimp only
        split
        next above =>
          refine .inr ⟨by omega, fun later inside => ?_⟩
          have bigger := least later inside
          omega
        next => exact .inl rfl

/-- One pass visits every slot once, in the order of the index. A slot with a quantum above one is
counted down, one with zero or one is queued and waits for its fetcher, and one
that waits is left alone. -/
theorem scan_visits_once (slots : List ScheduleSlot) (queue : List SlotRef)
    (sorted : slots.Pairwise (·.currentQuantum ≤ ·.currentQuantum))
    (bounded : ∀ entry ∈ slots, -1 ≤ entry.currentQuantum) :
    scanLoop slots.length [] slots queue [] = some (
      slots.map fun entry => { entry with currentQuantum :=
        if 1 < entry.currentQuantum then entry.currentQuantum - 1 else -1 },
      queue ++ (slots.filter fun entry =>
        entry.currentQuantum = 0 ∨ entry.currentQuantum = 1).map (·.quantumSlot),
      slots.map (·.quantumSlotKey)) := by
  rw [scanLoop_eq (by simp [Passed]) sorted bounded, map_congr_left fun entry member =>
    scan_eq (bounded entry member)]
  simp [funext isDue_eq]

theorem scan_visits_once_four :
    scanLoop 4 [] [⟨3, -1, ⟨"a", 1⟩⟩, ⟨4, 0, ⟨"b", 0⟩⟩, ⟨5, 1, ⟨"c", 1⟩⟩, ⟨6, 2, ⟨"d", 2⟩⟩] [] [] =
      some ([⟨3, -1, ⟨"a", 1⟩⟩, ⟨4, -1, ⟨"b", 0⟩⟩, ⟨5, -1, ⟨"c", 1⟩⟩, ⟨6, 1, ⟨"d", 2⟩⟩], [4, 5],
        [⟨"a", 1⟩, ⟨"b", 0⟩, ⟨"c", 1⟩, ⟨"d", 2⟩]) :=
  scan_visits_once [⟨3, -1, ⟨"a", 1⟩⟩, ⟨4, 0, ⟨"b", 0⟩⟩, ⟨5, 1, ⟨"c", 1⟩⟩, ⟨6, 2, ⟨"d", 2⟩⟩] []
    (by decide) (by decide)

end ScheduleSlot

/-! ### The order of the notifications -/

namespace QuantumSlot

inductive ConsumerCall where
  | addNewConsumer (consumer : ConsumerPtr) (priority : Nat)
  | removeConsumer (consumer : ConsumerPtr)
  deriving DecidableEq, Repr

/-- The consumers in the order in which `sendNewValueConsumer` calls them. -/
def sendNewValueConsumer (slot : QuantumSlot) : List ConsumerPtr := slot.pointers

/-- A call on a slot, beside the priorities with which the consumers are registered. A null pointer
is ignored, and so is the addition of a consumer that the slot has. -/
def call (k : QuantumSlot × (ConsumerPtr → Option Nat)) :
    ConsumerCall → Option (QuantumSlot × (ConsumerPtr → Option Nat))
  | .addNewConsumer consumer priority =>
      if consumer = 0 then some k
      else some (k.1.addNewConsumer consumer priority,
        if (k.2 consumer).isSome then k.2 else update k.2 consumer (some priority))
  | .removeConsumer consumer =>
      if consumer = 0 then some k
      else some ((k.1.removeConsumer consumer).1, update k.2 consumer none)

/-- Every registered consumer is notified once, in the order of the priorities. -/
structure Notifies (k : QuantumSlot × (ConsumerPtr → Option Nat)) : Prop where
  once : k.1.sendNewValueConsumer.Nodup
  registered : ∀ consumer, consumer ∈ k.1.sendNewValueConsumer ↔ (k.2 consumer).isSome
  ordered : k.1.sendNewValueConsumer.Pairwise fun first second =>
    ∀ p q, k.2 first = some p → k.2 second = some q → p ≤ q

/-- A consumer is registered with at least the priority of the others. -/
def Rising (k : QuantumSlot × (ConsumerPtr → Option Nat)) : ConsumerCall → Prop
  | .addNewConsumer consumer priority =>
      consumer ≠ 0 → k.2 consumer = none → ∀ other p, k.2 other = some p → p ≤ priority
  | .removeConsumer _ => True

variable {k m : QuantumSlot × (ConsumerPtr → Option Nat)} {slot : QuantumSlot}
  {consumer : ConsumerPtr} {prio : Nat}

/-- All entries have the priority of the slot, so a new one is the last. -/
theorem consumers_addNewConsumer
    (uniform : ∀ entry ∈ slot.consumers, entry.priority = slot.priority)
    (absent : consumer ∉ slot.pointers) :
    (slot.addNewConsumer consumer prio).consumers =
      slot.consumers ++ [⟨slot.priority, consumer⟩] := by
  have below : ∀ entry ∈ slot.consumers, decide (entry.priority ≤ slot.priority) = true := by
    intro entry member
    simp [uniform entry member]
  rw [addNewConsumer, if_neg absent]
  rw [takeWhile_eq_self_iff.mpr below, dropWhile_eq_nil_iff.mpr below]

/-- After a registration the new consumer is the last, and the others are in order as before. -/
theorem ordered_addNewConsumer {registered : ConsumerPtr → Option Nat}
    (absent : consumer ∉ slot.pointers) :
    ((slot.pointers ++ [consumer]).Pairwise fun first second =>
      ∀ p q, update registered consumer (some prio) first = some p →
        update registered consumer (some prio) second = some q → p ≤ q) ↔
    (slot.pointers.Pairwise fun first second =>
      ∀ p q, registered first = some p → registered second = some q → p ≤ q) ∧
      ∀ other ∈ slot.pointers, ∀ p, registered other = some p → p ≤ prio := by
  have same {other} (member : other ∈ slot.pointers) :
      update registered consumer (some prio) other = registered other := by
    apply update_of_ne
    rintro rfl
    exact absent member
  rw [pairwise_append]
  refine and_congr ?_ ?_
  · constructor
    · refine List.Pairwise.imp_of_mem fun first second hh => ?_
      rwa [same first, same second] at hh
    · refine List.Pairwise.imp_of_mem fun first second hh => ?_
      rwa [same first, same second]
  · simp only [pairwise_singleton, true_and]
    refine forall₂_congr fun other member => ?_
    rw [same member]
    simp

/-- What the calls keep under the guard: all the priorities that the slot stores are its own. -/
structure Uniform (k : QuantumSlot × (ConsumerPtr → Option Nat)) : Prop extends Notifies k where
  uniform : ∀ entry ∈ k.1.consumers, entry.priority = k.1.priority

theorem Uniform.notMem (h : Uniform k) : consumer ∉ k.1.pointers ↔ k.2 consumer = none := by
  rw [← not_isSome_iff_eq_none, ← h.registered]
  rfl

/-- A registration keeps the order exactly when its priority is at least the others'. -/
theorem Uniform.register (h : Uniform k) (ha : k.2 consumer = none) :
    Notifies (k.1.addNewConsumer consumer prio, update k.2 consumer (some prio)) ↔
      ∀ other p, k.2 other = some p → p ≤ prio := by
  have hu := h.notMem.mpr ha
  have hl : (k.1.addNewConsumer consumer prio).sendNewValueConsumer =
      k.1.pointers ++ [consumer] := by
    rw [sendNewValueConsumer, pointers, consumers_addNewConsumer h.uniform hu]
    simp [pointers]
  have members (other) (p) (hk : k.2 other = some p) : other ∈ k.1.pointers :=
    (h.registered other).mpr (by rw [hk]; rfl)
  constructor
  · intro notifies other p hk
    have ho := notifies.ordered
    rw [hl] at ho
    exact ((ordered_addNewConsumer hu).mp ho).2 other (members other p hk) p hk
  · intro greatest
    refine ⟨?_, fun other => ?_, ?_⟩ <;> dsimp only <;> rw [hl]
    · rw [← concat_eq_append]
      exact h.once.concat hu
    · obtain rfl | different := eq_or_ne other consumer
      · simp
      · rw [mem_append, mem_singleton, update_of_ne different]
        exact (or_iff_left different).trans (h.registered other)
    · exact (ordered_addNewConsumer hu).mpr ⟨h.ordered, fun other _ p hk => greatest other p hk⟩

theorem Uniform.removeConsumer (h : Uniform k) : Uniform
    ((k.1.removeConsumer consumer).1, update k.2 consumer none) := by
  have fewer : (k.1.removeConsumer consumer).1.consumers.Sublist k.1.consumers := by
    unfold QuantumSlot.removeConsumer
    split
    · exact filter_sublist
    · exact Sublist.refl _
  have hn := fewer.map ConsumerType.consumerPointer
  have kept (other) (p) (known : update k.2 consumer none other = some p) : k.2 other = some p := by
    rw [update_apply] at known
    exact (ite_none_left_eq_some.mp known).2
  refine ⟨⟨h.once.sublist hn, fun other => ?_, ?_⟩, fun entry member => ?_⟩
  · dsimp only
    rw [sendNewValueConsumer, mem_pointers_removeConsumer]
    obtain rfl | different := eq_or_ne other consumer
    · simp
    · rw [update_of_ne different, and_iff_right different]
      exact h.registered other
  · refine (h.ordered.sublist hn).imp fun {first second} ho p q left right => ?_
    exact ho p q (kept first p left) (kept second q right)
  · rw [h.uniform entry (fewer.mem member)]
    unfold QuantumSlot.removeConsumer
    split <;> rfl

/-- The only call that can break the order registers a consumer. -/
theorem Uniform.call {l : ConsumerCall} (h : Uniform k) (called : call k l = some m) :
    (Rising k l → Uniform m) ∧ (Notifies m → Rising k l) := by
  cases l with
  | addNewConsumer consumer prio =>
    dsimp only [QuantumSlot.call] at called
    split at called
    next null =>
      cases called
      exact ⟨fun _ => h, fun _ hp => absurd null hp⟩
    next hp =>
      cases called
      split
      next known =>
        have listed := (h.registered consumer).mpr known
        have same : k.1.addNewConsumer consumer prio = k.1 := if_pos listed
        rw [same]
        refine ⟨fun _ => h, fun _ _ absent => ?_⟩
        rw [absent] at known
        cases known
      next unknown =>
        have absent := not_isSome_iff_eq_none.mp unknown
        refine ⟨fun rising => ⟨(h.register absent).mpr (rising hp absent), fun entry member => ?_⟩,
          fun notifies _ _ => (h.register absent).mp notifies⟩
        have hu := h.notMem.mpr absent
        have same : (k.1.addNewConsumer consumer prio).priority = k.1.priority := by
          rw [addNewConsumer, if_neg hu]
        rw [consumers_addNewConsumer h.uniform hu, mem_append, mem_singleton] at member
        rw [same]
        rcases member with old | rfl
        · exact h.uniform entry old
        · rfl
  | removeConsumer consumer =>
    refine ⟨fun _ => ?_, fun _ => trivial⟩
    dsimp only [QuantumSlot.call] at called
    split at called <;> cases called
    · exact h
    · exact h.removeConsumer

/-- The consumers are notified in the order of their priorities in every state exactly when each
was registered with at least the priority of those that were there. -/
theorem notifies_iff_rising {key : String} {quantumMultiplier : Int} {calls : List ConsumerCall}
    (run : execute call (create key quantumMultiplier, fun _ => none) calls = some m) :
    Admissible call Rising (create key quantumMultiplier, fun _ => none) calls ↔
      ∀ n k, execute call (create key quantumMultiplier, fun _ => none) (calls.take n) = some k →
        Notifies k := by
  refine admissible_iff_forall_reached (fun h rising called => (h.call called).1 rising)
    Uniform.toNotifies (fun h called => (h.call called).2) ?_ run
  exact ⟨⟨nodup_nil, by simp [sendNewValueConsumer, pointers, create], List.Pairwise.nil⟩,
    by simp [create]⟩

theorem notifies_iff_rising_two :
    Admissible call Rising (create "a" 1, fun _ => none)
        [.addNewConsumer 1 3, .addNewConsumer 2 5] ∧
      ∀ n k, execute call (create "a" 1, fun _ => none)
        ([.addNewConsumer 1 3, .addNewConsumer 2 5].take n) = some k → Notifies k := by
  have hr : Admissible call Rising (create "a" 1, fun _ => none)
      [.addNewConsumer 1 3, .addNewConsumer 2 5] := by
    refine ⟨fun _ _ other p known => (nomatch known), fun _ _ other p known => ?_, trivial⟩
    obtain rfl | different := eq_or_ne other 1
    · cases known
      decide
    · simp [different] at known
  exact ⟨hr, (notifies_iff_rising rfl).mp hr⟩

/-- The consumer with priority three is notified after the one with priority five. -/
theorem notified_by_arrival :
    ∃ slot registered, execute call (create "a" 1, fun _ => none)
        [.addNewConsumer 1 5, .addNewConsumer 2 3] = some (slot, registered) ∧
      slot.sendNewValueConsumer = [1, 2] ∧ registered 1 = some 5 ∧ registered 2 = some 3 :=
  ⟨_, _, rfl, rfl, rfl, rfl⟩

end QuantumSlot

/-! ### The time for the requests -/

namespace QuantumSlotScheduler

/-- A request is taken from the queue and executed. An exception is dropped. -/
def executeFront (s : QuantumSlotScheduler) (ci : SlotConsumerInfo)
    (rest : List SlotConsumerInfo) : QuantumSlotScheduler :=
  let s := { s with queueNewQuantumSlotConsumer := rest }
  if ci.operation then s._addKeyConsumer ci else (s._removeKeyConsumer ci).1

/-- The loop of `_checkRemoveAndAddNewConsumer`, for the time stamps that it reads: the scheduler,
what is left of the time, an `int64_t` whose overflow is not defined, and the stamps that were
read. -/
def checkLoop (startProcessingTime : BitVec 64) :
    List (BitVec 64) → QuantumSlotScheduler → BitVec 64 →
      Option (QuantumSlotScheduler × BitVec 64 × List (BitVec 64))
  | stamps, s, maxProcessingTime =>
      match s.queueNewQuantumSlotConsumer, stamps with
      | [], _ => some (s, maxProcessingTime, [])
      | _ :: _, [] => none
      | ci :: rest, endProcessingTime :: stamps =>
          let s := s.executeFront ci rest
          let singleProcessingTime := endProcessingTime - startProcessingTime
          if maxProcessingTime.ssubOverflow singleProcessingTime then none
          else
            let maxProcessingTime := maxProcessingTime - singleProcessingTime
            if singleProcessingTime.slt maxProcessingTime then
              (checkLoop startProcessingTime stamps s maxProcessingTime).map
                fun (s, left, read) => (s, left, endProcessingTime :: read)
            else some (s, maxProcessingTime, [endProcessingTime])

def _checkRemoveAndAddNewConsumer (s : QuantumSlotScheduler)
    (startTimeInMilliseconds millisecondForWork : BitVec 64) (stamps : List (BitVec 64)) :
    Option (QuantumSlotScheduler × BitVec 64 × List (BitVec 64)) :=
  if millisecondForWork = 0 then some (s, millisecondForWork, [])
  else
    (checkLoop startTimeInMilliseconds stamps s millisecondForWork).map fun (s, left, read) =>
      (s, if (0 : BitVec 64).slt left then left else 0, read)

/-- What the clock shows after each request. It does not run backwards, and `getTimeStamp` is a
number of milliseconds of an `int64_t`. -/
structure Clock (start : BitVec 64) (stamps : List (BitVec 64)) : Prop where
  ordered : (start :: stamps).Pairwise (· ≤ ·)
  readings : ∀ stamp ∈ stamps, stamp.toNat < 2 ^ 63

/-- The time since the start, in milliseconds. -/
def elapsed (start stamp : BitVec 64) : ℕ := stamp.toNat - start.toNat

/-- The time that the requests are charged for. -/
def charged (start : BitVec 64) (stamps : List (BitVec 64)) : ℕ := (stamps.map (elapsed start)).sum

/-- The loop gets to the request that ends at `last`, and stops there. -/
structure StopsAt (start : BitVec 64) (work : ℕ) (before : List (BitVec 64)) (last : BitVec 64)
    (after : List (BitVec 64)) : Prop where
  reached : ∀ stamp ∈ before, charged start before + elapsed start stamp < work
  stops : after = [] ∨ work ≤ charged start before + 2 * elapsed start last

/-- The last request uses up the budget, or those before it end in the millisecond of the start. -/
def ChargedOnce (start : BitVec 64) (work : ℕ) (stamps : List (BitVec 64)) : Prop :=
  ∃ before last after, stamps = before ++ last :: after ∧ StopsAt start work before last after ∧
    (work ≤ elapsed start last ∨ ∀ stamp ∈ before, stamp = start)

variable {s t : QuantumSlotScheduler} {start work left rest stamp last : BitVec 64}
  {stamps read before after : List (BitVec 64)} {ci : SlotConsumerInfo}
  {queue : List SlotConsumerInfo}

theorem Clock.tail (clock : Clock start (stamp :: stamps)) : Clock start stamps :=
  ⟨clock.ordered.sublist (.cons_cons _ (sublist_cons_self ..)),
    (forall_mem_cons.mp clock.readings).2⟩

theorem Clock.start_le (clock : Clock start stamps) (hm : stamp ∈ stamps) : start ≤ stamp :=
  rel_of_pairwise_cons clock.ordered hm

theorem Clock.toInt_elapsed (clock : Clock start stamps) (hm : stamp ∈ stamps) :
    (stamp - start).toInt = elapsed start stamp := by
  have single := BitVec.toNat_sub_of_le (clock.start_le hm)
  have reading := clock.readings stamp hm
  rw [BitVec.toInt_eq_toNat_of_lt (by omega), single, elapsed]

theorem Clock.toInt_sub (clock : Clock start (stamp :: stamps)) (positive : 0 ≤ work.toInt) :
    work.ssubOverflow (stamp - start) = false ∧
      (work - (stamp - start)).toInt = work.toInt - elapsed start stamp := by
  have single := clock.toInt_elapsed mem_cons_self
  have reading := clock.readings stamp mem_cons_self
  have bound := BitVec.toInt_lt (x := work)
  have overflow : work.ssubOverflow (stamp - start) = false := by
    unfold elapsed at single
    simp only [BitVec.ssubOverflow, Bool.or_eq_false_iff, decide_eq_false_iff_not]
    omega
  exact ⟨overflow, by rw [BitVec.toInt_sub_of_not_ssubOverflow (by simp [overflow]), single]⟩

theorem charged_nil : charged start [] = 0 := rfl

theorem charged_cons :
    charged start (stamp :: stamps) = elapsed start stamp + charged start stamps := rfl

theorem queue_executeFront (s : QuantumSlotScheduler) (ci : SlotConsumerInfo)
    (queue : List SlotConsumerInfo) :
    (s.executeFront ci queue).queueNewQuantumSlotConsumer = queue := by
  unfold executeFront _addKeyConsumer _removeKeyConsumer
  dsimp only
  split <;> split <;> try rfl
  all_goals split <;> rfl

theorem checkLoop_nil (queued : s.queueNewQuantumSlotConsumer = []) :
    checkLoop start stamps s work = some (s, work, []) := by
  unfold checkLoop
  rw [queued]

/-- The body of the loop. -/
theorem checkLoop_cons (queued : s.queueNewQuantumSlotConsumer = ci :: queue) :
    checkLoop start (stamp :: stamps) s work =
      if work.ssubOverflow (stamp - start) then none
      else if (stamp - start).slt (work - (stamp - start)) then
        (checkLoop start stamps (s.executeFront ci queue) (work - (stamp - start))).map
          fun (s, left, read) => (s, left, stamp :: read)
      else some (s.executeFront ci queue, work - (stamp - start), [stamp]) := by
  conv_lhs => unfold checkLoop
  rw [queued]

/-- The loop stops at some request, and up to it subtracts the time since the start for each. -/
theorem exists_stopsAt (clock : Clock start (stamp :: stamps)) (positive : 0 ≤ work.toInt)
    (readings : s.queueNewQuantumSlotConsumer.length = stamps.length + 1) :
    ∃ before last after t left, stamp :: stamps = before ++ last :: after ∧
      StopsAt start work.toInt.toNat before last after ∧
      checkLoop start (stamp :: stamps) s work = some (t, left, before ++ [last]) ∧
      left.toInt = work.toInt - charged start before - elapsed start last := by
  induction stamps generalizing stamp s work with
  | nil =>
    obtain ⟨ci, queue, queued⟩ := exists_cons_of_length_eq_add_one readings
    obtain rfl : queue = [] := by simpa [queued] using readings
    obtain ⟨overflow, rest⟩ := clock.toInt_sub positive
    refine ⟨[], stamp, [], s.executeFront ci [], _, rfl, ⟨nofun, .inl rfl⟩, ?_,
      rest.trans (by simp [charged])⟩
    rw [checkLoop_cons queued, overflow, if_neg nofun, checkLoop_nil (queue_executeFront s ci [])]
    split <;> rfl
  | cons next stamps ih =>
    obtain ⟨ci, queue, queued⟩ := exists_cons_of_length_eq_add_one readings
    obtain ⟨overflow, rest⟩ := clock.toInt_sub positive
    rw [checkLoop_cons queued, overflow, if_neg nofun]
    split
    next goes =>
      rw [BitVec.slt_iff_toInt_lt, rest, clock.toInt_elapsed mem_cons_self] at goes
      obtain ⟨before, last, after, t, left, split, stop, result, remains⟩ :=
        @ih (s.executeFront ci queue) (work - (stamp - start)) next clock.tail (by omega)
          (by rw [queue_executeFront]; simpa [queued] using readings)
      have reached : ∀ x ∈ before,
          charged start (stamp :: before) + elapsed start x < work.toInt.toNat := by
        intro x hm
        have := stop.reached x hm
        rw [charged_cons]
        omega
      refine ⟨stamp :: before, last, after, t, left, congrArg (stamp :: ·) split,
        ⟨forall_mem_cons.mpr ⟨?_, reached⟩, stop.stops.imp_right fun spent => ?_⟩, ?_, ?_⟩
      · cases before with
        | nil =>
          simp only [charged_cons, charged_nil]
          omega
        | cons first before =>
          -- the clock does not run backwards
          have ordered := (pairwise_cons.mp clock.ordered).2
          rw [(cons.inj split).1] at ordered
          have := reached first mem_cons_self
          have : elapsed start stamp ≤ elapsed start first :=
            Nat.sub_le_sub_right (rel_of_pairwise_cons ordered mem_cons_self) _
          omega
      · rw [charged_cons]
        omega
      · rw [result]
        rfl
      · rw [charged_cons]
        omega
    next ends =>
      rw [BitVec.slt_iff_toInt_lt, rest, clock.toInt_elapsed mem_cons_self] at ends
      refine ⟨[], stamp, next :: stamps, _, _, rfl, ⟨nofun, .inr ?_⟩, rfl,
        rest.trans (by simp [charged])⟩
      rw [charged_nil]
      omega

/-- It does not go further. -/
theorem StopsAt.length_le {work : ℕ} {before' after' : List (BitVec 64)} {last' : BitVec 64}
    (stop : StopsAt start work before last after) (other : StopsAt start work before' last' after')
    (split : before ++ last :: after = before' ++ last' :: after') :
    before'.length ≤ before.length := by
  by_contra longer
  obtain ⟨more, rfl, rest⟩ | ⟨more, rfl, rest⟩ := append_eq_append_iff.mp split
  · cases more with
    | nil => simp at longer
    | cons x more =>
      cases rest
      have reached := other.reached last (by simp)
      have spent := stop.stops.resolve_left (by simp)
      simp only [charged, map_append, map_cons, sum_append, sum_cons] at reached spent
      omega
  · simp at longer

theorem check_of_loop (positive : work ≠ 0)
    (loop : checkLoop start stamps s work = some (t, left, read)) :
    s._checkRemoveAndAddNewConsumer start work stamps =
      some (t, if (0 : BitVec 64).slt left then left else 0, read) := by
  rw [_checkRemoveAndAddNewConsumer, if_neg positive, loop]
  rfl

theorem toNat_returned (left : BitVec 64) :
    (if (0 : BitVec 64).slt left then left else 0).toNat = left.toInt.toNat := by
  have hs := BitVec.toInt_eq_toNat_cond left
  have zero : (0 : BitVec 64).toInt = 0 ∧ (0 : BitVec 64).toNat = 0 := ⟨rfl, rfl⟩
  simp only [BitVec.slt_iff_toInt_lt]
  split <;> split at hs <;> omega

/-- A budget that is not an `int64_t` is negative, and nothing of it is returned. -/
theorem budget_of_returned (clock : Clock start stamps)
    (readings : stamps.length = s.queueNewQuantumSlotConsumer.length)
    (returned : s._checkRemoveAndAddNewConsumer start work stamps = some (t, rest, read))
    (same : rest.toNat = work.toNat - elapsed start (read.getLastD start)) :
    work.toNat < 2 ^ 63 := by
  by_contra large
  have negative := BitVec.toInt_eq_toNat_cond work
  rw [if_neg (by omega)] at negative
  have bound := work.isLt
  have positive : work ≠ 0 := by
    rintro rfl
    exact large (by decide)
  rw [_checkRemoveAndAddNewConsumer, if_neg positive] at returned
  obtain ⟨⟨t, left, read⟩, loop, made⟩ := map_eq_some_iff.mp returned
  cases made
  rw [toNat_returned] at same
  cases stamps with
  | nil =>
    rw [checkLoop_nil (length_eq_zero_iff.mp readings.symm)] at loop
    cases loop
    rw [getLastD_nil, elapsed] at same
    omega
  | cons stamp stamps =>
    obtain ⟨ci, queue, queued⟩ := exists_cons_of_length_eq_add_one readings.symm
    have reading := clock.readings stamp mem_cons_self
    rw [checkLoop_cons queued] at loop
    split at loop
    next => cases loop
    next overflow =>
      have single := clock.toInt_elapsed mem_cons_self
      have rest := BitVec.toInt_sub_of_not_ssubOverflow overflow
      rw [if_neg (by rw [BitVec.slt_iff_toInt_lt]; omega)] at loop
      cases loop
      rw [getLastD_cons, getLastD_nil, elapsed] at same
      omega

theorem charged_eq_zero (clock : Clock start (before ++ after)) :
    charged start before = 0 ↔ ∀ stamp ∈ before, stamp = start := by
  simp only [charged, List.sum_eq_zero_iff_forall_eq_nat, List.forall_mem_map]
  refine forall₂_congr fun stamp hm => ?_
  have ordered := BitVec.le_def.mp (clock.start_le (mem_append_left _ hm))
  rw [← BitVec.toNat_inj, elapsed]
  omega

/-- The returned time is the budget without the time since the start exactly when the budget is an
`int64_t` and, in a loop over queued requests, no time is charged for twice. -/
theorem check_returns_rest_iff (clock : Clock start stamps)
    (readings : stamps.length = s.queueNewQuantumSlotConsumer.length) :
    (∃ t rest read, s._checkRemoveAndAddNewConsumer start work stamps = some (t, rest, read) ∧
        rest.toNat = work.toNat - elapsed start (read.getLastD start)) ↔
      work.toNat < 2 ^ 63 ∧ (work = 0 ∨ stamps = [] ∨ ChargedOnce start work.toNat stamps) := by
  by_cases zero : work = 0
  · subst zero
    exact iff_of_true ⟨s, 0, [], rfl, (Nat.zero_sub _).symm⟩ ⟨by decide, .inl rfl⟩
  refine (and_iff_right_of_imp ?_).symm.trans (and_congr_right fun budget => ?_)
  · rintro ⟨t, rest, read, returned, same⟩
    exact budget_of_returned clock readings returned same
  rw [or_iff_right zero]
  cases stamps with
  | nil =>
    refine iff_of_true ⟨s, _, [], ?_, (toNat_returned work).trans ?_⟩ (.inl rfl)
    · exact check_of_loop zero (checkLoop_nil (length_eq_zero_iff.mp readings.symm))
    · rw [getLastD_nil, elapsed, Nat.sub_self, BitVec.toInt_eq_toNat_of_lt (by omega)]
      rfl
  | cons stamp stamps =>
    rw [or_iff_right (cons_ne_nil _ _)]
    have whole : work.toInt = work.toNat := BitVec.toInt_eq_toNat_of_lt (by omega)
    obtain ⟨before, last, after, t, left, split, stop, loop, remains⟩ :=
      @exists_stopsAt s start work stamp stamps clock (by omega) readings.symm
    rw [whole, Int.toNat_natCast] at stop
    rw [split] at clock
    have returned := check_of_loop zero loop
    have rest := toNat_returned left
    constructor
    · rintro ⟨t', rest', read, other, same⟩
      cases returned.symm.trans other
      rw [getLastD_concat] at same
      refine ⟨before, last, after, split, stop, ?_⟩
      rw [← charged_eq_zero clock]
      omega
    · rintro ⟨before', last', after', split', stop', once⟩
      have same := split.symm.trans split'
      obtain ⟨rfl, tail⟩ := append_inj same
        (le_antisymm (stop'.length_le stop same.symm) (stop.length_le stop' same))
      cases tail
      refine ⟨t, _, _, returned, ?_⟩
      rw [← charged_eq_zero clock] at once
      rw [getLastD_concat]
      omega

/-- Two requests that end after ten and after twenty milliseconds leave seventy of a hundred. -/
theorem second_request_pays_for_first :
    ∃ t, _checkRemoveAndAddNewConsumer { init with
        queueNewQuantumSlotConsumer := [⟨⟨"a", 1, 5⟩, true, 0⟩, ⟨⟨"b", 1, 5⟩, true, 0⟩] }
      1000 100 [1010, 1020] = some (t, 70, [1010, 1020]) :=
  ⟨_, rfl⟩

/-- The first of two requests takes no time, and the second one is the only one that is charged. -/
theorem check_returns_rest_iff_two :
    let s := { init with
      queueNewQuantumSlotConsumer := [⟨⟨"a", 1, 5⟩, true, 0⟩, ⟨⟨"b", 1, 5⟩, true, 0⟩] }
    ∃ t rest read, s._checkRemoveAndAddNewConsumer 1000 100 [1000, 1010] = some (t, rest, read) ∧
      rest.toNat = (100 : BitVec 64).toNat - elapsed 1000 (read.getLastD 1000) := by
  refine (check_returns_rest_iff ⟨by simp, by simp⟩ rfl).mpr ⟨by simp, .inr (.inr ?_)⟩
  exact ⟨[1000], 1010, [], rfl, ⟨by simp [charged, elapsed], .inl rfl⟩, .inr (by simp)⟩

end QuantumSlotScheduler

end ChaosFramework.Monitor
