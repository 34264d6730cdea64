import ChaosFramework.Transition
import Mathlib

/-!
# The scheduler of the monitored keys

`QuantumSlotScheduler` polls the values of keys and hands them to consumers. A slot stands for a key
and a multiple of the polling quantum, and holds the consumers that asked for it. The scan thread
counts the slots down and queues those that are due; a fetcher takes a slot from that queue, sends
the value to its consumers and starts the slot again, or erases it when no consumer is left.
Additions of consumers are queued and executed by the scan thread between two passes, and so is a
removal for which its caller waits; others are executed by the caller.

The labels are the atomic parts of the threads. The slots that are due in one pass are in the order
that a label gives. A step that uses a pointer to an erased slot is not enabled. An operation on a
queue is atomic: that `removeKeyConsumer`, when it waits, unlocks the mutex of the queue twice, by
its own call and by the guard, is left out.

Two records serve the proofs only: `withdrawn`, the subscriptions whose removal has returned and
which were not added again since, and the list of `notifications`.
-/

namespace ChaosFramework.Monitor

open Transition List Function

/-- `CHAOS_QSS_COMPOSE_QUANTUM_SLOT_KEY`, before it is printed. -/
structure SlotKey where
  key : String
  quantum : Int
  deriving DecidableEq, Repr

namespace SlotKey

/-- The string under which a slot is filed. -/
def print (slotKey : SlotKey) : String := slotKey.key ++ "_" ++ slotKey.quantum.repr

theorem notMem_repr (quantum : Int) : '_' ∉ quantum.repr.toList := by
  rw [Int.repr_eq_if]
  split <;> simp

theorem reverse_print (slotKey : SlotKey) : slotKey.print.toList.reverse =
    slotKey.quantum.repr.toList.reverse ++ '_' :: slotKey.key.toList.reverse := by
  simp [print]

theorem takeWhile_until {front : List Char} (absent : '_' ∉ front) (rest : List Char) :
    (front ++ '_' :: rest).takeWhile (· ≠ '_') = front := by
  rw [takeWhile_append_of_pos]
  · simp
  · intro y member
    rw [decide_eq_true_eq]
    rintro rfl
    exact absent member

/-- The string tells the parts: a number has no underscore, so the last one separates them. -/
theorem print_injective : Injective print := by
  intro first second same
  have lists : first.print.toList.reverse = second.print.toList.reverse := by rw [same]
  rw [reverse_print, reverse_print] at lists
  have hn := congrArg (takeWhile (· ≠ '_')) lists
  rw [takeWhile_until (by simp [notMem_repr]), takeWhile_until (by simp [notMem_repr])] at hn
  have quantum : first.quantum = second.quantum :=
    Int.repr_injective (String.toList_injective (reverse_injective hn))
  rw [hn, append_cancel_left_eq, List.cons.injEq] at lists
  have key : first.key = second.key :=
    String.toList_injective (reverse_injective lists.2)
  cases first
  simp_all

end SlotKey

/-- The address of a `QuantumSlotConsumer`. -/
abbrev ConsumerPtr := Nat

/-- The address of a `QuantumSlot`. -/
abbrev SlotRef := Nat

structure ConsumerType where
  priority : Nat
  consumerPointer : ConsumerPtr
  deriving DecidableEq, Repr

/-- `QuantumSlot`. Its consumers are in the order of the priority index. -/
structure QuantumSlot where
  key : String
  quantumMultiplier : Int
  priority : Nat
  consumers : List ConsumerType
  deriving DecidableEq, Repr

namespace QuantumSlot

def create (key : String) (quantumMultiplier : Int) : QuantumSlot :=
  ⟨key, quantumMultiplier, 0, []⟩

def slotKey (slot : QuantumSlot) : SlotKey := ⟨slot.key, slot.quantumMultiplier⟩

def pointers (slot : QuantumSlot) : List ConsumerPtr := slot.consumers.map (·.consumerPointer)

/-- A consumer is registered once. Its priority is that of the slot: the argument has
another name than the member that is read. -/
def addNewConsumer (slot : QuantumSlot) (consumer : ConsumerPtr) (_priotiy : Nat) :
    QuantumSlot :=
  if consumer ∈ slot.pointers then slot
  else
    { slot with consumers := slot.consumers.takeWhile (·.priority ≤ slot.priority) ++
        ⟨slot.priority, consumer⟩ :: slot.consumers.dropWhile (·.priority ≤ slot.priority) }

def removeConsumer (slot : QuantumSlot) (consumer : ConsumerPtr) : QuantumSlot × Bool :=
  if consumer ∈ slot.pointers then
    ({ slot with consumers := slot.consumers.filter (·.consumerPointer ≠ consumer) }, true)
  else (slot, false)

variable {slot : QuantumSlot} {consumer other : ConsumerPtr} {prio : Nat}

theorem mem_pointers_addNewConsumer :
    other ∈ (slot.addNewConsumer consumer prio).pointers ↔
      other = consumer ∨ other ∈ slot.pointers := by
  unfold addNewConsumer
  split
  next known =>
    refine ⟨.inr, ?_⟩
    rintro (rfl | old)
    · exact known
    · exact old
  next new =>
    -- the two parts of the list make up the old one
    have parts := congrArg (List.map ConsumerType.consumerPointer)
      (takeWhile_append_dropWhile (p := (·.priority ≤ slot.priority)) (l := slot.consumers))
    rw [map_append] at parts
    simp only [pointers, map_append, map_cons]
    rw [← parts]
    simp only [mem_append, mem_cons]
    tauto

theorem slotKey_addNewConsumer : (slot.addNewConsumer consumer prio).slotKey = slot.slotKey := by
  unfold addNewConsumer
  split <;> rfl

theorem mem_pointers_removeConsumer :
    other ∈ (slot.removeConsumer consumer).1.pointers ↔
      other ≠ consumer ∧ other ∈ slot.pointers := by
  unfold removeConsumer
  split
  next known =>
    simp only [pointers, mem_map, mem_filter, decide_eq_true_eq]
    constructor
    · rintro ⟨entry, ⟨member, different⟩, rfl⟩
      exact ⟨different, entry, member, rfl⟩
    · rintro ⟨different, entry, member, rfl⟩
      exact ⟨entry, ⟨member, different⟩, rfl⟩
  next hu =>
    refine ⟨fun member => ⟨?_, member⟩, And.right⟩
    rintro rfl
    exact hu member

theorem slotKey_removeConsumer : (slot.removeConsumer consumer).1.slotKey = slot.slotKey := by
  unfold removeConsumer
  split <;> rfl

end QuantumSlot

/-- The three arguments by which a consumer is added and removed. -/
structure Subscription where
  keyToMonitor : String
  quantumMultiplier : BitVec 32
  consumer : ConsumerPtr
  deriving DecidableEq, Repr

namespace Subscription

/-- The key under which the slot is filed; a slot keeps the multiplier as an `int`. -/
def slotKey (subscription : Subscription) : SlotKey :=
  ⟨subscription.keyToMonitor, subscription.quantumMultiplier.toInt⟩

/-- The key under which the slot is looked up, from an `unsigned int`. -/
def lookupKey (subscription : Subscription) : SlotKey :=
  ⟨subscription.keyToMonitor, subscription.quantumMultiplier.toNat⟩

/-- The multiplier is the same number with and without a sign. -/
def Small (subscription : Subscription) : Prop :=
  subscription.quantumMultiplier.toNat < 2147483648

instance (subscription : Subscription) : Decidable subscription.Small := by
  unfold Small
  infer_instance

variable {first second : Subscription}

theorem Small.lookupKey_eq (small : first.Small) : first.lookupKey = first.slotKey := by
  rw [lookupKey, slotKey, BitVec.toInt_eq_toNat_of_lt]
  unfold Small at small
  omega

theorem eq_of_slotKey (slot : first.slotKey = second.slotKey)
    (consumer : first.consumer = second.consumer) : first = second := by
  obtain ⟨key, quantum⟩ := SlotKey.mk.inj slot
  have hm := BitVec.toInt_inj.mp quantum
  cases first
  simp_all

end Subscription

structure ScheduleSlot where
  quantumSlot : SlotRef
  /-- It is -1 while the slot is queued for a fetcher or dispatched. -/
  currentQuantum : Int
  quantumSlotKey : SlotKey
  deriving DecidableEq, Repr

namespace ScheduleSlot

/-- `ScheduleSlotDecrementQuantum`. -/
def decrementQuantum (entry : ScheduleSlot) : ScheduleSlot :=
  if 0 < entry.currentQuantum then { entry with currentQuantum := entry.currentQuantum - 1 }
  else entry

/-- The slot is to be fetched after this pass. -/
def isDue (entry : ScheduleSlot) : Bool := entry.decrementQuantum.currentQuantum = 0

/-- What a pass of `scanSlot` does to a slot. -/
def scan (entry : ScheduleSlot) : ScheduleSlot :=
  if entry.isDue then { entry.decrementQuantum with currentQuantum := -1 }
  else entry.decrementQuantum

theorem scan_quantumSlot (entry : ScheduleSlot) : entry.scan.quantumSlot = entry.quantumSlot := by
  unfold scan decrementQuantum
  split <;> split <;> rfl

theorem scan_quantumSlotKey (entry : ScheduleSlot) :
    entry.scan.quantumSlotKey = entry.quantumSlotKey := by
  unfold scan decrementQuantum
  split <;> split <;> rfl

end ScheduleSlot

/-- `SlotConsumerInfo`, a request to add or to remove a consumer. -/
structure SlotConsumerInfo extends Subscription where
  /-- Add the consumer? -/
  operation : Bool
  consumerPriority : Nat
  deriving DecidableEq, Repr

/-- Where a fetcher is in `dispath_new_value_async`. -/
inductive DispatchStage
  | fetched | sending | resetting
  deriving DecidableEq, Repr

structure Dispatch where
  slot : SlotRef
  stage : DispatchStage
  deriving DecidableEq, Repr

/-- A call of `quantumSlotHasData` or `quantumSlotHasNoData`. -/
structure Notification where
  slot : SlotKey
  consumer : ConsumerPtr
  hasData : Bool
  /-- Was the consumer withdrawn from the slot? -/
  withdrawn : Bool
  deriving DecidableEq, Repr

structure QuantumSlotScheduler where
  objects : SlotRef → QuantumSlot
  /-- The number of slots that were created. -/
  created : Nat
  setSlots : List ScheduleSlot
  queueActiveSlot : List SlotRef
  queueNewQuantumSlotConsumer : List SlotConsumerInfo
  /-- The request that the scan thread has taken and not yet executed. -/
  inProcess : Option SlotConsumerInfo
  dispatching : List Dispatch
  freeOfWork : ConsumerPtr → Bool
  /-- The removals that wait for their completion. -/
  waiting : List Subscription
  withdrawn : List Subscription
  notifications : List Notification

namespace QuantumSlotScheduler

def init : QuantumSlotScheduler where
  objects := fun _ => .create "" 0
  created := 0
  setSlots := []
  queueActiveSlot := []
  queueNewQuantumSlotConsumer := []
  inProcess := none
  dispatching := []
  freeOfWork := fun _ => false
  waiting := []
  withdrawn := []
  notifications := []

/-- `find` in the index of the slot keys. -/
def lookup (s : QuantumSlotScheduler) (slotKey : SlotKey) : Option ScheduleSlot :=
  s.setSlots.find? fun entry => entry.quantumSlotKey = slotKey

/-- The pointer to the slot can be used. -/
def live (s : QuantumSlotScheduler) (slot : SlotRef) : Bool :=
  s.setSlots.any fun entry => entry.quantumSlot = slot

@[simps] def updateSlot (s : QuantumSlotScheduler) (slot : SlotRef)
    (f : QuantumSlot → QuantumSlot) : QuantumSlotScheduler :=
  { s with objects := update s.objects slot (f (s.objects slot)) }

/-- A new slot is filed under its own key. -/
@[simps] def fileSlot (s : QuantumSlotScheduler) (slot : QuantumSlot) : QuantumSlotScheduler :=
  { s with
    objects := update s.objects s.created slot
    created := s.created + 1
    setSlots := s.setSlots ++ [⟨s.created, slot.quantumMultiplier, slot.slotKey⟩] }

def _addKeyConsumer (s : QuantumSlotScheduler) (ci : SlotConsumerInfo) : QuantumSlotScheduler :=
  match s.lookup ci.lookupKey with
  | some entry =>
      s.updateSlot entry.quantumSlot (·.addNewConsumer ci.consumer ci.consumerPriority)
  | none =>
      -- a second slot under the same key is refused, and dies with its consumer
      if (s.lookup ci.slotKey).isSome then s
      else
        s.fileSlot ((QuantumSlot.create ci.keyToMonitor ci.quantumMultiplier.toInt).addNewConsumer
          ci.consumer ci.consumerPriority)

def _removeKeyConsumer (s : QuantumSlotScheduler) (ci : SlotConsumerInfo) :
    QuantumSlotScheduler × Bool :=
  match s.lookup ci.lookupKey with
  | none => (s, true)
  | some entry =>
      if ((s.objects entry.quantumSlot).removeConsumer ci.consumer).2 then
        ({ s.updateSlot entry.quantumSlot fun slot => (slot.removeConsumer ci.consumer).1 with
            freeOfWork := update s.freeOfWork ci.consumer true }, true)
      else (s, true)

/-! ### The calls of the users -/

def addKeyConsumer (s : QuantumSlotScheduler) (subscription : Subscription)
    (consumerPriority : Nat) : QuantumSlotScheduler :=
  { s with
    queueNewQuantumSlotConsumer :=
      s.queueNewQuantumSlotConsumer ++ [⟨subscription, true, consumerPriority⟩]
    withdrawn := s.withdrawn.filter (· ≠ subscription) }

/-- `removeKeyConsumer` without `wait_completion`. -/
def removeKeyConsumer (s : QuantumSlotScheduler) (subscription : Subscription) :
    QuantumSlotScheduler :=
  match s._removeKeyConsumer ⟨subscription, false, 0⟩ with
  | (s, true) => { s with withdrawn := subscription :: s.withdrawn }
  | (s, false) =>
      { s with queueNewQuantumSlotConsumer :=
          s.queueNewQuantumSlotConsumer ++ [⟨subscription, false, 0⟩] }

/-- `removeKeyConsumer` with `wait_completion`, until it waits. -/
def submitRemoval (s : QuantumSlotScheduler) (subscription : Subscription) :
    QuantumSlotScheduler :=
  { s with
    queueNewQuantumSlotConsumer :=
      s.queueNewQuantumSlotConsumer ++ [⟨subscription, false, 0⟩]
    waiting := subscription :: s.waiting }

/-- The return of `waitForCompletion` and of the removal that called it. The flag belongs to
the consumer, not to the request. -/
def completeRemoval (s : QuantumSlotScheduler) (subscription : Subscription) :
    Option QuantumSlotScheduler :=
  if subscription ∈ s.waiting ∧ s.freeOfWork subscription.consumer then
    some { s with
      freeOfWork := update s.freeOfWork subscription.consumer false
      waiting := s.waiting.erase subscription
      withdrawn := subscription :: s.withdrawn }
  else none

/-! ### The scan thread -/

/-- The slots that the next pass queues. -/
def dueSlots (s : QuantumSlotScheduler) : List SlotRef :=
  (s.setSlots.filter ScheduleSlot.isDue).map (·.quantumSlot)

/-- A pass of `scanSlot`, which queues the slots that are due in the given order. -/
def scanSlot (s : QuantumSlotScheduler) (order : List SlotRef) : Option QuantumSlotScheduler :=
  if order.Perm s.dueSlots then
    some { s with
      setSlots := s.setSlots.map ScheduleSlot.scan
      queueActiveSlot := s.queueActiveSlot ++ order }
  else none

/-- `_checkRemoveAndAddNewConsumer` takes the next request. -/
def takeConsumerInfo (s : QuantumSlotScheduler) : Option QuantumSlotScheduler :=
  match s.inProcess, s.queueNewQuantumSlotConsumer with
  | none, ci :: rest => some { s with
      inProcess := some ci
      queueNewQuantumSlotConsumer := rest }
  | _, _ => none

/-- `_checkRemoveAndAddNewConsumer` executes the request it has taken. -/
def processConsumerInfo (s : QuantumSlotScheduler) : Option QuantumSlotScheduler :=
  match s.inProcess with
  | none => none
  | some ci =>
      let s := { s with inProcess := none }
      some (if ci.operation then s._addKeyConsumer ci else (s._removeKeyConsumer ci).1)

/-! ### The fetchers -/

/-- `fetchValue` pops a slot and retrieves its value. -/
def fetchValue (s : QuantumSlotScheduler) : Option QuantumSlotScheduler :=
  match s.queueActiveSlot with
  | [] => none
  | slot :: rest => some { s with
      queueActiveSlot := rest
      dispatching := s.dispatching ++ [⟨slot, .fetched⟩] }

/-- The fetcher at the given position of the list is at the given stage, with a slot that
exists. -/
def dispatchedSlot (s : QuantumSlotScheduler) (position : Nat) (stage : DispatchStage) :
    Option SlotRef :=
  match s.dispatching[position]? with
  | none => none
  | some dispatch =>
      if dispatch.stage = stage ∧ s.live dispatch.slot then some dispatch.slot else none

/-- The first part of `dispath_new_value_async`: a slot without consumers is erased. -/
def checkSlot (s : QuantumSlotScheduler) (position : Nat) : Option QuantumSlotScheduler :=
  (s.dispatchedSlot position .fetched).bind fun slot =>
    if (s.objects slot).consumers.length ≠ 0 then
      some { s with dispatching := s.dispatching.set position ⟨slot, .sending⟩ }
    else
      (s.lookup (s.objects slot).slotKey).map fun _ =>
        { s with
          setSlots := s.setSlots.filter (·.quantumSlotKey ≠ (s.objects slot).slotKey)
          dispatching := s.dispatching.eraseIdx position }

/-- `sendNewValueConsumer` or `sendNoValueToConsumer`. The loop over the consumers ends early
when one of them raises, after `reached` calls. -/
def sendValue (s : QuantumSlotScheduler) (position : Nat) (hasData : Bool) (reached : Nat) :
    Option QuantumSlotScheduler :=
  (s.dispatchedSlot position .sending).map fun slot =>
    let slotKey := (s.objects slot).slotKey
    { s with
      dispatching := s.dispatching.set position ⟨slot, .resetting⟩
      notifications := s.notifications ++
        ((s.objects slot).pointers.take reached).map fun consumer =>
          ⟨slotKey, consumer, hasData, s.withdrawn.any fun subscription =>
            subscription.slotKey = slotKey ∧ subscription.consumer = consumer⟩ }

/-- The last part of `dispath_new_value_async` starts the slot again. -/
def resetSlot (s : QuantumSlotScheduler) (position : Nat) : Option QuantumSlotScheduler :=
  (s.dispatchedSlot position .resetting).bind fun slot =>
    (s.lookup (s.objects slot).slotKey).map fun _ =>
      { s with
        setSlots := s.setSlots.map fun entry =>
          if entry.quantumSlotKey = (s.objects slot).slotKey then
            { entry with currentQuantum := (s.objects entry.quantumSlot).quantumMultiplier }
          else entry
        dispatching := s.dispatching.eraseIdx position }

inductive Action
  | addKeyConsumer (subscription : Subscription) (consumerPriority : Nat)
  | removeKeyConsumer (subscription : Subscription)
  | submitRemoval (subscription : Subscription)
  | completeRemoval (subscription : Subscription)
  | scanSlot (order : List SlotRef)
  | takeConsumerInfo
  | processConsumerInfo
  | fetchValue
  | checkSlot (position : Nat)
  | sendValue (position : Nat) (hasData : Bool) (reached : Nat)
  | resetSlot (position : Nat)
  deriving DecidableEq, Repr

def step (s : QuantumSlotScheduler) : Action → Option QuantumSlotScheduler
  | .addKeyConsumer subscription consumerPriority =>
      some (s.addKeyConsumer subscription consumerPriority)
  | .removeKeyConsumer subscription => some (s.removeKeyConsumer subscription)
  | .submitRemoval subscription => some (s.submitRemoval subscription)
  | .completeRemoval subscription => s.completeRemoval subscription
  | .scanSlot order => s.scanSlot order
  | .takeConsumerInfo => s.takeConsumerInfo
  | .processConsumerInfo => s.processConsumerInfo
  | .fetchValue => s.fetchValue
  | .checkSlot position => s.checkSlot position
  | .sendValue position hasData reached => s.sendValue position hasData reached
  | .resetSlot position => s.resetSlot position

end QuantumSlotScheduler

end ChaosFramework.Monitor
