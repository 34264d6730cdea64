import ChaosFramework.Transition
import ChaosFramework.Utility.Bimap
import Mathlib.Data.Finset.Max
import Mathlib.Order.Interval.Finset.Nat

/-!
# The service feeder

`URLServiceFeeder` keeps a growing list of service slots and describes the state of each of them
several times: the slot has an online flag and a service pointer, its index is in the set of
available slots, in the set of offline ones or in the ordered set of online ones, and a
bidirectional map connects it with its URL. `addURL` gets the pointer that `serviceForURL` returns.
The counter of the round robin positions has 64 bits: a position may still be in use when it is
handed out again.
-/

namespace ChaosFramework.Network

open Utility Transition List Function

/-- The first element with the least key, the begin of an ordered index. -/
def leastBy {α : Type*} (key : α → Nat) : List α → Option α
  | [] => none
  | x :: xs =>
      match leastBy key xs with
      | none => some x
      | some best => if key best < key x then some best else some x

theorem leastBy_mem {α : Type*} {key : α → Nat} {xs : List α} {x : α}
    (least : leastBy key xs = some x) : x ∈ xs := by
  induction xs with
  | nil => cases least
  | cons y ys ih =>
    unfold leastBy at least
    cases inner : leastBy key ys with
    | none =>
      rw [inner] at least
      cases least
      exact mem_cons_self ..
    | some best =>
      rw [inner] at least
      dsimp only at least
      split at least
      · cases least
        exact mem_cons_of_mem y (ih inner)
      · cases least
        exact mem_cons_self ..

theorem leastBy_eq_none {α : Type*} {key : α → Nat} {xs : List α} :
    leastBy key xs = none ↔ xs = [] := by
  cases xs with
  | nil => simp [leastBy]
  | cons x xs =>
    unfold leastBy
    cases leastBy key xs with
    | none => simp
    | some best =>
      dsimp only
      split <;> simp

/-- `std::set::begin`. -/
def first (s : Finset Nat) : Option Nat := s.min

theorem first_mem {s : Finset Nat} {i : Nat} (least : first s = some i) : i ∈ s :=
  Finset.mem_of_min least

theorem first_eq_none {s : Finset Nat} : first s = none ↔ s = ∅ := Finset.min_eq_top

/-- A service pointer that is not null. -/
abbrev ServicePtr := Nat

inductive URLServiceFeedMode
  | failOver | roundRobin
  deriving DecidableEq, Repr

/-- `URLService`, a slot of the list. -/
structure URLService where
  index : Nat
  priority : Nat
  online : Bool
  url : String
  service : Option ServicePtr
  deriving DecidableEq, Repr

/-- `URLServiceIndex`. Its `url_service` is always the slot with the same index. -/
structure URLServiceIndex where
  globalIndex : Nat
  priority : Nat
  roundRobingStartPosition : Nat
  deriving DecidableEq, Repr

structure URLServiceFeeder where
  feedMode : URLServiceFeedMode
  lastRoundRobinIndex : Nat
  /-- The number of slots. -/
  capacity : Nat
  serviceList : Nat → URLService
  currentService : Option Nat
  mappingUrlIndex : Bimap String Nat
  setUrlsOnline : List URLServiceIndex
  offlineUrls : Finset Nat
  availableUrl : Finset Nat

namespace URLServiceFeeder

/-- The feeder after its construction. -/
def init : URLServiceFeeder where
  feedMode := .roundRobin
  lastRoundRobinIndex := 0
  capacity := 0
  serviceList := fun _ => ⟨0, 0, false, "", none⟩
  currentService := none
  mappingUrlIndex := .empty
  setUrlsOnline := []
  offlineUrls := ∅
  availableUrl := ∅

/-- The indexes in the online set. -/
def onlineIndexes (s : URLServiceFeeder) : List Nat := s.setUrlsOnline.map (·.globalIndex)

/-- The position that is taken from the counter. -/
def nextPosition (s : URLServiceFeeder) : Nat := (s.lastRoundRobinIndex + 1) % 2 ^ 64

/-- Insertion in the multi index: its first and its position index are unique on the global
index, the round robin one on the position. -/
@[simps] def insertOnline (s : URLServiceFeeder) (globalIndex priority : Nat) :
    URLServiceFeeder :=
  { s with
    lastRoundRobinIndex := s.nextPosition
    setUrlsOnline :=
      if s.setUrlsOnline.any fun element =>
          element.globalIndex == globalIndex || element.roundRobingStartPosition == s.nextPosition
      then s.setUrlsOnline
      else s.setUrlsOnline ++ [⟨globalIndex, priority, s.nextPosition⟩] }

@[simps] def removeFromOnlineQueue (s : URLServiceFeeder) (urlIndex : Nat) : URLServiceFeeder :=
  { s with setUrlsOnline := s.setUrlsOnline.filter (·.globalIndex ≠ urlIndex) }

/-- Write to a slot. -/
@[simps] def updateSlot (s : URLServiceFeeder) (idx : Nat) (f : URLService → URLService) :
    URLServiceFeeder :=
  { s with serviceList := update s.serviceList idx (f (s.serviceList idx)) }

/-- The chunk by which the list grows. -/
def urlChunkLen : Nat := 10

/-- A new chunk of free slots. -/
@[simps] def addSlots (s : URLServiceFeeder) : URLServiceFeeder :=
  { s with
    capacity := s.capacity + urlChunkLen
    serviceList := fun i =>
      if i ∈ Finset.Ico s.capacity (s.capacity + urlChunkLen) then ⟨i, i, false, "", none⟩
      else s.serviceList i
    availableUrl := Finset.Ico s.capacity (s.capacity + urlChunkLen) }

/-- `grow` allocates when no slot is available. -/
def grow (s : URLServiceFeeder) : URLServiceFeeder :=
  if s.availableUrl = ∅ then s.addSlots else s

/-- The part of `addURL` after the service has been created for the slot. -/
def occupy (s : URLServiceFeeder) (serviceIndex : Nat) (url : String) (priority : Nat)
    (service : ServicePtr) : URLServiceFeeder :=
  let s := s.updateSlot serviceIndex fun slot =>
    { slot with url := url, service := some service, online := true, priority := priority }
  let s := s.insertOnline serviceIndex priority
  { s with
    availableUrl := s.availableUrl.erase serviceIndex
    mappingUrlIndex := s.mappingUrlIndex.insert url serviceIndex }

/-- `addURL` with the answer of `serviceForURL`: the feeder and the new index, `none` when the
call throws because there is no service. -/
def addURL (s : URLServiceFeeder) (url : String) (priority : Nat) (service : Option ServicePtr) :
    URLServiceFeeder × Option Nat :=
  let s := s.grow
  match first s.availableUrl, service with
  | some serviceIndex, some service =>
      (s.occupy serviceIndex url priority service, some serviceIndex)
  | _, _ => (s, none)

/-- The range test of the three operations on an index lets the capacity itself pass; the
slot behind the list is then accessed, so nothing is known afterwards. -/
def onIndex (s : URLServiceFeeder) (idx : Nat) (f : URLServiceFeeder → URLServiceFeeder) :
    Option URLServiceFeeder :=
  if s.capacity < idx then some s
  else if idx = s.capacity then none
  else some (f s)

variable {s t : URLServiceFeeder} {idx : Nat}

theorem onIndex_cases {f : URLServiceFeeder → URLServiceFeeder} (taken : s.onIndex idx f = some t) :
    s.capacity < idx ∧ t = s ∨ idx < s.capacity ∧ t = f s := by
  unfold onIndex at taken
  split at taken
  next beyond => exact .inl ⟨beyond, (Option.some.inj taken).symm⟩
  next within =>
    split at taken
    next => cases taken
    next different =>
      exact .inr ⟨Nat.lt_of_le_of_ne (Nat.not_lt.mp within) different, (Option.some.inj taken).symm⟩

/-- The body of `setURLOffline`. -/
def takeOffline (s : URLServiceFeeder) (idx : Nat) : URLServiceFeeder :=
  let s := (s.updateSlot idx fun slot => { slot with online := false }).removeFromOnlineQueue idx
  { s with
    currentService := if s.currentService = some idx then none else s.currentService
    offlineUrls := insert idx s.offlineUrls }

def setURLOffline (s : URLServiceFeeder) (idx : Nat) : Option URLServiceFeeder :=
  s.onIndex idx (·.takeOffline idx)

theorem setURLOffline_cases (taken : s.setURLOffline idx = some t) :
    s.capacity < idx ∧ t = s ∨ idx < s.capacity ∧ t = s.takeOffline idx :=
  onIndex_cases taken

/-- The body of `setURLOnline`. -/
def bringOnline (s : URLServiceFeeder) (idx : Nat) : URLServiceFeeder :=
  let s := { s with offlineUrls := s.offlineUrls.erase idx }
  let s := s.updateSlot idx fun slot => { slot with online := true }
  s.insertOnline (s.serviceList idx).index (s.serviceList idx).priority

def setURLOnline (s : URLServiceFeeder) (idx : Nat) : Option URLServiceFeeder :=
  s.onIndex idx (·.bringOnline idx)

theorem setURLOnline_cases (taken : s.setURLOnline idx = some t) :
    s.capacity < idx ∧ t = s ∨ idx < s.capacity ∧ t = s.bringOnline idx :=
  onIndex_cases taken

/-- The body of `removeURL`. The disposal of the service is left to the handler. -/
def release (s : URLServiceFeeder) (idx : Nat) : URLServiceFeeder :=
  let s := s.removeFromOnlineQueue idx
  let s := { s with
    availableUrl := insert idx s.availableUrl
    mappingUrlIndex := s.mappingUrlIndex.removebyRightKey idx }
  s.updateSlot idx fun slot => { slot with priority := 0, service := none }

def removeURL (s : URLServiceFeeder) (idx : Nat) : Option URLServiceFeeder :=
  s.onIndex idx (·.release idx)

theorem removeURL_cases (taken : s.removeURL idx = some t) :
    s.capacity < idx ∧ t = s ∨ idx < s.capacity ∧ t = s.release idx :=
  onIndex_cases taken

/-- `clear` leaves the map of the URLs alone. -/
def clear (s : URLServiceFeeder) : URLServiceFeeder :=
  { s with
    serviceList := fun i =>
      if i < s.capacity then { s.serviceList i with priority := 0, service := none }
      else s.serviceList i
    availableUrl := s.availableUrl ∪ Finset.range s.capacity
    offlineUrls := s.offlineUrls \ Finset.range s.capacity
    setUrlsOnline := [] }

/-- `modify`, which erases an element whose new position is that of another one. -/
def reposition (s : URLServiceFeeder) (next : URLServiceIndex) : List URLServiceIndex :=
  let others := s.setUrlsOnline.filter (· ≠ next)
  if others.any (·.roundRobingStartPosition == s.nextPosition) then others
  else s.setUrlsOnline.map fun element =>
    if element = next then { element with roundRobingStartPosition := s.nextPosition } else element

/-- `getNextFromSetByRoundRobin`: the least position, which then becomes the greatest. -/
def getNextFromSetByRoundRobin (s : URLServiceFeeder) : URLServiceFeeder × Option Nat :=
  match leastBy (·.roundRobingStartPosition) s.setUrlsOnline with
  | none => (s, none)
  | some next =>
      ({ s with lastRoundRobinIndex := s.nextPosition, setUrlsOnline := s.reposition next },
        some next.globalIndex)

/-- `getNextFromSetByPriority`, which goes by the index. -/
def getNextFromSetByPriority (s : URLServiceFeeder) : Option Nat :=
  (leastBy (·.globalIndex) s.setUrlsOnline).map (·.globalIndex)

/-- `getService` without an argument: the feeder and the returned pointer. -/
def getService (s : URLServiceFeeder) : URLServiceFeeder × Option ServicePtr :=
  let (s, current) := match s.feedMode with
    | .roundRobin => s.getNextFromSetByRoundRobin
    | .failOver => (s, s.getNextFromSetByPriority)
  ({ s with currentService := current }, current.bind fun idx => (s.serviceList idx).service)

def getNumberOfURL (s : URLServiceFeeder) : Nat := s.mappingUrlIndex.size

/-! ### The slot that an operation writes -/

section Slots

variable (s : URLServiceFeeder) (idx : Nat)

theorem occupy_capacity (url : String) (prio : Nat) (srv : ServicePtr) :
    (s.occupy idx url prio srv).capacity = s.capacity := rfl

theorem occupy_serviceList (url : String) (prio : Nat) (srv : ServicePtr) :
    (s.occupy idx url prio srv).serviceList = update s.serviceList idx
      { s.serviceList idx with
        url := url, service := some srv, online := true, priority := prio } := rfl

theorem takeOffline_capacity : (s.takeOffline idx).capacity = s.capacity := rfl

theorem takeOffline_serviceList : (s.takeOffline idx).serviceList =
    update s.serviceList idx { s.serviceList idx with online := false } := rfl

theorem bringOnline_capacity : (s.bringOnline idx).capacity = s.capacity := rfl

theorem bringOnline_serviceList : (s.bringOnline idx).serviceList =
    update s.serviceList idx { s.serviceList idx with online := true } := rfl

theorem release_capacity : (s.release idx).capacity = s.capacity := rfl

theorem release_serviceList : (s.release idx).serviceList =
    update s.serviceList idx { s.serviceList idx with priority := 0, service := none } :=
  rfl

end Slots

/-! ### Transitions -/

inductive Action
  | addURL (url : String) (priority : Nat) (service : Option ServicePtr)
  | removeURL (idx : Nat)
  | setURLOffline (idx : Nat)
  | setURLOnline (idx : Nat)
  | clear
  | getService
  | setFeedMode (feedMode : URLServiceFeedMode)
  deriving DecidableEq, Repr

def step (s : URLServiceFeeder) : Action → Option URLServiceFeeder
  | .addURL url priority service => some (s.addURL url priority service).1
  | .removeURL idx => s.removeURL idx
  | .setURLOffline idx => s.setURLOffline idx
  | .setURLOnline idx => s.setURLOnline idx
  | .clear => some s.clear
  | .getService => some s.getService.1
  | .setFeedMode feedMode => some { s with feedMode := feedMode }

end URLServiceFeeder

end ChaosFramework.Network
