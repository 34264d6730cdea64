import Mathlib.Data.Finset.Card
import ChaosFramework.Transition

/-!
# The sockets of the RPC client and the acks

A thread that sends a message for `ZMQClient` takes a socket from the pool of the address, sends the
message and waits for the ack. The socket goes back into the pool when the ack has been received,
and is closed when the message cannot be sent or the ack does not arrive in time. From time to time
the sockets that have not been used for a while are closed, and a pool that has none left is
removed.

That an ack belongs to the message is not checked. It does (`ack_of_message`), since a socket in a
pool never has an ack on the way, and a socket is in a pool once or it is held by one thread.
-/

namespace ChaosFramework.Rpc

open Transition List Function

structure Socket where
  /-- The messages that have been sent and that the server has not yet answered. -/
  unacked : List ℕ
  /-- The acks that have not yet been received, each by the message that the server answers. -/
  acks : List ℕ
  deriving DecidableEq, Repr

structure ResourceSlot where
  socket : ℕ
  validUntil : ℕ
  poolIdentification : String
  deriving DecidableEq, Repr

structure ResourcePool where
  createdResources : ℕ
  rPool : List ResourceSlot
  deriving DecidableEq, Repr

/-- What `map_socket` has for an address. -/
inductive PoolEntry
  | absent
  /-- Left behind by the access operator of the map. -/
  | null
  | pool (p : ResourcePool)
  deriving DecidableEq, Repr

/-- Where a call of `processBufferElement` stands. -/
inductive Phase
  | starting
  | holding (slot : ResourceSlot)
  | waiting (slot : ResourceSlot)
  | releasing (slot : ResourceSlot)
  | deleting (slot : ResourceSlot)
  | returned
  deriving DecidableEq, Repr

def Phase.slot : Phase → Option ResourceSlot
  | .starting | .returned => none
  | .holding slot | .waiting slot | .releasing slot | .deleting slot => some slot

/-- An ack that has been taken for a message. -/
structure Taken where
  message : ℕ
  producedFor : ℕ
  deriving DecidableEq, Repr

structure ZMQClient where
  sockets : ℕ → Socket
  nextSocket : ℕ
  mapSocket : String → PoolEntry
  /-- The calls of `processBufferElement`, by their messages. -/
  destinationAddr : ℕ → String
  phases : ℕ → Phase
  nextMessage : ℕ
  taken : List Taken

/-- What happens when a message is sent. -/
inductive Sending
  | notMade
  | notSent
  | sent
  deriving DecidableEq, Repr

namespace ZMQClient

/-- The steps of the threads that process messages, of the servers and of the timer. -/
inductive Label
  | submit (destinationAddr : String)
  /-- If a socket has to be made then until when it is valid, unless it cannot be made. -/
  | getSocketForNFI (message : ℕ) (allocated : Option ℕ)
  | send (message : ℕ) (sending : Sending)
  | answer (socket message : ℕ)
  | receive (message : ℕ) (received : Bool)
  | releaseSocket (message : ℕ)
  | deleteSocket (message : ℕ)
  /-- An exception ends the call, and the socket is not given back. -/
  | throw (message : ℕ)
  /-- What `timeout` does with one of the pools. -/
  | timeout (destinationAddr : String) (now : ℕ)
  deriving DecidableEq, Repr

def init : ZMQClient where
  sockets _ := ⟨[], []⟩
  nextSocket := 0
  mapSocket _ := .absent
  destinationAddr _ := ""
  phases _ := .returned
  nextMessage := 0
  taken := []

def setPhase (c : ZMQClient) (message : ℕ) (phase : Phase) : ZMQClient :=
  { c with phases := update c.phases message phase }

def setPool (c : ZMQClient) (address : String) (p : ResourcePool) : ZMQClient :=
  { c with mapSocket := update c.mapSocket address (.pool p) }

def setSocket (c : ZMQClient) (i : ℕ) (k : Socket) : ZMQClient :=
  { c with sockets := update c.sockets i k }

/-- `_pushNewResourceinPool` -/
def pushNewResourceInPool (c : ZMQClient) (address : String) (p : ResourcePool)
    (validUntil : ℕ) : ZMQClient :=
  { c with
    sockets := update c.sockets c.nextSocket ⟨[], []⟩
    nextSocket := c.nextSocket + 1
    mapSocket := update c.mapSocket address
      (.pool ⟨p.createdResources + 1, ⟨c.nextSocket, validUntil, address⟩ :: p.rPool⟩) }

/-- The first slot of the pool goes to the call. -/
def popFront (c : ZMQClient) (message : ℕ) (address : String) : ZMQClient :=
  match c.mapSocket address with
  | .pool ⟨created, slot :: rest⟩ =>
      (c.setPool address ⟨created, rest⟩).setPhase message (.holding slot)
  | _ => c.setPhase message .returned

def getNewResource (c : ZMQClient) (message : ℕ) (address : String) (p : ResourcePool)
    (allocated : Option ℕ) : ZMQClient :=
  match p.rPool, allocated with
  | [], some validUntil =>
      (c.pushNewResourceInPool address p validUntil).popFront message address
  | _, _ => (c.setPool address p).popFront message address

/-- `CHAOS_RESOURCE_POOL_DELETE_SLOT`: the socket is closed, and everything that was on its way is
lost. -/
def deleteSlot (c : ZMQClient) (address : String) (p : ResourcePool) (slot : ResourceSlot) :
    ZMQClient :=
  (c.setSocket slot.socket ⟨[], []⟩).setPool address
    { p with createdResources := p.createdResources - 1 }

/-- Giving a slot back to the pool it comes from, or deleting it. -/
def releaseResource (c : ZMQClient) (slot : ResourceSlot) (purge : Bool) : ZMQClient :=
  match c.mapSocket slot.poolIdentification with
  | .pool p =>
      if purge then c.deleteSlot slot.poolIdentification p slot
      else c.setPool slot.poolIdentification { p with rPool := slot :: p.rPool }
  | _ => { c with mapSocket := update c.mapSocket slot.poolIdentification .null }

/-- The loop of `ResourcePool::maintenance`, which looks at the last slot of the pool. -/
def maintenance (address : String) (now : ℕ) : ℕ → ZMQClient → ZMQClient
  | 0, c => c
  | maxToCheck + 1, c =>
      match c.mapSocket address with
      | .pool p =>
          match p.rPool.getLast? with
          | some slot =>
              if slot.validUntil < now then
                maintenance address now maxToCheck
                  (c.deleteSlot address { p with rPool := p.rPool.dropLast } slot)
              else c
          | none => c
      | _ => c

/-- A pool without resources is removed. -/
def eraseEmpty (c : ZMQClient) (address : String) : ZMQClient :=
  match c.mapSocket address with
  | .pool p =>
      if p.createdResources = 0 then
        { c with mapSocket := update c.mapSocket address .absent }
      else c
  | _ => c

/-- The transitions. An entry of the map that is NULL must not be used, and there never is
one (`mapSocket_ne_null`). -/
def step (c : ZMQClient) : Label → Option ZMQClient
  | .submit address => some { c with
      destinationAddr := update c.destinationAddr c.nextMessage address
      phases := update c.phases c.nextMessage .starting
      nextMessage := c.nextMessage + 1 }
  | .getSocketForNFI message allocated =>
      match c.phases message, c.mapSocket (c.destinationAddr message) with
      | .starting, .absent =>
          some (c.getNewResource message (c.destinationAddr message) ⟨0, []⟩ allocated)
      | .starting, .pool p =>
          some (c.getNewResource message (c.destinationAddr message) p allocated)
      | _, _ => none
  | .send message sending =>
      match c.phases message, sending with
      | .holding slot, .notMade => some (c.setPhase message (.releasing slot))
      | .holding slot, .notSent => some (c.setPhase message (.deleting slot))
      | .holding slot, .sent =>
          let k := c.sockets slot.socket
          some ((c.setSocket slot.socket { k with unacked := k.unacked ++ [message] }).setPhase
            message (.waiting slot))
      | _, _ => none
  | .answer i message =>
      let k := c.sockets i
      if message ∈ k.unacked then
        some (c.setSocket i ⟨k.unacked.erase message, k.acks ++ [message]⟩)
      else none
  | .receive message received =>
      match c.phases message with
      | .waiting slot =>
          if received then
            match (c.sockets slot.socket).acks with
            | ack :: rest =>
                some { (c.setSocket slot.socket
                    { c.sockets slot.socket with acks := rest }).setPhase
                  message (.releasing slot) with taken := c.taken ++ [⟨message, ack⟩] }
            | [] => none
          else some (c.setPhase message (.deleting slot))
      | _ => none
  | .releaseSocket message =>
      match c.phases message with
      | .releasing slot => some ((c.setPhase message .returned).releaseResource slot false)
      | _ => none
  | .deleteSocket message =>
      match c.phases message with
      | .deleting slot => some ((c.setPhase message .returned).releaseResource slot true)
      | _ => none
  | .throw message =>
      if (c.phases message).slot.isSome then some (c.setPhase message .returned) else none
  | .timeout address now =>
      match c.mapSocket address with
      | .pool p => some ((maintenance address now (min 3 p.rPool.length) c).eraseEmpty address)
      | _ => none

end ZMQClient

/-! ### Who holds a socket, and what is on its way -/

/-- The messages for which something may still come out of the socket. -/
def Socket.pending (k : Socket) : List ℕ := k.unacked ++ k.acks

/-- The sockets that have not been closed: the call that has one, if it is not in its pool, and the
sockets of every address. -/
structure Inventory where
  holder : ℕ → Option ℕ
  alive : String → Finset ℕ

/-- A slot that is in the pool of an address. -/
structure ResourceSlot.Rests (v : Inventory) (sockets : ℕ → Socket) (address : String)
    (slot : ResourceSlot) : Prop where
  home : slot.poolIdentification = address
  isAlive : slot.socket ∈ v.alive address
  unheld : v.holder slot.socket = none
  quiet : (sockets slot.socket).pending = []

/-- A pool and the sockets of its address. -/
structure ResourcePool.Fits (v : Inventory) (sockets : ℕ → Socket) (address : String)
    (p : ResourcePool) : Prop where
  counted : p.createdResources = (v.alive address).card
  nodup : (p.rPool.map ResourceSlot.socket).Nodup
  rests : ∀ slot ∈ p.rPool, slot.Rests v sockets address

def PoolEntry.Fits (v : Inventory) (sockets : ℕ → Socket) (address : String) :
    PoolEntry → Prop
  | .absent => v.alive address = ∅
  | .null => False
  | .pool p => p.Fits v sockets address

/-- What may come out of the socket of a call. -/
def Phase.Quiet (sockets : ℕ → Socket) (message : ℕ) : Phase → Prop
  | .holding slot | .releasing slot => (sockets slot.socket).pending = []
  | .waiting slot =>
      (sockets slot.socket).pending = [] ∨ (sockets slot.socket).pending = [message]
  | .starting | .deleting _ | .returned => True

/-- The call of a message has its socket for itself. -/
structure Phase.Fits (v : Inventory) (sockets : ℕ → Socket) (message : ℕ) (phase : Phase) :
    Prop where
  held : ∀ slot, phase.slot = some slot →
    slot.socket ∈ v.alive slot.poolIdentification ∧ v.holder slot.socket = some message
  quiet : phase.Quiet sockets message

theorem Phase.fits_of_slot_eq_none {phase : Phase} (without : phase.slot = none) {v : Inventory}
    {sockets : ℕ → Socket} {msg : ℕ} : phase.Fits v sockets msg := by
  refine ⟨fun slot hs => ?_, ?_⟩
  · cases without.symm.trans hs
  · cases phase with
    | starting | returned => trivial
    | holding slot | waiting slot | releasing slot | deleting slot => cases without

section Congruence

variable {v v' : Inventory} {sockets sockets' : ℕ → Socket} {addr : String}

theorem ResourceSlot.Rests.congr {slot : ResourceSlot} (rests : slot.Rests v sockets addr)
    (ha : slot.socket ∈ v'.alive addr)
    (sameHolder : v'.holder slot.socket = v.holder slot.socket)
    (hs : (sockets' slot.socket).pending.Perm (sockets slot.socket).pending) :
    slot.Rests v' sockets' addr where
  home := rests.home
  isAlive := ha
  unheld := sameHolder.trans rests.unheld
  quiet := perm_nil.mp (rests.quiet ▸ hs)

/-- Only the sockets of the address that are in the pool matter. -/
theorem PoolEntry.Fits.congr {entry : PoolEntry} (fits : entry.Fits v sockets addr)
    (sameAlive : v'.alive addr = v.alive addr)
    (same : ∀ i ∈ v.alive addr, v.holder i = none →
      v'.holder i = v.holder i ∧ (sockets' i).pending.Perm (sockets i).pending) :
    entry.Fits v' sockets' addr := by
  cases entry with
  | absent => exact sameAlive.trans fits
  | null => exact fits
  | pool p =>
    refine ⟨sameAlive ▸ fits.counted, fits.nodup, fun slot isIn => ?_⟩
    have hr := fits.rests slot isIn
    obtain ⟨sameHolder, hs⟩ := same slot.socket hr.isAlive hr.unheld
    exact hr.congr (sameAlive ▸ hr.isAlive) sameHolder hs

theorem Phase.Fits.congr {phase : Phase} {msg : ℕ} (fits : phase.Fits v sockets msg)
    (same : ∀ slot, phase.slot = some slot → slot.socket ∈ v'.alive slot.poolIdentification ∧
      v'.holder slot.socket = v.holder slot.socket ∧
      (sockets' slot.socket).pending.Perm (sockets slot.socket).pending) :
    phase.Fits v' sockets' msg := by
  refine ⟨fun slot hs => ?_, ?_⟩
  · obtain ⟨ha, sameHolder, -⟩ := same slot hs
    exact ⟨ha, sameHolder.trans (fits.held slot hs).2⟩
  · have hq := fits.quiet
    cases phase with
    | starting | deleting slot | returned => trivial
    | holding slot | releasing slot =>
      have perm := (same slot rfl).2.2
      rw [show (sockets slot.socket).pending = [] from hq] at perm
      exact perm_nil.mp perm
    | waiting slot =>
      have perm := (same slot rfl).2.2
      rcases hq with silent | one
      · exact .inl (perm_nil.mp (silent ▸ perm))
      · exact .inr (perm_singleton.mp (one ▸ perm))

end Congruence

namespace ZMQClient

/-- An inventory describes the client, and the acks that have been taken are the right ones. -/
structure Consistent (v : Inventory) (c : ZMQClient) : Prop where
  entries : ∀ address, (c.mapSocket address).Fits v c.sockets address
  phases : ∀ m, (c.phases m).Fits v c.sockets m
  made : ∀ address, ∀ i ∈ v.alive address, i < c.nextSocket
  apart : ∀ {a b i}, i ∈ v.alive a → i ∈ v.alive b → a = b
  own : ∀ t ∈ c.taken, t.producedFor = t.message

section Updates

variable {v : Inventory} {c : ZMQClient} {sockets : ℕ → Socket}

theorem entries_update {entry : PoolEntry} {addr : String} (here : entry.Fits v sockets addr)
    (he : ∀ a, a ≠ addr → (c.mapSocket a).Fits v sockets a) :
    ∀ a, (update c.mapSocket addr entry a).Fits v sockets a :=
  (forall_update_iff c.mapSocket fun a entry => entry.Fits v sockets a).mpr ⟨here, he⟩

theorem phases_update {phase : Phase} {msg : ℕ} (here : phase.Fits v sockets msg)
    (he : ∀ m, m ≠ msg → (c.phases m).Fits v sockets m) :
    ∀ m, (update c.phases msg phase m).Fits v sockets m :=
  (forall_update_iff c.phases fun m phase => phase.Fits v sockets m).mpr ⟨here, he⟩

theorem pending_update_of_ne {i j : ℕ} (other : j ≠ i) (k : Socket) :
    (update sockets i k j).pending.Perm (sockets j).pending := by
  rw [update_of_ne other]

end Updates

namespace Consistent

variable {v : Inventory} {c : ZMQClient} {addr : String} {p : ResourcePool}
  {slot : ResourceSlot} {msg : ℕ} (hc : Consistent v c) {phase : Phase}

include hc

theorem pool (hp : c.mapSocket addr = .pool p) : p.Fits v c.sockets addr := by
  have fits := hc.entries addr
  rwa [hp] at fits

theorem quiet (hp : c.phases msg = phase) : phase.Quiet c.sockets msg :=
  hp ▸ (hc.phases msg).quiet

theorem held {m : ℕ} (hs : (c.phases m).slot = some slot) :
    slot.socket ∈ v.alive slot.poolIdentification ∧ v.holder slot.socket = some m :=
  (hc.phases m).held slot hs

/-- A call goes on with its socket, which it may have used. -/
theorem proceed (hh : (c.phases msg).slot = some slot) (k : Socket) (keeps : phase.slot = some slot)
    (quiet : phase.Quiet (update c.sockets slot.socket k) msg) :
    Consistent v ((c.setSocket slot.socket k).setPhase msg phase) := by
  have here := hc.held hh
  have unchanged {i : ℕ} (other : v.holder i ≠ some msg) :
      (update c.sockets slot.socket k i).pending.Perm (c.sockets i).pending := by
    refine pending_update_of_ne ?_ k
    rintro rfl
    exact other here.2
  refine { hc with
    entries := fun a => (hc.entries a).congr rfl fun i _ hi => ⟨rfl, unchanged ?_⟩
    phases := phases_update ⟨fun s hs => ?here, quiet⟩ fun m other => ?elsewhere }
  · rw [hi]
    exact nofun
  case here =>
    obtain rfl : slot = s := Option.some.inj (keeps.symm.trans hs)
    exact here
  case elsewhere =>
    refine (hc.phases m).congr fun s hs => ?_
    obtain ⟨ha, holder⟩ := hc.held hs
    refine ⟨ha, rfl, unchanged ?_⟩
    rw [holder]
    exact fun same => other (Option.some.inj same)

theorem setPhase (hh : (c.phases msg).slot = some slot)
    (keeps : phase.slot = some slot) (quiet : phase.Quiet c.sockets msg) :
    Consistent v (c.setPhase msg phase) := by
  have next := hc.proceed hh (c.sockets slot.socket) keeps (by rwa [update_eq_self])
  rwa [ZMQClient.setSocket, update_eq_self] at next

/-- A call that has no socket any more, or not yet. -/
theorem setPhase_of_none (msg : ℕ) (without : phase.slot = none) :
    Consistent v (c.setPhase msg phase) :=
  { hc with
    phases := phases_update (Phase.fits_of_slot_eq_none without) fun m _ => hc.phases m }

theorem take (msg : ℕ) : Consistent v { c with taken := c.taken ++ [⟨msg, msg⟩] } :=
  { hc with
    own := forall_mem_append.mpr ⟨hc.own, forall_mem_singleton.mpr rfl⟩ }

theorem answer {i : ℕ} (hu : msg ∈ (c.sockets i).unacked) :
    Consistent v (c.setSocket i
      ⟨(c.sockets i).unacked.erase msg, (c.sockets i).acks ++ [msg]⟩) := by
  set k : Socket := ⟨(c.sockets i).unacked.erase msg, (c.sockets i).acks ++ [msg]⟩
  have perm : k.pending.Perm (c.sockets i).pending := by
    have shifted : ((c.sockets i).unacked.erase msg ++ ((c.sockets i).acks ++ [msg])).Perm
        (msg :: ((c.sockets i).unacked.erase msg ++ (c.sockets i).acks)) := by
      rw [← append_assoc]
      exact perm_append_singleton _ _
    exact shifted.trans ((perm_cons_erase hu).symm.append_right _)
  have pending (j : ℕ) : (update c.sockets i k j).pending.Perm (c.sockets j).pending := by
    obtain rfl | here := eq_or_ne j i
    · rwa [update_self]
    · exact pending_update_of_ne here k
  exact { hc with
    entries := fun a => (hc.entries a).congr rfl fun j _ _ => ⟨rfl, pending j⟩
    phases := fun m => (hc.phases m).congr fun s hs =>
      ⟨(hc.held hs).1, rfl, pending s.socket⟩ }

/-! ### The operations of the pools -/

theorem newPool (ha : c.mapSocket addr = .absent) : Consistent v (c.setPool addr ⟨0, []⟩) := by
  have empty : v.alive addr = ∅ := by
    have fits := hc.entries addr
    rwa [ha] at fits
  have fits : ResourcePool.Fits v c.sockets addr ⟨0, []⟩ :=
    ⟨by rw [empty]; rfl, nodup_nil, nofun⟩
  exact { hc with entries := entries_update fits fun a _ => hc.entries a }

theorem popFront {created : ℕ} {rest : List ResourceSlot}
    (hp : c.mapSocket addr = .pool ⟨created, slot :: rest⟩) :
    Consistent { v with holder := update v.holder slot.socket (some msg) }
      ((c.setPool addr ⟨created, rest⟩).setPhase msg (.holding slot)) := by
  have fits := hc.pool hp
  obtain ⟨⟨rfl, ha, unheld, quiet⟩, hr⟩ := forall_mem_cons.mp fits.rests
  obtain ⟨isNew, nodup⟩ := nodup_cons.mp fits.nodup
  have hu {i : ℕ} (other : i ≠ slot.socket) :
      update v.holder slot.socket (some msg) i = v.holder i :=
    update_of_ne other _ _
  refine { hc with
    entries := entries_update ⟨fits.counted, nodup, fun other isIn => ?here⟩ fun a other => ?there
    phases := phases_update ⟨?held, quiet⟩ fun m _ => ?others }
  case here =>
    refine (hr other isIn).congr (hr other isIn).isAlive (hu ?_) (.refl _)
    exact fun same => isNew (same ▸ mem_map_of_mem isIn)
  case there =>
    refine (hc.entries a).congr rfl fun i ht _ => ⟨hu ?_, .refl _⟩
    rintro rfl
    exact other (hc.apart ht ha)
  case held =>
    rintro s ⟨⟩
    exact ⟨ha, update_self _ _ _⟩
  case others =>
    refine (hc.phases m).congr fun s hs => ?_
    obtain ⟨isAliveToo, holder⟩ := hc.held hs
    refine ⟨isAliveToo, hu fun same => ?_, .refl _⟩
    rw [same, unheld] at holder
    cases holder

theorem pushNewResourceInPool (hp : c.mapSocket addr = .pool p) (till : ℕ) :
    Consistent ⟨update v.holder c.nextSocket none,
        update v.alive addr (insert c.nextSocket (v.alive addr))⟩
      (c.pushNewResourceInPool addr p till) := by
  have fits := hc.pool hp
  have isNew {a : String} : c.nextSocket ∉ v.alive a := fun isOld =>
    Nat.lt_irrefl _ (hc.made a _ isOld)
  have holder {a : String} {i : ℕ} (isOld : i ∈ v.alive a) :
      update v.holder c.nextSocket none i = v.holder i :=
    update_of_ne (hc.made a i isOld).ne _ _
  have pending {a : String} {i : ℕ} (isOld : i ∈ v.alive a) :
      (update c.sockets c.nextSocket ⟨[], []⟩ i).pending.Perm (c.sockets i).pending :=
    pending_update_of_ne (hc.made a i isOld).ne _
  have alive {a : String} {i : ℕ} :
      i ∈ update v.alive addr (insert c.nextSocket (v.alive addr)) a ↔
        (a = addr ∧ i = c.nextSocket) ∨ i ∈ v.alive a := by
    by_cases here : a = addr <;> simp [here]
  refine ⟨entries_update ⟨?counted, ?nodup, ?hr⟩ fun a other => ?there, fun m => ?phases, ?made,
    ?apart, hc.own⟩
  case counted =>
    have card : (update v.alive addr (insert c.nextSocket (v.alive addr))
        addr).card = p.createdResources + 1 := by
      rw [update_self, Finset.card_insert_of_notMem isNew, fits.counted]
    exact card.symm
  case nodup =>
    refine nodup_cons.mpr ⟨fun isOld => ?_, fits.nodup⟩
    obtain ⟨other, isIn, same⟩ := mem_map.mp isOld
    exact isNew (same ▸ (fits.rests other isIn).isAlive)
  case hr =>
    have silent : (update c.sockets c.nextSocket ⟨[], []⟩ c.nextSocket).pending = [] := by
      rw [update_self]
      rfl
    refine forall_mem_cons.mpr ⟨⟨rfl, alive.mpr (.inl ⟨rfl, rfl⟩), update_self _ _ _,
      silent⟩, fun other isIn => ?_⟩
    have hr := fits.rests other isIn
    exact hr.congr (alive.mpr (.inr hr.isAlive)) (holder hr.isAlive) (pending hr.isAlive)
  case there =>
    exact (hc.entries a).congr (update_of_ne other _ _) fun i ht _ => ⟨holder ht, pending ht⟩
  case phases =>
    refine (hc.phases m).congr fun s hs => ?_
    have ha := (hc.held hs).1
    exact ⟨alive.mpr (.inr ha), holder ha, pending ha⟩
  case made =>
    intro a i ht
    rcases alive.mp ht with ⟨-, rfl⟩ | isOld
    · exact Nat.lt_succ_self _
    · exact Nat.lt_succ_of_lt (hc.made a i isOld)
  case apart =>
    intro a b i ht hh
    rcases alive.mp ht with ⟨rfl, rfl⟩ | isOld
    · rcases alive.mp hh with ⟨rfl, -⟩ | isOld
      · rfl
      · exact (isNew isOld).elim
    · rcases alive.mp hh with ⟨-, rfl⟩ | isOldToo
      · exact (isNew isOld).elim
      · exact hc.apart isOld isOldToo

/-- A socket that no call has goes back into the pool. -/
theorem pushFront (hp : c.mapSocket slot.poolIdentification = .pool p)
    (ha : slot.socket ∈ v.alive slot.poolIdentification)
    (outside : v.holder slot.socket ≠ none)
    (free : ∀ m s, (c.phases m).slot = some s → s.socket ≠ slot.socket)
    (quiet : (c.sockets slot.socket).pending = []) :
    Consistent { v with holder := update v.holder slot.socket none }
      (c.setPool slot.poolIdentification { p with rPool := slot :: p.rPool }) := by
  have fits := hc.pool hp
  have unchanged {i : ℕ} (other : i ≠ slot.socket) :
      update v.holder slot.socket none i = v.holder i :=
    update_of_ne other _ _
  have others (other : ResourceSlot) (isIn : other ∈ p.rPool) : other.socket ≠ slot.socket :=
    fun same => outside (same ▸ (fits.rests other isIn).unheld)
  refine { hc with
    entries := entries_update ⟨fits.counted, nodup_cons.mpr ⟨fun isOld => ?new, fits.nodup⟩,
      forall_mem_cons.mpr ⟨⟨rfl, ha, update_self _ _ _, quiet⟩,
        fun other isIn => ?here⟩⟩ fun a other => ?there
    phases := fun m => (hc.phases m).congr fun s hs =>
      ⟨(hc.held hs).1, unchanged (free m s hs), .refl _⟩ }
  case new =>
    obtain ⟨other, isIn, same⟩ := mem_map.mp isOld
    exact others other isIn same
  case here =>
    have hr := fits.rests other isIn
    exact hr.congr hr.isAlive (unchanged (others other isIn)) (.refl _)
  case there =>
    refine (hc.entries a).congr rfl fun i ht _ => ⟨unchanged ?_, .refl _⟩
    rintro rfl
    exact other (hc.apart ht ha)

/-- A socket that no call has, and that is no longer in the pool, is closed. -/
theorem deleteSlot {q : ResourcePool} (hp : c.mapSocket addr = .pool q)
    (ha : slot.socket ∈ v.alive addr)
    (free : ∀ m s, (c.phases m).slot = some s → s.socket ≠ slot.socket)
    (same : p.createdResources = q.createdResources) (part : p.rPool.Sublist q.rPool)
    (outside : ∀ other ∈ p.rPool, other.socket ≠ slot.socket) :
    Consistent { v with alive := update v.alive addr ((v.alive addr).erase slot.socket) }
      (c.deleteSlot addr p slot) := by
  have fits := hc.pool hp
  have alive {a : String} {i : ℕ} :
      i ∈ update v.alive addr ((v.alive addr).erase slot.socket) a ↔
        i ≠ slot.socket ∧ i ∈ v.alive a := by
    obtain rfl | here := eq_or_ne a addr
    · simp
    · rw [update_of_ne here]
      refine ⟨fun ht => ⟨?_, ht⟩, fun both => both.2⟩
      rintro rfl
      exact here (hc.apart ht ha)
  refine ⟨entries_update ⟨?counted, fits.nodup.sublist (part.map _), fun other isIn => ?here⟩
    fun a other => ?there, fun m => ?phases, fun a i ht => ?made, ?apart, hc.own⟩
  case counted =>
    have card : (update v.alive addr ((v.alive addr).erase slot.socket)
        addr).card = p.createdResources - 1 := by
      rw [update_self, Finset.card_erase_of_mem ha, same, fits.counted]
    exact card.symm
  case here =>
    have hr := fits.rests other (part.subset isIn)
    exact hr.congr (alive.mpr ⟨outside other isIn, hr.isAlive⟩) rfl
      (pending_update_of_ne (outside other isIn) _)
  case there =>
    refine (hc.entries a).congr (update_of_ne other _ _)
      fun i ht _ => ⟨rfl, pending_update_of_ne ?_ _⟩
    rintro rfl
    exact other (hc.apart ht ha)
  case phases =>
    refine (hc.phases m).congr fun s hs => ⟨alive.mpr ?_, rfl, ?_⟩
    · exact ⟨free m s hs, (hc.held hs).1⟩
    · exact pending_update_of_ne (free m s hs) _
  case made => exact hc.made a i (alive.mp ht).2
  case apart =>
    exact fun ht hh => hc.apart (alive.mp ht).2 (alive.mp hh).2

theorem eraseEmpty (addr : String) : Consistent v (c.eraseEmpty addr) := by
  unfold ZMQClient.eraseEmpty
  split
  next p isPool =>
    split
    next none =>
      have empty : v.alive addr = ∅ :=
        Finset.card_eq_zero.mp ((hc.pool isPool).counted.symm.trans none)
      exact { hc with entries := entries_update empty fun a _ => hc.entries a }
    next => exact hc
  next => exact hc

theorem maintenance (addr : String) (now maxToCheck : ℕ) :
    ∃ v', Consistent v' (maintenance addr now maxToCheck c) := by
  induction maxToCheck generalizing v c with
  | zero => exact ⟨v, hc⟩
  | succ maxToCheck ih =>
    unfold ZMQClient.maintenance
    split
    next p isPool =>
      split
      next slot isLast =>
        split
        next =>
          have fits := hc.pool isPool
          obtain ⟨front, split⟩ := getLast?_eq_some_iff.mp isLast
          have isIn : slot ∈ p.rPool := by simp [split]
          have nodup := fits.nodup
          rw [split, map_append, nodup_append] at nodup
          have dropped : p.rPool.dropLast = front := by simp [split]
          refine ih (hc.deleteSlot isPool (fits.rests slot isIn).isAlive ?free rfl
            (dropLast_sublist _) ?outside)
          case free =>
            intro m s hs same
            have holder := (hc.held hs).2
            rw [same, (fits.rests slot isIn).unheld] at holder
            cases holder
          case outside =>
            intro other isFront
            exact nodup.2.2 _ (mem_map_of_mem (dropped ▸ isFront)) _ (by simp)
        next => exact ⟨v, hc⟩
      next => exact ⟨v, hc⟩
    next => exact ⟨v, hc⟩

end Consistent

/-! ### Steps and runs -/

section Steps

variable {v : Inventory} {c t : ZMQClient} {msg : ℕ} {slot : ResourceSlot}

/-- A call gets the first socket of the pool, or it returns. -/
theorem popFront_consistent (hc : Consistent v c) (msg : ℕ) (addr : String) :
    ∃ v', Consistent v' (c.popFront msg addr) := by
  unfold popFront
  split
  next isPool => exact ⟨_, hc.popFront isPool⟩
  next => exact ⟨v, hc.setPhase_of_none msg rfl⟩

theorem getNewResource_consistent {addr : String} {p : ResourcePool}
    (hc : Consistent v (c.setPool addr p)) (msg : ℕ) (allocated : Option ℕ) :
    ∃ v', Consistent v' (c.getNewResource msg addr p allocated) := by
  unfold getNewResource
  split
  next till empty =>
    have hp : (c.setPool addr p).mapSocket addr = .pool p := update_self _ _ _
    have pushed := hc.pushNewResourceInPool hp till
    have same : (c.setPool addr p).pushNewResourceInPool addr p till =
        c.pushNewResourceInPool addr p till := by
      simp [pushNewResourceInPool, setPool]
    rw [same] at pushed
    exact popFront_consistent pushed msg addr
  next => exact popFront_consistent hc msg addr

/-- A call gives its socket back, or closes it, and returns. -/
theorem releaseResource_consistent (hc : Consistent v c) {purge : Bool}
    (hh : (c.phases msg).slot = some slot)
    (quiet : purge = false → (c.sockets slot.socket).pending = []) :
    ∃ v', Consistent v' ((c.setPhase msg .returned).releaseResource slot purge) := by
  obtain ⟨ha, holder⟩ := hc.held hh
  have outside : v.holder slot.socket ≠ none := by
    rw [holder]
    exact nofun
  have returned : Consistent v (c.setPhase msg .returned) :=
    hc.setPhase_of_none msg rfl
  have free : ∀ m s, ((c.setPhase msg .returned).phases m).slot = some s →
      s.socket ≠ slot.socket := by
    refine (forall_update_iff c.phases fun _ phase => ∀ s, phase.slot = some s →
      s.socket ≠ slot.socket).mpr ⟨nofun, fun m other s hs same => other ?_⟩
    have holderToo := (hc.held hs).2
    rw [same, holder] at holderToo
    exact (Option.some.inj holderToo).symm
  unfold releaseResource
  have fits := returned.entries slot.poolIdentification
  split
  next p isPool =>
    cases purge with
    | true =>
      refine ⟨_, returned.deleteSlot isPool ha free rfl (Sublist.refl _) ?_⟩
      intro other isIn same
      exact outside (same ▸ ((returned.pool isPool).rests other isIn).unheld)
    | false => exact ⟨_, returned.pushFront isPool ha outside free (quiet rfl)⟩
  next noPool =>
    -- The pool is there, as it counts the socket.
    cases isEntry : (c.setPhase msg .returned).mapSocket slot.poolIdentification with
    | absent =>
      rw [isEntry] at fits
      rw [show v.alive slot.poolIdentification = ∅ from fits] at ha
      exact absurd ha (Finset.notMem_empty _)
    | null =>
      rw [isEntry] at fits
      exact fits.elim
    | pool p => exact (noPool p isEntry).elim

theorem consistent_init : Consistent ⟨fun _ => none, fun _ => ∅⟩ init where
  entries _ := rfl
  phases _ := Phase.fits_of_slot_eq_none rfl
  made _ _ ht := absurd ht (Finset.notMem_empty _)
  apart ht _ := absurd ht (Finset.notMem_empty _)
  own _ isTaken := absurd isTaken not_mem_nil

theorem getSocketForNFI_consistent (hc : Consistent v c) {allocated : Option ℕ}
    (taken : c.step (.getSocketForNFI msg allocated) = some t) : ∃ v', Consistent v' t := by
  simp only [step] at taken
  split at taken <;> cases taken
  next absent => exact getNewResource_consistent (hc.newPool absent) msg allocated
  next p _ isPool =>
    have same : c.setPool (c.destinationAddr msg) p = c := by
      rw [setPool, ← isPool, update_eq_self]
    exact getNewResource_consistent (same.symm ▸ hc) msg allocated

theorem send_consistent (hc : Consistent v c) {sending : Sending}
    (taken : c.step (.send msg sending) = some t) : Consistent v t := by
  simp only [step] at taken
  split at taken <;> cases taken
  next slot isPhase =>
    have hq := hc.quiet isPhase
    exact hc.setPhase (by rw [isPhase]; rfl) rfl hq
  next slot isPhase => exact hc.setPhase (by rw [isPhase]; rfl) rfl trivial
  next slot isPhase =>
    obtain ⟨hn, noAck⟩ := append_eq_nil_iff.mp (hc.quiet isPhase)
    refine hc.proceed (by rw [isPhase]; rfl) _ rfl (.inr ?_)
    rw [update_self, hn, noAck]
    rfl

theorem receive_consistent (hc : Consistent v c) {recv : Bool}
    (taken : c.step (.receive msg recv) = some t) : Consistent v t := by
  simp only [step] at taken
  split at taken
  next slot hp =>
    split at taken
    next =>
      split at taken <;> cases taken
      next ack rest ha =>
        -- The only ack that can be there is the one of the message.
        have hq := hc.quiet hp
        rw [Phase.Quiet, Socket.pending, ha] at hq
        have one := hq.resolve_left (by simp)
        obtain ⟨hn, hs⟩ | ⟨-, ⟨⟩⟩ := append_eq_singleton_iff.mp one
        obtain ⟨rfl, rfl⟩ := List.cons.inj hs
        have silent : (Phase.releasing slot).Quiet (update c.sockets slot.socket
            { c.sockets slot.socket with acks := [] }) ack := by
          rw [Phase.Quiet, update_self, Socket.pending, hn]
          rfl
        have next := hc.proceed (by rw [hp]; rfl) _ rfl silent
        exact next.take ack
    next =>
      cases taken
      exact hc.setPhase (by rw [hp]; rfl) rfl trivial
  next => cases taken

theorem consistent_step (l : Label) (hc : ∃ v, Consistent v c)
    (taken : c.step l = some t) : ∃ v, Consistent v t := by
  obtain ⟨v, hc⟩ := hc
  cases l with
  | submit addr =>
    cases taken
    have hs : Consistent v (c.setPhase c.nextMessage .starting) :=
      hc.setPhase_of_none c.nextMessage rfl
    exact ⟨v, { hs with }⟩
  | getSocketForNFI msg allocated => exact getSocketForNFI_consistent hc taken
  | send msg sending => exact ⟨v, send_consistent hc taken⟩
  | answer i msg =>
    obtain ⟨hu, ⟨⟩⟩ := Option.ite_none_right_eq_some.mp taken
    exact ⟨v, hc.answer hu⟩
  | receive msg recv => exact ⟨v, receive_consistent hc taken⟩
  | releaseSocket msg =>
    simp only [step] at taken
    split at taken <;> cases taken
    next slot isPhase =>
      exact releaseResource_consistent hc (by rw [isPhase]; rfl) fun _ =>
        hc.quiet isPhase
  | deleteSocket msg =>
    simp only [step] at taken
    split at taken <;> cases taken
    next slot isPhase => exact releaseResource_consistent hc (by rw [isPhase]; rfl) nofun
  | throw msg =>
    obtain ⟨-, ⟨⟩⟩ := Option.ite_none_right_eq_some.mp taken
    exact ⟨v, hc.setPhase_of_none msg rfl⟩
  | timeout addr now =>
    simp only [step] at taken
    split at taken <;> cases taken
    next p isPool =>
      obtain ⟨v', after⟩ := hc.maintenance addr now (min 3 p.rPool.length)
      exact ⟨v', after.eraseEmpty addr⟩

end Steps

variable {labels : List Label} {c : ZMQClient}

theorem consistent_of_execute (run : execute step init labels = some c) : ∃ v, Consistent v c :=
  invariant_of_execute (consistent_step _) ⟨_, consistent_init⟩ run

/-- The entries of the map are never NULL, so that every socket that is given back finds its
pool. -/
theorem mapSocket_ne_null (run : execute step init labels = some c) (addr : String) :
    c.mapSocket addr ≠ .null := by
  obtain ⟨v, hc⟩ := consistent_of_execute run
  intro hn
  have fits := hc.entries addr
  rw [hn] at fits
  exact fits

/-- Every ack is taken for the message that the server has answered. -/
theorem ack_of_message {labels : List Label} {c : ZMQClient}
    (run : execute step init labels = some c) : ∀ t ∈ c.taken, t.producedFor = t.message := by
  obtain ⟨v, hc⟩ := consistent_of_execute run
  exact hc.own

/-- The first message is answered too late. The second one gets another socket, which the third one
uses again. -/
theorem ack_of_message_late :
    let labels : List Label := [.submit "server", .getSocketForNFI 0 (some 60), .send 0 .sent,
      .receive 0 false, .submit "server", .answer 0 0, .deleteSocket 0,
      .getSocketForNFI 1 (some 90), .send 1 .sent, .answer 1 1, .receive 1 true, .releaseSocket 1,
      .submit "server", .timeout "server" 80, .getSocketForNFI 2 none, .send 2 .sent,
      .answer 1 2, .receive 2 true]
    ∃ c, execute step init labels = some c ∧ c.taken = [⟨1, 1⟩, ⟨2, 2⟩] ∧
      ∀ t ∈ c.taken, t.producedFor = t.message := by
  intro labels
  have acks : (execute step init labels).map taken = some [⟨1, 1⟩, ⟨2, 2⟩] := by decide
  obtain ⟨c, run, both⟩ := Option.map_eq_some_iff.mp acks
  exact ⟨c, run, both, ack_of_message run⟩

/-- **Exclusive sockets.** No two calls have the same socket at a time. A socket in a pool is there
once, no call has it, and nothing is on its way. -/
theorem sockets_exclusive {labels : List Label} {c : ZMQClient}
    (run : execute step init labels = some c) :
    (∀ m n slot other, (c.phases m).slot = some slot → (c.phases n).slot = some other →
        slot.socket = other.socket → m = n) ∧
      ∀ addr p, c.mapSocket addr = .pool p → (p.rPool.map ResourceSlot.socket).Nodup ∧
        ∀ slot ∈ p.rPool, (c.sockets slot.socket).pending = [] ∧
          ∀ m other, (c.phases m).slot = some other → other.socket ≠ slot.socket := by
  obtain ⟨v, hc⟩ := consistent_of_execute run
  refine ⟨fun m n slot other hs ho he => ?_, fun addr p hp => ⟨(hc.pool hp).nodup, ?_⟩⟩
  · have hm := (hc.held hs).2
    rw [he, (hc.held ho).2] at hm
    exact (Option.some.inj hm).symm
  · intro slot hi
    have hr := (hc.pool hp).rests slot hi
    refine ⟨hr.quiet, fun m other ho he => ?_⟩
    cases hr.unheld.symm.trans (he ▸ (hc.held ho).2)

theorem sockets_exclusive_two :
    let labels : List Label := [.submit "server", .submit "server", .getSocketForNFI 0 (some 60),
      .getSocketForNFI 1 (some 60)]
    ∃ c slot other, execute step init labels = some c ∧ (c.phases 0).slot = some slot ∧
      (c.phases 1).slot = some other ∧ slot.socket ≠ other.socket := by
  intro labels
  refine ⟨_, _, _, rfl, rfl, rfl, fun he => ?_⟩
  cases (@sockets_exclusive labels _ rfl).1 0 1 _ _ rfl rfl he

end ZMQClient

end ChaosFramework.Rpc
