import Mathlib.Data.Nat.Basic
import Mathlib.Order.Basic
import ChaosFramework.Transition
import ChaosFramework.UniqueIndex

/-!
# The metadata of the connections to the HTTP adapter

A connection that is accepted by `HTTPServerAdapter` starts with the metadata of the listener. The
handshake of a websocket gives it metadata of its own, with a uuid by which the opcodes that are
queued for the connection find it. An opcode that closes a connection deletes its metadata and
leaves NULL behind, and so does the event with which the connection ends.

A connection that ends with the pointer it has started with deletes the metadata of the listener,
and a handshake or a frame after the metadata has been deleted dereferences NULL. Nothing else goes
wrong (`safe_iff_guarded`).
-/

namespace ChaosFramework.ExternalUnit

open Transition UniqueIndex Option Function

/-- A `ConnectionMetadata`. The one of the listener has no uuid. -/
inductive Cell
  | unallocated
  | live (uuid : Option ℕ)
  | deleted
  deriving DecidableEq, Repr

inductive Fault
  | null
  | dangling
  | deletedTwice
  deriving DecidableEq, Repr

/-- The opcodes that are queued for the poller. -/
inductive Opcode
  | send (identifier : ℕ)
  | closeConnection (identifier : ℕ)
  deriving DecidableEq, Repr

/-- How far the handshake of a websocket gets. -/
inductive Handshake
  | noContentType
  | noEndpoint
  | noMoreConnection
  | noSerializer
  | accepted
  deriving DecidableEq, Repr

/-- The events of mongoose for a connection. -/
inductive Event
  | httpRequest
  | handshake (result : Handshake)
  | frame
  | poll
  | close
  deriving DecidableEq, Repr

/-- The adapter as far as the metadata is concerned. The listener is connection 0, and its
metadata is the first that is made. -/
structure HTTPServerAdapter where
  cells : ℕ → Cell
  nextCell : ℕ
  userData : ℕ → Option ℕ
  /-- The connections of the manager, the last one that was added in front. -/
  connections : List ℕ
  nextConnection : ℕ
  nextUuid : ℕ
  mapConnection : List ℕ
  postEvtOpQueue : List Opcode
  fault : Option Fault

namespace HTTPServerAdapter

/-- The events are those of the poller's thread. Opcodes can be queued by any thread. -/
inductive Label
  | accept
  | event (connection : ℕ) (ev : Event)
  | post (op : Opcode)
  | executeOpcode
  deriving DecidableEq, Repr

def init : HTTPServerAdapter where
  cells := update (fun _ => .unallocated) 0 (.live none)
  nextCell := 1
  userData := update (fun _ => none) 0 (some 0)
  connections := [0]
  nextConnection := 1
  nextUuid := 0
  mapConnection := []
  postEvtOpQueue := []
  fault := none

def fail (s : HTTPServerAdapter) (fault : Fault) : HTTPServerAdapter :=
  { s with fault := some fault }

/-- The uuid of the metadata that a connection points to. -/
def dereference (s : HTTPServerAdapter) (connection : ℕ) : Except Fault (Option ℕ) :=
  match s.userData connection with
  | none => .error .null
  | some m =>
      match s.cells m with
      | .live uuid => .ok uuid
      | .unallocated => .error .dangling
      | .deleted => .error .dangling

/-- The metadata of a connection is deleted, and its pointer is set to NULL. -/
def deleteMetadata (s : HTTPServerAdapter) (connection : ℕ) : HTTPServerAdapter :=
  match s.userData connection with
  | none => s
  | some m =>
      match s.cells m with
      | .live _ => { s with
          cells := update s.cells m .deleted
          userData := update s.userData connection none }
      | .unallocated => s.fail .deletedTwice
      | .deleted => s.fail .deletedTwice

/-- Metadata with a new uuid. -/
def newMetadata (s : HTTPServerAdapter) (connection : ℕ) : HTTPServerAdapter :=
  { s with
    cells := update s.cells s.nextCell (.live (some s.nextUuid))
    nextCell := s.nextCell + 1
    userData := update s.userData connection (some s.nextCell)
    nextUuid := s.nextUuid + 1 }

/-- An error is sent, and that the connection is not accepted, and then the connection is closed. -/
def refuse (s : HTTPServerAdapter) (connection : ℕ) : HTTPServerAdapter :=
  { s.newMetadata connection with
    postEvtOpQueue := s.postEvtOpQueue ++
      [.send s.nextUuid, .send s.nextUuid, .closeConnection s.nextUuid] }

def manageWSHandshake (s : HTTPServerAdapter) (connection : ℕ) : Handshake → HTTPServerAdapter
  | .noContentType => s
  | .noEndpoint => s.refuse connection
  | .noMoreConnection => s.refuse connection
  | .noSerializer => s.refuse connection
  | .accepted =>
      if s.nextUuid ∈ s.mapConnection then s.refuse connection
      else { s.newMetadata connection with
        mapConnection := s.nextUuid :: s.mapConnection
        postEvtOpQueue := s.postEvtOpQueue ++ [.send s.nextUuid] }

/-- The listener is no connection of the map. -/
def eraseConnection (s : HTTPServerAdapter) (uuid : Option ℕ) : HTTPServerAdapter :=
  { s with mapConnection := s.mapConnection.filter fun other => some other ≠ uuid }

/-- The connection is removed from the manager after its last event. -/
def destroy (s : HTTPServerAdapter) (connection : ℕ) : HTTPServerAdapter :=
  { s with connections := s.connections.erase connection }

def eventHandler (s : HTTPServerAdapter) (connection : ℕ) : Event → HTTPServerAdapter
  | .httpRequest => s
  | .poll => s
  | .handshake result =>
      match s.dereference connection with
      | .error fault => s.fail fault
      | .ok _ => s.manageWSHandshake connection result
  | .frame =>
      match s.dereference connection with
      | .error fault => s.fail fault
      -- The frame goes to the workers, with the uuid.
      | .ok _ => s
  | .close =>
      match s.userData connection with
      | none => s.destroy connection
      | some _ =>
          match s.dereference connection with
          | .error fault => s.fail fault
          | .ok uuid => ((s.eraseConnection uuid).deleteMetadata connection).destroy connection

/-- `findConnection` looks at the metadata of the connections up to the one that it is looking
for. -/
def findConnection (s : HTTPServerAdapter) (identifier : ℕ) : List ℕ → Except Fault (Option ℕ)
  | [] => .ok none
  | c :: rest =>
      if s.userData c = none then s.findConnection identifier rest
      else
        match s.dereference c with
        | .error fault => .error fault
        | .ok uuid =>
            if uuid = some identifier then .ok (some c) else s.findConnection identifier rest

/-- `executeOpcodeOnConnection` with the connection that has been found. Sending does not use the
metadata. -/
def executeOpcodeOnConnection (s : HTTPServerAdapter) (op : Opcode) :
    Option ℕ → HTTPServerAdapter
  | none => s
  | some c =>
      match op with
      | .send _ => s
      | .closeConnection _ => s.deleteMetadata c

/-- The case of an opcode that is sent. -/
def executeSend (s : HTTPServerAdapter) (op : Opcode) (identifier : ℕ) : HTTPServerAdapter :=
  match s.findConnection identifier s.connections with
  | .error fault => s.fail fault
  | .ok found => s.executeOpcodeOnConnection op found

def consumeOpcode (s : HTTPServerAdapter) (op : Opcode) : HTTPServerAdapter :=
  match op with
  | .send identifier => s.executeSend op identifier
  | .closeConnection identifier =>
      match s.findConnection identifier s.connections with
      | .error fault => s.fail fault
      | .ok found =>
          -- There is no `break`, and so this goes on with the next case.
          ((s.executeOpcodeOnConnection op found).eraseConnection (some identifier)).executeSend
            op identifier

/-- The transitions. Nothing is said about what happens after a fault. -/
def step (s : HTTPServerAdapter) : Label → Option HTTPServerAdapter
  | .accept =>
      if s.fault.isSome then none
      else some { s with
        userData := update s.userData s.nextConnection (s.userData 0)
        connections := s.nextConnection :: s.connections
        nextConnection := s.nextConnection + 1 }
  | .event connection ev =>
      if s.fault.isSome then none
      else if connection ∈ s.connections ∧ connection ≠ 0 then
        some (s.eventHandler connection ev)
      else none
  | .post op =>
      if s.fault.isSome then none
      else some { s with postEvtOpQueue := s.postEvtOpQueue ++ [op] }
  | .executeOpcode =>
      if s.fault.isSome then none
      else
        match s.postEvtOpQueue with
        | [] => none
        | op :: rest => some ({ s with postEvtOpQueue := rest }.consumeOpcode op)

/-- No handler has used metadata that is not there, and the metadata of the listener is. -/
structure Safe (s : HTTPServerAdapter) : Prop where
  intact : s.fault = none
  listening : s.cells 0 = .live none

/-- A connection has its handshake and its frames before its metadata is deleted, and it does not
end with the metadata of the listener. -/
def Guarded (s : HTTPServerAdapter) : Label → Prop
  | .event connection (.handshake _) => s.userData connection ≠ none
  | .event connection .frame => s.userData connection ≠ none
  | .event connection .close => s.userData connection ≠ s.userData 0
  | .event _ .httpRequest => True
  | .event _ .poll => True
  | .accept => True
  | .post _ => True
  | .executeOpcode => True

instance decidableGuarded (s : HTTPServerAdapter) (l : Label) : Decidable (s.Guarded l) := by
  unfold Guarded
  split <;> infer_instance

/-! ### Who owns the metadata -/

/-- Every connection has no metadata, or that of the listener, or its own. -/
structure Owned (s : HTTPServerAdapter) : Prop extends Safe s where
  root : s.userData 0 = some 0
  isLive : ∀ {c m}, s.userData c = some m → m ≠ 0 → ∃ uuid, s.cells m = .live (some uuid)
  apart : ∀ {c d m}, s.userData c = some m → s.userData d = some m → m ≠ 0 → c = d
  fresh : ∀ m, s.nextCell ≤ m → s.cells m = .unallocated

theorem userData_init {c m : ℕ} (points : init.userData c = some m) : m = 0 := by
  obtain rfl | listener := eq_or_ne c 0
  · exact (Option.some.inj points).symm
  · have hn : update (fun _ => none) 0 (some 0) c = none :=
      update_of_ne listener (some 0) fun _ => none
    exact absurd (hn.symm.trans points) nofun

theorem owned_init : Owned init where
  intact := rfl
  listening := rfl
  root := rfl
  isLive points other := absurd (userData_init points) other
  apart points _ other := absurd (userData_init points) other
  fresh m isNew := by
    have client : m ≠ 0 := Nat.pos_iff_ne_zero.mp isNew
    exact update_of_ne client (.live none) fun _ => Cell.unallocated

namespace Owned

variable {s t : HTTPServerAdapter} {conn : ℕ}

section

variable (ho : Owned s)

include ho

theorem isLive_or_listener {c m : ℕ} (points : s.userData c = some m) :
    ∃ uuid, s.cells m = .live uuid := by
  obtain rfl | listener := eq_or_ne m 0
  · exact ⟨none, ho.listening⟩
  · obtain ⟨uuid, hl⟩ := ho.isLive points listener
    exact ⟨some uuid, hl⟩

theorem dereference {c m : ℕ} (points : s.userData c = some m) :
    ∃ uuid, s.cells m = .live uuid ∧ s.dereference c = .ok uuid := by
  obtain ⟨uuid, isLive⟩ := ho.isLive_or_listener points
  refine ⟨uuid, isLive, ?_⟩
  simp only [HTTPServerAdapter.dereference, points, isLive]

/-- Only the queue, the map and the list of connections change. -/
theorem congr (cells : t.cells = s.cells)
    (nextCell : t.nextCell = s.nextCell) (userData : t.userData = s.userData)
    (hf : t.fault = s.fault) : Owned t where
  intact := hf.trans ho.intact
  listening := (congrFun cells 0).trans ho.listening
  root := (congrFun userData 0).trans ho.root
  isLive := by
    rw [cells, userData]
    exact ho.isLive
  apart := by
    rw [userData]
    exact ho.apart
  fresh := by
    rw [cells, nextCell]
    exact ho.fresh

theorem deleteMetadata {m : ℕ} (points : s.userData conn = some m) (own : m ≠ 0) :
    Owned (s.deleteMetadata conn) := by
  obtain ⟨uuid, hl⟩ := ho.isLive points own
  simp only [HTTPServerAdapter.deleteMetadata, points, hl]
  refine ⟨⟨ho.intact, ?listening⟩, ?root, ?hl, ?apart, ?fresh⟩
  case listening => exact (update_of_ne own.symm _ _).trans ho.listening
  case root =>
    refine (update_of_ne ?_ _ _).trans ho.root
    rintro rfl
    rw [ho.root] at points
    exact own (Option.some.inj points).symm
  case hl =>
    intro c n after other
    obtain ⟨-, ⟨⟩⟩ | ⟨he, before⟩ := update_eq_iff.mp after
    obtain ⟨uuid, hl⟩ := ho.isLive before other
    refine ⟨uuid, (update_of_ne ?_ _ _).trans hl⟩
    rintro rfl
    exact he (ho.apart before points own)
  case apart =>
    intro c d n after ha
    obtain ⟨-, ⟨⟩⟩ | ⟨-, before⟩ := update_eq_iff.mp after
    obtain ⟨-, ⟨⟩⟩ | ⟨-, beforeToo⟩ := update_eq_iff.mp ha
    exact ho.apart before beforeToo
  case fresh =>
    intro n isNew
    refine (update_of_ne ?_ _ _).trans (ho.fresh n isNew)
    rintro rfl
    rw [ho.fresh n isNew] at hl
    cases hl

theorem newMetadata (client : conn ≠ 0) : Owned (s.newMetadata conn) := by
  have used {m : ℕ} {uuid : Option ℕ} (hl : s.cells m = .live uuid) : m < s.nextCell := by
    by_contra isNew
    rw [ho.fresh m (Nat.le_of_not_lt isNew)] at hl
    cases hl
  have old {c m : ℕ} (points : s.userData c = some m) : m ≠ s.nextCell := by
    obtain ⟨uuid, hl⟩ := ho.isLive_or_listener points
    exact (used hl).ne
  refine ⟨⟨ho.intact, ?listening⟩, ?root, ?hl, ?apart, ?fresh⟩
  case listening =>
    exact (update_of_ne (used ho.listening).ne _ _).trans ho.listening
  case root => exact (update_of_ne client.symm _ _).trans ho.root
  case hl =>
    intro c n after other
    obtain ⟨-, ⟨⟩⟩ | ⟨-, before⟩ := update_eq_iff.mp after
    · exact ⟨s.nextUuid, update_self _ _ _⟩
    · obtain ⟨uuid, hl⟩ := ho.isLive before other
      exact ⟨uuid, (update_of_ne (old before) _ _).trans hl⟩
  case apart =>
    intro c d n after ha other
    obtain ⟨rfl, ⟨⟩⟩ | ⟨-, before⟩ := update_eq_iff.mp after
    · obtain ⟨rfl, -⟩ | ⟨-, before⟩ := update_eq_iff.mp ha
      · rfl
      · exact absurd rfl (old before)
    · obtain ⟨-, ⟨⟩⟩ | ⟨-, beforeToo⟩ := update_eq_iff.mp ha
      · exact absurd rfl (old before)
      · exact ho.apart before beforeToo other
  case fresh =>
    intro n isNew
    exact (update_of_ne (Nat.lt_of_succ_le isNew).ne' _ _).trans
      (ho.fresh n (Nat.le_of_succ_le isNew))

theorem refuse (client : conn ≠ 0) : Owned (s.refuse conn) :=
  (ho.newMetadata client).congr rfl rfl rfl rfl

theorem manageWSHandshake (client : conn ≠ 0) (res : Handshake) :
    Owned (s.manageWSHandshake conn res) := by
  cases res with
  | noContentType => exact ho
  | noEndpoint | noMoreConnection | noSerializer => exact ho.refuse client
  | accepted =>
    rw [HTTPServerAdapter.manageWSHandshake]
    split
    · exact ho.refuse client
    · exact (ho.newMetadata client).congr rfl rfl rfl rfl

/-- The search ends well, and what it finds has metadata of its own. -/
theorem findConnection (ident : ℕ) (connections : List ℕ) :
    ∃ found, s.findConnection ident connections = .ok found ∧
      ∀ c ∈ found, ∃ m, s.userData c = some m ∧ m ≠ 0 := by
  induction connections with
  | nil => exact ⟨none, rfl, nofun⟩
  | cons c rest ih =>
    rw [HTTPServerAdapter.findConnection]
    cases points : s.userData c with
    | none => simpa using ih
    | some m =>
      obtain ⟨uuid, isLive, reads⟩ := ho.dereference points
      rw [reads]
      change ∃ found, (if uuid = some ident then _ else _) = _ ∧ _
      split
      next isIt =>
        refine ⟨some c, rfl, ?_⟩
        rintro _ ⟨⟩
        refine ⟨m, points, ?_⟩
        rintro rfl
        rw [ho.listening] at isLive
        cases isLive
        cases isIt
      next => exact ih

theorem executeOpcodeOnConnection (op : Opcode) {found : Option ℕ}
    (own : ∀ c ∈ found, ∃ m, s.userData c = some m ∧ m ≠ 0) :
    Owned (s.executeOpcodeOnConnection op found) := by
  cases found with
  | none => exact ho
  | some c =>
    cases op with
    | send ident => exact ho
    | closeConnection ident =>
      obtain ⟨m, points, other⟩ := own c rfl
      exact ho.deleteMetadata points other

theorem executeSend (op : Opcode) (ident : ℕ) : Owned (s.executeSend op ident) := by
  obtain ⟨found, finds, own⟩ := ho.findConnection ident s.connections
  rw [HTTPServerAdapter.executeSend, finds]
  exact ho.executeOpcodeOnConnection op own

theorem consumeOpcode (op : Opcode) : Owned (s.consumeOpcode op) := by
  cases op with
  | send ident => exact ho.executeSend _ ident
  | closeConnection ident =>
    obtain ⟨found, finds, own⟩ := ho.findConnection ident s.connections
    rw [HTTPServerAdapter.consumeOpcode, finds]
    have closed := ho.executeOpcodeOnConnection (.closeConnection ident) own
    have erased : Owned ((s.executeOpcodeOnConnection (.closeConnection ident)
        found).eraseConnection (some ident)) := closed.congr rfl rfl rfl rfl
    exact erased.executeSend _ ident

theorem eventHandler (client : conn ≠ 0) {ev : Event}
    (hg : s.Guarded (.event conn ev)) : Owned (s.eventHandler conn ev) := by
  cases ev with
  | httpRequest | poll => exact ho
  | handshake res =>
    obtain ⟨m, points⟩ := ne_none_iff_exists'.mp hg
    obtain ⟨uuid, -, reads⟩ := ho.dereference points
    rw [HTTPServerAdapter.eventHandler, reads]
    exact ho.manageWSHandshake client res
  | frame =>
    obtain ⟨m, points⟩ := ne_none_iff_exists'.mp hg
    obtain ⟨uuid, -, reads⟩ := ho.dereference points
    rw [HTTPServerAdapter.eventHandler, reads]
    exact ho
  | close =>
    rw [HTTPServerAdapter.eventHandler]
    cases points : s.userData conn with
    | none => exact ho.congr rfl rfl rfl rfl
    | some m =>
      obtain ⟨uuid, -, reads⟩ := ho.dereference points
      rw [reads]
      have own : m ≠ 0 := by
        rintro rfl
        exact hg (points.trans ho.root.symm)
      have erased : Owned (s.eraseConnection uuid) := ho.congr rfl rfl rfl rfl
      exact (erased.deleteMetadata points own).congr rfl rfl rfl rfl

theorem accept :
    Owned { s with
      userData := update s.userData s.nextConnection (s.userData 0)
      connections := s.nextConnection :: s.connections
      nextConnection := s.nextConnection + 1 } := by
  have pointers {c m : ℕ} (after : update s.userData s.nextConnection (s.userData 0) c = some m)
      (other : m ≠ 0) : s.userData c = some m := by
    obtain ⟨-, isRoot⟩ | ⟨-, before⟩ := update_eq_iff.mp after
    · exact absurd (Option.some.inj (ho.root.symm.trans isRoot)).symm other
    · exact before
  refine ⟨⟨ho.intact, ho.listening⟩, ?root, ?isLive, ?apart, ho.fresh⟩
  case root =>
    change update s.userData s.nextConnection (s.userData 0) 0 = some 0
    rw [update_apply]
    split
    · exact ho.root
    · exact ho.root
  case isLive => exact fun after other => ho.isLive (pointers after other) other
  case apart =>
    exact fun after ha other =>
      ho.apart (pointers after other) (pointers ha other) other

end

theorem step (l : Label) (ho : Owned s) (hg : s.Guarded l) (taken : s.step l = some t) :
    Owned t := by
  cases l with
  | accept =>
    obtain ⟨-, ⟨⟩⟩ := ite_none_left_eq_some.mp taken
    exact ho.accept
  | event conn ev =>
    obtain ⟨-, taken⟩ := ite_none_left_eq_some.mp taken
    obtain ⟨hc, ⟨⟩⟩ := ite_none_right_eq_some.mp taken
    exact ho.eventHandler hc.2 hg
  | post op =>
    obtain ⟨-, ⟨⟩⟩ := ite_none_left_eq_some.mp taken
    exact ho.congr rfl rfl rfl rfl
  | executeOpcode =>
    obtain ⟨-, taken⟩ := ite_none_left_eq_some.mp taken
    split at taken <;> cases taken
    next op rest isQueue =>
      have popped : Owned { s with postEvtOpQueue := rest } := ho.congr rfl rfl rfl rfl
      exact popped.consumeOpcode op

/-- An event for which the guard does not hold ends in a fault, or with the metadata of the
listener deleted. -/
theorem guarded_of_safe {ev : Event} (ho : Owned s)
    (safe : Safe (s.eventHandler conn ev)) : s.Guarded (.event conn ev) := by
  cases ev with
  | httpRequest | poll => trivial
  | handshake | frame =>
    intro isNull
    have hi := safe.intact
    rw [HTTPServerAdapter.eventHandler, HTTPServerAdapter.dereference, isNull] at hi
    cases hi
  | close =>
    intro hl
    have points : s.userData conn = some 0 := hl.trans ho.root
    have reads : s.dereference conn = .ok none := by
      simp only [HTTPServerAdapter.dereference, points, ho.listening]
    have listening := safe.listening
    rw [HTTPServerAdapter.eventHandler, reads] at listening
    simp only [HTTPServerAdapter.deleteMetadata, eraseConnection, points, ho.listening] at listening
    cases listening

theorem guarded_of_step (l : Label) (ho : Owned s)
    (taken : s.step l = some t) (safe : Safe t) : s.Guarded l := by
  cases l with
  | accept | post | executeOpcode => trivial
  | event conn ev =>
    obtain ⟨-, taken⟩ := ite_none_left_eq_some.mp taken
    obtain ⟨-, ⟨⟩⟩ := ite_none_right_eq_some.mp taken
    exact ho.guarded_of_safe safe

end Owned

/-- The handlers are safe in exactly the runs in which the events meet the guard. -/
theorem safe_iff_guarded {labels : List Label} {t : HTTPServerAdapter}
    (run : execute step init labels = some t) :
    Admissible step Guarded init labels ↔
      ∀ n s, execute step init (labels.take n) = some s → Safe s :=
  admissible_iff_forall_reached (Owned.step _) Owned.toSafe (Owned.guarded_of_step _) owned_init run

/-- Two connections: one that is refused and closed, and one that sends a frame and ends. -/
theorem safe_iff_guarded_two :
    let labels : List Label := [.accept, .event 1 (.handshake .noContentType),
      .event 1 (.handshake .noEndpoint), .accept, .executeOpcode, .event 2 .httpRequest,
      .event 2 (.handshake .accepted), .executeOpcode, .event 2 .frame, .executeOpcode,
      .event 1 .poll, .event 1 .close, .executeOpcode, .event 2 .close]
    ∃ t, execute step init labels = some t ∧ Admissible step Guarded init labels ∧
      ∀ n s, execute step init (labels.take n) = some s → Safe s := by
  intro labels
  have guarded : Admissible step Guarded init labels := by decide
  have runs : (execute step init labels).isSome = true := by decide
  obtain ⟨t, run⟩ := isSome_iff_exists.mp runs
  exact ⟨t, run, guarded, (safe_iff_guarded run).mp guarded⟩

/-- A connection that is accepted and ends deletes the metadata of the listener. -/
theorem listener_deleted :
    ∃ s, execute step init [.accept, .event 1 .close] = some s ∧
      s.cells 0 = .deleted ∧ ¬ Safe s := by
  have deleted : (execute step init [.accept, .event 1 .close]).map
      (fun s => s.cells 0) = some .deleted := by decide
  obtain ⟨s, run, hd⟩ := map_eq_some_iff.mp deleted
  refine ⟨s, run, hd, fun safe => ?_⟩
  have hl := safe.listening
  rw [hd] at hl
  cases hl

end HTTPServerAdapter

end ChaosFramework.ExternalUnit
