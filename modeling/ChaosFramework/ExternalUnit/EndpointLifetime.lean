import Mathlib.Data.Nat.Basic
import Mathlib.Order.Basic
import ChaosFramework.Transition
import ChaosFramework.UniqueIndex

/-!
# The endpoints of the HTTP adapter and the threads that use them

An endpoint of `HTTPServerAdapter` is used by the poller, which makes the connections for it and
closes them, and by the workers, which deliver the frames. After `deregisterEndpoint` has returned
the endpoint may be destroyed.

`deregisterEndpoint` holds the lock of the endpoints exclusively and shares the lock of the
connections. It only queues that the connections are closed. They keep the pointer, a worker that is
delivering a frame goes on, and the poller looks up the endpoint without a lock. An endpoint without
connections, for which no handshake is going on, can be deregistered (`fault_eq_none_of_careful`).
-/

namespace ChaosFramework.ExternalUnit

open Transition UniqueIndex List Option Function

/-- An `ExternalUnitConnection`, with its pointer to the endpoint. -/
structure UnitConnection where
  connectionIdentifier : ℕ
  endpoint : ℕ
  deriving DecidableEq, Repr

inductive EndpointFault
  /-- The endpoint is used after `deregisterEndpoint` has returned. -/
  | late (endpoint : ℕ)
  | nullEndpoint
  | erasedEntry
  deriving DecidableEq, Repr

/-- Where the poller is in the handshake of a connection. The entry is what `endpoint_it` points
to. -/
inductive Poller
  | idle
  | found (entry : ℕ)
  | checked (entry : ℕ)
  | adding (connection : UnitConnection)
  | added (connection : UnitConnection)
  deriving DecidableEq, Repr

/-- The entry that the poller is at. -/
def Poller.entry : Poller → Option ℕ
  | .found k | .checked k => some k
  | _ => none

/-- The connection that is not yet in the map. -/
def Poller.connection : Poller → Option UnitConnection
  | .adding c | .added c => some c
  | _ => none

/-- The poller is at the entry of an endpoint, or has a connection for it. -/
def Poller.Uses (endpoint : ℕ) (entry : Option ℕ) : Poller → Prop
  | .idle => False
  | .found k | .checked k => some k = entry
  | .adding c | .added c => c.endpoint = endpoint

instance decidablePollerUses (endpoint : ℕ) (entry : Option ℕ) :
    ∀ p : Poller, Decidable (p.Uses endpoint entry)
  | .idle => .isFalse id
  | .found k | .checked k => inferInstanceAs (Decidable (some k = entry))
  | .adding c | .added c => inferInstanceAs (Decidable (c.endpoint = endpoint))

theorem Poller.uses_of_entry {endpoint k : ℕ} (p : Poller) (isAt : p.entry = some k) :
    p.Uses endpoint (some k) := by
  cases p with
  | idle | adding c | added c => cases isAt
  | found k | checked k => exact isAt

theorem Poller.uses_of_connection {c : UnitConnection} {entry : Option ℕ} (p : Poller)
    (isNew : p.connection = some c) : p.Uses c.endpoint entry := by
  cases p with
  | idle | found k | checked k => cases isNew
  | adding c | added c =>
    cases isNew
    rfl

/-- The adapter as far as the endpoints are concerned. -/
structure EndpointTable where
  /-- The entries of `map_endpoint`. An entry that is in the map may have been set to NULL. -/
  entries : ℕ → Option (Option ℕ)
  nextEntry : ℕ
  mapEndpoint : String → Option ℕ
  mapConnection : List UnitConnection
  nextConnection : ℕ
  /-- The connections that are to be closed. -/
  postEvtOpQueue : List ℕ
  poller : Poller
  /-- The workers that are delivering a frame. They share the lock of the connections. -/
  workers : List UnitConnection
  /-- The endpoint that is being deregistered. -/
  deregistering : Option ℕ
  /-- The endpoints that have been deregistered and not registered again. -/
  returned : ℕ → Bool
  fault : Option EndpointFault

namespace EndpointTable

inductive Label
  | registerEndpoint (endpoint : ℕ)
  /-- `deregisterEndpoint` up to the erasure of the entry -/
  | deregisterEndpoint (endpoint : ℕ)
  | deregistered
  | find (uri : String)
  | canAcceptMoreConnection (accepts : Bool)
  | newConnection (serializer : Bool)
  | addConnection
  | insertConnection
  /-- A queued opcode closes a connection. -/
  | executeClose
  /-- A connection is closed from the other side. -/
  | closeEvent (connectionIdentifier : ℕ)
  | frame (connection : UnitConnection)
  | delivered (connection : UnitConnection)
  deriving DecidableEq, Repr

def init : EndpointTable where
  entries _ := none
  nextEntry := 0
  mapEndpoint _ := none
  mapConnection := []
  nextConnection := 0
  postEvtOpQueue := []
  poller := .idle
  workers := []
  deregistering := none
  returned _ := false
  fault := none

def fail (s : EndpointTable) (fault : EndpointFault) : EndpointTable :=
  { s with fault := some fault }

/-- An endpoint is used. -/
def access (s : EndpointTable) (endpoint : ℕ) : EndpointTable :=
  if s.returned endpoint then s.fail (.late endpoint) else s

/-- The endpoints of all the connections are used. -/
def accessAll (s : EndpointTable) : List UnitConnection → EndpointTable
  | [] => s
  | c :: rest => (s.access c.endpoint).accessAll rest

/-- What `endpoint_it->second` is. -/
def read (s : EndpointTable) (entry : ℕ) : Except EndpointFault ℕ :=
  match s.entries entry with
  | none => .error .erasedEntry
  | some none => .error .nullEndpoint
  | some (some endpoint) => .ok endpoint

/-- `map_connection` can be changed: nobody has its lock. -/
def Unlocked (s : EndpointTable) : Prop := s.deregistering = none ∧ s.workers = []

instance (s : EndpointTable) : Decidable s.Unlocked := inferInstanceAs (Decidable (_ ∧ _))

/-- A connection is erased, which destroys it. The destructor removes it from the endpoint. -/
def eraseConnection (s : EndpointTable) (connectionIdentifier : ℕ) : EndpointTable :=
  let closed := s.mapConnection.filter (·.connectionIdentifier = connectionIdentifier)
  { s.accessAll closed with
    mapConnection := s.mapConnection.filter (·.connectionIdentifier ≠ connectionIdentifier) }

def registerEndpoint (identifier : ℕ → String) (s : EndpointTable) (endpoint : ℕ) :
    EndpointTable :=
  let registered := { s with returned := update s.returned endpoint false }
  match s.mapEndpoint (identifier endpoint) with
  | some _ => registered
  | none => { registered with
      entries := update s.entries s.nextEntry (some (some endpoint))
      nextEntry := s.nextEntry + 1
      mapEndpoint := update s.mapEndpoint (identifier endpoint) (some s.nextEntry) }

/-- The entry is set to NULL, and the connections with the identifier are queued for being
closed. -/
def deregisterEndpoint (identifier : ℕ → String) (s : EndpointTable) (endpoint : ℕ) :
    EndpointTable :=
  match s.mapEndpoint (identifier endpoint) with
  | none => { s with returned := update s.returned endpoint true }
  | some entry =>
      let closing := s.mapConnection.filter (identifier ·.endpoint = identifier endpoint)
      { s.accessAll s.mapConnection with
        entries := update s.entries entry (some none)
        postEvtOpQueue := s.postEvtOpQueue ++ closing.map UnitConnection.connectionIdentifier
        deregistering := some endpoint }

/-- The entry is erased, and `deregisterEndpoint` returns. -/
def deregistered (identifier : ℕ → String) (s : EndpointTable) (endpoint : ℕ) : EndpointTable :=
  let done := { s with
    deregistering := none
    returned := update s.returned endpoint true }
  match s.mapEndpoint (identifier endpoint) with
  | none => done
  | some entry => { done with
      entries := update s.entries entry none
      mapEndpoint := update s.mapEndpoint (identifier endpoint) none }

/-- The transitions. The identifiers of the endpoints are given, and nothing is said about what
happens after a fault. -/
def step (identifier : ℕ → String) (s : EndpointTable) (l : Label) : Option EndpointTable :=
  if s.fault.isSome then none
  else
    match l with
    | .registerEndpoint endpoint =>
        if s.deregistering = none then some (s.registerEndpoint identifier endpoint) else none
    | .deregisterEndpoint endpoint =>
        if s.deregistering = none then some (s.deregisterEndpoint identifier endpoint) else none
    | .deregistered =>
        s.deregistering.map fun endpoint => s.deregistered identifier endpoint
    | .find uri =>
        match s.poller with
        | .idle =>
            match s.mapEndpoint uri with
            | some entry => some { s with poller := .found entry }
            | none => some s
        | _ => none
    | .canAcceptMoreConnection accepts =>
        match s.poller with
        | .found entry =>
            match s.read entry with
            | .error fault => some (s.fail fault)
            | .ok endpoint => some { s.access endpoint with
                poller := if accepts then .checked entry else .idle }
        | _ => none
    | .newConnection serializer =>
        match s.poller with
        | .checked entry =>
            if serializer then
              match s.read entry with
              | .error fault => some (s.fail fault)
              | .ok endpoint => some { s.access endpoint with
                  poller := .adding ⟨s.nextConnection, endpoint⟩
                  nextConnection := s.nextConnection + 1 }
            else some { s with poller := .idle }
        | _ => none
    | .addConnection =>
        match s.poller with
        | .adding c => some { s.access c.endpoint with poller := .added c }
        | _ => none
    | .insertConnection =>
        match s.poller with
        | .added c =>
            if s.Unlocked then
              some { s with mapConnection := c :: s.mapConnection, poller := .idle }
            else none
        | _ => none
    | .executeClose =>
        match s.poller, s.postEvtOpQueue with
        | .idle, connectionIdentifier :: rest =>
            if s.Unlocked then
              some ({ s with postEvtOpQueue := rest }.eraseConnection connectionIdentifier)
            else none
        | _, _ => none
    | .closeEvent connectionIdentifier =>
        match s.poller with
        | .idle => if s.Unlocked then some (s.eraseConnection connectionIdentifier) else none
        | _ => none
    | .frame c =>
        if c ∈ s.mapConnection then some { s.access c.endpoint with workers := c :: s.workers }
        else none
    | .delivered c =>
        if c ∈ s.workers then some { s.access c.endpoint with workers := s.workers.erase c }
        else none

/-- An endpoint is deregistered when it has no connections and no handshake for it is going on, and
none is begun meanwhile. -/
def Careful (identifier : ℕ → String) (s : EndpointTable) : Label → Prop
  | .deregisterEndpoint endpoint =>
      (∀ c ∈ s.mapConnection, c.endpoint ≠ endpoint) ∧
        ¬ s.poller.Uses endpoint (s.mapEndpoint (identifier endpoint))
  | .find uri => s.deregistering.map identifier ≠ some uri
  | _ => True

instance decidableCareful (identifier : ℕ → String) (s : EndpointTable) (l : Label) :
    Decidable (s.Careful identifier l) := by
  unfold Careful
  split <;> infer_instance

/-! ### Endpoints that nobody uses -/

/-- Nothing leads to the endpoint any more. -/
structure Unused (s : EndpointTable) (endpoint : ℕ) : Prop where
  connections : ∀ c ∈ s.mapConnection, c.endpoint ≠ endpoint
  handshake : ∀ c, s.poller.connection = some c → c.endpoint ≠ endpoint
  entries : ∀ {name k}, s.mapEndpoint name = some k → s.entries k ≠ some (some endpoint)

structure Consistent (identifier : ℕ → String) (s : EndpointTable) : Prop where
  intact : s.fault = none
  made : ∀ {name k}, s.mapEndpoint name = some k → k < s.nextEntry
  named : ∀ {name k}, s.mapEndpoint name = some k → s.deregistering.map identifier ≠ some name →
    ∃ e, s.entries k = some (some e) ∧ identifier e = name
  nulled : ∀ {e k}, s.deregistering = some e → s.mapEndpoint (identifier e) = some k →
    s.entries k = some none
  found : ∀ {k}, s.poller.entry = some k →
    ∃ e, s.entries k = some (some e) ∧ s.mapEndpoint (identifier e) = some k
  working : ∀ c ∈ s.workers, c ∈ s.mapConnection
  unused : ∀ {e}, s.returned e = true ∨ s.deregistering = some e → s.Unused e

variable {s : EndpointTable}

theorem access_of_not_returned {e : ℕ} (hh : s.returned e = false) : s.access e = s := by
  rw [access, hh]
  rfl

theorem accessAll_of_not_returned {cs : List UnitConnection}
    (hh : ∀ c ∈ cs, s.returned c.endpoint = false) : s.accessAll cs = s := by
  induction cs with
  | nil => rfl
  | cons c rest ih =>
    rw [accessAll, access_of_not_returned (hh c mem_cons_self)]
    exact ih fun other isIn => hh other (mem_cons_of_mem _ isIn)

namespace Consistent

variable {idf : ℕ → String} {s t : EndpointTable} {e k : ℕ} {c : UnitConnection} {name : String}

theorem not_returned_of_mem (hc : Consistent idf s) (isIn : c ∈ s.mapConnection) :
    s.returned c.endpoint = false :=
  eq_false_of_ne_true fun hr => (hc.unused (.inl hr)).connections c isIn rfl

theorem not_returned_of_connection (hc : Consistent idf s)
    (isNew : s.poller.connection = some c) : s.returned c.endpoint = false :=
  eq_false_of_ne_true fun hr => (hc.unused (.inl hr)).handshake c isNew rfl

section

variable (hc : Consistent idf s) (hi : s.mapEndpoint name = some k)
  (he : s.entries k = some (some e))

include hc hi he

theorem not_returned_of_entry : s.returned e = false :=
  eq_false_of_ne_true fun hr => (hc.unused (.inl hr)).entries hi he

/-- An entry that is not NULL stands under the identifier of its endpoint. -/
theorem name_of_entry : name = idf e := by
  by_cases hh : s.deregistering.map idf = some name
  · obtain ⟨e', isBusy, rfl⟩ := map_eq_some_iff.mp hh
    rw [hc.nulled isBusy hi] at he
    cases he
  · obtain ⟨e', isLive, rfl⟩ := hc.named hi hh
    rw [he] at isLive
    cases isLive
    rfl

end

section

variable (hc : Consistent idf s)

include hc

theorem registerEndpoint (idle : s.deregistering = none)
    (e : ℕ) : Consistent idf (s.registerEndpoint idf e) := by
  unfold EndpointTable.registerEndpoint
  split
  next k hi =>
    refine { hc with unused := ?_ }
    rintro e' (hr | isBusy)
    · obtain ⟨-, ⟨⟩⟩ | ⟨-, hw⟩ := update_eq_iff.mp hr
      exact { hc.unused (.inl hw) with }
    · cases idle.symm.trans isBusy
  next missing =>
    -- The entries that are in the map, or that the poller is at, are older.
    have older {name : String} {k : ℕ} (hi : s.mapEndpoint name = some k) :
        update s.entries s.nextEntry (some (some e)) k = s.entries k :=
      update_of_ne (hc.made hi).ne _ _
    refine ⟨hc.intact, ?made, ?named, ?nulled, ?found, hc.working, ?unused⟩
    case made =>
      intro name k after
      obtain ⟨-, ⟨⟩⟩ | ⟨-, hi⟩ := update_eq_iff.mp after
      · exact Nat.lt_succ_self _
      · exact Nat.lt_succ_of_lt (hc.made hi)
    case named =>
      intro name k after elsewhere
      obtain ⟨rfl, ⟨⟩⟩ | ⟨-, hi⟩ := update_eq_iff.mp after
      · exact ⟨e, update_self _ _ _, rfl⟩
      · obtain ⟨e', isLive, isName⟩ := hc.named hi elsewhere
        exact ⟨e', (older hi).trans isLive, isName⟩
    case nulled =>
      intro e' k isBusy
      cases idle.symm.trans isBusy
    case found =>
      intro k isAt
      obtain ⟨e', isLive, hi⟩ := hc.found isAt
      refine ⟨e', (older hi).trans isLive, update_eq_iff.mpr (.inr ⟨?_, hi⟩)⟩
      intro same
      cases missing.symm.trans (same ▸ hi)
    case unused =>
      rintro e' (hr | isBusy)
      · obtain ⟨-, ⟨⟩⟩ | ⟨other, hw⟩ := update_eq_iff.mp hr
        have unused := hc.unused (.inl hw)
        refine ⟨unused.connections, unused.handshake, ?_⟩
        intro name k after he
        obtain ⟨-, ⟨⟩⟩ | ⟨-, hi⟩ := update_eq_iff.mp after
        · obtain ⟨-, ⟨⟩⟩ | ⟨older, -⟩ := update_eq_iff.mp he
          · exact other rfl
          · exact older rfl
        · exact unused.entries hi ((older hi).symm.trans he)
      · cases idle.symm.trans isBusy

theorem deregisterEndpoint (idle : s.deregistering = none)
    (careful : s.Careful idf (.deregisterEndpoint e)) :
    Consistent idf (s.deregisterEndpoint idf e) := by
  obtain ⟨unconnected, notUsed⟩ := careful
  have noHandshake (c : UnitConnection) (isNew : s.poller.connection = some c) :
      c.endpoint ≠ e := by
    rintro rfl
    exact notUsed (s.poller.uses_of_connection isNew)
  unfold EndpointTable.deregisterEndpoint
  split
  next hm =>
    refine { hc with unused := ?_ }
    rintro e' (hr | isBusy)
    · obtain ⟨rfl, -⟩ | ⟨-, hw⟩ := update_eq_iff.mp hr
      · refine ⟨unconnected, noHandshake, fun hi he => ?_⟩
        obtain rfl := hc.name_of_entry hi he
        cases hm.symm.trans hi
      · exact { hc.unused (.inl hw) with }
    · cases idle.symm.trans isBusy
  next entry hi =>
    have untouched : s.accessAll s.mapConnection = s :=
      accessAll_of_not_returned fun c isIn => hc.not_returned_of_mem isIn
    rw [untouched]
    have elsewhere {name : String} : s.deregistering.map idf ≠ some name := by simp [idle]
    refine ⟨hc.intact, hc.made, ?named, ?nulled, ?found, hc.working, ?unused⟩
    case named =>
      intro name k inMapToo otherName
      obtain ⟨e', isLive, isName⟩ := hc.named inMapToo elsewhere
      refine ⟨e', update_eq_iff.mpr (.inr ⟨?_, isLive⟩), isName⟩
      rintro rfl
      exact otherName (congrArg some ((hc.name_of_entry hi isLive).trans isName))
    case nulled =>
      rintro _ k ⟨⟩ inMapToo
      obtain rfl : entry = k := Option.some.inj (hi.symm.trans inMapToo)
      exact update_self _ _ _
    case found =>
      intro k isAt
      obtain ⟨e', isLive, inMapToo⟩ := hc.found isAt
      refine ⟨e', update_eq_iff.mpr (.inr ⟨?_, isLive⟩), inMapToo⟩
      rintro rfl
      rw [hi] at notUsed
      exact notUsed (s.poller.uses_of_entry isAt)
    case unused =>
      rintro e' (hr | isBusy)
      · have unused := hc.unused (.inl hr)
        refine ⟨unused.connections, unused.handshake, fun inMapToo he => ?_⟩
        obtain ⟨-, ⟨⟩⟩ | ⟨-, wasEntry⟩ := update_eq_iff.mp he
        exact unused.entries inMapToo wasEntry
      · cases isBusy
        refine ⟨unconnected, noHandshake, fun inMapToo he => ?_⟩
        obtain ⟨-, ⟨⟩⟩ | ⟨other, wasEntry⟩ := update_eq_iff.mp he
        obtain rfl := hc.name_of_entry inMapToo wasEntry
        exact other (Option.some.inj (inMapToo.symm.trans hi))

theorem deregistered (isBusy : s.deregistering = some e) :
    Consistent idf (s.deregistered idf e) := by
  have unusedAfter {e' : ℕ} (hr : update s.returned e true e' = true) :
      s.Unused e' := by
    obtain ⟨rfl, -⟩ | ⟨-, hw⟩ := update_eq_iff.mp hr
    · exact hc.unused (.inr isBusy)
    · exact hc.unused (.inl hw)
  have named {name : String} {k : ℕ} (hi : s.mapEndpoint name = some k) (other : name ≠ idf e) :
      ∃ e', s.entries k = some (some e') ∧ idf e' = name := by
    refine hc.named hi ?_
    rw [isBusy]
    exact fun same => other (Option.some.inj same).symm
  unfold EndpointTable.deregistered
  split
  next missing =>
    refine ⟨hc.intact, hc.made, fun hi _ => named hi ?_, by rintro _ _ ⟨⟩,
      hc.found, hc.working, ?unused⟩
    · rintro rfl
      cases missing.symm.trans hi
    case unused =>
      rintro e' (hr | ⟨⟨⟩⟩)
      exact { unusedAfter hr with }
  next entry hi =>
    have kept {k e' : ℕ} (isLive : s.entries k = some (some e')) :
        update s.entries entry none k = some (some e') := by
      refine update_eq_iff.mpr (.inr ⟨?_, isLive⟩)
      rintro rfl
      cases (hc.nulled isBusy hi).symm.trans isLive
    refine ⟨hc.intact, ?made, ?named, by rintro _ _ ⟨⟩, ?found, hc.working, ?unused⟩
    case made =>
      intro name k after
      obtain ⟨-, ⟨⟩⟩ | ⟨-, inMapToo⟩ := update_eq_iff.mp after
      exact hc.made inMapToo
    case named =>
      intro name k after _
      obtain ⟨-, ⟨⟩⟩ | ⟨other, inMapToo⟩ := update_eq_iff.mp after
      obtain ⟨e', isLive, isName⟩ := named inMapToo other
      exact ⟨e', kept isLive, isName⟩
    case found =>
      intro k isAt
      obtain ⟨e', isLive, inMapToo⟩ := hc.found isAt
      refine ⟨e', kept isLive, update_eq_iff.mpr (.inr ⟨?_, inMapToo⟩)⟩
      intro same
      rw [same] at inMapToo
      cases (hc.nulled isBusy inMapToo).symm.trans isLive
    case unused =>
      rintro e' (hr | ⟨⟨⟩⟩)
      have unused := unusedAfter hr
      refine ⟨unused.connections, unused.handshake, fun after he => ?_⟩
      obtain ⟨-, ⟨⟩⟩ | ⟨-, inMapToo⟩ := update_eq_iff.mp after
      obtain ⟨-, ⟨⟩⟩ | ⟨-, wasEntry⟩ := update_eq_iff.mp he
      exact unused.entries inMapToo wasEntry

/-- The poller moves on to a place that leads to no other endpoints. -/
theorem setPoller {poller : Poller} (nextConnection : ℕ)
    (found : ∀ {k}, poller.entry = some k →
      ∃ e, s.entries k = some (some e) ∧ s.mapEndpoint (idf e) = some k)
    (handshake : ∀ {e}, s.returned e = true ∨ s.deregistering = some e →
      ∀ c, poller.connection = some c → c.endpoint ≠ e) :
    Consistent idf { s with poller, nextConnection } :=
  { hc with
    found
    unused := fun gone => { hc.unused gone with handshake := handshake gone } }

theorem read (isAt : s.poller.entry = some k) :
    ∃ e, s.read k = .ok e ∧ s.access e = s ∧
      ∀ {e'}, s.returned e' = true ∨ s.deregistering = some e' → e ≠ e' := by
  obtain ⟨e, isLive, hi⟩ := hc.found isAt
  refine ⟨e, ?_, access_of_not_returned (hc.not_returned_of_entry hi isLive), ?_⟩
  · simp only [EndpointTable.read, isLive]
  · rintro e' gone rfl
    exact (hc.unused gone).entries hi isLive

theorem find (hi : s.mapEndpoint name = some k) (other : s.deregistering.map idf ≠ some name) :
    Consistent idf { s with poller := .found k } := by
  refine hc.setPoller s.nextConnection ?_ nofun
  rintro k ⟨⟩
  obtain ⟨e, hl, rfl⟩ := hc.named hi other
  exact ⟨e, hl, hi⟩

theorem canAcceptMoreConnection (ha : s.poller.entry = some k) (accepts : Bool) :
    ∃ e, s.read k = .ok e ∧
      Consistent idf { s.access e with poller := if accepts then .checked k else .idle } := by
  obtain ⟨e, hr, untouched, -⟩ := hc.read ha
  refine ⟨e, hr, ?_⟩
  rw [untouched]
  refine hc.setPoller s.nextConnection ?_ ?_
  · intro k' checked
    cases accepts with
    | false => cases checked
    | true =>
      cases checked
      exact hc.found ha
  · intro e' gone c hn
    cases accepts <;> cases hn

theorem newConnection (ha : s.poller.entry = some k) :
    ∃ e, s.read k = .ok e ∧ Consistent idf { s.access e with
      poller := .adding ⟨s.nextConnection, e⟩
      nextConnection := s.nextConnection + 1 } := by
  obtain ⟨e, hr, untouched, elsewhere⟩ := hc.read ha
  refine ⟨e, hr, ?_⟩
  rw [untouched]
  refine hc.setPoller (s.nextConnection + 1) nofun ?_
  rintro e' gone c ⟨⟩
  exact elsewhere gone

theorem addConnection (hn : s.poller.connection = some c) :
    Consistent idf { s.access c.endpoint with poller := .added c } := by
  rw [access_of_not_returned (hc.not_returned_of_connection hn)]
  refine hc.setPoller s.nextConnection nofun ?_
  rintro e' gone _ ⟨⟩
  exact (hc.unused gone).handshake c hn

theorem insertConnection (hn : s.poller.connection = some c) :
    Consistent idf { s with mapConnection := c :: s.mapConnection, poller := .idle } := by
  refine { hc with found := nofun, working := ?working, unused := ?unused }
  case working =>
    exact fun c hw => mem_cons_of_mem _ (hc.working c hw)
  case unused =>
    intro e gone
    have unused := hc.unused gone
    exact ⟨forall_mem_cons.mpr ⟨unused.handshake c hn, unused.connections⟩, nofun,
      unused.entries⟩

/-- The workers that deliver a frame change, and all of them have a connection in the map. -/
theorem setWorkers (isIn : c ∈ s.mapConnection) {workers : List UnitConnection}
    (working : ∀ c ∈ workers, c ∈ s.mapConnection) :
    Consistent idf { s.access c.endpoint with workers } := by
  rw [access_of_not_returned (hc.not_returned_of_mem isIn)]
  exact { hc with
    working
    unused := fun gone => { hc.unused gone with } }

theorem eraseConnection (hu : s.Unlocked) (ident : ℕ) :
    Consistent idf (s.eraseConnection ident) := by
  have untouched : s.accessAll (s.mapConnection.filter (·.connectionIdentifier = ident)) = s :=
    accessAll_of_not_returned fun c isIn =>
      hc.not_returned_of_mem (mem_filter.mp isIn).1
  simp only [EndpointTable.eraseConnection, untouched]
  refine { hc with working := ?working, unused := ?unused }
  case working => simp [show s.workers = [] from hu.2]
  case unused =>
    intro e gone
    have unused := hc.unused gone
    refine ⟨fun c isIn => ?_, unused.handshake, unused.entries⟩
    exact unused.connections c (mem_filter.mp isIn).1

end

theorem step (l : Label) (hc : Consistent idf s)
    (careful : s.Careful idf l) (ht : s.step idf l = some t) :
    Consistent idf t := by
  have intact : ¬ s.fault.isSome = true := by
    rw [hc.intact]
    decide
  unfold EndpointTable.step at ht
  rw [if_neg intact] at ht
  cases l with
  | registerEndpoint e =>
    obtain ⟨idle, ⟨⟩⟩ := ite_none_right_eq_some.mp ht
    exact hc.registerEndpoint idle e
  | deregisterEndpoint e =>
    obtain ⟨idle, ⟨⟩⟩ := ite_none_right_eq_some.mp ht
    exact hc.deregisterEndpoint idle careful
  | deregistered =>
    obtain ⟨e, isBusy, rfl⟩ := map_eq_some_iff.mp ht
    exact hc.deregistered isBusy
  | find uri =>
    simp only at ht
    split at ht
    next =>
      split at ht <;> cases ht
      next entry hi => exact hc.find hi careful
      next => exact hc
    next => cases ht
  | canAcceptMoreConnection accepts =>
    simp only at ht
    split at ht
    next entry isPoller =>
      have isAt : s.poller.entry = some entry := by rw [isPoller]; rfl
      obtain ⟨e, reads, after⟩ := hc.canAcceptMoreConnection isAt accepts
      rw [reads] at ht
      cases ht
      exact after
    next => cases ht
  | newConnection serializer =>
    simp only at ht
    split at ht
    next entry isPoller =>
      split at ht
      next =>
        have isAt : s.poller.entry = some entry := by rw [isPoller]; rfl
        obtain ⟨e, reads, after⟩ := hc.newConnection isAt
        rw [reads] at ht
        cases ht
        exact after
      next =>
        cases ht
        exact hc.setPoller s.nextConnection nofun nofun
    next => cases ht
  | addConnection =>
    simp only at ht
    split at ht
    next c isPoller =>
      cases ht
      exact hc.addConnection (by rw [isPoller]; rfl)
    next => cases ht
  | insertConnection =>
    simp only at ht
    split at ht
    next c isPoller =>
      obtain ⟨-, ⟨⟩⟩ := ite_none_right_eq_some.mp ht
      exact hc.insertConnection (by rw [isPoller]; rfl)
    next => cases ht
  | executeClose =>
    simp only at ht
    split at ht
    next ident rest isPoller isQueue =>
      obtain ⟨hu, ⟨⟩⟩ := ite_none_right_eq_some.mp ht
      have popped : Consistent idf { s with postEvtOpQueue := rest } :=
        { hc with
          unused := fun gone => { hc.unused gone with } }
      exact popped.eraseConnection hu ident
    next => cases ht
  | closeEvent ident =>
    simp only at ht
    split at ht
    next =>
      obtain ⟨hu, ⟨⟩⟩ := ite_none_right_eq_some.mp ht
      exact hc.eraseConnection hu ident
    next => cases ht
  | frame c =>
    obtain ⟨isIn, ⟨⟩⟩ := ite_none_right_eq_some.mp ht
    exact hc.setWorkers isIn (forall_mem_cons.mpr ⟨isIn, hc.working⟩)
  | delivered c =>
    obtain ⟨hw, ⟨⟩⟩ := ite_none_right_eq_some.mp ht
    refine hc.setWorkers (hc.working c hw) fun other isIn => ?_
    exact hc.working other (mem_of_mem_erase isIn)

end Consistent

theorem consistent_init (idf : ℕ → String) : Consistent idf init where
  intact := rfl
  made := nofun
  named := nofun
  nulled := nofun
  found := nofun
  working := forall_mem_nil _
  unused := by rintro _ (⟨⟨⟩⟩ | ⟨⟨⟩⟩)

/-- No endpoint has been used after `deregisterEndpoint` has returned, and no other pointer that is
not valid. -/
theorem fault_eq_none_of_careful {identifier : ℕ → String} {labels : List Label} {s : EndpointTable}
    (careful : Admissible (step identifier) (Careful identifier) init labels)
    (run : execute (step identifier) init labels = some s) : s.fault = none :=
  (careful.invariant (Consistent.step _) (consistent_init identifier) run).intact

/-- A connection that is closed before its endpoint is deregistered, while another endpoint is in
use. -/
theorem fault_eq_none_of_careful_two :
    let identifier (e : ℕ) : String := if e = 0 then "first" else "second"
    let labels : List Label := [.registerEndpoint 0, .registerEndpoint 1, .find "first",
      .canAcceptMoreConnection true, .newConnection true, .addConnection, .insertConnection,
      .frame ⟨0, 0⟩, .find "second", .canAcceptMoreConnection true, .delivered ⟨0, 0⟩,
      .newConnection true, .addConnection, .insertConnection, .closeEvent 0,
      .deregisterEndpoint 0, .find "second", .frame ⟨1, 1⟩, .deregistered,
      .canAcceptMoreConnection false, .delivered ⟨1, 1⟩, .find "first", .closeEvent 1]
    ∃ s, execute (step identifier) init labels = some s ∧
      Admissible (step identifier) (Careful identifier) init labels ∧ s.fault = none := by
  intro identifier labels
  have careful : Admissible (step identifier) (Careful identifier) init labels := by decide
  have runs : (execute (step identifier) init labels).isSome = true := by decide
  obtain ⟨s, run⟩ := isSome_iff_exists.mp runs
  exact ⟨s, run, careful, fault_eq_none_of_careful careful run⟩

/-- The connection is closed after `deregisterEndpoint` has returned. -/
theorem closed_after_return :
    ∃ s, execute (step fun _ => "endpoint") init [.registerEndpoint 0, .find "endpoint",
        .canAcceptMoreConnection true, .newConnection true, .addConnection, .insertConnection,
        .deregisterEndpoint 0, .deregistered, .executeClose] = some s ∧
      s.fault = some (.late 0) := by
  have fails : (execute (step fun _ => "endpoint") init [.registerEndpoint 0, .find "endpoint",
      .canAcceptMoreConnection true, .newConnection true, .addConnection, .insertConnection,
      .deregisterEndpoint 0, .deregistered, .executeClose]).map fault = some (some (.late 0)) := by
    decide
  exact map_eq_some_iff.mp fails

end EndpointTable

end ChaosFramework.ExternalUnit
