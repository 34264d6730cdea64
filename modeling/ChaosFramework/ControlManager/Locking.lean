import ChaosFramework.SharedMutex.Operations

/-!
# The locks of the control manager

The thread of `ControlManager` (`manageControlUnit`) takes submitted units from a queue to the map
of the registering units, makes steps in their state machines, and moves those that are stable to
the map of the registered units. Remote calls load and unload units and acknowledge registrations.
Four shared mutexes protect the instancers, the queue and the two maps. Each operation is a thread
with the list of its locks and accesses; what it finds is part of the operation.

While a unit is loaded the calling thread holds the maps to read and waits for the queue; the
manager holds the queue and waits for the maps. This is harmless as long as nobody waits to write to
a map: without an overlap of loading and unloading there is no deadlock (`drains_of_apart`).
-/

namespace ChaosFramework.ControlManager

open SharedMutex Transition List Option

inductive Lock
  /-- `mutex_map_cu_instancer` -/
  | instancer
  /-- `mutex_queue_submitted_cu` -/
  | queue
  /-- `mutex_map_cuid_reg_unreg_instance` -/
  | registering
  /-- `mutex_map_cuid_registered_instance` -/
  | registered
  deriving DecidableEq, Repr

/-- Accesses to the two maps, and steps in the state machine of a unit. -/
inductive Access
  | readRegistering
  | writeRegistering
  | readRegistered
  | writeRegistered
  | advance (device : String)
  deriving DecidableEq, Repr

/-- One action; an access may be to several things at once. -/
abbrev Act := Action Lock (List Access)

/-! ### Operations -/

/-- How `loadControlUnit` ends. -/
inductive LoadEnd
  /-- There is no instancer for the type. -/
  | noInstancer
  /-- The identifier is used by a registering unit. -/
  | duplicated
  /-- The identifier is used by a registered unit, or there is an error behind these checks. -/
  | refused
  | submitted
  deriving DecidableEq, Repr

/-- How `unloadControlUnit` ends. -/
inductive UnloadEnd
  | absent
  /-- `turnOFF` throws. -/
  | failed (device : String)
  | unloaded (device : String)
  deriving DecidableEq, Repr

/-- What `migrateStableAndUnstableSMCUInstance` does with a unit. -/
inductive Move
  | stays
  | erased
  | registered
  deriving DecidableEq, Repr

/-- An iteration of `manageControlUnit`. -/
structure Iteration where
  /-- The units of the queue: whether they are inserted or duplicates. -/
  queued : List Bool
  /-- The elements of the registering map, if there are any: those that are scheduled in
  `makeSMSteps`, and what is then done with each of them. -/
  unstable : Option (List (Option String) × List Move)
  deriving DecidableEq, Repr

/-- The units whose state machine is advanced. -/
def Iteration.stepped (it : Iteration) : List String :=
  match it.unstable with
  | none => []
  | some (elements, _) => elements.filterMap id

inductive Operation
  | load (ending : LoadEnd)
  | unload (ending : UnloadEnd)
  | submit
  /-- `workUnitRegistrationACK`, with the unit if it is registering. -/
  | ack (device : Option String)
  | iterate (it : Iteration)
  deriving DecidableEq, Repr

def submitProgram : List Act := [.lock .queue .write, .unlock .queue .write]

/-- The read locks of `loadControlUnit` are released when it returns, the last one first. -/
def loadProgram (ending : LoadEnd) : List Act :=
  let locks : List Act := [.lock .registering .read, .lock .registered .read]
  let unlocks : List Act := [.unlock .registered .read, .unlock .registering .read]
  let checks : List Act :=
    match ending with
    | .noInstancer => []
    | .duplicated => locks ++ [.access [.readRegistering]] ++ unlocks
    | .refused => locks ++ [.access [.readRegistering], .access [.readRegistered]] ++ unlocks
    -- The queue is locked while both maps are.
    | .submitted => locks ++ [.access [.readRegistering], .access [.readRegistered]] ++
        submitProgram ++ unlocks
  [.lock .instancer .write] ++ checks ++ [.unlock .instancer .write]

/-- Only the registered units are locked, also for the insertion into the registering ones. -/
def unloadProgram (ending : UnloadEnd) : List Act :=
  let body : List Act :=
    match ending with
    | .absent => []
    | .failed device => [.access [.readRegistered, .writeRegistering], .access [.advance device]]
    | .unloaded device => [.access [.readRegistered, .writeRegistering], .access [.advance device],
        .access [.writeRegistered]]
  [.lock .registered .write, .access [.readRegistered]] ++ body ++ [.unlock .registered .write]

def ackProgram (device : Option String) : List Act :=
  let body : List Act :=
    match device with
    | none => []
    | some device => [.access [.readRegistering, .advance device]]
  [.lock .registering .read, .access [.readRegistering]] ++ body ++ [.unlock .registering .read]

/-- A unit of the queue. Its own state machine is not known to anybody else yet. -/
def queuedProgram (inserted : Bool) : List Act :=
  [.lock .registering .read, .lock .registered .read,
      .access [.readRegistering, .readRegistered]] ++
    (if inserted then [.access [.writeRegistering]] else []) ++
    [.unlock .registered .read, .unlock .registering .read]

def elementProgram (element : Option String) : List Act :=
  match element with
  | none => [.access [.readRegistering]]
  | some device => [.access [.readRegistering, .advance device]]

def moveProgram (move : Move) : List Act :=
  -- The locks to write are given back for each element.
  let change (accesses : List Act) : List Act :=
    [.promote .registering, .promote .registered] ++ accesses ++
      [.demote .registered, .demote .registering]
  [.access [.readRegistering]] ++
    match move with
    | .stays => []
    | .erased => change [.access [.writeRegistering]]
    | .registered =>
        change [.access [.readRegistering, .writeRegistered], .access [.writeRegistering]]

/-- The size of the registering map is read without a lock. -/
def iterateProgram (it : Iteration) : List Act :=
  [.lock .queue .write] ++ it.queued.flatMap queuedProgram ++
    [.unlock .queue .write, .access [.readRegistering]] ++
    match it.unstable with
    | none => []
    | some (elements, moves) =>
        -- `makeSMSteps`, and behind it `migrateStableAndUnstableSMCUInstance`
        [.lock .registering .read] ++ elements.flatMap elementProgram ++
          [.unlock .registering .read] ++
          ([.lock .registering .upgrade, .lock .registered .upgrade] ++ moves.flatMap moveProgram ++
            [.unlock .registered .upgrade, .unlock .registering .upgrade])

def program : Operation → List Act
  | .load ending => loadProgram ending
  | .unload ending => unloadProgram ending
  | .submit => submitProgram
  | .ack device => ackProgram device
  | .iterate it => iterateProgram it

abbrev Task := Thread Lock (List Access) Operation

/-- The threads of the manager. -/
abbrev Manager := Threads Lock (List Access) Operation

def Operation.isIteration : Operation → Bool
  | .iterate _ => true
  | _ => false

/-- An iteration starts when the one before has come to its end. -/
def step (bars : Bool) (s : Manager) : Label Operation → Option Manager
  | .start operation =>
      if operation.isIteration ∧ ∃ t ∈ s, t.tag.isIteration ∧ t.prog ≠ [] then none
      else some (s.spawn operation (program operation))
  | .run i => s.run bars i

/-! ### What is held -/

/-- The requests of the remote calls, with the locks that they hold. -/
inductive RemoteRequest : Operation → List (Lock × Mode) → Act → Prop
  | submitQueue : RemoteRequest .submit [] (.lock .queue .write)
  | unloadRegistered {ending} : RemoteRequest (.unload ending) [] (.lock .registered .write)
  | ackRegistering {device} : RemoteRequest (.ack device) [] (.lock .registering .read)
  | loadInstancer {ending} : RemoteRequest (.load ending) [] (.lock .instancer .write)
  | loadRegistering {ending} :
      RemoteRequest (.load ending) [(.instancer, .write)] (.lock .registering .read)
  | loadRegistered {ending} :
      RemoteRequest (.load ending) [(.registering, .read), (.instancer, .write)]
        (.lock .registered .read)
  | loadQueue {ending} :
      RemoteRequest (.load ending)
        [(.registered, .read), (.registering, .read), (.instancer, .write)] (.lock .queue .write)

/-- The requests of the manager's thread, with the locks that it holds. -/
inductive ManagerRequest : List (Lock × Mode) → Act → Prop
  | takeQueue : ManagerRequest [] (.lock .queue .write)
  | queuedRegistering : ManagerRequest [(.queue, .write)] (.lock .registering .read)
  | queuedRegistered :
      ManagerRequest [(.registering, .read), (.queue, .write)] (.lock .registered .read)
  | stepRegistering : ManagerRequest [] (.lock .registering .read)
  | migrateRegistering : ManagerRequest [] (.lock .registering .upgrade)
  | migrateRegistered : ManagerRequest [(.registering, .upgrade)] (.lock .registered .upgrade)
  | promoteRegistering :
      ManagerRequest [(.registered, .upgrade), (.registering, .upgrade)] (.promote .registering)
  | promoteRegistered :
      ManagerRequest [(.registered, .upgrade), (.registering, .write)] (.promote .registered)

def Request (operation : Operation) (held : List (Lock × Mode)) (a : Act) : Prop :=
  match operation with
  | .iterate _ => ManagerRequest held a
  | _ => RemoteRequest operation held a

/-- The accesses of each operation, with the locks that it holds. -/
inductive Touches : Operation → List (Lock × Mode) → List Access → Prop
  | load {ending accesses}
      (reads : ∀ a ∈ accesses, a = .readRegistering ∨ a = .readRegistered) :
      Touches (.load ending) [(.registered, .read), (.registering, .read), (.instancer, .write)]
        accesses
  | looksUp {ending} : Touches (.unload ending) [(.registered, .write)] [.readRegistered]
  | unload {ending accesses} (found : ending ≠ .absent) :
      Touches (.unload ending) [(.registered, .write)] accesses
  | ack {device accesses}
      (reads : ∀ a ∈ accesses, a = .readRegistering ∨ ∃ d ∈ device, a = .advance d) :
      Touches (.ack device) [(.registering, .read)] accesses
  | queueReads {it} :
      Touches (.iterate it) [(.registered, .read), (.registering, .read), (.queue, .write)]
        [.readRegistering, .readRegistered]
  | queueInserts {it} (inserts : true ∈ it.queued) :
      Touches (.iterate it) [(.registered, .read), (.registering, .read), (.queue, .write)]
        [.writeRegistering]
  | size {it} : Touches (.iterate it) [] [.readRegistering]
  | steps {it accesses}
      (reads : ∀ a ∈ accesses, a = .readRegistering ∨ ∃ d ∈ it.stepped, a = .advance d) :
      Touches (.iterate it) [(.registering, .read)] accesses
  | scans {it} :
      Touches (.iterate it) [(.registered, .upgrade), (.registering, .upgrade)] [.readRegistering]
  | moves {it accesses} :
      Touches (.iterate it) [(.registered, .write), (.registering, .write)] accesses

def Allowed (operation : Operation) (held : List (Lock × Mode)) : Act → Prop
  | .lock l m => Request operation held (.lock l m)
  | .promote l => Request operation held (.promote l)
  | .access accesses => Touches operation held accesses
  | .unlock _ _ => True
  | .demote _ => True

section Programs

theorem submit_leads : Leads (Allowed .submit) [] submitProgram [] :=
  ⟨RemoteRequest.submitQueue, trivial, rfl⟩

theorem load_leads (ending : LoadEnd) :
    Leads (Allowed (.load ending)) [] (loadProgram ending) [] := by
  have reads : ∀ a ∈ [Access.readRegistering], a = .readRegistering ∨ a = .readRegistered := by
    decide
  have readsToo : ∀ a ∈ [Access.readRegistered], a = .readRegistering ∨ a = .readRegistered := by
    decide
  cases ending with
  | noInstancer => exact ⟨RemoteRequest.loadInstancer, trivial, rfl⟩
  | duplicated =>
    exact ⟨RemoteRequest.loadInstancer, RemoteRequest.loadRegistering, RemoteRequest.loadRegistered,
      Touches.load reads, trivial, trivial, trivial, rfl⟩
  | refused =>
    exact ⟨RemoteRequest.loadInstancer, RemoteRequest.loadRegistering, RemoteRequest.loadRegistered,
      Touches.load reads, Touches.load readsToo, trivial, trivial, trivial, rfl⟩
  | submitted =>
    exact ⟨RemoteRequest.loadInstancer, RemoteRequest.loadRegistering, RemoteRequest.loadRegistered,
      Touches.load reads, Touches.load readsToo, RemoteRequest.loadQueue, trivial, trivial, trivial,
      trivial, rfl⟩

theorem unload_leads (ending : UnloadEnd) :
    Leads (Allowed (.unload ending)) [] (unloadProgram ending) [] := by
  cases ending with
  | absent => exact ⟨RemoteRequest.unloadRegistered, Touches.looksUp, trivial, rfl⟩
  | failed device =>
    exact ⟨RemoteRequest.unloadRegistered, Touches.looksUp, Touches.unload nofun,
      Touches.unload nofun, trivial, rfl⟩
  | unloaded device =>
    exact ⟨RemoteRequest.unloadRegistered, Touches.looksUp, Touches.unload nofun,
      Touches.unload nofun, Touches.unload nofun, trivial, rfl⟩

theorem ack_leads (device : Option String) :
    Leads (Allowed (.ack device)) [] (ackProgram device) [] := by
  have reads : Touches (.ack device) [(.registering, .read)] [.readRegistering] :=
    .ack (by simp)
  cases device with
  | none => exact ⟨RemoteRequest.ackRegistering, reads, trivial, rfl⟩
  | some device => exact ⟨RemoteRequest.ackRegistering, reads, Touches.ack (by simp), trivial, rfl⟩

variable {it : Iteration}

theorem queued_leads (inserted : Bool) (member : inserted ∈ it.queued) :
    Leads (Allowed (.iterate it)) [(.queue, .write)] (queuedProgram inserted)
      [(.queue, .write)] := by
  cases inserted with
  | false =>
    exact ⟨ManagerRequest.queuedRegistering, ManagerRequest.queuedRegistered, Touches.queueReads,
      trivial, trivial, rfl⟩
  | true =>
    exact ⟨ManagerRequest.queuedRegistering, ManagerRequest.queuedRegistered, Touches.queueReads,
      Touches.queueInserts member, trivial, trivial, rfl⟩

theorem element_leads (elem : Option String) (member : ∀ d ∈ elem, d ∈ it.stepped) :
    Leads (Allowed (.iterate it)) [(.registering, .read)] (elementProgram elem)
      [(.registering, .read)] := by
  cases elem with
  | none => exact ⟨Touches.steps (by simp), rfl⟩
  | some device =>
    refine ⟨Touches.steps fun a ha => ?_, rfl⟩
    rcases mem_cons.mp ha with reads | advances
    · exact .inl reads
    · exact .inr ⟨device, member device rfl, mem_singleton.mp advances⟩

theorem move_leads (move : Move) :
    Leads (Allowed (.iterate it)) [(.registered, .upgrade), (.registering, .upgrade)]
      (moveProgram move) [(.registered, .upgrade), (.registering, .upgrade)] := by
  cases move with
  | stays => exact ⟨Touches.scans, rfl⟩
  | erased =>
    exact ⟨Touches.scans, ManagerRequest.promoteRegistering, ManagerRequest.promoteRegistered,
      Touches.moves, trivial, trivial, rfl⟩
  | registered =>
    exact ⟨Touches.scans, ManagerRequest.promoteRegistering, ManagerRequest.promoteRegistered,
      Touches.moves, Touches.moves, trivial, trivial, rfl⟩

theorem iterate_leads (it : Iteration) :
    Leads (Allowed (.iterate it)) [] (iterateProgram it) [] := by
  have taken : Leads (Allowed (.iterate it)) [] [.lock .queue .write] [(.queue, .write)] :=
    ⟨ManagerRequest.takeQueue, rfl⟩
  have released : Leads (Allowed (.iterate it)) [(.queue, .write)]
      [.unlock .queue .write, .access [.readRegistering]] [] :=
    ⟨trivial, Touches.size, rfl⟩
  refine ((taken.append (Leads.flatMap it.queued queued_leads)).append released).append ?_
  -- The loops over the map leave the locks as they find them.
  cases unstable : it.unstable with
  | none => exact rfl
  | some pair =>
    obtain ⟨elems, moves⟩ := pair
    have scheduled : ∀ elem ∈ elems, ∀ d ∈ elem, d ∈ it.stepped := by
      intro elem member d hd
      rw [Iteration.stepped, unstable]
      exact mem_filterMap.mpr ⟨elem, member, hd⟩
    have reading : Leads (Allowed (.iterate it)) [] [.lock .registering .read]
        [(.registering, .read)] := ⟨ManagerRequest.stepRegistering, rfl⟩
    have read : Leads (Allowed (.iterate it)) [(.registering, .read)]
        [.unlock .registering .read] [] := ⟨trivial, rfl⟩
    have upgradable : Leads (Allowed (.iterate it)) []
        [.lock .registering .upgrade, .lock .registered .upgrade]
        [(.registered, .upgrade), (.registering, .upgrade)] :=
      ⟨ManagerRequest.migrateRegistering, ManagerRequest.migrateRegistered, rfl⟩
    have migrated : Leads (Allowed (.iterate it))
        [(.registered, .upgrade), (.registering, .upgrade)]
        [.unlock .registered .upgrade, .unlock .registering .upgrade] [] :=
      ⟨trivial, trivial, rfl⟩
    have steps := reading.append (Leads.flatMap elems fun elem member =>
      element_leads elem (scheduled elem member))
    have moving := (upgradable.append (Leads.flatMap moves fun move _ => move_leads move)).append
      migrated
    exact (steps.append read).append moving

theorem program_leads (op : Operation) : Leads (Allowed op) [] (program op) [] := by
  cases op with
  | load ending => exact load_leads ending
  | unload ending => exact unload_leads ending
  | submit => exact submit_leads
  | ack device => exact ack_leads device
  | iterate it => exact iterate_leads it

end Programs

/-! ### Overlapping operations -/

section Orderly

variable {R : Operation → Operation → Prop} {bars : Bool} {s t : Manager}

theorem threads_step {label : Label Operation} (ht : step bars s label = some t) :
    s.step program bars label = some t := by
  cases label with
  | run i => exact ht
  | start op => exact (ite_none_left_eq_some.mp ht).2

theorem orderly_of_execute (symm : ∀ o p, R o p → R p o) {labels : List (Label Operation)}
    (ha : Admissible (step bars) (Careful R) [] labels)
    (he : execute (step bars) [] labels = some t) : Orderly Allowed R t :=
  ha.invariant (fun ho hc ht => step_orderly program_leads symm ho hc (threads_step ht))
    orderly_nil he

end Orderly

/-! ### Deadlocks -/

/-- What must not overlap: a load with an unload. There is one iteration at a time in any case. -/
def apart : Operation → Operation → Bool
  | .load _, .unload _ => false
  | .unload _, .load _ => false
  | .iterate _, .iterate _ => false
  | _, _ => true

def Apart (o p : Operation) : Prop := apart o p = true

instance decidableApart (o p : Operation) : Decidable (Apart o p) :=
  inferInstanceAs (Decidable (_ = true))

theorem Apart.symm {o p : Operation} (apart : Apart o p) : Apart p o := by
  cases o <;> cases p <;> first | exact rfl | exact apart

section Stuck

variable {bars : Bool} {s : Manager} {i : ℕ}

/-- A thread that cannot go on is at its end, or at a request that is not granted. -/
theorem request_of_stuck (ho : Orderly Allowed Apart s) (hs : Stuck bars s)
    {t : Task} (thread : s[i]? = some t) :
    (t.prog = [] ∧ t.held = []) ∨ ∃ a rest, t.prog = a :: rest ∧ Request t.tag t.held a ∧
      ¬ s.Ready bars i a := by
  rcases hs.blocked ho thread with ended | ⟨a, rest, next, allowed, hb⟩
  · exact .inl ended
  · refine .inr ⟨a, rest, next, ?_, hb⟩
    cases a with
    | lock l m | promote l => exact allowed
    | unlock | demote | access => exact absurd trivial hb

/-- A remote call that cannot go on, with its request and what it holds. -/
inductive Parked : Task → Prop
  | finished {tag waiting} : Parked ⟨tag, [], [], waiting⟩
  | requests {tag a rest held waiting} (request : RemoteRequest tag held a) :
      Parked ⟨tag, a :: rest, held, waiting⟩

variable {w : Task} {rest : List Act} {k : ℕ}

section

variable (hp : Parked w) {lm : Lock × Mode}

include hp

theorem Parked.queue : ∀ lm ∈ w.held, lm.1 ≠ .queue := by
  cases hp with
  | finished => simp
  | requests request => cases request <;> simp

theorem Parked.upgrade (l : Lock) : (l, Mode.upgrade) ∉ w.held := by
  cases hp with
  | finished => simp
  | requests request => cases request <;> simp

theorem Parked.not_bars_registering : ¬ w.Bars bars .registering := by
  cases hp with
  | finished => simp [Thread.Bars]
  | requests request => cases request <;> simp [Thread.Bars]

theorem Parked.unload_of_bars (isBar : w.Bars bars .registered) :
    ∃ ending rest, w.tag = .unload ending ∧ w.prog = .lock .registered .write :: rest := by
  cases hp with
  | finished => simp [Thread.Bars] at isBar
  | requests request =>
    cases request with
    | unloadRegistered => exact ⟨_, _, rfl, rfl⟩
    | submitQueue | ackRegistering | loadInstancer | loadRegistering | loadRegistered | loadQueue =>
      simp [Thread.Bars] at isBar

/-- A remote call that holds the registered units is a load that waits for the queue. -/
theorem Parked.load_of_registered (hh : lm ∈ w.held) (hr : lm.1 = .registered) :
    ∃ ending rest, w.tag = .load ending ∧ w.prog = .lock .queue .write :: rest := by
  cases hp with
  | finished => cases hh
  | requests request =>
    cases request with
    | loadQueue => exact ⟨_, _, rfl, rfl⟩
    | submitQueue | unloadRegistered | ackRegistering | loadInstancer => cases hh
    | loadRegistering =>
      obtain rfl := mem_singleton.mp hh
      cases hr
    | loadRegistered =>
      rcases mem_pair.mp hh with rfl | rfl <;> cases hr

/-- Any other remote call that holds a lock is a load that waits for the next one. -/
theorem Parked.load_of_held (hh : lm ∈ w.held) :
    ∃ ending rest, w.tag = .load ending ∧ (w.prog = .lock .queue .write :: rest ∨
      w.prog = .lock .registered .read :: rest ∨
      w.prog = .lock .registering .read :: rest ∧ lm.1 = .instancer) := by
  cases hp with
  | finished => cases hh
  | requests request =>
    cases request with
    | loadQueue => exact ⟨_, _, rfl, .inl rfl⟩
    | loadRegistered => exact ⟨_, _, rfl, .inr (.inl rfl)⟩
    | loadRegistering =>
      obtain rfl := mem_singleton.mp hh
      exact ⟨_, _, rfl, .inr (.inr ⟨rfl, rfl⟩)⟩
    | submitQueue | unloadRegistered | ackRegistering | loadInstancer => cases hh

end

/-- A thread that cannot go on is parked, or is the iteration. -/
theorem parked_or_iteration (ho : Orderly Allowed Apart s) (hs : Stuck bars s)
    (thread : s[i]? = some w) :
    Parked w ∨ w.prog ≠ [] ∧ ∃ it, w.tag = .iterate it := by
  obtain ⟨tag, prog, held, waiting⟩ := w
  rcases request_of_stuck ho hs thread with ⟨atEnd, released⟩ | ⟨a, rest, next, request, -⟩
  · obtain rfl : prog = [] := atEnd
    obtain rfl : held = [] := released
    exact .inl .finished
  · obtain rfl : prog = a :: rest := next
    cases tag with
    | iterate it => exact .inr ⟨cons_ne_nil a rest, it, rfl⟩
    | load | unload | submit | ack => exact .inl (.requests request)

/-- A thread that waits for the queue cannot be stuck when nobody holds it. -/
theorem false_of_queue (hs : Stuck bars s)
    (free : ∀ j : ℕ, ∀ u ∈ s[j]?, ∀ lm ∈ u.held, lm.1 ≠ .queue) (thread : s[k]? = some w)
    (next : w.prog = .lock .queue .write :: rest) : False :=
  not_ready_of_run_eq_none thread next (hs k) fun j _ u ht => free j u ht

/-- A load that waits for the registered units is kept out by unloads only, and there are none. -/
theorem false_of_registered (ho : Orderly Allowed Apart s) (hs : Stuck bars s)
    (barring : ∀ j : ℕ, ∀ u ∈ s[j]?, u.Bars bars .registered → u.prog ≠ [] ∧ ∃ e, u.tag = .unload e)
    (thread : s[k]? = some w) {ending : LoadEnd} (isLoad : w.tag = .load ending)
    (next : w.prog = .lock .registered .read :: rest) : False := by
  refine not_ready_of_run_eq_none thread next (hs k) fun j other u ht isBar => ?_
  obtain ⟨hu, e, isUnload⟩ := barring j u ht isBar
  have apart := ho.related k j (Ne.symm other) w thread u ht (by simp [next]) hu
  rw [isLoad, isUnload] at apart
  cases apart

theorem Parked.barring (hp : Parked w) (isBar : w.Bars bars .registered) :
    w.prog ≠ [] ∧ ∃ ending, w.tag = .unload ending := by
  obtain ⟨ending, rest, isUnload, next⟩ := hp.unload_of_bars isBar
  exact ⟨next ▸ cons_ne_nil _ rest, ending, isUnload⟩

variable (ho : Orderly Allowed Apart s) (hs : Stuck bars s) {m : Task} {it : Iteration}

include ho hs

/-- The manager is not kept out of the registered units: a thread that waits to unload a unit would
have to be kept out by a load. -/
theorem not_bars_registered (hm : s[i]? = some m)
    (free : ∀ lm ∈ m.held, lm.1 ≠ .registered) (hp : s.Others i Parked) :
    s.Others i fun u => ¬ u.Bars bars .registered := by
  let IsLoad (u : Task) : Prop := u.prog ≠ [] ∧ ∃ ending, u.tag = .load ending
  have holders : ∀ j : ℕ, ∀ v ∈ s[j]?, ∀ lm ∈ v.held, lm.1 = .registered → IsLoad v := by
    refine Threads.Others.all (fun j other v ht lm hh hr => ?_) hm ?_
    · obtain ⟨ending, more, isLoad, waits⟩ :=
        (hp j other v ht).load_of_registered hh hr
      exact ⟨waits ▸ cons_ne_nil _ more, ending, isLoad⟩
    · exact fun lm hh hr => absurd hr (free lm hh)
  intro k other u ht isBar
  obtain ⟨e, rest, isUnload, next⟩ := (hp k other u ht).unload_of_bars isBar
  refine not_ready_of_run_eq_none ht next (hs k) ?_
  intro j different v isHolder lm hh hr
  obtain ⟨hu, ending, isLoad⟩ := holders j v isHolder lm hh hr
  have apart := ho.related j k different v isHolder u ht hu (by simp [next])
  rw [isLoad, isUnload] at apart
  cases apart

/-- There is one iteration at a time. -/
theorem others_parked (hm : s[i]? = some m)
    (hi : m.tag = .iterate it) (hu : m.prog ≠ []) : s.Others i Parked := by
  intro j other u ht
  rcases parked_or_iteration ho hs ht with isParked | ⟨hr, it', isIteration'⟩
  · exact isParked
  · have apart := ho.related i j (Ne.symm other) m hm u ht hu hr
    rw [hi, isIteration'] at apart
    cases apart

/-- The manager is never stuck. -/
theorem finished_of_iteration (hm : s[i]? = some m) (hi : m.tag = .iterate it) : m.prog = [] := by
  by_contra hu
  have hp := others_parked ho hs hm hi hu
  rcases request_of_stuck ho hs hm with ⟨atEnd, -⟩ | ⟨a, rest, next, request, hb⟩
  · exact hu atEnd
  obtain ⟨tag, prog, held, waiting⟩ := m
  obtain rfl : tag = .iterate it := hi
  obtain rfl : prog = a :: rest := next
  -- Nobody holds the queue once the manager has released it.
  have free (released : ∀ lm ∈ held, lm.1 ≠ .queue) :
      ∀ j : ℕ, ∀ u ∈ s[j]?, ∀ lm ∈ u.held, lm.1 ≠ .queue :=
    Threads.Others.all (fun j other u ht => (hp j other u ht).queue) hm released
  cases request with
  | takeQueue => exact hb fun j other u ht => (hp j other u ht).queue
  | queuedRegistering | stepRegistering =>
    exact hb fun j other u ht => (hp j other u ht).not_bars_registering
  | migrateRegistering =>
    exact hb fun j other u ht => ⟨(hp j other u ht).not_bars_registering,
      (hp j other u ht).upgrade .registering⟩
  | queuedRegistered =>
    exact hb (not_bars_registered ho hs hm (by simp) hp)
  | migrateRegistered =>
    have unbarred := not_bars_registered ho hs hm (by simp) hp
    exact hb fun j other u ht => ⟨unbarred j other u ht, (hp j other u ht).upgrade .registered⟩
  | promoteRegistering =>
    -- Whoever holds the registering units is a load, and can go on to its next lock.
    refine hb fun j other u ht lm hh isRegistering => ?_
    obtain ⟨ending, more, isLoad, waits | waits | ⟨-, isInstancer⟩⟩ :=
      (hp j other u ht).load_of_held hh
    · exact false_of_queue hs (free (by simp)) ht waits
    · have barring : ∀ k : ℕ, ∀ v ∈ s[k]?, v.Bars bars .registered →
          v.prog ≠ [] ∧ ∃ e, v.tag = .unload e :=
        Threads.Others.all (fun k other v isV => (hp k other v isV).barring) hm
          (by simp [Thread.Bars])
      exact false_of_registered ho hs barring ht isLoad waits
    · rw [isRegistering] at isInstancer
      cases isInstancer
  | promoteRegistered =>
    refine hb fun j other u ht lm hh hr => ?_
    obtain ⟨ending, more, isLoad, waits⟩ :=
      (hp j other u ht).load_of_registered hh hr
    exact false_of_queue hs (free (by simp)) ht waits

/-- Without the manager a remote call is not stuck either. -/
theorem finished_of_stuck : s.Finished := by
  have hp : ∀ j : ℕ, ∀ u ∈ s[j]?, Parked u := by
    intro j u ht
    rcases parked_or_iteration ho hs ht with isParked | ⟨hu, it, hi⟩
    · exact isParked
    · exact absurd (finished_of_iteration ho hs ht hi) hu
  have onQueue : ∀ {k : ℕ} {u : Task}, s[k]? = some u → ∀ {rest : List Act},
      u.prog ≠ .lock .queue .write :: rest := fun ht _ =>
    false_of_queue hs (fun j u isU => (hp j u isU).queue) ht
  have onRegistering : ∀ {k : ℕ} {u : Task}, s[k]? = some u →
      ∀ {rest : List Act}, u.prog ≠ .lock .registering .read :: rest := fun ht _ next =>
    not_ready_of_run_eq_none ht next (hs _) fun j _ v isV =>
      (hp j v isV).not_bars_registering
  have onRegistered : ∀ {k : ℕ} {u : Task}, s[k]? = some u →
      ∀ {ending : LoadEnd}, u.tag = .load ending → ∀ {rest : List Act},
      u.prog ≠ .lock .registered .read :: rest := fun ht _ isLoad _ =>
    false_of_registered ho hs (fun j v isV => (hp j v isV).barring) ht isLoad
  intro i t thread
  -- Each request is granted, or is held up by a load that can go on.
  cases isParked : hp i t thread with
  | finished => rfl
  | requests request =>
    have hb := not_ready_of_run_eq_none thread rfl (hs i)
    cases request with
    | submitQueue | loadQueue => exact (onQueue thread rfl).elim
    | ackRegistering | loadRegistering => exact (onRegistering thread rfl).elim
    | loadRegistered => exact (onRegistered thread rfl rfl).elim
    | unloadRegistered =>
      refine (hb fun j other u ht lm hh hr => ?_).elim
      obtain ⟨ending, more, -, waits⟩ := (hp j u ht).load_of_registered hh hr
      exact onQueue ht waits
    | loadInstancer =>
      refine (hb fun j other u ht lm hh isInstancer => ?_).elim
      obtain ⟨ending, more, isLoad, waits | waits | ⟨waits, -⟩⟩ :=
        (hp j u ht).load_of_held hh
      · exact onQueue ht waits
      · exact onRegistered ht isLoad waits
      · exact onRegistering ht waits

end Stuck

/-- **No deadlock.** Whatever the threads do, as long as no unit is loaded while another one is
unloaded, all of them can be brought to their end. -/
theorem drains_of_apart (bars : Bool) (labels : List (Label Operation))
    (admissible : Admissible (step bars) (Careful Apart) [] labels) (t : Manager)
    (executed : execute (step bars) [] labels = some t) : t.Drains bars :=
  drains_of_orderly finished_of_stuck
    (orderly_of_execute (fun _ _ => Apart.symm) admissible executed)

/-- A unit is unloaded while the manager takes another one from the queue. -/
def unloadDuringIteration : List (Label Operation) :=
  [.start (.iterate ⟨[true], none⟩), .run 0, .run 0, .start (.unload .absent), .run 1, .run 1]

/-- The manager and the unload are between their first and their last lock. -/
theorem drains_of_apart_unload :
    Admissible (step true) (Careful Apart) [] unloadDuringIteration ∧
      ∃ t, execute (step true) [] unloadDuringIteration = some t ∧ t.Drains true := by
  have ha : Admissible (step true) (Careful Apart) [] unloadDuringIteration := by decide
  obtain ⟨t, he⟩ := isSome_iff_exists.mp
    (show (execute (step true) [] unloadDuringIteration).isSome = true by decide)
  exact ⟨ha, t, he, drains_of_apart true unloadDuringIteration ha t he⟩

/-- The thread that loads a unit reads both maps and comes to the queue, which the manager has. Then
another unit is unloaded, whose thread waits for the registered ones. -/
def loadDuringUnload : List (Label Operation) :=
  [.start (.load .submitted), .run 0, .run 0, .run 0, .run 0, .run 0,
    .start (.iterate ⟨[true], none⟩), .run 1, .run 1, .run 0,
    .start (.unload (.unloaded "BPM")), .run 2]

/-- The three threads wait for each other. -/
theorem load_deadlocks :
    (∃ t ∈ execute (step false) [] loadDuringUnload, t.Deadlocked false ∧ ¬ t.Drains false) ∧
      ∃ t ∈ execute (step true) [] loadDuringUnload, t.Deadlocked true ∧ ¬ t.Drains true := by
  have hr (bars : Bool) : ∃ t ∈ execute (step bars) [] loadDuringUnload, t.Deadlocked bars := by
    cases bars <;> decide
  obtain ⟨t, he, hd⟩ := hr false
  obtain ⟨u, executedToo, deadlockedToo⟩ := hr true
  exact ⟨⟨t, he, hd, hd.not_drains⟩, u, executedToo, deadlockedToo, deadlockedToo.not_drains⟩

end ChaosFramework.ControlManager
