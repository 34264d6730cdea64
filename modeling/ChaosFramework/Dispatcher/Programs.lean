import ChaosFramework.SharedMutex.Operations
import ChaosFramework.Dispatcher.DefaultCommandDispatcher

/-!
# What the threads of the dispatcher do

The map of the schedulers has a shared mutex. `registerAction` takes it upgradable and writes for
each new scheduler, `deregisterAction` writes from its first loop to its last, `hasDomain` reads,
and `deinit` reads while it ends the schedulers. A call that is dispatched or executed does not take
it.

An action has a lock that is held to read while it is executed and to write while it is enabled or
disabled. The thread of a scheduler is a lock here as well: it is held while a call from the queue
is executed, and who joins the thread has to get it.
-/

namespace ChaosFramework.Dispatcher

open SharedMutex List

/-- A scheduler, with the domain that it works for. -/
structure Scheduler where
  domain : String
  id : ℕ
  deriving DecidableEq, Repr

inductive Lock
  /-- `das_map_mutex` -/
  | dasMap
  /-- `actionAccessMutext` -/
  | action (desc : ActionDescriptor)
  /-- `mutex_execution_lock` -/
  | execution (desc : ActionDescriptor)
  /-- `qMutex` -/
  | queue (k : Scheduler)
  /-- The thread of a scheduler. -/
  | worker (k : Scheduler)
  deriving DecidableEq, Repr

/-- Accesses to the map of the schedulers and to the maps of the actions, with what is found. -/
inductive Access
  | count (domain : String) (found : Option ℕ)
  /-- `das_map[domain]` -/
  | fetch (k : Scheduler)
  /-- The use of a scheduler through the pointer that was fetched. -/
  | member (k : Scheduler)
  | hasActionName (k : Scheduler) (name : String) (found : Bool)
  | getActionDescriptornFormActionName (k : Scheduler) (desc : ActionDescriptor)
  | addActionDescriptor (desc : ActionDescriptor)
  | insertScheduler (desc : ActionDescriptor)
  | removeActionDescriptor (desc : ActionDescriptor)
  /-- The scheduler of the domain, if it is there without a container. -/
  | unneeded (desc : ActionDescriptor) (found : Option ℕ)
  | eraseScheduler (desc : ActionDescriptor)
  | clear
  deriving DecidableEq, Repr

abbrev Act := Action Lock Access

/-! ### Operations -/

/-- How `dispatchCommand` ends. -/
inductive Dispatch
  /-- The pack has no domain or no name. -/
  | refused
  | noDomain (domain : String)
  | unarmed (k : Scheduler)
  | noAction (k : Scheduler) (name : String)
  /-- The queue may be full. -/
  | pushed (k : Scheduler) (name : String)
  deriving DecidableEq, Repr

/-- How the execution of a call ends. The domain and the name of a call are those of its action. -/
inductive Execution
  | absent (k : Scheduler) (name : String)
  | disabled (id : ℕ) (desc : ActionDescriptor)
  /-- The action may call `hasDomain`. -/
  | fired (id : ℕ) (desc : ActionDescriptor) (shared : Bool) (check : Option (String × Option ℕ))
  deriving DecidableEq, Repr

def Execution.scheduler : Execution → Scheduler
  | .absent k _ => k
  | .disabled id desc => ⟨desc.domain, id⟩
  | .fired id desc _ _ => ⟨desc.domain, id⟩

def Execution.domain (e : Execution) : String := e.scheduler.domain

/-- How `executeCommandSync` ends. -/
inductive Synchronous
  | refused
  | noDomain (domain : String)
  | found (e : Execution)
  deriving DecidableEq, Repr

inductive Operation
  /-- The descriptors, with the scheduler that their domain has. -/
  | registerAction (descs : List (ActionDescriptor × Option ℕ))
  /-- The descriptors, with the scheduler that their domain does not need any more. -/
  | deregisterAction (descs : List (ActionDescriptor × Option ℕ))
  | hasDomain (domain : String) (found : Option ℕ)
  | domainRPCActionQueued (domain : String) (found : Option ℕ)
  | dispatchCommand (d : Dispatch)
  | executeCommandSync (s : Synchronous)
  /-- A call from the queue, with its sub command. -/
  | processBufferElement (e : Execution) (sub : Dispatch)
  | deinit (schedulers : List Scheduler)
  deriving DecidableEq, Repr

def hasDomainProgram (domain : String) (found : Option ℕ) : List Act :=
  holding .dasMap .read [.access (.count domain found)]

/-- `addActionDescriptor` and `removeActionDescriptor` call `setEnabled`. -/
def enableProgram (desc : ActionDescriptor) (change : Access) : List Act :=
  holding (.action desc) .write [] ++ [.access change]

def addSchedulerProgram (desc : ActionDescriptor) (found : Option ℕ) : List Act :=
  [.access (.count desc.domain found)] ++
    match found with
    | some _ => []
    | none => [.promote .dasMap, .access (.insertScheduler desc), .demote .dasMap]

/-- `clear`, and `deinit` of the queue. It waits until the queue is empty, which is a wait for
the thread as well. -/
def deinitProgram (k : Scheduler) : List Act :=
  holding (.queue k) .write [] ++ holding (.queue k) .write [] ++ holding (.worker k) .write []

def removeSchedulerProgram (desc : ActionDescriptor) (found : Option ℕ) : List Act :=
  [.access (.unneeded desc found)] ++
    match found with
    | none => []
    | some id => [.access (.eraseScheduler desc)] ++ deinitProgram ⟨desc.domain, id⟩

def findProgram (k : Scheduler) : List Act :=
  [.access (.count k.domain (some k.id)), .access (.fetch k), .access (.member k)]

def dispatchProgram : Dispatch → List Act
  | .refused => []
  | .noDomain domain => [.access (.count domain none)]
  | .unarmed k => findProgram k
  | .noAction k name => findProgram k ++ [.access (.hasActionName k name false)]
  | .pushed k name =>
      findProgram k ++ [.access (.hasActionName k name true), .access (.member k)] ++
        holding (.queue k) .write []

/-- The call of an action. One that is not shared has a lock of its own. -/
def callProgram (desc : ActionDescriptor) (shared : Bool) (check : Option (String × Option ℕ)) :
    List Act :=
  let body : List Act :=
    match check with
    | none => []
    | some (domain, found) => hasDomainProgram domain found
  if shared then body else holding (.execution desc) .write body

/-- The search for an action that is there. A synchronous call uses the scheduler again. -/
def lookupProgram (k : Scheduler) (desc : ActionDescriptor) (again : List Act) : List Act :=
  [.access (.hasActionName k desc.name true)] ++ again ++
    [.access (.getActionDescriptornFormActionName k desc)]

def executionProgram (e : Execution) (again sub : List Act) : List Act :=
  match e with
  | .absent k name => [.access (.hasActionName k name false)]
  | .disabled id desc =>
      lookupProgram ⟨desc.domain, id⟩ desc again ++ holding (.action desc) .read []
  | .fired id desc shared check =>
      -- The sub command is dispatched with the action still locked.
      lookupProgram ⟨desc.domain, id⟩ desc again ++
        holding (.action desc) .read (callProgram desc shared check ++ sub)

def program : Operation → List Act
  | .registerAction descs =>
      holding .dasMap .upgrade
        (descs.flatMap (fun d => enableProgram d.1 (.addActionDescriptor d.1)) ++
          descs.flatMap fun d => addSchedulerProgram d.1 d.2)
  | .deregisterAction descs =>
      holding .dasMap .write
        (descs.flatMap (fun d => enableProgram d.1 (.removeActionDescriptor d.1)) ++
          descs.flatMap fun d => removeSchedulerProgram d.1 d.2)
  | .hasDomain domain found => hasDomainProgram domain found
  | .domainRPCActionQueued domain found =>
      holding .dasMap .upgrade ([.access (.count domain found)] ++
        match found with
        | none => []
        | some id => holding (.queue ⟨domain, id⟩) .write [])
  | .dispatchCommand d => dispatchProgram d
  | .executeCommandSync .refused => []
  | .executeCommandSync (.noDomain domain) => [.access (.count domain none)]
  | .executeCommandSync (.found e) => findProgram e.scheduler ++
      executionProgram e [.access (.member e.scheduler)] []
  | .processBufferElement e sub =>
      holding (.worker e.scheduler) .write
        (holding (.queue e.scheduler) .write [] ++ executionProgram e [] (dispatchProgram sub))
  | .deinit schedulers =>
      holding .dasMap .read
        (schedulers.flatMap (fun k => [.access (.count k.domain (some k.id))] ++ deinitProgram k) ++
          [.access .clear])

abbrev Task := Thread Lock Access Operation

abbrev Tasks := Threads Lock Access Operation

/-! ### What is read and changed -/

/-- What the threads share. -/
inductive Shared
  /-- `das_map` -/
  | schedulers
  /-- The map of the actions of a domain. -/
  | actions (domain : String)
  deriving DecidableEq, Repr

/-- What a thread can have tested. -/
inductive Fact
  | scheduler (k : Scheduler)
  | action (k : Scheduler) (name : String)
  deriving DecidableEq, Repr

def Fact.shared : Fact → Shared
  | .scheduler _ => .schedulers
  | .action k _ => .actions k.domain

namespace Access

def reads : Access → Option Shared
  | count _ _ => some .schedulers
  | fetch _ => some .schedulers
  | hasActionName k _ _ => some (.actions k.domain)
  | getActionDescriptornFormActionName k _ => some (.actions k.domain)
  | unneeded _ _ => some .schedulers
  | _ => none

def writes : Access → Option Shared
  | addActionDescriptor desc => some (.actions desc.domain)
  | removeActionDescriptor desc => some (.actions desc.domain)
  | insertScheduler _ => some .schedulers
  | eraseScheduler _ => some .schedulers
  | clear => some .schedulers
  | _ => none

def tests : Access → List Fact
  | count domain (some id) => [.scheduler ⟨domain, id⟩]
  | hasActionName k name true => [.action k name]
  | _ => []

def uses : Access → List Fact
  | fetch k => [.scheduler k]
  | member k => [.scheduler k]
  | getActionDescriptornFormActionName k desc => [.action k desc.name]
  | _ => []

end Access

def Dispatch.looks : Dispatch → List Shared
  | .refused => []
  | .noDomain _ => [.schedulers]
  | .unarmed _ => [.schedulers]
  | .noAction k _ => [.schedulers, .actions k.domain]
  | .pushed k _ => [.schedulers, .actions k.domain]

/-- What an operation reads and uses without the lock of the map. -/
def Operation.looks : Operation → List Shared
  | .dispatchCommand d => d.looks
  | .executeCommandSync .refused => []
  | .executeCommandSync (.noDomain _) => [.schedulers]
  | .executeCommandSync (.found e) => [.schedulers, .actions e.domain]
  | .processBufferElement e sub => .actions e.domain :: sub.looks
  | _ => []

/-- What an operation changes. -/
def Operation.alters : Operation → List Shared
  | .registerAction descs =>
      descs.flatMap fun d => .actions d.1.domain :: if d.2 = none then [.schedulers] else []
  | .deregisterAction descs =>
      descs.flatMap fun d => .actions d.1.domain :: if d.2 = none then [] else [.schedulers]
  | .deinit _ => [.schedulers]
  | _ => []

/-- The domains whose actions or schedulers an operation locks. -/
def Operation.domains : Operation → List String
  | .registerAction descs => descs.map (·.1.domain)
  | .deregisterAction descs => descs.map (·.1.domain)
  | .deinit schedulers => schedulers.map (·.domain)
  | _ => []

def Execution.asks : Execution → Bool
  | .fired _ _ _ check => check.isSome
  | _ => false

/-- The domain of an action that is executed and calls `hasDomain`. -/
def Operation.asks : Operation → List String
  | .processBufferElement e _ => if e.asks then [e.domain] else []
  | .executeCommandSync (.found e) => if e.asks then [e.domain] else []
  | _ => []

/-! ### What is held -/

/-- What an execution holds before it comes to the action: its thread, if it has one. -/
def Own (domain : String) (held : List (Lock × Mode)) : Prop :=
  ∀ lm ∈ held, ∃ id, lm = (.worker ⟨domain, id⟩, .write)

/-- The requests for locks, with what is held at each of them. -/
inductive Request (o : Operation) : List (Lock × Mode) → Act → Prop
  | map {m} : Request o [] (.lock .dasMap m)
  | promote : Request o [(.dasMap, .upgrade)] (.promote .dasMap)
  | enable {m desc} (mine : desc.domain ∈ o.domains) :
      Request o [(.dasMap, m)] (.lock (.action desc) .write)
  | join {m k} (mine : k.domain ∈ o.domains) : Request o [(.dasMap, m)] (.lock (.worker k) .write)
  | work {k} : Request o [] (.lock (.worker k) .write)
  /-- No lock of a queue is held for long. -/
  | queue {held k} (free : ∀ k' m, (Lock.queue k', m) ∉ held) :
      Request o held (.lock (.queue k) .write)
  | fire {held desc} (own : Own desc.domain held) : Request o held (.lock (.action desc) .read)
  | call {held desc} (own : Own desc.domain held) :
      Request o ((.action desc, .read) :: held) (.lock (.execution desc) .write)
  /-- An action asks for the map. -/
  | ask {held : List (Lock × Mode)} {desc} (asks : desc.domain ∈ o.asks)
      (mine : ∀ lm ∈ held, lm = (.execution desc, .write) ∨ lm = (.action desc, .read) ∨
        ∃ id, lm = (.worker ⟨desc.domain, id⟩, .write)) :
      Request o held (.lock .dasMap .read)

/-- The accesses, with what is held at each of them. -/
inductive Touches (o : Operation) (held : List (Lock × Mode)) (a : Access) : Prop
  | looks (still : a.writes = none) (reads : ∀ r ∈ a.reads, r ∈ o.looks)
      (uses : ∀ f ∈ a.uses, f.shared ∈ o.looks)
  | locked {m} (holds : (.dasMap, m) ∈ held) (still : a.writes = none)
      (reads : a.reads = some .schedulers) (uses : a.uses = [])
  | alters {m r} (holds : (.dasMap, m) ∈ held) (changing : m ≠ .read) (writes : a.writes = some r)
      (mine : r ∈ o.alters) (strong : r = .schedulers → m = .write) (reads : a.reads = none)
      (uses : a.uses = [])
  /-- `deinit` changes the map with a lock to read. -/
  | clears {schedulers} (ends : o = .deinit schedulers) (isClear : a = .clear)

def Allowed (o : Operation) (held : List (Lock × Mode)) : Act → Prop
  | .lock l m => Request o held (.lock l m)
  | .promote l => Request o held (.promote l)
  | .access a => Touches o held a
  | .unlock _ _ => True
  | .demote _ => True

/-- A part of the program of an operation that leaves the locks as they are. -/
abbrev Neutral (o : Operation) (held : List (Lock × Mode)) (prog : List Act) : Prop :=
  Leads (Allowed o) held prog held

section Programs

variable {o : Operation} {held : List (Lock × Mode)} {desc : ActionDescriptor} {a : Access}
  {k : Scheduler} {m : Mode}

theorem queue_leads (k : Scheduler) (free : ∀ k' m, (Lock.queue k', m) ∉ held) :
    Neutral o held (holding (.queue k) .write []) :=
  Leads.holding (Request.queue free) rfl trivial

theorem access_leads (ht : Touches o held a) : Neutral o held [.access a] :=
  ⟨ht, rfl⟩

theorem enable_leads (hc : m ≠ .read)
    (mine : desc.domain ∈ o.domains) (ha : .actions desc.domain ∈ o.alters)
    (hw : a.writes = some (.actions desc.domain)) (reads : a.reads = none)
    (uses : a.uses = []) :
    Neutral o [(.dasMap, m)] (enableProgram desc a) := by
  have locked : Neutral o [(.dasMap, m)] (holding (.action desc) .write []) :=
    Leads.holding (Request.enable mine) rfl trivial
  exact locked.append (access_leads (.alters mem_cons_self hc hw ha nofun reads uses))

theorem deinit_leads (mine : k.domain ∈ o.domains) :
    Neutral o [(.dasMap, m)] (deinitProgram k) := by
  have free : ∀ k' n, (Lock.queue k', n) ∉ [(Lock.dasMap, m)] := by simp
  have queue := queue_leads (o := o) k free
  have joined : Neutral o [(.dasMap, m)] (holding (.worker k) .write []) :=
    Leads.holding (Request.join mine) rfl trivial
  exact (queue.append queue).append joined

theorem register_leads (descs : List (ActionDescriptor × Option ℕ)) :
    Leads (Allowed (.registerAction descs)) [] (program (.registerAction descs)) [] := by
  have adds (d) (isIn : d ∈ descs) : Neutral (.registerAction descs) [(.dasMap, .upgrade)]
      (enableProgram d.1 (.addActionDescriptor d.1)) := by
    have ha : Shared.actions d.1.domain ∈ (Operation.registerAction descs).alters :=
      mem_flatMap.mpr ⟨d, isIn, mem_cons_self⟩
    have mine : d.1.domain ∈ (Operation.registerAction descs).domains :=
      mem_map.mpr ⟨d, isIn, rfl⟩
    exact enable_leads nofun mine ha rfl rfl rfl
  have inserts (d) (isIn : d ∈ descs) :
      Neutral (.registerAction descs) [(.dasMap, .upgrade)] (addSchedulerProgram d.1 d.2) := by
    obtain ⟨desc, found⟩ := d
    have hc : Touches (.registerAction descs) [(.dasMap, .upgrade)]
        (.count desc.domain found) := .locked mem_cons_self rfl rfl rfl
    cases found with
    | some id => exact ⟨hc, rfl⟩
    | none =>
      have ha : Shared.schedulers ∈ (Operation.registerAction descs).alters :=
        mem_flatMap.mpr ⟨_, isIn, by simp⟩
      exact ⟨hc, Request.promote,
        Touches.alters mem_cons_self nofun rfl ha (fun _ => rfl) rfl rfl, trivial, rfl⟩
  exact Leads.holding Request.map ((Leads.flatMap descs adds).append (Leads.flatMap descs inserts))
    trivial

theorem deregister_leads (descs : List (ActionDescriptor × Option ℕ)) :
    Leads (Allowed (.deregisterAction descs)) [] (program (.deregisterAction descs)) [] := by
  have removes (d) (isIn : d ∈ descs) :
      Neutral (.deregisterAction descs) [(.dasMap, .write)]
        (enableProgram d.1 (.removeActionDescriptor d.1)) := by
    have ha : Shared.actions d.1.domain ∈ (Operation.deregisterAction descs).alters :=
      mem_flatMap.mpr ⟨d, isIn, mem_cons_self⟩
    have mine : d.1.domain ∈ (Operation.deregisterAction descs).domains :=
      mem_map.mpr ⟨d, isIn, rfl⟩
    exact enable_leads nofun mine ha rfl rfl rfl
  have erases (d) (isIn : d ∈ descs) :
      Neutral (.deregisterAction descs) [(.dasMap, .write)] (removeSchedulerProgram d.1 d.2) := by
    obtain ⟨desc, found⟩ := d
    have hc : Touches (.deregisterAction descs) [(.dasMap, .write)] (.unneeded desc found) :=
      .locked mem_cons_self rfl rfl rfl
    cases found with
    | none => exact ⟨hc, rfl⟩
    | some id =>
      have ha : Shared.schedulers ∈ (Operation.deregisterAction descs).alters :=
        mem_flatMap.mpr ⟨_, isIn, by simp⟩
      have mine : desc.domain ∈ (Operation.deregisterAction descs).domains :=
        mem_map.mpr ⟨_, isIn, rfl⟩
      exact ⟨hc, Touches.alters mem_cons_self nofun rfl ha (fun _ => rfl) rfl rfl,
        deinit_leads mine⟩
  exact Leads.holding Request.map
    ((Leads.flatMap descs removes).append (Leads.flatMap descs erases)) trivial

theorem hasDomain_leads (ask : Request o held (.lock .dasMap .read)) (dom : String)
    (found : Option ℕ) : Neutral o held (hasDomainProgram dom found) :=
  Leads.holding ask (access_leads (.locked mem_cons_self rfl rfl rfl)) trivial

/-- An access to what the operation looks at without a lock. -/
theorem looks_leads {r : Shared} (looks : r ∈ o.looks) (still : a.writes = none)
    (reads : ∀ q ∈ a.reads, q = r) (uses : ∀ f ∈ a.uses, f.shared = r) :
    Neutral o held [.access a] :=
  access_leads (.looks still (fun q hr => reads q hr ▸ looks) fun f hu => uses f hu ▸ looks)

theorem member_leads (k : Scheduler) (looks : .schedulers ∈ o.looks) :
    Neutral o held [.access (.member k)] :=
  looks_leads looks rfl nofun (forall_mem_singleton.mpr rfl)

theorem find_leads (k : Scheduler) (looks : .schedulers ∈ o.looks) :
    Neutral o held (findProgram k) := by
  have hc : Neutral o held [.access (.count k.domain (some k.id))] :=
    looks_leads looks rfl (fun _ same => (Option.some.inj same).symm) nofun
  have fetched : Neutral o held [.access (.fetch k)] :=
    looks_leads looks rfl (fun _ same => (Option.some.inj same).symm) (forall_mem_singleton.mpr rfl)
  exact hc.append (fetched.append (member_leads k looks))

theorem hasActionName_leads (k : Scheduler) (name : String) (found : Bool)
    (looks : .actions k.domain ∈ o.looks) :
    Neutral o held [.access (.hasActionName k name found)] :=
  looks_leads looks rfl (fun _ same => (Option.some.inj same).symm) nofun

theorem dispatch_leads (d : Dispatch) (looks : ∀ r ∈ d.looks, r ∈ o.looks)
    (free : ∀ k' m, (Lock.queue k', m) ∉ held) :
    Neutral o held (dispatchProgram d) := by
  cases d with
  | refused => exact rfl
  | noDomain dom =>
    exact looks_leads (looks _ mem_cons_self) rfl (fun _ same => (Option.some.inj same).symm) nofun
  | unarmed k => exact find_leads k (looks _ mem_cons_self)
  | noAction k name =>
    have found : Neutral o held (findProgram k) :=
      find_leads k (looks _ mem_cons_self)
    exact found.append
      (hasActionName_leads k name false (looks _ (mem_cons_of_mem _ mem_cons_self)))
  | pushed k name =>
    have found : Neutral o held (findProgram k) :=
      find_leads k (looks _ mem_cons_self)
    have tested : Neutral o held [.access (.hasActionName k name true)] :=
      hasActionName_leads k name true (looks _ (mem_cons_of_mem _ mem_cons_self))
    have used : Neutral o held [.access (.member k)] :=
      member_leads k (looks _ mem_cons_self)
    exact (found.append (tested.append used)).append (queue_leads k free)

theorem Own.free {dom : String} (own : Own dom held) (k : Scheduler) (m : Mode) :
    (Lock.queue k, m) ∉ held := by
  intro isIn
  obtain ⟨id, same⟩ := own _ isIn
  cases same

theorem lookup_leads {again : List Act}
    (looks : .actions k.domain ∈ o.looks) (more : Neutral o held again) :
    Neutral o held (lookupProgram k desc again) := by
  have got : Neutral o held [.access (.getActionDescriptornFormActionName k desc)] :=
    looks_leads looks rfl (fun _ same => (Option.some.inj same).symm) (forall_mem_singleton.mpr rfl)
  exact ((hasActionName_leads k desc.name true looks).append more).append got

theorem call_leads {shared : Bool} {check : Option (String × Option ℕ)}
    (own : Own desc.domain held) (ha : check.isSome = true → desc.domain ∈ o.asks) :
    Neutral o ((.action desc, .read) :: held) (callProgram desc shared check) := by
  have mine : ∀ lm ∈ (Lock.action desc, Mode.read) :: held, lm = (.execution desc, .write) ∨
      lm = (.action desc, .read) ∨ ∃ id, lm = (.worker ⟨desc.domain, id⟩, .write) := by
    intro lm isIn
    rcases mem_cons.mp isIn with rfl | isIn
    · exact .inr (.inl rfl)
    · exact .inr (.inr (own lm isIn))
  have mineToo : ∀ lm ∈ (Lock.execution desc, Mode.write) :: (.action desc, .read) :: held,
      lm = (.execution desc, .write) ∨ lm = (.action desc, .read) ∨
        ∃ id, lm = (.worker ⟨desc.domain, id⟩, .write) := by
    intro lm isIn
    rcases mem_cons.mp isIn with rfl | isIn
    · exact .inl rfl
    · exact mine lm isIn
  cases check with
  | none =>
    cases shared with
    | true => exact rfl
    | false => exact Leads.holding (Request.call own) rfl trivial
  | some check =>
    have asking := ha rfl
    cases shared with
    | true => exact hasDomain_leads (.ask asking mine) check.1 check.2
    | false =>
      exact Leads.holding (Request.call own)
        (hasDomain_leads (.ask asking mineToo) check.1 check.2) trivial

theorem execution_leads {e : Execution} {again sub : List Act} (own : Own e.domain held)
    (looks : .actions e.domain ∈ o.looks) (ha : e.asks = true → e.domain ∈ o.asks)
    (more : Neutral o held again)
    (later : ∀ desc : ActionDescriptor, Neutral o ((.action desc, .read) :: held) sub) :
    Neutral o held (executionProgram e again sub) := by
  cases e with
  | absent k name => exact hasActionName_leads k name false looks
  | disabled id desc =>
    have locked : Neutral o held (holding (.action desc) .read []) :=
      Leads.holding (Request.fire own) rfl trivial
    exact (lookup_leads looks more).append locked
  | fired id desc shared check =>
    have hc : Neutral o ((.action desc, .read) :: held) (callProgram desc shared check) :=
      call_leads own ha
    have locked : Neutral o held
        (holding (.action desc) .read (callProgram desc shared check ++ sub)) :=
      Leads.holding (Request.fire own) (hc.append (later desc)) trivial
    exact (lookup_leads looks more).append locked

theorem program_leads (o : Operation) : Leads (Allowed o) [] (program o) [] := by
  cases o with
  | registerAction descs => exact register_leads descs
  | deregisterAction descs => exact deregister_leads descs
  | hasDomain dom found => exact hasDomain_leads .map dom found
  | domainRPCActionQueued dom found =>
    refine Leads.holding Request.map ?_ trivial
    have hc : Touches (.domainRPCActionQueued dom found) [(.dasMap, .upgrade)]
        (.count dom found) := .locked mem_cons_self rfl rfl rfl
    cases found with
    | none => exact ⟨hc, rfl⟩
    | some id =>
      have free : ∀ k m, (Lock.queue k, m) ∉ [(Lock.dasMap, Mode.upgrade)] := by simp
      exact ⟨hc, queue_leads ⟨dom, id⟩ free⟩
  | dispatchCommand d => exact dispatch_leads d (fun _ => id) nofun
  | executeCommandSync s =>
    cases s with
    | refused => exact rfl
    | noDomain dom =>
      exact looks_leads mem_cons_self rfl (fun _ same => (Option.some.inj same).symm) nofun
    | found e =>
      have ha : e.asks = true → e.domain ∈ (Operation.executeCommandSync (.found e)).asks := by
        intro ha
        simp [Operation.asks, ha]
      exact (find_leads e.scheduler mem_cons_self).append
        (execution_leads nofun (mem_cons_of_mem _ mem_cons_self) ha
          (member_leads e.scheduler mem_cons_self) fun _ => rfl)
  | processBufferElement e sub =>
    have own : Own e.domain [(.worker e.scheduler, .write)] :=
      forall_mem_singleton.mpr ⟨e.scheduler.id, rfl⟩
    have ha : e.asks = true → e.domain ∈ (Operation.processBufferElement e sub).asks := by
      intro ha
      simp [Operation.asks, ha]
    have looks : ∀ r ∈ sub.looks, r ∈ (Operation.processBufferElement e sub).looks :=
      fun r isIn => mem_cons_of_mem _ isIn
    have later (desc : ActionDescriptor) : Neutral (.processBufferElement e sub)
        [(.action desc, .read), (.worker e.scheduler, .write)] (dispatchProgram sub) :=
      dispatch_leads sub looks (by simp)
    have once : Neutral (.processBufferElement e sub) [(.worker e.scheduler, .write)] [] := rfl
    have executed := execution_leads own mem_cons_self ha once later
    exact Leads.holding Request.work ((queue_leads e.scheduler own.free).append executed) trivial
  | deinit scheds =>
    have ends (k) (isIn : k ∈ scheds) :
        Neutral (.deinit scheds) [(.dasMap, .read)]
          ([.access (.count k.domain (some k.id))] ++ deinitProgram k) := by
      have mine : k.domain ∈ (Operation.deinit scheds).domains :=
        mem_map.mpr ⟨k, isIn, rfl⟩
      exact (access_leads (.locked mem_cons_self rfl rfl rfl)).append (deinit_leads mine)
    exact Leads.holding Request.map
      ((Leads.flatMap scheds ends).append (access_leads (.clears rfl rfl))) trivial

end Programs

end ChaosFramework.Dispatcher
