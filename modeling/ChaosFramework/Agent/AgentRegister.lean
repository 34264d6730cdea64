import ChaosFramework.Service.StateMachine

/-!
# The registration of the agent

`AgentRegister` registers the agent with the metadata server and then initialises its workers, all
in the callback of a timer. The state of the registration is changed by the timer, by the ack of the
server and, without the lock, by `start` and `stop`; `stop` waits until the agent is no longer
registered.

The callback sets this state before it deinitialises the workers, and an exception of a worker ends
the process. A worker that is not initialised gives one, and so does the entry without a worker that
looking for `LogWorker` leaves in the map. That entry also ends the process when the map is read for
a registration request.
-/

namespace ChaosFramework.Agent

open Transition Service List Option

inductive AgentRegisterState
  | unregistered
  | startRegistering
  | registering
  | registered
  | startUnregistering
  | unregistering
  | fault
  deriving DecidableEq, Repr

/-- A worker, with the number of times that it has been initialised and deinitialised. -/
structure Worker where
  states : ServiceStates
  /-- Its actions are registered. -/
  registered : Bool
  inits : ℕ
  deinits : ℕ
  deriving DecidableEq, Repr

/-- An entry of `map_worker`, which may have no worker. -/
structure WorkerEntry where
  name : String
  worker : Option Worker
  deriving DecidableEq, Repr

/-- Where the callback of the timer is. In the loops it has the lock of the state. -/
inductive Pass
  | idle
  | initialising
  | deinitialising
  /-- `timeout` has returned. -/
  | ending (stopMe : Bool)
  deriving DecidableEq, Repr

def Pass.locks : Pass → Bool
  | .idle | .ending _ => false
  | .initialising | .deinitialising => true

/-- Where the thread is that calls `start` and `stop`, one after the other. -/
inductive Caller
  | stopped
  /-- `start` has set the state. -/
  | starting
  | running
  /-- `stop` has set the state. -/
  | stopping
  /-- `stop` has added the timer and waits. -/
  | waiting
  deriving DecidableEq, Repr

structure AgentRegister where
  registrationState : AgentRegisterState
  regRetryCounter : ℕ
  /-- The messages that have been sent for the registration. -/
  requests : ℕ
  /-- The entries of the map that the loop has already passed. -/
  visited : List WorkerEntry
  /-- The other entries of the map. -/
  ahead : List WorkerEntry
  timer : Bool
  pass : Pass
  caller : Caller
  /-- The server has accepted the registration that is going on. -/
  accepted : Bool
  /-- The steps that the timer has made while `stop` was waiting. -/
  waited : ℕ
  /-- The workers have been initialised without the server having accepted the registration. -/
  unfounded : Bool
  /-- An exception has left the callback. -/
  aborted : Bool
  deriving DecidableEq, Repr

def ecMdsNodeRegistrationOk : ℤ := 500

def maxRegRetryCounter : ℕ := 5

/-- The access operator of the map. -/
def touch (name : String) : List WorkerEntry → List WorkerEntry
  | [] => [⟨name, none⟩]
  | e :: rest =>
      if e.name = name then e :: rest
      else if e.name < name then e :: touch name rest
      else ⟨name, none⟩ :: e :: rest

/-- The worker has been deinitialised as often as it has been initialised, and its actions are
deregistered. -/
def WorkerEntry.Idle (e : WorkerEntry) : Prop :=
  ∀ w, e.worker = some w →
    w.states.machine = .deinit ∧ w.registered = false ∧ w.inits = w.deinits

/-- There is a worker, and it is idle. -/
def WorkerEntry.Free (e : WorkerEntry) : Prop := e.worker.isSome ∧ e.Idle

/-- There is a worker, and it is initialised. -/
def WorkerEntry.Initialised (e : WorkerEntry) : Prop :=
  e.worker.map (fun w => w.states.machine) = some .init

instance (e : WorkerEntry) : Decidable e.Initialised := inferInstanceAs (Decidable (_ = _))

/-- The worker has been initialised once more than deinitialised, and its actions are registered. -/
def WorkerEntry.Ready (e : WorkerEntry) : Prop :=
  ∃ w, e.worker = some w ∧
    w.states.machine = .init ∧ w.registered = true ∧ w.inits = w.deinits + 1

namespace AgentRegister

inductive Label
  | start
  | startTimer
  | stop
  | stopTimer
  /-- `stop` looks at the state. -/
  | look
  | registrationACK (result : ℤ)
  | timeout
  /-- The callback goes on, with what the worker does that it calls. -/
  | advance (returns : Bool)
  deriving DecidableEq, Repr

/-- The agent with its workers. -/
def init (names : List String) : AgentRegister where
  registrationState := .unregistered
  regRetryCounter := 0
  requests := 0
  visited := []
  ahead := names.map fun name => ⟨name, some ⟨⟨.deinit, .deinit⟩, false, 0, 0⟩⟩
  timer := false
  pass := .idle
  caller := .stopped
  accepted := false
  waited := 0
  unfounded := false
  aborted := false

/-- The entries in the order of the map. -/
def mapWorker (s : AgentRegister) : List WorkerEntry := s.visited ++ s.ahead

/-- `getAgentRegistrationPack` asks every entry of the map for the actions of its worker. -/
def sendNodeRegistration (s : AgentRegister) : AgentRegister :=
  { s with requests := s.requests + 1, aborted := s.mapWorker.any (·.worker.isNone) }

/-- `timeout`, up to the loops. -/
def timeout (s : AgentRegister) : AgentRegister :=
  match s.registrationState with
  | .unregistered => { s with pass := .ending true }
  | .startRegistering => sendNodeRegistration { s with
      registrationState := .registering
      regRetryCounter := 1
      pass := .ending false }
  | .registering =>
      let counted := { s with
        regRetryCounter := (s.regRetryCounter + 1) % 4294967296
        pass := .ending false }
      if s.regRetryCounter % maxRegRetryCounter = 0 then counted.sendNodeRegistration else counted
  | .registered => { s with
      unfounded := s.unfounded || !s.accepted
      pass := .initialising }
  | .startUnregistering | .unregistering => { s with
      registrationState := .unregistered
      regRetryCounter := 0
      pass := .deinitialising }
  | .fault => { s with pass := .ending false }

/-- A `CException` in the loop that initialises the workers is caught. -/
def initFails (s : AgentRegister) (rest : List WorkerEntry) : AgentRegister :=
  { s with
    visited := []
    ahead := s.visited ++ rest
    registrationState := .fault
    pass := .ending true }

/-- The next worker is initialised, and its actions are registered. After the last one the nodes
are started that start on their own. -/
def initialise (s : AgentRegister) (returns : Bool) : AgentRegister :=
  match s.ahead with
  | [] =>
      let started := { s with
        visited := []
        ahead := touch "LogWorker" (touch "ProcessWorker" s.visited)
        pass := .ending true }
      if returns then started else { started with registrationState := .fault }
  | ⟨name, none⟩ :: rest => s.initFails (⟨name, none⟩ :: rest)
  | ⟨name, some w⟩ :: rest =>
      match InizializableService.initImplementation returns w.states with
      | (states, true) => { s with
          visited := s.visited ++ [⟨name, some ⟨states, true, w.inits + 1, w.deinits⟩⟩]
          ahead := rest }
      | (states, false) => s.initFails (⟨name, some { w with states }⟩ :: rest)

/-- A `CException` in the loop that deinitialises the workers is not caught. -/
def deinitFails (s : AgentRegister) (rest : List WorkerEntry) : AgentRegister :=
  { s with ahead := rest, aborted := true }

/-- The actions of the next worker are deregistered, and it is deinitialised. -/
def deinitialise (s : AgentRegister) (returns : Bool) : AgentRegister :=
  match s.ahead with
  | [] => { s with
      visited := []
      ahead := s.visited
      registrationState := .unregistered
      pass := .ending false }
  | ⟨name, none⟩ :: rest => s.deinitFails (⟨name, none⟩ :: rest)
  | ⟨name, some w⟩ :: rest =>
      match InizializableService.deinitImplementation returns w.states with
      | (states, true) => { s with
          visited := s.visited ++ [⟨name, some ⟨states, false, w.inits, w.deinits + 1⟩⟩]
          ahead := rest }
      | (states, false) =>
          s.deinitFails (⟨name, some { w with states, registered := false }⟩ :: rest)

/-- A step of the timer. -/
def tick (s : AgentRegister) : AgentRegister :=
  if s.caller = .waiting then { s with waited := s.waited + 1 } else s

def registrationACK (s : AgentRegister) (result : ℤ) : AgentRegister :=
  if result = ecMdsNodeRegistrationOk then
    { s with
      registrationState := .registered
      accepted := s.accepted || s.registrationState = .registering }
  else { s with registrationState := .unregistered, accepted := false }

/-- The transitions. Nothing happens after an exception has ended the process. -/
def step (s : AgentRegister) (l : Label) : Option AgentRegister :=
  if s.aborted then none
  else
    match l with
    | .start =>
        if s.caller = .stopped then
          some { s with
            registrationState := .startRegistering, caller := .starting, accepted := false }
        else none
    | .startTimer =>
        if s.caller = .starting then some { s with timer := true, caller := .running } else none
    | .stop =>
        if s.caller = .running then
          some { s with
            registrationState := .startUnregistering, caller := .stopping, accepted := false }
        else none
    | .stopTimer =>
        if s.caller = .stopping then
          some { s with timer := true, caller := .waiting, waited := 0 }
        else none
    | .look =>
        if s.caller = .waiting then
          if s.registrationState = .unregistered ∨ s.registrationState = .fault then
            some { s with caller := .stopped }
          else some s
        else none
    | .registrationACK result => if s.pass.locks then none else some (s.registrationACK result)
    | .timeout =>
        if s.timer = true ∧ s.pass = .idle then some s.tick.timeout else none
    | .advance returns =>
        match s.pass with
        | .idle => none
        | .initialising => some (s.tick.initialise returns)
        | .deinitialising => some (s.tick.deinitialise returns)
        | .ending stopMe => some { s.tick with timer := s.timer && !stopMe, pass := .idle }

/-! ### What is required -/

/-- The workers are initialised when the server has accepted the registration, and deinitialised
after `stop`. `stop` returns: as long as the state has not been set the timer is going to run, and
then `stop` only has to look. -/
structure Sound (s : AgentRegister) : Prop where
  intact : s.aborted = false
  founded : s.unfounded = false
  settled : s.caller = .stopped → ∀ e ∈ s.mapWorker, e.Idle
  awake : s.caller = .waiting → s.registrationState ≠ .unregistered →
    s.timer = true ∧ s.pass = .idle
  prompt : s.caller = .waiting → s.mapWorker.length + 2 ≤ s.waited →
    s.registrationState = .unregistered ∧ s.pass ≠ .deinitialising

/-- `stop` is called between the callbacks of the timer, when all the entries of the map are workers
that have been initialised, and it does not look while they are deinitialised. Their `deinit`
returns. The acks come while the agent runs, and a positive one while it registers. -/
def Orderly (s : AgentRegister) : Label → Prop
  | .stop => s.pass = .idle ∧ ∀ e ∈ s.mapWorker, e.Initialised
  | .look => s.pass ≠ .deinitialising
  | .registrationACK result => s.caller = .running ∧
      (result = ecMdsNodeRegistrationOk →
        s.registrationState = .registering ∨ s.registrationState = .registered)
  | .advance returns => s.pass = .deinitialising → returns = true
  | .start | .startTimer | .stopTimer | .timeout => True

instance decidableOrderly (s : AgentRegister) (l : Label) : Decidable (s.Orderly l) := by
  unfold Orderly
  split <;> infer_instance

/-! ### The phases of the registration -/

/-- The agent is registering or registered. The timer only runs on before the workers are
initialised. -/
structure Running (s : AgentRegister) : Prop where
  staying : s.registrationState ≠ .startUnregistering ∧ s.registrationState ≠ .unregistering
  accepted : s.registrationState = .registered → s.accepted = true
  notLeaving : s.pass ≠ .deinitialising
  fresh : s.timer = true → s.pass = .idle ∨ s.pass = .ending false → ∀ e ∈ s.ahead, e.Free
  next : s.pass = .initialising → ∀ e ∈ s.ahead, e.Free

/-- How far the agent has got, and how long `stop` has been waiting. -/
inductive Phase (s : AgentRegister) : Prop
  | settled (caller : s.caller ≠ .starting ∧ s.caller ≠ .running)
      (state : s.registrationState = .unregistered) (unlocked : s.pass.locks = false)
      (ahead : ∀ e ∈ s.ahead, e.Free)
  | starting (caller : s.caller = .starting)
      (state : s.registrationState = .startRegistering ∨ s.registrationState = .registering)
      (unlocked : s.pass.locks = false) (ahead : ∀ e ∈ s.ahead, e.Free)
  | running (caller : s.caller = .running) (running : s.Running)
  /-- `stop` has been called, and the timer is going to run. -/
  | before (caller : s.caller = .stopping ∨ s.caller = .waiting ∧ s.timer = true ∧ s.waited = 0)
      (state : s.registrationState = .startUnregistering) (pass : s.pass = .idle)
      (ahead : ∀ e ∈ s.ahead, e.Ready)
  /-- The workers are being deinitialised. -/
  | during (caller : s.caller = .stopping ∨ s.caller = .waiting ∧ s.waited ≤ s.visited.length + 1)
      (state : s.registrationState = .unregistered) (pass : s.pass = .deinitialising)
      (visited : ∀ e ∈ s.visited, e.Free) (ahead : ∀ e ∈ s.ahead, e.Ready)

structure Consistent (s : AgentRegister) : Prop where
  intact : s.aborted = false
  founded : s.unfounded = false
  healthy : ∀ e ∈ s.mapWorker, e.Idle ∨ e.Ready
  whole : s.pass.locks = false → s.visited = []
  phase : s.Phase

theorem Pass.ne_of_unlocked {p : Pass} (hu : p.locks = false) :
    p ≠ .initialising ∧ p ≠ .deinitialising := by
  cases p with
  | idle | ending => exact ⟨nofun, nofun⟩
  | initialising | deinitialising => cases hu

theorem Consistent.sound {s : AgentRegister} (hc : Consistent s) : Sound s := by
  refine ⟨hc.intact, hc.founded, ?settled, ?awake, ?prompt⟩
  case settled =>
    intro hs
    cases hc.phase with
    | settled caller state hu ahead =>
      rw [mapWorker, hc.whole hu]
      exact fun e isIn => (ahead e isIn).2
    | starting caller | running caller | before caller | during caller => simp [hs] at caller
  case awake =>
    intro hw other
    cases hc.phase with
    | settled caller state | during caller state => exact absurd state other
    | starting caller | running caller => cases caller.symm.trans hw
    | before caller state pass =>
      obtain caller | ⟨-, hi, -⟩ := caller
      · cases caller.symm.trans hw
      · exact ⟨hi, pass⟩
  case prompt =>
    intro hw long
    rw [mapWorker, length_append] at long
    cases hc.phase with
    | settled caller state hu => exact ⟨state, (Pass.ne_of_unlocked hu).2⟩
    | starting caller | running caller => cases caller.symm.trans hw
    | before caller | during caller =>
      obtain caller | caller := caller
      · cases caller.symm.trans hw
      · omega

theorem consistent_init (names : List String) : Consistent (init names) := by
  have free : ∀ e ∈ (init names).ahead, e.Free := by
    intro e isIn
    obtain ⟨name, -, rfl⟩ := List.mem_map.mp isIn
    refine ⟨rfl, fun w hw => ?_⟩
    cases hw
    exact ⟨rfl, rfl, rfl⟩
  exact ⟨rfl, rfl, fun e isIn => .inl (free e isIn).2, fun _ => rfl,
    .settled ⟨nofun, nofun⟩ rfl rfl free⟩

/-! ### The services of the workers -/

section Workers

variable {e : WorkerEntry} {name : String} {states : ServiceStates}

theorem initImplementation_returns (isOff : states.machine = .deinit) :
    InizializableService.initImplementation true states = (⟨.init, .init⟩, true) := by
  cases states
  cases isOff
  rfl

theorem initImplementation_throws (isOff : states.machine = .deinit) :
    InizializableService.initImplementation false states =
      (⟨.deinit, states.serviceState⟩, false) := by
  cases states
  cases isOff
  rfl

theorem deinitImplementation_returns (isOn : states.machine = .init) :
    InizializableService.deinitImplementation true states = (⟨.deinit, .deinit⟩, true) := by
  cases states
  cases isOn
  rfl

theorem idle_none : WorkerEntry.Idle ⟨name, none⟩ := fun _ hw => nomatch hw

/-- An entry that is touched has no worker, or it was there. -/
theorem forall_touch {P : WorkerEntry → Prop} {entries : List WorkerEntry}
    (given : ∀ e ∈ entries, P e) (new : P ⟨name, none⟩) : ∀ e ∈ touch name entries, P e := by
  induction entries with
  | nil => exact forall_mem_singleton.mpr new
  | cons e rest ih =>
    obtain ⟨first, ho⟩ := forall_mem_cons.mp given
    rw [touch]
    split
    · exact given
    split
    · exact forall_mem_cons.mpr ⟨first, ih ho⟩
    · exact forall_mem_cons.mpr ⟨new, given⟩

theorem ready_of_initialised (healthy : e.Idle ∨ e.Ready) (hi : e.Initialised) :
    e.Ready := by
  rcases healthy with idle | ready
  · obtain ⟨w, hw, isOn⟩ := map_eq_some_iff.mp hi
    rw [(idle w hw).1] at isOn
    cases isOn
  · exact ready

end Workers

/-! ### Steps and runs -/

section Steps

variable {s t : AgentRegister}

theorem tick_eq : s.tick = { s with waited := s.tick.waited } := by
  unfold tick
  split <;> rfl

theorem tick_waited (waiting : s.caller = .waiting) : s.tick.waited = s.waited + 1 := by
  rw [tick, if_pos waiting]

theorem Running.ending (running : s.Running) (stopMe : Bool)
    (hf : stopMe = false → ∀ e ∈ s.ahead, e.Free) {ctr : ℕ} :
    Running { s with regRetryCounter := ctr, pass := .ending stopMe } where
  staying := running.staying
  accepted := running.accepted
  notLeaving := nofun
  fresh _ he := by
    rcases he with hi | isEnding
    · cases hi
    · cases isEnding
      exact hf rfl
  next := nofun

section

variable (hc : Consistent s)

include hc

/-- All the entries of the map have a worker that can be asked for its actions. -/
theorem Consistent.sendNodeRegistration (unlocked : s.pass.locks = false)
    (free : ∀ e ∈ s.ahead, e.Free) : Consistent s.sendNodeRegistration := by
  refine { hc with intact := ?intact, phase := ?phase }
  case intact =>
    simp only [AgentRegister.sendNodeRegistration, mapWorker, hc.whole unlocked, nil_append]
    rw [List.any_eq_false]
    intro e isIn
    rw [isNone_iff_eq_none]
    exact isSome_iff_ne_none.mp (free e isIn).1
  case phase =>
    cases hc.phase with
    | settled caller state pass ahead => exact .settled caller state pass ahead
    | starting caller state pass ahead => exact .starting caller state pass ahead
    | running caller running => exact .running caller { running with }
    | before caller state pass ahead => exact .before caller state pass ahead
    | during caller state pass visited ahead => exact .during caller state pass visited ahead

theorem Consistent.timeout_running (hi : s.timer = true) (idle : s.pass = .idle)
    (caller : s.caller = .running) (running : s.Running) : Consistent s.timeout := by
  have hw : s.visited = [] := hc.whole (by rw [idle]; rfl)
  have allFree := running.fresh hi (.inl idle)
  unfold AgentRegister.timeout
  split
  case h_1 =>
    exact { hc with
      whole := fun _ => hw
      phase := .running caller (running.ending true nofun) }
  case h_2 =>
    refine Consistent.sendNodeRegistration { hc with
      whole := fun _ => hw
      phase := .running caller ⟨⟨nofun, nofun⟩, nofun, nofun, ?_, nofun⟩ } rfl allFree
    exact fun _ _ => allFree
  case h_3 =>
    have counted : Consistent { s with
        regRetryCounter := (s.regRetryCounter + 1) % 4294967296, pass := .ending false } :=
      { hc with
        whole := fun _ => hw
        phase := .running caller (running.ending false fun _ => allFree) }
    dsimp only
    split
    · exact counted.sendNodeRegistration rfl allFree
    · exact counted
  case h_7 =>
    exact { hc with
      whole := fun _ => hw
      phase := .running caller (running.ending false fun _ => allFree) }
  case h_4 state =>
    refine { hc with
      founded := ?_
      whole := nofun
      phase := .running caller ⟨running.staying, running.accepted, nofun,
        fun _ he => he.elim nofun nofun, fun _ => allFree⟩ }
    rw [hc.founded, running.accepted state]
    rfl
  case h_5 state => exact absurd state running.staying.1
  case h_6 state => exact absurd state running.staying.2

theorem Consistent.timeout (hi : s.timer = true) (idle : s.pass = .idle) :
    Consistent s.tick.timeout := by
  have hw : s.visited = [] := hc.whole (by rw [idle]; rfl)
  cases hc.phase with
  | settled caller state hu ahead =>
    rw [tick_eq]
    simp only [state]
    exact { hc with whole := fun _ => hw, phase := .settled caller rfl rfl ahead }
  | starting caller state hu ahead =>
    rw [tick_eq]
    have counted (ctr : ℕ) : Consistent { s with
        waited := s.tick.waited
        registrationState := .registering
        regRetryCounter := ctr
        pass := .ending false } :=
      { hc with whole := fun _ => hw, phase := .starting caller (.inr rfl) rfl ahead }
    unfold AgentRegister.timeout
    rcases state with state | state <;> simp only [state]
    · exact (counted 1).sendNodeRegistration rfl ahead
    · split
      · exact (counted _).sendNodeRegistration rfl ahead
      · exact counted _
  | running caller running =>
    rw [tick, if_neg (by rw [caller]; decide)]
    exact hc.timeout_running hi idle caller running
  | before caller state pass ahead =>
    rw [tick_eq]
    simp only [state]
    refine { hc with whole := nofun, phase := .during ?_ rfl rfl ?_ ahead }
    · refine caller.imp_right fun ⟨waiting, _, hn⟩ => ⟨waiting, ?_⟩
      rw [tick_waited waiting, hn]
      exact Nat.succ_le_succ (Nat.zero_le _)
    · rw [hw]
      exact forall_mem_nil _
  | during caller state pass => cases idle.symm.trans pass

/-- The workers are only initialised while the agent runs. -/
theorem Consistent.running_of_initialising (hp : s.pass = .initialising) :
    s.caller = .running ∧ s.Running := by
  cases hc.phase with
  | settled _ _ hu | starting _ _ hu =>
    exact absurd hp (Pass.ne_of_unlocked hu).1
  | running caller running => exact ⟨caller, running⟩
  | before _ _ other | during _ _ other => cases hp.symm.trans other

/-- The loop is left. The workers are healthy, and the timer is stopped. -/
theorem Consistent.leaveLoop (caller : s.caller = .running) (running : s.Running)
    {state : AgentRegisterState} {entries : List WorkerEntry}
    (staying : state = .fault ∨ state = s.registrationState)
    (healthy : ∀ e ∈ entries, e.Idle ∨ e.Ready) :
    Consistent { s with
      visited := [], ahead := entries, registrationState := state, pass := .ending true } := by
  refine { hc with
    healthy := healthy
    whole := fun _ => rfl
    phase := .running caller ⟨?staying, ?accepted, nofun, fun _ he => he.elim nofun nofun, nofun⟩ }
  case staying =>
    rcases staying with rfl | rfl
    · exact ⟨nofun, nofun⟩
    · exact running.staying
  case accepted =>
    rcases staying with rfl | rfl
    · exact nofun
    · exact running.accepted

theorem Consistent.initialise (hp : s.pass = .initialising) (rets : Bool) :
    Consistent (s.initialise rets) := by
  obtain ⟨caller, running⟩ := hc.running_of_initialising hp
  have ha := running.next hp
  have healthy := hc.healthy
  rw [mapWorker, forall_mem_append] at healthy
  unfold AgentRegister.initialise
  split
  next nothing =>
    have touched : ∀ e ∈ touch "LogWorker" (touch "ProcessWorker" s.visited), e.Idle ∨ e.Ready :=
      forall_touch (forall_touch healthy.1 (.inl idle_none)) (.inl idle_none)
    cases rets with
    | true => exact hc.leaveLoop caller running (.inr rfl) touched
    | false => exact hc.leaveLoop caller running (.inl rfl) touched
  next name rest isAhead =>
    rw [isAhead] at healthy
    exact hc.leaveLoop caller running (.inl rfl) (forall_mem_append.mpr healthy)
  next name w rest isAhead =>
    rw [isAhead, forall_mem_cons] at ha healthy
    obtain ⟨isOff, unregistered, hb⟩ := ha.1.2 w rfl
    cases rets with
    | true =>
      rw [initImplementation_returns isOff]
      have ready : WorkerEntry.Ready ⟨name, some ⟨⟨.init, .init⟩, true, w.inits + 1, w.deinits⟩⟩ :=
        ⟨_, rfl, rfl, rfl, congrArg (· + 1) hb⟩
      refine { hc with
        healthy := ?healthy
        whole := fun hu => absurd hp (Pass.ne_of_unlocked hu).1
        phase := .running caller { running with
          fresh := ?fresh
          next := fun _ => ha.2 } }
      case healthy =>
        rw [mapWorker, forall_mem_append, forall_mem_append, forall_mem_singleton]
        exact ⟨⟨healthy.1, .inr ready⟩, healthy.2.2⟩
      case fresh =>
        intro _ he
        rw [show s.pass = .initialising from hp] at he
        exact he.elim nofun nofun
    | false =>
      rw [initImplementation_throws isOff]
      have idle : WorkerEntry.Idle
          ⟨name, some { w with states := ⟨.deinit, w.states.serviceState⟩ }⟩ := by
        rintro _ ⟨⟩
        exact ⟨rfl, unregistered, hb⟩
      exact hc.leaveLoop caller running (.inl rfl) (forall_mem_append.mpr
        ⟨healthy.1, forall_mem_cons.mpr ⟨.inl idle, healthy.2.2⟩⟩)

end

/-- What the loop does with workers that are ready. -/
theorem deinitialise_ready (ready : ∀ e ∈ s.ahead, e.Ready) :
    (s.ahead = [] ∧ s.deinitialise true = { s with
      visited := []
      ahead := s.visited
      registrationState := .unregistered
      pass := .ending false }) ∨
    ∃ first rest e, s.ahead = first :: rest ∧ e.Free ∧
      s.deinitialise true = { s with visited := s.visited ++ [e], ahead := rest } := by
  cases isAhead : s.ahead with
  | nil => exact .inl ⟨rfl, by simp only [deinitialise, isAhead]⟩
  | cons first rest =>
    rw [isAhead, forall_mem_cons] at ready
    obtain ⟨⟨w, hw, isOn, -, hb⟩, -⟩ := ready
    obtain ⟨name, wk⟩ := first
    obtain rfl : wk = some w := hw
    refine .inr ⟨_, rest, ⟨name, some ⟨⟨.deinit, .deinit⟩, false, w.inits, w.deinits + 1⟩⟩, rfl,
      ⟨rfl, ?_⟩, by simp only [deinitialise, isAhead, deinitImplementation_returns isOn]⟩
    rintro _ ⟨⟩
    exact ⟨rfl, rfl, hb⟩

section

variable (hc : Consistent s)

include hc

theorem Consistent.deinitialise (hp : s.pass = .deinitialising) :
    Consistent (s.tick.deinitialise true) := by
  cases hc.phase with
  | settled _ _ hu | starting _ _ hu =>
    exact absurd hp (Pass.ne_of_unlocked hu).2
  | running _ running => exact absurd hp running.notLeaving
  | before _ _ idle => cases hp.symm.trans idle
  | during caller state _ hv ahead =>
    rw [tick_eq]
    rcases deinitialise_ready (s := { s with waited := s.tick.waited }) ahead with
      ⟨-, after⟩ | ⟨first, rest, e, isAhead, idle, after⟩
    · rw [after]
      refine { hc with
        healthy := fun e isIn => .inl (hv e isIn).2
        whole := fun _ => rfl
        phase := .settled ?_ rfl rfl hv }
      obtain caller | ⟨caller, -⟩ := caller <;> rw [caller] <;> decide
    · obtain ⟨-, ready⟩ := forall_mem_cons.mp (isAhead ▸ ahead)
      have visitedToo : ∀ other ∈ s.visited ++ [e], other.Free :=
        forall_mem_append.mpr ⟨hv, forall_mem_singleton.mpr idle⟩
      rw [after]
      refine { hc with
        healthy := forall_mem_append.mpr ⟨fun other isIn => .inl (visitedToo other isIn).2,
          fun other isIn => .inr (ready other isIn)⟩
        whole := fun hu => absurd hp (Pass.ne_of_unlocked hu).2
        phase := .during (caller.imp_right fun ⟨waiting, short⟩ => ⟨waiting, ?_⟩) state hp
          visitedToo ready }
      rw [tick_waited waiting, length_append]
      exact Nat.succ_le_succ short

theorem Consistent.ending {stopMe : Bool} (hp : s.pass = .ending stopMe) :
    Consistent { s.tick with timer := s.timer && !stopMe, pass := .idle } := by
  have hw : s.visited = [] := hc.whole (by rw [hp]; rfl)
  rw [tick_eq]
  cases hc.phase with
  | settled caller state _ ahead =>
    exact { hc with whole := fun _ => hw, phase := .settled caller state rfl ahead }
  | starting caller state _ ahead =>
    exact { hc with whole := fun _ => hw, phase := .starting caller state rfl ahead }
  | running caller running =>
    refine { hc with
      whole := fun _ => hw
      phase := .running caller ⟨running.staying, running.accepted, nofun, fun hi _ => ?_, nofun⟩ }
    obtain ⟨wasInstalled, hg⟩ := Bool.and_eq_true_iff.mp hi
    cases stopMe with
    | true => cases hg
    | false => exact running.fresh wasInstalled (.inr hp)
  | before _ _ other | during _ _ other => cases hp.symm.trans other

theorem Consistent.registrationACK {res : ℤ} (ho : s.Orderly (.registrationACK res)) :
    Consistent (s.registrationACK res) := by
  obtain ⟨hr, hi⟩ := ho
  cases hc.phase with
  | settled caller => exact absurd hr caller.2
  | starting caller | before caller | during caller => simp [hr] at caller
  | running caller running =>
    unfold AgentRegister.registrationACK
    split
    next positive =>
      refine { hc with
        phase := .running caller { running with
          staying := ⟨nofun, nofun⟩
          accepted := fun _ => ?_ } }
      rcases hi positive with state | state
      · simp [state]
      · simp [running.accepted state]
    next =>
      exact { hc with
        phase := .running caller { running with
          staying := ⟨nofun, nofun⟩
          accepted := nofun } }

theorem Consistent.start (hs : s.caller = .stopped) :
    Consistent { s with
      registrationState := .startRegistering, caller := .starting, accepted := false } := by
  cases hc.phase with
  | settled _ _ hu ahead =>
    exact { hc with phase := .starting rfl (.inl rfl) hu ahead }
  | starting caller | running caller | before caller | during caller => simp [hs] at caller

theorem Consistent.startTimer (isStarting : s.caller = .starting) :
    Consistent { s with timer := true, caller := .running } := by
  cases hc.phase with
  | settled caller => exact absurd isStarting caller.1
  | running caller | before caller | during caller => simp [isStarting] at caller
  | starting caller state hu ahead =>
    refine { hc with
      phase := .running rfl ⟨?staying, ?accepted, (Pass.ne_of_unlocked hu).2,
        fun _ _ => ahead, fun _ => ahead⟩ }
    case staying =>
      rcases state with state | state <;> rw [state] <;> decide
    case accepted =>
      intro hr
      rcases state with state | state <;> cases state.symm.trans hr

theorem Consistent.stop (ho : s.Orderly .stop) :
    Consistent { s with
      registrationState := .startUnregistering, caller := .stopping, accepted := false } := by
  obtain ⟨idle, hi⟩ := ho
  have ready (e : WorkerEntry) (isIn : e ∈ s.ahead) : e.Ready := by
    have hm : e ∈ s.mapWorker := mem_append_right _ isIn
    exact ready_of_initialised (hc.healthy e hm) (hi e hm)
  exact { hc with phase := .before (.inl rfl) rfl idle ready }

theorem Consistent.stopTimer (isStopping : s.caller = .stopping) :
    Consistent { s with timer := true, caller := .waiting, waited := 0 } := by
  cases hc.phase with
  | settled _ state hu ahead =>
    exact { hc with phase := .settled ⟨nofun, nofun⟩ state hu ahead }
  | starting caller | running caller => cases caller.symm.trans isStopping
  | before _ state pass ahead =>
    exact { hc with phase := .before (.inr ⟨rfl, rfl, rfl⟩) state pass ahead }
  | during _ state pass hv ahead =>
    exact { hc with
      phase := .during (.inr ⟨rfl, Nat.zero_le _⟩) state pass hv ahead }

theorem Consistent.look (ho : s.Orderly .look) (hw : s.caller = .waiting)
    (seen : s.registrationState = .unregistered ∨ s.registrationState = .fault) :
    Consistent { s with caller := .stopped } := by
  cases hc.phase with
  | settled _ state hu ahead =>
    exact { hc with phase := .settled ⟨nofun, nofun⟩ state hu ahead }
  | starting caller | running caller => cases caller.symm.trans hw
  | before _ state =>
    rw [state] at seen
    exact seen.elim nofun nofun
  | during _ _ pass => exact absurd pass ho

end

theorem Consistent.step (l : Label) (hc : Consistent s) (ho : s.Orderly l)
    (taken : s.step l = some t) : Consistent t := by
  have intact : ¬ s.aborted = true := by
    rw [hc.intact]
    decide
  unfold AgentRegister.step at taken
  rw [if_neg intact] at taken
  cases l with
  | start =>
    obtain ⟨hs, ⟨⟩⟩ := ite_none_right_eq_some.mp taken
    exact hc.start hs
  | startTimer =>
    obtain ⟨isStarting, ⟨⟩⟩ := ite_none_right_eq_some.mp taken
    exact hc.startTimer isStarting
  | stop =>
    obtain ⟨-, ⟨⟩⟩ := ite_none_right_eq_some.mp taken
    exact hc.stop ho
  | stopTimer =>
    obtain ⟨isStopping, ⟨⟩⟩ := ite_none_right_eq_some.mp taken
    exact hc.stopTimer isStopping
  | look =>
    obtain ⟨hw, same⟩ := ite_none_right_eq_some.mp taken
    split at same <;> cases same
    next seen => exact hc.look ho hw seen
    next => exact hc
  | registrationACK res =>
    obtain ⟨-, ⟨⟩⟩ := ite_none_left_eq_some.mp taken
    exact hc.registrationACK ho
  | timeout =>
    obtain ⟨⟨hi, idle⟩, ⟨⟩⟩ := ite_none_right_eq_some.mp taken
    exact hc.timeout hi idle
  | advance rets =>
    simp only at taken
    split at taken <;> cases taken
    next pass =>
      obtain ⟨caller, -⟩ := hc.running_of_initialising pass
      rw [tick, if_neg (by rw [caller]; decide)]
      exact hc.initialise pass rets
    next pass =>
      obtain rfl := ho pass
      exact hc.deinitialise pass
    next stopMe pass => exact hc.ending pass

end Steps

end AgentRegister

end ChaosFramework.Agent
