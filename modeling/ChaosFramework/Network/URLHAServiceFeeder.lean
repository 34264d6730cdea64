import ChaosFramework.Network.FeederSlots

/-!
# The high availability feeder

`URLHAServiceFeeder` extends the feeder with a queue of services that were reported as offline.
`checkForAliveService` goes once through the queue and probes the entries whose time has come. A
service that answers goes to a second queue, from which the next `getService` puts it online; one
that does not answer is tried again later or, with automatic eviction, removed for good. A pass
gets, for every entry, the answer of the checker and the time at which it is scheduled again.

The lock of the queues is released for the probes, and the branch of the eviction does not take it
again: the next iteration unlocks a lock that it does not own, throws, and the entry just taken from
the queue is gone (`lost`).

Two records serve the proofs only: `lost`, and what was done to the index of an entry, with the URL
that was bound to the index at that time (`acts`); so the second queue holds the entries, where the
source keeps their indexes.
-/

namespace ChaosFramework.Network

open Utility Transition Option

structure ServiceRetryInformation where
  serviceIndex : Nat
  serviceUrl : String
  retryTimes : Nat
  retryTimeout : Nat
  deriving DecidableEq, Repr

/-- What the environment does in one iteration of a pass. -/
structure Probe where
  /-- The answer of `serviceOnlineCheck`. -/
  alive : Bool
  /-- The time stamp from which the delay of the next retry is counted. -/
  clock : Nat
  deriving DecidableEq, Repr

inductive ActKind
  | probe | online | evict
  deriving DecidableEq, Repr

/-- Something done to the index of an entry that was created for `serviceUrl`. -/
structure Act where
  kind : ActKind
  serviceIndex : Nat
  serviceUrl : String
  /-- The URL to which the index was bound at that moment. -/
  binding : Option String
  deriving DecidableEq, Repr

/-- The URL for which the slot was occupied, if it still is. -/
def URLServiceFeeder.binding (s : URLServiceFeeder) (idx : Nat) : Option String :=
  if idx ∈ s.occupied then some (s.serviceList idx).url else none

structure URLHAServiceFeeder where
  feeder : URLServiceFeeder
  minRetryTime : Nat
  maxRetryTime : Nat
  retryQueue : List ServiceRetryInformation
  respawnedQueue : List ServiceRetryInformation
  autoEvictionUrl : Bool
  maxServiceRetryForDead : Nat
  acts : List Act
  lost : List ServiceRetryInformation

namespace URLHAServiceFeeder

def init : URLHAServiceFeeder where
  feeder := .init
  minRetryTime := 1000
  maxRetryTime := 10000
  retryQueue := []
  respawnedQueue := []
  autoEvictionUrl := false
  maxServiceRetryForDead := 3
  acts := []
  lost := []

@[simps] def pushRetry (s : URLHAServiceFeeder) (sri : ServiceRetryInformation) :
    URLHAServiceFeeder :=
  { s with retryQueue := s.retryQueue ++ [sri] }

@[simps] def pushRespawned (s : URLHAServiceFeeder) (sri : ServiceRetryInformation) :
    URLHAServiceFeeder :=
  { s with respawnedQueue := s.respawnedQueue ++ [sri] }

@[simps] def setFeeder (s : URLHAServiceFeeder) (feeder : URLServiceFeeder) :
    URLHAServiceFeeder :=
  { s with feeder := feeder }

/-- Record what is done to the index of an entry. -/
@[simps] def record (s : URLHAServiceFeeder) (kind : ActKind) (sri : ServiceRetryInformation) :
    URLHAServiceFeeder :=
  { s with acts := s.acts ++
      [⟨kind, sri.serviceIndex, sri.serviceUrl, s.feeder.binding sri.serviceIndex⟩] }

/-! ### The operations -/

def addURL (s : URLHAServiceFeeder) (url : String) (priority : Nat)
    (service : Option ServicePtr) : URLHAServiceFeeder :=
  s.setFeeder (s.feeder.addURL url priority service).1

/-- `removeURL`; a URL that is not in the map is reported by an exception. -/
def removeURL (s : URLHAServiceFeeder) (url : String) : Option URLHAServiceFeeder :=
  match s.feeder.mappingUrlIndex.findByLeftKey url with
  | none => some s
  | some idx => (s.feeder.removeURL idx).map s.setFeeder

/-- The queues are not cleared. -/
def clear (s : URLHAServiceFeeder) : URLHAServiceFeeder := s.setFeeder s.feeder.clear

/-- The loop of `getService` over the services that came back. -/
def enableRespawned (s : URLHAServiceFeeder) :
    List ServiceRetryInformation → Option URLHAServiceFeeder
  | [] => some { s with respawnedQueue := [] }
  | sri :: rest =>
      (s.feeder.setURLOnline sri.serviceIndex).bind fun feeder =>
        enableRespawned ((s.record .online sri).setFeeder feeder) rest

def getService (s : URLHAServiceFeeder) : Option (URLHAServiceFeeder × Option ServicePtr) :=
  (s.enableRespawned s.respawnedQueue).map fun s =>
    (s.setFeeder s.feeder.getService.1, s.feeder.getService.2)

/-- `setURLAsOffline` at the given time. An unknown URL raises before anything is done. -/
def setURLAsOffline (s : URLHAServiceFeeder) (remoteAddress : String) (now : Nat) :
    Option URLHAServiceFeeder :=
  match s.feeder.mappingUrlIndex.findByLeftKey remoteAddress with
  | none => some s
  | some idx => (s.feeder.setURLOffline idx).map fun feeder =>
      (s.setFeeder feeder).pushRetry ⟨idx, remoteAddress, 0, now + s.minRetryTime⟩

/-- `setIndexAsOffline`. Here the slot is offline already when an index without URL raises. -/
def setIndexAsOffline (s : URLHAServiceFeeder) (remoteIndex now : Nat) :
    Option URLHAServiceFeeder :=
  (s.feeder.setURLOffline remoteIndex).map fun feeder =>
    match feeder.mappingUrlIndex.findByRightKey remoteIndex with
    | none => s.setFeeder feeder
    | some url =>
        (s.setFeeder feeder).pushRetry ⟨remoteIndex, url, 0, now + s.minRetryTime⟩

/-- The entry is probed one more time. -/
def countRetry (sri : ServiceRetryInformation) : ServiceRetryInformation :=
  { sri with retryTimes := (sri.retryTimes + 1) % 2 ^ 32 }

/-- The delay after the given number of retries. The maximum is a constant, not the one that
`setRetryTime` sets. -/
def retryDelay (s : URLHAServiceFeeder) (retryTimes : Nat) : Nat :=
  retryTimes * s.minRetryTime % 2 ^ 32 % 10000

/-- Is a service that does not answer to be evicted? The remainder modulo zero is not
defined. -/
def declaresDead (s : URLHAServiceFeeder) (retryTimes : Nat) : Option Bool :=
  if s.autoEvictionUrl then
    if s.maxServiceRetryForDead = 0 then none
    else some (decide (retryTimes % s.maxServiceRetryForDead = 0))
  else some false

/-- The body of the loop of `checkForAliveService` after the lock has been released, with
whether it is owned at the end. -/
def visit (s : URLHAServiceFeeder) (currentTs : Nat) (sri : ServiceRetryInformation)
    (probe : Probe) : Option (URLHAServiceFeeder × Bool) :=
  if sri.retryTimeout ≤ currentTs then
    let sri := countRetry sri
    let s := s.record .probe sri
    if probe.alive then some (s.pushRespawned sri, true)
    else
      match s.declaresDead sri.retryTimes with
      | none => none
      | some true =>
          -- the lock is not taken again
          (s.feeder.removeURL sri.serviceIndex).map fun feeder =>
            ((s.record .evict sri).setFeeder feeder, false)
      | some false =>
          let timeout := probe.clock + s.retryDelay sri.retryTimes
          some (s.pushRetry { sri with retryTimeout := timeout }, true)
  else some (s.pushRetry sri, true)

/-- The loop of `checkForAliveService`. Its counter is the number of probes that are left. -/
def checkLoop (currentTs : Nat) (s : URLHAServiceFeeder) (owned : Bool) :
    List Probe → Option URLHAServiceFeeder
  | [] => some s
  | probe :: probes =>
      match s.retryQueue with
      | [] => some s
      | sri :: rest =>
          let s := { s with retryQueue := rest }
          if owned then
            (s.visit currentTs sri probe).bind fun visited =>
              checkLoop currentTs visited.1 visited.2 probes
          else some { s with lost := s.lost ++ [sri] }

def checkForAliveService (s : URLHAServiceFeeder) (currentTs : Nat) (probes : List Probe) :
    Option URLHAServiceFeeder :=
  if probes.length = s.retryQueue.length then checkLoop currentTs s true probes else none

inductive Action
  | addURL (url : String) (priority : Nat) (service : Option ServicePtr)
  | removeURL (url : String)
  | clear
  | getService
  | setURLAsOffline (remoteAddress : String) (now : Nat)
  | setIndexAsOffline (remoteIndex now : Nat)
  | checkForAliveService (currentTs : Nat) (probes : List Probe)
  | setAutoEvitionForDeadUrl (autoEvictionUrl : Bool)
  | setMaxRetryForDeadDeclaration (maxRetry : Nat)
  | setRetryTime (minRetryTime maxRetryTime : Nat)
  deriving DecidableEq, Repr

def step (s : URLHAServiceFeeder) : Action → Option URLHAServiceFeeder
  | .addURL url priority service => some (s.addURL url priority service)
  | .removeURL url => s.removeURL url
  | .clear => some s.clear
  | .getService => s.getService.map (·.1)
  | .setURLAsOffline remoteAddress now => s.setURLAsOffline remoteAddress now
  | .setIndexAsOffline remoteIndex now => s.setIndexAsOffline remoteIndex now
  | .checkForAliveService currentTs probes => s.checkForAliveService currentTs probes
  | .setAutoEvitionForDeadUrl autoEvictionUrl => some { s with autoEvictionUrl := autoEvictionUrl }
  | .setMaxRetryForDeadDeclaration maxRetry => some { s with maxServiceRetryForDead := maxRetry }
  | .setRetryTime minRetryTime maxRetryTime =>
      some { s with minRetryTime := minRetryTime, maxRetryTime := maxRetryTime }

variable {s t : URLHAServiceFeeder} {sri : ServiceRetryInformation}

/-! ### What a call does -/

theorem removeURL_cases {url : String} (taken : s.removeURL url = some t) :
    t = s ∨ ∃ idx feeder, s.feeder.mappingUrlIndex.findByLeftKey url = some idx ∧
      s.feeder.removeURL idx = some feeder ∧ t = s.setFeeder feeder := by
  unfold removeURL at taken
  split at taken
  next => exact .inl (Option.some.inj taken).symm
  next idx known =>
    obtain ⟨feeder, hr, rfl⟩ := map_eq_some_iff.mp taken
    exact .inr ⟨idx, feeder, known, hr, rfl⟩

theorem setURLAsOffline_cases {raddr : String} {now : Nat}
    (taken : s.setURLAsOffline raddr now = some t) :
    t = s ∨ ∃ idx feeder, s.feeder.mappingUrlIndex.findByLeftKey raddr = some idx ∧
      s.feeder.setURLOffline idx = some feeder ∧
      t = (s.setFeeder feeder).pushRetry ⟨idx, raddr, 0, now + s.minRetryTime⟩ := by
  unfold setURLAsOffline at taken
  split at taken
  next => exact .inl (Option.some.inj taken).symm
  next idx known =>
    obtain ⟨feeder, offline, rfl⟩ := map_eq_some_iff.mp taken
    exact .inr ⟨idx, feeder, known, offline, rfl⟩

theorem setIndexAsOffline_cases {rix now : Nat} (taken : s.setIndexAsOffline rix now = some t) :
    ∃ feeder, s.feeder.setURLOffline rix = some feeder ∧
      (feeder.mappingUrlIndex.findByRightKey rix = none ∧ t = s.setFeeder feeder ∨
        ∃ url, feeder.mappingUrlIndex.findByRightKey rix = some url ∧
          t = (s.setFeeder feeder).pushRetry ⟨rix, url, 0, now + s.minRetryTime⟩) := by
  obtain ⟨feeder, offline, made⟩ := map_eq_some_iff.mp taken
  refine ⟨feeder, offline, ?_⟩
  split at made
  next unknown => exact .inl ⟨unknown, made.symm⟩
  next url known => exact .inr ⟨url, known, made.symm⟩

theorem getService_cases (taken : s.getService.map (·.1) = some t) :
    ∃ enabled, s.enableRespawned s.respawnedQueue = some enabled ∧
      t = enabled.setFeeder enabled.feeder.getService.1 := by
  obtain ⟨⟨next, srv⟩, got, rfl⟩ := map_eq_some_iff.mp taken
  obtain ⟨enabled, hd, made⟩ := map_eq_some_iff.mp got
  exact ⟨enabled, hd, (Prod.mk.inj made).1.symm⟩

variable {currentTs : Nat} {probes : List Probe}

theorem checkForAliveService_cases (taken : s.checkForAliveService currentTs probes = some t) :
    probes.length = s.retryQueue.length ∧ checkLoop currentTs s true probes = some t := by
  unfold checkForAliveService at taken
  split at taken
  next size => exact ⟨size, taken⟩
  next => cases taken

/-! ### What an iteration of a pass does -/

/-- The iteration finds the service of the entry dead and evicts it. -/
def Evicts (s : URLHAServiceFeeder) (currentTs : Nat) (sri : ServiceRetryInformation)
    (probe : Probe) : Prop :=
  sri.retryTimeout ≤ currentTs ∧ probe.alive = false ∧
    s.declaresDead (countRetry sri).retryTimes = some true

instance (s : URLHAServiceFeeder) (currentTs : Nat) (sri : ServiceRetryInformation)
    (probe : Probe) : Decidable (s.Evicts currentTs sri probe) := by
  unfold Evicts
  infer_instance

/-- The four ways through the body of the loop. -/
inductive Visited (s : URLHAServiceFeeder) (currentTs : Nat) (sri : ServiceRetryInformation)
    (probe : Probe) : URLHAServiceFeeder → Bool → Prop
  | waits (early : currentTs < sri.retryTimeout) :
      Visited s currentTs sri probe (s.pushRetry sri) true
  | respawns (alive : probe.alive = true) :
      Visited s currentTs sri probe
        ((s.record .probe (countRetry sri)).pushRespawned (countRetry sri)) true
  | evicts (feeder : URLServiceFeeder) (evicted : s.Evicts currentTs sri probe)
      (removed : s.feeder.removeURL sri.serviceIndex = some feeder) :
      Visited s currentTs sri probe
        (((s.record .probe (countRetry sri)).record .evict (countRetry sri)).setFeeder feeder)
        false
  | postpones (timeout : Nat) (spared : ¬ s.Evicts currentTs sri probe) :
      Visited s currentTs sri probe
        ((s.record .probe (countRetry sri)).pushRetry
          { countRetry sri with retryTimeout := timeout }) true

variable {probe : Probe} {owned : Bool} {act : Action}

theorem visit_cases (hv : s.visit currentTs sri probe = some (t, owned)) :
    Visited s currentTs sri probe t owned := by
  unfold visit at hv
  split at hv
  next due =>
    dsimp only at hv
    split at hv
    next alive =>
      obtain ⟨rfl, rfl⟩ := Prod.mk.inj (Option.some.inj hv)
      exact .respawns alive
    next dead =>
      have silent : probe.alive = false := Bool.eq_false_iff.mpr dead
      split at hv
      -- A dead limit of zero: the remainder is not defined.
      next => cases hv
      next declared =>
        obtain ⟨feeder, hr, made⟩ := map_eq_some_iff.mp hv
        obtain ⟨rfl, rfl⟩ := Prod.mk.inj made
        exact .evicts feeder ⟨due, silent, declared⟩ hr
      next declared =>
        obtain ⟨rfl, rfl⟩ := Prod.mk.inj (Option.some.inj hv)
        refine .postpones _ fun evicted => ?_
        have same := declared.symm.trans evicted.2.2
        cases same
  next early =>
    obtain ⟨rfl, rfl⟩ := Prod.mk.inj (Option.some.inj hv)
    exact .waits (Nat.lt_of_not_le early)

/-- The lock is lost by the evictions and by nothing else. -/
theorem Visited.owned_iff (hv : Visited s currentTs sri probe t owned) :
    owned = true ↔ ¬ s.Evicts currentTs sri probe := by
  cases hv with
  | waits early => simpa using fun evicted => Nat.not_le.mpr early evicted.1
  | respawns alive => simp [Evicts, alive]
  | evicts feeder evicted hr => simpa using evicted
  | postpones tmo spared => simpa using spared

/-- The settings do not change during a pass. -/
theorem Visited.evicts_iff (hv : Visited s currentTs sri probe t owned)
    (other : ServiceRetryInformation) (next : Probe) :
    t.Evicts currentTs other next ↔ s.Evicts currentTs other next := by
  cases hv <;> exact Iff.rfl

/-! ### The calls of the feeder below -/

/-- The second feeder results from the first by calls other than `clear`. -/
def Reaches : URLServiceFeeder → URLServiceFeeder → Prop :=
  Relation.ReflTransGen fun f g => ∃ call, call ≠ .clear ∧ f.step call = some g

section Reaches

variable {f g : URLServiceFeeder} {idx : Nat}

theorem Reaches.of_call (call : URLServiceFeeder.Action) (other : call ≠ .clear)
    (taken : f.step call = some g) : Reaches f g :=
  .single ⟨call, other, taken⟩

theorem Reaches.of_removeURL (hr : f.removeURL idx = some g) : Reaches f g :=
  .of_call (.removeURL idx) (by simp) hr

theorem Reaches.of_setURLOffline (taken : f.setURLOffline idx = some g) : Reaches f g :=
  .of_call (.setURLOffline idx) (by simp) taken

theorem Reaches.of_setURLOnline (taken : f.setURLOnline idx = some g) : Reaches f g :=
  .of_call (.setURLOnline idx) (by simp) taken

theorem Reaches.allotted (hr : Reaches f g) (ha : f.Allotted) : g.Allotted := by
  induction hr with
  | refl => exact ha
  | tail _ taken ih =>
    obtain ⟨call, -, hs⟩ := taken
    exact URLServiceFeeder.step_allotted ih hs

end Reaches

theorem Visited.reaches (hv : Visited s currentTs sri probe t owned) :
    Reaches s.feeder t.feeder := by
  cases hv with
  | waits _ | respawns _ | postpones _ _ => exact .refl
  | evicts feeder evicted hr => exact .of_removeURL hr

theorem checkLoop_reaches
    (taken : checkLoop currentTs s owned probes = some t) : Reaches s.feeder t.feeder := by
  induction probes generalizing s owned with
  | nil =>
    cases taken
    exact .refl
  | cons probe probes ih =>
    unfold checkLoop at taken
    split at taken
    next =>
      cases taken
      exact .refl
    next sri rest queue =>
      split at taken
      next =>
        obtain ⟨⟨next, owned⟩, visited, hc⟩ := bind_eq_some_iff.mp taken
        exact Relation.ReflTransGen.trans (visit_cases visited).reaches (ih hc)
      next =>
        cases taken
        exact .refl

theorem enableRespawned_reaches {queue : List ServiceRetryInformation}
    (taken : s.enableRespawned queue = some t) : Reaches s.feeder t.feeder := by
  induction queue generalizing s with
  | nil =>
    cases taken
    exact .refl
  | cons sri rest ih =>
    obtain ⟨feeder, online, hc⟩ := bind_eq_some_iff.mp taken
    exact Relation.ReflTransGen.trans (Reaches.of_setURLOnline online) (ih hc)

/-- The feeder below is used through its operations only. -/
theorem step_reaches (taken : step s act = some t)
    (other : act ≠ .clear) : Reaches s.feeder t.feeder := by
  cases act with
  | addURL url prio srv =>
    cases taken
    exact .of_call (.addURL url prio srv) (by simp) rfl
  | removeURL url =>
    rcases removeURL_cases taken with rfl | ⟨idx, feeder, -, hr, rfl⟩
    · exact .refl
    · exact .of_removeURL hr
  | clear => exact absurd rfl other
  | getService =>
    obtain ⟨enabled, hd, rfl⟩ := getService_cases taken
    exact Relation.ReflTransGen.trans (enableRespawned_reaches hd)
      (Reaches.of_call .getService (by simp) rfl)
  | setURLAsOffline raddr now =>
    rcases setURLAsOffline_cases taken with rfl | ⟨idx, feeder, -, offline, rfl⟩
    · exact .refl
    · exact .of_setURLOffline offline
  | setIndexAsOffline rix now =>
    obtain ⟨feeder, offline, ⟨-, rfl⟩ | ⟨url, -, rfl⟩⟩ := setIndexAsOffline_cases taken
    · exact .of_setURLOffline offline
    · exact .of_setURLOffline offline
  | checkForAliveService currentTs probes =>
    exact checkLoop_reaches (checkForAliveService_cases taken).2
  | setAutoEvitionForDeadUrl _ | setMaxRetryForDeadDeclaration _ | setRetryTime _ _ =>
    cases taken
    exact .refl

theorem step_feeder_allotted (ha : s.feeder.Allotted)
    (taken : step s act = some t) : t.feeder.Allotted := by
  obtain rfl | clears := eq_or_ne act .clear
  · cases taken
    exact ha.clear
  · exact (step_reaches taken clears).allotted ha

/-! ### The time of the next check -/

/-- The division of the eviction is defined, and unless the service is evicted the number of retries
and the minimum give a delay between the minimum and the maximum. -/
structure Paced (s : URLHAServiceFeeder) (sri : ServiceRetryInformation) : Prop where
  divides : s.autoEvictionUrl = true → s.maxServiceRetryForDead ≠ 0
  between : ¬ (s.autoEvictionUrl = true ∧
      (sri.retryTimes + 1) % 2 ^ 32 % s.maxServiceRetryForDead = 0) →
    s.minRetryTime ≤ (sri.retryTimes + 1) % 2 ^ 32 * s.minRetryTime % 2 ^ 32 % 10000 ∧
      (sri.retryTimes + 1) % 2 ^ 32 * s.minRetryTime % 2 ^ 32 % 10000 ≤ s.maxRetryTime

/-- A failed check either finds the service dead or schedules the next one between the minimum and
the maximum. -/
def Reschedules (s : URLHAServiceFeeder) (currentTs : Nat) (sri : ServiceRetryInformation)
    (probe : Probe) : Prop :=
  ∃ dead, s.declaresDead (countRetry sri).retryTimes = some dead ∧ (dead = false →
    ∃ delay, s.minRetryTime ≤ delay ∧ delay ≤ s.maxRetryTime ∧
      s.visit currentTs sri probe = some ((s.record .probe (countRetry sri)).pushRetry
        { countRetry sri with retryTimeout := probe.clock + delay }, true))

theorem declaresDead_eq_some {retryTimes : Nat} {dead : Bool} :
    s.declaresDead retryTimes = some dead ↔
      (s.autoEvictionUrl = true → s.maxServiceRetryForDead ≠ 0) ∧
        decide (s.autoEvictionUrl = true ∧ retryTimes % s.maxServiceRetryForDead = 0) = dead := by
  unfold declaresDead
  split
  next evicts => simp [evicts]
  next spares => simp [spares]

/-- The delay of a service that is not evicted is the one of `retryDelay`. -/
theorem visit_silent_eq_some (due : sri.retryTimeout ≤ currentTs) (silent : probe.alive = false)
    (spared : s.declaresDead (countRetry sri).retryTimes = some false) {delay : Nat} :
    s.visit currentTs sri probe = some ((s.record .probe (countRetry sri)).pushRetry
        { countRetry sri with retryTimeout := probe.clock + delay }, true) ↔
      s.retryDelay (countRetry sri).retryTimes = delay := by
  have hr : (s.record .probe (countRetry sri)).declaresDead (countRetry sri).retryTimes =
      some false := spared
  have visited : s.visit currentTs sri probe = some ((s.record .probe (countRetry sri)).pushRetry
      { countRetry sri with
        retryTimeout := probe.clock + s.retryDelay (countRetry sri).retryTimes }, true) := by
    unfold visit
    rw [if_pos due]
    rw [if_neg (by simp [silent]), hr]
    rfl
  rw [visited]
  constructor
  · intro same
    have queues := congrArg retryQueue (Prod.mk.inj (Option.some.inj same)).1
    have entries := List.singleton_inj.mp (List.append_cancel_left queues)
    exact Nat.add_left_cancel (congrArg ServiceRetryInformation.retryTimeout entries)
  · rintro rfl
    rfl

/-- A failed check is followed by the next one between the minimum and the maximum exactly when the
division is defined and the remainder modulo the constant is between them. -/
theorem failed_check_delay (due : sri.retryTimeout ≤ currentTs) (silent : probe.alive = false) :
    s.Reschedules currentTs sri probe ↔ s.Paced sri := by
  constructor
  · rintro ⟨dead, declared, scheduled⟩
    obtain ⟨divides, hd⟩ := declaresDead_eq_some.mp declared
    refine ⟨divides, fun spared => ?_⟩
    obtain rfl : false = dead := (decide_eq_false spared).symm.trans hd
    obtain ⟨delay, least, most, visited⟩ := scheduled rfl
    obtain rfl := (visit_silent_eq_some due silent declared).mp visited
    exact ⟨least, most⟩
  · intro paced
    refine ⟨_, declaresDead_eq_some.mpr ⟨paced.divides, rfl⟩, fun spared => ?_⟩
    have declared := declaresDead_eq_some.mpr ⟨paced.divides, spared⟩
    obtain ⟨least, most⟩ := paced.between (of_decide_eq_false spared)
    exact ⟨_, least, most, (visit_silent_eq_some due silent declared).mpr rfl⟩

/-- The eighth retry, whose delay is beyond the constant. -/
theorem failed_check_delay_eighth :
    let s := { init with minRetryTime := 1500, maxRetryTime := 30000 }
    s.Reschedules 9000 ⟨0, "a", 7, 8000⟩ ⟨false, 9001⟩ ∧
      s.visit 9000 ⟨0, "a", 7, 8000⟩ ⟨false, 9001⟩ =
        some ((s.record .probe ⟨0, "a", 8, 8000⟩).pushRetry ⟨0, "a", 8, 11001⟩, true) :=
  ⟨(failed_check_delay (by decide) rfl).mpr ⟨nofun, by decide⟩, rfl⟩

/-- With a minimum of twenty seconds the service is checked again at once, and a limit of zero
checks before the eviction ends in a division by zero. -/
theorem checked_at_once_or_undefined :
    (execute step init [.addURL "a" 0 (some 1), .setRetryTime 20000 30000, .setURLAsOffline "a" 0,
      .checkForAliveService 20000 [⟨false, 20001⟩]]).map (·.retryQueue) =
        some [⟨0, "a", 1, 20001⟩] ∧
    execute step init [.addURL "a" 0 (some 1), .setAutoEvitionForDeadUrl true,
      .setMaxRetryForDeadDeclaration 0, .setURLAsOffline "a" 0,
      .checkForAliveService 1000 [⟨false, 1001⟩]] = none :=
  ⟨rfl, rfl⟩

end URLHAServiceFeeder

end ChaosFramework.Network
