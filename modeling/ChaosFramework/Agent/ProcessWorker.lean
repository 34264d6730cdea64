import Mathlib.Data.List.Nodup
import Mathlib.Order.Basic
import ChaosFramework.Transition
import ChaosFramework.UniqueIndex

/-!
# The processes of the agent

`ProcessWorker` launches, stops and restarts the processes of the nodes on request, and a timer
launches those again that are to be kept alive and have ended. That a process is not running is
checked before it is launched, but nothing keeps another thread from launching it in between, and
`stopNode` takes a node out of the map of the timer after it has ended the process. Calls for the
same node have to be kept apart, from each other and from the timer (`safe_of_apart`).
-/

namespace ChaosFramework.Agent

open Transition UniqueIndex List Option Function

/-- What a call does next. -/
inductive NodeStep
  /-- `launchNode` checks the process. -/
  | check
  /-- `launchProcess` checks the process. -/
  | launch
  | exec
  | add
  /-- `stopNode` checks the process. -/
  | stopCheck
  | stopQuit
  | stopRemove
  | restartRemove
  | restartCheck
  | restartQuit
  /-- The loop of `restartNode`, which waits as long as the process does not run. -/
  | poll (retry : ℕ) (tryToStop : Bool)
  | kill (retry : ℕ)
  | recheck
  deriving DecidableEq, Repr

/-- A call of `launchNode`, `stopNode` or `restartNode` for a node. -/
structure NodeCall where
  node : ℕ
  keepAlive : Bool
  next : NodeStep
  deriving DecidableEq, Repr

/-- What becomes of a process that is launched. -/
inductive Launch
  | started
  /-- The error is only logged. -/
  | failed
  | threw
  deriving DecidableEq, Repr

/-- Where the timer is with the first of the remaining nodes. -/
inductive RespawnStep
  | check
  | launch
  | exec
  deriving DecidableEq, Repr

/-- A callback of the timer, which shares the lock of the map. -/
structure RespawnPass where
  next : RespawnStep
  remaining : List ℕ
  deriving DecidableEq, Repr

structure ProcessWorker where
  /-- The number of running processes of a node. -/
  alive : ℕ → ℕ
  mapRespawnableNode : List ℕ
  calls : List NodeCall
  pass : Option RespawnPass
  /-- `stopNode` has returned, and the node has not been launched or restarted since. -/
  stopped : ℕ → Bool

namespace ProcessWorker

inductive Label
  | launchNode (node : ℕ) (keepAlive : Bool)
  | stopNode (node : ℕ)
  | restartNode (node : ℕ) (keepAlive : Bool)
  | advance (call : NodeCall) (launch : Launch)
  | timeout
  | respawn (launch : Launch)
  /-- A process ends. -/
  | exit (node : ℕ)
  deriving DecidableEq, Repr

def init : ProcessWorker where
  alive _ := 0
  mapRespawnableNode := []
  calls := []
  pass := none
  stopped _ := false

def setAlive (s : ProcessWorker) (node count : ℕ) : ProcessWorker :=
  { s with alive := update s.alive node count }

/-- A call goes on. -/
def proceed (s : ProcessWorker) (c : NodeCall) (next : NodeStep) : ProcessWorker :=
  { s with calls := { c with next } :: s.calls.erase c }

/-- A call returns. -/
def finish (s : ProcessWorker) (c : NodeCall) : ProcessWorker :=
  { s with calls := s.calls.erase c }

/-- The process has been launched, or it was running. -/
def launched (s : ProcessWorker) (c : NodeCall) : ProcessWorker :=
  if c.keepAlive then s.proceed c .add else s.finish c

def addToRespawn (s : ProcessWorker) (node : ℕ) : ProcessWorker :=
  { s with mapRespawnableNode := if node ∈ s.mapRespawnableNode then s.mapRespawnableNode
    else node :: s.mapRespawnableNode }

def removeToRespawn (s : ProcessWorker) (node : ℕ) : ProcessWorker :=
  { s with mapRespawnableNode := s.mapRespawnableNode.filter (· ≠ node) }

/-- A step of a call. The map is only changed when the timer does not have its lock. -/
def advance (s : ProcessWorker) (c : NodeCall) (launch : Launch) : Option ProcessWorker :=
  match c.next with
  | .check => some (if s.alive c.node ≠ 0 then s.launched c else s.proceed c .launch)
  | .launch => some (if s.alive c.node ≠ 0 then s.launched c else s.proceed c .exec)
  | .exec =>
      match launch with
      | .started => some ((s.launched c).setAlive c.node (s.alive c.node + 1))
      | .failed => some (s.launched c)
      | .threw => some (s.finish c)
  | .add => if s.pass = none then some ((s.finish c).addToRespawn c.node) else none
  | .stopCheck => some (s.proceed c (if s.alive c.node ≠ 0 then .stopQuit else .stopRemove))
  | .stopQuit => some ((s.proceed c .stopRemove).setAlive c.node 0)
  | .stopRemove =>
      if s.pass = none then
        some { (s.finish c).removeToRespawn c.node with
          stopped := update s.stopped c.node true }
      else none
  | .restartRemove =>
      if s.pass = none then some ((s.proceed c .restartCheck).removeToRespawn c.node) else none
  | .restartCheck => some (s.proceed c (if s.alive c.node ≠ 0 then .restartQuit else .recheck))
  | .restartQuit => some ((s.proceed c (.poll 0 true)).setAlive c.node 0)
  | .poll retry tryToStop =>
      if s.alive c.node ≠ 0 then some (s.finish c)
      else if tryToStop = false then some (s.proceed c .recheck)
      else if 3 < retry then some (s.proceed c (.kill (retry + 1)))
      else some (s.proceed c (.poll (retry + 1) true))
  | .kill retry => some ((s.proceed c (.poll retry false)).setAlive c.node 0)
  | .recheck => some (if s.alive c.node ≠ 0 then s.finish c else s.proceed c .launch)

/-- A step of the timer. -/
def respawn (s : ProcessWorker) (p : RespawnPass) (launch : Launch) : ProcessWorker :=
  match p.remaining, p.next with
  | [], _ => { s with pass := none }
  | node :: rest, .check =>
      if s.alive node ≠ 0 then { s with pass := some ⟨.check, rest⟩ }
      else { s with pass := some ⟨.launch, node :: rest⟩ }
  | node :: rest, .launch =>
      if s.alive node ≠ 0 then { s with pass := some ⟨.check, rest⟩ }
      else { s with pass := some ⟨.exec, node :: rest⟩ }
  | node :: rest, .exec =>
      match launch with
      | .started => ({ s with pass := some ⟨.check, rest⟩ }).setAlive node (s.alive node + 1)
      | .failed => { s with pass := some ⟨.check, rest⟩ }
      | .threw => { s with pass := none }

/-- A call begins. -/
def call (s : ProcessWorker) (c : NodeCall) (stopped : Bool) : ProcessWorker :=
  { s with calls := c :: s.calls, stopped := update s.stopped c.node stopped }

def step (s : ProcessWorker) : Label → Option ProcessWorker
  | .launchNode node keepAlive => some (s.call ⟨node, keepAlive, .check⟩ false)
  | .stopNode node => some (s.call ⟨node, false, .stopCheck⟩ (s.stopped node))
  | .restartNode node keepAlive => some (s.call ⟨node, keepAlive, .restartRemove⟩ false)
  | .advance c launch => if c ∈ s.calls then s.advance c launch else none
  | .timeout =>
      if s.pass = none then some { s with pass := some ⟨.check, s.mapRespawnableNode⟩ } else none
  | .respawn launch => s.pass.map fun p => s.respawn p launch
  | .exit node => some (s.setAlive node (s.alive node - 1))

/-- A node that has been stopped is not running and the timer is not going to launch it, and no node
is running twice. -/
structure Safe (s : ProcessWorker) : Prop where
  single : ∀ node, s.alive node ≤ 1
  halted : ∀ node, s.stopped node = true → s.alive node = 0
  unattended : ∀ node, s.stopped node = true → ∀ p, s.pass = some p → node ∉ p.remaining

/-- A call for a node does not overlap another one, nor a callback of the timer that is to look at
the node. -/
def Free (s : ProcessWorker) (node : ℕ) : Prop :=
  (∀ c ∈ s.calls, c.node ≠ node) ∧ ∀ p ∈ s.pass.toList, node ∉ p.remaining

instance (s : ProcessWorker) (node : ℕ) : Decidable (s.Free node) :=
  inferInstanceAs (Decidable (_ ∧ _))

def Apart (s : ProcessWorker) : Label → Prop
  | .launchNode node _ | .stopNode node | .restartNode node _ => s.Free node
  | .timeout => ∀ node ∈ s.mapRespawnableNode, ∀ c ∈ s.calls, c.node ≠ node
  | .advance _ _ | .respawn _ | .exit _ => True

instance decidableApart (s : ProcessWorker) (l : Label) : Decidable (s.Apart l) := by
  unfold Apart
  split <;> infer_instance

end ProcessWorker

/-! ### Who is at work for a node -/

/-- The steps of `stopNode` -/
def NodeStep.stops : NodeStep → Bool
  | .stopCheck | .stopQuit | .stopRemove => true
  | _ => false

/-- The call has seen that the process does not run. -/
def NodeStep.seenDown : NodeStep → Bool
  | .exec | .stopRemove => true
  | _ => false

namespace ProcessWorker

/-- At most one call is at work for a node, or the timer, which then knows what it has seen. -/
structure Consistent (s : ProcessWorker) : Prop where
  single : ∀ node, s.alive node ≤ 1
  halted : ∀ node, s.stopped node = true → s.alive node = 0
  unlisted : ∀ node, s.stopped node = true → node ∉ s.mapRespawnableNode
  stopping : ∀ c ∈ s.calls, s.stopped c.node = true → c.next.stops = true
  distinct : (s.calls.map NodeCall.node).Nodup
  down : ∀ c ∈ s.calls, c.next.seenDown = true → s.alive c.node = 0
  listed : ∀ p, s.pass = some p → ∀ node ∈ p.remaining, node ∈ s.mapRespawnableNode
  visiting : ∀ p, s.pass = some p → ∀ node ∈ p.remaining, ∀ c ∈ s.calls, c.node ≠ node
  launching : ∀ p, s.pass = some p → p.next = .exec → ∀ node ∈ p.remaining.head?, s.alive node = 0

theorem consistent_init : Consistent init where
  single _ := Nat.zero_le 1
  halted _ _ := rfl
  unlisted _ hs := nomatch hs
  stopping _ isIn := absurd isIn not_mem_nil
  distinct := nodup_nil
  down _ isIn := absurd isIn not_mem_nil
  listed _ hp := nomatch hp
  visiting _ hp := nomatch hp
  launching _ hp := nomatch hp

theorem launched_pass (s : ProcessWorker) (c : NodeCall) : (s.launched c).pass = s.pass := by
  unfold launched
  split <;> rfl

theorem launched_stopped (s : ProcessWorker) (c : NodeCall) :
    (s.launched c).stopped = s.stopped := by
  unfold launched
  split <;> rfl

theorem mem_launched {s : ProcessWorker} {c d : NodeCall} (isIn : d ∈ (s.launched c).calls) :
    d = { c with next := .add } ∨ d ∈ s.calls.erase c := by
  unfold launched at isIn
  split at isIn
  · exact mem_cons.mp isIn
  · exact .inr isIn

namespace Consistent

variable {s t : ProcessWorker} {c : NodeCall} {node : ℕ}

/-- The other calls are for other nodes. -/
theorem node_ne_of_mem_erase (hc : Consistent s) (isCall : c ∈ s.calls) {other : NodeCall}
    (ho : other ∈ s.calls.erase c) : other.node ≠ c.node := by
  have perm := (perm_cons_erase isCall).map NodeCall.node
  have distinct := perm.nodup_iff.mp hc.distinct
  exact fun same => (nodup_cons.mp distinct).1 (same ▸ List.mem_map_of_mem ho)

/-- The number of processes of a node changes, and nobody relies on what it was. -/
theorem setAlive (hc : Consistent s) {count : ℕ} (single : count ≤ 1)
    (halted : s.stopped node = true → count = 0)
    (down : ∀ c ∈ s.calls, c.node = node → c.next.seenDown = true → count = 0)
    (launching : ∀ p, s.pass = some p → p.next = .exec → p.remaining.head? = some node →
      count = 0) : Consistent (s.setAlive node count) := by
  have zero {other : ℕ} (hh : other = node → count = 0) (he : s.alive other = 0) :
      update s.alive node count other = 0 := by
    rw [update_apply]
    split
    next isIt => exact hh isIt
    next => exact he
  exact { hc with
    single := (forall_update_iff s.alive fun _ n => n ≤ 1).mpr
      ⟨single, fun other _ => hc.single other⟩
    halted := fun other hs =>
      zero (fun isIt => halted (isIt ▸ hs)) (hc.halted other hs)
    down := fun c isCall seen =>
      zero (fun isIt => down c isCall isIt seen) (hc.down c isCall seen)
    launching := fun p hp isExec other hf =>
      zero (fun isIt => launching p hp isExec (isIt ▸ hf)) (hc.launching p hp isExec other hf) }

section

variable (hc : Consistent s) {next : NodeStep} {p : RespawnPass}

include hc

theorem finish (c : NodeCall) : Consistent (s.finish c) :=
  { hc with
    stopping := fun other ho => hc.stopping other (mem_of_mem_erase ho)
    distinct := hc.distinct.sublist (erase_sublist.map _)
    down := fun other ho => hc.down other (mem_of_mem_erase ho)
    visiting := fun p hp node isIn other ho =>
      hc.visiting p hp node isIn other (mem_of_mem_erase ho) }

theorem proceed (isCall : c ∈ s.calls) (stops : s.stopped c.node = true → next.stops = true)
    (down : next.seenDown = true → s.alive c.node = 0) : Consistent (s.proceed c next) := by
  have hf := hc.finish c
  refine { hc with
    stopping := forall_mem_cons.mpr ⟨stops, hf.stopping⟩
    distinct := nodup_cons.mpr ⟨?_, hf.distinct⟩
    down := forall_mem_cons.mpr ⟨down, hf.down⟩
    visiting := fun p hp node isIn => forall_mem_cons.mpr
      ⟨hc.visiting p hp node isIn c isCall, hf.visiting p hp node isIn⟩ }
  intro isIn
  obtain ⟨other, ho, same⟩ := List.mem_map.mp isIn
  exact hc.node_ne_of_mem_erase isCall ho same

/-- A call that does not belong to `stopNode` is for a node that is not stopped. -/
theorem not_stopped (isCall : c ∈ s.calls) (other : c.next.stops = false) :
    s.stopped c.node = false := by
  by_contra hs
  rw [Bool.not_eq_false] at hs
  rw [hc.stopping c isCall hs] at other
  cases other

theorem launched (isCall : c ∈ s.calls) (other : c.next.stops = false) :
    Consistent (s.launched c) := by
  have going := hc.not_stopped isCall other
  unfold ProcessWorker.launched
  split
  · exact hc.proceed isCall (fun hs => absurd (going.symm.trans hs) nofun) nofun
  · exact hc.finish c

theorem addToRespawn (going : s.stopped node = false) : Consistent (s.addToRespawn node) := by
  have mono : s.mapRespawnableNode ⊆ (s.addToRespawn node).mapRespawnableNode := by
    unfold ProcessWorker.addToRespawn
    split
    · exact List.Subset.refl _
    · exact subset_cons_self _ _
  refine { hc with
    unlisted := ?_
    listed := fun p hp other isIn => mono (hc.listed p hp other isIn) }
  intro other stopped isIn
  unfold ProcessWorker.addToRespawn at isIn
  split at isIn
  · exact hc.unlisted other stopped isIn
  · rcases mem_cons.mp isIn with rfl | isIn
    · exact absurd (going.symm.trans stopped) nofun
    · exact hc.unlisted other stopped isIn

/-- A node is only taken out of the map when the timer is not at it. -/
theorem removeToRespawn (idle : s.pass = none) (node : ℕ) : Consistent (s.removeToRespawn node) :=
  { hc with
    unlisted := fun other hs isIn =>
      hc.unlisted other hs (mem_filter.mp isIn).1
    listed := fun _ hp => absurd (idle.symm.trans hp) nofun }

theorem stop (idle : s.pass = none) (isCall : c ∈ s.calls) (down : s.alive c.node = 0) :
    Consistent { (s.finish c).removeToRespawn c.node with
      stopped := update s.stopped c.node true } := by
  refine { (hc.finish c).removeToRespawn idle c.node with
    halted := ?halted, unlisted := ?unlisted, stopping := ?stopping }
  case halted =>
    intro other hs
    obtain ⟨rfl, -⟩ | ⟨-, hs⟩ := update_eq_iff.mp hs
    · exact down
    · exact hc.halted other hs
  case unlisted =>
    intro other hs isIn
    obtain ⟨isIn, ho⟩ := mem_filter.mp isIn
    obtain ⟨isIt, -⟩ | ⟨-, hs⟩ := update_eq_iff.mp hs
    · exact of_decide_eq_true ho isIt
    · exact hc.unlisted other hs isIn
  case stopping =>
    intro other ho hs
    obtain ⟨isIt, -⟩ | ⟨-, hs⟩ := update_eq_iff.mp hs
    · exact absurd isIt (hc.node_ne_of_mem_erase isCall ho)
    · exact hc.stopping other (mem_of_mem_erase ho) hs

theorem quit (node : ℕ) : Consistent (s.setAlive node 0) :=
  hc.setAlive (Nat.zero_le 1) (fun _ => rfl) (fun _ _ _ _ => rfl) fun _ _ _ _ => rfl

/-- The call that launches the process is the only one that looks at it. -/
theorem exec (isCall : c ∈ s.calls) (isExec : c.next = .exec) :
    Consistent ((s.launched c).setAlive c.node (s.alive c.node + 1)) := by
  have down : s.alive c.node = 0 :=
    hc.down c isCall ((congrArg NodeStep.seenDown isExec).trans rfl)
  have other : c.next.stops = false := (congrArg NodeStep.stops isExec).trans rfl
  have going : s.stopped c.node = false := hc.not_stopped isCall other
  refine (hc.launched isCall other).setAlive (Nat.le_of_eq (congrArg (· + 1) down)) ?halted
    ?down ?launching
  case halted =>
    intro hs
    rw [launched_stopped] at hs
    exact absurd (going.symm.trans hs) nofun
  case down =>
    intro d isIn same seen
    rcases mem_launched isIn with rfl | ho
    · cases seen
    · exact absurd same (hc.node_ne_of_mem_erase isCall ho)
  case launching =>
    intro p hp _ hf
    rw [launched_pass] at hp
    exact absurd rfl (hc.visiting p hp c.node (mem_of_mem_head? hf) c isCall)

/-- A call other than `stopNode` goes on, and has seen nothing. -/
theorem goOn (isCall : c ∈ s.calls) (other : c.next.stops = false)
    (hu : next.seenDown = false) : Consistent (s.proceed c next) := by
  have going := hc.not_stopped isCall other
  exact hc.proceed isCall (fun hs => absurd (going.symm.trans hs) nofun)
    fun seen => absurd (hu.symm.trans seen) nofun

/-- Every step of a call -/
theorem advance (isCall : c ∈ s.calls) {launch : Launch} (taken : s.advance c launch = some t) :
    Consistent t := by
  obtain ⟨node, keepAlive, next⟩ := c
  cases next with
  | check =>
    cases taken
    split
    · exact hc.launched isCall rfl
    · exact hc.goOn isCall rfl rfl
  | launch =>
    cases taken
    split
    · exact hc.launched isCall rfl
    · next down =>
      have going := hc.not_stopped isCall rfl
      exact hc.proceed isCall (fun hs => absurd (going.symm.trans hs) nofun)
        fun _ => not_not.mp down
  | exec =>
    cases launch with
    | started => cases taken; exact hc.exec isCall rfl
    | failed => cases taken; exact hc.launched isCall rfl
    | threw => cases taken; exact hc.finish _
  | add =>
    obtain ⟨-, result⟩ := ite_none_right_eq_some.mp taken
    cases result
    exact (hc.finish _).addToRespawn (hc.not_stopped isCall rfl)
  | stopCheck =>
    cases taken
    split
    · exact hc.proceed isCall (fun _ => rfl) nofun
    · next down => exact hc.proceed isCall (fun _ => rfl) fun _ => not_not.mp down
  | stopQuit =>
    cases taken
    exact (hc.quit node).proceed isCall (fun _ => rfl) fun _ => update_self ..
  | stopRemove =>
    obtain ⟨idle, result⟩ := ite_none_right_eq_some.mp taken
    cases result
    exact hc.stop idle isCall (hc.down _ isCall rfl)
  | restartRemove =>
    obtain ⟨idle, result⟩ := ite_none_right_eq_some.mp taken
    cases result
    exact (hc.goOn isCall rfl rfl).removeToRespawn idle node
  | restartCheck =>
    cases taken
    split
    · exact hc.goOn isCall rfl rfl
    · exact hc.goOn isCall rfl rfl
  | restartQuit | kill retry =>
    cases taken
    exact (hc.goOn isCall rfl rfl).quit node
  | poll retry tryToStop =>
    unfold ProcessWorker.advance at taken
    simp only at taken
    split at taken
    · cases taken
      exact hc.finish _
    · split at taken
      · cases taken
        exact hc.goOn isCall rfl rfl
      · split at taken
        · cases taken
          exact hc.goOn isCall rfl rfl
        · cases taken
          exact hc.goOn isCall rfl rfl
  | recheck =>
    cases taken
    split
    · exact hc.finish _
    · exact hc.goOn isCall rfl rfl

/-- The timer goes on to the next node. -/
theorem visited (hp : s.pass = some p) {q : RespawnPass} (rest : q.remaining ⊆ p.remaining)
    (down : q.next = .exec → ∀ node ∈ q.remaining.head?, s.alive node = 0) :
    Consistent { s with pass := some q } :=
  { hc with
    listed := fun | _, rfl, node, isIn => hc.listed p hp node (rest isIn)
    visiting := fun | _, rfl, node, isIn => hc.visiting p hp node (rest isIn)
    launching := fun | _, rfl => down }

theorem rested : Consistent { s with pass := none } :=
  { hc with
    listed := fun _ hp => nomatch hp
    visiting := fun _ hp => nomatch hp
    launching := fun _ hp => nomatch hp }

/-- The process that the timer launches belongs to a node that is not stopped and has no call. -/
theorem respawned {rest : List ℕ} (hp : s.pass = some ⟨.exec, node :: rest⟩) :
    Consistent (({ s with pass := some ⟨.check, rest⟩ } : ProcessWorker).setAlive node
      (s.alive node + 1)) := by
  have hf : node ∈ node :: rest := mem_cons_self
  have down : s.alive node = 0 := hc.launching _ hp rfl node rfl
  have next : Consistent { s with pass := some ⟨.check, rest⟩ } :=
    hc.visited hp (subset_cons_self _ _) nofun
  refine next.setAlive (Nat.le_of_eq (congrArg (· + 1) down)) ?halted ?down ?launching
  case halted =>
    intro hs
    exact absurd (hc.listed _ hp node hf) (hc.unlisted node hs)
  case down =>
    intro c isCall same
    exact absurd same (hc.visiting _ hp node hf c isCall)
  case launching =>
    rintro _ ⟨⟩ isExec
    cases isExec

/-- Every step of the timer -/
theorem respawn (hp : s.pass = some p) (launch : Launch) : Consistent (s.respawn p launch) := by
  unfold ProcessWorker.respawn
  split
  case h_1 => exact hc.rested
  -- The timer either stays at the node or goes on to the next one.
  case h_2 node rest isRemaining isNext =>
    split
    · exact hc.visited hp (isRemaining ▸ subset_cons_self _ _) nofun
    · exact hc.visited hp (isRemaining ▸ List.Subset.refl _) nofun
  case h_3 node rest isRemaining isNext =>
    split
    · exact hc.visited hp (isRemaining ▸ subset_cons_self _ _) nofun
    · next down =>
      refine hc.visited hp (isRemaining ▸ List.Subset.refl _) fun _ first hf => ?_
      cases hf
      exact not_not.mp down
  case h_4 node rest isRemaining isNext =>
    cases launch with
    | started =>
      refine hc.respawned (hp.trans ?_)
      rw [← isRemaining, ← isNext]
    | failed => exact hc.visited hp (isRemaining ▸ subset_cons_self _ _) nofun
    | threw => exact hc.rested

/-- A call begins for a node that is nobody else's. -/
theorem call (free : s.Free c.node) {stopped : Bool}
    (same : stopped = true → s.stopped c.node = true) (stops : stopped = true → c.next.stops = true)
    (hu : c.next.seenDown = false) : Consistent (s.call c stopped) := by
  have hb {other : ℕ} (after : update s.stopped c.node stopped other = true) :
      s.stopped other = true := by
    obtain ⟨rfl, hs⟩ | ⟨-, hb⟩ := update_eq_iff.mp after
    · exact same hs
    · exact hb
  refine { hc with
    halted := fun other after => hc.halted other (hb after)
    unlisted := fun other after => hc.unlisted other (hb after)
    stopping := forall_mem_cons.mpr ⟨?_, fun other ho after =>
      hc.stopping other ho (hb after)⟩
    distinct := nodup_cons.mpr ⟨?_, hc.distinct⟩
    down := forall_mem_cons.mpr ⟨fun seen => absurd (hu.symm.trans seen) nofun, hc.down⟩
    visiting := fun p hp node isIn => forall_mem_cons.mpr ⟨?_, hc.visiting p hp node isIn⟩ }
  · intro after
    exact stops ((update_self ..).symm.trans after)
  · intro isIn
    obtain ⟨other, ho, same⟩ := List.mem_map.mp isIn
    exact free.1 other ho same
  · rintro rfl
    exact free.2 p (mem_toList.mpr hp) isIn

end

protected theorem step {l : Label} (hc : Consistent s) (apart : s.Apart l)
    (taken : s.step l = some t) : Consistent t := by
  cases l with
  | launchNode node keepAlive | restartNode node keepAlive =>
    cases taken
    exact hc.call (by exact apart) nofun nofun rfl
  | stopNode node =>
    cases taken
    exact hc.call (by exact apart) id (fun _ => rfl) rfl
  | advance c launch =>
    obtain ⟨isCall, taken⟩ := ite_none_right_eq_some.mp taken
    exact hc.advance isCall taken
  | timeout =>
    obtain ⟨-, result⟩ := ite_none_right_eq_some.mp taken
    cases result
    exact { hc with
      listed := fun | _, rfl, _, isIn => isIn
      visiting := fun | _, rfl, node, isIn => apart node isIn
      launching := fun | _, rfl, isExec => nomatch isExec }
  | respawn launch =>
    obtain ⟨p, hp, rfl⟩ := map_eq_some_iff.mp taken
    exact hc.respawn hp launch
  | exit node =>
    cases taken
    have ended : s.alive node - 1 = 0 := Nat.sub_eq_zero_of_le (hc.single node)
    rw [ended]
    exact hc.quit node

theorem safe (hc : Consistent s) : Safe s where
  single := hc.single
  halted := hc.halted
  unattended node hs p hp isIn :=
    hc.unlisted node hs (hc.listed p hp node isIn)

end Consistent

/-! ### The runs -/

/-- If the calls for a node are kept apart, and the timer from the calls for the nodes that it looks
after, then a node that was stopped stays so until it is launched again and no process is
launched while it runs. -/
theorem safe_of_apart {ls : List Label} {s : ProcessWorker}
    (apart : Admissible step Apart init ls) (run : execute step init ls = some s) : Safe s :=
  (Admissible.invariant Consistent.step consistent_init apart run).safe

/-- A node is launched, ends and is launched again by the timer, while another one is restarted, and
is stopped. -/
theorem safe_of_apart_two :
    let labels : List Label := [.launchNode 1 true, .advance ⟨1, true, .check⟩ .started,
      .restartNode 2 false, .advance ⟨1, true, .launch⟩ .started,
      .advance ⟨2, false, .restartRemove⟩ .started, .advance ⟨1, true, .exec⟩ .started,
      .advance ⟨2, false, .restartCheck⟩ .started, .advance ⟨1, true, .add⟩ .started, .exit 1,
      .timeout, .respawn .started, .advance ⟨2, false, .recheck⟩ .started, .respawn .started,
      .respawn .started, .respawn .started, .advance ⟨2, false, .launch⟩ .started, .stopNode 1,
      .advance ⟨1, false, .stopCheck⟩ .started, .advance ⟨2, false, .exec⟩ .started,
      .advance ⟨1, false, .stopQuit⟩ .started, .advance ⟨1, false, .stopRemove⟩ .started]
    ∃ s, execute step init labels = some s ∧ Admissible step Apart init labels ∧
      (s.stopped 1, s.alive 2) = (true, 1) ∧ Safe s := by
  intro labels
  have apart : Admissible step Apart init labels := by decide
  have runs : (execute step init labels).map (fun s => (s.stopped 1, s.alive 2)) =
      some (true, 1) := by decide
  obtain ⟨s, run, reached⟩ := map_eq_some_iff.mp runs
  exact ⟨s, run, apart, reached, safe_of_apart apart run⟩

/-- The timer launches the process again after `stopNode` has ended it and before it takes the node
out of the map. -/
theorem launched_while_stopping :
    ∃ s, execute step init [.launchNode 1 true, .advance ⟨1, true, .check⟩ .started,
        .advance ⟨1, true, .launch⟩ .started, .advance ⟨1, true, .exec⟩ .started,
        .advance ⟨1, true, .add⟩ .started, .stopNode 1,
        .advance ⟨1, false, .stopCheck⟩ .started, .advance ⟨1, false, .stopQuit⟩ .started,
        .timeout, .respawn .started, .respawn .started, .respawn .started, .respawn .started,
        .advance ⟨1, false, .stopRemove⟩ .started] = some s ∧
      (s.stopped 1, s.alive 1) = (true, 1) ∧ ¬ Safe s := by
  have runs : (execute step init [.launchNode 1 true, .advance ⟨1, true, .check⟩ .started,
      .advance ⟨1, true, .launch⟩ .started, .advance ⟨1, true, .exec⟩ .started,
      .advance ⟨1, true, .add⟩ .started, .stopNode 1,
      .advance ⟨1, false, .stopCheck⟩ .started, .advance ⟨1, false, .stopQuit⟩ .started,
      .timeout, .respawn .started, .respawn .started, .respawn .started, .respawn .started,
      .advance ⟨1, false, .stopRemove⟩ .started]).map (fun s => (s.stopped 1, s.alive 1)) =
      some (true, 1) := by
    decide
  obtain ⟨s, run, reached⟩ := map_eq_some_iff.mp runs
  refine ⟨s, run, reached, fun safe => ?_⟩
  obtain ⟨hs, hr⟩ := Prod.mk.inj reached
  exact absurd (hr.symm.trans (safe.halted 1 hs)) Nat.one_ne_zero

end ProcessWorker

end ChaosFramework.Agent
