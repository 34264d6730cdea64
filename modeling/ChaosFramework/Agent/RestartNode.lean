import ChaosFramework.Agent.ProcessWorker

/-!
# The restart of a node

`restartNode` asks the process of a node to quit, is to wait for its end, kills it if that takes too
long, and launches it again. Its loop waits while the process is not alive: a process that is still
alive at the first check is neither killed nor launched, and its node is no longer kept alive
(`restarted_iff`).
-/

namespace ChaosFramework.Agent

inductive Process
  | running
  /-- The process has been asked to quit and stays alive for a number of further checks. -/
  | quitting (checks : ℕ)
  | dead
  deriving DecidableEq, Repr

structure Restart where
  worker : ProcessWorker
  process : Process
  /-- The number of checks for which the process stays alive after a request to quit. -/
  grace : ℕ
  /-- What was left of the process at each launch. -/
  launches : List Process

namespace Restart

def checkProcess (s : Restart) : Bool × Restart :=
  match s.process with
  | .running => (true, s)
  | .quitting (checks + 1) => (true, { s with process := .quitting checks })
  | .quitting 0 | .dead => (false, { s with process := .dead })

def quitProcess (s : Restart) (kill : Bool) : Restart :=
  if kill then { s with process := .dead }
  else if s.process = .running then { s with process := .quitting s.grace }
  else s

def launchProcess (s : Restart) : Restart :=
  let c := s.checkProcess
  if c.1 then c.2 else { c.2 with process := .running, launches := c.2.process :: c.2.launches }

/-- The loop, with the value of `process_alive` after it. -/
def awaitEnd (s : Restart) (retry : ℕ) (tryToStop : Bool) : Bool × Restart :=
  let c := s.checkProcess
  if c.1 = false ∧ tryToStop = true then
    if 3 < retry then (c.2.quitProcess true).awaitEnd (retry + 1) false
    else c.2.awaitEnd (retry + 1) true
  else c
termination_by (tryToStop.toNat, 4 - retry)
decreasing_by all_goals grind

/-- The end of `restartNode`, after the loop. -/
def relaunch (s : Restart) (processAlive : Bool) (node : ℕ) (keepAlive : Bool) : Restart :=
  let c := if processAlive then (true, s) else s.checkProcess
  if c.1 then c.2
  else
    let t := c.2.launchProcess
    if keepAlive then { t with worker := t.worker.addToRespawn node } else t

def restartNode (s : Restart) (node : ℕ) (keepAlive : Bool) : Restart :=
  let c := { s with worker := s.worker.removeToRespawn node }.checkProcess
  let r := if c.1 then (c.2.quitProcess false).awaitEnd 0 true else (false, c.2)
  r.2.relaunch r.1 node keepAlive

variable {s : Restart} {node : ℕ} {keepAlive : Bool}

/-- The process has been launched once, after its end, and is kept alive if that is asked for. -/
def Restarted (s t : Restart) (node : ℕ) (keepAlive : Bool) : Prop :=
  t.launches = .dead :: s.launches ∧ (keepAlive = true → node ∈ t.worker.mapRespawnableNode)

theorem mem_addToRespawn (w : ProcessWorker) : node ∈ (w.addToRespawn node).mapRespawnableNode := by
  unfold ProcessWorker.addToRespawn
  split
  next h => exact h
  next => exact List.mem_cons_self

section Dead

variable (h : s.process = .dead)
include h

theorem checkProcess_of_dead : s.checkProcess = (false, s) := by
  obtain ⟨w, p, g, ls⟩ := s
  cases h
  rfl

theorem kill_of_dead : s.quitProcess true = s := by
  obtain ⟨w, p, g, ls⟩ := s
  cases h
  rfl

/-- The loop waits as long as the process is dead, and then kills it. -/
theorem awaitEnd_of_dead (retry : ℕ) (tryToStop : Bool) :
    s.awaitEnd retry tryToStop = (false, s) := by
  fun_induction awaitEnd s retry tryToStop with
  | case1 s retry tryToStop c hc hr ih =>
    have hs : c = (false, s) := checkProcess_of_dead h
    rw [hs, kill_of_dead h] at ih ⊢
    exact ih h
  | case2 s retry tryToStop c hc hr ih =>
    have hs : c = (false, s) := checkProcess_of_dead h
    rw [hs] at ih ⊢
    exact ih h
  | case3 s retry tryToStop c hc => exact checkProcess_of_dead h

end Dead

/-- A restart does what it is for exactly when the process ends before the first check. -/
theorem restarted_iff (h : s.process = .running) :
    Restarted s (s.restartNode node keepAlive) node keepAlive ↔ s.grace = 0 := by
  obtain ⟨w, p, g, ls⟩ := s
  cases h
  have hr : restartNode ⟨w, .running, g, ls⟩ node keepAlive =
    let r := awaitEnd ⟨w.removeToRespawn node, .quitting g, g, ls⟩ 0 true
    r.2.relaunch r.1 node keepAlive := rfl
  rw [hr, awaitEnd]
  cases g with
  | zero =>
    refine iff_of_true ?_ rfl
    have hd := @awaitEnd_of_dead ⟨w.removeToRespawn node, .dead, 0, ls⟩ rfl 1 true
    simp only [checkProcess, hd]
    cases keepAlive with
    | false => exact ⟨rfl, nofun⟩
    | true => exact ⟨rfl, fun _ => mem_addToRespawn _⟩
  | succ g =>
    refine iff_of_false (fun hr => ?_) g.succ_ne_zero
    exact absurd hr.1.symm (List.cons_ne_self _ _)

theorem restarted_prompt :
    Restarted ⟨.init, .running, 0, []⟩ (restartNode ⟨.init, .running, 0, []⟩ 7 true) 7 true :=
  (restarted_iff rfl).mpr rfl

/-- A process that is alive at one check is not launched again. -/
theorem not_restarted_slow :
    ¬ Restarted ⟨.init, .running, 1, []⟩ (restartNode ⟨.init, .running, 1, []⟩ 7 true) 7 true := by
  have ht : restartNode ⟨.init, .running, 1, []⟩ 7 true =
      ⟨ProcessWorker.init.removeToRespawn 7, .quitting 0, 1, []⟩ := by
    simp [restartNode, awaitEnd, checkProcess, quitProcess, relaunch]
  rw [ht]
  exact fun h => nomatch h.1

end Restart

end ChaosFramework.Agent
