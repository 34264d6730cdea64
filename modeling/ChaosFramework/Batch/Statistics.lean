import ChaosFramework.Batch.SandboxFrame
import ChaosFramework.Transition

/-!
# The published statistics

`cmd_stat` has the number of waiting and of stacked commands. It is refreshed by hand wherever the
queue or the stack is changed, except that `enqueueCommand` refreshes it after it has released the
mutex, and pushing the current command on the stack does not refresh it at all. The sandbox is run
together with the number of commands pushed since one was last taken from the stack.
-/

namespace ChaosFramework.Batch.BatchCommandSandbox

open RunningPropertyType SubmissionRuleType Transition

variable {s t : BatchCommandSandbox} {n : ℕ}

/-- The pushes since the stack was last popped. -/
def unreported (s : BatchCommandSandbox) (_ : Action) (t : BatchCommandSandbox) (n : ℕ) : ℕ :=
  if s.commandStack.length < t.commandStack.length then n + 1
  else if t.commandStack.length < s.commandStack.length then 0 else n

/-- Nothing comes between the read of the size and the refresh. -/
def Refreshes (k : BatchCommandSandbox × ℕ) : Action → Prop
  | .enqueueDone size => size = k.1.commandSubmittedQueue.length
  | _ => True

instance (k : BatchCommandSandbox × ℕ) (action : Action) : Decidable (Refreshes k action) := by
  unfold Refreshes
  split <;> infer_instance

/-- The counter of the queue is right unless a refresh is due. -/
def QueueCounted (s : BatchCommandSandbox) : Prop :=
  s.enqueuing = 0 → s.cmdStat.queuedCommands = s.commandSubmittedQueue.length % 2 ^ 32

/-- The counter of the stack lacks the last `n` pushes. -/
structure StackCounted (s : BatchCommandSandbox) (n : ℕ) : Prop where
  bounded : n ≤ s.commandStack.length
  counted : s.cmdStat.stackedCommands = (s.commandStack.length - n) % 2 ^ 32

/-! ### The queue -/

def queueTally (s : BatchCommandSandbox) : CommandPriorityQueue × ℕ × ℕ :=
  (s.commandSubmittedQueue, s.cmdStat.queuedCommands, s.enqueuing)

theorem QueueCounted.keep (hc : s.QueueCounted) (same : t.queueTally = s.queueTally) :
    t.QueueCounted := by
  simp only [queueTally, Prod.mk.injEq] at same
  obtain ⟨queue, stat, enqueuing⟩ := same
  rwa [QueueCounted, queue, stat, enqueuing]

theorem step_queueCounted {act : Action} (hc : s.QueueCounted)
    (hr : Refreshes (s, n) act) (taken : s.step act = some t) : t.QueueCounted := by
  cases step_effect taken with
  | enqueueDone =>
    intro _
    rw [show _ = s.commandSubmittedQueue.length from hr]
  | enqueue => exact fun hs => absurd hs (Nat.succ_ne_zero _)
  | stack | close | installFirst => exact fun _ => rfl
  | deinit =>
    have killed : (killStack s.commandStack s.killCurrent).QueueCounted :=
      hc.keep ((killStack_frame queueTally).trans (killCurrent_frame queueTally))
    exact (drainSubmittedQueue_keeps _ (fun _ _ _ => rfl) killed).keep rfl
  | @checkQueue owns _ _ _ ops =>
    subst ops
    cases owns with
    | false => exact hc.keep rfl
    | true =>
      have drained : (consumeWaitCmdOps s.stackWaitCmdOp s).QueueCounted :=
        consumeWaitCmdOps_keeps (fun kept => kept.keep rfl) (fun _ _ _ => rfl) hc
      exact drained.keep rfl
  | finishStack _ _ hp =>
    subst hp
    exact hc.keep (by simp [queueTally])
  | run =>
    exact hc.keep (runCurrent_frame queueTally)
  | finishReplace | resume | endSticky | endLast | installSticky =>
    exact hc.keep (by simp [queueTally])
  | _ => exact hc.keep rfl

/-! ### The stack -/

def stackTally (s : BatchCommandSandbox) : List CommandRef × ℕ :=
  (s.commandStack, s.cmdStat.stackedCommands)

section Stack

variable {act : Action}

theorem StackCounted.keep (hc : s.StackCounted n) (same : t.stackTally = s.stackTally) :
    t.StackCounted (unreported s act t n) := by
  obtain ⟨stack, stat⟩ := Prod.mk.inj same
  rw [unreported, stack, if_neg (lt_irrefl _), if_neg (lt_irrefl _)]
  exact ⟨stack ▸ hc.bounded, by rw [stat, stack, hc.counted]⟩

/-- After the stack has been popped the counter is right. -/
theorem StackCounted.popped (hs : t.commandStack.length < s.commandStack.length)
    (stat : t.cmdStat.stackedCommands = t.commandStack.length % 2 ^ 32) :
    t.StackCounted (unreported s act t n) := by
  rw [unreported, if_neg hs.not_gt, if_pos hs]
  exact ⟨Nat.zero_le _, stat⟩

variable (hc : s.StackCounted n)

include hc

theorem StackCounted.pushed {c : CommandRef}
    (same : t.stackTally = (c :: s.commandStack, s.cmdStat.stackedCommands)) :
    t.StackCounted (unreported s act t n) := by
  obtain ⟨stack, stat⟩ := Prod.mk.inj same
  rw [unreported]
  exact ⟨by simpa [stack] using hc.bounded, by simp [stat, stack, hc.counted]⟩

/-- `deinit` takes everything from the stack, refreshing the counter each time. -/
theorem StackCounted.killed {r : BatchCommandSandbox} (hb : r.stackTally = s.stackTally)
    (same : t.stackTally = (killStack s.commandStack r).stackTally) :
    t.StackCounted (unreported s act t n) := by
  cases whole : s.commandStack with
  | nil =>
    rw [whole] at same
    exact hc.keep (same.trans hb)
  | cons c rest =>
    have emptied : (killStack (c :: rest) r).commandStack = [] ∧
        (killStack (c :: rest) r).cmdStat.stackedCommands = 0 :=
      killStack_keeps (M := fun left r => r.commandStack = left ∧
        r.cmdStat.stackedCommands = left.length % 2 ^ 32) (fun _ => ⟨rfl, rfl⟩)
        (s := (r.popStack rest).emit .killed c none) ⟨rfl, rfl⟩
    rw [whole, stackTally, stackTally, emptied.1, emptied.2] at same
    obtain ⟨stack, stat⟩ := Prod.mk.inj same
    exact .popped (by simp [stack, whole]) (by simp [stack, stat])

theorem step_stackCounted (taken : s.step act = some t) :
    t.StackCounted (unreported s act t n) := by
  cases step_effect taken with
  | deinit =>
    exact hc.killed (killCurrent_frame stackTally) (drainSubmittedQueue_frame stackTally)
  | checkQueue _ _ ops =>
    have same := drained_frame stackTally ops
    exact hc.keep same
  | @finishStack _ _ _ c _ _ _ _ hp =>
    subst hp
    cases hs : (s.commands c).sticky with
    | true => exact hc.keep (by simp [stackTally])
    | false => exact hc.pushed (c := c) (by simp [stackTally])
  | resume _ _ stacked => exact .popped (by simp [stacked]) rfl
  | run =>
    exact hc.keep (runCurrent_frame stackTally)
  | finishReplace | installFirst | endSticky | endLast | installSticky =>
    exact hc.keep (by simp [stackTally])
  | _ => exact hc.keep rfl

end Stack

/-! ### Runs -/

/-- The sandbox with the number of pushes that the counter lacks. -/
def countedStep : BatchCommandSandbox × ℕ → Action → Option (BatchCommandSandbox × ℕ) :=
  recorded step unreported

/-- When no refresh is due and none is overtaken, the two counters are the sizes of the queue and of
the stack exactly when nothing has been pushed on the stack since it was last popped. -/
theorem statistics_iff {actions : List Action} {k : BatchCommandSandbox × ℕ}
    (refreshes : Admissible countedStep Refreshes (init, 0) actions)
    (run : execute countedStep (init, 0) actions = some k) (settled : k.1.enqueuing = 0)
    (waiting : k.1.commandSubmittedQueue.length < 2 ^ 32)
    (stacked : k.1.commandStack.length < 2 ^ 32) :
    k.1.cmdStat = ⟨k.1.commandSubmittedQueue.length, k.1.commandStack.length⟩ ↔ k.2 = 0 := by
  have queue : k.1.QueueCounted := refreshes.invariant
    (fun hc refreshes taken =>
      step_queueCounted hc refreshes (recorded_eq_some.mp taken).1)
    (fun _ => rfl) run
  obtain ⟨hb, stack⟩ := @invariant_of_execute _ _ countedStep (fun k => k.1.StackCounted k.2)
    (fun hc taken => by
      obtain ⟨base, record⟩ := recorded_eq_some.mp taken
      exact record ▸ step_stackCounted hc base)
    _ _ _ ⟨le_rfl, rfl⟩ run
  have hq := (queue settled).trans (Nat.mod_eq_of_lt waiting)
  have onStack := stack.trans (Nat.mod_eq_of_lt (lt_of_le_of_lt (Nat.sub_le _ _) stacked))
  constructor
  · intro same
    rw [same] at onStack
    dsimp only at onStack
    omega
  · intro hr
    rw [hr, Nat.sub_zero] at onStack
    rw [← hq, ← onStack]

/-- A second command interrupts the first one. -/
def interruptingRun : List Action :=
  [.start, .enqueueCommand ⟨"first", 6, ⟨0, 0, 0, 0⟩⟩ submitNormal 1000 1000 50, .enqueueDone 1,
    .checkQueue true, .installFirst 100 .silent,
    .enqueueCommand ⟨"second", 6, ⟨0, 0, 0, 0⟩⟩ submitAndStack 1000 1000 50, .enqueueDone 1,
    .checkQueue true, .compareWithCurrent .noChange, .finishSwitch 200 .silent .silent]

/-- The second command ends and the first one is taken from the stack. -/
def resumingRun : List Action :=
  interruptingRun ++ [.runCommand true 300 .silent ⟨some rpEnd, none, none⟩ .silent,
    .checkQueue true, .checkEnded, .endCurrent 400 .silent .silent]

theorem statistics_iff_resumed :
    ∃ k, execute countedStep (init, 0) resumingRun = some k ∧
      k.1.cmdStat = ⟨k.1.commandSubmittedQueue.length, k.1.commandStack.length⟩ :=
  ⟨_, rfl, (@statistics_iff resumingRun _ (by decide) rfl rfl (by decide) (by decide)).mpr rfl⟩

/-- The command on the stack is not counted. -/
theorem stacked_command_uncounted :
    ∃ s, execute step init interruptingRun = some s ∧ s.checker.holdsCurrent = false ∧
      s.enqueuing = 0 ∧ s.commandStack = [1] ∧ s.cmdStat.stackedCommands = 0 :=
  ⟨_, rfl, rfl, rfl, rfl, rfl⟩

end ChaosFramework.Batch.BatchCommandSandbox
