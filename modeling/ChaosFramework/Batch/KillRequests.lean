import ChaosFramework.Batch.SandboxFrame
import ChaosFramework.Transition

/-!
# Which command a kill request hits

`killCurrentCommand` only pushes an opcode, which the scheduler consumes at its next step, on
whatever command is current then. The sandbox is run together with a record of the requests: for
each pending opcode the command that was current at the call, and for each consumed one the command
that it ended. The record is never read by the steps.
-/

namespace ChaosFramework.Batch

open RunningPropertyType Transition BatchCommandSandbox List Option BatchCommand

/-- A call of `killCurrentCommand`: the command that was current, and the last reference
handed out, so that larger references belong to commands submitted later. -/
structure KillRequest where
  target : Option CommandRef
  submitted : CommandRef
  deriving DecidableEq, Repr

/-- The sandbox with the record of the requests. -/
structure KillRecord where
  sandbox : BatchCommandSandbox
  /-- The requests whose opcodes are on the stack, the top first. -/
  pending : List KillRequest
  /-- The consumed requests that set `RP_END`, with the command on which they did. -/
  hits : List (KillRequest × CommandRef)

namespace KillRecord

variable {k l : KillRecord} {c : CommandRef} {s t : BatchCommandSandbox} {act : Action}

def init : KillRecord := ⟨BatchCommandSandbox.init, [], []⟩

/-- The requests that are consumed by a step of the scheduler on the command `c`. A sticky
command is not ended. -/
def consume (k : KillRecord) (c : CommandRef) (t : BatchCommandSandbox) : KillRecord :=
  ⟨t, [], k.hits ++ if (k.sandbox.commands c).sticky then [] else k.pending.map (·, c)⟩

/-- The record after a step of the sandbox to `t`. -/
def follow (k : KillRecord) (t : BatchCommandSandbox) : Action → KillRecord
  | .killCurrentCommand =>
      ⟨t, ⟨k.sandbox.currentExecutingCommand, k.sandbox.commandSequenceId⟩ :: k.pending, k.hits⟩
  | .runCommand true _ _ _ _ =>
      match k.sandbox.currentExecutingCommand with
      | some c => k.consume c t
      | none => { k with sandbox := t }
  | _ => { k with sandbox := t }

/-- One step of the sandbox, recorded. -/
def step (k : KillRecord) (action : Action) : Option KillRecord :=
  (k.sandbox.step action).map fun t => k.follow t action

theorem follow_sandbox (t : BatchCommandSandbox) (act : Action) : (k.follow t act).sandbox = t := by
  unfold follow
  split
  · rfl
  · split <;> rfl
  · rfl

/-- The record is a pure addition: forgetting it gives the step of the sandbox. -/
theorem step_sandbox (taken : k.step act = some l) : k.sandbox.step act = some l.sandbox := by
  obtain ⟨t, base, rfl⟩ := map_eq_some_iff.mp taken
  rw [base, follow_sandbox]

/-- One opcode is enough to end a plain command. -/
theorem consumeRunCmdOps_ends {op : RunningCommandFunctionOpcode}
    {rest : List RunningCommandFunctionOpcode} (plain : (s.commands c).sticky = false) :
    ((consumeRunCmdOps c (op :: rest) s).commands c).runningProperty = rpEnd := by
  unfold consumeRunCmdOps
  refine consumeRunCmdOps_keeps (M := fun r => (r.commands c).runningProperty = rpEnd)
    (fun kept => kept) (fun _ => ?_) ?_
  · simp [setRunningProperty]
  · simp [plain, setRunningProperty]

/-- A sticky command is left as it is. -/
theorem consumeRunCmdOps_of_sticky
    {ops : List RunningCommandFunctionOpcode} (hs : (s.commands c).sticky = true) :
    (consumeRunCmdOps c ops s).commands = s.commands := by
  induction ops generalizing s with
  | nil => rfl
  | cons op rest ih =>
    unfold consumeRunCmdOps
    simp only [hs]
    exact ih hs

/-! ### The condition and the invariant -/

/-- A kill request is made only while there is a current command, and the checker replaces or
removes the current command only when no request is pending. -/
def Settled (k : KillRecord) : Action → Prop
  | .killCurrentCommand => k.sandbox.currentExecutingCommand.isSome
  | .finishSwitch .. | .endCurrent .. | .deinit => k.sandbox.stackRunCmdOp = []
  | _ => True

instance : ∀ action, Decidable (k.Settled action)
  | .killCurrentCommand => inferInstanceAs (Decidable (_ = true))
  | .finishSwitch .. | .endCurrent .. | .deinit => inferInstanceAs (Decidable (_ = []))
  | .setDefaultStickyCommand _ | .start | .stop | .enqueueCommand .. | .enqueueDone _
  | .clearCommandQueue | .setCurrentCommandFeatures _ | .setCurrentCommandScheduerStepDelay _
  | .checkQueue _ | .compareWithCurrent _ | .checkEnded | .installFirst .. | .installSticky ..
  | .runCommand .. => .isTrue trivial

/-- A request and the command it ended agree: that command was current at the request, hence
had been submitted before it. -/
def Faithful (hit : KillRequest × CommandRef) : Prop :=
  hit.1.target = some hit.2 ∧ hit.2 ≤ hit.1.submitted

/-- Every pending opcode has its record, and all of them aim at the present current command. -/
structure Aimed (k : KillRecord) : Prop where
  allocated : k.sandbox.Allocated
  opcodes : k.pending.length = k.sandbox.stackRunCmdOp.length
  pending : ∀ request ∈ k.pending, ∃ c, k.sandbox.currentExecutingCommand = some c ∧
    Faithful (request, c)
  hits : ∀ hit ∈ k.hits, Faithful hit

theorem aimed_init : init.Aimed where
  allocated := allocated_init
  opcodes := rfl
  pending := nofun
  hits := nofun

/-- The record tells the truth: a consumption that adds no hit writes no command, one that
adds a hit ends the current command. -/
theorem consume_hits (aimed : k.Aimed) (t : BatchCommandSandbox) :
    ((k.consume c t).hits = k.hits →
        (consumeRunCmdOps c k.sandbox.stackRunCmdOp k.sandbox).commands = k.sandbox.commands) ∧
      ((k.consume c t).hits ≠ k.hits →
        ((consumeRunCmdOps c k.sandbox.stackRunCmdOp k.sandbox).commands c).runningProperty =
          rpEnd) := by
  have ho := aimed.opcodes
  cases hs : (k.sandbox.commands c).sticky with
  | true =>
    refine ⟨fun _ => consumeRunCmdOps_of_sticky hs, fun added => ?_⟩
    simp [consume, hs] at added
  | false =>
    cases ops : k.sandbox.stackRunCmdOp with
    | nil =>
      rw [ops, length_nil, length_eq_zero_iff] at ho
      exact ⟨fun _ => rfl, fun added => by simp [consume, ho] at added⟩
    -- A pending opcode has a pending request, so the record cannot stay as it is.
    | cons op rest =>
      rw [ops, length_cons] at ho
      refine ⟨fun same => ?_, fun _ => consumeRunCmdOps_ends hs⟩
      have empty : k.pending = [] := by simpa [consume, hs] using same
      rw [empty, length_nil] at ho
      omega

/-! ### Steps and runs -/

/-- The scheduler empties the opcode stack when it gets the lock, nobody else shortens it. -/
theorem runCurrent_stackRunCmdOp (owns : Bool) (now : Nat)
    (acq corr : HandlerOutcome) (tout : TimeoutOutcome) :
    (s.runCurrent c owns now acq corr tout).stackRunCmdOp =
      if owns then [] else s.stackRunCmdOp := by
  have hc : ∀ (ops : List RunningCommandFunctionOpcode) (r : BatchCommandSandbox),
      r.stackRunCmdOp = ops → (consumeRunCmdOps c ops r).stackRunCmdOp = [] := by
    intro ops
    induction ops with
    | nil => exact fun r whole => whole
    | cons op rest ih => exact fun r _ => ih _ rfl
  unfold runCurrent
  rw [update_stackRunCmdOp, callFunctor_frame (·.stackRunCmdOp),
    callFunctor_frame (·.stackRunCmdOp)]
  cases owns
  · rfl
  · exact hc _ s rfl

/-- A step that neither pushes nor consumes opcodes, and leaves the current command in place
unless there is nothing pending to aim at it. -/
theorem Aimed.keep (aimed : k.Aimed) (ha : t.Allocated)
    (ho : t.stackRunCmdOp = k.sandbox.stackRunCmdOp)
    (ht : k.pending = [] ∨ t.currentExecutingCommand = k.sandbox.currentExecutingCommand) :
    Aimed { k with sandbox := t } := by
  refine ⟨ha, aimed.opcodes.trans (congrArg List.length ho.symm), ?_, aimed.hits⟩
  intro req hm
  rcases ht with none | same
  · rw [none] at hm
    cases hm
  · obtain ⟨c, hc, hf⟩ := aimed.pending req hm
    exact ⟨c, same.trans hc, hf⟩

theorem Aimed.pending_of_opcodes (aimed : k.Aimed) (none : k.sandbox.stackRunCmdOp = []) :
    k.pending = [] := by
  have ho := aimed.opcodes
  rwa [none, length_nil, length_eq_zero_iff] at ho

theorem Aimed.pending_of_vacant (aimed : k.Aimed)
    (hv : k.sandbox.currentExecutingCommand = none) : k.pending = [] := by
  refine eq_nil_iff_forall_not_mem.mpr fun req hm => ?_
  obtain ⟨c, hc, -⟩ := aimed.pending req hm
  cases hv.symm.trans hc

/-- The consumed requests were aimed at the command on which they are consumed. -/
theorem Aimed.consume (aimed : k.Aimed) (ha : t.Allocated)
    (hc : k.sandbox.currentExecutingCommand = some c) (he : t.stackRunCmdOp = []) :
    (k.consume c t).Aimed := by
  refine ⟨ha, (congrArg List.length he).symm, ?_, fun hit hm => ?_⟩
  · intro req none
    cases none
  · rcases mem_append.mp hm with old | new
    · exact aimed.hits hit old
    · split at new
      · cases new
      · obtain ⟨req, hw, rfl⟩ := List.mem_map.mp new
        obtain ⟨d, slot, hf⟩ := aimed.pending req hw
        obtain rfl := Option.some.inj (hc.symm.trans slot)
        exact hf

theorem step_aimed (aimed : k.Aimed) (hs : k.Settled act) (taken : k.step act = some l) :
    l.Aimed := by
  obtain ⟨t, base, rfl⟩ := map_eq_some_iff.mp taken
  have ha := step_allocated aimed.allocated base
  cases step_effect base with
  | kill =>
    obtain ⟨c, hc⟩ := isSome_iff_exists.mp hs
    refine ⟨ha, congrArg Nat.succ aimed.opcodes, fun req hm => ?_, aimed.hits⟩
    rcases mem_cons.mp hm with rfl | old
    · exact ⟨c, hc, hc, aimed.allocated.refers c (.inr (.inl hc))⟩
    · exact aimed.pending req old
  -- Without the lock on the opcodes the requests stay pending, with it they are all consumed.
  | @run owns now acq corr tout c started hr hc =>
    have ho := runCurrent_stackRunCmdOp (s := k.sandbox) (c := c) owns now acq corr tout
    cases owns
    · refine aimed.keep ha ho (.inr ?_)
      exact runCurrent_frame (·.currentExecutingCommand)
    · simp only [follow, hc]
      exact aimed.consume ha hc ho
  | @runNothing owns now acq corr tout hv =>
    have hf (t : BatchCommandSandbox) : k.follow t (.runCommand owns now acq
        corr tout) = { k with sandbox := t } := by
      cases owns <;> simp [follow, hv]
    rw [hf]
    exact aimed.keep ha rfl (.inr rfl)
  | deinit =>
    refine aimed.keep ha ?_ (.inl (aimed.pending_of_opcodes hs))
    exact killAll_frame (·.stackRunCmdOp)
  | checkQueue started point ops =>
    have ho := drained_frame (·.stackRunCmdOp) ops
    have slot := drained_frame (·.currentExecutingCommand) ops
    exact aimed.keep ha ho (.inr slot)
  | finishStack _ _ hp =>
    subst hp
    exact aimed.keep ha (by simp) (.inl (aimed.pending_of_opcodes hs))
  -- The command leaves the slot, and by the guard no request is pending.
  | finishReplace | resume | endSticky | endLast =>
    exact aimed.keep ha (by simp) (.inl (aimed.pending_of_opcodes hs))
  -- Without a current command there are no pending requests.
  | installFirst _ hv | installSticky _ hv =>
    exact aimed.keep ha (by simp) (.inl (aimed.pending_of_vacant hv))
  | stack | close | retry | foundEnded | foundNoneEnded | skipSticky | features | stepDelay =>
    exact aimed.keep ha (by simp) (.inr (by simp))
  | _ => exact aimed.keep ha rfl (.inr rfl)

/-- **A kill request hits its target.** In every run whose requests are made while there is a
current command and are consumed before it is replaced or removed, each request that has set
`RP_END` has set it on the command that was current when it was made. -/
theorem kill_request_hits_target (actions : List Action)
    (settled : Admissible step Settled init actions) (run : execute step init actions = some k) :
    ∀ request c, (request, c) ∈ k.hits → request.target = some c ∧ c ≤ request.submitted := by
  have aimed := settled.invariant step_aimed aimed_init run
  exact fun request c hm => aimed.hits (request, c) hm

/-- A class with a correlation handler only. -/
def workerClass : CommandClass := ⟨"worker", 4, ⟨0, 0, 0, 0⟩⟩

/-- A command is installed, `steps` follow, and the scheduler makes one step. -/
def killingRun (steps : List Action) : List Action :=
  [.start, .enqueueCommand workerClass 2 1000 1000 50, .enqueueDone 1, .checkQueue true,
    .installFirst 100 .silent] ++ steps ++ [.runCommand true 900 .silent .silent .silent]

theorem kill_request_hits_target_at_once :
    ∃ k, execute step init (killingRun [.killCurrentCommand]) = some k ∧
      (⟨some 1, 1⟩, 1) ∈ k.hits ∧ (1 : CommandRef) ≤ 1 := by
  refine ⟨_, rfl, by decide, ?_⟩
  exact (kill_request_hits_target (killingRun [.killCurrentCommand]) (by decide) rfl ⟨some 1, 1⟩ 1
    (by decide)).2

/-- The command ends itself in the step before the request, is removed, and the request is
consumed by a command that was submitted after it. -/
def overtakenRun : List Action :=
  killingRun [.runCommand true 200 .silent ⟨some rpEnd, none, none⟩ .silent, .killCurrentCommand,
    .checkQueue true, .checkEnded, .endCurrent 300 .silent .silent, .installSticky 400 .silent,
    .enqueueCommand workerClass 2 1000 1000 50, .enqueueDone 1, .checkQueue true,
    .installFirst 500 .silent]

theorem kill_request_hits_later_command :
    ∃ k, execute step init overtakenRun = some k ∧ k.hits = [(⟨some 1, 1⟩, 2)] ∧
      (k.sandbox.commands 2).runningProperty = rpEnd := by
  refine ⟨_, rfl, by decide, by decide⟩

end KillRecord

end ChaosFramework.Batch
