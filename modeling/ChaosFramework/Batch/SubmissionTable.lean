import ChaosFramework.Batch.SandboxFrame
import ChaosFramework.Transition

/-!
# The table of running property against submission rule

`checkNextCommand` indexes a table of four rows and three columns with two bytes: the running
property of the current command, written by user code and by the catch clauses, and the submission
rule of the next one, which comes from the submission request. There are five running properties,
and nothing restricts the rule. Under `TableSafe` both bytes of every command object stay inside the
table.
-/

namespace ChaosFramework.Batch.BatchCommandSandbox

open RunningPropertyType SubmissionRuleType HandlerType Transition

variable {s t : BatchCommandSandbox} {c next : CommandRef} {act : Action}

/-- The checker is about to evaluate the table for the current command `c` and the first
command `next` of the queue. -/
def Evaluates (s : BatchCommandSandbox) (c next : CommandRef) : Prop :=
  s.checker = .queueChecked false ∧ s.currentExecutingCommand = some c ∧
    s.commandSubmittedQueue.top.map (·.element) = some next

instance : Decidable (s.Evaluates c next) := inferInstanceAs (Decidable (_ ∧ _ ∧ _))

/-- Submissions name one of the three rules, and no handler call leaves its command in a
state above the plain fault: none sets the fatal fault property or a value that is no
running property, and none raises anything but a plain `CException`. -/
def TableSafe (_ : BatchCommandSandbox) (action : Action) : Prop :=
  action.Leaves (· < 4) ∧
    match action with
    | .enqueueCommand _ submissionRule _ _ _ => submissionRule % 256 < 3
    | _ => True

instance (action : Action) : Decidable (s.TableSafe action) :=
  match action with
  | .enqueueCommand .. => inferInstanceAs (Decidable (_ ∧ _ < _))
  | .finishSwitch .. | .endCurrent .. | .installFirst .. | .installSticky .. | .runCommand ..
  | .setDefaultStickyCommand _ | .start | .stop | .deinit | .enqueueDone _
  | .killCurrentCommand | .clearCommandQueue | .setCurrentCommandFeatures _
  | .setCurrentCommandScheduerStepDelay _ | .checkQueue _ | .compareWithCurrent _
  | .checkEnded => inferInstanceAs (Decidable (_ ∧ True))

/-- Both bytes of a command are indexes of the table. -/
def InTable (command : BatchCommand) : Prop :=
  command.runningProperty < 4 ∧ command.submissionRule < 3

theorem creates_inTable {cmd : BatchCommand} (safe : s.TableSafe act)
    (new : cmd ∈ act.creates) (id : Nat) : InTable { cmd with uniqueId := id } := by
  refine ⟨creates_runningProperty new ▸ (show 1 < 4 by decide), ?_⟩
  cases act <;>
    simp only [Action.creates, Option.mem_def, Option.some.injEq, reduceCtorEq] at new
  case setDefaultStickyCommand =>
    subst new
    exact show 2 % 256 < 3 by decide
  case enqueueCommand =>
    subst new
    exact safe.2

theorem step_inTable (hi : ∀ c, InTable (s.commands c))
    (safe : s.TableSafe act) (taken : s.step act = some t) :
    ∀ c, InTable (t.commands c) := by
  refine step_commands taken hi ?_ fun cmd new id => creates_inTable safe new id
  rintro f write d cmd ⟨row, column⟩
  refine ⟨writes_leaves safe.1 (show 2 < 4 by decide) (show 3 < 4 by decide) write row, ?_⟩
  rwa [BatchCommand.submissionRule_of_fixedPart (writes_fixedPart write cmd)]

/-- **The table is never left.** In every run of safe steps, and in every state it reaches,
the two indexes with which the checker evaluates the table lie inside it. -/
theorem evaluation_inside_table (actions : List Action)
    (safe : Admissible step TableSafe init actions) (run : execute step init actions = some s) :
    ∀ c next, s.Evaluates c next →
      (s.commands c).runningProperty < 4 ∧ (s.commands next).submissionRule < 3 ∧
        (checkRunningVsSubmission (s.commands c).runningProperty
          (s.commands next).submissionRule).isSome := by
  intro c next _
  have hi : ∀ c, InTable (s.commands c) :=
    safe.invariant step_inTable
      (fun _ => by simp [InTable, init, noCommand, instanceCommandInfo]) run
  have row := (hi c).1
  have column := (hi next).2
  exact ⟨row, column, checkRunningVsSubmission_isSome.mpr ⟨row, column⟩⟩

/-- A class with acquisition and correlation handlers. -/
def plainClass : CommandClass := ⟨"plain", 6, ⟨0, 0, 0, 0⟩⟩

/-- The first command runs one step, then a second one is submitted with `rule` and the
checker goes on to compare the two. -/
def evaluatingRun (acquireOutcome : HandlerOutcome) (rule : Nat) : List Action :=
  [.start, .enqueueCommand plainClass submitNormal 1000 1000 50, .enqueueDone 1, .checkQueue true,
    .installFirst 100 .silent, .runCommand true 200 acquireOutcome .silent .silent,
    .enqueueCommand plainClass rule 1000 1000 50, .enqueueDone 1, .checkQueue true]

theorem evaluation_inside_table_of_fault :
    ∃ s, execute step init (evaluatingRun ⟨none, none, some (.cException 1 "m" "d")⟩ 0) = some s ∧
      s.Evaluates 1 2 ∧ (s.commands 1).runningProperty < 4 ∧ (s.commands 2).submissionRule < 3 := by
  refine ⟨_, rfl, by decide, ?_⟩
  have hi := evaluation_inside_table
    (evaluatingRun ⟨none, none, some (.cException 1 "m" "d")⟩ 0) (by decide) rfl 1 2
    (by decide)
  exact ⟨hi.1, hi.2.1⟩

/-- An acquire handler that raises a standard exception leads outside the rows, a submission
with rule 3 outside the columns. -/
theorem evaluation_outside_table :
    (∃ s, execute step init (evaluatingRun ⟨none, none, some (.stdException "x")⟩ submitNormal) =
        some s ∧ s.Evaluates 1 2 ∧ (s.commands 1).runningProperty = 4 ∧
        checkRunningVsSubmission (s.commands 1).runningProperty (s.commands 2).submissionRule =
          none) ∧
      ∃ s, execute step init (evaluatingRun .silent 3) = some s ∧ s.Evaluates 1 2 ∧
        (s.commands 2).submissionRule = 3 ∧
        checkRunningVsSubmission (s.commands 1).runningProperty (s.commands 2).submissionRule =
          none := by
  refine ⟨⟨_, rfl, by decide⟩, ⟨_, rfl, by decide⟩⟩

end ChaosFramework.Batch.BatchCommandSandbox
