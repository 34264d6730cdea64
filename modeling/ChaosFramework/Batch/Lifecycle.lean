import ChaosFramework.Batch.SandboxFrame
import ChaosFramework.Transition
import Mathlib.Computability.RegularExpressions

/-!
# The life of a submitted command

What a sandbox may report about one command is a regular language, `lifecycle`, recognised by an
automaton whose states are the phases of a command. The serialized sandbox refines it, with one
hole: the test of the running property that `checkNextCommand` makes without the mutex. It is closed
by a condition on the steps, `Disciplined` in `Batch.Custody`.
-/

namespace ChaosFramework.Batch

open RunningPropertyType SubmissionRuleType HandlerType List Option

/-! ### The language of events -/

section Language

open RegularExpression BatchCommandEventType

/-- The complete sequences of events of a submitted command. -/
def lifecycle : RegularExpression BatchCommandEventType :=
  char queued *
    (char dequeue + char killed +
      char running * star (char paused * char running) *
        (char completed + char fault + char fatalFault + char killed +
          char paused * char killed))

/-- The events after which nothing more is reported for a command. -/
def BatchCommandEventType.closing : BatchCommandEventType → Bool
  | .completed | .fault | .fatalFault | .killed | .dequeue => true
  | _ => false

/-- The phases of a command, the states of the automaton of `lifecycle`. -/
inductive Phase
  | fresh | queued | running | paused | closed
  deriving DecidableEq, Repr

/-- The transitions of the automaton. -/
def Phase.advance : Phase → BatchCommandEventType → Option Phase
  | .fresh, .queued => some .queued
  | .queued, .dequeue => some .closed
  | .queued, .killed => some .closed
  | .queued, .running => some .running
  | .running, .paused => some .paused
  | .running, .completed => some .closed
  | .running, .fault => some .closed
  | .running, .fatalFault => some .closed
  | .running, .killed => some .closed
  | .paused, .running => some .running
  | .paused, .killed => some .closed
  | _, _ => none

/-- The phase reached after a sequence of events. -/
def phaseOf (word : List BatchCommandEventType) : Option Phase :=
  word.foldlM Phase.advance .fresh

theorem phaseOf_append_singleton (word : List BatchCommandEventType) (ev : BatchCommandEventType) :
    phaseOf (word ++ [ev]) = (phaseOf word).bind (·.advance ev) := by
  simp [phaseOf]

/-- The events of a command that has been installed and then stacked `n` times. -/
def opened (n : Nat) : List BatchCommandEventType :=
  queued :: running :: (List.replicate n [paused, running]).flatten

theorem opened_succ (n : Nat) : opened (n + 1) = opened n ++ [paused, running] := by
  simp [opened, replicate_succ']

/-- A command that runs may end with any word of the last factor of `lifecycle`. -/
theorem opened_append_mem_lifecycle {n : Nat} {last : List BatchCommandEventType}
    (ends : last = [completed] ∨ last = [fault] ∨ last = [fatalFault] ∨ last = [killed] ∨
      last = [paused, killed]) : opened n ++ last ∈ lifecycle.matches' := by
  have cycles : (replicate n [paused, running]).flatten ∈
      (star (char paused * char running)).matches' :=
    Language.join_mem_kstar fun word hm =>
      ⟨[paused], rfl, [running], rfl, (eq_of_mem_replicate hm).symm⟩
  have closed : last ∈ (char completed + char fault + char fatalFault + char killed +
      char paused * char killed).matches' := by
    rcases ends with rfl | rfl | rfl | rfl | rfl
    · exact .inl (.inl (.inl (.inl rfl)))
    · exact .inl (.inl (.inl (.inr rfl)))
    · exact .inl (.inl (.inr rfl))
    · exact .inl (.inr rfl)
    · exact .inr ⟨[paused], rfl, [killed], rfl, rfl⟩
  have started := Language.append_mem_mul
    (Language.append_mem_mul (Set.mem_singleton [running]) cycles) closed
  exact ⟨[queued], rfl, _, .inr started, rfl⟩

/-- The words that lead to a phase. -/
def Phase.Words : Phase → List BatchCommandEventType → Prop
  | .fresh, word => word = []
  | .queued, word => word = [BatchCommandEventType.queued]
  | .running, word => ∃ n, word = opened n
  | .paused, word => ∃ n, word = opened n ++ [BatchCommandEventType.paused]
  | .closed, word => word ∈ lifecycle.matches'

variable {word : List BatchCommandEventType} {p : Phase}

theorem Phase.words_advance {q : Phase}
    {ev : BatchCommandEventType} (words : p.Words word) (next : p.advance ev = some q) :
    q.Words (word ++ [ev]) := by
  -- One case for each edge of the automaton; the other pairs have no next phase.
  cases p <;> cases ev <;> simp only [advance, Option.some.injEq, reduceCtorEq] at next
  all_goals subst next
  case fresh.queued => rw [show word = [] from words]; rfl
  case queued.running => rw [show word = [_] from words]; exact ⟨0, rfl⟩
  case queued.dequeue =>
    rw [show word = [_] from words]
    exact ⟨[BatchCommandEventType.queued], rfl, [.dequeue], .inl (.inl rfl), rfl⟩
  case queued.killed =>
    rw [show word = [_] from words]
    exact ⟨[BatchCommandEventType.queued], rfl, [.killed], .inl (.inr rfl), rfl⟩
  case paused.running =>
    obtain ⟨n, rfl⟩ := words
    exact ⟨n + 1, by rw [opened_succ, append_assoc]; rfl⟩
  case paused.killed =>
    obtain ⟨n, rfl⟩ := words
    rw [append_assoc]
    exact opened_append_mem_lifecycle (.inr (.inr (.inr (.inr rfl))))
  case running.paused =>
    obtain ⟨n, rfl⟩ := words
    exact ⟨n, rfl⟩
  all_goals
    obtain ⟨n, rfl⟩ := words
    exact opened_append_mem_lifecycle (by simp)

theorem words_of_phaseOf (hr : phaseOf word = some p) : p.Words word := by
  -- The automaton reads from the left, so the induction takes the last event off.
  induction word using reverseRecOn generalizing p with
  | nil =>
    cases hr
    rfl
  | append_singleton word ev ih =>
    rw [phaseOf_append_singleton] at hr
    obtain ⟨q, hb, next⟩ := bind_eq_some_iff.mp hr
    exact Phase.words_advance (ih hb) next

/-- Everything the automaton accepts can be completed to a word of the language. -/
theorem prefix_lifecycle_of_phaseOf
    (hr : phaseOf word = some p) : ∃ full ∈ lifecycle.matches', word <+: full := by
  have words := words_of_phaseOf hr
  cases p with
  | fresh =>
    obtain rfl : word = [] := words
    exact ⟨opened 0 ++ [killed], opened_append_mem_lifecycle (by simp), nil_prefix⟩
  | queued =>
    obtain rfl : word = [queued] := words
    exact ⟨opened 0 ++ [killed], opened_append_mem_lifecycle (by simp), ⟨[running, killed], rfl⟩⟩
  | running =>
    obtain ⟨n, rfl⟩ := words
    exact ⟨opened n ++ [killed], opened_append_mem_lifecycle (by simp), prefix_append ..⟩
  | paused =>
    obtain ⟨n, rfl⟩ := words
    refine ⟨opened n ++ [paused, killed], opened_append_mem_lifecycle (by simp), [killed], ?_⟩
    rw [append_assoc]
    rfl
  | closed => exact ⟨word, words, prefix_refl word⟩

/-- Closed commands have had one closing event, the others none. -/
theorem countP_closing_of_phaseOf (hr : phaseOf word = some p) :
    word.countP (·.closing) = if p = .closed then 1 else 0 := by
  induction word using reverseRecOn generalizing p with
  | nil =>
    cases hr
    rfl
  | append_singleton word ev ih =>
    rw [phaseOf_append_singleton] at hr
    obtain ⟨q, hb, next⟩ := bind_eq_some_iff.mp hr
    rw [countP_append, ih hb]
    cases q <;> cases ev <;> simp only [Phase.advance, Option.some.injEq, reduceCtorEq] at next
    all_goals subst next; rfl

end Language

end ChaosFramework.Batch
