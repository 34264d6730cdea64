import ChaosFramework.Batch.PriorityOrder
import Mathlib.Data.List.Pairwise

/-!
# The processing queue with priorities

`CObjectProcessingPriorityQueue` orders elements with one priority by a time stamp in microseconds.
The comparator holds of an element and itself, and of two elements with one stamp in both
directions. The size is tested with `size() > MAX`, which lets in one element too many, and
`waitForEmpty` waits as long as the queue is empty.
-/

namespace ChaosFramework.Utility

open Batch Transition List Option

/-- The queue. Elements are named in the order in which they are pushed. -/
structure ProcessingPriorityQueue where
  bufferQueue : CommandPriorityQueue
  inDeinit : Bool
  pushed : ℕ
  /-- The elements that came out, each with those that were left. -/
  popped : List (PriorityQueuedElement × CommandPriorityQueue)
  /-- The sizes of the queue at which `waitForEmpty` has returned. -/
  waited : List ℕ

inductive QueueCall
  | push (timestamp : ℕ) (priority : ℤ)
  | waitAndPop
  | waitForEmpty
  | deinit
  deriving DecidableEq, Repr

namespace ProcessingPriorityQueue

def maxElementInQueue : ℕ := 1000

def init : ProcessingPriorityQueue := ⟨[], false, 0, [], []⟩

def push (s : ProcessingPriorityQueue) (timestamp : ℕ) (priority : ℤ) :
    ProcessingPriorityQueue × Bool :=
  if s.inDeinit = true ∨ s.bufferQueue.length > maxElementInQueue then (s, false)
  else ({ s with
    bufferQueue := s.bufferQueue ++ [⟨timestamp, priority, s.pushed⟩]
    pushed := s.pushed + 1 }, true)

/-- A call that has to wait is not enabled. -/
def step (s : ProcessingPriorityQueue) : QueueCall → Option ProcessingPriorityQueue
  | .push timestamp priority => some (s.push timestamp priority).1
  | .waitAndPop =>
      match s.bufferQueue.top with
      | some first =>
          let rest := s.bufferQueue.pop first
          some { s with bufferQueue := rest, popped := (first, rest) :: s.popped }
      | none => if s.inDeinit then some s else none
  | .waitForEmpty =>
      if s.bufferQueue.isEmpty then none
      else some { s with waited := s.bufferQueue.length :: s.waited }
  | .deinit => some { s with inDeinit := true }

/-- What is expected of the queue, up to the irreflexivity of its comparator: the elements come out
by priority and in the order of the pushes, each of them once; the comparator decides between
different elements; and the queue is bounded. -/
structure Orderly (s : ProcessingPriorityQueue) : Prop where
  ordered : ∀ out ∈ s.popped, ∀ e ∈ out.2, e.priority < out.1.priority ∨
    e.priority = out.1.priority ∧ out.1.element < e.element
  conserved : (s.popped.map (·.1.element) ++ s.bufferQueue.map (·.element)).Perm (range s.pushed)
  decides : ∀ e ∈ s.bufferQueue, ∀ f ∈ s.bufferQueue, e ≠ f →
    priorityCommandCompare e f = !priorityCommandCompare f e
  transitive : ∀ e ∈ s.bufferQueue, ∀ f ∈ s.bufferQueue, ∀ g ∈ s.bufferQueue,
    priorityCommandCompare e f → priorityCommandCompare f g → priorityCommandCompare e g
  bounded : s.bufferQueue.length ≤ maxElementInQueue
  emptied : ∀ size ∈ s.waited, size = 0

/-- What is expected of the queue: its comparator is a strict order of the elements. -/
structure Served (s : ProcessingPriorityQueue) : Prop extends Orderly s where
  irreflexive : ∀ e ∈ s.bufferQueue, priorityCommandCompare e e = false

/-- An element comes with a later stamp than those that wait with its priority, and not to a full
queue. Nobody waits for the queue to be empty. -/
def Ordinary (s : ProcessingPriorityQueue) : QueueCall → Prop
  | .push timestamp priority => s.inDeinit = true ∨ s.bufferQueue.length ≠ maxElementInQueue ∧
      ∀ e ∈ s.bufferQueue, e.priority = priority → e.sequenceId < timestamp
  | .waitForEmpty => False
  | _ => True

/-- No element is taken in. -/
def Idle (s : ProcessingPriorityQueue) : QueueCall → Prop
  | .push _ _ => s.inDeinit = true
  | _ => True

/-- One element is pushed before another, and with an earlier stamp if they have one priority. -/
def Before (e f : PriorityQueuedElement) : Prop :=
  e.element < f.element ∧ (e.priority = f.priority → e.sequenceId < f.sequenceId)

/-- The invariant: the elements wait in the order in which they were pushed. -/
structure Tracked (s : ProcessingPriorityQueue) : Prop where
  ordered : ∀ out ∈ s.popped, ∀ e ∈ out.2, e.priority < out.1.priority ∨
    e.priority = out.1.priority ∧ out.1.element < e.element
  conserved : (s.popped.map (·.1.element) ++ s.bufferQueue.map (·.element)).Perm (range s.pushed)
  inOrder : s.bufferQueue.Pairwise Before
  made : ∀ e ∈ s.bufferQueue, e.element < s.pushed
  bounded : s.bufferQueue.length ≤ maxElementInQueue
  waited : s.waited = []

variable {s t : ProcessingPriorityQueue} {call : QueueCall}

theorem Tracked.before (h : s.Tracked) {e f : PriorityQueuedElement} (he : e ∈ s.bufferQueue)
    (hf : f ∈ s.bufferQueue) (different : e ≠ f) : Before e f ∨ Before f e := by
  have : Std.Symm fun e f => Before e f ∨ Before f e := ⟨fun _ _ => Or.symm⟩
  have both : s.bufferQueue.Pairwise fun e f => Before e f ∨ Before f e := h.inOrder.imp .inl
  exact both.forall he hf different

theorem Tracked.orderly (h : s.Tracked) : s.Orderly where
  ordered := h.ordered
  conserved := h.conserved
  decides e he f hf different := by
    have either := h.before he hf different
    unfold Before at either
    rw [Bool.eq_not_iff, ne_eq, Bool.eq_iff_iff, priorityCommandCompare_iff,
      priorityCommandCompare_iff]
    omega
  transitive e _ f _ g _ := by
    simp only [priorityCommandCompare_iff]
    omega
  bounded := h.bounded
  emptied := h.waited ▸ nofun

theorem Tracked.push (h : s.Tracked) {timestamp : ℕ} {priority : ℤ}
    (ordinary : s.Ordinary (.push timestamp priority)) : (s.push timestamp priority).1.Tracked := by
  unfold ProcessingPriorityQueue.push
  split
  next => exact h
  next accepted =>
    obtain ⟨room, later⟩ := ordinary.resolve_left fun ends => accepted (.inl ends)
    refine { h with
      conserved := ?_
      inOrder := pairwise_append.mpr ⟨h.inOrder, pairwise_singleton _ _, fun e he => ?_⟩
      made := forall_mem_append.mpr ⟨fun e he => Nat.lt_succ_of_lt (h.made e he),
        forall_mem_singleton.mpr (Nat.lt_succ_self _)⟩
      bounded := ?_ }
    · rw [map_append, ← append_assoc, range_succ]
      exact h.conserved.append_right _
    · exact forall_mem_singleton.mpr ⟨h.made e he, later e he⟩
    · rw [length_append]
      exact Nat.lt_of_le_of_ne h.bounded room

/-- The top has the highest priority, and no element with its priority was pushed before it. -/
theorem Tracked.pop (h : s.Tracked) {first : PriorityQueuedElement}
    (ht : s.bufferQueue.top = some first) :
    Tracked { s with
      bufferQueue := s.bufferQueue.pop first
      popped := (first, s.bufferQueue.pop first) :: s.popped } := by
  have hl : (s.bufferQueue.pop first).Sublist s.bufferQueue := erase_sublist
  have taken := (perm_cons_erase (CommandPriorityQueue.top_mem ht)).map (·.element)
  refine { h with
    ordered := forall_mem_cons.mpr ⟨fun e he => ?_, h.ordered⟩
    conserved := (perm_middle.symm.trans (taken.symm.append_left _)).trans h.conserved
    inOrder := h.inOrder.sublist hl
    made := fun e he => h.made e (hl.subset he)
    bounded := hl.length_le.trans h.bounded }
  have nodup : s.bufferQueue.Nodup :=
    List.Pairwise.imp (S := (· ≠ ·)) (fun hb he => Nat.ne_of_lt hb.1 (congrArg _ he)) h.inOrder
  obtain ⟨different, hm⟩ := nodup.mem_erase_iff.mp he
  have after := priorityCommandCompare_iff.mp (CommandPriorityQueue.top_first ht hm)
  rcases h.before hm (CommandPriorityQueue.top_mem ht) different with hb | hb
  · exact .inl (after.resolve_right fun ⟨same, hs⟩ => Nat.not_lt.mpr hs (hb.2 same))
  · exact after.imp_right fun both => ⟨both.1, hb.1⟩

theorem tracked_init : init.Tracked :=
  ⟨forall_mem_nil _, .nil, .nil, forall_mem_nil _, Nat.zero_le _, rfl⟩

theorem Tracked.step (h : s.Tracked) (ordinary : s.Ordinary call) (ht : s.step call = some t) :
    t.Tracked := by
  cases call with
  | push timestamp priority =>
    cases ht
    exact h.push ordinary
  | waitAndPop =>
    simp only [ProcessingPriorityQueue.step] at ht
    split at ht
    next first isTop =>
      cases ht
      exact h.pop isTop
    next =>
      obtain ⟨-, ⟨⟩⟩ := ite_none_right_eq_some.mp ht
      exact h
  | waitForEmpty => exact ordinary.elim
  | deinit =>
    cases ht
    exact { h with }

/-- Nothing has been taken in. -/
structure Empty (s : ProcessingPriorityQueue) : Prop where
  bufferQueue : s.bufferQueue = []
  pushed : s.pushed = 0
  popped : s.popped = []
  waited : s.waited = []

theorem Empty.served (h : s.Empty) : s.Served := by
  obtain ⟨queue, deinit, pushed, popped, waited⟩ := s
  obtain ⟨⟨⟩, ⟨⟩, ⟨⟩, ⟨⟩⟩ := h
  exact ⟨⟨nofun, .nil, nofun, nofun, Nat.zero_le _, nofun⟩, nofun⟩

theorem Empty.step (h : s.Empty) (idle : s.Idle call) (ht : s.step call = some t) : t.Empty := by
  cases call with
  | push timestamp priority =>
    have refused : s.push timestamp priority = (s, false) := if_pos (.inl idle)
    cases ht
    rwa [refused]
  | waitAndPop =>
    rw [ProcessingPriorityQueue.step, h.bufferQueue] at ht
    obtain ⟨-, ⟨⟩⟩ := ite_none_right_eq_some.mp ht
    exact h
  | waitForEmpty =>
    rw [ProcessingPriorityQueue.step, h.bufferQueue] at ht
    cases ht
  | deinit =>
    cases ht
    exact { h with }

/-- An element that waits compares with itself. -/
theorem Served.idle (h : s.Empty) (ht : s.step call = some t) (served : t.Served) :
    s.Idle call := by
  cases call with
  | push timestamp priority =>
    by_contra running
    have accepted : s.push timestamp priority = _ :=
      if_neg (not_or.mpr ⟨running, by simp [h.bufferQueue]⟩)
    cases ht
    rw [accepted] at served
    have itself := served.irreflexive _ (mem_append_right _ (mem_singleton_self _))
    rw [Bool.eq_false_iff, ne_eq, priorityCommandCompare_iff] at itself
    exact itself (.inr ⟨rfl, le_rfl⟩)
  | waitAndPop | waitForEmpty | deinit => trivial

/-- The queue serves its elements in order when the stamps of equal priorities rise, at most a
thousand elements wait and `waitForEmpty` is not used. Its comparator is a strict order in every
state exactly when no element is taken in. -/
theorem served_iff_idle {calls : List QueueCall}
    (run : execute ProcessingPriorityQueue.step init calls = some t) :
    (Admissible ProcessingPriorityQueue.step Ordinary init calls → t.Orderly) ∧
      (Admissible ProcessingPriorityQueue.step Idle init calls ↔
        ∀ n s, execute ProcessingPriorityQueue.step init (calls.take n) = some s → s.Served) :=
  ⟨fun ordinary => (ordinary.invariant Tracked.step tracked_init run).orderly,
    admissible_iff_forall_reached Empty.step Empty.served Served.idle ⟨rfl, rfl, rfl, rfl⟩ run⟩

theorem served_iff_idle_three :
    let calls : List QueueCall := [.push 5 0, .push 6 0, .push 7 1, .waitAndPop, .waitAndPop]
    ∃ s, execute ProcessingPriorityQueue.step init calls = some s ∧ s.Orderly ∧
      s.popped.map (·.1.element) = [0, 2] ∧
      ¬ ∀ n r, execute ProcessingPriorityQueue.step init (calls.take n) = some r → r.Served := by
  intro calls
  have ordinary : Admissible ProcessingPriorityQueue.step Ordinary init calls := by
    refine ⟨.inr ?_, .inr ?_, .inr ?_, trivial, trivial, trivial⟩ <;> decide
  have result := @served_iff_idle _ calls rfl
  refine ⟨_, rfl, result.1 ordinary, by decide, result.2.not.mp fun idle => ?_⟩
  exact absurd idle.1 nofun

/-- Two elements of one microsecond come out in the wrong order, and each of them compares with
itself. One element too many is accepted, and `waitForEmpty` returns for a queue with an element. -/
theorem second_first :
    (∃ s, execute ProcessingPriorityQueue.step init
        [.push 5 0, .push 5 0, .waitForEmpty, .waitAndPop] = some s ∧
      s.popped.map (·.1.element) = [1] ∧ s.waited = [2] ∧
      s.bufferQueue.map (fun e => priorityCommandCompare e e) = [true]) ∧
    (push { init with bufferQueue := replicate 1000 ⟨5, 0, 0⟩ } 6 0).2 = true := by
  decide +kernel

end ProcessingPriorityQueue

end ChaosFramework.Utility
