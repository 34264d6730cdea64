import ChaosFramework.Batch.SandboxFrame
import ChaosFramework.Transition

/-!
# The order of the submission queue

The checker takes the top of the queue. The priority of a command is submitted as a `uint32_t` and
stored as an `int`, and equal priorities are told apart by the identifier of the command, which is
its number in 64 bits. The sandbox is run together with the priorities that were submitted.
-/

namespace ChaosFramework.Batch

open RunningPropertyType SubmissionRuleType Transition List Function CommandPriorityQueue

theorem priorityCommandCompare_iff {lhs rhs : PriorityQueuedElement} :
    priorityCommandCompare lhs rhs ↔ lhs.priority < rhs.priority ∨
      lhs.priority = rhs.priority ∧ rhs.sequenceId ≤ lhs.sequenceId := by
  unfold priorityCommandCompare
  split
  · simp [*]
  · split <;> simp [*]

/-- Everything in the queue comes out after its top, which also compares so with itself. -/
theorem CommandPriorityQueue.top_first {queue : CommandPriorityQueue}
    {first e : PriorityQueuedElement} (isTop : queue.top = some first) (hm : e ∈ queue) :
    priorityCommandCompare e first := by
  have refl (e : PriorityQueuedElement) : priorityCommandCompare e e :=
    priorityCommandCompare_iff.mpr (.inr ⟨rfl, le_rfl⟩)
  induction queue generalizing first with
  | nil => cases hm
  | cons head rest ih =>
    unfold top at isTop
    cases inner : top rest with
    | none =>
      rw [inner] at isTop
      cases isTop
      obtain rfl := mem_singleton.mp (top_eq_none.mp inner ▸ hm)
      exact refl e
    | some best =>
      simp only [inner] at isTop
      split at isTop <;> obtain rfl :=
        Option.some.inj isTop <;> rcases mem_cons.mp hm with rfl | old
      next after => exact after
      next => exact ih inner old
      next => exact refl e
      next before =>
        have hb := ih inner old
        rw [priorityCommandCompare_iff] at before hb ⊢
        omega

namespace BatchCommandSandbox

variable {s t : BatchCommandSandbox} {act : Action}

/-! ### What is in the queue -/

/-- The priority that each command was submitted with. -/
def submissions (s : BatchCommandSandbox) (action : Action) (_ : BatchCommandSandbox)
    (priorities : CommandRef → ℕ) : CommandRef → ℕ :=
  match action with
  | .enqueueCommand _ _ _ _ priority =>
      if s.deinitialized then priorities
      else Function.update priorities (s.commandSequenceId + 1) (priority % 2 ^ 32)
  | _ => priorities

/-- The sandbox with the submitted priorities. -/
def submittedStep : BatchCommandSandbox × (CommandRef → ℕ) → Action →
    Option (BatchCommandSandbox × (CommandRef → ℕ)) :=
  recorded step submissions

/-- What `enqueueCommand` has put in the element of a command. -/
structure Stored (priorities : CommandRef → ℕ) (e : PriorityQueuedElement) : Prop where
  sequenceId : e.sequenceId = e.element % 2 ^ 64
  unsigned : priorities e.element < 2 ^ 32
  priority : e.priority = Int.bmod (priorities e.element) (2 ^ 32)

/-- An element of the queue was there before or has just been submitted. -/
theorem step_queue {e : PriorityQueuedElement} (taken : s.step act = some t)
    (hm : e ∈ t.commandSubmittedQueue) :
    e ∈ s.commandSubmittedQueue ∨ ∃ descr rule retry delay prio,
      act = .enqueueCommand descr rule retry delay prio ∧
        s.deinitialized = false ∧ e = ⟨(s.commandSequenceId + 1) % 2 ^ 64,
          Int.bmod prio (2 ^ 32), s.commandSequenceId + 1⟩ := by
  have popped (r : BatchCommandSandbox) (first : PriorityQueuedElement) :
      (r.popSubmitted first).commandSubmittedQueue ⊆ r.commandSubmittedQueue :=
    erase_subset
  cases step_effect taken with
  | enqueue live =>
    rcases mem_append.mp hm with old | new
    · exact .inl old
    · obtain rfl := mem_singleton.mp new
      exact .inr ⟨_, _, _, _, _, rfl, live, by simp⟩
  | deinit =>
    have drained := @drainSubmittedQueue_keeps (killStack s.commandStack s.killCurrent)
      (fun r => r.commandSubmittedQueue ⊆ s.commandSubmittedQueue) .killed
      s.commandSubmittedQueue.length (fun kept _ => List.Subset.trans (popped _ _) kept)
    exact .inl (drained (by simp) hm)
  | @checkQueue owns _ _ _ ops =>
    subst ops
    cases owns with
    | false => exact .inl hm
    | true =>
      have drained := @consumeWaitCmdOps_keeps s
        (fun r => r.commandSubmittedQueue ⊆ s.commandSubmittedQueue) s.stackWaitCmdOp
        (fun kept => kept) (fun kept _ => List.Subset.trans (popped _ _) kept) (List.Subset.refl _)
      exact .inl (drained hm)
  | stack | close | installFirst => exact .inl (popped _ _ hm)
  | finishStack _ _ hp =>
    subst hp
    exact .inl (by simpa using hm)
  | run =>
    rw [runCurrent_frame (·.commandSubmittedQueue)] at hm
    exact .inl hm
  | finishReplace | resume | endSticky | endLast | installSticky =>
    exact .inl (by simpa using hm)
  | _ => exact .inl hm

theorem step_stored {k m : BatchCommandSandbox × (CommandRef → ℕ)}
    (ha : k.1.Allocated) (stored : ∀ e ∈ k.1.commandSubmittedQueue, Stored k.2 e)
    (taken : submittedStep k act = some m) : ∀ e ∈ m.1.commandSubmittedQueue, Stored m.2 e := by
  obtain ⟨base, hr⟩ := recorded_eq_some.mp taken
  intro e hm
  rcases step_queue base hm with old | ⟨_, _, _, _, priority, rfl, live, rfl⟩
  · have small : e.element ≤ k.1.commandSequenceId :=
      ha.refers _ (.inl (.inl (mem_map.mpr ⟨e, old, rfl⟩)))
    have same : m.2 e.element = k.2 e.element := by
      rw [← hr]
      unfold submissions
      split
      · split
        · rfl
        · exact update_of_ne (Nat.lt_succ_of_le small).ne ..
      · rfl
    obtain ⟨sequenceId, hu, priority⟩ := stored e old
    exact ⟨sequenceId, by rwa [same], by rwa [same]⟩
  · have new : m.2 (k.1.commandSequenceId + 1) = priority % 2 ^ 32 := by
      simp [← hr, submissions, live]
    refine ⟨rfl, ?_, ?_⟩
    · rw [new]
      exact Nat.mod_lt _ (by decide)
    · rw [new, Int.natCast_mod, Int.emod_bmod]

/-! ### What is taken -/

/-- The steps of `checkNextCommand` that take a command from the queue to execute it. -/
def Action.takes : Action → Bool
  | .compareWithCurrent _ | .installFirst .. => true
  | _ => false

theorem bmod_eq {n : ℕ} (hu : n < 2 ^ 32) :
    Int.bmod n (2 ^ 32) = if 2 ^ 31 ≤ n then (n : ℤ) - 2 ^ 32 else (n : ℤ) := by
  rw [Int.bmod_def]
  split <;> split <;> omega

/-- As long as the identifiers do not wrap around and no two waiting commands have priorities on
different sides of `2 ^ 31`, the command that is taken has the largest priority of those that wait,
and among equals it was submitted first. -/
theorem takes_largest_priority {actions : List Action} {action : Action}
    {k : BatchCommandSandbox × (CommandRef → ℕ)}
    (run : execute submittedStep (init, fun _ => 0) actions = some k)
    (few : k.1.commandSequenceId < 2 ^ 64)
    (alike : ∀ c ∈ k.1.commandSubmittedQueue.refs, ∀ d ∈ k.1.commandSubmittedQueue.refs,
      2 ^ 31 ≤ k.2 c → 2 ^ 31 ≤ k.2 d)
    (taken : k.1.step action = some t) (takes : action.takes = true)
    (changed : t.commandSubmittedQueue ≠ k.1.commandSubmittedQueue) :
    ∃ first ∈ k.1.commandSubmittedQueue,
      t.commandSubmittedQueue = k.1.commandSubmittedQueue.erase first ∧
      (t.checker.inHand = [first.element] ∨ t.currentExecutingCommand = some first.element) ∧
      ∀ c ∈ k.1.commandSubmittedQueue.refs, k.2 c < k.2 first.element ∨
        k.2 c = k.2 first.element ∧ first.element ≤ c := by
  obtain ⟨ha, stored⟩ := @invariant_of_execute _ _ submittedStep
    (fun k => k.1.Allocated ∧ ∀ e ∈ k.1.commandSubmittedQueue, Stored k.2 e)
    (fun kept taken => ⟨step_allocated kept.1 (recorded_eq_some.mp taken).1,
      step_stored kept.1 kept.2 taken⟩)
    _ _ _ ⟨allocated_init, forall_mem_nil _⟩ run
  have first_of_top {first : PriorityQueuedElement}
      (isTop : k.1.commandSubmittedQueue.top = some first) (c : CommandRef)
      (waits : c ∈ k.1.commandSubmittedQueue.refs) : k.2 c < k.2 first.element ∨
        k.2 c = k.2 first.element ∧ first.element ≤ c := by
    have hm := top_mem_refs isTop
    have higher := alike c waits first.element hm
    have small (d : CommandRef) (waits : d ∈ k.1.commandSubmittedQueue.refs) : d % 2 ^ 64 = d :=
      Nat.mod_eq_of_lt ((ha.refers d (.inl (.inl waits))).trans_lt few)
    obtain ⟨e, isElement, rfl⟩ := mem_map.mp waits
    have after := priorityCommandCompare_iff.mp (top_first isTop isElement)
    obtain ⟨sequenceId, hu, priority⟩ := stored e isElement
    obtain ⟨hs, unsignedToo, hp⟩ :=
      stored first (top_mem isTop)
    rw [priority, hp, bmod_eq hu, bmod_eq unsignedToo, sequenceId, hs, small _ waits,
      small _ hm] at after
    refine after.imp (fun less => ?_) fun ⟨same, earlier⟩ => ⟨?_, earlier⟩
    · split at less <;> split at less <;> omega
    · split at same <;> split at same <;> omega
  cases step_effect taken with
  | retry => exact absurd rfl changed
  | @stack _ _ first _ _ isTop | @close _ _ first _ _ _ _ isTop =>
    exact ⟨first, top_mem isTop, rfl, .inl rfl, first_of_top isTop⟩
  | @installFirst _ _ first _ _ isTop =>
    exact ⟨first, top_mem isTop, rfl, .inr rfl, first_of_top isTop⟩
  | _ => cases takes

/-- Two commands are submitted before the checker looks at the queue. -/
def twoSubmissions (priority other : ℕ) : List Action :=
  [.start, .enqueueCommand ⟨"first", 6, ⟨0, 0, 0, 0⟩⟩ submitNormal 1000 1000 priority,
    .enqueueCommand ⟨"second", 6, ⟨0, 0, 0, 0⟩⟩ submitNormal 1000 1000 other, .checkQueue true]

theorem takes_largest_priority_second : ∃ k t,
    execute submittedStep (init, fun _ => 0) (twoSubmissions 1 2) = some k ∧
      k.1.step (.installFirst 100 .silent) = some t ∧ ∃ first ∈ k.1.commandSubmittedQueue,
        t.commandSubmittedQueue = k.1.commandSubmittedQueue.erase first ∧
        (t.checker.inHand = [first.element] ∨ t.currentExecutingCommand = some first.element) ∧
        ∀ c ∈ k.1.commandSubmittedQueue.refs, k.2 c < k.2 first.element ∨
          k.2 c = k.2 first.element ∧ first.element ≤ c :=
  ⟨_, _, rfl, rfl, @takes_largest_priority _ (twoSubmissions 1 2) (.installFirst 100 .silent) _ rfl
    (by decide) (by decide) rfl rfl (by decide)⟩

/-- A priority of `2 ^ 31` is stored as a negative number. -/
theorem large_priority_waits :
    ∃ k t, execute submittedStep (init, fun _ => 0) (twoSubmissions (2 ^ 31) 1) = some k ∧
      k.2 1 = 2 ^ 31 ∧ k.2 2 = 1 ∧ k.1.step (.installFirst 100 .silent) = some t ∧
      t.currentExecutingCommand = some 2 ∧ t.commandSubmittedQueue.refs = [1] :=
  ⟨_, _, rfl, by decide, by decide, rfl, by decide, by decide⟩

end BatchCommandSandbox

end ChaosFramework.Batch
