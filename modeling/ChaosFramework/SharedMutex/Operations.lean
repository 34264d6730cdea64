import ChaosFramework.SharedMutex

/-!
# Operations with locks

Operations start at any time, each in a thread of its own, and the threads run. What an operation
does is given by its program, and its tag is the operation itself. In a run in which only related
operations overlap the threads keep to their programs (`orderly_of_careful`).

The threads of a machine act on a store as well: an access has an outcome in its program, and where
the store does not have it the thread does not go on.
-/

namespace ChaosFramework.SharedMutex

open Transition Threads List Option

variable {L A T : Type}

/-! ### Runs -/

inductive Label (T : Type)
  | start (operation : T)
  | run (i : ℕ)
  deriving DecidableEq, Repr

section Runs

variable [DecidableEq L] [DecidableEq A] (program : T → List (Action L A)) (bars : Bool)

def Threads.step (s : Threads L A T) : Label T → Option (Threads L A T)
  | .start operation => some (s.spawn operation (program operation))
  | .run i => s.run bars i

/-- An operation starts only while those that are under way are related to it. -/
def Careful (R : T → T → Prop) (s : Threads L A T) : Label T → Prop
  | .start operation => ∀ t ∈ s, t.prog ≠ [] → R t.tag operation
  | .run _ => True

instance decidableCareful (R : T → T → Prop) [∀ o p, Decidable (R o p)] (s : Threads L A T)
    (label : Label T) : Decidable (Careful R s label) := by
  unfold Careful
  split <;> infer_instance

/-- Every thread keeps to its program, no two of them hold what they must not, and those that are
under way are related. -/
structure Orderly (allowed : T → List (L × Mode) → Action L A → Prop) (R : T → T → Prop)
    (s : Threads L A T) : Prop where
  disciplined : Disciplined allowed s
  exclusive : Exclusive s
  related : Related R s

variable {program bars} {alw : T → List (L × Mode) → Action L A → Prop} {R : T → T → Prop}
  {s t : Threads L A T} {i : ℕ}

omit [DecidableEq A] in
theorem orderly_nil : Orderly alw R [] := ⟨nofun, nofun, nofun⟩

theorem run_orderly (ho : Orderly alw R s) (taken : s.run bars i = some t) :
    Orderly alw R t :=
  ⟨run_disciplined ho.disciplined taken, run_exclusive ho.exclusive taken,
    run_related ho.related taken⟩

section

variable (leads : ∀ o, Leads (alw o) [] (program o) []) (symm : ∀ o p, R o p → R p o)

include leads symm

theorem step_orderly {label : Label T} (ho : Orderly alw R s) (hc : Careful R s label)
    (taken : s.step program bars label = some t) : Orderly alw R t := by
  cases label with
  | run i => exact run_orderly ho taken
  | start op =>
    cases taken
    exact ⟨spawn_disciplined ho.disciplined (leads op),
      spawn_exclusive ho.exclusive op (program op),
      spawn_related symm ho.related hc⟩

theorem orderly_of_careful {labels : List (Label T)}
    (ha : Admissible (Threads.step program bars) (Careful R) [] labels)
    (he : execute (Threads.step program bars) [] labels = some t) : Orderly alw R t :=
  ha.invariant (step_orderly leads symm) orderly_nil he

end

/-- No thread can go on. -/
def Stuck (bars : Bool) (s : Threads L A T) : Prop := ∀ i, s.run bars i = none

/-- A thread that cannot go on and is not at its end is at an action that is not ready. -/
theorem Stuck.blocked (stuck : Stuck bars s) (ho : Orderly alw R s)
    {w : Thread L A T} (thread : s[i]? = some w) :
    (w.prog = [] ∧ w.held = []) ∨
      ∃ a rest, w.prog = a :: rest ∧ alw w.tag w.held a ∧ ¬ s.Ready bars i a := by
  have hf := ho.disciplined i w thread
  cases next : w.prog with
  | nil =>
    rw [next] at hf
    exact .inl ⟨rfl, hf⟩
  | cons a rest =>
    rw [next] at hf
    exact .inr ⟨a, rest, rfl, hf.1, not_ready_of_run_eq_none thread next (stuck i)⟩

/-- **Deadlock freedom.** It is enough that threads are not stuck before their end. -/
theorem drains_of_orderly (hf : ∀ {s : Threads L A T}, Orderly alw R s → Stuck bars s → s.Finished)
    (ho : Orderly alw R s) : s.Drains bars := by
  refine drains_of_progress run_orderly (fun ho hu => ?_) ho
  by_contra none
  push Not at none
  have stuck : Stuck bars _ := fun i => eq_none_iff_forall_ne_some.mpr (none i)
  exact hu (hf ho stuck)

end Runs

/-! ### A store -/

/-- Threads with a store. -/
structure Machine (S L A T : Type) where
  store : S
  threads : Threads L A T

namespace Machine

/-- The next access of a thread, if it is at one. -/
def access? (s : Threads L A T) (i : ℕ) : Option A :=
  match (s[i]?).bind fun u => u.prog.head? with
  | some (.access a) => some a
  | _ => none

theorem access?_eq_some {s : Threads L A T} {i : ℕ} {a : A} :
    access? s i = some a ↔ ∃ u rest, s[i]? = some u ∧ u.prog = .access a :: rest := by
  constructor
  · intro found
    unfold access? at found
    split at found
    case h_1 b next =>
      obtain ⟨u, isThread, hh⟩ := bind_eq_some_iff.mp next
      obtain ⟨rest, hp⟩ := head?_eq_some_iff.mp hh
      cases found
      exact ⟨u, rest, isThread, hp⟩
    case h_2 => cases found
  · rintro ⟨u, rest, isThread, hp⟩
    simp [access?, isThread, hp]

section Step

variable [DecidableEq L] {S : Type} [DecidableEq A] (program : T → List (Action L A)) (bars : Bool)
  (act : A → S → Option S)

/-- A thread that is at an access acts on the store. -/
def step (s : Machine S L A T) : Label T → Option (Machine S L A T)
  | .start operation => some { s with threads := s.threads.spawn operation (program operation) }
  | .run i =>
      match s.threads.run bars i, access? s.threads i with
      | some threads, some a => (act a s.store).map fun store => ⟨store, threads⟩
      | some threads, none => some ⟨s.store, threads⟩
      | none, _ => none

variable {program bars act} {s t : Machine S L A T}

/-- What a step does to the threads and to the store. -/
theorem step_cases {label : Label T} (taken : s.step program bars act label = some t) :
    s.threads.step program bars label = some t.threads ∧
      ((∀ i, label = .run i → access? s.threads i = none) ∧ t.store = s.store ∨
      ∃ i a, label = .run i ∧ access? s.threads i = some a ∧ act a s.store = some t.store) := by
  cases label with
  | start op =>
    cases taken
    exact ⟨rfl, .inl ⟨nofun, rfl⟩⟩
  | run i =>
    unfold step at taken
    simp only at taken
    split at taken
    case h_1 thrs a isRun isAccess =>
      obtain ⟨store, acted, rfl⟩ := map_eq_some_iff.mp taken
      exact ⟨isRun, .inr ⟨i, a, rfl, isAccess, acted⟩⟩
    case h_2 thrs isRun isAccess =>
      cases taken
      refine ⟨isRun, .inl ⟨fun j same => ?_, rfl⟩⟩
      cases same
      exact isAccess
    case h_3 => cases taken

end Step

/-! ### Tests and uses -/

section Grounded

variable {S F : Type} [DecidableEq F] (uses tests : A → List F) (holds : S → F → Prop)

/-- What a program uses without having tested it. -/
def pending : List (Action L A) → List F
  | [] => []
  | .access a :: rest => uses a ++ (pending rest).filter (· ∉ tests a)
  | _ :: rest => pending rest

/-- What the threads have tested and not used yet holds. -/
def Grounded (s : Machine S L A T) : Prop :=
  ∀ i : ℕ, ∀ u ∈ s.threads[i]?, ∀ f ∈ pending uses tests u.prog, holds s.store f

variable {program : T → List (Action L A)} {bars : Bool} {act : A → S → Option S} {uses tests holds}
  {s t : Machine S L A T} {first second : List (Action L A)} {f : F}

theorem mem_pending_of_mem {a : Action L A} {rest : List (Action L A)}
    (hp : f ∈ pending uses tests rest) :
    f ∈ pending uses tests (a :: rest) ∨ ∃ b, a = .access b ∧ f ∈ tests b := by
  cases a with
  | access b =>
    by_cases tested : f ∈ tests b
    · exact .inr ⟨b, rfl, tested⟩
    · refine .inl (mem_append_right _ (mem_filter.mpr ⟨hp, ?_⟩))
      exact decide_eq_true tested
  | lock | unlock | promote | demote => exact .inl hp

theorem mem_pending_append (hp : f ∈ pending uses tests (first ++ second)) :
    f ∈ pending uses tests first ∨ f ∈ pending uses tests second := by
  induction first with
  | nil => exact .inr hp
  | cons a first ih =>
    cases a with
    | access a =>
      rcases mem_append.mp hp with hu | later
      · exact .inl (mem_append_left _ hu)
      · obtain ⟨later, untested⟩ := mem_filter.mp later
        rcases ih later with inFirst | hi
        · exact .inl (mem_append_right _ (mem_filter.mpr ⟨inFirst, untested⟩))
        · exact .inr hi
    | lock | unlock | promote | demote => exact ih hp

variable (uses tests) in
/-- A program that tests all that it uses. -/
def Closed (prog : List (Action L A)) : Prop := pending uses tests prog = []

theorem Closed.append (hc : Closed uses tests first)
    (closedToo : Closed uses tests second) : Closed uses tests (first ++ second) := by
  refine eq_nil_iff_forall_not_mem.mpr fun f hp => ?_
  rcases mem_pending_append hp with inFirst | hi
  · exact eq_nil_iff_forall_not_mem.mp hc f inFirst
  · exact eq_nil_iff_forall_not_mem.mp closedToo f hi

theorem Closed.flatMap {α : Type} (xs : List α) {body : α → List (Action L A)}
    (each : ∀ x ∈ xs, Closed uses tests (body x)) : Closed uses tests (xs.flatMap body) := by
  induction xs with
  | nil => exact rfl
  | cons x xs ih =>
    exact (each x mem_cons_self).append (ih fun y later => each y (mem_cons_of_mem x later))

theorem Closed.holding {l : L} {m : Mode} {body : List (Action L A)}
    (hc : Closed uses tests body) : Closed uses tests (SharedMutex.holding l m body) :=
  hc.append rfl

variable [DecidableEq L] [DecidableEq A]

theorem run_prog {s t : Threads L A T} {i j : ℕ} (taken : s.run bars i = some t)
    {w : Thread L A T} (isThread : w ∈ t[j]?) :
    ∃ v ∈ s[j]?, v.prog = w.prog ∨ j = i ∧ ∃ a, v.prog = a :: w.prog := by
  cases run_outcome taken with
  | @waited u a rest thread next hp =>
    rcases mem_set_cases thread isThread with ⟨rfl, rfl⟩ | ⟨-, isOld⟩
    · exact ⟨u, thread, .inl rfl⟩
    · exact ⟨w, isOld, .inl rfl⟩
  | @advanced u a rest thread next ready =>
    rcases mem_set_cases thread isThread with ⟨rfl, rfl⟩ | ⟨-, isOld⟩
    · exact ⟨u, thread, .inr ⟨rfl, a, next⟩⟩
    · exact ⟨w, isOld, .inl rfl⟩

/-- What has been tested stays, when the programs test what they use and the accesses of the threads
spare what is pending. -/
theorem step_grounded (hc : ∀ o, Closed uses tests (program o))
    (confirms : ∀ {a σ τ}, act a σ = some τ → ∀ f ∈ tests a, holds τ f)
    (grounded : Grounded uses tests holds s) {label : Label T}
    (taken : s.step program bars act label = some t)
    (hs : ∀ {i a}, access? s.threads i = some a → act a s.store = some t.store →
      ∀ {j : ℕ} {w : Thread L A T}, s.threads[j]? = some w →
        ∀ f ∈ pending uses tests w.prog, holds s.store f → holds t.store f) :
    Grounded uses tests holds t := by
  obtain ⟨threads, stored⟩ := step_cases taken
  -- What is pending in a thread is not changed by the access, whoever makes it.
  have kept {j : ℕ} {w : Thread L A T} (isThread : s.threads[j]? = some w) {f : F}
      (hp : f ∈ pending uses tests w.prog) : holds t.store f := by
    have hb := grounded j w isThread f hp
    rcases stored with ⟨-, same⟩ | ⟨i, a, -, ha, acted⟩
    · rw [same]
      exact hb
    · exact hs ha acted isThread f hp hb
  intro j w isThread f hp
  cases label with
  | start op =>
    have isSpawned : some (s.threads.spawn op (program op)) = some t.threads :=
      threads
    rw [← Option.some.inj isSpawned] at isThread
    rcases getElem?_spawn isThread with isOld | ⟨-, rfl⟩
    · exact kept isOld hp
    · exact absurd hp (eq_nil_iff_forall_not_mem.mp (hc op) f)
  | run i =>
    obtain ⟨v, isOld, same | ⟨rfl, a, next⟩⟩ := run_prog threads isThread
    · exact kept isOld (same ▸ hp)
    · rcases mem_pending_of_mem (a := a) hp with hw | ⟨b, rfl, tested⟩
      · exact kept isOld (next ▸ hw)
      · have ha := access?_eq_some.mpr ⟨v, w.prog, isOld, next⟩
        rcases stored with ⟨none, -⟩ | ⟨i, c, same, isAccessToo, acted⟩
        · exact absurd (ha.symm.trans (none j rfl)) nofun
        · cases same
          obtain rfl := Option.some.inj (ha.symm.trans isAccessToo)
          exact confirms acted f tested

end Grounded

end Machine

end ChaosFramework.SharedMutex
