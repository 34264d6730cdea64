import Mathlib.Data.List.Basic
import Mathlib.Algebra.Order.Group.Nat
import ChaosFramework.Transition

/-!
# Threads and shared mutexes

Threads take locks in one of three modes: to read, to write, or to read with the option to write
later (to upgrade). A thread is given by what is left of its program, a list of actions; branches
are decided beforehand. Accesses to what the locks protect are actions too, and take place while
they are the next action of a thread.

A thread that has to wait for a lock to write keeps new readers out. Whether a thread that waits to
upgrade does so as well is a parameter (`bars`). In both cases the locks of two threads are
compatible (`run_exclusive`), programs keep to their discipline (`run_disciplined`), and all threads
can be brought to their end when some thread can always go on (`drains_of_progress`).
-/

namespace ChaosFramework.SharedMutex

open Transition List Option

inductive Mode
  | read
  | upgrade
  | write
  deriving DecidableEq, Repr

/-- The modes in which two threads can hold a lock at the same time. -/
def Mode.Compatible : Mode → Mode → Prop
  | .read, .read => True
  | .read, .upgrade => True
  | .upgrade, .read => True
  | _, _ => False

inductive Action (L A : Type)
  | lock (l : L) (m : Mode)
  | unlock (l : L) (m : Mode)
  /-- From upgrade to write. -/
  | promote (l : L)
  /-- From write back to upgrade. -/
  | demote (l : L)
  | access (a : A)
  deriving DecidableEq, Repr

/-- A thread, with a tag that says what it does. -/
structure Thread (L A T : Type) where
  tag : T
  prog : List (Action L A)
  held : List (L × Mode)
  /-- It has tried its next action, which is one to write, and waits. -/
  waiting : Bool
  deriving DecidableEq, Repr

/-- The threads, by their numbers. -/
abbrev Threads (L A T : Type) := List (Thread L A T)

variable {L A T : Type}

namespace Action

/-- The locks that a thread holds after an action. -/
def after [DecidableEq L] (held : List (L × Mode)) : Action L A → List (L × Mode)
  | lock l m => (l, m) :: held
  | unlock l m => held.erase (l, m)
  | promote l => held.map fun lm => if lm = (l, .upgrade) then (l, .write) else lm
  | demote l => held.map fun lm => if lm = (l, .write) then (l, .upgrade) else lm
  | access _ => held

/-- Those who have to wait for the action keep new readers out. -/
def waits : Action L A → Bool
  | lock _ .write => true
  | promote _ => true
  | _ => false

end Action

namespace Thread

/-- The thread keeps readers from a lock: it writes, or waits to write. -/
def Bars (bars : Bool) (l : L) (t : Thread L A T) : Prop :=
  (l, .write) ∈ t.held ∨ t.waiting = true ∧ (t.prog.head? = some (.lock l .write) ∨
    bars = true ∧ t.prog.head? = some (.promote l))

instance decidableBars [DecidableEq L] [DecidableEq A] (bars : Bool) (l : L) (t : Thread L A T) :
    Decidable (t.Bars bars l) :=
  inferInstanceAs (Decidable (_ ∨ _))

/-- The thread after its next action. -/
def advance [DecidableEq L] (t : Thread L A T) (a : Action L A) (rest : List (Action L A)) :
    Thread L A T :=
  { t with prog := rest, held := a.after t.held, waiting := false }

def wait (t : Thread L A T) : Thread L A T := { t with waiting := true }

end Thread

namespace Threads

/-- What holds of the other threads. -/
def Others (s : Threads L A T) (i : ℕ) (P : Thread L A T → Prop) : Prop :=
  ∀ j : ℕ, j ≠ i → ∀ t ∈ s[j]?, P t

theorem others_iff (s : Threads L A T) (i : ℕ) (P : Thread L A T → Prop) :
    (∀ j < s.length, j ≠ i → ∀ t ∈ s[j]?, P t) ↔ s.Others i P := by
  constructor
  · intro hb j other t ht
    exact hb j (List.getElem?_eq_some_iff.mp ht).1 other t ht
  · intro all j _
    exact all j

theorem Others.all {s : Threads L A T} {i : ℕ} {P : Thread L A T → Prop} (ho : s.Others i P)
    {t : Thread L A T} (thread : s[i]? = some t) (hh : P t) : ∀ j : ℕ, ∀ u ∈ s[j]?, P u := by
  intro j u ht
  obtain rfl | same := eq_or_ne j i
  · obtain rfl := Option.some.inj (thread.symm.trans ht)
    exact hh
  · exact ho j same u ht

instance decidableOthers (s : Threads L A T) (i : ℕ) (P : Thread L A T → Prop) [DecidablePred P] :
    Decidable (s.Others i P) :=
  decidable_of_iff _ (others_iff s i P)

/-- A lock can be given to a thread. -/
def Grants (bars : Bool) (s : Threads L A T) (i : ℕ) (l : L) : Mode → Prop
  | .read => s.Others i fun t => ¬ t.Bars bars l
  | .upgrade => s.Others i fun t => ¬ t.Bars bars l ∧ (l, .upgrade) ∉ t.held
  | .write => s.Others i fun t => ∀ lm ∈ t.held, lm.1 ≠ l

variable [DecidableEq L] [DecidableEq A]

instance decidableGrants (bars : Bool) (s : Threads L A T) (i : ℕ) (l : L) :
    ∀ m, Decidable (s.Grants bars i l m)
  | .read => inferInstanceAs (Decidable (s.Others i _))
  | .upgrade => inferInstanceAs (Decidable (s.Others i _))
  | .write => inferInstanceAs (Decidable (s.Others i _))

/-- The action can be taken at once. -/
def Ready (bars : Bool) (s : Threads L A T) (i : ℕ) : Action L A → Prop
  | .lock l m => s.Grants bars i l m
  | .promote l => s.Grants bars i l .write
  | _ => True

instance decidableReady (bars : Bool) (s : Threads L A T) (i : ℕ)
    (a : Action L A) : Decidable (s.Ready bars i a) := by
  unfold Ready
  split <;> infer_instance

/-- The thread takes its next action, or begins to wait for it. -/
def run (bars : Bool) (s : Threads L A T) (i : ℕ) : Option (Threads L A T) :=
  match s[i]? with
  | none => none
  | some t =>
      match t.prog with
      | [] => none
      | a :: rest =>
          if s.Ready bars i a then some (s.set i (t.advance a rest))
          else if a.waits = true ∧ t.waiting = false then some (s.set i t.wait)
          else none

/-- A new thread. -/
def spawn (s : Threads L A T) (tag : T) (prog : List (Action L A)) : Threads L A T :=
  s ++ [⟨tag, prog, [], false⟩]

/-- All the programs are at their end. -/
def Finished (s : Threads L A T) : Prop := ∀ i : ℕ, ∀ t ∈ s[i]?, t.prog = []

/-- All the programs can be brought to their end. -/
def Drains (bars : Bool) (s : Threads L A T) : Prop :=
  ∃ schedule t, execute (run bars) s schedule = some t ∧ t.Finished

/-- There are programs that are not at their end, and no thread can go on. -/
def Deadlocked (bars : Bool) (s : Threads L A T) : Prop :=
  ¬ s.Finished ∧ ∀ i, s.run bars i = none

end Threads

open Threads

section Run

variable {bars : Bool} {s t : Threads L A T} {i j : ℕ} {alw : List (L × Mode) → Action L A → Prop}
  {prog : List (Action L A)} {u changed w : Thread L A T} {tag : T} {P : Thread L A T → Prop}
  {held : List (L × Mode)} {R : T → T → Prop} {m : Mode} {l : L}

/-- A thread is the one that has changed, or is as it was. -/
theorem mem_set_cases (thread : s[i]? = some u) (ht : w ∈ (s.set i changed)[j]?) :
    j = i ∧ w = changed ∨ j ≠ i ∧ w ∈ s[j]? := by
  obtain rfl | same := eq_or_ne i j
  · rw [getElem?_set_self (List.getElem?_eq_some_iff.mp thread).1] at ht
    exact .inl ⟨rfl, (Option.some.inj ht).symm⟩
  · rw [getElem?_set_ne same] at ht
    exact .inr ⟨Ne.symm same, ht⟩

/-- A statement about all threads after one of them has changed. -/
theorem forall_set (thread : s[i]? = some u) (new : P changed) (old : ∀ j : ℕ, ∀ w ∈ s[j]?, P w) :
    ∀ j : ℕ, ∀ w ∈ (s.set i changed)[j]?, P w := by
  intro j w ht
  rcases mem_set_cases thread ht with ⟨-, rfl⟩ | ⟨-, isOld⟩
  · exact new
  · exact old j w isOld

theorem forall_spawn (new : P ⟨tag, prog, [], false⟩) (old : ∀ j : ℕ, ∀ w ∈ s[j]?, P w) :
    ∀ j : ℕ, ∀ w ∈ (s.spawn tag prog)[j]?, P w := by
  intro j w ht
  rcases mem_append.mp (mem_of_getElem? ht) with isOld | isNew
  · obtain ⟨k, found⟩ := mem_iff_getElem?.mp isOld
    exact old k w found
  · obtain rfl := mem_singleton.mp isNew
    exact new

theorem getElem?_spawn (ht : w ∈ (s.spawn tag prog)[j]?) :
    s[j]? = some w ∨ j = s.length ∧ w = ⟨tag, prog, [], false⟩ := by
  rcases lt_or_ge j s.length with hi | ho
  · rw [spawn, getElem?_append_left hi] at ht
    exact .inl ht
  · rw [spawn, getElem?_append_right ho] at ht
    obtain ⟨bound, same⟩ := List.getElem?_eq_some_iff.mp ht
    rw [length_singleton] at bound
    exact .inr ⟨by omega, by simpa using same.symm⟩

/-! ### Exclusion -/

/-- The locks of different threads are compatible. -/
def Exclusive (s : Threads L A T) : Prop :=
  ∀ i j : ℕ, i ≠ j → ∀ t ∈ s[i]?, ∀ u ∈ s[j]?, ∀ (l : L) (m n : Mode),
    (l, m) ∈ t.held → (l, n) ∈ u.held → m.Compatible n

theorem Mode.Compatible.symm {n : Mode} (hc : m.Compatible n) : n.Compatible m := by
  cases m <;> cases n <;> exact hc

/-- It is enough to look at the locks that a changed thread has against those of the others. -/
theorem Exclusive.set (exclusive : Exclusive s) (thread : s[i]? = some u)
    (fits : s.Others i fun w => ∀ l m n, (l, m) ∈ changed.held → (l, n) ∈ w.held → m.Compatible n) :
    Exclusive (s.set i changed) := by
  intro j k different v isV w isW l m n hh holdsToo
  rcases mem_set_cases thread isV with ⟨first, rfl⟩ | ⟨other, oldV⟩
  · rcases mem_set_cases thread isW with ⟨second, -⟩ | ⟨otherToo, oldW⟩
    · exact absurd (first.trans second.symm) different
    · exact fits k otherToo w oldW l m n hh holdsToo
  · rcases mem_set_cases thread isW with ⟨second, rfl⟩ | ⟨-, oldW⟩
    · exact (fits j other v oldV l n m holdsToo hh).symm
    · exact exclusive j k different v oldV w oldW l m n hh holdsToo

/-- A lock that is granted is compatible with those of the others. -/
theorem compatible_of_grants (hg : s.Grants bars i l m) :
    s.Others i fun w => ∀ n, (l, n) ∈ w.held → m.Compatible n := by
  intro j other w ht n hh
  cases m with
  | read =>
    cases n with
    | read | upgrade => exact trivial
    | write => exact hg j other w ht (.inl hh)
  | upgrade =>
    cases n with
    | read => exact trivial
    | upgrade => exact (hg j other w ht).2 hh
    | write => exact (hg j other w ht).1 (.inl hh)
  | write => exact absurd rfl (hg j other w ht (l, n) hh)

theorem spawn_exclusive (exclusive : Exclusive s) (tag : T) (prog : List (Action L A)) :
    Exclusive (s.spawn tag prog) := by
  intro j k different v isV w isW l m n hh holdsToo
  rcases getElem?_spawn isV with oldV | ⟨-, rfl⟩
  · rcases getElem?_spawn isW with oldW | ⟨-, rfl⟩
    · exact exclusive j k different v oldV w oldW l m n hh holdsToo
    · cases holdsToo
  · cases hh

/-! ### Threads at the same time -/

/-- Different threads that are not at their end have related tags. -/
def Related (R : T → T → Prop) (s : Threads L A T) : Prop :=
  ∀ i j : ℕ, i ≠ j → ∀ t ∈ s[i]?, ∀ u ∈ s[j]?, t.prog ≠ [] → u.prog ≠ [] → R t.tag u.tag

theorem spawn_related (symm : ∀ a b, R a b → R b a) (related : Related R s)
    (fits : ∀ t ∈ s, t.prog ≠ [] → R t.tag tag) :
    Related R (s.spawn tag prog) := by
  intro j k different v isV w isW hu unfinishedToo
  rcases getElem?_spawn isV with oldV | ⟨lastV, rfl⟩
  · rcases getElem?_spawn isW with oldW | ⟨lastW, rfl⟩
    · exact related j k different v oldV w oldW hu unfinishedToo
    · exact fits v (mem_of_getElem? oldV) hu
  · rcases getElem?_spawn isW with oldW | ⟨lastW, rfl⟩
    · exact symm _ _ (fits w (mem_of_getElem? oldW) unfinishedToo)
    · exact absurd (lastV.trans lastW.symm) different

/-! ### What is left to do -/

/-- What a thread still has to do: its actions, each of which it may have to wait for. -/
def weight (t : Thread L A T) : ℕ := 2 * t.prog.length + if t.waiting then 0 else 1

/-- What all the threads still have to do. -/
def work (s : Threads L A T) : ℕ := s.foldr (fun t n => weight t + n) 0

theorem work_set_lt (thread : s[i]? = some u)
    (less : weight changed < weight u) : work (s.set i changed) < work s := by
  induction s generalizing i with
  | nil => cases thread
  | cons first s ih =>
    cases i with
    | zero =>
      cases thread
      simp only [work, set_cons_zero, foldr_cons]
      omega
    | succ i =>
      have smaller := ih thread
      simp only [work, set_cons_succ, foldr_cons] at smaller ⊢
      omega

/-! ### Discipline -/

variable [DecidableEq L]

/-- A program leads from locks that are held to others, and each of its actions is allowed with the
locks that are held at it. -/
def Leads (allowed : List (L × Mode) → Action L A → Prop) :
    List (L × Mode) → List (Action L A) → List (L × Mode) → Prop
  | held, [], final => held = final
  | held, a :: rest, final => allowed held a ∧ Leads allowed (a.after held) rest final

theorem Leads.append {mid final : List (L × Mode)} {more : List (Action L A)}
    (first : Leads alw held prog mid) (second : Leads alw mid more final) :
    Leads alw held (prog ++ more) final := by
  induction prog generalizing held with
  | nil =>
    obtain rfl : held = mid := first
    exact second
  | cons a prog ih => exact ⟨first.1, ih first.2⟩

/-- A loop whose body leaves the locks as they are. -/
theorem Leads.flatMap {α : Type} (xs : List α) {body : α → List (Action L A)}
    (each : ∀ x ∈ xs, Leads alw held (body x) held) :
    Leads alw held (xs.flatMap body) held := by
  induction xs with
  | nil => exact rfl
  | cons x xs ih =>
    exact (each x mem_cons_self).append (ih fun y later => each y (mem_cons_of_mem x later))

/-- A lock that is held for the time of a body. -/
def holding (l : L) (m : Mode) (body : List (Action L A)) : List (Action L A) :=
  .lock l m :: (body ++ [.unlock l m])

theorem Leads.holding {body : List (Action L A)} (asks : alw held (.lock l m))
    (hi : Leads alw ((l, m) :: held) body ((l, m) :: held))
    (releases : alw ((l, m) :: held) (.unlock l m)) :
    Leads alw held (SharedMutex.holding l m body) held :=
  ⟨asks, hi.append ⟨releases, erase_cons_head ..⟩⟩

/-- Every thread keeps to the discipline of its tag, and will release what it holds. -/
def Disciplined (allowed : T → List (L × Mode) → Action L A → Prop) (s : Threads L A T) : Prop :=
  ∀ i : ℕ, ∀ t ∈ s[i]?, Leads (allowed t.tag) t.held t.prog []

theorem spawn_disciplined {alw : T → List (L × Mode) → Action L A → Prop} (hd : Disciplined alw s)
    (hf : Leads (alw tag) [] prog []) : Disciplined alw (s.spawn tag prog) :=
  forall_spawn hf hd

/-! ### Runs -/

variable [DecidableEq A]

/-- What a thread does when it is run. -/
inductive Outcome (bars : Bool) (s : Threads L A T) (i : ℕ) : Threads L A T → Prop
  | advanced {u : Thread L A T} {a : Action L A} {rest : List (Action L A)}
      (thread : s[i]? = some u) (next : u.prog = a :: rest) (ready : s.Ready bars i a) :
      Outcome bars s i (s.set i (u.advance a rest))
  | waited {u : Thread L A T} {a : Action L A} {rest : List (Action L A)} (thread : s[i]? = some u)
      (next : u.prog = a :: rest) (patient : u.waiting = false) :
      Outcome bars s i (s.set i u.wait)

theorem run_outcome (taken : s.run bars i = some t) : Outcome bars s i t := by
  unfold run at taken
  split at taken
  case h_1 => cases taken
  case h_2 u thread =>
    split at taken
    case h_1 => cases taken
    case h_2 a rest next =>
      split at taken
      next ready =>
        cases taken
        exact .advanced thread next ready
      next blocked =>
        obtain ⟨⟨-, hp⟩, same⟩ := ite_none_right_eq_some.mp taken
        cases same
        exact .waited thread next hp

/-- A thread that cannot go on waits for a lock. -/
theorem not_ready_of_run_eq_none {a : Action L A} {rest : List (Action L A)}
    (thread : s[i]? = some u) (next : u.prog = a :: rest) (stuck : s.run bars i = none) :
    ¬ s.Ready bars i a := by
  intro ready
  simp [run, thread, next, ready] at stuck

theorem run_eq_none_of_length_le (ho : s.length ≤ i) : s.run bars i = none := by
  rw [run, getElem?_eq_none ho]

theorem deadlocked_iff : ((∃ u ∈ s, u.prog ≠ []) ∧ ∀ i < s.length, s.run bars i = none) ↔
    s.Deadlocked bars := by
  constructor
  · rintro ⟨⟨u, ht, hu⟩, stuck⟩
    obtain ⟨i, found⟩ := mem_iff_getElem?.mp ht
    refine ⟨fun finished => hu (finished i u found), fun i => ?_⟩
    rcases lt_or_ge i s.length with hi | ho
    · exact stuck i hi
    · exact run_eq_none_of_length_le ho
  · rintro ⟨hu, stuck⟩
    refine ⟨?_, fun i _ => stuck i⟩
    by_contra none
    push Not at none
    exact hu fun i u found => none u (mem_of_getElem? found)

instance decidableDeadlocked (bars : Bool) (s : Threads L A T) : Decidable (s.Deadlocked bars) :=
  decidable_of_iff _ deadlocked_iff

theorem Threads.Deadlocked.not_drains (hd : s.Deadlocked bars) : ¬ s.Drains bars := by
  rintro ⟨schedule, t, he, finished⟩
  cases schedule with
  | nil =>
    cases he
    exact hd.1 finished
  | cons i schedule =>
    obtain ⟨mid, taken, -⟩ := execute_cons.mp he
    rw [hd.2 i] at taken
    cases taken

theorem run_exclusive (exclusive : Exclusive s) (taken : s.run bars i = some t) : Exclusive t := by
  cases run_outcome taken with
  | waited thread next hp =>
    exact exclusive.set thread fun j other w ht =>
      exclusive i j (Ne.symm other) _ thread w ht
  | @advanced u a rest thread next ready =>
    have hb : s.Others i fun w => ∀ l m n, (l, m) ∈ u.held → (l, n) ∈ w.held →
        m.Compatible n := fun j other w ht =>
      exclusive i j (Ne.symm other) u thread w ht
    refine exclusive.set thread fun j other w ht l m n hh holdsToo => ?_
    cases a with
    | access a => exact hb j other w ht l m n hh holdsToo
    | unlock k mode =>
      exact hb j other w ht l m n (mem_of_mem_erase hh) holdsToo
    | lock k mode =>
      -- The new lock has been granted; the others were held before.
      rcases mem_cons.mp hh with new | old
      · obtain ⟨rfl, rfl⟩ := Prod.mk.inj new
        exact compatible_of_grants ready j other w ht n holdsToo
      · exact hb j other w ht l m n old holdsToo
    | promote k =>
      have hg : s.Grants bars i k .write := ready
      obtain ⟨⟨k', mode⟩, old, same⟩ := List.mem_map.mp hh
      split at same
      next promoted =>
        obtain ⟨rfl, rfl⟩ := Prod.mk.inj same
        exact compatible_of_grants hg j other w ht n holdsToo
      next =>
        obtain ⟨rfl, rfl⟩ := Prod.mk.inj same
        exact hb j other w ht k' mode n old holdsToo
    | demote k =>
      obtain ⟨⟨k', mode⟩, old, same⟩ := List.mem_map.mp hh
      split at same
      next demoted =>
        -- Against a lock to write nobody else has anything.
        obtain ⟨rfl, rfl⟩ := Prod.mk.inj demoted
        obtain ⟨rfl, rfl⟩ := Prod.mk.inj same
        exact (hb j other w ht k' .write n old holdsToo).elim
      next =>
        obtain ⟨rfl, rfl⟩ := Prod.mk.inj same
        exact hb j other w ht k' mode n old holdsToo

theorem run_disciplined {alw : T → List (L × Mode) → Action L A → Prop}
    (hd : Disciplined alw s) (taken : s.run bars i = some t) :
    Disciplined alw t := by
  cases run_outcome taken with
  | @waited u a rest thread next hp =>
    exact forall_set thread (hd i u thread) hd
  | @advanced u a rest thread next ready =>
    have hf := hd i u thread
    rw [next] at hf
    exact forall_set thread hf.2 hd

/-- A thread does not change its tag, and it is not at its end for good before it is. -/
theorem run_old (taken : s.run bars i = some t) (ht : w ∈ t[j]?) :
    ∃ v ∈ s[j]?, v.tag = w.tag ∧ (w.prog ≠ [] → v.prog ≠ []) := by
  cases run_outcome taken with
  | @waited u a rest thread next hp =>
    rcases mem_set_cases thread ht with ⟨rfl, rfl⟩ | ⟨-, isOld⟩
    · exact ⟨u, thread, rfl, id⟩
    · exact ⟨w, isOld, rfl, id⟩
  | @advanced u a rest thread next ready =>
    rcases mem_set_cases thread ht with ⟨rfl, rfl⟩ | ⟨-, isOld⟩
    · exact ⟨u, thread, rfl, fun _ => next ▸ cons_ne_nil a rest⟩
    · exact ⟨w, isOld, rfl, id⟩

theorem run_related (related : Related R s) (taken : s.run bars i = some t) :
    Related R t := by
  intro j k different v isV w isW hu unfinishedToo
  obtain ⟨v', isV', sameV, oldV⟩ := run_old taken isV
  obtain ⟨w', isW', sameW, oldW⟩ := run_old taken isW
  rw [← sameV, ← sameW]
  exact related j k different v' isV' w' isW' (oldV hu) (oldW unfinishedToo)

/-! ### Progress -/

theorem run_work (taken : s.run bars i = some t) : work t < work s := by
  cases run_outcome taken with
  | @waited u a rest thread next hp =>
    refine work_set_lt thread ?_
    simp [weight, Thread.wait, hp]
  | @advanced u a rest thread next ready =>
    refine work_set_lt thread ?_
    simp only [weight, Thread.advance, next, length_cons, Bool.false_eq_true]
    split <;> omega

/-- **Draining.** When an invariant ensures that some thread can go on as long as one is not at its
end, then all of them can be brought to their end. -/
theorem drains_of_progress {Inv : Threads L A T → Prop}
    (keeps : ∀ {s i t}, Inv s → s.run bars i = some t → Inv t)
    (progress : ∀ {s}, Inv s → ¬ s.Finished → ∃ i t, s.run bars i = some t)
    (hh : Inv s) : s.Drains bars := by
  induction hr : work s using Nat.strong_induction_on generalizing s with
  | _ n ih =>
    -- Every action, and every beginning of a wait, leaves less to do.
    by_cases finished : s.Finished
    · exact ⟨[], s, rfl, finished⟩
    · obtain ⟨i, t, taken⟩ := progress hh finished
      obtain ⟨schedule, final, he, atEnd⟩ :=
        ih (work t) (hr ▸ run_work taken) (keeps hh taken) rfl
      exact ⟨i :: schedule, final, execute_cons.mpr ⟨t, taken, he⟩, atEnd⟩

end Run

end ChaosFramework.SharedMutex
