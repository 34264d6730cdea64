import Mathlib.Logic.Basic

/-!
# Runs of a labelled transition function

A component is given by a partial transition function: a label carries everything the environment
decides (the call, its arguments, clock readings, the behaviour of user code), and `none` says that
the label is not enabled in the state.

A run is a list of labels. `Admissible` states that every label of a run meets a guard in the state
in which it is taken. The rules below are the only inductions over runs that the developments built
on this file need.
-/

namespace ChaosFramework.Transition

open List Option

variable {State Label : Type*} {step : State → Label → Option State}

/-- Execute a run from a state. The result is `none` as soon as one of the labels
is not enabled. -/
def execute (step : State → Label → Option State) : State → List Label → Option State
  | s, [] => some s
  | s, l :: ls => (step s l).bind fun t => execute step t ls

/-- Every label of the run meets the guard in the state before it is taken. Nothing
is required after a label that is not enabled. -/
def Admissible (step : State → Label → Option State) (guard : State → Label → Prop) :
    State → List Label → Prop
  | _, [] => True
  | s, l :: ls => guard s l ∧
      match step s l with
      | some t => Admissible step guard t ls
      | none => True

instance decidableAdmissible (guard : State → Label → Prop)
    [decided : ∀ s l, Decidable (guard s l)] :
    ∀ s ls, Decidable (Admissible step guard s ls)
  | _, [] => .isTrue trivial
  | s, l :: ls => @instDecidableAnd _ _ (decided s l)
      (match (motive := ∀ next : Option State, Decidable (match next with
          | some t => Admissible step guard t ls
          | none => True)) step s l with
        | some t => decidableAdmissible guard t ls
        | none => .isTrue trivial)

variable {guard : State → Label → Prop} {Inv P : State → Prop} {s t : State} {l : Label}
  {ls : List Label}

@[simp] theorem execute_nil (s : State) : execute step s [] = some s := rfl

theorem execute_cons : execute step s (l :: ls) = some t ↔
      ∃ mid, step s l = some mid ∧ execute step mid ls = some t := by
  simp only [execute, bind_eq_some_iff]

theorem execute_append (s : State) (ls ms : List Label) :
    execute step s (ls ++ ms) = (execute step s ls).bind fun t => execute step t ms := by
  induction ls generalizing s with
  | nil => rfl
  | cons l ls ih =>
    rw [cons_append, execute, execute, bind_assoc]
    exact congrArg _ (funext ih)

theorem Admissible.head (ha : Admissible step guard s (l :: ls)) : guard s l :=
  ha.1

theorem Admissible.tail (ha : Admissible step guard s (l :: ls)) (taken : step s l = some t) :
    Admissible step guard t ls := by
  have rest := ha.2
  rwa [taken] at rest

/-- **Guarded invariant rule.** What every admissible step preserves holds at the
end of every admissible run. A prefix of an admissible run is one, so this speaks
about every state that the run passes through. -/
theorem Admissible.invariant (keeps : ∀ {s l t}, Inv s → guard s l → step s l = some t → Inv t)
    {ls : List Label} {s t : State} (hi : Inv s)
    (ha : Admissible step guard s ls) (run : execute step s ls = some t) : Inv t := by
  induction ls generalizing s with
  | nil =>
    cases run
    exact hi
  | cons l ls ih =>
    obtain ⟨mid, taken, rest⟩ := execute_cons.mp run
    exact ih (keeps hi ha.head taken) (ha.tail taken) rest

/-- **Invariant rule.** What every step preserves holds at the end of every run. -/
theorem invariant_of_execute (keeps : ∀ {s l t}, Inv s → step s l = some t → Inv t)
    {ls : List Label} {s t : State} (hi : Inv s)
    (run : execute step s ls = some t) : Inv t := by
  induction ls generalizing s with
  | nil =>
    cases run
    exact hi
  | cons l ls ih =>
    obtain ⟨mid, taken, rest⟩ := execute_cons.mp run
    exact ih (keeps hi taken) rest

/-- **Exact guards, given another one.** Suppose the two guards keep an invariant under which `P`
holds, and that from a state with the invariant a step that violates the first one leads to a state
without `P`. Then a run that meets the second one meets the first one exactly when `P` holds in all
the states it passes through. -/
theorem Admissible.iff_forall_reached {given : State → Label → Prop}
    (hk : ∀ {s l t}, Inv s → given s l → guard s l → step s l = some t → Inv t)
    (hh : ∀ {s}, Inv s → P s)
    (necessary : ∀ {s l t}, Inv s → step s l = some t → P t → guard s l)
    {ls : List Label} {s t : State} (hi : Inv s) (met : Admissible step given s ls)
    (run : execute step s ls = some t) :
    Admissible step guard s ls ↔ ∀ n r, execute step s (ls.take n) = some r → P r := by
  constructor
  · intro ha n r hr
    induction ls generalizing s n with
    | nil =>
      rw [take_nil] at hr
      cases hr
      exact hh hi
    | cons l ls ih =>
      cases n with
      | zero =>
        cases hr
        exact hh hi
      | succ n =>
        obtain ⟨mid, ht, rest⟩ := execute_cons.mp run
        obtain ⟨same, again, later⟩ := execute_cons.mp hr
        obtain rfl : mid = same := Option.some.inj (ht.symm.trans again)
        exact ih (hk hi met.head ha.head ht) (met.tail ht) rest (ha.tail ht) n later
  · intro always
    induction ls generalizing s with
    | nil => exact trivial
    | cons l ls ih =>
      obtain ⟨mid, ht, rest⟩ := execute_cons.mp run
      -- The state after the first label is the one reached by a run of length one.
      have next : P mid := always 1 mid (execute_cons.mpr ⟨mid, ht, rfl⟩)
      have guarded : guard s l := necessary hi ht next
      refine ⟨guarded, ?_⟩
      rw [ht]
      exact ih (hk hi met.head guarded ht) (met.tail ht) rest fun n r hr =>
        always (n + 1) r (execute_cons.mpr ⟨mid, ht, hr⟩)

theorem admissible_true (s : State) (ls : List Label) : Admissible step (fun _ _ => True) s ls := by
  induction ls generalizing s with
  | nil => trivial
  | cons l ls ih =>
    refine ⟨trivial, ?_⟩
    split
    · exact ih _
    · trivial

/-- **Exact guards.** Suppose the guard keeps an invariant under which `P` holds, and that from
a state with the invariant a step that violates the guard leads to a state without `P`. Then
a run is admissible exactly when `P` holds in all the states it passes through. -/
theorem admissible_iff_forall_reached
    (keeps : ∀ {s l t}, Inv s → guard s l → step s l = some t → Inv t)
    (hh : ∀ {s}, Inv s → P s)
    (necessary : ∀ {s l t}, Inv s → step s l = some t → P t → guard s l)
    {ls : List Label} {s t : State} (hi : Inv s) (run : execute step s ls = some t) :
    Admissible step guard s ls ↔ ∀ n r, execute step s (ls.take n) = some r → P r :=
  Admissible.iff_forall_reached (fun hi _ => keeps hi) hh necessary hi (admissible_true s ls) run

/-- **Exact guards for histories.** When `P` holds after a step exactly if it held before and the
guard is satisfied, a run is admissible exactly when `P` holds at its end. -/
theorem admissible_iff_of_history (keeps : ∀ {s l t}, Inv s → step s l = some t → Inv t)
    (adds : ∀ {s l t}, Inv s → step s l = some t → (P t ↔ guard s l ∧ P s))
    {ls : List Label} {s t : State} (hi : Inv s) (run : execute step s ls = some t) :
    Admissible step guard s ls ∧ P s ↔ P t := by
  induction ls generalizing s with
  | nil =>
    cases run
    exact ⟨fun both => both.2, fun hh => ⟨trivial, hh⟩⟩
  | cons l ls ih =>
    obtain ⟨mid, taken, rest⟩ := execute_cons.mp run
    rw [← ih (keeps hi taken) rest, adds hi taken]
    constructor
    · rintro ⟨ha, hh⟩
      exact ⟨ha.tail taken, ha.head, hh⟩
    · rintro ⟨ha, hg, hh⟩
      refine ⟨⟨hg, ?_⟩, hh⟩
      rw [taken]
      exact ha

/-- A record that is written along the steps and never read by them: `follow` gives the new
record from the step and the old one. -/
def recorded {Record : Type*} (step : State → Label → Option State)
    (follow : State → Label → State → Record → Record) (k : State × Record) (l : Label) :
    Option (State × Record) :=
  (step k.1 l).map fun t => (t, follow k.1 l t k.2)

theorem recorded_eq_some {Record : Type*} {follow : State → Label → State → Record → Record}
    {k m : State × Record} : recorded step follow k l = some m ↔
      step k.1 l = some m.1 ∧ follow k.1 l m.1 k.2 = m.2 := by
  simp only [recorded, map_eq_some_iff, Prod.ext_iff]
  constructor
  · rintro ⟨t, taken, rfl, hr⟩
    exact ⟨taken, hr⟩
  · rintro ⟨taken, hr⟩
    exact ⟨m.1, taken, rfl, hr⟩

end ChaosFramework.Transition
