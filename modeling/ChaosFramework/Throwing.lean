import Mathlib.Data.List.Basic

/-!
# Actions that may throw

An action changes a state and returns or throws; the changes that it has made before it throws stay.
The value that is thrown is not looked at by the developments built on this file.
-/

namespace ChaosFramework.Throwing

open List

/-- The state after the action, and whether it has returned. -/
abbrev Action (σ : Type*) := σ → σ × Bool

namespace Action

variable {σ : Type*}

/-- An action that returns. -/
def always (f : σ → σ) : Action σ := fun s => (f s, true)

/-- The second action is taken when the first one has returned. -/
def andThen (a b : Action σ) : Action σ := fun s =>
  match a s with
  | (t, true) => b t
  | (t, false) => (t, false)

/-- What the action throws is thrown on only if the flag says so. -/
def rethrow (flag : Bool) (a : Action σ) : Action σ := fun s => ((a s).1, (a s).2 || !flag)

/-- What the action throws is forgotten. -/
def caught (a : Action σ) : Action σ := rethrow false a

/-- What the action throws is handled by the second one. -/
def orElse (a b : Action σ) : Action σ := fun s =>
  match a s with
  | (t, true) => (t, true)
  | (t, false) => b t

def sequence : List (Action σ) → Action σ
  | [] => always id
  | a :: as => a.andThen (sequence as)

variable {a b : Action σ} {s t : σ} {as bs : List (Action σ)} {P : σ → Prop}

theorem andThen_of_returns (hr : a s = (t, true)) : a.andThen b s = b t := by
  rw [andThen, hr]

theorem andThen_of_throws (ht : a s = (t, false)) : a.andThen b s = (t, false) := by
  rw [andThen, ht]

theorem rethrow_of_returns (flag : Bool) (hr : a s = (t, true)) : rethrow flag a s = (t, true) := by
  rw [rethrow, hr, Bool.true_or]

theorem orElse_of_returns (hr : a s = (t, true)) : a.orElse b s = (t, true) := by
  rw [orElse, hr]

theorem sequence_always (f : σ → σ) (as : List (Action σ)) (s : σ) :
    sequence (always f :: as) s = sequence as (f s) := rfl

theorem sequence_of_head_returns (hr : a s = (t, true)) : sequence (a :: as) s = sequence as t :=
  andThen_of_returns hr

theorem sequence_singleton (a : Action σ) : sequence [a] = a := by
  funext s
  rw [sequence, andThen]
  split
  next first => exact first.symm
  next first => exact first.symm

theorem sequence_append (hr : sequence as s = (t, true)) :
    sequence (as ++ bs) s = sequence bs t := by
  induction as generalizing s with
  | nil =>
    obtain rfl : s = t := congrArg Prod.fst hr
    rfl
  | cons a as ih =>
    rw [sequence, andThen] at hr
    split at hr
    next middle first => exact (andThen_of_returns first).trans (ih hr)
    next => cases hr

theorem sequence_of_returns (hr : ∀ a ∈ as, a s = (s, true)) : sequence as s = (s, true) := by
  induction as with
  | nil => rfl
  | cons a as ih =>
    rw [sequence, andThen_of_returns (hr a mem_cons_self)]
    exact ih fun b later => hr b (mem_cons_of_mem a later)

/-- What holds after two actions: the second one matters only if the first one has returned. -/
theorem andThen_induction (ht : (a s).2 = false → P (a s).1)
    (hr : (a s).2 = true → P (b (a s).1).1) : P (a.andThen b s).1 := by
  rw [andThen]
  split
  next t first =>
    rw [first] at hr
    exact hr rfl
  next t first =>
    rw [first] at ht
    exact ht rfl

/-- The action keeps a property, whether it returns or throws. -/
def Keeps (P : σ → Prop) (a : Action σ) : Prop := ∀ s, P s → P (a s).1

theorem Keeps.orElse (first : Keeps P a) (second : Keeps P b) : Keeps P (a.orElse b) := by
  intro s hb
  have after := first s hb
  rw [Action.orElse]
  split
  next t returns =>
    rw [returns] at after
    exact after
  next t throws =>
    rw [throws] at after
    exact second t after

theorem keeps_nil (P : σ → Prop) : Keeps P (sequence []) := fun _ hb => hb

theorem Keeps.cons (first : Keeps P a)
    (rest : Keeps P (sequence as)) : Keeps P (sequence (a :: as)) := by
  intro s hb
  have after := first s hb
  exact andThen_induction (fun _ => after) fun _ => rest _ after

theorem keeps_sequence (each : ∀ a ∈ as, Keeps P a) : Keeps P (sequence as) := by
  induction as with
  | nil => exact keeps_nil P
  | cons a as ih =>
    exact (each a mem_cons_self).cons (ih fun b later => each b (mem_cons_of_mem a later))

end Action

end ChaosFramework.Throwing
