import Mathlib.Logic.Function.Basic

/-!
# Maps from keys to objects

A map that finds the objects with a property by their keys, such as the live ones, and nothing else.
It stays one when an object with a new key is inserted and when an object is removed.
-/

namespace ChaosFramework.UniqueIndex

open Function

variable {κ ι : Type*} {map : κ → Option ι} {live live' : ι → Prop} {keyOf keyOf' : ι → κ}

/-- A map that has been changed at one key. -/
theorem update_eq_iff [DecidableEq κ] {β : Type*} {f : κ → β} {key other : κ} {v w : β} :
    update f key v other = w ↔ other = key ∧ v = w ∨ other ≠ key ∧ f other = w := by
  rw [update_apply]
  exact ite_eq_iff

/-- The map finds the live objects by their keys. -/
structure Indexes (map : κ → Option ι) (live : ι → Prop) (keyOf : ι → κ) : Prop where
  found : ∀ key, ∀ i ∈ map key, live i ∧ keyOf i = key
  listed : ∀ i, live i → map (keyOf i) = some i

namespace Indexes

variable (hi : Indexes map live keyOf)

include hi

theorem congr (sameLive : ∀ i, live' i ↔ live i) (hs : ∀ i, keyOf' i = keyOf i) :
    Indexes map live' keyOf' := by
  constructor
  · intro key i hf
    rw [sameLive, hs]
    exact hi.found key i hf
  · intro i hl
    rw [hs]
    exact hi.listed i ((sameLive i).mp hl)

variable [DecidableEq κ]

theorem insert {key : κ} {new : ι} (hm : map key = none) (isKey : keyOf' new = key)
    (sameLive : ∀ i, live' i ↔ i = new ∨ i ≠ new ∧ live i)
    (hs : ∀ i, i ≠ new → keyOf' i = keyOf i) (isNew : ¬ live new) :
    Indexes (update map key (some new)) live' keyOf' := by
  constructor
  · intro other i hf
    obtain rfl | same := eq_or_ne other key
    · rw [update_self] at hf
      cases hf
      exact ⟨(sameLive new).mpr (.inl rfl), isKey⟩
    · rw [update_of_ne same] at hf
      obtain ⟨hl, atKey⟩ := hi.found other i hf
      have different : i ≠ new := fun eq => isNew (eq ▸ hl)
      rw [hs i different]
      exact ⟨(sameLive i).mpr (.inr ⟨different, hl⟩), atKey⟩
  · intro i hl
    rcases (sameLive i).mp hl with rfl | ⟨different, hw⟩
    · rw [isKey, update_self]
    · -- The key of an object that was there is in the map, and the new one is not.
      have listed := hi.listed i hw
      rw [hs i different, update_of_ne, listed]
      intro same
      rw [same, hm] at listed
      cases listed

theorem remove {old : ι} (hl : live old) (sameLive : ∀ i, live' i ↔ i ≠ old ∧ live i)
    (hs : ∀ i, keyOf' i = keyOf i) :
    Indexes (update map (keyOf old) none) live' keyOf' := by
  constructor
  · intro key i hf
    obtain rfl | same := eq_or_ne key (keyOf old)
    · rw [update_self] at hf
      cases hf
    · rw [update_of_ne same] at hf
      obtain ⟨hw, atKey⟩ := hi.found key i hf
      rw [sameLive, hs]
      exact ⟨⟨fun eq => same (eq ▸ atKey.symm), hw⟩, atKey⟩
  · intro i isLiveToo
    obtain ⟨different, hw⟩ := (sameLive i).mp isLiveToo
    -- Two live objects with one key would be the same.
    have listed := hi.listed i hw
    rw [hs, update_of_ne, listed]
    intro same
    rw [same, hi.listed old hl] at listed
    exact different (Option.some.inj listed).symm

end Indexes

end ChaosFramework.UniqueIndex
