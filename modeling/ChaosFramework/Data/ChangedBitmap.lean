import ChaosFramework.Transition
import ChaosFramework.Data.AttributeValue
import Mathlib.Data.Finset.Insert

/-!
# The changed bitmap of an attribute cache

The attributes of a cache share a bitmap, from which the handlers of changed attributes are found.
`setStringValue` does not use its parameter `tag_has_changed`, and `setValue` of a piece of memory
returns before it does when the piece is empty. The overload for documents discards the answer of
`setStringValue` and sets the bit itself.
-/

namespace ChaosFramework.Data

open Bytes Transition List Option

/-- The overloads with `tag_has_changed`. -/
inductive Setter
  | setValue (value : { bytes : List Byte // bytes.length < 4294967296 })
  | setStringValue (value : List Byte) (enlargeMemory : Bool)
  | setValueOfWrapper (json : List Byte)
  | setValueOfVariant (value : CDataVariant)

/-- `if(tag_has_changed) sharedBitmapChangedAttribute->set(index)` -/
def tag (bitmap : List Bool) (index : ℕ) (tagHasChanged : Bool) : List Bool :=
  if tagHasChanged then bitmap.set index true else bitmap

namespace Setter

/-- The attribute, the bitmap and the answer of a setter. -/
def set (a : AttributeValue) (bitmap : List Bool) (index : ℕ) (tagHasChanged : Bool)
    (realloc : Realloc) : Setter → AttributeValue × List Bool × Bool
  | setValue value =>
      let r := a.setValue value.1 realloc
      (r.1, if r.2 ∧ value.1 ≠ [] then tag bitmap index tagHasChanged else bitmap, r.2)
  | setStringValue value enlargeMemory =>
      let r := a.setStringValue value enlargeMemory realloc
      (r.1, bitmap, r.2)
  | setValueOfWrapper json =>
      let r := a.setValueOfWrapper json realloc
      (r.1, tag bitmap index tagHasChanged, r.2)
  | setValueOfVariant value =>
      let r := a.setValueOfVariant value realloc
      (r.1, if r.2 then tag bitmap index tagHasChanged else bitmap, r.2)

/-- The setters that get to the bitmap when they succeed. -/
def marks : Setter → Bool
  | setValue value => value.1 ≠ []
  | setStringValue _ _ => false
  | setValueOfWrapper _ | setValueOfVariant _ => true

theorem bitmap_set {a : AttributeValue} {bitmap : List Bool} {index : ℕ} {tagHasChanged : Bool}
    {realloc : Realloc} {setter : Setter} :
    (setter.set a bitmap index tagHasChanged realloc).2.1 =
      if (setter.set a bitmap index tagHasChanged realloc).2.2 ∧ setter.marks
      then tag bitmap index tagHasChanged else bitmap := by
  cases setter <;> simp [set, marks, AttributeValue.setValueOfWrapper]

end Setter

/-- The values and the bitmap of a cache. -/
structure CachedValues where
  vectorAttributeValue : List AttributeValue
  bitmapChangedAttribute : List Bool
  /-- The attributes of which a setter has returned true with `tag_has_changed`, since the bitmap
  was reset. -/
  changed : Finset ℕ

inductive CacheCall
  | set (index : ℕ) (setter : Setter) (tagHasChanged : Bool) (realloc : Realloc)
  | resetChangedIndex

namespace CachedValues

/-- A cache with some attributes that have not changed. -/
def init (values : List AttributeValue) : CachedValues :=
  ⟨values, List.replicate values.length false, ∅⟩

def step (s : CachedValues) : CacheCall → Option CachedValues
  | .set index setter tagHasChanged realloc => s.vectorAttributeValue[index]?.map fun a =>
      let r := setter.set a s.bitmapChangedAttribute index tagHasChanged realloc
      ⟨s.vectorAttributeValue.set index r.1, r.2.1,
        if tagHasChanged ∧ r.2.2 then insert index s.changed else s.changed⟩
  | .resetChangedIndex =>
      some ⟨s.vectorAttributeValue, s.bitmapChangedAttribute.map fun _ => false, ∅⟩

/-- The bits that are set are those of the changed attributes. -/
def Shows (s : CachedValues) : Prop :=
  ∀ i, s.bitmapChangedAttribute[i]? = some true ↔ i ∈ s.changed

/-- A setter that is told that the attribute has changed gets to the bitmap, unless it fails or the
bit is set. -/
def Tells (s : CachedValues) : CacheCall → Prop
  | .set index setter tagHasChanged realloc => tagHasChanged = true →
      ∀ a, s.vectorAttributeValue[index]? = some a →
        (setter.set a s.bitmapChangedAttribute index tagHasChanged realloc).2.2 = true →
        setter.marks ∨ index ∈ s.changed
  | .resetChangedIndex => True

structure Tracked (s : CachedValues) : Prop where
  shows : s.Shows
  sized : s.bitmapChangedAttribute.length = s.vectorAttributeValue.length

variable {s t : CachedValues} {call : CacheCall}

/-- A step shows the changed attributes exactly if it tells about them. -/
theorem Tracked.step (h : s.Tracked) (ht : s.step call = some t) :
    t.bitmapChangedAttribute.length = t.vectorAttributeValue.length ∧ (t.Shows ↔ s.Tells call) := by
  cases call with
  | resetChangedIndex =>
    cases ht
    refine ⟨(length_map _).trans h.sized, iff_of_true (fun i => iff_of_false ?_ nofun) trivial⟩
    rw [getElem?_map]
    simp
  | set index setter tagHasChanged realloc =>
    obtain ⟨a, ha, rfl⟩ := map_eq_some_iff.mp ht
    have hi : index < s.bitmapChangedAttribute.length :=
      h.sized ▸ (List.getElem?_eq_some_iff.mp ha).1
    have hb := @Setter.bitmap_set a s.bitmapChangedAttribute index tagHasChanged realloc setter
    simp only [Tells, ha, Option.some.injEq, forall_eq', length_set]
    generalize setter.set a s.bitmapChangedAttribute index tagHasChanged realloc = r at hb
    by_cases told : tagHasChanged = true ∧ r.2.2 = true
    · obtain ⟨rfl, answer⟩ := told
      rw [answer] at hb
      cases hm : setter.marks with
      | true =>
        rw [hm, if_pos ⟨rfl, rfl⟩] at hb
        refine ⟨by rw [hb, tag, if_pos rfl, length_set, h.sized], ?_⟩
        refine iff_of_true (fun i => ?_) fun _ _ => .inl rfl
        rw [hb, answer, if_pos ⟨rfl, rfl⟩, tag, Finset.mem_insert, ← h.shows i]
        obtain rfl | different := eq_or_ne i index
        · simp [hi]
        · simp [getElem?_set_ne different.symm, different]
      | false =>
        rw [hm, if_neg (by simp)] at hb
        refine ⟨hb ▸ h.sized, ?_⟩
        simp only [hb, answer, Shows, and_self, if_true, Finset.mem_insert, h.shows _]
        refine ⟨fun shown _ _ => .inr ((shown index).mpr (.inl rfl)), fun tells i => ?_⟩
        have known : index ∈ s.changed := (tells trivial trivial).resolve_left nofun
        exact ⟨.inr, fun either => either.elim (· ▸ known) id⟩
    · have hb : r.2.1 = s.bitmapChangedAttribute := by
        cases tagHasChanged with
        | false => exact hb.trans (ite_self _)
        | true => exact hb.trans (if_neg fun both => told ⟨rfl, both.1⟩)
      rw [hb, if_neg told]
      exact ⟨h.sized, iff_of_true h.shows fun tagged answer => absurd ⟨tagged, answer⟩ told⟩

/-- The bitmap shows in every state the attributes that have changed, exactly when no setter that is
told about a change keeps it to itself: a string, or an empty piece of memory. -/
theorem shows_iff_tells {values : List AttributeValue} {calls : List CacheCall}
    (run : execute CachedValues.step (init values) calls = some t) :
    Admissible CachedValues.step Tells (init values) calls ↔
      ∀ n s, execute CachedValues.step (init values) (calls.take n) = some s → s.Shows := by
  refine admissible_iff_forall_reached (fun h tells ht => ⟨(h.step ht).2.mpr tells, (h.step ht).1⟩)
    Tracked.shows (fun h ht => (h.step ht).2.mp) ⟨fun i => ?_, length_replicate⟩ run
  simp [init, getElem?_replicate]

/-- A number is set with the flag and without it. -/
theorem shows_iff_tells_number :
    let value : AttributeValue := ⟨.boolean, 1, 4, some [0, 0, 0, 0], false⟩
    let calls : List CacheCall := [.set 0 (.setValue ⟨[1], by decide⟩) false none,
      .set 0 (.setValue ⟨[1], by decide⟩) true none]
    ∃ s, execute CachedValues.step (init [value]) calls = some s ∧ s.Shows ∧ s.changed = {0} := by
  intro value calls
  have tells : Admissible CachedValues.step Tells (init [value]) calls :=
    ⟨nofun, fun _ _ _ _ => .inl rfl, trivial⟩
  exact ⟨_, rfl, (@shows_iff_tells _ [value] calls rfl).mp tells 2 _ rfl, rfl⟩

/-- The text of a string changes, and the bitmap does not show it. -/
theorem string_not_shown :
    ∃ s, execute CachedValues.step (init [⟨.string, 4, 4, some [0, 0, 0, 0], false⟩])
        [.set 0 (.setStringValue [97] false) true none] = some s ∧
      s.vectorAttributeValue = [⟨.string, 4, 4, some [97, 0, 0, 0], false⟩] ∧
      s.changed = {0} ∧ s.bitmapChangedAttribute = [false] :=
  ⟨_, rfl, rfl, rfl, rfl⟩

end CachedValues

end ChaosFramework.Data
