import Mathlib.Data.List.AList
import ChaosFramework.Transition

/-!
# A pair of maps used as a bidirectional map

`Bimap` keeps a map in each direction and updates them independently: an insertion is ignored on
each side on which the key is already there, and a removal erases on the other side whatever its own
side names. The two maps are inverse to each other as long as every insertion brings a new key on
both sides (`Inverse`); a new right key keeps one half of that (`LeftPaired`).
-/

namespace ChaosFramework.Utility

open List Option Transition

variable {α β : Type*} [DecidableEq α]

/-- `std::map::insert`: an element with the same key is kept. -/
def insertNew (m : AList fun _ : α => β) (a : α) (b : β) : AList fun _ : α => β :=
  if (m.lookup a).isSome then m else m.insert a b

theorem lookup_insertNew (m : AList fun _ : α => β) (a a' : α) (b : β) :
    (insertNew m a b).lookup a' = if a' = a then some ((m.lookup a).getD b) else m.lookup a' := by
  unfold insertNew
  cases found : m.lookup a with
  | some old =>
    obtain rfl | same := eq_or_ne a' a
    · simp [found]
    · simp [same]
  | none =>
    obtain rfl | same := eq_or_ne a' a
    · simp
    · simp [same]

theorem lookup_erase' (m : AList fun _ : α => β) (a a' : α) :
    (m.erase a).lookup a' = if a' = a then none else m.lookup a' := by
  obtain rfl | same := eq_or_ne a' a
  · simp
  · rw [if_neg same, AList.lookup_erase_ne same]

structure Bimap (α β : Type*) where
  leftMap : AList fun _ : α => β
  rightMap : AList fun _ : β => α

namespace Bimap

variable [DecidableEq β]

def empty : Bimap α β := ⟨∅, ∅⟩

def insert (m : Bimap α β) (a : α) (b : β) : Bimap α β :=
  ⟨insertNew m.leftMap a b, insertNew m.rightMap b a⟩

def findByLeftKey (m : Bimap α β) (a : α) : Option β := m.leftMap.lookup a

def findByRightKey (m : Bimap α β) (b : β) : Option α := m.rightMap.lookup b

def removebyLeftKey (m : Bimap α β) (a : α) : Bimap α β :=
  match m.findByLeftKey a with
  | none => m
  | some b => ⟨m.leftMap.erase a, m.rightMap.erase b⟩

def removebyRightKey (m : Bimap α β) (b : β) : Bimap α β :=
  match m.findByRightKey b with
  | none => m
  | some a => ⟨m.leftMap.erase a, m.rightMap.erase b⟩

/-- `size`, the number of left keys. Only an assertion compares it with the right side. -/
def size (m : Bimap α β) : Nat := m.leftMap.keys.length

variable {m : Bimap α β} {a a' : α} {b b' : β}

theorem findByLeftKey_insert : (m.insert a b).findByLeftKey a' =
    if a' = a then some ((m.findByLeftKey a).getD b) else m.findByLeftKey a' :=
  lookup_insertNew m.leftMap a a' b

theorem findByRightKey_insert : (m.insert a b).findByRightKey b' =
    if b' = b then some ((m.findByRightKey b).getD a) else m.findByRightKey b' :=
  lookup_insertNew m.rightMap b b' a

theorem findByRightKey_removebyRightKey : (m.removebyRightKey b).findByRightKey b' =
    if b' = b then none else m.findByRightKey b' := by
  unfold removebyRightKey
  cases found : m.findByRightKey b with
  | none =>
    by_cases same : b' = b <;> simp [found, same]
  | some a => exact lookup_erase' m.rightMap b b'

theorem findByLeftKey_removebyRightKey (found : m.findByRightKey b = some a) :
    (m.removebyRightKey b).findByLeftKey a' = if a' = a then none else m.findByLeftKey a' := by
  rw [removebyRightKey, found]
  exact lookup_erase' m.leftMap a a'

theorem removebyRightKey_of_none (hm : m.findByRightKey b = none) : m.removebyRightKey b = m := by
  rw [removebyRightKey, hm]

/-! ### Sizes -/

theorem size_insert_of_new (new : m.findByLeftKey a = none) : (m.insert a b).size = m.size + 1 := by
  have ha : a ∉ m.leftMap.keys := AList.mem_keys.not.mp (AList.lookup_eq_none.mp new)
  have unfolded : (m.insert a b).leftMap = m.leftMap.insert a b := by
    rw [Bimap.insert, insertNew, show m.leftMap.lookup a = none from new]
    rfl
  rw [size, unfolded, AList.keys_insert, erase_of_not_mem ha, length_cons, size]

theorem size_insert_of_old (old : (m.findByLeftKey a).isSome) : (m.insert a b).size = m.size := by
  have unfolded : (m.insert a b).leftMap = m.leftMap := if_pos old
  rw [size, unfolded, size]

theorem size_removebyRightKey (found : m.findByRightKey b = some a)
    (paired : m.findByLeftKey a = some b') : (m.removebyRightKey b).size + 1 = m.size := by
  have hp : a ∈ m.leftMap.keys :=
    AList.mem_keys.mp (AList.lookup_isSome.mp (isSome_iff_exists.mpr ⟨b', paired⟩))
  have positive := length_pos_of_mem hp
  rw [removebyRightKey, found, size, AList.keys_erase, length_erase_of_mem hp, size]
  omega

/-! ### How the two sides correspond -/

/-- Every left key names a right key that names it back. -/
def LeftPaired (m : Bimap α β) : Prop :=
  ∀ a b, m.findByLeftKey a = some b → m.findByRightKey b = some a

/-- Each side is the inverse of the other. -/
def Inverse (m : Bimap α β) : Prop :=
  ∀ a b, m.findByLeftKey a = some b ↔ m.findByRightKey b = some a

theorem Inverse.leftPaired (hi : m.Inverse) : m.LeftPaired :=
  fun a b => (hi a b).mp

theorem leftPaired_empty : (empty : Bimap α β).LeftPaired := by
  intro a b found
  cases found

theorem inverse_empty : (empty : Bimap α β).Inverse := by
  intro a b
  constructor
  · intro found
    cases found
  · intro found
    cases found

theorem LeftPaired.insert (paired : m.LeftPaired) (new : m.findByRightKey b = none) :
    (m.insert a b).LeftPaired := by
  intro a' b' found
  rw [findByLeftKey_insert] at found
  rw [findByRightKey_insert]
  obtain rfl | same := eq_or_ne a' a
  · rw [if_pos rfl, Option.some.injEq] at found
    cases old : m.findByLeftKey a' with
    | none =>
      -- Both sides take the new pair.
      rw [old] at found
      subst found
      simp [new]
    | some kept =>
      -- The left side ignores the insertion, and its old partner is not the new right key.
      rw [old] at found
      obtain rfl : kept = b' := found
      have back := paired a' kept old
      have different : kept ≠ b := by
        rintro rfl
        rw [new] at back
        cases back
      rwa [if_neg different]
  · rw [if_neg same] at found
    have back := paired a' b' found
    have different : b' ≠ b := by
      rintro rfl
      rw [new] at back
      cases back
    rwa [if_neg different]

theorem LeftPaired.removebyRightKey (paired : m.LeftPaired) :
    (m.removebyRightKey b).LeftPaired := by
  intro a' b' kept
  cases found : m.findByRightKey b with
  | none =>
    rw [removebyRightKey_of_none found] at kept ⊢
    exact paired a' b' kept
  | some a =>
    rw [findByLeftKey_removebyRightKey found] at kept
    by_cases same : a' = a
    · rw [if_pos same] at kept
      cases kept
    · rw [if_neg same] at kept
      have back := paired a' b' kept
      have different : b' ≠ b := by
        rintro rfl
        exact same (Option.some.inj (back.symm.trans found))
      rwa [findByRightKey_removebyRightKey, if_neg different]

/-- The map with its sides exchanged. -/
def swap (m : Bimap α β) : Bimap β α := ⟨m.rightMap, m.leftMap⟩

theorem Inverse.swap (hi : m.Inverse) : m.swap.Inverse := fun b a => (hi a b).symm

theorem Inverse.insert (hi : m.Inverse) (newLeft : m.findByLeftKey a = none)
    (newRight : m.findByRightKey b = none) : (m.insert a b).Inverse := by
  intro a' b'
  have mirrored : (m.insert a b).swap.LeftPaired := hi.swap.leftPaired.insert newLeft
  exact ⟨hi.leftPaired.insert newRight a' b', mirrored b' a'⟩

theorem Inverse.removebyRightKey (hi : m.Inverse) : (m.removebyRightKey b).Inverse := by
  intro a' b'
  refine ⟨hi.leftPaired.removebyRightKey a' b', fun kept => ?_⟩
  rw [findByRightKey_removebyRightKey] at kept
  by_cases same : b' = b
  · rw [if_pos same] at kept
    cases kept
  · rw [if_neg same] at kept
    have back := (hi a' b').mpr kept
    cases found : m.findByRightKey b with
    | none => rwa [removebyRightKey_of_none found]
    | some a =>
      have different : a' ≠ a := by
        rintro rfl
        exact same (Option.some.inj (back.symm.trans ((hi a' b).mpr found)))
      rwa [findByLeftKey_removebyRightKey found, if_neg different]

theorem Inverse.removebyLeftKey (hi : m.Inverse) : (m.removebyLeftKey a).Inverse := by
  have mirrored : m.removebyLeftKey a = (m.swap.removebyRightKey a).swap := by
    change _ = (match m.findByLeftKey a with | none => m.swap | some b => _).swap
    unfold Bimap.removebyLeftKey
    cases m.findByLeftKey a <;> rfl
  exact mirrored ▸ hi.swap.removebyRightKey.swap

/-! ### Sequences of calls -/

inductive Call (α β : Type*)
  | insert (a : α) (b : β)
  | removebyLeftKey (a : α)
  | removebyRightKey (b : β)

def step (m : Bimap α β) : Call α β → Option (Bimap α β)
  | .insert a b => some (m.insert a b)
  | .removebyLeftKey a => some (m.removebyLeftKey a)
  | .removebyRightKey b => some (m.removebyRightKey b)

/-- The assertion of `size`. -/
def SizesAgree (m : Bimap α β) : Prop := m.leftMap.keys.length = m.rightMap.keys.length

instance (m : Bimap α β) : Decidable m.SizesAgree := inferInstanceAs (Decidable (_ = _))

/-- The two keys of an insertion are both new, or both there. -/
def Matched (m : Bimap α β) : Call α β → Prop
  | .insert a b => m.findByLeftKey a = none ↔ m.findByRightKey b = none
  | _ => True

/-- A left key has a right key of its own. -/
theorem LeftPaired.length_keys_le (paired : m.LeftPaired) :
    m.leftMap.keys.length ≤ m.rightMap.keys.length := by
  have named {a : α} (hm : a ∈ m.leftMap.keys) : ∃ b, m.findByLeftKey a = some b :=
    isSome_iff_exists.mp (AList.lookup_isSome.mpr (AList.mem_keys.mpr hm))
  have distinct : (m.leftMap.keys.map m.findByLeftKey).Nodup := by
    refine m.leftMap.keys_nodup.map_on fun a hm a' _ he => ?_
    obtain ⟨b, hf⟩ := named hm
    exact Option.some.inj ((paired a b hf).symm.trans (paired a' b (he ▸ hf)))
  have inside : m.leftMap.keys.map m.findByLeftKey ⊆ m.rightMap.keys.map some := by
    intro key hk
    obtain ⟨a, hm, rfl⟩ := mem_map.mp hk
    obtain ⟨b, hf⟩ := named hm
    have back : (m.rightMap.lookup b).isSome := isSome_iff_exists.mpr ⟨a, paired a b hf⟩
    exact hf ▸ mem_map_of_mem (AList.mem_keys.mp (AList.lookup_isSome.mp back))
  simpa using (subperm_of_subset distinct inside).length_le

theorem Inverse.sizesAgree (hi : m.Inverse) : m.SizesAgree :=
  Nat.le_antisymm hi.leftPaired.length_keys_le hi.swap.leftPaired.length_keys_le

theorem insert_of_present (hl : m.findByLeftKey a ≠ none) (hr : m.findByRightKey b ≠ none) :
    m.insert a b = m := by
  have left : insertNew m.leftMap a b = m.leftMap := if_pos (isSome_iff_ne_none.mpr hl)
  have right : insertNew m.rightMap b a = m.rightMap := if_pos (isSome_iff_ne_none.mpr hr)
  rw [Bimap.insert, left, right]

/-- A right key that is there keeps its partner, so that the new left key would have none. -/
theorem Inverse.new_right (hi : m.Inverse) (after : (m.insert a b).Inverse)
    (new : m.findByLeftKey a = none) : m.findByRightKey b = none := by
  by_contra old
  obtain ⟨partner, hf⟩ := ne_none_iff_exists'.mp old
  have back : (m.insert a b).findByRightKey b = some a :=
    (after a b).mp (by rw [findByLeftKey_insert, if_pos rfl, new, getD_none])
  rw [findByRightKey_insert, if_pos rfl, hf, getD_some] at back
  rw [← Option.some.inj back, (hi partner b).mpr hf] at new
  cases new

theorem Inverse.step {call : Call α β} {t : Bimap α β} (hi : m.Inverse) (hm : m.Matched call)
    (ht : m.step call = some t) : t.Inverse := by
  cases call with
  | insert a b =>
    cases ht
    by_cases new : m.findByLeftKey a = none
    · exact hi.insert new (hm.mp new)
    · rwa [insert_of_present new (mt hm.mpr new)]
  | removebyLeftKey a =>
    cases ht
    exact hi.removebyLeftKey
  | removebyRightKey b =>
    cases ht
    exact hi.removebyRightKey

theorem matched_of_inverse {call : Call α β} {t : Bimap α β} (hi : m.Inverse)
    (ht : m.step call = some t) (after : t.Inverse) : m.Matched call := by
  cases call with
  | insert a b =>
    cases ht
    exact ⟨hi.new_right after, hi.swap.new_right after.swap⟩
  | removebyLeftKey a | removebyRightKey b => exact trivial

theorem isSome_execute (m : Bimap α β) (calls : List (Call α β)) :
    ∃ t, execute step m calls = some t := by
  induction calls generalizing m with
  | nil => exact ⟨m, rfl⟩
  | cons call calls ih =>
    cases call
    all_goals exact ih _

/-- The two maps are inverse to each other all the time, and `size` passes its assertion, exactly
if the keys of every insertion are both new or both there. -/
theorem inverse_iff_matched (calls : List (Call α β)) :
    (∀ n m, execute step empty (calls.take n) = some m → m.Inverse ∧ m.SizesAgree) ↔
      Admissible step Matched (empty : Bimap α β) calls := by
  obtain ⟨t, run⟩ := isSome_execute (empty : Bimap α β) calls
  exact (admissible_iff_forall_reached Inverse.step (fun hi => ⟨hi, hi.sizesAgree⟩)
    (fun hi ht after => matched_of_inverse hi ht after.1) inverse_empty run).symm

/-- A left key that is inserted again leaves a right key without a partner. -/
theorem repeated_left_key :
    ∃ m, execute step (empty : Bimap ℕ ℕ) [.insert 1 1, .insert 1 2] = some m ∧
      ¬ m.Inverse ∧ ¬ m.SizesAgree := by
  refine ⟨_, rfl, fun hi => ?_, by decide⟩
  have back := (hi 1 2).mpr rfl
  cases back

end Bimap

end ChaosFramework.Utility
