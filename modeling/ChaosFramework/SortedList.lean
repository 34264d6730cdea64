import Mathlib.Data.List.Sort

/-!
# Lists in the order of their keys

Sorting by a key, for lists whose keys are distinct. The result is determined by the elements, so
that it does not matter whether a list is filtered before or after it is sorted, and the
elements behind one of them are those with a larger key.
-/

namespace ChaosFramework.SortedList

open List

variable {α κ : Type*} [LinearOrder κ] {key : α → κ} {l front back : List α} {a : α}

/-- The list in the order of the keys. -/
def sortOn (key : α → κ) (l : List α) : List α := l.insertionSort fun a b => key a ≤ key b

/-- The keys increase. -/
def Increasing (key : α → κ) (l : List α) : Prop := l.Pairwise fun a b => key a < key b

theorem sortOn_perm (key : α → κ) (l : List α) : (sortOn key l).Perm l :=
  perm_insertionSort _ l

@[simp] theorem mem_sortOn : a ∈ sortOn key l ↔ a ∈ l := (sortOn_perm key l).mem_iff

@[simp] theorem length_sortOn : (sortOn key l).length = l.length := (sortOn_perm key l).length_eq

theorem increasing_sortOn (hd : (l.map key).Nodup) : Increasing key (sortOn key l) := by
  have sorted : (sortOn key l).Pairwise fun a b => key a ≤ key b := pairwise_insertionSort _ l
  have different : (sortOn key l).Pairwise fun a b => key a ≠ key b :=
    pairwise_map.mp (((sortOn_perm key l).map key).nodup_iff.mpr hd)
  exact (sorted.and different).imp fun both => lt_of_le_of_ne both.1 both.2

/-- Increasing lists of the same elements are equal. -/
theorem Increasing.eq_of_perm {first second : List α} (increasing : Increasing key first)
    (hi : Increasing key second) (perm : first.Perm second) : first = second :=
  perm.eq_of_pairwise (fun _ _ _ _ less greater => absurd greater less.not_gt) increasing hi

theorem sortOn_filter (hd : (l.map key).Nodup) (p : α → Bool) :
    sortOn key (l.filter p) = (sortOn key l).filter p := by
  have distinctToo : ((l.filter p).map key).Nodup :=
    hd.sublist (filter_sublist.map key)
  exact (increasing_sortOn distinctToo).eq_of_perm ((increasing_sortOn hd).filter p)
    ((sortOn_perm key _).trans ((sortOn_perm key l).symm.filter p))

/-- The elements behind one of them. -/
theorem Increasing.filter_lt (increasing : Increasing key (front ++ a :: back)) :
    (front ++ a :: back).filter (fun b => decide (key a < key b)) = back := by
  obtain ⟨-, behind, hb⟩ := pairwise_append.mp increasing
  have small : front.filter (fun b => decide (key a < key b)) = [] :=
    filter_eq_nil_iff.mpr fun b hm => by
      simpa using (hb b hm a (mem_cons_self ..)).le
  have large : back.filter (fun b => decide (key a < key b)) = back :=
    filter_eq_self.mpr fun b hm => by
      simpa using rel_of_pairwise_cons behind hm
  rw [filter_append, small, nil_append, filter_cons_of_neg (by simp), large]

end ChaosFramework.SortedList
