import Mathlib.Data.List.Range
import Mathlib.Algebra.Order.Group.Nat

/-!
# Blocks in memory

A memory has a cell at every offset. Blocks are written to and read from it, and a block that
does not meet the one that is written is read as before.
-/

namespace ChaosFramework.ByteMemory

open List Option

variable {α : Type*} {m : ℕ → α} {off place len : ℕ} {block : List α}

def write (m : ℕ → α) (offset : ℕ) (block : List α) : ℕ → α := fun i =>
  if offset ≤ i then block[i - offset]?.getD (m i) else m i

def read (m : ℕ → α) (offset length : ℕ) : List α := (List.range length).map fun i => m (offset + i)

@[simp] theorem length_read : (read m off len).length = len := by
  rw [read, length_map, length_range]

theorem write_of_lt (hb : place < off) : write m off block place = m place :=
  if_neg (Nat.not_le.mpr hb)

theorem write_of_le (behind : off + block.length ≤ place) : write m off block place = m place := by
  have ho : block[place - off]? = none := by
    apply getElem?_eq_none
    omega
  rw [write, if_pos (by omega), ho, getD_none]

/-- What is read where it has been written. -/
theorem read_write_self (same : block.length = len) : read (write m off block) off len = block := by
  subst same
  apply ext_getElem length_read
  intro i small hi
  simp only [read, getElem_map, getElem_range]
  rw [write, if_pos (Nat.le_add_right off i), Nat.add_sub_cancel_left,
    getElem?_eq_getElem hi, getD_some]

/-- What is read somewhere else. -/
theorem read_write_of_disjoint (hd : place + len ≤ off ∨ off + block.length ≤ place) :
    read (write m off block) place len = read m place len := by
  apply map_congr_left
  intro i hm
  have hi := mem_range.mp hm
  rcases hd with hb | behind
  · exact write_of_lt (by omega)
  · exact write_of_le (by omega)

end ChaosFramework.ByteMemory
