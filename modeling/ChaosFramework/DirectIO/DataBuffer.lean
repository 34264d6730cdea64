import ChaosFramework.Bytes

/-!
# Buffers with a cursor

`DataBuffer` appends to a buffer or reads from one at a cursor, an `int32_t`, which is not checked
against the size before a read. So an operation has no result where the code would access memory
outside the buffer, and the number of the bytes that were accessed is recorded.
-/

namespace ChaosFramework.DirectIO

open Bytes List Option
open BitVec (ofNat toNat_ofNat setWidth_eq ofNat_toNat ofNat_add add_assoc)

structure DataBuffer where
  buffer : List Byte
  /-- An `int32_t`. -/
  cursor : BitVec 32
  accesses : ℕ
  deriving DecidableEq, Repr

/-- The operations on a buffer. -/
abbrev BufferM := StateT DataBuffer Option

/-- `std::length_error`. -/
inductive LengthError
  | lengthError
  deriving DecidableEq, Repr

namespace DataBuffer

/-- A buffer to read from. -/
def attach (buffer : List Byte) : DataBuffer := ⟨buffer, 0, 0⟩

/-- An empty buffer to write to. -/
def empty : DataBuffer := ⟨[], 0, 0⟩

/-- The bytes from the cursor on. -/
def rest (b : DataBuffer) : List Byte :=
  if b.cursor.toInt < 0 then [] else b.buffer.drop b.cursor.toNat

def skip (b : DataBuffer) (bytes accesses : ℕ) : DataBuffer :=
  { b with cursor := b.cursor + BitVec.ofNat 32 bytes, accesses := b.accesses + accesses }

/-! ### Reading -/

def access (n : ℕ) : BufferM (List Byte) := fun b =>
  if n ≤ b.rest.length then some (b.rest.take n, b.skip n n) else none

def readInt8 : BufferM (BitVec 8) := do return BitVec.ofNat 8 (ofBytes (← access 1))

def readInt16 : BufferM (BitVec 16) := do return BitVec.ofNat 16 (ofBytes (← access 2))

def readInt32 : BufferM (BitVec 32) := do return BitVec.ofNat 32 (ofBytes (← access 4))

/-- `readString`. A negative length is an enormous `size_t`, which the constructor of the
string refuses. -/
def readString (strLen : BitVec 32) : BufferM (Except LengthError (List Byte)) :=
  if strLen.toInt < 0 then return .error .lengthError
  else do return .ok (← access strLen.toNat)

/-- `readStringUntilNull`. The end is compared with the size, as a `size_t`, after it was found. -/
def readStringUntilNull : BufferM (List Byte) := fun b =>
  match untilNull b.rest with
  | none => none
  | some (string, _) =>
      if (b.buffer.length : Int) < (b.cursor.toInt + string.length) % 18446744073709551616 then
        some ([], b.skip 0 (string.length + 1))
      else some (string, b.skip (string.length + 1) (2 * string.length + 1))

/-- The loops that read a number of items. -/
def readMany {α : Type} (read : BufferM α) : ℕ → BufferM (List α)
  | 0 => return []
  | n + 1 => do
      let item ← read
      let items ← readMany read n
      return item :: items

/-- A loop of `readStringUntilNull`. -/
def readStrings : ℕ → BufferM (List (List Byte)) := readMany readStringUntilNull

/-! ### Writing -/

def extend (b : DataBuffer) (bytes : List Byte) : DataBuffer :=
  { b with
    buffer := b.buffer ++ bytes
    cursor := b.cursor + BitVec.ofNat 32 bytes.length }

def append (bytes : List Byte) : BufferM Unit := fun b => some ((), b.extend bytes)

/-- `writeByte` of memory. A negative length is an enormous `size_t`. -/
def writeByte (startBuf : List Byte) (memoryLen : BitVec 32) : BufferM Unit :=
  if memoryLen.toInt < 0 then fun _ => none else append (startBuf.take memoryLen.toNat)

def writeInt8 (number : BitVec 8) : BufferM Unit := append (toBytes 1 number.toNat)

def writeInt16 (number : BitVec 16) : BufferM Unit := append (toBytes 2 number.toNat)

def writeInt32 (number : BitVec 32) : BufferM Unit := append (toBytes 4 number.toNat)

/-- The bytes of a string, and a null character. -/
def writeTerminated (string : List Byte) : BufferM Unit := do
  writeByte string (BitVec.ofNat 32 string.length)
  append [0]

def writeStrings : List (List Byte) → BufferM Unit
  | [] => return ()
  | string :: strings => do
      writeTerminated string
      writeStrings strings

/-! ### The cursor -/

section Cursor

variable {α β : Type} {b : DataBuffer} {n k avail : ℕ} {str : List Byte} {encode : α → List Byte}
  {strs : List (List Byte)} {valid : α → Prop} {read : BufferM α} {sizes : List ℕ}

theorem bind_apply (x : BufferM α) (f : α → BufferM β) (b : DataBuffer) :
    (x >>= f) b = (x b).bind fun res => f res.1 res.2 := rfl

theorem pure_apply (a : α) (b : DataBuffer) : (pure a : BufferM α) b = some (a, b) := rfl

theorem toInt_neg_iff {x : BitVec 32} : x.toInt < 0 ↔ 2147483648 ≤ x.toNat := by
  rw [BitVec.toInt_neg_iff]
  omega

theorem rest_of_small (small : b.cursor.toNat < 2147483648) :
    b.rest = b.buffer.drop b.cursor.toNat := by
  rw [rest, if_neg]
  rw [toInt_neg_iff]
  omega

theorem rest_of_large (large : 2147483648 ≤ b.cursor.toNat) : b.rest = [] := by
  rw [rest, if_pos (toInt_neg_iff.mpr large)]

@[simp] theorem rest_attach (buf : List Byte) : (attach buf).rest = buf := rfl

@[simp] theorem toNat_cursor_attach (buf : List Byte) : (attach buf).cursor.toNat = 0 := rfl

@[simp] theorem skip_buffer : (b.skip n k).buffer = b.buffer := rfl

@[simp] theorem skip_accesses : (b.skip n k).accesses = b.accesses + k := rfl

theorem toNat_skip : (b.skip n k).cursor.toNat = (b.cursor.toNat + n) % 4294967296 := by
  rw [skip, BitVec.toNat_add, toNat_ofNat, Nat.add_mod_mod]

theorem rest_skip (small : b.cursor.toNat + n < 2147483648) :
    (b.skip n k).rest = b.rest.drop n := by
  have moved : (b.skip n k).cursor.toNat = b.cursor.toNat + n := by
    rw [toNat_skip, Nat.mod_eq_of_lt (by omega)]
  rw [rest_of_small (by omega), rest_of_small (by omega), moved, drop_drop, skip_buffer]

theorem small_of_rest (nonempty : b.rest ≠ []) : b.cursor.toNat < 2147483648 := by
  by_contra large
  exact nonempty (rest_of_large (by omega))

/-- Behind the bytes that are read the cursor is at their end, or negative. -/
theorem length_rest_skip_le (hb : b.buffer.length < 4294967296) (hi : n ≤ b.rest.length) :
    (b.skip n k).rest.length + n ≤ b.rest.length := by
  by_cases none : b.rest = []
  · rw [none, length_nil, Nat.le_zero] at hi
    subst hi
    have same : (b.skip 0 k).rest = b.rest := by
      simp [rest, skip]
    rw [same, Nat.add_zero]
  · have small := small_of_rest none
    rw [rest_of_small small, length_drop] at hi ⊢
    by_cases moved : b.cursor.toNat + n < 2147483648
    · rw [rest_skip moved, rest_of_small small, length_drop, length_drop]
      omega
    · have wrapped : (b.skip n k).cursor.toNat = b.cursor.toNat + n := by
        rw [toNat_skip, Nat.mod_eq_of_lt (by omega)]
      rw [rest_of_large (by omega), length_nil]
      omega

/-! ### Numbers -/

theorem readInt8_eq (b : DataBuffer) : readInt8 b =
    if 1 ≤ b.rest.length then some (ofNat 8 (ofBytes (b.rest.take 1)), b.skip 1 1)
    else none := by
  rw [readInt8, bind_apply, access]
  split <;> rfl

theorem readInt16_eq (b : DataBuffer) : readInt16 b =
    if 2 ≤ b.rest.length then some (ofNat 16 (ofBytes (b.rest.take 2)), b.skip 2 2)
    else none := by
  rw [readInt16, bind_apply, access]
  split <;> rfl

theorem readInt32_eq (b : DataBuffer) : readInt32 b =
    if 4 ≤ b.rest.length then some (ofNat 32 (ofBytes (b.rest.take 4)), b.skip 4 4)
    else none := by
  rw [readInt32, bind_apply, access]
  split <;> rfl

theorem ofBytes_take_lt (width : ℕ) (bytes : List Byte) :
    ofBytes (bytes.take width) < 256 ^ width :=
  (ofBytes_lt _).trans_le (Nat.pow_le_pow_right (by decide) (length_take_le ..))

theorem readInt16_isSome (long : 2 ≤ b.rest.length) : ∃ num,
    readInt16 b = some (num, b.skip 2 2) ∧ num.toNat = ofBytes (b.rest.take 2) := by
  refine ⟨_, (readInt16_eq b).trans (if_pos long), ?_⟩
  exact Nat.mod_eq_of_lt (ofBytes_take_lt 2 _)

theorem readInt32_isSome (long : 4 ≤ b.rest.length) : ∃ num,
    readInt32 b = some (num, b.skip 4 4) ∧ num.toNat = ofBytes (b.rest.take 4) := by
  refine ⟨_, (readInt32_eq b).trans (if_pos long), ?_⟩
  exact Nat.mod_eq_of_lt (ofBytes_take_lt 4 _)

/-! ### Strings -/

/-- The comparison with the size comes too late to fail: the null character was found inside. -/
theorem readStringUntilNull_eq (hb : b.buffer.length < 4294967296) :
    readStringUntilNull b = (untilNull b.rest).map fun found =>
      (found.1, b.skip (found.1.length + 1) (2 * found.1.length + 1)) := by
  unfold readStringUntilNull
  split
  next missing => rw [missing, map_none]
  next str tail found =>
    rw [found, map_some, if_neg]
    obtain ⟨bytes, -⟩ := untilNull_eq_some.mp found
    have small : b.cursor.toNat < 2147483648 := small_of_rest (by simp [bytes])
    have length := congrArg List.length bytes
    rw [rest_of_small small] at length
    simp only [length_drop, length_append, length_cons] at length
    have signed : b.cursor.toInt = b.cursor.toNat := BitVec.toInt_eq_toNat_of_lt (by omega)
    omega

theorem readMany_zero (read : BufferM α) (b : DataBuffer) : readMany read 0 b = some ([], b) := rfl

theorem readMany_succ (read : BufferM α) (b : DataBuffer) :
    readMany read (n + 1) b = (read b).bind fun first =>
      (readMany read n first.2).map fun others => (first.1 :: others.1, others.2) := by
  rw [readMany, bind_apply]
  refine congrArg _ (funext fun first => ?_)
  rw [bind_apply]
  cases readMany read n first.2 <;> rfl

theorem readStrings_zero (b : DataBuffer) : readStrings 0 b = some ([], b) := rfl

theorem readStrings_succ (b : DataBuffer) :
    readStrings (n + 1) b = (readStringUntilNull b).bind fun first =>
      (readStrings n first.2).map fun others => (first.1 :: others.1, others.2) :=
  readMany_succ readStringUntilNull b

theorem readStrings_bounds {after : DataBuffer}
    (hb : b.buffer.length < 4294967296) (done : readStrings n b = some (strs, after)) :
    after.accesses ≤ b.accesses + 2 * b.rest.length ∧ strs.length = n := by
  induction n generalizing b strs with
  | zero =>
    obtain ⟨rfl, rfl⟩ := Prod.mk.inj (Option.some.inj done)
    exact ⟨Nat.le_add_right .., rfl⟩
  | succ n ih =>
    rw [readStrings_succ, readStringUntilNull_eq hb] at done
    obtain ⟨first, read, more⟩ := bind_eq_some_iff.mp done
    obtain ⟨⟨str, tail⟩, found, rfl⟩ := map_eq_some_iff.mp read
    obtain ⟨others, hr, same⟩ := map_eq_some_iff.mp more
    obtain ⟨rfl, rfl⟩ := Prod.mk.inj same
    obtain ⟨ha, length⟩ := ih (b := b.skip _ _) hb hr
    have hi : str.length + 1 ≤ b.rest.length := by
      rw [(untilNull_eq_some.mp found).1]
      simp
    have left := length_rest_skip_le (k := 2 * str.length + 1) hb hi
    rw [skip_accesses] at ha
    refine ⟨?_, by rw [length_cons, length]⟩
    dsimp only at ha
    omega

/-- Null characters inside the buffer decide whether the strings can be read. Each of them but the
last has to leave the cursor in the range of an `int32_t`. -/
theorem readStrings_isSome_iff (hb : b.buffer.length < 4294967296)
    (small : b.cursor.toNat < 2147483648) :
    (readStrings n b).isSome ↔ n ≤ (b.buffer.drop b.cursor.toNat).count 0 ∧
      n - 1 ≤ ((b.buffer.take 2147483647).drop b.cursor.toNat).count 0 := by
  induction n generalizing b with
  | zero => simp [readStrings_zero]
  | succ n ih =>
    rw [readStrings_succ, readStringUntilNull_eq hb, rest_of_small small]
    cases found : untilNull (b.buffer.drop b.cursor.toNat) with
    | none =>
      rw [count_eq_zero.mpr (untilNull_eq_none.mp found)]
      simp
    | some split =>
      obtain ⟨str, tail⟩ := split
      obtain ⟨bytes, clean⟩ := untilNull_eq_some.mp found
      have length := congrArg List.length bytes
      simp only [length_drop, length_append, length_cons] at length
      have tail_eq : b.buffer.drop (b.cursor.toNat + (str.length + 1)) = tail := by
        rw [← drop_drop, bytes]
        simp
      have moved : (b.skip (str.length + 1) (2 * str.length + 1)).cursor.toNat =
          b.cursor.toNat + (str.length + 1) := by
        rw [toNat_skip, Nat.mod_eq_of_lt (by omega)]
      have total : (b.buffer.drop b.cursor.toNat).count 0 = tail.count 0 + 1 := by
        rw [bytes, count_append, count_eq_zero.mpr clean, count_cons_self, Nat.zero_add]
      have near := count_take_append clean tail (2147483647 - b.cursor.toNat)
      rw [← bytes] at near
      rw [map_some, bind_some, isSome_map, total, drop_take, near]
      dsimp only
      by_cases next : b.cursor.toNat + (str.length + 1) < 2147483648
      · rw [ih (b := b.skip _ _) hb (by omega), moved, skip_buffer, drop_take, tail_eq,
          if_pos (by omega), show 2147483647 - b.cursor.toNat - str.length - 1 =
            2147483647 - (b.cursor.toNat + (str.length + 1)) by omega]
        omega
      · -- the cursor is negative now, and nothing more can be read
        have behind : (b.skip (str.length + 1) (2 * str.length + 1)).rest = [] :=
          rest_of_large (by omega)
        rw [if_neg (by omega)]
        cases n with
        | zero => simp [readStrings_zero]
        | succ n =>
          rw [readStrings_succ, readStringUntilNull_eq (b := b.skip _ _) hb, behind]
          simp [untilNull]

/-! ### What is written can be read -/

theorem skip_skip (m l : ℕ) : (b.skip n k).skip m l = b.skip (n + m) (k + l) := by
  simp only [skip, ofNat_add, add_assoc, Nat.add_assoc]

theorem extend_extend (first second : List Byte) :
    (b.extend first).extend second = b.extend (first ++ second) := by
  simp [extend, ofNat_add, add_assoc]

theorem extend_nil (b : DataBuffer) : b.extend [] = b := by
  simp [extend]

/-- The operation reads these bytes, wherever they stand at the cursor, as the value. -/
def Reads (x : BufferM α) (bytes : List Byte) (a : α) : Prop :=
  ∀ (b : DataBuffer) (tail : List Byte), b.buffer.length < 4294967296 → b.rest = bytes ++ tail →
    b.cursor.toNat + bytes.length < 2147483648 → ∃ k, x b = some (a, b.skip bytes.length k)

namespace Reads

theorem pure (a : α) : Reads (pure a) [] a := fun _ _ _ _ _ => ⟨0, by simp [pure_apply, skip]⟩

variable {x : BufferM α} {bytes : List Byte} {f : α → BufferM β} {a : α} {c : β}

theorem bind {more : List Byte} (first : Reads x bytes a) (second : Reads (f a) more c) :
    Reads (x >>= f) (bytes ++ more) c := by
  intro b tail hb starts fits
  rw [append_assoc] at starts
  rw [length_append] at fits ⊢
  obtain ⟨k, read⟩ := first b (more ++ tail) hb starts (by omega)
  have moved : (b.skip bytes.length k).cursor.toNat = b.cursor.toNat + bytes.length := by
    rw [toNat_skip, Nat.mod_eq_of_lt (by omega)]
  have left : (b.skip bytes.length k).rest = more ++ tail := by
    rw [rest_skip (by omega), starts, drop_left]
  obtain ⟨l, hr⟩ := second (b.skip bytes.length k) tail hb left (by omega)
  exact ⟨k + l, by rw [bind_apply, read, bind_some, hr, skip_skip]⟩

theorem returning (read : Reads x bytes a) (hr : f a = Pure.pure c) : Reads (x >>= f) bytes c := by
  rw [← append_nil bytes]
  refine read.bind ?_
  rw [hr]
  exact .pure c

theorem access (bytes : List Byte) : Reads (access bytes.length) bytes bytes := by
  intro b tail _ starts _
  refine ⟨bytes.length, ?_⟩
  rw [DataBuffer.access, if_pos, starts, take_left]
  rw [starts, length_append]
  exact Nat.le_add_right ..

theorem number (width n : ℕ) :
    Reads (DataBuffer.access width) (toBytes width n) (toBytes width n) := by
  have read := access (toBytes width n)
  rwa [length_toBytes] at read

theorem int8 (n : BitVec 8) : Reads readInt8 (toBytes 1 n.toNat) n := by
  have read : Reads readInt8 _ (ofNat 8 _) := (number 1 n.toNat).returning rfl
  rwa [ofBytes_toBytes_of_lt n.isLt, ofNat_toNat] at read

theorem int16 (n : BitVec 16) : Reads readInt16 (toBytes 2 n.toNat) n := by
  have read : Reads readInt16 _ (ofNat 16 _) := (number 2 n.toNat).returning rfl
  rwa [ofBytes_toBytes_of_lt n.isLt, ofNat_toNat] at read

theorem int32 (n : BitVec 32) : Reads readInt32 (toBytes 4 n.toNat) n := by
  have read : Reads readInt32 _ (ofNat 32 _) := (number 4 n.toNat).returning rfl
  rwa [ofBytes_toBytes_of_lt n.isLt, ofNat_toNat] at read

theorem stringUntilNull (clean : 0 ∉ str) : Reads readStringUntilNull (str ++ [0]) str := by
  intro b tail hb starts _
  rw [append_assoc, singleton_append] at starts
  rw [length_append, length_singleton]
  exact ⟨2 * str.length + 1, by
    rw [readStringUntilNull_eq hb, starts, untilNull_append clean, map_some]⟩

theorem strings (clean : ∀ str ∈ strs, 0 ∉ str) :
    Reads (readStrings strs.length) (terminated strs) strs := by
  induction strs with
  | nil => exact .pure []
  | cons str strs ih =>
    exact (stringUntilNull (clean str (mem_cons_self ..))).bind
      ((ih fun other hm => clean other (mem_cons_of_mem _ hm)).returning rfl)

/-- From the start of a buffer to its end. -/
theorem attach (read : Reads x bytes a) (fits : bytes.length < 2147483648) :
    ∃ k, x (attach bytes) = some (a, (DataBuffer.attach bytes).skip bytes.length k) :=
  read (DataBuffer.attach bytes) [] (Nat.lt_trans fits (by decide)) (append_nil _).symm
    (by rwa [toNat_cursor_attach, Nat.zero_add])

end Reads

/-! ### Items behind each other -/

/-- The operation reads an item exactly if its encoding stands at the cursor and is complete. -/
structure Delimited (read : BufferM α) (encode : α → List Byte) (valid : α → Prop) : Prop where
  complete : ∀ {b : DataBuffer} {a : α} {tail : List Byte} {available : ℕ},
    b.buffer.length < 4294967296 → valid a → b.rest = (encode a ++ tail).take available →
    (encode a).length ≤ available → ∃ k, read b = some (a, b.skip (encode a).length k)
  incomplete : ∀ {b : DataBuffer} {a : α} {tail : List Byte} {available : ℕ},
    b.buffer.length < 4294967296 → valid a → b.rest = (encode a ++ tail).take available →
    available < (encode a).length → read b = none
  exhausted : ∀ {b : DataBuffer}, b.rest = [] → read b = none

/-- The first items can be read from the available bytes: each of them is complete, and the cursor
is positive when it is read. -/
def Readable (sizes : List ℕ) (cursor available n : ℕ) : Prop :=
  n ≤ sizes.length ∧ cursor + (sizes.take (n - 1)).sum < 2147483648 ∧
    (sizes.take n).sum ≤ available

instance (sizes : List ℕ) (cursor available n : ℕ) :
    Decidable (Readable sizes cursor available n) :=
  inferInstanceAs (Decidable (_ ∧ _ ∧ _))

theorem readable_cons_iff {size cur : ℕ}
    (small : cur < 2147483648) (next : cur + size < 2147483648) (fits : size ≤ avail) :
    Readable (size :: sizes) cur avail (n + 1) ↔ Readable sizes (cur + size) (avail - size) n := by
  unfold Readable
  cases n with
  | zero => simp [small, next, fits]
  | succ n =>
    simp only [length_cons, Nat.add_sub_cancel, take_succ_cons, sum_cons]
    omega

/-- Behind an item that leaves the cursor negative nothing can be read. -/
theorem readable_cons_far_iff {size cur : ℕ}
    (small : cur < 2147483648) (far : ¬ cur + size < 2147483648) (fits : size ≤ avail) :
    Readable (size :: sizes) cur avail (n + 1) ↔ n = 0 := by
  unfold Readable
  cases n with
  | zero => simp [small, fits]
  | succ n =>
    simp only [Nat.add_sub_cancel, take_succ_cons, sum_cons]
    omega

theorem Delimited.readMany_exhausted (hd : Delimited read encode valid) (behind : b.rest = []) :
    (readMany read n b).map Prod.fst = if n = 0 then some [] else none := by
  cases n with
  | zero => rfl
  | succ n =>
    rw [readMany_succ, hd.exhausted behind]
    rfl

theorem Delimited.readMany_take (hd : Delimited read encode valid) {items : List α}
    (hb : b.buffer.length < 4294967296) (clean : ∀ a ∈ items, valid a)
    (small : b.cursor.toNat < 2147483648)
    (starts : b.rest = (items.flatMap encode).take avail) :
    (readMany read n b).map Prod.fst =
      if Readable (items.map fun a => (encode a).length) b.cursor.toNat avail n then
        some (items.take n)
      else none := by
  induction n generalizing items avail b with
  | zero =>
    rw [if_pos ⟨Nat.zero_le _, by simpa using small, by simp⟩]
    rfl
  | succ n ih =>
    rw [readMany_succ]
    cases items with
    | nil =>
      rw [hd.exhausted (by simpa using starts)]
      rfl
    | cons a items =>
      rw [flatMap_cons] at starts
      have valid := clean a (mem_cons_self ..)
      by_cases fits : (encode a).length ≤ avail
      · obtain ⟨k, done⟩ := hd.complete hb valid starts fits
        have length := congrArg List.length starts
        rw [rest_of_small small, length_drop, length_take, length_append] at length
        have moved : (b.skip (encode a).length k).cursor.toNat =
            b.cursor.toNat + (encode a).length := by
          rw [toNat_skip, Nat.mod_eq_of_lt (by omega)]
        have cons : (readMany read n (b.skip (encode a).length k)).map
            (Prod.fst ∘ fun others => (a :: others.1, others.2)) =
            ((readMany read n (b.skip (encode a).length k)).map Prod.fst).map (a :: ·) := by
          rw [Option.map_map]
          rfl
        rw [done, bind_some, Option.map_map, map_cons, cons]
        by_cases next : b.cursor.toNat + (encode a).length < 2147483648
        · have left : (b.skip (encode a).length k).rest =
              (items.flatMap encode).take (avail - (encode a).length) := by
            rw [rest_skip next, starts, drop_take, drop_left]
          have others := ih (b := b.skip (encode a).length k) hb
            (fun other hm => clean other (mem_cons_of_mem _ hm)) (by omega) left
          simp only [readable_cons_iff small next fits]
          rw [others, moved, apply_ite (Option.map _)]
          rfl
        · -- the cursor is negative behind this item
          simp only [readable_cons_far_iff small next fits]
          rw [hd.readMany_exhausted (rest_of_large (by omega))]
          split
          next last => rw [last, take_succ_cons, take_zero, map_some]
          next => rfl
      · rw [hd.incomplete hb valid starts (by omega), if_neg]
        · rfl
        · rintro ⟨-, -, hi⟩
          rw [map_cons, take_succ_cons, sum_cons] at hi
          omega

theorem delimited_readStringUntilNull : Delimited readStringUntilNull (· ++ [0]) (0 ∉ ·) where
  complete {b str tail avail} hb clean starts fits := by
    rw [length_append, length_singleton] at fits ⊢
    obtain ⟨m, rfl⟩ : ∃ m, avail = str.length + (m + 1) :=
      ⟨avail - str.length - 1, by omega⟩
    rw [append_assoc, take_length_add_append, singleton_append, take_succ_cons] at starts
    exact ⟨2 * str.length + 1, by
      rw [readStringUntilNull_eq hb, starts, untilNull_append clean, map_some]⟩
  incomplete {b str tail avail} hb clean starts short := by
    rw [length_append, length_singleton] at short
    rw [append_assoc, take_append_of_le_length (by omega)] at starts
    have hm : untilNull b.rest = none := by
      rw [starts, untilNull_eq_none]
      exact fun zero => clean (mem_of_mem_take zero)
    rw [readStringUntilNull_eq hb, hm, map_none]
  exhausted {b} none := by
    rw [readStringUntilNull, none]
    rfl

/-! ### Writing strings -/

/-- What is written of a string whose length is converted to `int32_t`. -/
def cut (string : List Byte) : List Byte := string.take (string.length % 4294967296)

theorem cut_of_small (small : str.length < 4294967296) : cut str = str := by
  rw [cut, Nat.mod_eq_of_lt small, take_length]

theorem writeByte_eq (str : List Byte) :
    writeByte str (ofNat 32 str.length) b =
      if str.length % 4294967296 < 2147483648 then some ((), b.extend (cut str))
      else none := by
  have hu : (ofNat 32 str.length).toNat = str.length % 4294967296 :=
    toNat_ofNat ..
  rw [writeByte]
  split
  next negative => rw [if_neg (by rw [toInt_neg_iff] at negative; omega)]
  next positive =>
    rw [if_pos (by rw [toInt_neg_iff] at positive; omega), append, hu, cut]

theorem writeByte_apply (small : str.length < 2147483648) :
    writeByte str (ofNat 32 str.length) b = some ((), b.extend str) := by
  rw [writeByte_eq, if_pos (by omega), cut_of_small (by omega)]

theorem writeStrings_eq (strs : List (List Byte)) :
    writeStrings strs b =
      if ∀ str ∈ strs, str.length % 4294967296 < 2147483648 then
        some ((), b.extend (terminated (strs.map cut)))
      else none := by
  induction strs generalizing b with
  | nil => simp [writeStrings, pure_apply, extend_nil]
  | cons str strs ih =>
    rw [writeStrings, bind_apply, writeTerminated, bind_apply, writeByte_eq]
    by_cases short : str.length % 4294967296 < 2147483648
    · rw [if_pos short, bind_some, append, bind_some, ih, extend_extend,
        extend_extend, map_cons, terminated_cons]
      simp only [forall_mem_cons, short, true_and]
      rfl
    · rw [if_neg short, bind_none, bind_none, if_neg]
      exact fun all => short (all str (mem_cons_self ..))

theorem writeStrings_apply (small : ∀ str ∈ strs, str.length < 2147483648) :
    writeStrings strs b = some ((), b.extend (terminated strs)) := by
  have uncut : strs.map cut = strs :=
    (map_congr_left fun str hm =>
      cut_of_small ((small str hm).trans (by decide))).trans (List.map_id' _)
  rw [writeStrings_eq, uncut, if_pos]
  intro str hm
  exact (Nat.mod_le ..).trans_lt (small str hm)

theorem toInt_ofNat_length (small : str.length < 2147483648) :
    ¬ (ofNat 32 str.length).toInt < 0 ∧ (ofNat 32 str.length).toNat = str.length := by
  have hu : (ofNat 32 str.length).toNat = str.length := by
    rw [toNat_ofNat, Nat.mod_eq_of_lt (by omega)]
  rw [toInt_neg_iff, hu]
  exact ⟨by omega, rfl⟩

end Cursor

end DataBuffer

end ChaosFramework.DirectIO
