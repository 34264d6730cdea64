import ChaosFramework.Data.AttributeMemory

/-!
# What an attribute value gives back

Values of the type of the attribute are stored one after the other in the same block, and both
`writeToCDataWrapper` and `getAsVariant` should give the last one. A string is delimited by the size
for one reader and by a zero byte for the other, and the text of a document only by a zero byte,
while the setters write the size (`setValue`) or fill up to it (`setStringValue`). The bytes of an
earlier value then show.

`Faithful` says for each call when both readers give the last value afterwards; the condition is
exact.
-/

namespace ChaosFramework.Data

open Bytes Transition AttributeValue List Option
open AttributeValue (allocated cString)

/-- The value with the bytes that were stored last. -/
structure Stored where
  value : AttributeValue
  last : Option (List Byte)

/-- The bytes are a value of the type. -/
structure OfType (type : DataType) (v : List Byte) : Prop where
  number : ∀ width ∈ type.width, v.length = width
  text : type = .string ∨ type = .cluster → 0 ∉ v
  known : type ≠ .undefined

instance decidableOfType (type : DataType) (v : List Byte) : Decidable (OfType type v) :=
  decidable_of_iff
    ((∀ width ∈ type.width, v.length = width) ∧ (type = .string ∨ type = .cluster → 0 ∉ v) ∧
      type ≠ .undefined)
    ⟨fun h => ⟨h.1, h.2.1, h.2.2⟩, fun h => ⟨h.number, h.text, h.known⟩⟩

/-- The bytes that a call stores, if it stores a value of the type or only changes the size. -/
def Operation.store (type : DataType) : Operation → Option (Option (List Byte))
  | .setNewSize _ _ => some none
  | .setValue v => if OfType type v.1 then some (some v.1) else none
  | .setValueOfVariant v =>
      if v.type = type ∧ OfType type v.bytes then some (some v.bytes) else none
  | .setStringValue v _ =>
      if (type = .string ∨ type = .cluster) ∧ OfType type v then some (some v) else none
  | .setValueOfWrapper _ => none

namespace Stored

/-- A successful call. -/
def step (s : Stored) (c : Call) : Option Stored :=
  (c.operation.store s.value.type).bind fun stored =>
    match c.operation.perform s.value c.realloc with
    | (a, true) => if a.corrupted then none else some ⟨a, stored.or s.last⟩
    | (_, false) => none

end Stored

section Readers

variable {Doc : Type*} (json : Json Doc)

/-- What a reader has to give for a value. -/
def Json.datum (type : DataType) (v : List Byte) : Datum Doc :=
  if type = .cluster then json.setSerializedJsonData v else .bytes v

/-- Both readers give the value that was stored last. -/
def Stored.Shows (s : Stored) : Prop :=
  ∀ v ∈ s.last,
    s.value.writeToCDataWrapper json = some (json.datum s.value.type v) ∧
      s.value.getAsVariant json = some (json.datum s.value.type v)

/-! ### The condition -/

/-- A call stores a value, after which the size is `n`. A string has this size, and there is a zero
byte behind it. The text of a document is terminated by `setStringValue`, or else the bytes up
to the next zero byte do not change the document. -/
def Covers (type : DataType) (n : ℕ) (block : Option (List Byte)) (v : List Byte) : Prop :=
  match type with
  | .string => v.length = n ∧ ∀ bytes ∈ block, 0 ∈ bytes.drop n
  | .cluster => v.length < n ∨ ∃ bytes ∈ block, ∃ split ∈ untilNull (bytes.drop n),
      json.setSerializedJsonData (v.take n ++ split.1) = json.setSerializedJsonData v
  | _ => True

/-- The size is changed while a value is stored. That of a string or buffer stays, and a number
or text is not cleared by a larger block, unless it is clear. -/
def Outlasts (type : DataType) (a : AttributeValue) (n : ℕ) (clear : Bool) (v : List Byte) : Prop :=
  match type with
  | .string => n = a.size
  | .byteArray => n = a.size
  | .cluster => n ≤ a.bufSize ∨ n ≤ 4294967292 ∧
      (clear = true → json.setSerializedJsonData [] = json.setSerializedJsonData v)
  | _ => n ≤ a.bufSize ∨ n ≤ 4294967292 ∧ (clear = true → v = List.replicate v.length 0)

/-- The condition on a call, by what it stores. -/
def FaithfulStore (s : Stored) (c : Call) : Option (Option (List Byte)) → Prop
  | some (some v) => Covers json s.value.type (s.value.newSize c) (s.value.newBlock c) v
  | some none =>
      ∀ v ∈ s.last, Outlasts json s.value.type s.value (s.value.newSize c) c.operation.clears v
  | none => True

def Faithful (s : Stored) (c : Call) : Prop :=
  FaithfulStore json s c (c.operation.store s.value.type)

instance decidableCovers [DecidableEq Doc] (type : DataType) (n : ℕ) (block : Option (List Byte))
    (v : List Byte) : Decidable (Covers json type n block v) := by
  unfold Covers
  split <;> infer_instance

instance decidableOutlasts [DecidableEq Doc] (type : DataType) (a : AttributeValue) (n : ℕ)
    (clear : Bool) (v : List Byte) : Decidable (Outlasts json type a n clear v) := by
  unfold Outlasts
  split <;> infer_instance

instance decidableFaithful [DecidableEq Doc] (s : Stored) (c : Call) :
    Decidable (Faithful json s c) :=
  match (motive := ∀ stored, Decidable (FaithfulStore json s c stored))
      c.operation.store s.value.type with
  | some (some _) => decidableCovers ..
  | some none => inferInstanceAs (Decidable (∀ v ∈ s.last, _))
  | none => .isTrue trivial

/-! ### The readers -/

/-- When both readers give a value, in terms of the block and the size. -/
def Displays (type : DataType) (n : ℕ) (block : Option (List Byte)) (v : List Byte) : Prop :=
  match type with
  | .string => v.length = n ∧ (block.getD []).take n = v ∧ ∀ bytes ∈ block, 0 ∈ bytes.drop n
  | .byteArray => v.length = n ∧ (block.getD []).take n = v
  | .cluster => ∃ bytes ∈ block, ∃ split ∈ untilNull bytes,
      json.setSerializedJsonData split.1 = json.setSerializedJsonData v
  | _ => (block.getD []).take v.length = v

variable {json} {a : AttributeValue} {v : List Byte}

theorem read_eq_some {n : ℕ} : a.read n = some v ↔ v.length = n ∧ a.allocated.take n = v := by
  unfold AttributeValue.read
  constructor
  · intro found
    obtain ⟨inside, same⟩ := ite_none_right_eq_some.mp found
    cases same
    exact ⟨length_take_of_le inside, rfl⟩
  · rintro ⟨length, rfl⟩
    rw [length_take] at length
    rw [if_pos (by omega)]

theorem map_read_eq_some {n : ℕ} :
    (a.read n).map (.bytes : List Byte → Datum Doc) = some (.bytes v) ↔
      v.length = n ∧ a.allocated.take n = v := by
  rw [← read_eq_some, map_eq_some_iff]
  constructor
  · rintro ⟨bytes, found, same⟩
    rw [found, Datum.bytes.inj same]
  · intro found
    exact ⟨v, found, rfl⟩

theorem map_cString_eq_some {β : Type*} {f : List Byte → β} {d : β} :
    a.cString.map f = some d ↔ ∃ split ∈ untilNull a.allocated, f split.1 = d := by
  rw [cString, Option.map_map, map_eq_some_iff]
  rfl

/-- A document is read in one way by both readers: the first byte is zero when the text is empty. -/
theorem writeToCDataWrapper_cluster (hc : a.type = .cluster) {bytes : List Byte}
    (block : a.valueBuffer = some bytes) :
    a.writeToCDataWrapper json = a.cString.map json.setSerializedJsonData := by
  have whole : a.allocated = bytes := by rw [allocated, block]; rfl
  rw [writeToCDataWrapper, hc]
  simp only [block, AttributeValue.read, cString, whole]
  cases bytes with
  | nil => rfl
  | cons byte rest =>
    by_cases zero : byte = 0 <;> simp [zero, untilNull, Json.setSerializedJsonData]

theorem displays_string_iff (string : a.type = .string) (clean : 0 ∉ v) :
    (a.writeToCDataWrapper json = some (.bytes v) ∧ a.getAsVariant json = some (.bytes v)) ↔
      Displays json .string a.size a.valueBuffer v := by
  rw [writeToCDataWrapper, getAsVariant, string]
  simp only [map_read_eq_some]
  constructor
  · rintro ⟨written, length, whole⟩
    refine ⟨length, whole, ?_⟩
    intro bytes block
    have block : a.valueBuffer = some bytes := block
    simp only [block] at written
    obtain ⟨split, found, -⟩ := map_cString_eq_some.mp written
    rw [allocated, block, getD_some] at found whole
    -- The zero byte that ends the string is not among the bytes of the value.
    have zero : 0 ∈ bytes := by
      by_contra none
      rw [untilNull_eq_none.mpr none] at found
      cases found
    rw [← take_append_drop a.size bytes, mem_append] at zero
    exact zero.resolve_left (whole ▸ clean)
  · rintro ⟨length, whole, ht⟩
    refine ⟨?_, length, whole⟩
    cases block : a.valueBuffer with
    | none =>
      rw [block, getD_none, take_nil] at whole
      rw [← whole]
    | some bytes =>
      rw [block, getD_some] at whole
      have behind := ht bytes block
      obtain ⟨⟨rest, tail⟩, found⟩ :=
        ne_none_iff_exists'.mp (mt untilNull_eq_none.mp (not_not.mpr behind))
      refine map_cString_eq_some.mpr ⟨(v ++ rest, tail), ?_, ?_⟩
      · rw [allocated, block, getD_some,
          ← take_append_drop a.size bytes, whole, untilNull_append_of_clean clean, found]
        rfl
      · rw [← length, take_left]

/-- **What the readers give.** -/
theorem shows_iff_displays (valid : OfType a.type v) :
    (a.writeToCDataWrapper json = some (json.datum a.type v) ∧
      a.getAsVariant json = some (json.datum a.type v)) ↔
      Displays json a.type a.size a.valueBuffer v := by
  have number := valid.number
  cases type : a.type with
  | string => exact displays_string_iff type (valid.text (.inl type))
  | cluster =>
    cases block : a.valueBuffer with
    | none =>
      refine iff_of_false ?_ (by rintro ⟨bytes, ⟨⟩, -⟩)
      rintro ⟨-, converted⟩
      rw [getAsVariant, type] at converted
      obtain ⟨split, found, -⟩ := map_cString_eq_some.mp converted
      rw [allocated, block] at found
      cases found
    | some bytes =>
      rw [writeToCDataWrapper_cluster type block, getAsVariant, type, and_self,
        map_cString_eq_some, allocated, block]
      constructor
      · rintro ⟨split, found, same⟩
        exact ⟨bytes, rfl, split, found, same⟩
      · rintro ⟨same, isBlock, split, found, shown⟩
        cases isBlock
        exact ⟨split, found, shown⟩
  | byteArray =>
    rw [writeToCDataWrapper, getAsVariant, type, and_self]
    exact map_read_eq_some
  | undefined => exact (valid.known type).elim
  | boolean | int32 | int64 | double =>
    rw [type] at number
    rw [writeToCDataWrapper, getAsVariant, type]
    simp only [getValuePtr, Json.datum, reduceCtorEq, if_false, map_read_eq_some, and_self,
      Displays, number _ rfl, true_and]
    rfl

/-! ### Storing a value -/

theorem takeWhile_of_clean (clean : 0 ∉ v) : v.takeWhile (· ≠ 0) = v :=
  takeWhile_eq_self_iff.mpr fun byte mem => by
    rw [decide_eq_true_eq]
    rintro rfl
    exact clean mem

theorem padded_of_le (clean : 0 ∉ v) {n : ℕ} (short : n ≤ v.length) : padded v n = v.take n := by
  rw [padded, takeWhile_of_clean clean, take_append_of_le_length short]

theorem padded_of_lt (clean : 0 ∉ v) {n : ℕ} (long : v.length < n) :
    ∃ rest, padded v n = v ++ 0 :: rest := by
  obtain ⟨m, rfl⟩ : ∃ m, n = v.length + (m + 1) := ⟨n - v.length - 1, by omega⟩
  rw [padded, takeWhile_of_clean clean, take_length_add_append, take_replicate,
    Nat.min_eq_left (by omega)]
  exact ⟨replicate m 0, rfl⟩

variable {n : ℕ} {block : Option (List Byte)} {type : DataType}

theorem displays_of_number_or_buffer (valid : OfType type v)
    (other : ¬(type = .string ∨ type = .cluster)) (inside : v.length ≤ (block.getD []).length) :
    Displays json type v.length (block.map (overwrite v)) v := by
  have shown : ((block.map (overwrite v)).getD []).take v.length = v := by
    cases block with
    | none => simpa using inside
    | some bytes => simp [overwrite]
  cases type with
  | string => exact (other (.inl rfl)).elim
  | cluster => exact (other (.inr rfl)).elim
  | undefined => exact (valid.known rfl).elim
  | byteArray => exact ⟨rfl, shown⟩
  | boolean | int32 | int64 | double => exact shown

theorem displays_string_iff_covers (clean : 0 ∉ v) (inside : n ≤ (block.getD []).length) :
    Displays json .string n (block.map (overwrite (padded v n))) v ↔
      Covers json .string n block v := by
  have behind (bytes : List Byte) : (overwrite (padded v n) bytes).drop n = bytes.drop n := by
    have length := length_padded v n
    rw [overwrite, drop_append, length, Nat.sub_self, drop_zero,
      drop_eq_nil_of_le length.le, nil_append]
  constructor
  · rintro ⟨length, -, ht⟩
    refine ⟨length, fun bytes isBlock => ?_⟩
    rw [← behind]
    exact ht _ (Option.mem_map_of_mem _ isBlock)
  · rintro ⟨length, ht⟩
    refine ⟨length, ?_, ?_⟩
    · have copied : padded v n = v := by
        rw [padded_of_le clean length.ge, ← length, take_length]
      rw [copied, ← length]
      cases block with
      | none =>
        rw [← length] at inside
        simpa using inside
      | some bytes => simp [overwrite]
    · intro bytes isBlock
      obtain ⟨old, isOld, rfl⟩ := map_eq_some_iff.mp isBlock
      rw [behind]
      exact ht old isOld

theorem displays_cluster_iff_covers (clean : 0 ∉ v) (inside : n ≤ (block.getD []).length) :
    Displays json .cluster n (block.map (overwrite (padded v n))) v ↔
      Covers json .cluster n block v := by
  by_cases short : n ≤ v.length
  · -- The text is cut, or fills the size: what is behind it in the block is read along.
    have untilEnd (bytes : List Byte) : untilNull (overwrite (padded v n) bytes) =
        (untilNull (bytes.drop n)).map fun split => (v.take n ++ split.1, split.2) := by
      rw [overwrite, length_padded, padded_of_le clean short, untilNull_append_of_clean]
      exact fun zero => clean (mem_of_mem_take zero)
    constructor
    · rintro ⟨bytes, isBlock, split, found, same⟩
      obtain ⟨old, isOld, rfl⟩ := map_eq_some_iff.mp isBlock
      obtain ⟨stale, hs, rfl⟩ := map_eq_some_iff.mp (untilEnd old ▸ found)
      exact .inr ⟨old, isOld, stale, hs, same⟩
    · rintro (long | ⟨old, isOld, stale, hs, same⟩)
      · exact absurd short (not_le.mpr long)
      · refine ⟨_, Option.mem_map_of_mem _ isOld, (v.take n ++ stale.1, stale.2), ?_, same⟩
        rw [untilEnd, mem_def.mp hs]
        rfl
  · obtain ⟨rest, hp⟩ := padded_of_lt clean (not_le.mp short)
    refine iff_of_true ?_ (.inl (not_le.mp short))
    cases block with
    | none => exact absurd (inside.trans (Nat.zero_le _)) short
    | some bytes =>
      refine ⟨_, rfl, (v, rest ++ bytes.drop (padded v n).length), ?_, rfl⟩
      rw [overwrite, hp, append_assoc]
      exact untilNull_append clean _

/-- Storing a value of the type, by the bytes that are copied for it. -/
theorem displays_iff_covers (valid : OfType type v) {copied : List Byte}
    (inside : copied.length ≤ (block.getD []).length)
    (exactly : copied = v ∧ n = v.length ∨
      (type = .string ∨ type = .cluster) ∧ copied = padded v n) :
    Displays json type n (block.map (overwrite copied)) v ↔ Covers json type n block v := by
  by_cases text : type = .string ∨ type = .cluster
  · have clean := valid.text text
    obtain rfl : copied = padded v n := by
      obtain ⟨rfl, rfl⟩ | ⟨-, same⟩ := exactly
      · rw [padded_of_le clean le_rfl, take_length]
      · exact same
    rw [length_padded] at inside
    obtain rfl | rfl := text
    · exact displays_string_iff_covers clean inside
    · exact displays_cluster_iff_covers clean inside
  · obtain ⟨rfl, rfl⟩ := exactly.resolve_right fun both => text both.1
    refine iff_of_true (displays_of_number_or_buffer valid text inside) ?_
    cases type with
    | string => exact (text (.inl rfl)).elim
    | cluster => exact (text (.inr rfl)).elim
    | boolean | int32 | int64 | double | byteArray | undefined => trivial

/-! ### Changing the size -/

/-- Without clearing, a larger block begins with the bytes of the old one. -/
theorem block_of_larger (hm : a.Measured) (larger : ¬ n ≤ a.bufSize) (small : n ≤ 4294967292)
    (garbage : List Byte) : ∃ rest, a.block n false garbage = some (a.allocated ++ rest) := by
  have enough : a.allocated.length ≤ aligned n :=
    hm.length_eq.le.trans ((Nat.le_of_not_le larger).trans (le_aligned small))
  rw [block, if_neg larger, append_assoc, take_append, take_of_length_le enough]
  exact ⟨_, rfl⟩

/-- A size that is rounded up beyond 32 bits leaves an empty block. -/
theorem block_of_large (larger : ¬ n ≤ a.bufSize) (large : ¬ n ≤ 4294967292)
    (hb : n < 4294967296) (clear : Bool) (garbage : List Byte) :
    a.block n clear garbage = some [] := by
  obtain ⟨bytes, isBlock, length⟩ := length_block larger
  rw [aligned_of_large (not_le.mp large) hb, length_eq_zero_iff] at length
  rw [isBlock, length]

variable {clear : Bool} {garbage : List Byte} {s t : Stored} {c : Call} {o : Operation}

theorem take_block_iff (hm : a.Measured) (hp : 0 < v.length)
    (shown : a.allocated.take v.length = v) (hb : n < 4294967296) :
    ((a.block n clear garbage).getD []).take v.length = v ↔
      n ≤ a.bufSize ∨ n ≤ 4294967292 ∧ (clear = true → v = replicate v.length 0) := by
  have inside : v.length ≤ a.allocated.length := by
    have length := congrArg List.length shown
    rw [length_take] at length
    omega
  by_cases fits : n ≤ a.bufSize
  · rw [block, if_pos fits]
    exact iff_of_true shown (.inl fits)
  by_cases small : n ≤ 4294967292
  · cases clear with
    | false =>
      obtain ⟨rest, larger⟩ := block_of_larger hm fits small garbage
      rw [larger, getD_some, take_append_of_le_length inside]
      exact iff_of_true shown (.inr ⟨small, fun isClear => absurd isClear Bool.false_ne_true⟩)
    | true =>
      have enough : v.length ≤ aligned n := by
        have := le_aligned small
        have := hm.length_eq
        omega
      rw [block, if_neg fits, if_pos rfl, getD_some, take_replicate, Nat.min_eq_left enough]
      simp [fits, small, eq_comm]
  · refine iff_of_false ?_ (by rintro (h | ⟨h, -⟩) <;> contradiction)
    intro kept
    rw [block_of_large fits small hb, getD_some, take_nil] at kept
    rw [← kept] at hp
    exact absurd hp (lt_irrefl 0)

theorem displays_cluster_iff_outlasts (hm : a.Measured)
    (shown : Displays json .cluster a.size a.valueBuffer v) (hb : n < 4294967296) :
    Displays json .cluster n (a.block n clear garbage) v ↔ Outlasts json .cluster a n clear v := by
  by_cases fits : n ≤ a.bufSize
  · rw [block, if_pos fits]
    exact iff_of_true shown (.inl fits)
  by_cases small : n ≤ 4294967292
  · cases clear with
    | false =>
      obtain ⟨bytes, isBlock, ⟨text, rest⟩, found, same⟩ := shown
      obtain ⟨more, larger⟩ := block_of_larger hm fits small garbage
      obtain ⟨rfl, clean⟩ := untilNull_eq_some.mp found
      have whole : a.allocated = text ++ 0 :: rest := by
        rw [allocated, mem_def.mp isBlock]
        rfl
      refine iff_of_true ⟨_, larger, (text, rest ++ more), ?_, same⟩
        (.inr ⟨small, fun isClear => absurd isClear Bool.false_ne_true⟩)
      rw [whole, append_assoc]
      exact untilNull_append clean _
    | true =>
      obtain ⟨m, ha⟩ : ∃ m, aligned n = m + 1 :=
        ⟨aligned n - 1, by have := le_aligned small; omega⟩
      have cleared : untilNull (replicate (aligned n) 0) = some ([], replicate m 0) := by
        rw [ha, replicate_succ]
        rw [untilNull, if_pos rfl]
      have zeros : a.block n true garbage = some (replicate (aligned n) 0) := by
        rw [block, if_neg fits, if_pos rfl]
      constructor
      · rintro ⟨bytes, isBlock, split, found, same⟩
        obtain rfl := Option.some.inj (zeros.symm.trans isBlock)
        obtain rfl := Option.some.inj (cleared.symm.trans found)
        exact .inr ⟨small, fun _ => same⟩
      · rintro (inside | ⟨-, same⟩)
        · exact absurd inside fits
        · exact ⟨_, zeros, _, cleared, same rfl⟩
  · refine iff_of_false ?_ (by rintro (h | ⟨h, -⟩) <;> contradiction)
    rintro ⟨bytes, isBlock, split, found, -⟩
    rw [block_of_large fits small hb] at isBlock
    cases isBlock
    cases found

/-- Strings and buffers: both readers go by the size. -/
theorem displays_sized_iff (sized : type = .string ∨ type = .byteArray)
    (hm : a.Measured) (shown : Displays json type a.size a.valueBuffer v) :
    Displays json type n (a.block n clear garbage) v ↔ n = a.size := by
  have length : v.length = a.size := by
    obtain rfl | rfl := sized <;> exact shown.1
  have whole : a.allocated.take a.size = v := by
    obtain rfl | rfl := sized
    · exact shown.2.1
    · exact shown.2
  constructor
  · intro kept
    rw [← length]
    obtain rfl | rfl := sized <;> exact kept.1.symm
  · rintro rfl
    have inside : a.size ≤ a.bufSize := by
      have hs := congrArg List.length whole
      rw [length_take, hm.length_eq] at hs
      omega
    rw [block, if_pos inside]
    exact shown

/-- Changing the size while a value is stored. -/
theorem displays_iff_outlasts (valid : OfType a.type v) (hm : a.Measured)
    (shown : Displays json a.type a.size a.valueBuffer v) (hb : n < 4294967296) :
    Displays json a.type n (a.block n clear garbage) v ↔ Outlasts json a.type a n clear v := by
  have number := valid.number
  cases type : a.type with
  | string => exact displays_sized_iff (.inl rfl) hm (type ▸ shown)
  | byteArray => exact displays_sized_iff (.inr rfl) hm (type ▸ shown)
  | cluster => exact displays_cluster_iff_outlasts hm (type ▸ shown) hb
  | undefined => exact (valid.known type).elim
  | boolean | int32 | int64 | double =>
    rw [type] at shown number
    refine take_block_iff hm ?_ shown hb
    rw [number _ rfl]
    decide

/-! ### One call -/

/-- What the state keeps: the block is as large as recorded, and both readers give the last
value. -/
structure Kept (json : Json Doc) (s : Stored) : Prop extends Measured s.value where
  intact : s.value.corrupted = false
  valid : ∀ v ∈ s.last, OfType s.value.type v
  displays : ∀ v ∈ s.last, Displays json s.value.type s.value.size s.value.valueBuffer v

theorem Kept.shows (kept : Kept json s) : s.Shows json := fun v isLast =>
  (shows_iff_displays (kept.valid v isLast)).mpr (kept.displays v isLast)

/-- Everything that a successful call does. -/
structure Outcome (s : Stored) (c : Call) (stored : Option (List Byte)) (t : Stored) : Prop extends
    Measured t.value where
  stores : c.operation.store s.value.type = some stored
  last_eq : t.last = stored.or s.last
  intact : t.value.corrupted = false
  type_eq : t.value.type = s.value.type
  size_eq : t.value.size = s.value.newSize c
  inside : (c.operation.copied (s.value.newSize c)).length ≤ ((s.value.newBlock c).getD []).length
  bounded : ((s.value.newBlock c).getD []).length ≤ 4294967292
  valueBuffer_eq : t.value.valueBuffer =
    (s.value.newBlock c).map (overwrite (c.operation.copied (s.value.newSize c)))

theorem step_outcome (kept : Kept json s) (taken : s.step c = some t) :
    ∃ stored, Outcome s c stored t := by
  obtain ⟨stored, stores, taken⟩ := bind_eq_some_iff.mp taken
  have hg := c.operation.snd_perform s.value c.realloc fun json hd => by
    rw [hd] at stores
    cases stores
  have shape := c.operation.perform_eq s.value c.realloc
  split at taken
  case h_2 => cases taken
  next b performed =>
    rw [performed] at hg shape
    have hr := resize_granted kept.toMeasured hg.symm
    obtain ⟨intact, same⟩ := ite_none_left_eq_some.mp taken
    cases same
    rw [if_pos hg.symm, hr.size_eq] at shape
    generalize (s.value.resize c.realloc c.operation).1 = r at hr shape
    have inside : (c.operation.copied (s.value.newSize c)).length ≤ r.allocated.length := by
      by_contra ho
      rw [copy, if_neg ho] at shape
      exact intact (congrArg corrupted shape)
    rw [copy, if_pos inside] at shape
    obtain rfl : b = _ := shape
    have hb : r.allocated.length ≤ 4294967292 := hr.length_eq.le.trans hr.small
    have block := hr.valueBuffer_eq
    refine ⟨stored, ⟨?_, hr.small⟩, stores, rfl, eq_false_of_ne_true intact, hr.type_eq,
      hr.size_eq, ?_, ?_, congrArg (Option.map _) block⟩
    · rw [← hr.length_eq]
      exact length_map_overwrite inside
    · exact block ▸ inside
    · exact block ▸ hb

/-- Only `setNewSize` stores nothing. -/
theorem setNewSize_of_store (stores : o.store type = some none) :
    ∃ n clear, o = .setNewSize n clear := by
  cases o with
  | setNewSize n clear => exact ⟨n, clear, rfl⟩
  | setValue val | setValueOfVariant val | setStringValue val enlarge =>
    cases (ite_none_right_eq_some.mp stores).2
  | setValueOfWrapper json => cases stores

/-- How a value of the type comes to the block. -/
theorem copied_of_store (stores : o.store type = some (some v)) (n : ℕ) :
    OfType type v ∧
      (o.copied n = v ∧ o.requested = some (v.length % 4294967296) ∨
        (type = .string ∨ type = .cluster) ∧ o.copied n = padded v n) := by
  cases o with
  | setNewSize n clear | setValueOfWrapper json => cases stores
  | setValue val =>
    obtain ⟨valid, same⟩ := ite_none_right_eq_some.mp stores
    obtain rfl := Option.some.inj (Option.some.inj same)
    exact ⟨valid, .inl ⟨rfl, congrArg some (Nat.mod_eq_of_lt val.2).symm⟩⟩
  | setValueOfVariant val =>
    obtain ⟨⟨rfl, valid⟩, same⟩ := ite_none_right_eq_some.mp stores
    obtain rfl := Option.some.inj (Option.some.inj same)
    exact ⟨valid, .inl ⟨if_neg valid.known, if_neg valid.known⟩⟩
  | setStringValue val enlarge =>
    obtain ⟨⟨text, valid⟩, same⟩ := ite_none_right_eq_some.mp stores
    obtain rfl := Option.some.inj (Option.some.inj same)
    exact ⟨valid, .inr ⟨text, rfl⟩⟩

/-- **One call.** The last value is one of the type, and both readers give it exactly when the call
meets the condition. -/
theorem Outcome.displays_iff {stored : Option (List Byte)}
    (kept : Kept json s) (ho : Outcome s c stored t) :
    (∀ v ∈ t.last, OfType t.value.type v) ∧
      ((∀ v ∈ t.last, Displays json t.value.type t.value.size t.value.valueBuffer v) ↔
        Faithful json s c) := by
  rw [Faithful, ho.stores, ho.last_eq, ho.type_eq, ho.size_eq, ho.valueBuffer_eq]
  have hs := ho.stores
  have inside := ho.inside
  cases stored with
  | some v =>
    obtain ⟨hv, exactly⟩ := copied_of_store hs (s.value.newSize c)
    simp only [some_or, mem_some_iff, forall_eq']
    refine ⟨hv, displays_iff_covers hv inside ?_⟩
    refine exactly.imp_left ?_
    rintro ⟨copied, requested⟩
    refine ⟨copied, ?_⟩
    -- A value that has been copied is shorter than four gigabytes.
    have hb := ho.bounded
    rw [copied] at inside
    rw [newSize, requested, getD_some, Nat.mod_eq_of_lt (by omega)]
  | none =>
    obtain ⟨n, clear, operation⟩ := setNewSize_of_store hs
    have size : s.value.newSize c = n.toNat := by
      rw [newSize, operation]
      rfl
    have block : (s.value.newBlock c).map (overwrite (c.operation.copied (s.value.newSize c))) =
        s.value.block n.toNat clear (c.realloc.getD []) := by
      rw [newBlock, operation]
      exact congrFun Option.map_id _
    rw [block]
    refine ⟨kept.valid, forall₂_congr fun v isLast => ?_⟩
    rw [size, operation]
    exact displays_iff_outlasts (kept.valid v isLast) kept.toMeasured (kept.displays v isLast)
      n.toNat_lt

theorem step_kept (kept : Kept json s) (hf : Faithful json s c)
    (taken : s.step c = some t) : Kept json t := by
  obtain ⟨stored, ho⟩ := step_outcome kept taken
  obtain ⟨valid, displays⟩ := ho.displays_iff kept
  exact ⟨ho.toMeasured, ho.intact, valid, displays.mpr hf⟩

theorem faithful_of_shows (kept : Kept json s)
    (taken : s.step c = some t) (shows' : t.Shows json) : Faithful json s c := by
  obtain ⟨stored, ho⟩ := step_outcome kept taken
  obtain ⟨valid, displays⟩ := ho.displays_iff kept
  exact displays.mp fun v isLast => (shows_iff_displays (valid v isLast)).mp (shows' v isLast)

end Readers

/-! ### Runs -/

theorem shows_iff_faithful {Doc : Type*} (json : Json Doc) (type : DataType) (n : UInt32)
    (realloc : Realloc) {a : AttributeValue} {t : Stored} {calls : List Call}
    (new : construct type n.toNat realloc = some a)
    (run : execute Stored.step ⟨a, none⟩ calls = some t) :
    Admissible Stored.step (Faithful json) ⟨a, none⟩ calls ↔
      ∀ k r, execute Stored.step ⟨a, none⟩ (calls.take k) = some r → r.Shows json := by
  have fresh : Kept json ⟨a, none⟩ :=
    ⟨measured_of_construct new, (construct_cases new).2.2.2.1, nofun, nofun⟩
  exact admissible_iff_forall_reached step_kept Kept.shows faithful_of_shows fresh run

/-- A string, a shorter one, and another one of the same length, all in front of the zero byte with
which the block ends. -/
def faithfulCalls : List Call :=
  [⟨.setValueOfVariant (.ofString [97, 98, 99]), none⟩,
    ⟨.setValueOfVariant (.ofString [97, 98]), none⟩,
    ⟨.setStringValue [98, 97] false, none⟩, ⟨.setNewSize 2 true, none⟩]

theorem shows_iff_faithful_string :
    ∃ a t, construct .string (3 : UInt32).toNat (some []) = some a ∧
      execute Stored.step ⟨a, none⟩ faithfulCalls = some t ∧
      ∀ k r, execute Stored.step ⟨a, none⟩ (faithfulCalls.take k) = some r →
        r.Shows (⟨(), fun _ => none⟩ : Json Unit) :=
  ⟨_, _, rfl, rfl, (shows_iff_faithful _ .string 3 (some []) rfl rfl).mp (by decide)⟩

/-- A string attribute of three characters is set to a string of two. One of the readers gives
the string, the other one the two zero bytes behind it as well. -/
theorem padding_shown :
    ∃ a t, construct .string (3 : UInt32).toNat (some []) = some a ∧
      execute Stored.step ⟨a, none⟩ [⟨.setStringValue [97, 98] false, none⟩] = some t ∧
      t.last = some [97, 98] ∧
      t.value.writeToCDataWrapper (⟨(), fun _ => none⟩ : Json Unit) = some (.bytes [97, 98]) ∧
      t.value.getAsVariant (⟨(), fun _ => none⟩ : Json Unit) = some (.bytes [97, 98, 0, 0]) :=
  ⟨_, _, rfl, rfl, rfl, rfl, rfl⟩

end ChaosFramework.Data
