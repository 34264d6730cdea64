import Mathlib.Data.List.TakeWhile
import ChaosFramework.Bytes

/-!
# The value of an attribute

An `AttributeValue` keeps the current value of one attribute of a dataset in a block of memory that
is reused from value to value. The block (`value_buffer`), its size (`buf_size`) and the size of the
value (`size`) are three fields. The setters take values of any type: the check of the type is
commented out in the source.

The memory is modelled by its bytes. `realloc` is an argument of each call: it fails, or it hands
out a block whose new bytes hold anything. A reader that looks outside of the block answers `none`,
and a copy that runs behind the block is remembered in the flag `corrupted`. Numbers are their
bytes. The parser of JSON texts is a parameter. Every call resizes the block and then copies bytes
to its start (`Operation.perform_eq`).
-/

namespace ChaosFramework.Data

open Bytes List Option

inductive DataType
  | boolean
  | int32
  | int64
  | double
  | string
  | byteArray
  | cluster
  | undefined
  deriving DecidableEq, Repr

/-- The size of a number of this type. -/
def DataType.width : DataType → Option ℕ
  | boolean => some 1
  | int32 => some 4
  | int64 => some 8
  | double => some 8
  | string => none
  | byteArray => none
  | cluster => none
  | undefined => none

/-- A variant: its type, and the bytes of the number, of the string that `asString` gives, or of the
buffer. -/
structure CDataVariant where
  type : DataType
  bytes : List Byte
  sized : ∀ width ∈ type.width, bytes.length = width

def CDataVariant.ofString (text : List Byte) : CDataVariant := ⟨.string, text, nofun⟩

structure AttributeValue where
  type : DataType
  size : ℕ
  bufSize : ℕ
  /-- The bytes that are allocated, or a null pointer. -/
  valueBuffer : Option (List Byte)
  /-- Whether a copy has run behind the block. -/
  corrupted : Bool
  deriving DecidableEq, Repr

/-- The answer of `realloc`: a null pointer, or a block, with what the bytes hold that it adds. -/
abbrev Realloc := Option (List Byte)

namespace AttributeValue

/-- The bytes at `value_buffer`. -/
def allocated (a : AttributeValue) : List Byte := a.valueBuffer.getD []

/-- A size rounded up to a multiple of four, in 32 bits. -/
def aligned (n : ℕ) : ℕ := (n + if n % 4 = 0 then 0 else 4 - n % 4) % 4294967296

/-- The block after a successful `setNewSize`. -/
def block (a : AttributeValue) (n : ℕ) (clear : Bool) (garbage : List Byte) :
    Option (List Byte) :=
  if n ≤ a.bufSize then a.valueBuffer
  else if clear then some (List.replicate (aligned n) 0)
  else some ((a.allocated ++ garbage ++ List.replicate (aligned n) 0).take (aligned n))

/-- The fields are set before `realloc` is tried, and its null pointer replaces the old one. -/
def setNewSize (a : AttributeValue) (n : ℕ) (clear : Bool) (realloc : Realloc) :
    AttributeValue × Bool :=
  if n ≤ a.bufSize then ({ a with size := n }, true)
  else
    match realloc with
    | some garbage =>
        ({ a with size := n, bufSize := aligned n, valueBuffer := a.block n clear garbage }, true)
    | none => ({ a with size := n, bufSize := aligned n, valueBuffer := none }, false)

def grow (a : AttributeValue) (n : ℕ) (realloc : Realloc) : AttributeValue × Bool :=
  a.setNewSize n false realloc

/-- The constructor. It asserts that the memory is there, so that there is no object without. -/
def construct (type : DataType) (size : ℕ) (realloc : Realloc) : Option AttributeValue :=
  let n := if type = .string then (size + 1) % 4294967296 else size
  let fresh : AttributeValue :=
    { type, size := n, bufSize := 0, valueBuffer := none, corrupted := false }
  if n = 0 then some fresh
  else
    match fresh.setNewSize n true realloc with
    | (a, true) => some a
    | (_, false) => none

/-- Bytes in front of what is left of a block. -/
def overwrite (bytes block : List Byte) : List Byte := bytes ++ block.drop bytes.length

/-- `memcpy`, `memset` or `strncpy` to the start of the block. -/
def copy (a : AttributeValue) (bytes : List Byte) : AttributeValue :=
  if bytes.length ≤ a.allocated.length then
    { a with valueBuffer := a.valueBuffer.map (overwrite bytes) }
  else { a with corrupted := true }

/-- `setValue` of a piece of memory. -/
def setValue (a : AttributeValue) (value : List Byte) (realloc : Realloc) :
    AttributeValue × Bool :=
  match a.grow value.length realloc with
  | (b, false) => (b, false)
  | (b, true) => if value.length = 0 then (b, true) else (b.copy value, true)

/-- `setValue` of a variant. The size of a string or of a buffer is cut to 32 bits for `grow`, and
is not for `memcpy`. -/
def setValueOfVariant (a : AttributeValue) (value : CDataVariant) (realloc : Realloc) :
    AttributeValue × Bool :=
  if value.type = .undefined then (a, true)
  else
    match a.grow (value.bytes.length % 4294967296) realloc with
    | (b, false) => (b, false)
    | (b, true) => (b.copy value.bytes, true)

/-- What `strncpy` copies to `n` bytes: the string up to its first zero byte, filled up with zero
bytes. For the empty string these are the bytes that `memset` writes. -/
def padded (value : List Byte) (n : ℕ) : List Byte :=
  (value.takeWhile (· ≠ 0) ++ List.replicate n 0).take n

def setStringValue (a : AttributeValue) (value : List Byte) (enlarge : Bool)
    (realloc : Realloc) : AttributeValue × Bool :=
  if enlarge then
    match a.grow ((value.length % 4294967296 + 1) % 4294967296) realloc with
    | (b, false) => (b, false)
    | (b, true) => (b.copy (padded value b.size), true)
  else (a.copy (padded value a.size), true)

/-- `setValue` of a document, by its text. The result of `setStringValue` is not looked at. -/
def setValueOfWrapper (a : AttributeValue) (json : List Byte) (realloc : Realloc) :
    AttributeValue × Bool :=
  ((a.setStringValue json true realloc).1, true)

end AttributeValue

/-! ### The readers -/

/-- The parser of JSON texts, with the document of an empty wrapper. -/
structure Json (Doc : Type*) where
  empty : Doc
  parse : List Byte → Option Doc

/-- What a reader gives. -/
inductive Datum (Doc : Type*)
  | bytes (bytes : List Byte)
  | document (doc : Doc)
  /-- The text of a document is not one, which is an exception. -/
  | thrown
  /-- The type has no value. -/
  | nothing
  deriving DecidableEq, Repr

/-- `CDataWrapper::setSerializedJsonData` on an empty wrapper. -/
def Json.setSerializedJsonData {Doc : Type*} (json : Json Doc) (text : List Byte) : Datum Doc :=
  if text = [] then .document json.empty
  else
    match json.parse text with
    | some doc => .document doc
    | none => .thrown

namespace AttributeValue

variable {Doc : Type*} (json : Json Doc)

/-- The first bytes of the block. -/
def read (a : AttributeValue) (n : ℕ) : Option (List Byte) :=
  if n ≤ a.allocated.length then some (a.allocated.take n) else none

/-- The string at the start of the block, as `strlen` finds it. -/
def cString (a : AttributeValue) : Option (List Byte) := (untilNull a.allocated).map Prod.fst

/-- The number behind `getValuePtr`. -/
def getValuePtr (a : AttributeValue) (width : ℕ) : Option (List Byte) := a.read width

/-- What is added to the wrapper under the name of the attribute. -/
def writeToCDataWrapper (a : AttributeValue) : Option (Datum Doc) :=
  match a.type with
  | .byteArray => (a.read a.size).map .bytes
  | .cluster =>
      match a.valueBuffer with
      | none => some (.document json.empty)
      | some _ => (a.read 1).bind fun first =>
          if first = [0] then some (.document json.empty)
          else a.cString.map json.setSerializedJsonData
  | .string =>
      match a.valueBuffer with
      | none => some (.bytes [])
      | some _ => a.cString.map fun string => .bytes (string.take a.size)
  | .boolean => (a.getValuePtr 1).map .bytes
  | .double => (a.getValuePtr 8).map .bytes
  | .int32 => (a.getValuePtr 4).map .bytes
  | .int64 => (a.getValuePtr 8).map .bytes
  | .undefined => some .nothing

/-- The bytes that `toString` prints. For a buffer or an unknown type it prints a fixed text. -/
def toString (a : AttributeValue) : Option (List Byte) :=
  match a.type with
  | .byteArray => some []
  | .cluster => a.read a.size
  | .string => a.read a.size
  | .boolean => a.getValuePtr 1
  | .double => a.getValuePtr 8
  | .int32 => a.getValuePtr 4
  | .int64 => a.getValuePtr 8
  | .undefined => some []

/-- The constructor of `CDataVariant` over the block. -/
def getAsVariant (a : AttributeValue) : Option (Datum Doc) :=
  match a.type with
  | .boolean => (a.read 1).map .bytes
  | .int32 => (a.read 4).map .bytes
  | .int64 => (a.read 8).map .bytes
  | .double => (a.read 8).map .bytes
  | .cluster => a.cString.map json.setSerializedJsonData
  | .string => (a.read a.size).map .bytes
  | .byteArray => (a.read a.size).map .bytes
  | .undefined => some .nothing

end AttributeValue

/-! ### The calls -/

inductive Operation
  | setNewSize (n : UInt32) (clear : Bool)
  | setValue (value : { bytes : List Byte // bytes.length < 4294967296 })
  | setValueOfVariant (value : CDataVariant)
  | setStringValue (value : List Byte) (enlarge : Bool)
  | setValueOfWrapper (json : List Byte)

namespace Operation

def perform (a : AttributeValue) (realloc : Realloc) : Operation → AttributeValue × Bool
  | setNewSize n clear => a.setNewSize n.toNat clear realloc
  | setValue value => a.setValue value.1 realloc
  | setValueOfVariant value => a.setValueOfVariant value realloc
  | setStringValue value enlarge => a.setStringValue value enlarge realloc
  | setValueOfWrapper json => a.setValueOfWrapper json realloc

/-- The size that an operation asks for, if it changes the size. -/
def requested : Operation → Option ℕ
  | setNewSize n _ => some n.toNat
  | setValue value => some value.1.length
  | setValueOfVariant value =>
      if value.type = .undefined then none else some (value.bytes.length % 4294967296)
  | setStringValue value enlarge =>
      if enlarge then some ((value.length % 4294967296 + 1) % 4294967296) else none
  | setValueOfWrapper json => some ((json.length % 4294967296 + 1) % 4294967296)

def clears : Operation → Bool
  | setNewSize _ clear => clear
  | _ => false

/-- What an operation copies to the block when the value has size `n`. -/
def copied (n : ℕ) : Operation → List Byte
  | setNewSize _ _ => []
  | setValue value => value.1
  | setValueOfVariant value => if value.type = .undefined then [] else value.bytes
  | setStringValue value _ => AttributeValue.padded value n
  | setValueOfWrapper json => AttributeValue.padded json n

end Operation

namespace AttributeValue

@[simp] theorem copy_size (a : AttributeValue) (bytes : List Byte) :
    (a.copy bytes).size = a.size := by
  unfold copy
  split <;> rfl

@[simp] theorem copy_bufSize (a : AttributeValue) (bytes : List Byte) :
    (a.copy bytes).bufSize = a.bufSize := by
  unfold copy
  split <;> rfl

@[simp] theorem copy_nil (a : AttributeValue) : a.copy [] = a := by
  have same : (overwrite []) = id := rfl
  simp [copy, same]

theorem length_map_overwrite {bytes : List Byte} {block : Option (List Byte)}
    (fits : bytes.length ≤ (block.getD []).length) :
    ((block.map (overwrite bytes)).getD []).length = (block.getD []).length := by
  cases block with
  | none => rfl
  | some block =>
    rw [map_some, getD_some, overwrite, length_append, length_drop]
    exact Nat.add_sub_of_le fits

theorem length_padded (val : List Byte) (n : ℕ) : (padded val n).length = n := by
  rw [padded, length_take, length_append, length_replicate]
  omega

/-- A call, with the answer of `realloc` in case that it is asked. -/
structure Call where
  operation : Operation
  realloc : Realloc

/-- The size of the value after the call. -/
def newSize (a : AttributeValue) (c : Call) : ℕ := c.operation.requested.getD a.size

/-- The block to which the call copies. -/
def newBlock (a : AttributeValue) (c : Call) : Option (List Byte) :=
  match c.operation.requested with
  | none => a.valueBuffer
  | some n => a.block n c.operation.clears (c.realloc.getD [])

/-- The resize that an operation begins with. -/
def resize (a : AttributeValue) (realloc : Realloc) (o : Operation) : AttributeValue × Bool :=
  match o.requested with
  | none => (a, true)
  | some n => a.setNewSize n o.clears realloc

theorem aligned_le (n : ℕ) : aligned n ≤ 4294967292 := by
  unfold aligned
  split <;> omega

variable {a : AttributeValue}

theorem length_block {n : ℕ} {clear : Bool} {garbage : List Byte} (larger : ¬ n ≤ a.bufSize) :
    ∃ bytes, a.block n clear garbage = some bytes ∧ bytes.length = aligned n := by
  unfold block
  rw [if_neg larger]
  cases clear with
  | true => exact ⟨_, rfl, length_replicate⟩
  | false =>
    refine ⟨_, rfl, ?_⟩
    rw [length_take, length_append, length_replicate]
    omega

/-- The block is exactly as large as recorded, in 32 bits. -/
structure Measured (a : AttributeValue) : Prop where
  length_eq : a.allocated.length = a.bufSize
  small : a.bufSize ≤ 4294967292

/-- What a resize leaves that has succeeded. -/
structure Resized (a : AttributeValue) (c : Call) (b : AttributeValue) : Prop extends
    Measured b where
  size_eq : b.size = a.newSize c
  valueBuffer_eq : b.valueBuffer = a.newBlock c
  type_eq : b.type = a.type
  corrupted_eq : b.corrupted = a.corrupted

theorem resize_granted {c : Call} (hm : a.Measured)
    (hg : (a.resize c.realloc c.operation).2 = true) :
    Resized a c (a.resize c.realloc c.operation).1 := by
  have hs := newSize.eq_def a c
  have block_eq := newBlock.eq_def a c
  unfold resize at hg ⊢
  cases asked : c.operation.requested with
  | none =>
    rw [asked] at hs block_eq
    exact ⟨hm, hs.symm, block_eq.symm, rfl, rfl⟩
  | some n =>
    simp only [asked] at hs block_eq hg ⊢
    unfold setNewSize at hg ⊢
    by_cases fits : n ≤ a.bufSize
    · rw [block, if_pos fits] at block_eq
      rw [if_pos fits]
      exact ⟨⟨hm.length_eq, hm.small⟩, hs.symm, block_eq.symm, rfl, rfl⟩
    · rw [if_neg fits] at hg ⊢
      cases answer : c.realloc with
      | none =>
        rw [answer] at hg
        cases hg
      | some garbage =>
        rw [answer] at block_eq
        obtain ⟨bytes, hb, length⟩ := length_block fits
        refine ⟨⟨?_, aligned_le n⟩, hs.symm, block_eq.symm, rfl, rfl⟩
        change (Option.getD (a.block n _ garbage) []).length = aligned n
        rw [hb]
        exact length

variable (resized : AttributeValue × Bool) (next : AttributeValue → AttributeValue)

include resized next

/-- What a setter leaves that goes on only when the resize has succeeded. -/
theorem fst_of_resized :
    (match resized with
      | (b, false) => (b, false)
      | (b, true) => (next b, true)).1 = if resized.2 then next resized.1 else resized.1 := by
  rcases resized with ⟨b, _ | _⟩ <;> rfl

theorem snd_of_resized :
    (match resized with
      | (b, false) => (b, false)
      | (b, true) => (next b, true)).2 = resized.2 := by
  rcases resized with ⟨b, _ | _⟩ <;> rfl

end AttributeValue

open AttributeValue in
/-- **Shape of the setters.** A call resizes the block, and if this succeeds it copies bytes to the
start of it. -/
theorem Operation.perform_eq (a : AttributeValue) (realloc : Realloc) (o : Operation) :
    (o.perform a realloc).1 =
      if (a.resize realloc o).2 then
        (a.resize realloc o).1.copy (o.copied (a.resize realloc o).1.size)
      else (a.resize realloc o).1 := by
  cases o with
  | setNewSize n clear =>
    simp only [perform, resize, requested, clears, copied, copy_nil, ite_self]
  | setValue val =>
    obtain ⟨val, small⟩ := val
    cases val with
    | nil =>
      simp only [copied, copy_nil]
      exact fst_of_resized (a.setNewSize 0 false realloc) id
    | cons byte val =>
      exact fst_of_resized (a.setNewSize (byte :: val).length false realloc)
        fun b => b.copy (byte :: val)
  | setValueOfVariant val =>
    by_cases none : val.type = .undefined
    · simp [perform, resize, requested, copied, AttributeValue.setValueOfVariant, none]
    · simp only [perform, resize, requested, clears, copied, AttributeValue.setValueOfVariant, none,
        if_false]
      exact fst_of_resized _ fun b => b.copy val.bytes
  | setStringValue val enlarge =>
    cases enlarge with
    | false => rfl
    | true => exact fst_of_resized _ fun b => b.copy (padded val b.size)
  | setValueOfWrapper json => exact fst_of_resized _ fun b => b.copy (padded json b.size)

open AttributeValue in
/-- A call succeeds when its resize does, except for that of a document, which always does. -/
theorem Operation.snd_perform (a : AttributeValue) (realloc : Realloc) {o : Operation}
    (other : ∀ json, o ≠ .setValueOfWrapper json) :
    (o.perform a realloc).2 = (a.resize realloc o).2 := by
  cases o with
  | setNewSize n clear => rfl
  | setValue val =>
    obtain ⟨val, small⟩ := val
    cases val with
    | nil => exact snd_of_resized (a.setNewSize 0 false realloc) id
    | cons byte val =>
      exact snd_of_resized (a.setNewSize (byte :: val).length false realloc)
        fun b => b.copy (byte :: val)
  | setValueOfVariant val =>
    by_cases none : val.type = .undefined
    · simp [perform, resize, requested, AttributeValue.setValueOfVariant, none]
    · simp only [perform, resize, requested, clears, AttributeValue.setValueOfVariant, none,
        if_false]
      exact snd_of_resized _ fun b => b.copy val.bytes
  | setStringValue val enlarge =>
    cases enlarge with
    | false => rfl
    | true => exact snd_of_resized _ fun b => b.copy (padded val b.size)
  | setValueOfWrapper json => exact (other json rfl).elim

end ChaosFramework.Data
