import ChaosFramework.DirectIO.DataBuffer
import Mathlib.Algebra.BigOperators.Group.List.Basic

/-!
# Documents in a buffer

A `CDataWrapper` is made from memory: the first four bytes give its length. That makes
documents that stand behind each other in a buffer self-delimiting. The constructor gets no other
length, so it has no result here where the document does not end inside the buffer.
-/

namespace ChaosFramework.DirectIO

open Bytes DataBuffer List Option

/-- A `bson` document. -/
@[ext]
structure Document where
  bytes : List Byte
  minimal : 5 ≤ bytes.length
  small : bytes.length < 2147483648
  delimited : ofBytes (bytes.take 4) = bytes.length
  terminated : bytes.getLast? = some 0
  deriving DecidableEq, Repr

namespace Document

/-- `getBSONRawSize`. -/
def size (document : Document) : ℕ := document.bytes.length

/-- A document without elements. -/
def empty : Document := ⟨[5, 0, 0, 0, 0], by decide, by decide, by decide, by decide⟩

theorem size_pos (doc : Document) : 0 < doc.size :=
  Nat.lt_of_lt_of_le (by decide) doc.minimal

end Document

/-- `CDataWrapper(const char*)`, from memory of which the given bytes can be read. -/
def parseDocument (memory : List Byte) : Option Document :=
  if valid : 5 ≤ ofBytes (memory.take 4) ∧ ofBytes (memory.take 4) < 2147483648 ∧
      ofBytes (memory.take 4) ≤ memory.length ∧
      (memory.take (ofBytes (memory.take 4))).getLast? = some 0 then
    have length : (memory.take (ofBytes (memory.take 4))).length = ofBytes (memory.take 4) := by
      rw [List.length_take, Nat.min_eq_left valid.2.2.1]
    some
      { bytes := memory.take (ofBytes (memory.take 4))
        minimal := by rw [length]; exact valid.1
        small := by rw [length]; exact valid.2.1
        delimited := by rw [length, List.take_take, Nat.min_eq_left (by omega)]
        terminated := valid.2.2.2 }
  else none

/-- The documents behind each other. -/
def concatenated (documents : List Document) : List Byte := documents.flatMap Document.bytes

/-- The number of their bytes. -/
def totalSize (documents : List Document) : ℕ := (documents.map Document.size).sum

/-- Documents are read at a pointer that is advanced by the size of each. -/
def readDocuments : ℕ → List Byte → Option (List Document)
  | 0, _ => some []
  | n + 1, memory =>
      (parseDocument memory).bind fun document =>
        (readDocuments n (memory.drop document.size)).map (document :: ·)

/-- `readCDataWrapperAsShrdPtr`. -/
def readCDataWrapper : BufferM Document := fun b =>
  (parseDocument b.rest).map fun document => (document, b.skip document.size document.size)

def readCDataWrappers : ℕ → BufferM (List Document) := readMany readCDataWrapper

/-! ### Parsing -/

@[simp] theorem length_concatenated (docs : List Document) :
    (concatenated docs).length = totalSize docs := by
  simp only [concatenated, length_flatMap]
  rfl

@[simp] theorem concatenated_cons (doc : Document) (docs : List Document) :
    concatenated (doc :: docs) = doc.bytes ++ concatenated docs :=
  flatMap_cons ..

@[simp] theorem totalSize_cons (doc : Document) (docs : List Document) :
    totalSize (doc :: docs) = doc.size + totalSize docs := by
  rw [totalSize, map_cons, sum_cons, totalSize]

theorem length_le_totalSize (docs : List Document) : docs.length ≤ totalSize docs := by
  induction docs with
  | nil => exact Nat.zero_le _
  | cons doc docs ih =>
    have hp := doc.size_pos
    rw [length_cons, totalSize_cons]
    omega

/-- A document at the start of the memory is found if the memory reaches to its end. -/
theorem parseDocument_take (doc : Document) (tail : List Byte) (avail : ℕ) :
    parseDocument ((doc.bytes ++ tail).take avail) =
      if doc.size ≤ avail then some doc else none := by
  have long := doc.minimal
  split
  next whole =>
    rw [Document.size] at whole
    have size : ofBytes (((doc.bytes ++ tail).take avail).take 4) =
        doc.bytes.length := by
      rw [take_take, Nat.min_eq_left (by omega), take_append_of_le_length (by omega), doc.delimited]
    have bytes : ((doc.bytes ++ tail).take avail).take doc.bytes.length =
        doc.bytes := by
      rw [take_take, Nat.min_eq_left whole, take_left]
    rw [parseDocument, dif_pos]
    · refine congrArg some (Document.ext ?_)
      rw [← size] at bytes
      exact bytes
    · rw [size, bytes, length_take, length_append]
      exact ⟨long, doc.small, by omega, doc.terminated⟩
  next partly =>
    rw [Document.size] at partly
    rw [parseDocument, dif_neg]
    rintro ⟨minimal, -, hi, -⟩
    rw [length_take] at hi
    -- four bytes are there, so the length is the one of the document
    have four : 4 ≤ avail := by omega
    rw [take_take, Nat.min_eq_left four, take_append_of_le_length (by omega), doc.delimited] at hi
    omega

theorem parseDocument_nil : parseDocument [] = none := rfl

theorem parseDocument_concatenated (doc : Document) (docs : List Document) :
    parseDocument (concatenated (doc :: docs)) = some doc := by
  have parsed := parseDocument_take doc (concatenated docs) (doc.bytes ++ concatenated docs).length
  rwa [take_length, ← concatenated_cons, length_concatenated, totalSize_cons,
    if_pos (Nat.le_add_right ..)] at parsed

theorem readDocuments_take (n : ℕ) (docs : List Document) (avail : ℕ) :
    readDocuments n ((concatenated docs).take avail) =
      if n ≤ docs.length ∧ totalSize (docs.take n) ≤ avail then
        some (docs.take n)
      else none := by
  induction n generalizing docs avail with
  | zero => simp [readDocuments, totalSize]
  | succ n ih =>
    rw [readDocuments]
    cases docs with
    | nil => simp [concatenated, parseDocument_nil]
    | cons doc docs =>
      rw [concatenated_cons, parseDocument_take]
      by_cases whole : doc.size ≤ avail
      · rw [if_pos whole, bind_some, drop_take, Document.size, drop_left, ih,
          take_succ_cons, totalSize_cons, length_cons, Document.size]
        rw [Document.size] at whole
        split
        next fits => rw [map_some, if_pos (by omega)]
        next not => rw [map_none, if_neg (by omega)]
      · rw [if_neg whole, bind_none, if_neg]
        rw [take_succ_cons, totalSize_cons]
        omega

theorem readDocuments_concatenated (docs : List Document) :
    readDocuments docs.length (concatenated docs) = some docs := by
  have read := readDocuments_take docs.length docs (totalSize docs)
  rwa [← length_concatenated, take_length, take_length, length_concatenated,
    if_pos ⟨le_rfl, le_rfl⟩] at read

theorem delimited_readCDataWrapper : Delimited readCDataWrapper Document.bytes fun _ => True where
  complete {b doc tail avail} _ _ hs fits := by
    change doc.size ≤ avail at fits
    refine ⟨doc.size, ?_⟩
    rw [readCDataWrapper, hs, parseDocument_take, if_pos fits]
    rfl
  incomplete {b doc tail avail} _ _ hs short := by
    rw [readCDataWrapper, hs, parseDocument_take, Document.size, if_neg (by omega), map_none]
  exhausted {b} none := by
    rw [readCDataWrapper, none, parseDocument_nil, map_none]

end ChaosFramework.DirectIO
