import ChaosFramework.DirectIO.QueryAnswers
import ChaosFramework.SortedList
import Mathlib.Data.Finset.Insert
import Mathlib.Data.Prod.Lex

/-!
# The object storage

`MongoDBObjectStorageDataAccess` keeps the datasets in a collection, a list here in the order of
insertion. An element has the key, a date, the run and the sequence number and the tags next to the
dataset itself. `find` returns the matching elements sorted and limited as it is asked to. The
queries read the run and the sequence number from the elements, but `findObject` reads those of the
last element from the dataset.
-/

namespace ChaosFramework.ObjectStorage

open Bytes DirectIO SortedList List Option

/-! ### Datasets -/

/-- The names that are looked up in a dataset. -/
inductive Field
  | deviceId | timestamp | runId | seqId | other
  deriving DecidableEq, Repr

/-- The values of a `bson` element. A double is given by the `int64_t` that it is converted to. -/
inductive Value
  | int64 (number : BitVec 64)
  | dateTime (milliseconds : BitVec 64)
  | int32 (number : BitVec 32)
  | double (converted : BitVec 64)
  | boolean (value : Bool)
  | other
  deriving DecidableEq, Repr

structure Element where
  field : Field
  /-- The name is spelled as the constant is, and not only up to the case of its letters. -/
  exact : Bool
  value : Value
  deriving DecidableEq, Repr

/-- A dataset, with the elements that the `bson` library finds in its document. -/
structure DataObject where
  document : Document
  elements : List Element
  deriving DecidableEq, Repr

namespace DataObject

def empty : DataObject := ⟨.empty, []⟩

def hasKey (object : DataObject) (field : Field) : Bool :=
  object.elements.any fun element => element.field = field ∧ element.exact

/-- The lookup of `CDataWrapper`, which ignores the case. -/
def findCase (object : DataObject) (field : Field) : Option Value :=
  (object.elements.find? fun element => element.field = field).map Element.value

/-- The lookup of `bsoncxx`. -/
def find (object : DataObject) (field : Field) : Option Value :=
  (object.elements.find? fun element => element.field = field ∧ element.exact).map Element.value

/-- `getInt64Value`. No result is an exception. -/
def getInt64Value (object : DataObject) (field : Field) : Option (BitVec 64) :=
  match object.findCase field with
  | some (.int64 number) => some number
  | some (.dateTime milliseconds) => some milliseconds
  | some (.int32 number) => some (number.signExtend 64)
  | some (.double converted) => some converted
  | some (.boolean value) => some (if value then 1 else 0)
  | _ => none

/-- `get_int64`, which accepts no other type. -/
def getInt64 (object : DataObject) (field : Field) : Option (BitVec 64) :=
  match object.find field with
  | some (.int64 number) => some number
  | _ => none

/-- The sequence that `findObject` reads from a dataset. -/
def sequence (object : DataObject) : Option SearchSequence :=
  (object.getInt64 .runId).bind fun runId =>
    (object.getInt64 .seqId).map fun datapackCounter => ⟨runId, datapackCounter⟩

end DataObject

/-! ### Elements of the collection -/

structure Record where
  oid : ℕ
  deviceId : List Byte
  /-- A date, as an `int64_t`. -/
  timestamp : BitVec 64
  sequence : SearchSequence
  datasetTags : Finset (List Byte)
  data : DataObject
  deriving DecidableEq

/-- The order of the records. -/
def position (sequence : SearchSequence) : ℤ ×ₗ ℤ :=
  toLex (sequence.runId.toInt, sequence.datapackCounter.toInt)

inductive PushError
  /-- `-1` is returned. -/
  | missingKey
  | castException
  deriving DecidableEq, Repr

/-- `pushObject`, at a time. -/
def pushObject (oid : ℕ) (now : BitVec 64) (key : List Byte) (metaTags : Finset (List Byte))
    (storedObject : DataObject) : Except PushError Record :=
  if ¬ storedObject.hasKey .deviceId ∨ ¬ storedObject.hasKey .timestamp ∨
      ¬ storedObject.hasKey .runId ∨ ¬ storedObject.hasKey .seqId then .error .missingKey
  else
    match storedObject.getInt64Value .runId, storedObject.getInt64Value .seqId with
    | some runId, some seqId =>
        .ok
          { oid := oid
            deviceId := key
            -- the time is stored in steps of 256 milliseconds
            timestamp := now &&& 0xFFFFFFFFFFFFFF00#64
            sequence := ⟨runId, seqId⟩
            datasetTags := metaTags
            data := storedObject }
    | _, _ => .error .castException

/-- The record comes from a call of `pushObject`. -/
def Record.IsPushed (record : Record) : Prop :=
  ∃ oid now key metaTags storedObject, pushObject oid now key metaTags storedObject = .ok record

/-- What `executePush` has written and was not deleted since. -/
structure Collection where
  records : List Record
  pushed : ∀ record ∈ records, record.IsPushed
  unique : (records.map Record.oid).Nodup

/-! ### Queries -/

structure Query where
  key : List Byte
  metaTags : Finset (List Byte)
  timestampFrom : BitVec 64
  timestampTo : BitVec 64
  /-- A `uint32_t`. -/
  pageLen : ℕ

namespace Query

variable (query : Query)

def tStart : BitVec 64 :=
  if query.timestampTo < query.timestampFrom then query.timestampTo else query.timestampFrom

def tStop : BitVec 64 :=
  if query.timestampTo < query.timestampFrom then query.timestampFrom else query.timestampTo

/-- The part of the filter that is the same for all pages. -/
def Selects (record : Record) : Prop :=
  record.deviceId = query.key ∧
    (query.tStart.toInt ≤ record.timestamp.toInt ∧
      record.timestamp.toInt ≤ query.tStop.toInt) ∧
    query.metaTags ⊆ record.datasetTags

instance (record : Record) : Decidable (query.Selects record) :=
  inferInstanceAs (Decidable (_ ∧ _ ∧ _))

/-- The part of the filter that starts a page. -/
def Follows (last : SearchSequence) (record : Record) : Prop :=
  (record.sequence.runId = last.runId ∧
      last.datapackCounter.toInt ≤ record.sequence.datapackCounter.toInt) ∨
    last.runId.toInt < record.sequence.runId.toInt

instance (last : SearchSequence) (record : Record) : Decidable (Follows last record) :=
  inferInstanceAs (Decidable (_ ∨ _))

def matching (records : List Record) (last : SearchSequence) : List Record :=
  records.filter fun record => query.Selects record ∧ Follows last record

/-- The elements that the cursor of the database yields. A limit of zero is none. -/
def found (records : List Record) (last : SearchSequence) : List Record :=
  let sorted := sortOn (fun record => position record.sequence) (query.matching records last)
  if query.pageLen = 0 then sorted else sorted.take query.pageLen

end Query

/-- The loop of `findObject` over the elements. No result is an exception of `get_int64`. -/
def collect : List Record → List DataObject → SearchSequence →
    Option (List DataObject × SearchSequence)
  | [], foundObjectPage, last => some (foundObjectPage, last)
  | record :: records, foundObjectPage, _ =>
      -- read from the dataset, not from the fields that were searched
      record.data.sequence.bind fun last =>
        collect records
          (if record.data.elements = [] then foundObjectPage else foundObjectPage ++ [record.data])
          last

/-- `findObject`, from a sequence on. -/
def findObject (records : List Record) (query : Query) (last : SearchSequence) :
    Option (List DataObject × SearchSequence) :=
  collect (query.found records last) [] last

/-- The element that `getObject` finds. It looks for the present time, not for the given one. -/
def getElement (records : List Record) (now : BitVec 64) (key : List Byte)
    (_timestamp : BitVec 64) : Option Record :=
  (records.find? fun record =>
      record.deviceId = key ∧ record.timestamp = now &&& 0xFFFFFFFFFFFFFFF0#64).bind
    fun element => records.find? fun record => record.oid = element.oid

def getObject (records : List Record) (now : BitVec 64) (key : List Byte) (timestamp : BitVec 64) :
    DataObject :=
  (getElement records now key timestamp).elim .empty Record.data

/-! ### What is stored and found -/

section Storage

variable {rcds found : List Record} {rcd : Record} {query : Query} {last : SearchSequence}
  {page : List DataObject}

theorem follows_iff : Query.Follows last rcd ↔ position last ≤ position rcd.sequence := by
  rw [Query.Follows, position, position, Prod.Lex.toLex_le_toLex, BitVec.toInt_inj.symm]
  constructor
  · rintro (⟨same, later⟩ | later)
    · exact .inr ⟨same.symm, later⟩
    · exact .inl later
  · rintro (later | ⟨same, later⟩)
    · exact .inr later
    · exact .inl ⟨same.symm, later⟩

theorem elements_ne_nil_of_hasKey {object : DataObject} {field : Field}
    (has : object.hasKey field) : object.elements ≠ [] := by
  intro none
  rw [DataObject.hasKey, none] at has
  cases has

section Pushed

variable {oid : ℕ} {now : BitVec 64} {key : List Byte} {metaTags : Finset (List Byte)}
  {object : DataObject} (hp : pushObject oid now key metaTags object = .ok rcd)

include hp

theorem pushObject_eq_ok :
    ∃ seq, rcd = ⟨oid, key, now &&& 0xFFFFFFFFFFFFFF00#64, seq, metaTags, object⟩ := by
  unfold pushObject at hp
  split at hp
  · cases hp
  next =>
    split at hp
    · cases hp
      exact ⟨_, rfl⟩
    · cases hp

theorem elements_ne_nil_of_pushObject : rcd.data.elements ≠ [] := by
  obtain ⟨seq, rfl⟩ := pushObject_eq_ok hp
  unfold pushObject at hp
  split at hp
  · cases hp
  next keys => exact elements_ne_nil_of_hasKey (not_not.mp (not_or.mp keys).1)

end Pushed

theorem Collection.elements_ne_nil (coll : Collection)
    (hm : rcd ∈ coll.records) : rcd.data.elements ≠ [] := by
  obtain ⟨_, _, _, _, _, hp⟩ := coll.pushed rcd hm
  exact elements_ne_nil_of_pushObject hp

theorem mem_matching : rcd ∈ query.matching rcds last ↔
    rcd ∈ rcds ∧ query.Selects rcd ∧ Query.Follows last rcd := by
  rw [Query.matching, mem_filter, decide_eq_true_iff]

theorem mem_of_mem_found (hm : rcd ∈ query.found rcds last) : rcd ∈ rcds := by
  rw [Query.found] at hm
  split at hm
  · exact (mem_matching.mp (mem_sortOn.mp hm)).1
  · exact (mem_matching.mp (mem_sortOn.mp (mem_of_mem_take hm))).1

/-- The loop goes through all elements if no dataset makes it throw. -/
theorem collect_isSome_iff :
    (collect found page last).isSome ↔ ∀ rcd ∈ found, rcd.data.sequence.isSome := by
  induction found generalizing page last with
  | nil => simp [collect]
  | cons rcd found ih =>
    rw [collect, forall_mem_cons]
    cases read : rcd.data.sequence with
    | none => simp
    | some seq => simp [ih]

/-- Every element is on the page, and the last of them gives the sequence. -/
theorem collect_eq {res : List DataObject × SearchSequence}
    (nonempty : ∀ rcd ∈ found, rcd.data.elements ≠ [])
    (collected : collect found page last = some res) :
    res.1 = page ++ found.map Record.data ∧
      some res.2 = (found.map fun rcd => rcd.data.sequence).getLastD (some last) := by
  induction found generalizing page last with
  | nil =>
    cases collected
    simp
  | cons rcd found ih =>
    obtain ⟨seq, read, rest⟩ := bind_eq_some_iff.mp collected
    obtain ⟨hh, there⟩ := forall_mem_cons.mp nonempty
    rw [if_neg hh] at rest
    obtain ⟨pages, lasts⟩ := ih there rest
    refine ⟨by rw [pages, append_assoc]; rfl, ?_⟩
    rw [lasts, map_cons, getLastD_cons, read]

end Storage

end ChaosFramework.ObjectStorage
