import ChaosFramework.ObjectStorage.DataAccess

/-!
# The timestamps of the object storage

`pushObject` clears eight bits of the time before it stores it. `findObject` compares its window
with what is left, and `getObject` clears four bits of the time of its own call. An object is found
by its time only if the three happen to agree, and only when it has been written.
-/

namespace ChaosFramework.ObjectStorage

open Bytes DirectIO SortedList List Option

/-- The first page of `findObject` has the element. -/
def Returned (records : List Record) (query : Query) (record : Record) : Prop :=
  record ∈ query.found records ⟨0, 0⟩ ∧
    ∃ page last, findObject records query ⟨0, 0⟩ = some (page, last) ∧ record.data ∈ page

/-- What an object that was pushed at a time needs to be found. -/
structure Retrievable (records : List Record) (query : Query) (record : Record)
    (pushedAt readAt : BitVec 64) : Prop where
  notEarly : query.timestampFrom.toInt ≤ (pushedAt &&& 0xFFFFFFFFFFFFFF00#64).toInt
  notLate : (pushedAt &&& 0xFFFFFFFFFFFFFF00#64).toInt ≤ query.timestampTo.toInt
  notNegative : position ⟨0, 0⟩ ≤ position record.sequence
  /-- All datasets that match have a run and a sequence number of the type `int64`. -/
  typed : ∀ other ∈ records, query.Selects other ∧ Query.Follows ⟨0, 0⟩ other →
    other.data.sequence.isSome
  sameTime : readAt &&& 0xFFFFFFFFFFFFFFF0#64 = pushedAt &&& 0xFFFFFFFFFFFFFF00#64
  /-- `executePush` has written it, and no element before it has its key and its timestamp. -/
  written : ∃ before after, records = before ++ record :: after ∧
    ∀ other ∈ before, ¬ (other.deviceId = record.deviceId ∧ other.timestamp = record.timestamp)

section Timestamps

variable {records : List Record} {record : Record} {q : Query} {last : SearchSequence}

/-- A page that is large enough has all matching elements. -/
theorem found_of_large (large : (q.matching records last).length ≤ q.pageLen) :
    q.found records last =
      sortOn (fun record => position record.sequence) (q.matching records last) := by
  rw [Query.found]
  split
  · rfl
  · exact take_of_length_le (length_sortOn.trans_le large)

theorem returned_iff (coll : Collection)
    (large : (q.matching coll.records ⟨0, 0⟩).length ≤ q.pageLen) :
    Returned coll.records q record ↔
      record ∈ q.matching coll.records ⟨0, 0⟩ ∧
        ∀ other ∈ coll.records, q.Selects other ∧ Query.Follows ⟨0, 0⟩ other →
          other.data.sequence.isSome := by
  have members {other : Record} : other ∈ q.found coll.records ⟨0, 0⟩ ↔
      other ∈ q.matching coll.records ⟨0, 0⟩ := by
    rw [found_of_large large, mem_sortOn]
  have readable : (findObject coll.records q ⟨0, 0⟩).isSome ↔
      ∀ other ∈ coll.records, q.Selects other ∧ Query.Follows ⟨0, 0⟩ other →
        other.data.sequence.isSome := by
    rw [findObject, collect_isSome_iff]
    simp only [members, mem_matching, and_imp]
  rw [← readable, ← members]
  constructor
  · rintro ⟨hm, page, last, result, -⟩
    exact ⟨hm, by rw [result]; rfl⟩
  · rintro ⟨hm, hf⟩
    obtain ⟨⟨page, last⟩, result⟩ := isSome_iff_exists.mp hf
    obtain ⟨rfl, -⟩ := collect_eq
      (fun other hf => coll.elements_ne_nil (mem_of_mem_found hf)) result
    exact ⟨hm, _, _, result, List.mem_map_of_mem hm⟩

/-- The second lookup of `getObject` finds the element again. -/
theorem getElement_eq (coll : Collection) (now : BitVec 64) (key : List Byte)
    (timestamp : BitVec 64) :
    getElement coll.records now key timestamp =
      coll.records.find? fun record =>
        record.deviceId = key ∧ record.timestamp = now &&& 0xFFFFFFFFFFFFFFF0#64 := by
  rw [getElement]
  cases hs : coll.records.find? fun record =>
      decide (record.deviceId = key ∧ record.timestamp = now &&& 0xFFFFFFFFFFFFFFF0#64) with
  | none => rfl
  | some elem =>
    -- the identifiers are unique, so looking for that of an element finds the element
    have hm := mem_of_find?_eq_some hs
    obtain ⟨again, found⟩ : ∃ again, coll.records.find? (fun record =>
        decide (record.oid = elem.oid)) = some again := by
      rw [← isSome_iff_exists, find?_isSome]
      exact ⟨elem, hm, decide_eq_true rfl⟩
    have sameOid := find?_some found
    rw [decide_eq_true_iff] at sameOid
    have same : again = elem :=
      inj_on_of_nodup_map coll.unique (mem_of_find?_eq_some found) hm sameOid
    rw [bind_some, found, same]

theorem getElement_eq_some_iff (coll : Collection) {now timestamp : BitVec 64} :
    getElement coll.records now record.deviceId timestamp = some record ↔
      now &&& 0xFFFFFFFFFFFFFFF0#64 = record.timestamp ∧
        ∃ before after, coll.records = before ++ record :: after ∧
          ∀ other ∈ before,
            ¬ (other.deviceId = record.deviceId ∧ other.timestamp = record.timestamp) := by
  rw [getElement_eq, find?_eq_some_iff_append, decide_eq_true_iff]
  constructor
  · rintro ⟨⟨-, same⟩, before, after, split, ho⟩
    refine ⟨same.symm, before, after, split, fun other hm => ?_⟩
    rw [same]
    simpa only [Bool.not_eq_true', decide_eq_false_iff_not] using ho other hm
  · rintro ⟨same, before, after, split, ho⟩
    refine ⟨⟨rfl, same.symm⟩, before, after, split, fun other hm => ?_⟩
    rw [same]
    simpa only [Bool.not_eq_true', decide_eq_false_iff_not] using ho other hm

/-- An object that was pushed inside the window is returned, and found by its time, exactly if it
is retrievable. -/
theorem found_iff_retrievable (collection : Collection) (query : Query) {oid : ℕ}
    {pushedAt : BitVec 64}
    {key : List Byte} {metaTags : Finset (List Byte)} {object : DataObject}
    (pushed : pushObject oid pushedAt key metaTags object = .ok record)
    (sameKey : query.key = key) (tagged : query.metaTags ⊆ metaTags)
    (notBefore : query.timestampFrom ≤ pushedAt) (notAfter : pushedAt ≤ query.timestampTo)
    (large : (query.matching collection.records ⟨0, 0⟩).length ≤ query.pageLen)
    (readAt : BitVec 64) :
    Returned collection.records query record ∧
        getElement collection.records readAt key pushedAt = some record ↔
      Retrievable collection.records query record pushedAt readAt := by
  obtain ⟨seq, stored⟩ := pushObject_eq_ok pushed
  -- the ends of the window are not exchanged
  have window : ¬ query.timestampTo < query.timestampFrom :=
    BitVec.not_lt.mpr (BitVec.le_trans notBefore notAfter)
  have selected : query.Selects record ↔
      query.timestampFrom.toInt ≤ (pushedAt &&& 0xFFFFFFFFFFFFFF00#64).toInt ∧
        (pushedAt &&& 0xFFFFFFFFFFFFFF00#64).toInt ≤ query.timestampTo.toInt := by
    rw [Query.Selects, Query.tStart, Query.tStop, if_neg window, if_neg window, stored]
    exact ⟨fun selects => selects.2.1, fun hi => ⟨sameKey.symm, hi, tagged⟩⟩
  have keyOf : record.deviceId = key := by rw [stored]
  have timeOf : record.timestamp = pushedAt &&& 0xFFFFFFFFFFFFFF00#64 := by rw [stored]
  rw [returned_iff collection large, mem_matching, selected, follows_iff, ← keyOf,
    getElement_eq_some_iff collection, timeOf]
  constructor
  · rintro ⟨⟨⟨-, ⟨notEarly, notLate⟩, hn⟩, ht⟩, hs, written⟩
    exact ⟨notEarly, notLate, hn, ht, hs, by rwa [timeOf]⟩
  · rintro ⟨notEarly, notLate, hn, ht, hs, written⟩
    have member : record ∈ collection.records := by
      obtain ⟨before, after, split, -⟩ := written
      rw [split]
      exact mem_append_right _ mem_cons_self
    exact ⟨⟨⟨member, ⟨notEarly, notLate⟩, hn⟩, ht⟩, hs, by rwa [timeOf] at written⟩

end Timestamps

/-! ### A dataset with all keys -/

def datasetObject (runId : Value) (seqId : BitVec 64) : DataObject where
  document := flagDocument (Fin.ofNat 256 seqId.toNat)
  elements :=
    [⟨.deviceId, true, .other⟩, ⟨.timestamp, true, .int64 0⟩, ⟨.runId, true, runId⟩,
      ⟨.seqId, true, .int64 seqId⟩]

/-- The dataset of the run 1 as it is stored at a time. -/
def datasetRecord (oid : ℕ) (pushedAt : BitVec 64) (key : List Byte) (runId : Value)
    (seqId : BitVec 64) : Record where
  oid := oid
  deviceId := key
  timestamp := pushedAt &&& 0xFFFFFFFFFFFFFF00#64
  sequence := ⟨1, seqId⟩
  datasetTags := ∅
  data := datasetObject runId seqId

end ChaosFramework.ObjectStorage
