import ChaosFramework.DirectIO.ByteOrder
import ChaosFramework.DirectIO.Documents

/-!
# Answers with documents

The server channel answers a query with a header, which holds the size and the number of the
documents, and with the documents behind each other. `queryDataCloud` follows the documents with a
pointer. The form of `getDataByIndex` that returns a vector never advances its pointer.
-/

namespace ChaosFramework.DirectIO

open Bytes List Option
open BitVec (ofNat toNat_ofNat toNat_ne)

/-- `SearchSequence`, with the bits of two `int64_t`. -/
structure SearchSequence where
  runId : BitVec 64
  datapackCounter : BitVec 64
  deriving DecidableEq, Repr

/-- `DirectIODeviceChannelHeaderOpcodeQueryDataCloudResult`. -/
structure QueryResultHeader where
  resultDataSize : BitVec 32
  numerOfRecordFound : BitVec 32
  lastFoundSequence : SearchSequence
  deriving DecidableEq, Repr

namespace QueryResultHeader

def bytes (header : QueryResultHeader) : List Byte :=
  toBytes 4 header.resultDataSize.toNat ++ (toBytes 4 header.numerOfRecordFound.toNat ++
    (toBytes 8 header.lastFoundSequence.runId.toNat ++
      toBytes 8 header.lastFoundSequence.datapackCounter.toNat))

/-- The header in memory of which the given bytes can be read. -/
def ofMemory (memory : List Byte) : Option QueryResultHeader :=
  if 24 ≤ memory.length then
    some
      { resultDataSize := BitVec.ofNat 32 (ofBytes (memory.take 4))
        numerOfRecordFound := BitVec.ofNat 32 (ofBytes ((memory.drop 4).take 4))
        lastFoundSequence :=
          { runId := BitVec.ofNat 64 (ofBytes ((memory.drop 8).take 8))
            datapackCounter := BitVec.ofNat 64 (ofBytes ((memory.drop 16).take 8)) } }
  else none

theorem length_bytes (header : QueryResultHeader) : header.bytes.length = 24 := by
  simp [bytes]

theorem ofMemory_bytes (header : QueryResultHeader) : ofMemory header.bytes = some header := by
  have number {w : ℕ} (width : ℕ) (n : BitVec w) (wide : w = 8 * width) :
      ofNat w (ofBytes (toBytes width n.toNat)) = n := by
    rw [ofBytes_toBytes_of_lt, BitVec.ofNat_toNat, BitVec.setWidth_eq]
    rw [show 256 = 2 ^ 8 from rfl, ← Nat.pow_mul, ← wide]
    exact n.isLt
  have first : header.bytes.take 4 = _ := take_left' (length_toBytes ..)
  have second : header.bytes.drop 4 = _ := drop_left' (length_toBytes ..)
  have third : header.bytes.drop 8 = _ :=
    drop_drop.symm.trans ((congrArg _ second).trans (drop_left' (length_toBytes 4 _)))
  have fourth : header.bytes.drop 16 = _ :=
    drop_drop.symm.trans ((congrArg _ third).trans (drop_left' (length_toBytes 8 _)))
  rw [ofMemory, if_pos (by rw [length_bytes]), first, second, third, fourth,
    take_left' (length_toBytes ..), take_left' (length_toBytes ..),
    take_of_length_le (by rw [length_toBytes]), number 4 _ rfl, number 4 _ rfl,
    number 8 _ rfl, number 8 _ rfl]

end QueryResultHeader

/-! ### The server -/

/-- The header and the data for the documents of a page. Nothing is appended to the data if the
number of the documents is zero as a `uint32_t`. -/
def queryResult (page : List Document) (lastSequence : SearchSequence) :
    QueryResultHeader × List Byte :=
  if BitVec.ofNat 32 page.length = 0 then (⟨0, 0, lastSequence⟩, [])
  else
    (⟨BitVec.ofNat 32 (totalSize page), BitVec.ofNat 32 page.length, lastSequence⟩,
      concatenated page)

/-- The answer to a query or to an index query that has succeeded. -/
def answerQuery (fields : DispatcherHeader) (page : List Document)
    (lastSequence : SearchSequence) : DataPack :=
  buildPack .little fields (queryResult page lastSequence).1.bytes (queryResult page lastSequence).2

/-- The answer of `getDataByIndex`. The rest of its header is filled with zeros. -/
def answerDataByIndex (fields : DispatcherHeader) (dataFound : List Document) : DataPack :=
  answerQuery fields dataFound ⟨0, 0⟩

/-- An `int` in the `int16_t` of the header. -/
def errField (err : Int) : Fin 65536 := Fin.ofNat 65536 (BitVec.ofInt 16 err).toNat

/-- `fields.err`. -/
def DataPack.err (pack : DataPack) : Int :=
  (BitVec.ofNat 16 (load16 .little pack.dispatcherHeader.field2).val).toInt

/-- The dispatcher sends the answer to the client, with the error of the handler. -/
def deliver (errno : Int) (channelOpcode : Byte) (counter err : Fin 65536) (answer : DataPack) :
    Option DataPack :=
  (exchange .little .little errno (prepareAnswer .little channelOpcode counter err answer)).bind
    Reception.dataPack

/-! ### The clients -/

/-- What `queryDataCloud` does with an answer. -/
def queryDataCloud (answer : DataPack) (foundElementPage : List Document) :
    Option (List Document × SearchSequence) :=
  (answer.channelHeaderData.bind QueryResultHeader.ofMemory).bind fun header =>
    if header.numerOfRecordFound ≠ 0 ∧ header.resultDataSize ≠ 0 then
      answer.channelData.bind fun data =>
        (readDocuments (header.numerOfRecordFound.toNat - foundElementPage.length) data).map
          fun records => (foundElementPage ++ records, header.lastFoundSequence)
    else some (foundElementPage, header.lastFoundSequence)

/-- What `getDataByIndex` does with an answer. All records are made from the same pointer. -/
def getDataByIndex (answer : DataPack) (results : List Document) : Option (List Document) :=
  (answer.channelHeaderData.bind QueryResultHeader.ofMemory).bind fun header =>
    if header.numerOfRecordFound ≠ 0 ∧ header.resultDataSize ≠ 0 then
      answer.channelData.bind fun data =>
        (parseDocument data).map fun record =>
          results ++ List.replicate header.numerOfRecordFound.toNat record
    else some results

/-- The overload for one index. -/
def getSingleDataByIndex (answer : DataPack) (result : Option Document) :
    Option (Option Document) :=
  (answer.channelHeaderData.bind QueryResultHeader.ofMemory).bind fun header =>
    if header.numerOfRecordFound ≠ 0 ∧ header.resultDataSize ≠ 0 then
      answer.channelData.bind fun data => (parseDocument data).map some
    else some result

/-! ### Decoding -/

section Decoding

variable {errno : Int} {op : Byte} {ctr : Fin 65536} {flds : DispatcherHeader}
  {docs : List Document} {seq : SearchSequence}

/-- The clients decode what the handlers have produced. -/
structure Decoded (errno : Int) (channelOpcode : Byte) (counter : Fin 65536)
    (fields : DispatcherHeader) (documents : List Document) (lastSequence : SearchSequence) :
    Prop where
  query : (deliver errno channelOpcode counter 0 (answerQuery fields documents lastSequence)).bind
    (queryDataCloud · []) = some (documents, lastSequence)
  index : (deliver errno channelOpcode counter 0 (answerDataByIndex fields documents)).bind
    (getDataByIndex · []) = some documents
  single : (deliver errno channelOpcode counter 0 (answerDataByIndex fields documents)).bind
    (getSingleDataByIndex · none) = some documents.head?

theorem err_packOf {header data : List Byte} :
    (packOf .little (flds.store .little) header data).err = (ofNat 16 flds.err.val).toInt := by
  exact congrArg (fun err : Fin 65536 => (ofNat 16 err.val).toInt) (load16_store16 .little flds.err)

/-- An answer without parts arrives with the error. -/
theorem deliver_failure (errno : Int) (op : Byte) (ctr : Fin 65536) (flds : DispatcherHeader) :
    ∃ ans, deliver errno op ctr (errField (-1)) (buildPack .little flds [] []) =
        some ans ∧ ans.err = -1 := by
  have ha := exchange_answer_little errno op ctr (errField (-1)) flds
    (by decide : ([]).length < 4294967296) []
  refine ⟨_, congrArg (Option.bind · Reception.dataPack) ha, ?_⟩
  rw [err_packOf]
  rfl

/-- The parts that arrive. The data is cut where its size does not fit in a `uint32_t`. -/
theorem deliver_answerQuery (errno : Int) (op : Byte) (ctr : Fin 65536)
    (flds : DispatcherHeader) (docs : List Document) (seq : SearchSequence) :
    ∃ ans,
    deliver errno op ctr 0 (answerQuery flds docs seq) = some ans ∧ ans.err = 0 ∧
      ans.channelHeaderData.bind QueryResultHeader.ofMemory = some (queryResult docs seq).1 ∧
      ans.channelData = part ((queryResult docs seq).2.take
        ((queryResult docs seq).2.length % 4294967296)) := by
  have length := QueryResultHeader.length_bytes (queryResult docs seq).1
  have arrives := exchange_answer_little errno op ctr 0 flds
    (by omega : (queryResult docs seq).1.bytes.length < 4294967296)
    (queryResult docs seq).2
  refine ⟨_, congrArg (Option.bind · Reception.dataPack) arrives, err_packOf, ?_, rfl⟩
  exact QueryResultHeader.ofMemory_bytes _

theorem queryResult_of_small (small : totalSize docs < 4294967296) :
    queryResult docs seq =
      (⟨ofNat 32 (totalSize docs), ofNat 32 docs.length, seq⟩, concatenated docs) := by
  have length := length_le_totalSize docs
  rw [queryResult]
  split
  next zero =>
    have none := congrArg BitVec.toNat zero
    rw [toNat_ofNat, Nat.mod_eq_of_lt (by omega)] at none
    obtain rfl := length_eq_zero_iff.mp none
    rfl
  next => rfl

/-- A page that is not too long arrives with its numbers. -/
theorem deliver_of_small (errno : Int) (op : Byte) (ctr : Fin 65536)
    (flds : DispatcherHeader) (seq : SearchSequence)
    (small : totalSize docs < 4294967296) :
    ∃ ans header, deliver errno op ctr 0 (answerQuery flds docs seq) = some ans ∧
      ans.channelHeaderData.bind QueryResultHeader.ofMemory = some header ∧
      ans.channelData = part (concatenated docs) ∧
      header.numerOfRecordFound.toNat = docs.length ∧
      header.resultDataSize.toNat = totalSize docs ∧
      header.lastFoundSequence = seq := by
  have length := length_le_totalSize docs
  obtain ⟨ans, ha, -, header, data⟩ :=
    deliver_answerQuery errno op ctr flds docs seq
  rw [queryResult_of_small small] at header data
  rw [length_concatenated, Nat.mod_eq_of_lt small, ← length_concatenated, take_length] at data
  refine ⟨ans, _, ha, header, data, ?_, ?_, rfl⟩
  · rw [toNat_ofNat, Nat.mod_eq_of_lt (by omega)]
  · rw [toNat_ofNat, Nat.mod_eq_of_lt small]

/-- The test of the clients tells an empty page from the others. -/
theorem found_iff {header : QueryResultHeader}
    (count : header.numerOfRecordFound.toNat = docs.length)
    (size : header.resultDataSize.toNat = totalSize docs) :
    header.numerOfRecordFound ≠ 0 ∧ header.resultDataSize ≠ 0 ↔ docs ≠ [] := by
  have length := length_le_totalSize docs
  rw [← length_pos_iff, toNat_ne, toNat_ne, count, size]
  change docs.length ≠ 0 ∧ totalSize docs ≠ 0 ↔ _
  omega

theorem part_concatenated (nonempty : docs ≠ []) :
    part (concatenated docs) = some (concatenated docs) := by
  have length := length_le_totalSize docs
  have positive := length_pos_iff.mpr nonempty
  rw [part_of_ne_nil]
  rw [← length_pos_iff, length_concatenated]
  omega

theorem query_decoded (small : totalSize docs < 4294967296) :
    (deliver errno op ctr 0 (answerQuery flds docs seq)).bind
      (queryDataCloud · []) = some (docs, seq) := by
  obtain ⟨ans, header, ha, read, data, count, size, last⟩ :=
    deliver_of_small errno op ctr flds seq small
  rw [ha, bind_some, queryDataCloud, read, bind_some, data, last]
  by_cases empty : docs = []
  · rw [if_neg (mt (found_iff count size).mp (not_not.mpr empty)), empty]
  · rw [if_pos ((found_iff count size).mpr empty), part_concatenated empty, bind_some,
      count, length_nil, Nat.sub_zero, readDocuments_concatenated]
    rfl

theorem small_of_query_decoded
    (hd : (deliver errno op ctr 0
      (answerQuery flds docs seq)).bind (queryDataCloud · []) = some (docs, seq)) :
    totalSize docs < 4294967296 := by
  obtain ⟨ans, ha, -, header, data⟩ :=
    deliver_answerQuery errno op ctr flds docs seq
  rw [ha, bind_some, queryDataCloud, header, bind_some] at hd
  split at hd
  next found =>
    obtain ⟨bytes, hr, read⟩ := bind_eq_some_iff.mp hd
    obtain ⟨rcds, readRecords, same⟩ := map_eq_some_iff.mp read
    obtain rfl : rcds = docs := (Prod.mk.inj same).1
    rw [data, queryResult] at hr
    split at hr
    next none => exact nomatch hr
    next some =>
      -- the records were read from what has arrived, which is less than 2 ^ 32 bytes
      obtain ⟨-, rfl⟩ := part_eq_some.mp hr
      rw [readDocuments_take] at readRecords
      split at readRecords
      next fits =>
        rw [Option.some.inj readRecords] at fits
        exact fits.2.trans_lt (Nat.mod_lt _ (by decide))
      next => cases readRecords
  next =>
    obtain rfl : [] = docs := (Prod.mk.inj (Option.some.inj hd)).1
    decide

theorem index_decoded_iff (small : totalSize docs < 4294967296) :
    (deliver errno op ctr 0 (answerDataByIndex flds docs)).bind (getDataByIndex · []) = some docs ↔
      ∀ doc ∈ docs, docs.head? = some doc := by
  obtain ⟨ans, header, ha, read, data, count, size, -⟩ :=
    deliver_of_small errno op ctr flds ⟨0, 0⟩ small
  rw [answerDataByIndex, ha, bind_some, getDataByIndex, read, bind_some, data]
  cases docs with
  | nil =>
    rw [if_neg (mt (found_iff count size).mp (not_not.mpr rfl))]
    simp
  | cons first docs =>
    rw [if_pos ((found_iff count size).mpr (cons_ne_nil _ _)),
      part_concatenated (cons_ne_nil _ _), bind_some,
      parseDocument_concatenated, map_some, count, nil_append, Option.some.injEq,
      eq_comm, eq_replicate_iff]
    simp [eq_comm]

theorem single_decoded (small : totalSize docs < 4294967296) :
    (deliver errno op ctr 0 (answerDataByIndex flds docs)).bind
      (getSingleDataByIndex · none) = some docs.head? := by
  obtain ⟨ans, header, ha, read, data, count, size, -⟩ :=
    deliver_of_small errno op ctr flds ⟨0, 0⟩ small
  rw [answerDataByIndex, ha, bind_some, getSingleDataByIndex, read, bind_some, data]
  cases docs with
  | nil => rw [if_neg (mt (found_iff count size).mp (not_not.mpr rfl)), head?_nil]
  | cons first docs =>
    rw [if_pos ((found_iff count size).mpr (cons_ne_nil _ _)),
      part_concatenated (cons_ne_nil _ _), bind_some, parseDocument_concatenated]
    rfl

/-- The clients decode exactly the documents whose sizes add up to less than 2 ^ 32, and which
are all the same. -/
theorem answers_decoded_iff (errno : Int) (channelOpcode : Byte) (counter : Fin 65536)
    (fields : DispatcherHeader) (documents : List Document) (lastSequence : SearchSequence) :
    Decoded errno channelOpcode counter fields documents lastSequence ↔
      totalSize documents < 4294967296 ∧
        ∀ document ∈ documents, documents.head? = some document := by
  constructor
  · intro hd
    have small := small_of_query_decoded hd.query
    exact ⟨small, (index_decoded_iff small).mp hd.index⟩
  · rintro ⟨small, same⟩
    exact ⟨query_decoded small, (index_decoded_iff small).mpr same, single_decoded small⟩

/-- A document with one element, the boolean `x`. -/
def flagDocument (value : Byte) : Document where
  bytes := [9, 0, 0, 0, 8, 120, 0, value, 0]
  minimal := by simp
  small := by simp
  delimited := by rfl
  terminated := by rfl

/-- The second of two documents is lost, and the first one found twice. -/
theorem second_index_lost :
    (deliver 0 128 0 0 (answerDataByIndex datasetFields [flagDocument 0, flagDocument 1])).bind
      (getDataByIndex · []) = some [flagDocument 0, flagDocument 0] := by
  decide

end Decoding

end ChaosFramework.DirectIO
