import ChaosFramework.DirectIO.ByteOrder
import ChaosFramework.DirectIO.DataBuffer
import Mathlib.Algebra.Order.BigOperators.Group.Finset
import Mathlib.Data.Finset.Sort

/-!
# The requests of the channels

The device channel stores a dataset under a key, with a mode and a set of tags, and the channel of
the system API stores the lines of a log. What the clients write to the parts of a pack, on a little
endian host, is what the server channels read as long as the cursors of both stay positive.
-/

namespace ChaosFramework.DirectIO

open Bytes DataBuffer
open Option (bind_some map_some map_bind)

/-! ### Opcodes -/

/-- `DeviceChannelOpcodePutOutput`. -/
def putOutput : Byte := 1

/-- `DeviceChannelOpcodePutHeathData`. -/
def putHealthData : Byte := 16

/-- `DeviceChannelOpcodeMultiGetLastOutput`. -/
def multiGetLastOutput : Byte := 32

/-- `SystemAPIChannelOpcodePushLogEntryForANode`. -/
def pushLogEntryForANode : Byte := 5

namespace DataPack

/-- `fields.channel_opcode`. -/
def channelOpcode (pack : DataPack) : Byte := pack.dispatcherHeader.field4.1

/-- `fields.synchronous_answer`. -/
def synchronousAnswer (pack : DataPack) : Fin 2 :=
  loadSynchronousAnswer .little pack.dispatcherHeader.field4.2

end DataPack

/-! ### Clients -/

/-- The header of a put. The tags are written in the order of the set. -/
def writePutHeader (key : List Byte) (putMode : Int) (tagSet : Finset (List Byte)) :
    BufferM Unit := do
  writeInt8 (BitVec.ofInt 8 putMode)
  writeInt16 (BitVec.ofNat 16 tagSet.card)
  writeTerminated key
  writeStrings (tagSet.sort (· ≤ ·))

/-- The pack that is handed to `sendPriorityData`, or the error that is returned. -/
def storeAndCache (opcode : Byte) (fields : DispatcherHeader) (key buffer : List Byte)
    (putMode : Int) (tagSet : Finset (List Byte)) : Option (Except Int DataPack) :=
  if 250 < key.length then some (.error (-1))
  else
    (writePutHeader key putMode tagSet DataBuffer.empty).map fun written =>
      .ok (buildPack .little { fields with channelOpcode := opcode } written.2.buffer buffer)

def storeAndCacheDataOutputChannel := storeAndCache putOutput

def storeAndCacheHealthData := storeAndCache putHealthData

def writeEntry (entry : List Byte) : BufferM Unit := do
  writeInt32 (BitVec.ofNat 32 entry.length)
  writeByte entry (BitVec.ofNat 32 entry.length)

def writeEntries : List (List Byte) → BufferM Unit
  | [] => return ()
  | entry :: entries => do
      writeEntry entry
      writeEntries entries

/-- `pushLogEntries`. The node name is encoded as the entries are. -/
def pushLogEntries (fields : DispatcherHeader) (nodeName : List Byte)
    (logEntries : List (List Byte)) : Option (Except Int DataPack) :=
  if logEntries.length = 0 then some (.error (-1000))
  else
    (writeEntries (nodeName :: logEntries) DataBuffer.empty).map fun written =>
      .ok (buildPack .little { fields with channelOpcode := pushLogEntryForANode }
        (toBytes 4 logEntries.length) written.2.buffer)

/-! ### Server channels -/

structure PutHeader where
  hstTag : Int
  key : List Byte
  metaTagSet : Finset (List Byte)
  deriving DecidableEq

/-- What a server channel hands to its handler, or does instead. -/
inductive Event
  | put (header : PutHeader) (channelData : Option (List Byte))
  | healthData (header : PutHeader) (channelData : Option (List Byte))
  | multiGet (keys : List (List Byte))
  | logEntries (nodeName : List Byte) (entries : List (List Byte))
  | thrown (error : LengthError)
  /-- `-1000` is returned. -/
  | refused
  /-- One of the other opcodes. -/
  | other
  deriving DecidableEq

/-- `while(meta_tag_num--)`, on an `int16_t` that wraps around. -/
def readTags (metaTagNum : BitVec 16) (metaTagSet : Finset (List Byte)) :
    BufferM (Finset (List Byte)) :=
  if metaTagNum = 0 then return metaTagSet
  else do
    let tag ← readStringUntilNull
    readTags (metaTagNum - 1) (insert tag metaTagSet)
termination_by metaTagNum.toNat
decreasing_by bv_omega

def readPutHeader : BufferM PutHeader := do
  let hstTag ← readInt8
  let metaTagNum ← readInt16
  let key ← readStringUntilNull
  let metaTagSet ← readTags metaTagNum ∅
  return ⟨hstTag.toInt, key, metaTagSet⟩

/-- The two cases that store a dataset, with the number of the bytes that were accessed. -/
def consumePut (event : PutHeader → Option (List Byte) → Event) (pack : DataPack) :
    Option (Event × ℕ) :=
  pack.channelHeaderData.bind fun bytes =>
    (readPutHeader (attach bytes)).map fun read =>
      (event read.1 pack.channelData, read.2.accesses)

def consumeMultiGet (pack : DataPack) : Option (Event × ℕ) :=
  if pack.synchronousAnswer = 0 then some (.refused, 0)
  else
    pack.channelHeaderData.bind fun header =>
      pack.channelData.bind fun data =>
        (readInt16 (attach header)).bind fun numberOfKey =>
          (readStrings numberOfKey.1.toNat (attach data)).map fun keys =>
            (.multiGet keys.1, numberOfKey.2.accesses + keys.2.accesses)

/-- `DirectIODeviceServerChannel::consumeDataPack`, up to the call of the handler. -/
def consumeDevicePack (pack : DataPack) : Option (Event × ℕ) :=
  if pack.channelOpcode = putOutput then consumePut .put pack
  else if pack.channelOpcode = putHealthData then consumePut .healthData pack
  else if pack.channelOpcode = multiGetLastOutput then consumeMultiGet pack
  else some (.other, 0)

def readEntry : BufferM (Except LengthError (List Byte)) := do
  readString (← readInt32)

def readEntries : ℕ → BufferM (Except LengthError (List (List Byte)))
  | 0 => return .ok []
  | n + 1 => do
      match ← readEntry with
      | .error error => return .error error
      | .ok entry =>
          match ← readEntries n with
          | .error error => return .error error
          | .ok entries => return .ok (entry :: entries)

/-- The node name, and then the entries. -/
def readLog (dataEntriesNum : ℕ) : BufferM Event := do
  match ← readEntry with
  | .error error => return .thrown error
  | .ok nodeName =>
      match ← readEntries dataEntriesNum with
      | .error error => return .thrown error
      | .ok entries => return .logEntries nodeName entries

/-- `DirectIOSystemAPIServerChannel::consumeDataPack`, for the opcode of the log. -/
def consumeSystemPack (pack : DataPack) : Option (Event × ℕ) :=
  if pack.channelOpcode = pushLogEntryForANode then
    pack.channelData.bind fun data =>
      pack.channelHeaderData.bind fun header =>
        (readInt32 (attach header)).bind fun dataEntriesNum =>
          (readLog dataEntriesNum.1.toNat (attach data)).map fun log =>
            (log.1, dataEntriesNum.2.accesses + log.2.accesses)
  else some (.other, 0)

/-! ### Reading in one step -/

section Reading

variable {b : DataBuffer} {n : ℕ}

/-- The tags are read as other strings are, and inserted. -/
theorem readTags_eq (tag : BitVec 16) (metaTagSet : Finset (List Byte)) (b : DataBuffer) :
    readTags tag metaTagSet b = (readStrings tag.toNat b).map fun read =>
      (metaTagSet ∪ read.1.toFinset, read.2) := by
  induction count : tag.toNat generalizing tag metaTagSet b with
  | zero =>
    have zero : tag = 0 := BitVec.eq_of_toNat_eq count
    rw [readTags, if_pos zero]
    simp [readStrings_zero, pure_apply]
  | succ n ih =>
    have hp : tag ≠ 0 := by
      rintro rfl
      cases count
    rw [readTags, if_neg hp, bind_apply, readStrings_succ, map_bind]
    refine congrArg _ (funext fun first => ?_)
    rw [ih (tag - 1) _ _ (by bv_omega), Function.comp_apply, Option.map_map]
    refine congrArg (fun f => Option.map f _) (funext fun others => ?_)
    simp [Finset.insert_union]

theorem readEntries_succ (b : DataBuffer) :
    readEntries (n + 1) b = (readEntry b).bind fun first =>
      match first.1 with
      | .error error => some (.error error, first.2)
      | .ok entry => (readEntries n first.2).map fun others =>
          (others.1.map (entry :: ·), others.2) := by
  rw [readEntries, bind_apply]
  refine congrArg _ (funext fun first => ?_)
  obtain ⟨first, after⟩ := first
  cases first with
  | error error => rfl
  | ok entry =>
    simp only [bind_apply]
    cases readEntries n after with
    | none => rfl
    | some others =>
      obtain ⟨others, last⟩ := others
      cases others <;> rfl

/-- The node name is one more entry. -/
theorem readLog_eq (b : DataBuffer) :
    readLog n b = (readEntries (n + 1) b).map fun read =>
      (match read.1 with
        | .error error => .thrown error
        | .ok entries => .logEntries (entries.headD []) entries.tail, read.2) := by
  rw [readEntries_succ, readLog, bind_apply, map_bind]
  refine congrArg _ (funext fun first => ?_)
  obtain ⟨first, after⟩ := first
  cases first with
  | error error => rfl
  | ok entry =>
    simp only [bind_apply, Function.comp_apply]
    cases readEntries n after with
    | none => rfl
    | some others =>
      obtain ⟨others, last⟩ := others
      cases others <;> rfl

end Reading

/-! ### The header of a put -/

section Put

variable {key buf : List Byte} {pm : Int} {tagSet : Finset (List Byte)} {b : DataBuffer}

/-- What `writePutHeader` writes. -/
def putHeaderBytes (key : List Byte) (putMode : Int) (tagSet : Finset (List Byte)) : List Byte :=
  toBytes 1 (BitVec.ofInt 8 putMode).toNat ++ (toBytes 2 (BitVec.ofNat 16 tagSet.card).toNat ++
    ((key ++ [0]) ++ terminated (tagSet.sort (· ≤ ·))))

/-- The number of these bytes. -/
def putHeaderSize (key : List Byte) (tagSet : Finset (List Byte)) : ℕ :=
  4 + key.length + ∑ tag ∈ tagSet, (tag.length + 1)

theorem length_terminated_sort (tagSet : Finset (List Byte)) :
    (terminated (tagSet.sort (· ≤ ·))).length = ∑ tag ∈ tagSet, (tag.length + 1) := by
  rw [length_terminated, ← List.sum_toFinset _ (tagSet.sort_nodup _), Finset.sort_toFinset]

theorem length_putHeaderBytes (key : List Byte) (pm : Int) (tagSet : Finset (List Byte)) :
    (putHeaderBytes key pm tagSet).length = putHeaderSize key tagSet := by
  simp only [putHeaderBytes, putHeaderSize, List.length_append, length_toBytes, List.length_cons,
    List.length_nil, length_terminated_sort]
  omega

theorem length_tag_lt (fits : putHeaderSize key tagSet < 2147483648) :
    ∀ tag ∈ tagSet.sort (· ≤ ·), tag.length < 2147483648 := by
  intro tag hm
  have part := Finset.single_le_sum (f := fun tag : List Byte => tag.length + 1)
    (fun _ _ => Nat.zero_le _) ((Finset.mem_sort _).mp hm)
  rw [putHeaderSize] at fits
  omega

theorem writePutHeader_apply (fits : putHeaderSize key tagSet < 2147483648) :
    writePutHeader key pm tagSet b = some ((), b.extend (putHeaderBytes key pm tagSet)) := by
  have short : key.length < 2147483648 := by
    rw [putHeaderSize] at fits
    omega
  simp [writePutHeader, bind_apply, writeInt8, writeInt16, writeTerminated, append,
    writeByte_apply short, writeStrings_apply (length_tag_lt fits), extend_extend, putHeaderBytes]

theorem readPutHeader_bytes (mode : -128 ≤ pm ∧ pm < 128) (cleanKey : 0 ∉ key)
    (few : tagSet.card < 65536) (clean : ∀ tag ∈ tagSet, 0 ∉ tag)
    (fits : putHeaderSize key tagSet < 2147483648) :
    ∃ k, readPutHeader (attach (putHeaderBytes key pm tagSet)) =
      some (⟨pm, key, tagSet⟩,
        (attach (putHeaderBytes key pm tagSet)).skip (putHeaderSize key tagSet) k) := by
  rw [← length_putHeaderBytes key pm tagSet]
  refine Reads.attach ?_ (by rwa [length_putHeaderBytes])
  have signed : (BitVec.ofInt 8 pm).toInt = pm := by
    rw [BitVec.toInt_ofInt, Int.bmod_eq_of_le (by omega) (by omega)]
  have tags : Reads (readTags (BitVec.ofNat 16 tagSet.card) ∅)
      (terminated (tagSet.sort (· ≤ ·))) tagSet := by
    intro b tail hb starts small
    obtain ⟨k, read⟩ := Reads.strings
      (fun tag hm => clean tag ((Finset.mem_sort (· ≤ ·)).mp hm)) b tail hb starts
      small
    rw [Finset.length_sort] at read
    refine ⟨k, ?_⟩
    rw [readTags_eq, BitVec.toNat_ofNat, Nat.mod_eq_of_lt few, read, map_some,
      Finset.sort_toFinset, Finset.empty_union]
  refine (Reads.int8 _).bind ((Reads.int16 _).bind ((Reads.stringUntilNull cleanKey).bind ?_))
  rw [signed]
  exact tags.returning rfl

end Put

/-! ### The entries of a log -/

section Log

variable {entry node : List Byte} {entries log : List (List Byte)} {b : DataBuffer}

/-- The number of the bytes that `pushLogEntries` writes. -/
def logSize (nodeName : List Byte) (logEntries : List (List Byte)) : ℕ :=
  4 + nodeName.length + (logEntries.map fun entry => 4 + entry.length).sum

theorem length_counted (strs : List (List Byte)) :
    (counted strs).length = (strs.map fun str => 4 + str.length).sum := by
  simp [counted]

theorem length_counted_log : (counted (node :: log)).length =
    logSize node log := by
  rw [length_counted, List.map_cons, List.sum_cons, logSize]

theorem length_entry_lt (fits : (counted entries).length < 2147483648) :
    ∀ entry ∈ entries, entry.length < 2147483648 := by
  intro entry hm
  have part := List.single_le_sum (fun _ _ => Nat.zero_le _) _
    (List.mem_map_of_mem (f := fun entry : List Byte => 4 + entry.length) hm)
  rw [length_counted] at fits
  omega

theorem writeEntries_apply (small : ∀ entry ∈ entries, entry.length < 2147483648) :
    writeEntries entries b = some ((), b.extend (counted entries)) := by
  induction entries generalizing b with
  | nil => rw [writeEntries, pure_apply, counted_nil, extend_nil]
  | cons entry entries ih =>
    have short := small entry (List.mem_cons_self ..)
    rw [writeEntries, bind_apply, writeEntry, bind_apply, writeInt32, append, bind_some,
      writeByte_apply short, bind_some,
      ih fun other hm => small other (List.mem_cons_of_mem _ hm), extend_extend,
      extend_extend, counted_cons, (toInt_ofNat_length short).2]

theorem reads_entry (small : entry.length < 2147483648) :
    Reads readEntry (toBytes 4 entry.length ++ entry) (.ok entry) := by
  obtain ⟨hp, hu⟩ := toInt_ofNat_length small
  have length := Reads.int32 (BitVec.ofNat 32 entry.length)
  rw [hu] at length
  refine length.bind ?_
  rw [readString, if_neg hp, hu]
  exact (Reads.access entry).returning rfl

theorem reads_entries (small : ∀ entry ∈ entries, entry.length < 2147483648) :
    Reads (readEntries entries.length) (counted entries) (.ok entries) := by
  induction entries with
  | nil => exact .pure _
  | cons entry entries ih =>
    exact (reads_entry (small entry (List.mem_cons_self ..))).bind
      ((ih fun other hm => small other (List.mem_cons_of_mem _ hm)).returning rfl)

theorem reads_log (small : ∀ entry ∈ node :: log, entry.length < 2147483648) :
    Reads (readLog log.length) (counted (node :: log)) (.logEntries node log) :=
  (reads_entry (small node (List.mem_cons_self ..))).bind
    ((reads_entries fun other hm => small other (List.mem_cons_of_mem _ hm)).returning rfl)

end Log

/-! ### From the client to the server -/

section Exchange

variable {errno : Int} {flds : DispatcherHeader} {header data : List Byte}

@[simp] theorem channelOpcode_packOf :
    (packOf .little (flds.store .little) header data).channelOpcode = flds.channelOpcode := rfl

@[simp] theorem synchronousAnswer_packOf :
    (packOf .little (flds.store .little) header data).synchronousAnswer =
      flds.synchronousAnswer :=
  loadSynchronousAnswer_storeFlags .little _ _

/-- The request is sent, and the server channel reads the header to its end. -/
def StoredAs (errno : Int) (sent : Option (Except Int DataPack)) (header : PutHeader)
    (event : Event) : Prop :=
  ∃ pack received bytes after, sent = some (.ok pack) ∧
    exchange .little .little errno pack = some ⟨0, some received, []⟩ ∧
    received.channelHeaderData = some bytes ∧
    readPutHeader (attach bytes) = some (header, after) ∧ after.cursor.toNat = bytes.length ∧
    consumeDevicePack received = some (event, after.accesses)

/-- The lines are sent, and the server channel hands them to its handler. -/
def LoggedAs (errno : Int) (sent : Option (Except Int DataPack)) (nodeName : List Byte)
    (entries : List (List Byte)) : Prop :=
  ∃ pack received accesses, sent = some (.ok pack) ∧
    exchange .little .little errno pack = some ⟨0, some received, []⟩ ∧
    consumeSystemPack received = some (.logEntries nodeName entries, accesses)

variable {key buf node : List Byte} {pm : Int} {tagSet : Finset (List Byte)}
  {log : List (List Byte)}

theorem storedAs_of_consumes {op : Byte} {ev : PutHeader → Option (List Byte) → Event}
    (consumes : ∀ pack : DataPack, pack.channelOpcode = op →
      consumeDevicePack pack = consumePut ev pack)
    (mode : -128 ≤ pm ∧ pm < 128) (short : key.length ≤ 250) (cleanKey : 0 ∉ key)
    (few : tagSet.card < 65536) (clean : ∀ tag ∈ tagSet, 0 ∉ tag)
    (fits : putHeaderSize key tagSet < 2147483648) :
    StoredAs errno (storeAndCache op flds key buf pm tagSet)
      ⟨pm, key, tagSet⟩ (ev ⟨pm, key, tagSet⟩ (part (cut buf))) := by
  obtain ⟨k, read⟩ := readPutHeader_bytes mode cleanKey few clean fits
  have length := length_putHeaderBytes key pm tagSet
  have nonempty : putHeaderBytes key pm tagSet ≠ [] := by
    rw [← List.length_pos_iff, length, putHeaderSize]
    omega
  have written : storeAndCache op flds key buf pm tagSet = some (.ok (buildPack
      .little { flds with channelOpcode := op } (putHeaderBytes key pm tagSet)
      buf)) := by
    rw [storeAndCache, if_neg (by omega), writePutHeader_apply fits]
    rfl
  have arrives := exchange_little errno { flds with channelOpcode := op }
    (by omega : (putHeaderBytes key pm tagSet).length < 4294967296) buf
  refine ⟨_, _, _, _, written, arrives, part_of_ne_nil nonempty, read, ?_, ?_⟩
  · rw [toNat_skip, toNat_cursor_attach, Nat.zero_add, length, Nat.mod_eq_of_lt (by omega)]
  · rw [consumes _ rfl, consumePut]
    simp [packOf, part_of_ne_nil nonempty, read, cut]

theorem length_lt_of_logSize (fits : logSize node log < 2147483648) : log.length < 4294967296 := by
  have sum := List.length_le_sum_of_one_le (log.map fun entry => 4 + entry.length)
    fun size hm => by
      obtain ⟨entry, -, rfl⟩ := List.mem_map.mp hm
      omega
  rw [List.length_map] at sum
  rw [logSize] at fits
  omega

theorem loggedAs_pushLogEntries (nonempty : log ≠ []) (fits : logSize node log < 2147483648) :
    LoggedAs errno (pushLogEntries flds node log) node log := by
  have count : (BitVec.ofNat 32 log.length).toNat = log.length := by
    rw [BitVec.toNat_ofNat, Nat.mod_eq_of_lt (length_lt_of_logSize fits)]
  rw [← length_counted_log] at fits
  have written : pushLogEntries flds node log = some (.ok (buildPack .little
      { flds with channelOpcode := pushLogEntryForANode } (toBytes 4 log.length)
      (counted (node :: log)))) := by
    rw [pushLogEntries, if_neg (mt List.length_eq_zero_iff.mp nonempty),
      writeEntries_apply (length_entry_lt fits)]
    rfl
  obtain ⟨k, readCount⟩ := (Reads.int32 (BitVec.ofNat 32 log.length)).attach
    (by rw [length_toBytes]; decide)
  obtain ⟨l, read⟩ := (reads_log (length_entry_lt fits)).attach fits
  rw [count] at readCount
  have header : part (toBytes 4 log.length) = some (toBytes 4 log.length) :=
    part_of_ne_nil (List.cons_ne_nil _ _)
  have data : part (counted (node :: log)) = some (counted (node :: log)) :=
    part_of_ne_nil (by exact List.cons_ne_nil _ _)
  have arrives := exchange_little errno { flds with channelOpcode := pushLogEntryForANode }
    (by rw [length_toBytes]; decide : (toBytes 4 log.length).length < 4294967296)
    (counted (node :: log))
  rw [Nat.mod_eq_of_lt (by omega), List.take_length] at arrives
  refine ⟨_, _, 0 + k + (0 + l), written, arrives, ?_⟩
  rw [consumeSystemPack]
  simp only [packOf, header, data, bind_some, readCount, count, read]
  rfl

/-- What the clients write is read back: the mode, the key and the tags of a put, to the end of
the header, and the name and the lines of a log that is not empty. -/
theorem requests_decoded (errno : Int) (fields : DispatcherHeader) :
    (∀ (key buffer : List Byte) (putMode : Int) (tagSet : Finset (List Byte)),
      -128 ≤ putMode ∧ putMode < 128 → key.length ≤ 250 → 0 ∉ key → tagSet.card < 65536 →
      (∀ tag ∈ tagSet, 0 ∉ tag) → putHeaderSize key tagSet < 2147483648 →
      StoredAs errno (storeAndCacheDataOutputChannel fields key buffer putMode tagSet)
          ⟨putMode, key, tagSet⟩ (.put ⟨putMode, key, tagSet⟩ (part (cut buffer))) ∧
        StoredAs errno (storeAndCacheHealthData fields key buffer putMode tagSet)
          ⟨putMode, key, tagSet⟩ (.healthData ⟨putMode, key, tagSet⟩ (part (cut buffer)))) ∧
    ∀ (nodeName : List Byte) (logEntries : List (List Byte)), logEntries ≠ [] →
      logSize nodeName logEntries < 2147483648 →
      LoggedAs errno (pushLogEntries fields nodeName logEntries) nodeName logEntries := by
  constructor
  · intro key buffer putMode tagSet mode short cleanKey few clean fits
    constructor
    · refine storedAs_of_consumes ?_ mode short cleanKey few clean fits
      intro pack ho
      rw [consumeDevicePack, if_pos ho]
    · refine storedAs_of_consumes ?_ mode short cleanKey few clean fits
      intro pack ho
      rw [consumeDevicePack, ho, if_neg (by decide), if_pos rfl]
  · exact fun nodeName logEntries nonempty fits => loggedAs_pushLogEntries nonempty fits

/-- A tagged dataset and two lines, one of them empty. -/
theorem requests_decoded_tagged :
    StoredAs 0 (storeAndCacheDataOutputChannel datasetFields [100] [7, 0] (-3) {[116], []})
        ⟨-3, [100], {[116], []}⟩ (.put ⟨-3, [100], {[116], []}⟩ (part [7, 0])) ∧
      LoggedAs 0 (pushLogEntries datasetFields [] [[108], []]) [] [[108], []] :=
  ⟨((requests_decoded 0 datasetFields).1 [100] [7, 0] (-3) {[116], []} (by decide) (by decide)
      (by decide) (by decide) (by decide) (by decide)).1,
    (requests_decoded 0 datasetFields).2 [] [[108], []] (by decide) (by decide)⟩

/-- An empty log is not sent at all, and the length of a tag can be too large for an `int32_t`. -/
theorem requests_not_sent :
    pushLogEntries datasetFields [110] [] = some (.error (-1000)) ∧
      storeAndCacheDataOutputChannel datasetFields [100] [] 0 {List.replicate 2147483648 1} =
        none := by
  refine ⟨rfl, ?_⟩
  have long : ¬ (List.replicate 2147483648 (1 : Byte)).length % 4294967296 < 2147483648 := by
    rw [List.length_replicate]
    decide
  generalize List.replicate 2147483648 (1 : Byte) = tag at long ⊢
  rw [storeAndCacheDataOutputChannel, storeAndCache, writePutHeader, Finset.sort_singleton]
  have hr : ¬ ∀ str ∈ [tag], str.length % 4294967296 < 2147483648 :=
    fun all => long (all tag (List.mem_singleton_self tag))
  simp only [bind_apply, writeStrings_eq, if_neg hr]
  rfl

end Exchange

end ChaosFramework.DirectIO
