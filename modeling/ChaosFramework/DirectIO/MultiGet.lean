import ChaosFramework.DirectIO.Channels
import ChaosFramework.DirectIO.QueryAnswers

/-!
# Documents of several keys

`requestLastOutputData` asks for the cached documents of a vector of keys, counted with sixteen
bits. The server collects what it finds in a map, and answers with the size of that map and one
document for each key. So the client reads fewer documents than there are if a key was repeated, and
it never learns of the keys that were not counted.
-/

namespace ChaosFramework.DirectIO

open Bytes DataBuffer List
open Option (bind_some)

/-- What the lookups of the cache driver answer: `none` for a key that is not cached, and for a
lookup that fails. -/
abbrev Cache := List Byte → Option Document

/-- The cached document, or an empty one. -/
def Cache.document (cache : Cache) (key : List Byte) : Document := (cache key).getD .empty

/-! ### The request -/

/-- The pack that is sent for the keys. -/
def multiGetPack (fields : DispatcherHeader) (keys : List (List Byte)) : Option DataPack :=
  (writeStrings keys DataBuffer.empty).map fun written =>
    buildPack .little
      { fields with channelOpcode := multiGetLastOutput, synchronousAnswer := 1 }
      (toBytes 2 keys.length) written.2.buffer

/-- The keys that the server channel hands to its handler. -/
def requestedKeys (errno : Int) (fields : DispatcherHeader) (keys : List (List Byte)) :
    Option (List (List Byte)) :=
  (multiGetPack fields keys).bind fun pack =>
    (exchange .little .little errno pack).bind fun reception =>
      reception.dataPack.bind fun received =>
        (consumeDevicePack received).bind fun consumed =>
          match consumed.1 with
          | .multiGet keys => some keys
          | _ => none

/-! ### The answer -/

def writeDocuments : List Document → BufferM Unit
  | [] => return ()
  | document :: documents => do
      writeByte document.bytes (BitVec.ofNat 32 document.size)
      writeDocuments documents

/-- What the handler returns. -/
structure MultiGetResult where
  err : Int
  numberOfResult : ℕ
  resultValue : List Byte

/-- `QueryDataConsumer::consumeGetEvent`. The driver finds nothing if its pool has no connection.
The map has got an entry for each key, as it is also written when it is read. -/
def consumeGetEvent (cache : Cache) (pooled : Bool) (keys : List (List Byte)) :
    Option MultiGetResult :=
  let cached := if pooled then cache.document else fun _ => .empty
  (writeDocuments (keys.map cached) DataBuffer.empty).map fun written =>
    ⟨if pooled then 0 else -1, keys.toFinset.card, written.2.buffer⟩

/-- The answer has parts only if the handler succeeds. -/
def answerMultiGet (fields : DispatcherHeader) (result : MultiGetResult) : DataPack :=
  if result.err = 0 then
    buildPack .little fields (toBytes 4 result.numberOfResult) result.resultValue
  else buildPack .little fields [] []

/-- What the client does with an answer. -/
def receiveMultiGet (answer : DataPack) : Option (Int × List Document) :=
  if answer.err ≠ 0 then some (answer.err, [])
  else
    answer.channelHeaderData.bind fun header =>
      (readInt32 (attach header)).bind fun numberOfResult =>
        answer.channelData.bind fun data =>
          (readCDataWrappers numberOfResult.1.toNat (attach data)).map fun read => (0, read.1)

/-- The answer of the server for the keys, as the client receives it. -/
def fetchDocuments (errno : Int) (counter : Fin 65536) (fields : DispatcherHeader) (cache : Cache)
    (pooled : Bool) (keys : List (List Byte)) : Option (Int × List Document) :=
  (consumeGetEvent cache pooled keys).bind fun result =>
    (deliver errno multiGetLastOutput counter (errField result.err)
      (answerMultiGet fields result)).bind receiveMultiGet

/-- `requestLastOutputData`, of a vector of keys. -/
def requestLastOutputData (errno : Int) (counter : Fin 65536) (fields : DispatcherHeader)
    (cache : Cache) (pooled : Bool) (keys : List (List Byte)) : Option (Int × List Document) :=
  if keys.length = 0 then some (-1, [])
  else
    (requestedKeys errno fields keys).bind fun requested =>
      fetchDocuments errno counter fields cache pooled requested

/-- The call is defined, and its results are the documents of the keys if it succeeds. -/
def Answers (cache : Cache) (keys : List (List Byte)) (call : Option (Int × List Document)) :
    Prop :=
  ∃ err results, call = some (err, results) ∧ (err = 0 → results = keys.map cache.document)

/-! ### The calls that answer -/

/-- Items of these sizes, of which so many are read, arrive in one part. -/
def Transferable (sizes : List ℕ) (n : ℕ) : Prop :=
  sizes.sum % 4294967296 ≠ 0 ∧ Readable sizes 0 (sizes.sum % 4294967296) n

instance (sizes : List ℕ) (n : ℕ) : Decidable (Transferable sizes n) :=
  inferInstanceAs (Decidable (_ ∧ _))

/-- The server can read the keys that it counts. -/
def RequestReadable (keys : List (List Byte)) : Prop :=
  (∀ key ∈ keys, key.length % 4294967296 < 2147483648) ∧
    Transferable (keys.map fun key => (cut key).length + 1) (keys.length % 65536)

instance (keys : List (List Byte)) : Decidable (RequestReadable keys) :=
  inferInstanceAs (Decidable (_ ∧ _))

/-- All keys are counted, none of them is repeated, and the client can read the documents. -/
structure AnswerFaithfulTo (cache : Cache) (keys : List (List Byte)) : Prop where
  counted : keys.length < 65536
  distinct : (keys.map cut).Nodup
  uncut : ∀ key ∈ keys, cache.document (cut key) = cache.document key
  readable : Transferable (keys.map fun key => (cache.document key).size) keys.length

section Requests

variable {errno : Int} {counter : Fin 65536} {fields : DispatcherHeader} {cache : Cache}
  {pooled : Bool} {keys : List (List Byte)} {α : Type}

/-- The part that arrives, and whether there is one. -/
theorem part_take_mod (bytes : List Byte) :
    part (bytes.take (bytes.length % 4294967296)) =
      if bytes.length % 4294967296 = 0 then none
      else some (bytes.take (bytes.length % 4294967296)) := by
  refine if_congr ?_ rfl rfl
  rw [← length_eq_zero_iff, length_take, Nat.min_eq_left (Nat.mod_le ..)]

/-- Items are sent in one part, which is cut, and some of them are read again. -/
theorem readMany_transferred {read : BufferM α} {encode : α → List Byte}
    {valid : α → Prop} (hd : Delimited read encode valid) {items : List α}
    (clean : ∀ a ∈ items, valid a) (n : ℕ) :
    ((part ((items.flatMap encode).take ((items.flatMap encode).length % 4294967296))).bind
        fun data => (readMany read n (attach data)).map Prod.fst) =
      if Transferable (items.map fun a => (encode a).length) n then some (items.take n)
      else none := by
  have total : (items.flatMap encode).length = (items.map fun a => (encode a).length).sum :=
    length_flatMap
  have bounded : ((items.flatMap encode).take
      ((items.flatMap encode).length % 4294967296)).length < 4294967296 :=
    (length_take_le ..).trans_lt (Nat.mod_lt _ (by decide))
  rw [part_take_mod]
  by_cases zero : (items.flatMap encode).length % 4294967296 = 0
  · rw [if_pos zero, if_neg fun transferable => transferable.1 (total ▸ zero)]
    rfl
  · rw [if_neg zero, bind_some, hd.readMany_take bounded clean
      (by rw [toNat_cursor_attach]; decide) (rest_attach _)]
    refine if_congr ?_ rfl rfl
    rw [total] at zero ⊢
    exact (and_iff_right zero).symm

theorem consumeDevicePack_multiGet (ho : fields.channelOpcode = multiGetLastOutput)
    (hs : fields.synchronousAnswer = 1) (n : ℕ) (data : List Byte) :
    consumeDevicePack (packOf .little (fields.store .little) (toBytes 2 n) data) =
      (part data).bind fun data =>
        (readStrings (n % 65536) (attach data)).map fun keys =>
          (.multiGet keys.1, 2 + keys.2.accesses) := by
  obtain ⟨num, read, value⟩ : ∃ num, readInt16 (attach (toBytes 2 n)) =
      some (num, _) ∧ num.toNat = ofBytes ((toBytes 2 n).take 2) :=
    readInt16_isSome (by rw [rest_attach, length_toBytes])
  have count : num.toNat = n % 65536 := by
    rw [value]
    exact ofBytes_toBytes 2 n
  have header : part (toBytes 2 n) = some (toBytes 2 n) := part_of_ne_nil (cons_ne_nil _ _)
  rw [consumeDevicePack, channelOpcode_packOf, ho, consumeMultiGet, synchronousAnswer_packOf, hs]
  simp only [packOf, header, bind_some, read, count]
  rfl

theorem requestedKeys_eq (clean : ∀ key ∈ keys, 0 ∉ key) :
    requestedKeys errno fields keys =
      if RequestReadable keys then some ((keys.map cut).take (keys.length % 65536)) else none := by
  rw [requestedKeys, multiGetPack, writeStrings_eq]
  by_cases short : ∀ key ∈ keys, key.length % 4294967296 < 2147483648
  · have ha := exchange_little errno
      { fields with channelOpcode := multiGetLastOutput, synchronousAnswer := 1 }
      (by rw [length_toBytes]; decide : (toBytes 2 keys.length).length < 4294967296)
    have cleanCut : ∀ key ∈ keys.map cut, 0 ∉ key := by
      intro key sent
      obtain ⟨whole, hm, rfl⟩ := mem_map.mp sent
      exact fun zero => clean whole hm (mem_of_mem_take zero)
    have read := readMany_transferred delimited_readStringUntilNull cleanCut (keys.length % 65536)
    have sizes : ((keys.map cut).map fun key => (key ++ [0]).length) =
        keys.map fun key => (cut key).length + 1 := by
      rw [map_map]
      exact map_congr_left fun key _ => length_append
    rw [if_pos short, Option.map_some, bind_some]
    rw [ha, bind_some, bind_some, consumeDevicePack_multiGet rfl rfl, Option.bind_assoc]
    rw [sizes] at read
    refine Eq.trans ?_ (read.trans (if_congr (and_iff_right short).symm rfl rfl))
    refine congrArg _ (funext fun data => ?_)
    rw [readStrings]
    cases readMany readStringUntilNull (keys.length % 65536) (attach data) <;> rfl
  · rw [if_neg short, if_neg fun hr => short hr.1]
    rfl

theorem writeDocuments_apply (docs : List Document) (b : DataBuffer) :
    writeDocuments docs b = some ((), b.extend (concatenated docs)) := by
  induction docs generalizing b with
  | nil => exact congrArg (fun b => some ((), b)) (extend_nil b).symm
  | cons doc docs ih =>
    rw [writeDocuments, bind_apply, Document.size, writeByte_apply doc.small,
      bind_some, ih, extend_extend, concatenated_cons]

theorem fetchDocuments_unpooled :
    fetchDocuments errno counter fields cache false keys = some (-1, []) := by
  have hc : consumeGetEvent cache false keys = some ⟨-1, _, _⟩ :=
    congrArg (Option.map _) (writeDocuments_apply _ _)
  obtain ⟨ans, hd, err⟩ := deliver_failure errno multiGetLastOutput counter fields
  rw [fetchDocuments, hc, bind_some, answerMultiGet,
    if_neg (show (-1) ≠ 0 by decide), hd, bind_some, receiveMultiGet, err]
  rfl

theorem receiveMultiGet_packOf {n : ℕ} {data : List Byte} (ok : fields.err = 0)
    (small : n < 4294967296) :
    receiveMultiGet (packOf .little (fields.store .little) (toBytes 4 n) data) =
      (part data).bind fun data =>
        (readCDataWrappers n (attach data)).map fun read => (0, read.1) := by
  obtain ⟨num, read, value⟩ : ∃ num, readInt32 (attach (toBytes 4 n)) =
      some (num, _) ∧ num.toNat = ofBytes ((toBytes 4 n).take 4) :=
    readInt32_isSome (by rw [rest_attach, length_toBytes])
  have count : num.toNat = n := by
    rw [value, take_of_length_le (by rw [length_toBytes])]
    exact ofBytes_toBytes_of_lt small
  have header : part (toBytes 4 n) = some (toBytes 4 n) := part_of_ne_nil (cons_ne_nil _ _)
  rw [receiveMultiGet, err_packOf, ok, if_neg (by decide)]
  simp [packOf, header, read, count]

theorem fetchDocuments_pooled (few : keys.length < 4294967296) :
    fetchDocuments errno counter fields cache true keys =
      if Transferable (keys.map fun key => (cache.document key).size) keys.toFinset.card then
        some (0, (keys.map cache.document).take keys.toFinset.card)
      else none := by
  have hc : consumeGetEvent cache true keys =
      some ⟨0, keys.toFinset.card, concatenated (keys.map cache.document)⟩ :=
    congrArg (Option.map _) (writeDocuments_apply _ _)
  have arrives := exchange_answer_little errno multiGetLastOutput counter (errField 0) fields
    (by rw [length_toBytes]; decide : (toBytes 4 keys.toFinset.card).length < 4294967296)
    (concatenated (keys.map cache.document))
  have delivered : deliver errno multiGetLastOutput counter (errField 0)
      (buildPack .little fields (toBytes 4 keys.toFinset.card)
        (concatenated (keys.map cache.document))) = some _ := congrArg (Option.bind · _) arrives
  have read : ((part ((concatenated (keys.map cache.document)).take
      ((concatenated (keys.map cache.document)).length % 4294967296))).bind fun data =>
        (readMany readCDataWrapper keys.toFinset.card (attach data)).map Prod.fst) = _ :=
    readMany_transferred delimited_readCDataWrapper (fun _ _ => trivial) keys.toFinset.card
  have docs : (keys.map cache.document).map (fun document => document.bytes.length) =
      keys.map fun key => (cache.document key).size := map_map
  rw [docs] at read
  rw [fetchDocuments, hc, bind_some, answerMultiGet, if_pos rfl, delivered,
    bind_some, receiveMultiGet_packOf rfl ((toFinset_card_le keys).trans_lt few)]
  refine Eq.trans ?_ ((congrArg (Option.map fun docs => ((0 : Int), docs)) read).trans
    (apply_ite ..))
  rw [Option.map_bind]
  refine congrArg _ (funext fun data => ?_)
  exact (Option.map_map ..).symm

theorem nodup_iff_card_toFinset [DecidableEq α] {l : List α} :
    l.Nodup ↔ l.toFinset.card = l.length :=
  (@Multiset.toFinset_card_eq_card_iff_nodup α _ l).symm

theorem take_map_cut (few : keys.length % 65536 = keys.length) :
    (keys.map cut).take (keys.length % 65536) = keys.map cut := by
  rw [few, ← length_map, take_length]

/-- The documents that are read are those of the keys exactly if all keys are counted and none of
them is repeated. -/
theorem documents_eq_iff :
    (((keys.map cut).take (keys.length % 65536)).map cache.document).take
        ((keys.map cut).take (keys.length % 65536)).toFinset.card = keys.map cache.document ↔
      keys.length < 65536 ∧ (keys.map cut).Nodup ∧
        ∀ key ∈ keys, cache.document (cut key) = cache.document key := by
  constructor
  · intro equal
    have length := congrArg List.length equal
    have card := toFinset_card_le ((keys.map cut).take (keys.length % 65536))
    simp only [length_take, length_map] at length card
    rw [take_map_cut (by omega)] at equal length card
    refine ⟨by omega, nodup_iff_card_toFinset.mpr (by rw [length_map]; omega), ?_⟩
    rw [take_of_length_le (by simp only [length_map]; omega), map_map] at equal
    exact map_inj_left.mp equal
  · rintro ⟨few, hd, uncut⟩
    rw [take_map_cut (Nat.mod_eq_of_lt few), nodup_iff_card_toFinset.mp hd, map_map,
      take_of_length_le (by simp)]
    exact map_congr_left uncut

theorem answerFaithfulTo_iff :
    AnswerFaithfulTo cache keys ↔
      Transferable (((keys.map cut).take (keys.length % 65536)).map fun key =>
          (cache.document key).size) ((keys.map cut).take (keys.length % 65536)).toFinset.card ∧
        (((keys.map cut).take (keys.length % 65536)).map cache.document).take
          ((keys.map cut).take (keys.length % 65536)).toFinset.card = keys.map cache.document := by
  have sizes (few : keys.length < 65536) (hd : (keys.map cut).Nodup)
      (uncut : ∀ key ∈ keys, cache.document (cut key) = cache.document key) :
      Transferable (((keys.map cut).take (keys.length % 65536)).map fun key =>
          (cache.document key).size) ((keys.map cut).take (keys.length % 65536)).toFinset.card ↔
        Transferable (keys.map fun key => (cache.document key).size) keys.length := by
    have same : keys.map ((fun key => (cache.document key).size) ∘ cut) = _ :=
      map_congr_left fun key hm => congrArg Document.size (uncut key hm)
    rw [take_map_cut (Nat.mod_eq_of_lt few), nodup_iff_card_toFinset.mp hd, map_map, length_map,
      same]
  rw [documents_eq_iff]
  constructor
  · rintro ⟨few, hd, uncut, hr⟩
    exact ⟨(sizes few hd uncut).mpr hr, few, hd, uncut⟩
  · rintro ⟨hr, few, hd, uncut⟩
    exact ⟨few, hd, uncut, (sizes few hd uncut).mp hr⟩

/-- The calls with an answer for each key. A driver without a connection makes the call fail with
an error. -/
theorem requestLastOutputData_answers_iff (nonempty : keys ≠ []) (clean : ∀ key ∈ keys, 0 ∉ key) :
    Answers cache keys (requestLastOutputData errno counter fields cache pooled keys) ↔
      RequestReadable keys ∧ (pooled = false ∨ AnswerFaithfulTo cache keys) := by
  rw [requestLastOutputData, if_neg (mt length_eq_zero_iff.mp nonempty), requestedKeys_eq clean]
  by_cases hr : RequestReadable keys
  · rw [if_pos hr, bind_some]
    cases pooled with
    | false =>
      rw [fetchDocuments_unpooled]
      exact iff_of_true ⟨-1, [], rfl, fun zero => absurd zero (by decide)⟩ ⟨hr, .inl rfl⟩
    | true =>
      have few : ((keys.map cut).take (keys.length % 65536)).length < 4294967296 := by
        rw [length_take]
        omega
      rw [fetchDocuments_pooled few, answerFaithfulTo_iff]
      split
      next transferable =>
        constructor
        · rintro ⟨_, _, ⟨⟩, right⟩
          exact ⟨hr, .inr ⟨transferable, right rfl⟩⟩
        · rintro ⟨-, unpooled | ⟨-, right⟩⟩
          · exact nomatch unpooled
          · exact ⟨0, _, rfl, fun _ => right⟩
      next transferable =>
        refine iff_of_false (fun ⟨_, _, done, _⟩ => nomatch done) ?_
        rintro ⟨-, unpooled | ⟨hh, -⟩⟩
        · exact nomatch unpooled
        · exact transferable hh
  · rw [if_neg hr]
    exact iff_of_false (fun ⟨_, _, done, _⟩ => nomatch done) fun hh => hr hh.1

/-- Two keys with cached documents, the empty key among them. -/
def twoKeys : Cache := fun key =>
  if key = [97] then some (flagDocument 1) else if key = [] then some (flagDocument 0) else none

theorem twoKeys_answered :
    Answers twoKeys [[97], [], [98]]
      (requestLastOutputData 0 7 datasetFields twoKeys true [[97], [], [98]]) := by
  refine (requestLastOutputData_answers_iff (by decide) (by decide)).mpr ⟨by decide, .inr ?_⟩
  exact ⟨by decide, by decide, by decide, by decide⟩

/-- A key that is repeated costs the last document. -/
theorem repeated_key_loses_document :
    requestLastOutputData 0 7 datasetFields twoKeys true [[97], [97], []] =
      some (0, [flagDocument 1, flagDocument 1]) := by
  decide +kernel

end Requests

end ChaosFramework.DirectIO
