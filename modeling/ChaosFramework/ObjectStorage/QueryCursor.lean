import ChaosFramework.ObjectStorage.Timestamps
import Mathlib.Data.List.TakeWhile

/-!
# The query cursor

`QueryCursor` reads the records of a query page by page. It resumes behind the sequence that came
with the last page, with the sequence number increased by one, and ends with the first page
that is not full. What it has still to deliver is always the end of the list of
all matching records in their order.
-/

namespace ChaosFramework.ObjectStorage

open Bytes DirectIO SortedList List Option

/-! ### One exchange with the server -/

/-- What an exchange depends on besides the query. -/
structure Link where
  errno : Int
  counter : Fin 65536
  fields : DispatcherHeader

/-- `DeviceChannelOpcodeQueryDataCloud`. -/
def queryDataCloudOpcode : Byte := 4

/-- The query that the server reads. The key ends with its first null character. -/
def Query.received (query : Query) : Query :=
  { query with key := query.key.takeWhile fun byte => byte ≠ 0 }

/-- The server channel. Its error stays `-1` without a key and after an exception. -/
def consumeQuery (fields : DispatcherHeader) (records : List Record) (query : Query)
    (last : SearchSequence) : Int × DataPack :=
  if query.key ≠ [] then
    match findObject records query last with
    | some (page, last) => (0, answerQuery fields (page.map DataObject.document) last)
    | none => (-1, buildPack .little fields [] [])
  else (-1, buildPack .little fields [] [])

/-- `queryDataCloud`, with an empty page. The result is the error, the page and the sequence. -/
def queryPage (link : Link) (records : List Record) (query : Query) (last : SearchSequence) :
    Option (Int × List Document × SearchSequence) :=
  let consumed := consumeQuery link.fields records query.received last
  (deliver link.errno queryDataCloudOpcode link.counter (errField consumed.1) consumed.2).bind
    fun answer =>
      if answer.err ≠ 0 then some (answer.err, [], last)
      else (queryDataCloud answer []).map fun found => (0, found)

/-! ### The cursor -/

/-- `QueryPhase`. -/
inductive Phase
  | notStarted | started | ended
  deriving DecidableEq, Repr

structure Cursor where
  phase : Phase
  currentFetched : ℕ
  lastRecordFoundSeq : SearchSequence
  foundElementPage : List Document
  deriving DecidableEq

namespace Cursor

def init : Cursor := ⟨.notStarted, 0, ⟨0, 0⟩, []⟩

/-- `ResultPage::hasNext`. -/
def pageHasNext (cursor : Cursor) : Bool :=
  cursor.currentFetched < cursor.foundElementPage.length

section Fetching

variable (link : Link) (records : List Record) (query : Query) (cursor : Cursor)

def fetchData : Option (Int × Cursor) :=
  (queryPage link records query cursor.lastRecordFoundSeq).map fun (err, page, last) =>
    if err ≠ 0 then
      (err, { cursor with phase := .ended, lastRecordFoundSeq := last, foundElementPage := page })
    else
      (0,
        { phase := if page.length < query.pageLen then .ended else cursor.phase
          currentFetched := 0
          lastRecordFoundSeq := last
          foundElementPage := page })

def fetchNewPage : Option (Int × Cursor) :=
  match cursor.phase with
  | .notStarted =>
      fetchData link records query { cursor with phase := .started, foundElementPage := [] }
  | .started =>
      fetchData link records query
        { cursor with
          -- the query asks for this sequence number or a larger one
          lastRecordFoundSeq := ⟨cursor.lastRecordFoundSeq.runId,
            cursor.lastRecordFoundSeq.datapackCounter + 1⟩
          foundElementPage := [] }
  | .ended => some (0, { cursor with foundElementPage := [] })

def hasNext : Option (Bool × Cursor) :=
  if cursor.phase = .ended ∨ cursor.pageHasNext then some (cursor.pageHasNext, cursor)
  else
    (fetchNewPage link records query cursor).map fun (err, cursor) =>
      (err = 0 ∧ cursor.pageHasNext, cursor)

end Fetching

/-- `next`. No result is an exception. -/
def next (cursor : Cursor) : Option (Document × Cursor) :=
  cursor.foundElementPage[cursor.currentFetched]?.map fun document =>
    (document, { cursor with currentFetched := cursor.currentFetched + 1 })

end Cursor

/-- The calls of `hasNext` and `next` deliver these documents, and then `hasNext` is false. -/
def Enumerates (records : List Record) (query : Query) : List Document → Cursor → Prop
  | [], cursor => ∀ link, ∃ cursor', cursor.hasNext link records query = some (false, cursor')
  | document :: documents, cursor =>
      ∀ link, ∃ cursor' cursor'', cursor.hasNext link records query = some (true, cursor') ∧
        cursor'.next = some (document, cursor'') ∧ Enumerates records query documents cursor''

/-! ### Matching records -/

namespace Query

variable (query : Query)

/-- The record has the key and the tags of the query, and its time is between the two times. -/
def Matches (record : Record) : Prop :=
  record.deviceId = query.key ∧
    (min query.timestampFrom.toNat query.timestampTo.toNat ≤ record.timestamp.toNat ∧
      record.timestamp.toNat ≤ max query.timestampFrom.toNat query.timestampTo.toNat) ∧
    query.metaTags ⊆ record.datasetTags

instance (record : Record) : Decidable (query.Matches record) :=
  inferInstanceAs (Decidable (_ ∧ _ ∧ _))

/-- The matching records, in increasing order of their run and sequence number. -/
def inOrder (records : List Record) : List Record :=
  sortOn (fun record => position record.sequence)
    (records.filter fun record => query.Matches record)

end Query

/-- What the cursor needs of the records and of the query. -/
structure Searchable (collection : Collection) (query : Query) : Prop where
  distinct : (collection.records.map fun record => position record.sequence).Nodup
  nonnegative : ∀ record ∈ collection.records,
    0 ≤ record.sequence.runId.toInt ∧ 0 ≤ record.sequence.datapackCounter.toInt
  bounded : ∀ record ∈ collection.records,
    record.sequence.datapackCounter.toInt < 9223372036854775807
  page : 1 ≤ query.pageLen
  key : query.key ≠ []
  terminated : 0 ∉ query.key
  window : query.timestampFrom.toNat < 9223372036854775808 ∧
    query.timestampTo.toNat < 9223372036854775808
  /-- The dataset has the run and the sequence number with the type `int64`, as they are stored. -/
  typed : ∀ record ∈ collection.records, query.Matches record →
    record.data.sequence = some record.sequence
  /-- The direct I/O counts the bytes of a page with 32 bits. -/
  delivered : ∀ n, totalSize ((((query.inOrder collection.records).drop (n * query.pageLen)).take
    query.pageLen).map fun record => record.data.document) < 4294967296

section Order

variable {records front back : List Record} {record : Record} {query : Query}
  {last : SearchSequence} {coll : Collection}

theorem toNat_tStart : query.tStart.toNat =
    min query.timestampFrom.toNat query.timestampTo.toNat := by
  rw [Query.tStart]
  split
  next swapped => exact (min_eq_right (BitVec.lt_def.mp swapped).le).symm
  next ordered => exact (min_eq_left (not_lt.mp (mt BitVec.lt_def.mpr ordered))).symm

theorem toNat_tStop : query.tStop.toNat =
    max query.timestampFrom.toNat query.timestampTo.toNat := by
  rw [Query.tStop]
  split
  next swapped => exact (max_eq_left (BitVec.lt_def.mp swapped).le).symm
  next ordered => exact (max_eq_right (not_lt.mp (mt BitVec.lt_def.mpr ordered))).symm

/-- The dates of a window that does not reach the sign bit are compared as its times are. -/
theorem selects_iff (from63 : query.timestampFrom.toNat < 9223372036854775808)
    (to63 : query.timestampTo.toNat < 9223372036854775808) :
    query.Selects record ↔ query.Matches record := by
  rw [Query.Selects, Query.Matches, ← toNat_tStart, ← toNat_tStop]
  have start : query.tStart.toNat < 9223372036854775808 := by
    rw [toNat_tStart]
    omega
  have stop : query.tStop.toNat < 9223372036854775808 := by
    rw [toNat_tStop]
    omega
  have inside : (query.tStart.toInt ≤ record.timestamp.toInt ∧
        record.timestamp.toInt ≤ query.tStop.toInt) ↔
      query.tStart.toNat ≤ record.timestamp.toNat ∧ record.timestamp.toNat ≤ query.tStop.toNat := by
    rw [BitVec.toInt_eq_toNat_cond, BitVec.toInt_eq_toNat_cond, BitVec.toInt_eq_toNat_cond]
    omega
  rw [inside]

theorem toInt_succ {n : BitVec 64} (hb : n.toInt < 9223372036854775807) :
    (n + 1).toInt = n.toInt + 1 := by
  have lower := BitVec.le_toInt n
  rw [BitVec.toInt_add]
  exact Int.bmod_eq_of_le (by simp; omega) (by simp; omega)

/-- A page that starts with the next sequence number has the records behind the last one. -/
theorem follows_succ_iff {seq : SearchSequence}
    (hb : seq.datapackCounter.toInt < 9223372036854775807) :
    Query.Follows ⟨seq.runId, seq.datapackCounter + 1⟩ record ↔
      position seq < position record.sequence := by
  rw [Query.Follows, position, position, Prod.Lex.toLex_lt_toLex, BitVec.toInt_inj.symm,
    toInt_succ hb]
  dsimp only
  omega

theorem mem_inOrder : record ∈ query.inOrder records ↔ record ∈ records ∧ query.Matches record := by
  rw [Query.inOrder, mem_sortOn, mem_filter, decide_eq_true_iff]

namespace Searchable

variable (hs : Searchable coll query)

include hs

theorem increasing :
    Increasing (fun record => position record.sequence) (query.inOrder coll.records) :=
  increasing_sortOn (hs.distinct.sublist (filter_sublist.map _))

/-- The server filters the matching records in their order. -/
theorem found_eq (last : SearchSequence) :
    query.found coll.records last =
      ((query.inOrder coll.records).filter fun record => Query.Follows last record).take
        query.pageLen := by
  have matching : query.matching coll.records last =
      (coll.records.filter query.Matches).filter (Query.Follows last) := by
    rw [List.filter_filter]
    refine filter_congr fun record _ => ?_
    rw [Bool.decide_and, Bool.and_comm, decide_eq_decide.mpr (selects_iff hs.window.1 hs.window.2)]
  have positive := hs.page
  rw [Query.found, if_neg (by omega), matching, Query.inOrder, sortOn_filter]
  exact hs.distinct.sublist (filter_sublist.map _)

theorem found_first :
    query.found coll.records ⟨0, 0⟩ = (query.inOrder coll.records).take query.pageLen := by
  rw [hs.found_eq, filter_eq_self.mpr]
  intro record hm
  obtain ⟨run, hc⟩ := hs.nonnegative record (mem_inOrder.mp hm).1
  rw [decide_eq_true_iff, follows_iff, position, position, Prod.Lex.toLex_le_toLex]
  change 0 < record.sequence.runId.toInt ∨
    0 = record.sequence.runId.toInt ∧ 0 ≤ record.sequence.datapackCounter.toInt
  omega

theorem found_next (split : query.inOrder coll.records = front ++ record :: back) :
    query.found coll.records ⟨record.sequence.runId, record.sequence.datapackCounter + 1⟩ =
      back.take query.pageLen := by
  have hm : record ∈ query.inOrder coll.records := by
    rw [split]
    exact mem_append_right _ (mem_cons_self ..)
  -- the sequence number can be increased without an overflow
  have bounded := hs.bounded record (mem_inOrder.mp hm).1
  have increasing := hs.increasing
  rw [hs.found_eq, split]
  simp only [follows_succ_iff bounded]
  rw [split] at increasing
  rw [increasing.filter_lt]

end Searchable

end Order

/-! ### The pages -/

section Pages

variable {front page back rest : List Record} {record : Record} {query : Query} {link : Link}
  {last : SearchSequence} {coll : Collection} {cursor : Cursor} {n k : ℕ} {phase : Phase}

/-- The records that a cursor has not delivered yet. -/
inductive Remains (collection : Collection) (query : Query) : Cursor → List Record → Prop
  | notStarted : Remains collection query .init (query.inOrder collection.records)
  /-- A full page, up to the record, follows the pages before it. -/
  | started {front page back : List Record} {record : Record} {n : ℕ} (k : ℕ)
      (split : query.inOrder collection.records = front ++ page ++ record :: back)
      (pages : (front ++ page ++ [record]).length = n * query.pageLen) :
      Remains collection query
        ⟨.started, k, record.sequence, (page ++ [record]).map fun record => record.data.document⟩
        ((page ++ [record]).drop k ++ back)
  | ended (page : List Record) (k : ℕ) (last : SearchSequence) :
      Remains collection query
        ⟨.ended, k, last, page.map fun record => record.data.document⟩ (page.drop k)

theorem received_eq (ht : 0 ∉ query.key) : query.received = query := by
  have whole : query.key.takeWhile (fun byte => decide (byte ≠ 0)) = query.key :=
    takeWhile_eq_self_iff.mpr fun byte hm =>
      decide_eq_true (ne_of_mem_of_not_mem hm ht)
  rw [Query.received, whole]

namespace Searchable

theorem findObject_eq (hs : Searchable coll query)
    (matching : ∀ record ∈ page, record ∈ coll.records ∧ query.Matches record)
    (hf : query.found coll.records last = page) :
    findObject coll.records query last =
      some (page.map Record.data, (page.map Record.sequence).getLastD last) := by
  have ht {record : Record} (hm : record ∈ page) : record.data.sequence = some record.sequence :=
    hs.typed record (matching record hm).1 (matching record hm).2
  have some : (findObject coll.records query last).isSome := by
    rw [findObject, collect_isSome_iff, hf]
    intro record hm
    rw [ht hm, isSome_some]
  obtain ⟨⟨objects, seq⟩, result⟩ := isSome_iff_exists.mp some
  obtain ⟨pages, lasts⟩ := collect_eq
    (fun record hm => coll.elements_ne_nil (mem_of_mem_found hm)) result
  have sequences : (page.map fun record => record.data.sequence) =
      (page.map Record.sequence).map Option.some := by
    rw [List.map_map]
    exact map_congr_left fun record hm => ht hm
  rw [hf, nil_append] at pages
  rw [hf, sequences, getLastD_eq_getLast?, getLast?_map, Option.getD_map,
    some_inj, ← getLastD_eq_getLast?] at lasts
  rw [result, ← pages, ← lasts]

/-- The page that arrives is the one that was found. -/
theorem queryPage_eq (hs : Searchable coll query) (link : Link)
    (matching : ∀ record ∈ page, record ∈ coll.records ∧ query.Matches record)
    (small : totalSize (page.map fun record => record.data.document) < 4294967296)
    (found : query.found coll.records last = page) :
    queryPage link coll.records query last =
      some (0, page.map (fun record => record.data.document),
        (page.map Record.sequence).getLastD last) := by
  have hc : consumeQuery link.fields coll.records query last =
      (0, answerQuery link.fields (page.map fun record => record.data.document)
        ((page.map Record.sequence).getLastD last)) := by
    rw [consumeQuery, if_pos hs.key, hs.findObject_eq matching found]
    dsimp only
    rw [List.map_map]
    rfl
  obtain ⟨ans, ha, ok, -⟩ := deliver_answerQuery link.errno queryDataCloudOpcode
    link.counter link.fields (page.map fun record => record.data.document)
    ((page.map Record.sequence).getLastD last)
  have hd : (deliver link.errno queryDataCloudOpcode link.counter 0
      (answerQuery link.fields (page.map fun record => record.data.document)
        ((page.map Record.sequence).getLastD last))).bind (queryDataCloud · []) = some _ :=
    query_decoded small
  rw [ha] at hd
  rw [queryPage, received_eq hs.terminated, hc]
  exact (congrArg (Option.bind · _) ha).trans
    ((if_neg (not_not.mpr ok)).trans (congrArg (Option.map _) hd))

end Searchable

/-- The state after a page has arrived. -/
def Cursor.withPage (cursor : Cursor) (query : Query) (page : List Record) : Cursor where
  phase := if page.length < query.pageLen then .ended else cursor.phase
  currentFetched := 0
  lastRecordFoundSeq := (page.map Record.sequence).getLastD cursor.lastRecordFoundSeq
  foundElementPage := page.map fun record => record.data.document

/-- A fetched page leaves its records and those behind it. -/
theorem remains_withPage (split : query.inOrder coll.records = front ++ back)
    (pages : front.length = n * query.pageLen) (hp : 1 ≤ query.pageLen)
    (started : cursor.phase = .started) :
    Remains coll query (cursor.withPage query (back.take query.pageLen)) back := by
  rw [Cursor.withPage, started]
  by_cases short : back.length < query.pageLen
  · rw [take_of_length_le short.le, if_pos short]
    exact .ended back 0 _
  · -- the page is full, and its last record is where the next one starts
    have full : (back.take query.pageLen).length = query.pageLen := by
      rw [length_take]
      omega
    rw [if_neg (by omega)]
    have parts := take_append_drop query.pageLen back
    obtain ⟨page, record, page_eq⟩ := eq_nil_or_concat'
      (back.take query.pageLen) |>.resolve_left (ne_nil_of_length_pos (by omega))
    rw [page_eq, append_assoc, singleton_append] at parts
    rw [page_eq] at full
    have splitNext :
      query.inOrder coll.records = front ++ page ++ record :: back.drop query.pageLen := by
      rw [split, append_assoc, parts]
    have pagesNext : (front ++ page ++ [record]).length = (n + 1) * query.pageLen := by
      rw [append_assoc, length_append, pages, full, Nat.succ_mul]
    have remains := Remains.started 0 splitNext pagesNext
    rw [drop_zero, append_assoc, singleton_append, parts] at remains
    rw [page_eq, map_append, map_singleton, getLastD_concat]
    exact remains

theorem pageHasNext_withPage (hp : 1 ≤ query.pageLen) :
    (cursor.withPage query (back.take query.pageLen)).pageHasNext ↔ back ≠ [] := by
  rw [Cursor.pageHasNext, decide_eq_true_iff, ← length_pos_iff]
  change 0 < (List.map _ _).length ↔ _
  rw [length_map, length_take]
  omega

/-- The fetched page is what the query finds. -/
theorem Searchable.fetchData_eq (hs : Searchable coll query) (link : Link)
    (split : query.inOrder coll.records = front ++ back)
    (pages : front.length = n * query.pageLen)
    (hf : query.found coll.records cursor.lastRecordFoundSeq = back.take query.pageLen) :
    cursor.fetchData link coll.records query =
      some (0, cursor.withPage query (back.take query.pageLen)) := by
  have small : totalSize ((back.take query.pageLen).map fun record => record.data.document) <
      4294967296 := by
    have hd := hs.delivered n
    rwa [split, ← pages, drop_left] at hd
  have matching : ∀ record ∈ back.take query.pageLen,
      record ∈ coll.records ∧ query.Matches record := by
    intro record hm
    rw [← mem_inOrder, split]
    exact mem_append_right _ (mem_of_mem_take hm)
  rw [Cursor.fetchData, hs.queryPage_eq link matching small hf,
    Cursor.withPage, ← length_map fun record : Record => record.data.document]
  rfl

/-- An exhausted page is replaced by the next one. The given cursor is the one that fetches. -/
theorem Searchable.hasNext_fetched (hs : Searchable coll query) (link : Link)
    (fetching : Cursor) (split : query.inOrder coll.records = front ++ back)
    (pages : front.length = n * query.pageLen)
    (hf : query.found coll.records fetching.lastRecordFoundSeq = back.take query.pageLen)
    (started : fetching.phase = .started) (hn : cursor.phase ≠ .ended)
    (he : ¬ cursor.pageHasNext)
    (fetches : cursor.fetchNewPage link coll.records query =
      fetching.fetchData link coll.records query) :
    ∃ cursor', cursor.hasNext link coll.records query = some (cursor'.pageHasNext, cursor') ∧
      Remains coll query cursor' back ∧ (cursor'.pageHasNext ↔ back ≠ []) := by
  refine ⟨fetching.withPage query (back.take query.pageLen), ?_,
    remains_withPage split pages hs.page started, pageHasNext_withPage hs.page⟩
  rw [Cursor.hasNext, if_neg (not_or.mpr ⟨hn, he⟩), fetches, hs.fetchData_eq link split pages hf]
  simp

theorem pageHasNext_iff :
    Cursor.pageHasNext ⟨phase, k, last, page.map fun record => record.data.document⟩ ↔
      page.drop k ≠ [] := by
  rw [Cursor.pageHasNext, decide_eq_true_iff, length_map, ← length_pos_iff, length_drop]
  exact Nat.sub_pos_iff_lt.symm

/-- `hasNext` says whether something remains, and changes nothing of it. -/
theorem Searchable.hasNext_eq (hs : Searchable coll query)
    (hr : Remains coll query cursor rest) (link : Link) :
    ∃ cursor', cursor.hasNext link coll.records query = some (cursor'.pageHasNext, cursor') ∧
      Remains coll query cursor' rest ∧ (cursor'.pageHasNext ↔ rest ≠ []) := by
  cases hr with
  | notStarted =>
    exact hs.hasNext_fetched link ⟨.started, 0, ⟨0, 0⟩, []⟩
      (nil_append _).symm (Nat.zero_mul _).symm hs.found_first rfl nofun nofun rfl
  | @started front page back record n k split pages =>
    by_cases hh : (page ++ [record]).drop k = []
    · -- the page is exhausted, and the next one starts behind its last record
      rw [hh]
      have splitNext : query.inOrder coll.records = front ++ page ++ [record] ++ back := by
        rw [split, append_assoc _ [record], singleton_append]
      exact hs.hasNext_fetched link
        ⟨.started, k, ⟨record.sequence.runId, record.sequence.datapackCounter + 1⟩, []⟩ splitNext
        pages (hs.found_next split) rfl nofun (mt pageHasNext_iff.mp (not_not.mpr hh)) rfl
    · refine ⟨_, if_pos (.inr (pageHasNext_iff.mpr hh)), .started k split pages, ?_⟩
      exact iff_of_true (pageHasNext_iff.mpr hh) (append_ne_nil_of_left_ne_nil hh _)
  | ended page k last =>
    exact ⟨_, if_pos (.inl rfl), .ended page k last, pageHasNext_iff⟩

theorem next_eq (left : page.drop k = record :: rest) :
    Cursor.next ⟨phase, k, last, page.map fun record => record.data.document⟩ =
        some (record.data.document,
          ⟨phase, k + 1, last, page.map fun record => record.data.document⟩) ∧
      page.drop (k + 1) = rest := by
  have hh : page[k]? = some record := by
    rw [← Nat.add_zero k, ← getElem?_drop, left, getElem?_cons_zero]
  constructor
  · rw [Cursor.next, getElem?_map, hh]
    rfl
  · rw [← drop_drop, left, drop_one, tail_cons]

theorem Remains.next {all : List Record} (hr : Remains coll query cursor all)
    (hh : cursor.pageHasNext) (first : all = record :: rest) :
    ∃ cursor', cursor.next = some (record.data.document, cursor') ∧
      Remains coll query cursor' rest := by
  cases hr with
  | notStarted => exact nomatch hh
  | @started front page back last n k split pages =>
    obtain ⟨head, left, drops⟩ := exists_cons_of_ne_nil (pageHasNext_iff.mp hh)
    rw [drops] at first
    obtain ⟨rfl, rfl⟩ := List.cons.inj first
    obtain ⟨hd, rfl⟩ := next_eq drops
    exact ⟨_, hd, .started (k + 1) split pages⟩
  | ended page k last =>
    obtain ⟨hd, rfl⟩ := next_eq first
    exact ⟨_, hd, .ended page (k + 1) last⟩

theorem Searchable.enumerates_of_remains (hs : Searchable coll query)
    (hr : Remains coll query cursor rest) :
    Enumerates coll.records query (rest.map fun record => record.data.document) cursor := by
  -- on what remains: each round is one call of `hasNext` and one of `next`
  induction rest generalizing cursor with
  | nil =>
    intro link
    obtain ⟨cursor', has, -, empty⟩ := hs.hasNext_eq hr link
    have none : cursor'.pageHasNext = false := by
      rw [← Bool.not_eq_true, empty]
      exact not_not.mpr rfl
    rw [none] at has
    exact ⟨cursor', has⟩
  | cons record rest ih =>
    intro link
    obtain ⟨cursor', has, remains', nonempty⟩ := hs.hasNext_eq hr link
    have some := nonempty.mpr (cons_ne_nil _ _)
    obtain ⟨cursor'', hd, remains''⟩ := remains'.next some rfl
    rw [some] at has
    exact ⟨cursor', cursor'', has, hd, ih remains''⟩

/-- The cursor enumerates the matching records, each of them once, in increasing order. -/
theorem cursor_enumerates (collection : Collection) (query : Query)
    (hs : Searchable collection query) :
    (query.inOrder collection.records).Perm
        (collection.records.filter fun record => query.Matches record) ∧
      Increasing (fun record => position record.sequence) (query.inOrder collection.records) ∧
      Enumerates collection.records query
        ((query.inOrder collection.records).map fun record => record.data.document) .init :=
  ⟨sortOn_perm _ _, hs.increasing, hs.enumerates_of_remains .notStarted⟩

end Pages

/-- Two datasets, which were stored in the order of their sequence numbers reversed. -/
def reversedCollection : Collection where
  records := [datasetRecord 1 768 [107] (.int64 1) 2, datasetRecord 0 1024 [107] (.int64 1) 1]
  pushed := by
    intro record member
    rcases List.mem_pair.mp member with rfl | rfl
    · exact ⟨1, 768, [107], ∅, datasetObject (.int64 1) 2, rfl⟩
    · exact ⟨0, 1024, [107], ∅, datasetObject (.int64 1) 1, rfl⟩
  unique := by decide

theorem searchable_reversed : Searchable reversedCollection ⟨[107], ∅, 0, 2000, 1⟩ where
  distinct := by decide
  nonnegative := by decide
  bounded := by decide
  page := by decide
  key := by decide
  terminated := by decide
  window := by decide
  typed := by decide
  delivered
    | 0 => by decide
    | 1 => by decide
    | n + 2 => by
        rw [drop_of_length_le]
        · decide
        · change 2 ≤ (n + 2) * 1
          omega

/-- The pages of one record deliver the two datasets in their order. -/
theorem cursor_enumerates_reversed :
    Enumerates reversedCollection.records ⟨[107], ∅, 0, 2000, 1⟩ [flagDocument 1, flagDocument 2]
      .init :=
  (cursor_enumerates reversedCollection ⟨[107], ∅, 0, 2000, 1⟩ searchable_reversed).2.2

/-- Records that the cursor does not deliver: one with an empty key, one whose key the server cuts,
one of a run whose type is `int32`, and one in a window that ends with a negative date. -/
theorem matching_not_enumerated :
    [(datasetRecord 0 1024 [] (.int64 1) 1, Query.mk [] ∅ 0 2000 10),
      (datasetRecord 0 1024 [107, 0] (.int64 1) 1, ⟨[107, 0], ∅, 0, 2000, 10⟩),
      (datasetRecord 0 1024 [107] (.int32 1) 1, ⟨[107], ∅, 0, 2000, 10⟩),
      (datasetRecord 0 1024 [107] (.int64 1) 1, ⟨[107], ∅, 0, 9223372036854775808, 10⟩)].all
      fun (record, query) =>
        pushObject 0 1024 query.key ∅ record.data = .ok record ∧ query.Matches record ∧
          (Cursor.init.hasNext ⟨0, 0, datasetFields⟩ [record] query).map Prod.fst =
            some false := by
  decide

end ChaosFramework.ObjectStorage
