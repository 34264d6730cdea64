import ChaosFramework.ObjectStorage.QueryCursor

/-!
# The cursor over an index

`QueryIndexCursor` gets pages of indexes and asks for the record of each of them. The base class
decides from the records of a page and from the last error whether the query has ended: a page that
lost a record to an error is not full any more, and an error of the last index hides the whole page.
An index without a record repeats the record before it.
-/

namespace ChaosFramework.ObjectStorage

open List Option

variable {ρ : Type*}

/-- What the server answers for an index. -/
structure IndexAnswer (ρ : Type*) where
  err : Int
  record : Option ρ
  deriving DecidableEq, Repr

namespace IndexAnswer

/-- `getDataByIndex`, which writes the result only if there is one. A null pointer is `none`. -/
def getDataByIndex (answer : IndexAnswer ρ) (result : Option ρ) : Int × Option ρ :=
  if answer.err ≠ 0 then (answer.err, result) else (0, answer.record.or result)

def resolved (answer : IndexAnswer ρ) : Option ρ :=
  if answer.err = 0 then answer.record else none

theorem getDataByIndex_fst (answer : IndexAnswer ρ) (result : Option ρ) :
    (answer.getDataByIndex result).1 = answer.err := by
  unfold getDataByIndex
  split <;> simp_all

end IndexAnswer

/-- `QueryIndexCursor`, with the pages of indexes that the server has not sent yet. -/
structure IndexCursor (ρ : Type*) where
  phase : Phase
  currentFetched : ℕ
  foundElementPage : List (Option ρ)
  indexPages : List (List (IndexAnswer ρ))
  deriving DecidableEq, Repr

namespace IndexCursor

def init (indexPages : List (List (IndexAnswer ρ))) : IndexCursor ρ :=
  ⟨.notStarted, 0, [], indexPages⟩

def pageHasNext (cursor : IndexCursor ρ) : Bool :=
  cursor.currentFetched < cursor.foundElementPage.length

/-- The loop of `fetchData` over the indexes of a page. -/
def fetchIndexes : List (IndexAnswer ρ) → Option ρ → Int → List (Option ρ) →
    Int × List (Option ρ)
  | [], _, apiError, page => (apiError, page)
  | index :: rest, foundData, _, page =>
      let (apiError, foundData) := index.getDataByIndex foundData
      fetchIndexes rest foundData apiError (if apiError = 0 then page ++ [foundData] else page)

variable (pageLen : ℕ) (cursor : IndexCursor ρ)

/-- `fetchData`, when the server sends the next page. Behind the last one it sends an empty page. -/
def fetchData : Int × IndexCursor ρ :=
  let (apiError, page) := fetchIndexes (cursor.indexPages.headD []) none 0 []
  (apiError,
    { phase := if page.length < pageLen then .ended else cursor.phase
      currentFetched := 0
      foundElementPage := page
      indexPages := cursor.indexPages.tail })

def fetchNewPage : Int × IndexCursor ρ :=
  match cursor.phase with
  | .notStarted => fetchData pageLen { cursor with phase := .started, foundElementPage := [] }
  | .started => fetchData pageLen { cursor with foundElementPage := [] }
  | .ended => (0, { cursor with foundElementPage := [] })

def hasNext : Bool × IndexCursor ρ :=
  if cursor.phase = .ended ∨ cursor.pageHasNext then (cursor.pageHasNext, cursor)
  else
    let (err, cursor) := fetchNewPage pageLen cursor
    (err = 0 ∧ cursor.pageHasNext, cursor)

/-- `next`. No result is an exception. -/
def next : Option (Option ρ × IndexCursor ρ) :=
  cursor.foundElementPage[cursor.currentFetched]?.map fun record =>
    (record, { cursor with currentFetched := cursor.currentFetched + 1 })

/-- The calls of `hasNext` and `next` deliver these records, and when `hasNext` is false no page of
indexes is left. -/
def Delivers : List (Option ρ) → IndexCursor ρ → Prop
  | [], cursor => ∃ last, cursor.hasNext pageLen = (false, last) ∧ last.indexPages = []
  | record :: records, cursor =>
      ∃ fetched rest, cursor.hasNext pageLen = (true, fetched) ∧
        fetched.next = some (record, rest) ∧ Delivers records rest

/-- The error that is left by a page. -/
def lastError (page : List (IndexAnswer ρ)) : Int := (page.map (·.err)).getLastD 0

/-- Every index without an error has a record, the last one of a page has no error, and the errors
of a page leave it full unless it is the last one. A last page without records may end in an
error. -/
def Readable : List (List (IndexAnswer ρ)) → Prop
  | [] => True
  | page :: pages =>
      lastError page = 0 ∧ (∀ index ∈ page, index.err = 0 → index.record.isSome) ∧
          (pages ≠ [] → page ≠ [] ∧ pageLen ≤ (page.filterMap (·.resolved)).length) ∧
          Readable pages ∨
        lastError page ≠ 0 ∧ page.filterMap (·.resolved) = [] ∧ pages = []

variable {pageLen} {cursor} {page : List (IndexAnswer ρ)} {pages : List (List (IndexAnswer ρ))}
  {foundData : Option ρ} {apiError : Int} {found records : List (Option ρ)}

/-! ### A page of indexes -/

theorem fetchIndexes_fst : (fetchIndexes page foundData apiError found).1 =
    (page.map (·.err)).getLastD apiError := by
  induction page generalizing foundData apiError found with
  | nil => rfl
  | cons ix page ih =>
    rw [fetchIndexes, map_cons, getLastD_cons, ← ix.getDataByIndex_fst foundData]
    exact ih

/-- Without an empty answer the loop collects the records that were resolved. -/
theorem fetchIndexes_snd (answered : ∀ ix ∈ page, ix.err = 0 → ix.record.isSome) :
    (fetchIndexes page foundData apiError found).2 =
      found ++ (page.filterMap (·.resolved)).map some := by
  induction page generalizing foundData apiError found with
  | nil => simp [fetchIndexes]
  | cons ix page ih =>
    obtain ⟨first, answered⟩ := forall_mem_cons.mp answered
    rw [fetchIndexes]
    by_cases fine : ix.err = 0
    · obtain ⟨record, known⟩ := isSome_iff_exists.mp (first fine)
      simp [IndexAnswer.getDataByIndex, IndexAnswer.resolved, fine, known, ih answered]
    · simp [IndexAnswer.getDataByIndex, IndexAnswer.resolved, fine, ih answered]

theorem isPrefix_fetchIndexes : found <+: (fetchIndexes page foundData apiError found).2 := by
  induction page generalizing foundData apiError found with
  | nil => exact prefix_refl _
  | cons ix page ih =>
    rw [fetchIndexes]
    dsimp only
    split
    · exact (prefix_append ..).trans ih
    · exact ih

/-- An empty answer shows: the loop repeats a record, or adds a null pointer. -/
theorem answered_of_nodup (last : ∀ record ∈ foundData, some record ∈ found)
    (nodup : (fetchIndexes page foundData apiError found).2.Nodup)
    (null : none ∉ (fetchIndexes page foundData apiError found).2) :
    ∀ ix ∈ page, ix.err = 0 → ix.record.isSome := by
  induction page generalizing foundData apiError found with
  | nil => nofun
  | cons ix page ih =>
    rw [fetchIndexes, IndexAnswer.getDataByIndex] at nodup null
    by_cases fine : ix.err = 0
    · simp only [fine, ne_eq, not_true_eq_false, if_false, if_true] at nodup null
      cases known : ix.record with
      | some record =>
        rw [known, some_or] at nodup null
        exact forall_mem_cons.mpr ⟨fun _ => by rw [known]; rfl, ih (by simp) nodup null⟩
      | none =>
        rw [known, none_or] at nodup null
        cases foundData with
        | none => exact absurd (isPrefix_fetchIndexes.mem (by simp)) null
        | some record =>
          have twice := isPrefix_fetchIndexes.sublist.nodup nodup
          rw [← concat_eq_append, nodup_concat] at twice
          exact absurd (last record rfl) twice.1
    · simp only [ne_eq, fine, not_false_eq_true, if_true, if_false] at nodup null
      exact forall_mem_cons.mpr ⟨fun here => absurd here fine, ih last nodup null⟩

/-- The last index adds to the page unless there is an error. -/
theorem fetchIndexes_ne_nil (some : page ≠ [])
    (fine : (page.map (·.err)).getLastD apiError = 0) :
    (fetchIndexes page foundData apiError found).2 ≠ [] := by
  induction page generalizing foundData apiError found with
  | nil => exact absurd rfl some
  | cons ix page ih =>
    rw [map_cons, getLastD_cons] at fine
    rw [fetchIndexes]
    cases page with
    | nil => simp_all [fetchIndexes, IndexAnswer.getDataByIndex]
    | cons next page =>
      refine ih (cons_ne_nil _ _) ?_
      rw [map_cons, getLastD_cons] at fine ⊢
      exact fine

/-! ### The calls -/

/-- The records of the page are delivered first. -/
theorem delivers_page {phase : Phase} {fetched : ℕ} {foundPage rest : List (Option ρ)}
    (left : foundPage.drop fetched = rest) :
    Delivers pageLen records ⟨phase, fetched, foundPage, pages⟩ ↔
      ∃ more, records = rest ++ more ∧
        Delivers pageLen more ⟨phase, fetched + rest.length, foundPage, pages⟩ := by
  induction rest generalizing fetched records with
  | nil => simp
  | cons record rest ih =>
    have inside : fetched < foundPage.length := by
      by_contra beyond
      rw [drop_eq_nil_of_le (Nat.le_of_not_lt beyond)] at left
      cases left
    rw [drop_eq_getElem_cons inside] at left
    obtain ⟨first, tail⟩ := cons.inj left
    have has : hasNext pageLen ⟨phase, fetched, foundPage, pages⟩ =
        (true, ⟨phase, fetched, foundPage, pages⟩) := by
      simp [hasNext, pageHasNext, inside]
    cases records with
    | nil => simp [Delivers, has]
    | cons other records =>
      have got : next ⟨phase, fetched, foundPage, pages⟩ =
          some (record, ⟨phase, fetched + 1, foundPage, pages⟩) := by
        rw [next, getElem?_eq_getElem inside, first]
        rfl
      have count : fetched + 1 + rest.length = fetched + (record :: rest).length := by
        rw [length_cons, Nat.add_assoc, Nat.add_comm 1]
      rw [← count]
      constructor
      · rintro ⟨_, _, same, taken, deliver⟩
        cases has.symm.trans same
        cases got.symm.trans taken
        obtain ⟨more, rfl, after⟩ := (ih tail).mp deliver
        exact ⟨more, rfl, after⟩
      · rintro ⟨more, same, after⟩
        obtain ⟨rfl, rfl⟩ := cons.inj same
        exact ⟨_, _, has, got, (ih tail).mpr ⟨more, rfl, after⟩⟩

theorem delivers_ended {fetched : ℕ} {foundPage : List (Option ρ)}
    (left : foundPage.length ≤ fetched) :
    Delivers pageLen records ⟨.ended, fetched, foundPage, pages⟩ ↔ records = [] ∧ pages = [] := by
  have has : hasNext pageLen ⟨.ended, fetched, foundPage, pages⟩ =
      (false, ⟨.ended, fetched, foundPage, pages⟩) := by
    simp [hasNext, pageHasNext, left]
  cases records <;> simp [Delivers, has]

/-- A running cursor goes on with the page that it fetches, if it has records and no error. -/
theorem delivers_fetch (running : cursor.phase ≠ .ended) (left : cursor.pageHasNext = false)
    {fetched : IndexCursor ρ} (got : cursor.fetchNewPage pageLen = (apiError, fetched)) :
    Delivers pageLen records cursor ↔
      if apiError = 0 ∧ fetched.pageHasNext then Delivers pageLen records fetched
      else records = [] ∧ fetched.indexPages = [] := by
  have has : cursor.hasNext pageLen = (decide (apiError = 0 ∧ fetched.pageHasNext), fetched) := by
    simp [hasNext, running, left, got]
  split
  next goes =>
    have again : fetched.hasNext pageLen = (true, fetched) := by simp [hasNext, goes.2]
    rw [decide_eq_true goes] at has
    cases records <;> simp only [Delivers, has, again]
  next ends =>
    rw [decide_eq_false ends] at has
    cases records <;> simp [Delivers, has]

theorem fetchNewPage_eq (running : cursor.phase ≠ .ended) :
    cursor.fetchNewPage pageLen =
      let page := (fetchIndexes (cursor.indexPages.headD []) none 0 []).2
      (lastError (cursor.indexPages.headD []),
        ⟨if page.length < pageLen then .ended else .started, 0, page, cursor.indexPages.tail⟩) := by
  have fetched : cursor.fetchNewPage pageLen =
      fetchData pageLen { cursor with phase := .started, foundElementPage := [] } := by
    unfold fetchNewPage
    split
    next => rfl
    next started => rw [started]
    next ended => exact absurd ended running
  rw [fetched, fetchData, lastError, ← fetchIndexes_fst]

/-- A page that is delivered has no empty answer: the records are told apart. -/
theorem answered_of_isPrefix {expected : List ρ} (fresh : expected.Nodup)
    (delivered : (fetchIndexes page none 0 []).2 <+: expected.map some) :
    ∀ ix ∈ page, ix.err = 0 → ix.record.isSome := by
  refine @answered_of_nodup _ page none 0 [] (by simp) ?_ fun null => ?_
  · exact delivered.sublist.nodup (fresh.map (some_injective ρ))
  · simpa using delivered.mem null

section Readable

variable (fine : lastError page = 0)

include fine

/-- The pages behind a page that is delivered are fetched unless it is short. -/
theorem readable_cons (some : page ≠ [])
    (answered : ∀ ix ∈ page, ix.err = 0 → ix.record.isSome) :
    Readable pageLen (page :: pages) ↔
      if (page.filterMap (·.resolved)).length < pageLen then pages = []
      else Readable pageLen pages := by
  rw [Readable, or_iff_left fun broken => broken.1 fine, and_iff_right fine,
    and_iff_right answered]
  split
  next short =>
    constructor
    · rintro ⟨last, -⟩
      exact by_contra fun more => Nat.not_le.mpr short (last more).2
    · rintro rfl
      exact ⟨absurd rfl, trivial⟩
  next long => exact and_iff_right fun _ => ⟨some, Nat.le_of_not_lt long⟩

/-- An empty page ends the calls. -/
theorem readable_nil_cons (empty : page = []) : Readable pageLen (page :: pages) ↔ pages = [] := by
  subst empty
  rw [Readable, or_iff_left fun broken => broken.1 fine]
  constructor
  · rintro ⟨-, -, last, -⟩
    exact by_contra fun more => (last more).1 rfl
  · rintro rfl
    exact ⟨fine, nofun, absurd rfl, trivial⟩

end Readable

theorem resolved_and_nil (pages : List (List (IndexAnswer ρ))) :
    (pages.flatten.filterMap (·.resolved)).map some = [] ∧ pages = [] ↔ pages = [] :=
  and_iff_right_of_imp (by rintro rfl; rfl)

/-- What a running cursor delivers that has come to the end of a page. -/
theorem delivers_iff_readable (running : cursor.phase ≠ .ended)
    (left : cursor.pageHasNext = false) (isPages : cursor.indexPages = pages)
    (fresh : (pages.flatten.filterMap (·.resolved)).Nodup) :
    Delivers pageLen ((pages.flatten.filterMap (·.resolved)).map some) cursor ↔
      Readable pageLen pages := by
  induction pages generalizing cursor with
  | nil =>
    rw [delivers_fetch running left (fetchNewPage_eq running), isPages]
    simp [pageHasNext, fetchIndexes, Readable]
  | cons page pages ih =>
    rw [delivers_fetch running left (fetchNewPage_eq running), isPages, headD_cons, tail_cons]
    rw [flatten_cons, filterMap_append] at fresh ⊢
    by_cases fine : lastError page = 0
    · by_cases empty : page = []
      · rw [if_neg (by simp [empty, pageHasNext, fetchIndexes]), readable_nil_cons fine empty,
          empty]
        exact resolved_and_nil pages
      have full := @fetchIndexes_ne_nil _ page none 0 [] empty fine
      rw [if_pos ⟨fine, by simpa [pageHasNext, length_pos_iff] using full⟩, delivers_page rfl]
      by_cases answered : ∀ ix ∈ page, ix.err = 0 → ix.record.isSome
      · simp only [@fetchIndexes_snd _ page none 0 [] answered, nil_append, drop_zero, map_append,
          append_cancel_left_eq, exists_eq_left', length_map, Nat.zero_add]
        rw [readable_cons fine empty answered]
        split
        next short =>
          rw [delivers_ended (length_map _).le]
          exact resolved_and_nil pages
        next => exact ih (by simp) (by simp [pageHasNext]) rfl fresh.of_append_right
      · refine iff_of_false ?_ (by simp [Readable, fine, answered])
        rintro ⟨more, split, -⟩
        exact answered (answered_of_isPrefix fresh ⟨more, split.symm⟩)
    · rw [if_neg fun goes => fine goes.1]
      simp +contextual [Readable, fine]

/-- The cursor delivers the records that were resolved, each of them once and in the order of the
indexes, and reads all the pages, exactly when the pages are readable. Each record is a new one. -/
theorem delivers_resolved (pages : List (List (IndexAnswer ρ)))
    (fresh : (pages.flatten.filterMap (·.resolved)).Nodup) :
    Delivers pageLen ((pages.flatten.filterMap (·.resolved)).map some) (init pages) ↔
      Readable pageLen pages :=
  delivers_iff_readable nofun rfl rfl fresh

theorem delivers_resolved_three :
    Delivers 2 [some 1, some 2, some 3] (init
      [[⟨0, some 1⟩, ⟨0, some 2⟩], [⟨5, none⟩, ⟨0, some 3⟩]]) :=
  (delivers_resolved [[⟨0, some 1⟩, ⟨0, some 2⟩], [⟨5, none⟩, ⟨0, some 3⟩]] (by decide)).mpr
    (by simp [Readable, IndexAnswer.resolved, lastError])

/-- An index without a record delivers the one before it again, an error of the last index hides
the record before it, and an error in a full page ends the query before the next page. -/
theorem delivers_other_records :
    Delivers 2 [some 1, some 1] (init [[⟨0, some 1⟩, ⟨0, none⟩]]) ∧
      ((init [[⟨0, some 1⟩, ⟨5, none⟩]]).hasNext 2).1 = false ∧
      ((init [[⟨5, none⟩, ⟨0, some 1⟩], [⟨0, some 2⟩]]).hasNext 2).2 =
        ⟨.ended, 0, [some 1], [[⟨0, some 2⟩]]⟩ :=
  ⟨⟨_, _, rfl, rfl, _, _, rfl, rfl, _, rfl, rfl⟩, rfl, rfl⟩

end IndexCursor

end ChaosFramework.ObjectStorage
