import ChaosFramework.DataManager.KeyDataStorage
import Mathlib.Data.Finset.Basic
import Mathlib.Data.Finset.Lattice.Lemmas

/-!
# Tags of datasets

The datasets of a control unit are pushed with the current tags of its storage. Users add and remove
tags with `_datasetTagManagement`, and a burst adds its tag while it is in progress.

`_datasetTagManagement` reads the list of the tags to be removed for both purposes, and erases them
by the iterators of the list, which are not iterators of the set. The end of a burst removes its
tag, even if a user has added it as well, and a burst of an unknown type is accessed through a null
pointer. `attaches_iff_harmless` says what keeps clear of all this.
-/

namespace ChaosFramework.DataManager

open Transition Option

/-- The list under a key of a request. An element may be something else than a string. -/
abbrev TagList := List (Option String)

/-- The tags of a list. -/
def TagList.strings (list : TagList) : Finset String := (list.filterMap id).toFinset

/-- The pack of a request. A key may be missing. -/
structure TagRequest where
  addList : Option TagList
  removeList : Option TagList
  deriving DecidableEq, Repr

namespace TagRequest

/-- The tags that are to be added. -/
def added (r : TagRequest) : Finset String := (r.addList.getD []).strings

/-- The tags that are to be removed. -/
def removed (r : TagRequest) : Finset String := (r.removeList.getD []).strings

end TagRequest

inductive DSStorageBurstType
  | undefined
  | nPush
  | mSec
  /-- A number that the enumeration does not have. -/
  | other
  deriving DecidableEq

/-- The value of a burst, as it is read. -/
structure BurstValue where
  asInt32 : Int32
  asUInt32 : UInt32
  deriving DecidableEq

structure DatasetBurst where
  tag : String
  /-- The value may be invalid. -/
  value : Option BurstValue
  type : DSStorageBurstType
  deriving DecidableEq

/-- A burst in progress. -/
inductive StorageBurst
  | push (datasetBurst : DatasetBurst) (limit currentPushes : UInt32)
  | mSec (datasetBurst : DatasetBurst) (timeoutMsec : Int64)
  deriving DecidableEq

namespace StorageBurst

def datasetBurst : StorageBurst → DatasetBurst
  | .push datasetBurst _ _ | .mSec datasetBurst _ => datasetBurst

def tag (b : StorageBurst) : String := b.datasetBurst.tag

/-- `active`, with the burst afterwards. -/
def active (b : StorageBurst) (now : Int64) : StorageBurst × Bool :=
  match b with
  | .push datasetBurst limit currentPushes =>
      (.push datasetBurst limit (currentPushes + 1), currentPushes + 1 < limit)
  | .mSec datasetBurst timeoutMsec => (.mSec datasetBurst timeoutMsec, timeoutMsec > now)

theorem tag_active (b : StorageBurst) (now : Int64) : (b.active now).1.tag = b.tag := by
  cases b <;> rfl

end StorageBurst

/-- The burst of an entry of the queue, at the given time in milliseconds. -/
def DatasetBurst.start (b : DatasetBurst) (timeStamp : UInt64) : Option StorageBurst :=
  match b.type, b.value with
  | .nPush, some value => some (.push b value.asUInt32 0)
  | .mSec, some value =>
      some (.mSec b (timeStamp + value.asInt32.toInt64.toUInt64).toInt64)
  | _, _ => none

namespace KeyDataStorage

def addTag (k : KeyDataStorage) (tag : String) : KeyDataStorage :=
  { k with currentTags := insert tag k.currentTags }

def addTags (k : KeyDataStorage) (tags : Finset String) : KeyDataStorage :=
  { k with currentTags := k.currentTags ∪ tags }

def removeTag (k : KeyDataStorage) (tag : String) : KeyDataStorage :=
  { k with currentTags := k.currentTags.erase tag }

/-- The tags are erased by the iterators of another set, which is not defined if there are any. -/
def removeTags (k : KeyDataStorage) (tags : Finset String) : Option KeyDataStorage :=
  if tags = ∅ then some k else none

def setBurst (k : KeyDataStorage) (burst : Bool) : KeyDataStorage :=
  { k with
    useTimingInfo := !burst
    overrideStorageEverride := if burst then .history else .undefined }

/-- All that is stored has the current tags. -/
theorem tags_pushDataSet {k : KeyDataStorage} {dom : KeyDataStorageDomain} {now : UInt64}
    {stored : Stored} (hs : stored ∈ (k.pushDataSet dom now).2) :
    stored.tags = k.currentTags := by
  have hc (key : String)
      (there : stored ∈ (k.pushDataWithControlOnHistoryTime key k.storageType now).2) :
      stored.tags = k.currentTags := by
    simp only [pushDataWithControlOnHistoryTime] at there
    split at there
    · cases there
    · rw [← mem_some_iff.mp there]
  cases dom with
  | output | custom => exact hc _ hs
  | input | system | health | devAlarm | cuAlarm => rw [← mem_some_iff.mp hs]

theorem currentTags_pushDataSet (k : KeyDataStorage) (dom : KeyDataStorageDomain)
    (now : UInt64) : (k.pushDataSet dom now).1.currentTags = k.currentTags := by
  cases dom <;> rfl

end KeyDataStorage

/-- What of a control unit has to do with tags, and the tags that the users have asked for. -/
structure TaggedUnit where
  keyDataStorage : KeyDataStorage
  burstQueue : List DatasetBurst
  currentBurst : Option StorageBurst
  /-- Something undefined has been done. -/
  corrupted : Bool
  users : Finset String

/-- The requests, and the pushes of the control unit. -/
inductive TagEvent
  | datasetTagManagement (request : TagRequest)
  | submitStorageBurst (burst : DatasetBurst)
  /-- The output dataset, which may not have changed, with the time of its acquisition. -/
  | pushOutputDataset (changed : Bool) (timestampAcq : Int64) (timeStamp now : UInt64)
  /-- The dataset of another domain. -/
  | pushDataSet (domain : KeyDataStorageDomain) (now : UInt64)
  deriving DecidableEq

namespace TaggedUnit

/-- The control unit at the begin. -/
def init (keyDataStorage : KeyDataStorage) : TaggedUnit :=
  ⟨{ keyDataStorage with currentTags := ∅ }, [], none, false, ∅⟩

def corrupt (s : TaggedUnit) : TaggedUnit := { s with corrupted := true }

/-- Both parts read the list of the tags that are to be removed. -/
def datasetTagManagement (s : TaggedUnit) (r : TagRequest) : TaggedUnit :=
  let s := if r.addList.isSome then
      { s with keyDataStorage := s.keyDataStorage.addTags r.removed }
    else s
  if r.removeList.isSome then
    match s.keyDataStorage.removeTags r.removed with
    | some keyDataStorage => { s with keyDataStorage }
    | none => s.corrupt
  else s

def submitStorageBurst (s : TaggedUnit) (b : DatasetBurst) : TaggedUnit :=
  if b.type = .undefined ∨ b.value = none then s
  else { s with burstQueue := s.burstQueue ++ [b] }

/-- The system dataset that is pushed at the begin and at the end of a burst has the tags that the
storage has then. -/
def manageBurstQueue (s : TaggedUnit) (timestampAcq : Int64) (timeStamp now : UInt64) :
    TaggedUnit :=
  match s.currentBurst with
  | none =>
      match s.burstQueue with
      | [] => s
      | next :: rest =>
          match next.start timeStamp with
          | none => { s with burstQueue := rest }.corrupt
          | some burst =>
              { s with
                burstQueue := rest
                currentBurst := some burst
                keyDataStorage :=
                  (((s.keyDataStorage.addTag burst.tag).setBurst true).pushDataSet .system now).1 }
  | some burst =>
      let (burst, active) := burst.active timestampAcq
      if active then { s with currentBurst := some burst }
      else
        { s with
          currentBurst := none
          keyDataStorage :=
            (((s.keyDataStorage.removeTag burst.tag).setBurst false).pushDataSet .system now).1 }

def pushDataSet (s : TaggedUnit) (domain : KeyDataStorageDomain) (now : UInt64) : TaggedUnit :=
  { s with keyDataStorage := (s.keyDataStorage.pushDataSet domain now).1 }

/-- The tags of the users change as it is requested. -/
def step (s : TaggedUnit) : TagEvent → Option TaggedUnit
  | .datasetTagManagement r =>
      some { s.datasetTagManagement r with users := (s.users ∪ r.added) \ r.removed }
  | .submitStorageBurst b => some (s.submitStorageBurst b)
  | .pushOutputDataset changed timestampAcq timeStamp now =>
      some (if changed then
        (s.manageBurstQueue timestampAcq timeStamp now).pushDataSet .output now
      else s)
  | .pushDataSet domain now => some (s.pushDataSet domain now)

/-- The tag of the burst in progress. -/
def burstTags (s : TaggedUnit) : Finset String :=
  match s.currentBurst with
  | none => ∅
  | some burst => {burst.tag}

/-- A dataset that is pushed has the tags of the users and of the burst. -/
def Attaches (s : TaggedUnit) : Prop :=
  s.corrupted = false ∧ ∀ domain now, ∀ stored ∈ (s.keyDataStorage.pushDataSet domain now).2,
    stored.tags = s.users ∪ s.burstTags

/-- A request removes nothing and adds what is there already, a burst has one of the two types, and
the users have not asked for the tag of a burst that ends. -/
def Harmless (s : TaggedUnit) : TagEvent → Prop
  | .datasetTagManagement r => r.removed = ∅ ∧ r.added ⊆ s.users ∪ s.burstTags
  | .pushOutputDataset true timestampAcq timeStamp _ =>
      match s.currentBurst with
      | none => ∀ next ∈ s.burstQueue.head?, (next.start timeStamp).isSome
      | some burst => (burst.active timestampAcq).2 = false → burst.tag ∉ s.users
  | _ => True

instance decidableHarmless (s : TaggedUnit) (e : TagEvent) : Decidable (s.Harmless e) := by
  unfold Harmless
  repeat' split
  all_goals infer_instance

variable {s t : TaggedUnit}

/-- It is the current tags that matter. -/
theorem attaches_iff : s.Attaches ↔
    s.corrupted = false ∧ s.keyDataStorage.currentTags = s.users ∪ s.burstTags := by
  refine and_congr_right fun _ => ⟨fun ha => ?_, fun tags dom now stored hs => ?_⟩
  · -- The input dataset is stored whatever the storage type is.
    exact ha .input 0 _ rfl
  · rw [KeyDataStorage.tags_pushDataSet hs, tags]

theorem attaches_init (k : KeyDataStorage) : (init k).Attaches :=
  attaches_iff.mpr ⟨rfl, rfl⟩

theorem attaches_pushDataSet (dom : KeyDataStorageDomain) (now : UInt64) :
    (s.pushDataSet dom now).Attaches ↔ s.Attaches := by
  rw [attaches_iff, attaches_iff, pushDataSet, KeyDataStorage.currentTags_pushDataSet]
  rfl

theorem attaches_datasetTagManagement (ha : s.Attaches) (r : TagRequest) :
    ({ s.datasetTagManagement r with users := (s.users ∪ r.added) \ r.removed } :
        TaggedUnit).Attaches ↔ r.removed = ∅ ∧ r.added ⊆ s.users ∪ s.burstTags := by
  obtain ⟨hi, tags⟩ := attaches_iff.mp ha
  by_cases hn : r.removed = ∅
  · -- Neither part does anything.
    have hu : s.datasetTagManagement r = s := by
      simp [datasetTagManagement, hn, KeyDataStorage.addTags, KeyDataStorage.removeTags]
    rw [hu, hn, Finset.sdiff_empty, attaches_iff]
    have same : burstTags { s with users := s.users ∪ r.added } = s.burstTags := rfl
    rw [tags, Finset.union_right_comm]
    constructor
    · rintro ⟨-, equal⟩
      exact ⟨rfl, Finset.left_eq_union.mp equal⟩
    · rintro ⟨-, subset⟩
      exact ⟨hi, Finset.left_eq_union.mpr subset⟩
  · have hp : r.removeList.isSome := by
      cases list : r.removeList with
      | some _ => rfl
      | none => exact absurd (by rw [TagRequest.removed, list]; rfl) hn
    have broken : (s.datasetTagManagement r).corrupted = true := by
      simp [datasetTagManagement, hp, KeyDataStorage.removeTags, hn, corrupt]
    constructor
    · rintro ⟨stillIntact, -⟩
      rw [show (s.datasetTagManagement r).corrupted = false from stillIntact] at broken
      cases broken
    · exact fun both => absurd both.1 hn

theorem attaches_manageBurstQueue (ha : s.Attaches) (acq : Int64)
    (ts now : UInt64) : (s.manageBurstQueue acq ts now).Attaches ↔
      s.Harmless (.pushOutputDataset true acq ts now) := by
  obtain ⟨hi, tags⟩ := attaches_iff.mp ha
  simp only [manageBurstQueue, Harmless]
  cases hc : s.currentBurst with
  | none =>
    have noBurst : s.burstTags = ∅ := by rw [burstTags, hc]
    cases queue : s.burstQueue with
    | nil => simpa using ha
    | cons next rest =>
      dsimp only
      cases hs : next.start ts with
      | none => simp [Attaches, corrupt, hs]
      | some burst =>
        have begun : ∀ first ∈ (next :: rest).head?, (first.start ts).isSome := by
          intro first hf
          rw [← mem_some_iff.mp hf, hs]
          rfl
        refine iff_of_true (attaches_iff.mpr ⟨hi, ?_⟩) begun
        change insert burst.tag s.keyDataStorage.currentTags = s.users ∪ {burst.tag}
        rw [tags, noBurst, Finset.union_empty, Finset.insert_eq, Finset.union_comm]
  | some burst =>
    have ownTag : s.burstTags = {burst.tag} := by rw [burstTags, hc]
    have sameTag := burst.tag_active acq
    cases active : (burst.active acq).2 with
    | false =>
      rw [attaches_iff]
      simp only [active, forall_const]
      rw [sameTag]
      change s.corrupted = false ∧ s.keyDataStorage.currentTags.erase burst.tag = s.users ∪ ∅ ↔ _
      rw [tags, ownTag, Finset.union_empty]
      constructor
      · rintro ⟨-, same⟩ hu
        rw [← same] at hu
        exact Finset.notMem_erase _ _ hu
      · intro hn
        refine ⟨hi, ?_⟩
        rw [Finset.union_comm, ← Finset.insert_eq, Finset.erase_insert hn]
    | true =>
      simp only [active]
      refine iff_of_true (attaches_iff.mpr ⟨hi, ?_⟩) nofun
      change s.keyDataStorage.currentTags = s.users ∪ {(burst.active acq).1.tag}
      rw [sameTag, tags, ownTag]

theorem attaches_step (ha : s.Attaches) {e : TagEvent} (taken : s.step e = some t) :
    t.Attaches ↔ s.Harmless e := by
  cases e with
  | datasetTagManagement r =>
    cases taken
    exact attaches_datasetTagManagement ha r
  | submitStorageBurst b =>
    cases taken
    refine iff_of_true ?_ trivial
    unfold submitStorageBurst
    split
    · exact ha
    · exact ha
  | pushOutputDataset changed acq ts now =>
    cases taken
    cases changed with
    | false => exact iff_of_true ha trivial
    | true =>
      rw [if_pos rfl, attaches_pushDataSet]
      exact attaches_manageBurstQueue ha acq ts now
  | pushDataSet dom now =>
    cases taken
    exact iff_of_true ((attaches_pushDataSet dom now).mpr ha) trivial

/-- **The tags of the datasets.** Whatever is requested, and in whatever order. -/
theorem attaches_iff_harmless (k : KeyDataStorage) (events : List TagEvent) (t : TaggedUnit)
    (run : execute step (init k) events = some t) :
    (∀ n r, execute step (init k) (events.take n) = some r → r.Attaches) ↔
      Admissible step Harmless (init k) events :=
  (admissible_iff_forall_reached (fun ha harmless taken =>
      (attaches_step ha taken).mpr harmless) id
    (fun ha taken => (attaches_step ha taken).mp) (attaches_init k) run).symm

/-- A burst for two pushes, and after its end a request that adds no tag. -/
def burstEvents : List TagEvent :=
  [.submitStorageBurst ⟨"run7", some ⟨2, 2⟩, .nPush⟩, .pushOutputDataset true 0 0 0,
    .pushDataSet .input 0, .pushOutputDataset true 0 0 0, .pushOutputDataset true 0 0 0,
    .datasetTagManagement ⟨some [], some [none]⟩]

theorem attaches_iff_harmless_burst :
    ∃ t, execute step (init (.new "unit")) burstEvents = some t ∧ t.Attaches := by
  have harmless : Admissible step Harmless (init (.new "unit")) burstEvents := by decide
  exact ⟨_, rfl, (attaches_iff_harmless (.new "unit") burstEvents _ rfl).mpr harmless 6 _ rfl⟩

/-- A tag that is to be added is not attached. -/
theorem added_tag_missing :
    ∃ t, execute step (init (.new "unit"))
        [.datasetTagManagement ⟨some [some "run7"], none⟩] = some t ∧
      t.users = {"run7"} ∧ t.keyDataStorage.currentTags = ∅ ∧ ¬ t.Attaches := by
  refine ⟨_, rfl, by decide, by decide, fun ha => ?_⟩
  exact absurd (attaches_iff.mp ha).2 (by decide)

end TaggedUnit

end ChaosFramework.DataManager
