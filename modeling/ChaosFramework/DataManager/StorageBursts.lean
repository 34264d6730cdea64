import ChaosFramework.DataManager.DatasetTags

/-!
# Storage bursts

`_submitStorageBurst` puts a burst into a queue. `manageBurstQueue`, which runs before every push of
the output dataset, takes the next burst if there is none in progress, and otherwise asks the one in
progress whether it goes on. A burst for `N` pushes counts how often it is asked, so `N` pushes are
marked.

`_submitStorageBurst` refuses the undefined type only. For any other unknown type `manageBurstQueue`
makes no burst, and reads the tag of a burst all the same.
-/

namespace ChaosFramework.DataManager

open Transition List Option KeyDataStorage DatasetBurst

/-- History storage is forced. -/
def KeyDataStorage.forced (k : KeyDataStorage) : Bool :=
  decide (k.overrideStorageEverride = .history) && !k.useTimingInfo

/-- The number of pushes of a burst that counts them. -/
def DatasetBurst.pushCount (b : DatasetBurst) : Option ℕ :=
  if b.type = .nPush then b.value.map (·.asUInt32.toNat) else none

/-- A push of the output dataset. -/
structure OutputPush where
  forced : Bool
  stored : Option Stored
  deriving DecidableEq

namespace OutputPush

/-- The push goes to the history, whatever the times are, with the tag of the burst. -/
def Marked (b : DatasetBurst) (p : OutputPush) : Prop :=
  p.forced = true ∧ ∃ stored ∈ p.stored, stored.tags = {b.tag} ∧
    stored.storageType.includes .history = true

def Unmarked (p : OutputPush) : Prop := p.forced = false ∧ ∀ stored ∈ p.stored, stored.tags = ∅

end OutputPush

/-- The push of the output dataset. -/
def TaggedUnit.outputPush (u : TaggedUnit) (now : UInt64) : OutputPush :=
  ⟨u.keyDataStorage.forced, (u.keyDataStorage.pushDataSet .output now).2⟩

/-- A control unit, with the bursts that it has accepted and what it has pushed. -/
structure BurstUnit where
  unit : TaggedUnit
  accepted : List DatasetBurst
  pushes : List OutputPush

inductive BurstCall
  | submitStorageBurst (burst : DatasetBurst)
  /-- The output dataset, which may not have changed, with the time of its acquisition. -/
  | pushOutputDataset (changed : Bool) (timestampAcq : Int64) (timeStamp now : UInt64)
  deriving DecidableEq

/-- Pushes that follow each other, all of a burst or of none. -/
structure Period where
  burst : Option DatasetBurst
  pushes : List OutputPush

/-- The pushes are marked if there is a burst, and are as many as it asks for. -/
def Period.Complete (period : Period) : Prop :=
  match period.burst with
  | none => ∀ p ∈ period.pushes, p.Unmarked
  | some b => (∀ p ∈ period.pushes, p.Marked b) ∧
      ∀ count ∈ b.pushCount, 1 ≤ count → period.pushes.length = count

namespace BurstUnit

/-- The control unit at the begin, with a configured storage. -/
def init (k : KeyDataStorage) : BurstUnit := ⟨.init (k.setBurst false), [], []⟩

def submitStorageBurst (s : BurstUnit) (b : DatasetBurst) : BurstUnit :=
  { s with
    unit := s.unit.submitStorageBurst b
    accepted := if b.type = .undefined ∨ b.value = none then s.accepted else s.accepted ++ [b] }

/-- `manageBurstQueue`, and the push of the dataset. -/
def pushOutputDataset (s : BurstUnit) (timestampAcq : Int64) (timeStamp now : UInt64) :
    BurstUnit :=
  let unit := s.unit.manageBurstQueue timestampAcq timeStamp now
  { s with unit := unit.pushDataSet .output now, pushes := s.pushes ++ [unit.outputPush now] }

def step (s : BurstUnit) : BurstCall → Option BurstUnit
  | .submitStorageBurst b => some (s.submitStorageBurst b)
  | .pushOutputDataset changed timestampAcq timeStamp now =>
      some (if changed then s.pushOutputDataset timestampAcq timeStamp now else s)

/-- The pushes fall into periods, and those of the burst in progress. -/
structure Divided (s : BurstUnit) (periods : List Period) (current : List OutputPush) : Prop where
  /-- No missing burst has been accessed. -/
  intact : s.unit.corrupted = false
  pushes : s.pushes = periods.flatMap (·.pushes) ++ current
  /-- The bursts are served in the order in which they were submitted. -/
  inOrder : s.accepted = periods.filterMap (·.burst) ++
    ((s.unit.currentBurst.map (·.datasetBurst)).toList ++ s.unit.burstQueue)
  complete : ∀ period ∈ periods, period.Complete
  none_current : s.unit.currentBurst = none → current = []
  marks : ∀ burst ∈ s.unit.currentBurst, (∀ p ∈ current, p.Marked burst.datasetBurst) ∧
    ∀ count ∈ burst.datasetBurst.pushCount, 1 ≤ count → current.length ≤ count

/-- The bursts are served. -/
def Serves (s : BurstUnit) : Prop := ∃ periods current, s.Divided periods current

/-- A burst that is taken from the queue has one of the two types. -/
def Known (s : BurstUnit) : BurstCall → Prop
  | .pushOutputDataset true _ _ _ => s.unit.currentBurst = none →
      ∀ next ∈ s.unit.burstQueue.head?, next.type = .nPush ∨ next.type = .mSec
  | _ => True

instance decidableKnown (s : BurstUnit) (c : BurstCall) : Decidable (s.Known c) := by
  unfold Known
  split <;> infer_instance

/-- The burst in progress has marked so many pushes. -/
def Progress (n : ℕ) : StorageBurst → Prop
  | .push b limit currentPushes => b.pushCount = some limit.toNat ∧
      (1 ≤ limit.toNat → currentPushes.toNat + 1 = n ∧ n ≤ limit.toNat)
  | .mSec b _ => b.pushCount = none

section Progress

variable {b : DatasetBurst} {burst : StorageBurst} {n : ℕ} {now : Int64}

theorem datasetBurst_start {timeStamp : UInt64} (h : b.start timeStamp = some burst) :
    burst.datasetBurst = b ∧ Progress 1 burst := by
  unfold start at h
  split at h <;> cases h
  · rename_i value ht hv
    refine ⟨rfl, by simp [DatasetBurst.pushCount, ht, hv], fun hl => ⟨rfl, hl⟩⟩
  · rename_i ht hv
    exact ⟨rfl, by simp [Progress, DatasetBurst.pushCount, ht]⟩

theorem datasetBurst_active (burst : StorageBurst) (now : Int64) :
    (burst.active now).1.datasetBurst = burst.datasetBurst := by
  cases burst <;> rfl

theorem Progress.le (h : Progress n burst) :
    ∀ count ∈ burst.datasetBurst.pushCount, 1 ≤ count → n ≤ count := by
  intro count hc positive
  cases burst with
  | push b limit currentPushes =>
    cases h.1.symm.trans hc
    exact (h.2 positive).2
  | mSec b timeout => cases h.symm.trans hc

/-- The counter does not wrap around, for it is below the limit. -/
theorem Progress.active (h : Progress n burst) (ha : (burst.active now).2 = true) :
    Progress (n + 1) (burst.active now).1 := by
  cases burst with
  | push b limit currentPushes =>
    refine ⟨h.1, fun positive => ?_⟩
    obtain ⟨hn, bounded⟩ := h.2 positive
    have further : currentPushes + 1 < limit := of_decide_eq_true ha
    rw [UInt32.lt_iff_toNat_lt, UInt32.toNat_add] at further
    have greatest := limit.toNat_lt
    rw [UInt32.toNat_add]
    have : (1 : UInt32).toNat = 1 := rfl
    omega
  | mSec b timeout => exact h

theorem Progress.eq_of_inactive (h : Progress n burst) (ha : (burst.active now).2 = false) :
    ∀ count ∈ burst.datasetBurst.pushCount, 1 ≤ count → n = count := by
  intro count hc positive
  cases burst with
  | push b limit currentPushes =>
    cases h.1.symm.trans hc
    obtain ⟨hn, bounded⟩ := h.2 positive
    have further : ¬ currentPushes + 1 < limit := of_decide_eq_false ha
    rw [UInt32.lt_iff_toNat_lt, UInt32.toNat_add] at further
    have : (1 : UInt32).toNat = 1 := rfl
    omega
  | mSec b timeout => cases h.symm.trans hc

end Progress

/-- The state of the storage, and the burst in progress. -/
structure Inv (s : BurstUnit) (periods : List Period) (current : List OutputPush) : Prop
    extends Divided s periods current where
  valued : ∀ b ∈ s.unit.burstQueue, b.value ≠ none
  idle : s.unit.currentBurst = none →
    s.unit.keyDataStorage.currentTags = ∅ ∧ s.unit.keyDataStorage.forced = false
  busy : ∀ burst ∈ s.unit.currentBurst, s.unit.keyDataStorage.currentTags = {burst.tag} ∧
    s.unit.keyDataStorage.forced = true ∧ Progress current.length burst

section Push

variable {u : TaggedUnit} {accepted : List DatasetBurst} {pushes cur : List OutputPush}
  {periods : List Period}

theorem marked_push {b : DatasetBurst} (ht : u.keyDataStorage.currentTags = {b.tag})
    (hf : u.keyDataStorage.forced = true) (now : UInt64) : (u.outputPush now).Marked b := by
  refine ⟨hf, ?_⟩
  obtain ⟨ho, hu⟩ := Bool.and_eq_true_iff.mp hf
  have hh : u.keyDataStorage.enabled u.keyDataStorage.storageType .history = true := by
    simp [enabled, of_decide_eq_true ho, DSStorageType.includes]
  simp only [TaggedUnit.outputPush, pushDataSet, pushDataWithControlOnHistoryTime, hh, hu]
  cases u.keyDataStorage.enabled u.keyDataStorage.storageType .live && _ <;>
    exact ⟨_, rfl, ht, rfl⟩

variable (hi : u.corrupted = false) (hv : ∀ b ∈ u.burstQueue, b.value ≠ none) (now : UInt64)
  (hc : ∀ period ∈ periods, period.Complete)

include hi hv hc

/-- The push that no burst marks is a period of its own. -/
theorem inv_push_idle (hp : pushes = periods.flatMap (·.pushes))
    (ho : accepted = periods.filterMap (·.burst) ++ u.burstQueue) (hn : u.currentBurst = none)
    (ht : u.keyDataStorage.currentTags = ∅) (hf : u.keyDataStorage.forced = false) :
    Inv ⟨u.pushDataSet .output now, accepted, pushes ++ [u.outputPush now]⟩
      (periods ++ [⟨none, [u.outputPush now]⟩]) [] where
  intact := hi
  pushes := by simp [hp]
  inOrder := by simp [ho, TaggedUnit.pushDataSet, hn]
  complete period hm := by
    rcases mem_append.mp hm with hm | hm
    · exact hc period hm
    · cases mem_singleton.mp hm
      intro p hp
      cases mem_singleton.mp hp
      exact ⟨hf, fun _ h => (tags_pushDataSet h).trans ht⟩
  none_current _ := rfl
  marks burst hb := absurd (hn.symm.trans hb) nofun
  valued := hv
  idle _ := ⟨ht, hf⟩
  busy burst hb := absurd (hn.symm.trans hb) nofun

theorem inv_push_busy {burst : StorageBurst} (hp : pushes = periods.flatMap (·.pushes) ++ cur)
    (ho : accepted = periods.filterMap (·.burst) ++ burst.datasetBurst :: u.burstQueue)
    (hs : u.currentBurst = some burst) (ht : u.keyDataStorage.currentTags = {burst.tag})
    (hf : u.keyDataStorage.forced = true) (hm : ∀ p ∈ cur, p.Marked burst.datasetBurst)
    (hn : Progress (cur.length + 1) burst) :
    Inv ⟨u.pushDataSet .output now, accepted, pushes ++ [u.outputPush now]⟩ periods
      (cur ++ [u.outputPush now]) where
  intact := hi
  pushes := by simp [hp]
  inOrder := by simp [ho, TaggedUnit.pushDataSet, hs]
  complete := hc
  none_current h := absurd (hs.symm.trans h) nofun
  marks c current := by
    cases hs.symm.trans current
    rw [length_append]
    refine ⟨fun p hp => ?_, hn.le⟩
    rcases mem_append.mp hp with hp | hp
    · exact hm p hp
    · exact mem_singleton.mp hp ▸ marked_push ht hf now
  valued := hv
  idle h := absurd (hs.symm.trans h) nofun
  busy c current := by
    cases hs.symm.trans current
    rw [length_append]
    exact ⟨ht, hf, hn⟩

end Push

variable {s t : BurstUnit} {periods : List Period} {cur : List OutputPush} {c : BurstCall}

theorem inv_init (k : KeyDataStorage) : Inv (init k) [] [] where
  intact := rfl
  pushes := rfl
  inOrder := rfl
  complete := nofun
  none_current _ := rfl
  marks := nofun
  valued := nofun
  idle _ := ⟨rfl, rfl⟩
  busy := nofun

theorem inv_submitStorageBurst (h : Inv s periods cur) (b : DatasetBurst) :
    Inv (s.submitStorageBurst b) periods cur := by
  unfold submitStorageBurst TaggedUnit.submitStorageBurst
  split
  · exact h
  · rename_i hb
    refine { h with inOrder := by simp [h.inOrder], valued := fun c hc => ?_ }
    rcases mem_append.mp hc with hc | hc
    · exact h.valued c hc
    · exact mem_singleton.mp hc ▸ fun hn => hb (.inr hn)

theorem exists_start {b : DatasetBurst} (hv : b.value ≠ none) (timeStamp : UInt64) :
    (∃ burst, b.start timeStamp = some burst) ↔ b.type = .nPush ∨ b.type = .mSec := by
  obtain ⟨value, hvalue⟩ := ne_none_iff_exists'.mp hv
  cases ht : b.type <;> simp [start, ht, hvalue]

/-- The dataset is pushed after the next burst has been taken, or the one in progress asked. -/
theorem inv_pushOutputDataset (h : Inv s periods cur) {timestampAcq : Int64}
    {timeStamp now : UInt64} (hk : s.Known (.pushOutputDataset true timestampAcq timeStamp now)) :
    ∃ periods cur, Inv (s.pushOutputDataset timestampAcq timeStamp now) periods cur := by
  have ho := h.inOrder
  simp only [pushOutputDataset, TaggedUnit.manageBurstQueue]
  cases hs : s.unit.currentBurst with
  | none =>
    rw [hs] at ho
    obtain ⟨ht, hf⟩ := h.idle hs
    have hp := h.pushes
    cases h.none_current hs
    cases hq : s.unit.burstQueue with
    | nil =>
      rw [append_nil] at hp
      exact ⟨_, _, inv_push_idle h.intact h.valued now h.complete hp ho hs ht hf⟩
    | cons next rest =>
      have hv := h.valued
      rw [hq] at hv ho
      obtain ⟨burst, hb⟩ := (exists_start (hv next mem_cons_self) timeStamp).mpr
        (hk hs next (by rw [hq]; rfl))
      obtain ⟨rfl, hn⟩ := datasetBurst_start hb
      simp only [hb]
      refine ⟨_, _, inv_push_busy ?_ ?_ now h.complete hp ho rfl ?_ rfl nofun hn⟩
      · exact h.intact
      · exact fun b hb => hv b (mem_cons_of_mem _ hb)
      · change insert burst.tag s.unit.keyDataStorage.currentTags = _
        rw [ht]
        rfl
  | some burst =>
    rw [hs] at ho
    obtain ⟨ht, hf, hn⟩ := h.busy burst hs
    have hm := (h.marks burst hs).1
    cases ha : (burst.active timestampAcq).2 with
    | true =>
      simp only [ha]
      rw [← datasetBurst_active burst timestampAcq] at hm
      refine ⟨_, _, inv_push_busy ?_ ?_ now h.complete h.pushes ?_ rfl ?_ hf hm (hn.active ha)⟩
      · exact h.intact
      · exact h.valued
      · rw [datasetBurst_active]
        exact ho
      · rwa [burst.tag_active]
    | false =>
      -- The burst in progress becomes a period.
      simp only [ha]
      refine ⟨_, _, @inv_push_idle _ _ _ (periods ++ [⟨some burst.datasetBurst, cur⟩]) ?_ ?_ now
        (fun period hp => ?_) ?_ ?_ rfl ?_ rfl⟩
      · exact h.intact
      · exact h.valued
      · rcases mem_append.mp hp with hp | hp
        · exact h.complete period hp
        · cases mem_singleton.mp hp
          exact ⟨hm, hn.eq_of_inactive ha⟩
      · rw [h.pushes, flatMap_append, flatMap_singleton]
      · simpa using ho
      · change s.unit.keyDataStorage.currentTags.erase (burst.active timestampAcq).1.tag = _
        rw [burst.tag_active, ht, Finset.erase_singleton]

theorem inv_step (h : ∃ periods cur, Inv s periods cur) (hk : s.Known c)
    (hs : s.step c = some t) : ∃ periods cur, Inv t periods cur := by
  obtain ⟨periods, cur, h⟩ := h
  cases c with
  | submitStorageBurst b =>
    cases hs
    exact ⟨_, _, inv_submitStorageBurst h b⟩
  | pushOutputDataset changed timestampAcq timeStamp now =>
    cases hs
    cases changed with
    | false => exact ⟨_, _, h⟩
    | true => exact inv_pushOutputDataset h hk

theorem known_of_serves (h : ∃ periods cur, Inv s periods cur)
    (hs : s.step c = some t) (ht : t.Serves) : s.Known c := by
  obtain ⟨_, _, h⟩ := h
  unfold Known
  split
  · rename_i timeStamp _
    cases hs
    intro hc next hn
    obtain ⟨rest, hq⟩ := head?_eq_some_iff.mp hn
    have hv := h.valued next (by rw [hq]; exact mem_cons_self)
    by_contra hk
    rw [← exists_start hv timeStamp, not_exists] at hk
    obtain ⟨_, _, ht⟩ := ht
    have hi := ht.intact
    simp [pushOutputDataset, TaggedUnit.manageBurstQueue, TaggedUnit.pushDataSet,
      TaggedUnit.corrupt, hc, hq, eq_none_iff_forall_ne_some.mpr hk] at hi
  · trivial

/-- **The bursts.** Whatever is submitted, and whenever the datasets are pushed, the bursts are
served as they should exactly as long as those that are taken have one of the two types. -/
theorem serves_iff_known {k : KeyDataStorage} {calls : List BurstCall}
    (run : execute step (init k) calls = some t) :
    Admissible step Known (init k) calls ↔
      ∀ n r, execute step (init k) (calls.take n) = some r → r.Serves :=
  admissible_iff_forall_reached inv_step (fun ⟨_, _, h⟩ => ⟨_, _, h.toDivided⟩) known_of_serves
    ⟨_, _, inv_init k⟩ run

/-- A burst for two pushes, one for a time, and one for one push. -/
theorem serves_iff_known_three :
    let calls : List BurstCall := [.submitStorageBurst ⟨"a", some ⟨2, 2⟩, .nPush⟩,
      .pushOutputDataset true 0 0 0, .submitStorageBurst ⟨"b", some ⟨5, 5⟩, .mSec⟩,
      .submitStorageBurst ⟨"c", some ⟨1, 1⟩, .nPush⟩, .pushOutputDataset true 1 1 1,
      .pushOutputDataset true 2 2 2, .pushOutputDataset true 3 3 3, .pushOutputDataset true 9 9 9,
      .pushOutputDataset true 10 10 10, .pushOutputDataset true 11 11 11]
    ∃ t, execute step (init (.new "unit")) calls = some t ∧ t.Serves ∧
      t.pushes.map (·.forced) = [true, true, false, true, false, true, false] := by
  intro calls
  refine ⟨_, rfl, ?_, by decide⟩
  exact (@serves_iff_known _ (.new "unit") calls rfl).mp (by decide) 10 _ rfl

/-- A burst of a third type is accepted, and the push that takes it accesses a missing burst. -/
theorem missing_burst_accessed :
    ∃ t, execute step (init (.new "unit")) [.submitStorageBurst ⟨"a", some ⟨2, 2⟩, .other⟩,
        .pushOutputDataset true 0 0 0] = some t ∧
      t.accepted = [⟨"a", some ⟨2, 2⟩, .other⟩] ∧ t.unit.corrupted = true ∧ ¬ t.Serves :=
  ⟨_, rfl, by decide, rfl, fun ⟨_, _, h⟩ => Bool.noConfusion h.intact⟩

end BurstUnit

end ChaosFramework.DataManager
