import Mathlib.Data.List.TakeWhile
import ChaosFramework.ObjectStorage.Timestamps

/-!
# The batches of the object storage

`pushObject` puts the document of an object into a set. The timer hands the set to a task,
`executePush`, which writes it to the database with one ordered bulk write. The timer waits for the
previous task first, with the lock of the set.

What is in the set when the data access is destroyed is never handed over. An error other than one
of the bulk write, such as that of a pool that has no client, ends the task before the write.
-/

namespace ChaosFramework.ObjectStorage

open Bytes Transition List Option

structure PushState where
  /-- In the order of the addresses. -/
  batchSet : List Record := []
  pushCurrentStepLeft : ℕ
  /-- The timer waits for the running task, with the lock of the set. -/
  timerWaits : Bool := false
  /-- The batch of the running task. -/
  currentPush : Option (List Record) := none
  destroyed : Bool := false
  /-- The number of objects for which `pushObject` has returned 0. They have the identifiers
  below it. -/
  accepted : ℕ := 0
  submitted : List Record := []
  stored : List Record := []

inductive PushAction
  /-- `position` is the place of the new document among those in the set. -/
  | pushObject (now : BitVec 64) (key : List Byte) (metaTags : Finset (List Byte))
      (storedObject : DataObject) (position : ℕ)
  | timeout
  /-- The task for which the timer waits has ended. -/
  | pushEnded
  /-- The task runs. It reaches the database, or ends with an exception before. -/
  | executePush (reached : Bool)
  | destroy

section Steps

variable (pushTimeoutMultiplier : ℕ) (rejects : Record → Bool)

namespace PushState

variable (s : PushState)

/-- `timeout` from the call of `std::async` on. -/
def launch : PushState :=
  { s with
    batchSet := []
    pushCurrentStepLeft := pushTimeoutMultiplier
    timerWaits := false
    currentPush := some s.batchSet }

/-- The ordered bulk write of a batch stops at the first document that the database rejects. -/
def write (batch : List Record) : PushState :=
  { s with
    currentPush := none
    submitted := s.submitted ++ batch
    stored := s.stored ++ batch.takeWhile (!rejects ·) }

end PushState

def pushInit : PushState := { pushCurrentStepLeft := pushTimeoutMultiplier }

def pushStep (s : PushState) : PushAction → Option PushState
  | .pushObject now key metaTags storedObject position =>
      if s.timerWaits ∨ s.destroyed then none
      else
        match pushObject s.accepted now key metaTags storedObject with
        | .error _ => some s
        | .ok record =>
            some { s with
              batchSet := s.batchSet.take position ++ record :: s.batchSet.drop position
              accepted := s.accepted + 1 }
  | .timeout =>
      if s.timerWaits ∨ s.destroyed then none
      else if s.pushCurrentStepLeft ≠ 0 then
        some { s with pushCurrentStepLeft := s.pushCurrentStepLeft - 1 }
      else if s.batchSet = [] then some { s with pushCurrentStepLeft := pushTimeoutMultiplier }
      else if s.currentPush.isSome then some { s with timerWaits := true }
      else some (s.launch pushTimeoutMultiplier)
  | .pushEnded =>
      if s.timerWaits ∧ s.currentPush = none then some (s.launch pushTimeoutMultiplier) else none
  | .executePush reached =>
      s.currentPush.map fun batch =>
        if reached then s.write rejects batch else { s with currentPush := none }
  | .destroy =>
      if s.timerWaits ∨ s.destroyed then none else some { s with destroyed := true }

/-- Every task reaches the database with a batch in which nothing but rejected documents follows
a rejected one, and the set is empty when the data access is destroyed. -/
def LosesNothing (s : PushState) : PushAction → Prop
  | .executePush reached =>
      reached ∧ ∀ batch ∈ s.currentPush, (batch.dropWhile (!rejects ·)).all rejects
  | .destroy => s.batchSet = []
  | _ => True

instance (s : PushState) (action : PushAction) : Decidable (LosesNothing rejects s action) := by
  unfold LosesNothing
  split <;> infer_instance

end Steps

section Objects

variable {pushTimeoutMultiplier : ℕ} {rejects : Record → Bool} {s t : PushState}

/-- Every accepted object is in one place, and what was submitted is stored. -/
structure Kept (rejects : Record → Bool) (s : PushState) : Prop where
  placed : ((s.submitted ++ s.currentPush.getD [] ++ s.batchSet).map Record.oid).Perm
    (List.range s.accepted)
  stores : ∀ record ∈ s.submitted, rejects record = false → record ∈ s.stored
  emptied : s.destroyed = true → s.batchSet = []

section

variable {act : PushAction} (hk : Kept rejects s)

include hk

theorem Kept.pushed {rcd : Record} {pos : ℕ}
    (alive : s.destroyed = false) (hn : rcd.oid = s.accepted) :
    Kept rejects { s with
      batchSet := s.batchSet.take pos ++ rcd :: s.batchSet.drop pos
      accepted := s.accepted + 1 } where
  placed := by
    have hi : (s.batchSet.take pos ++ rcd :: s.batchSet.drop pos).Perm (rcd :: s.batchSet) := by
      have moved := @perm_middle _ rcd (s.batchSet.take pos) (s.batchSet.drop pos)
      rwa [take_append_drop] at moved
    rw [range_succ]
    refine (((hi.append_left _).trans perm_middle).map Record.oid).trans ?_
    rw [map_cons, hn]
    exact (hk.placed.cons _).trans (perm_append_singleton ..).symm
  stores := hk.stores
  emptied destroyed := by rw [alive] at destroyed; nomatch destroyed

theorem Kept.launched (ended : s.currentPush = none) :
    Kept rejects (s.launch pushTimeoutMultiplier) where
  placed := by simpa [PushState.launch, ended] using hk.placed
  stores := hk.stores
  emptied _ := rfl

theorem Kept.written {batch : List Record} (hr : s.currentPush = some batch)
    (last : ((batch.dropWhile (!rejects ·)).all rejects) = true) :
    Kept rejects (s.write rejects batch) where
  placed := by simpa [PushState.write, hr] using hk.placed
  stores rcd hm ha := by
    obtain hm | hm := mem_append.mp hm
    · exact mem_append_left _ (hk.stores rcd hm ha)
    · rw [← takeWhile_append_dropWhile (l := batch)] at hm
      obtain hb | behind := mem_append.mp hm
      · exact mem_append_right _ hb
      · have rejected := List.all_eq_true.mp last rcd behind
        rw [ha] at rejected
        nomatch rejected
  emptied := hk.emptied

theorem pushStep_kept (safe : LosesNothing rejects s act)
    (taken : pushStep pushTimeoutMultiplier rejects s act = some t) : Kept rejects t := by
  cases act with
  | pushObject now key metaTags storedObject pos =>
    obtain ⟨free, result⟩ := ite_none_left_eq_some.mp taken
    split at result
    · cases result
      exact hk
    next rcd hp =>
      cases result
      obtain ⟨seq, rfl⟩ := pushObject_eq_ok hp
      exact hk.pushed (Bool.eq_false_iff.mpr (not_or.mp free).2) rfl
  | timeout =>
    obtain ⟨free, result⟩ := ite_none_left_eq_some.mp taken
    split_ifs at result with waits empty hr
    · cases result
      exact { hk with }
    · cases result
      exact { hk with }
    · cases result
      exact { hk with }
    · cases result
      exact hk.launched (not_isSome_iff_eq_none.mp hr)
  | pushEnded =>
    obtain ⟨⟨-, ended⟩, ⟨⟩⟩ := ite_none_right_eq_some.mp taken
    exact hk.launched ended
  | executePush reached =>
    obtain ⟨rfl, last⟩ := safe
    obtain ⟨batch, hr, ⟨⟩⟩ := map_eq_some_iff.mp taken
    exact hk.written hr (last batch hr)
  | destroy =>
    obtain ⟨-, ⟨⟩⟩ := ite_none_left_eq_some.mp taken
    exact ⟨hk.placed, hk.stores, fun _ => safe⟩

end

/-- When nothing is lost on the way, every object for which `pushObject` has returned 0 has been
submitted exactly once when the data access is gone, and all submitted documents are stored that
the database does not reject. -/
theorem objects_submitted_once {actions : List PushAction}
    (safe : Admissible (pushStep pushTimeoutMultiplier rejects) (LosesNothing rejects)
      (pushInit pushTimeoutMultiplier) actions)
    (run : execute (pushStep pushTimeoutMultiplier rejects) (pushInit pushTimeoutMultiplier)
      actions = some t)
    (destroyed : t.destroyed = true) (ended : t.currentPush = none) :
    (∀ oid < t.accepted, (t.submitted.map Record.oid).count oid = 1) ∧
      ∀ record ∈ t.submitted, rejects record = false → record ∈ t.stored := by
  have hi : Kept rejects (pushInit pushTimeoutMultiplier) := ⟨.nil, nofun, nofun⟩
  have kept := safe.invariant pushStep_kept hi run
  refine ⟨fun oid below => ?_, kept.stores⟩
  have hp := kept.placed
  rw [ended, kept.emptied destroyed] at hp
  simp only [getD_none, append_nil] at hp
  rw [hp.count_eq]
  exact count_eq_one_of_mem nodup_range (mem_range.mpr below)

/-- No object is in two places, whatever is lost, and each comes from a call of `pushObject`. -/
structure Single (rejects : Record → Bool) (s : PushState) : Prop where
  placed : (s.submitted ++ s.currentPush.getD [] ++ s.batchSet).map Record.oid <+~
    List.range s.accepted
  stored : s.stored <+ s.submitted.filter (!rejects ·)
  made : ∀ record ∈ s.submitted ++ s.currentPush.getD [] ++ s.batchSet, record.IsPushed

theorem pushStep_single {act : PushAction} (hs : Single rejects s)
    (ht : pushStep pushTimeoutMultiplier rejects s act = some t) : Single rejects t := by
  obtain ⟨hp, stored, made⟩ := hs
  have launched (he : s.currentPush = none) : Single rejects (s.launch pushTimeoutMultiplier) :=
    ⟨by simpa [PushState.launch, he] using hp, stored, by simpa [PushState.launch, he] using made⟩
  cases act with
  | pushObject now key metaTags storedObject pos =>
    obtain ⟨-, result⟩ := ite_none_left_eq_some.mp ht
    split at result <;> cases result
    · exact ⟨hp, stored, made⟩
    next rcd ok =>
      have hn : rcd.oid = s.accepted := by
        obtain ⟨seq, rfl⟩ := pushObject_eq_ok ok
        rfl
      have hi := @perm_middle _ rcd (s.batchSet.take pos) (s.batchSet.drop pos)
      rw [take_append_drop] at hi
      have placed := (hi.append_left (s.submitted ++ s.currentPush.getD [])).trans perm_middle
      refine ⟨(placed.map _).subperm.trans ?_, stored, fun other hm => ?_⟩
      · rw [range_succ, map_cons, hn]
        exact ((subperm_cons _).mpr hp).trans (perm_append_singleton ..).symm.subperm
      · rcases mem_cons.mp (placed.mem_iff.mp hm) with rfl | old
        · exact ⟨_, _, _, _, _, ok⟩
        · exact made other old
  | timeout =>
    obtain ⟨-, result⟩ := ite_none_left_eq_some.mp ht
    split_ifs at result with _ _ hr <;> cases result
    exacts [⟨hp, stored, made⟩, ⟨hp, stored, made⟩, ⟨hp, stored, made⟩,
      launched (not_isSome_iff_eq_none.mp hr)]
  | pushEnded =>
    obtain ⟨⟨-, he⟩, ⟨⟩⟩ := ite_none_right_eq_some.mp ht
    exact launched he
  | executePush reached =>
    obtain ⟨batch, hr, ⟨⟩⟩ := map_eq_some_iff.mp ht
    rw [hr, getD_some] at hp made
    cases reached with
    | true =>
      refine ⟨by simpa [PushState.write] using hp, ?_, by simpa [PushState.write] using made⟩
      simp only [PushState.write, if_true, filter_append]
      refine stored.append ?_
      rw [← filter_eq_self.mpr fun _ => mem_takeWhile_imp]
      exact (takeWhile_sublist _).filter _
    | false =>
      have left : s.submitted ++ [] ++ s.batchSet <+ s.submitted ++ batch ++ s.batchSet := by
        simp
      exact ⟨(left.map _).subperm.trans hp, stored, fun other hm => made other (left.subset hm)⟩
  | destroy =>
    obtain ⟨-, ⟨⟩⟩ := ite_none_left_eq_some.mp ht
    exact ⟨hp, stored, made⟩

theorem single_pushInit : Single rejects (pushInit pushTimeoutMultiplier) :=
  ⟨nil_subperm, nil_sublist _, nofun⟩

theorem Single.nodup_submitted (hs : Single rejects s) :
    (s.submitted.map Record.oid).Nodup ∧ ∀ record ∈ s.submitted, record.oid < s.accepted := by
  have hp : s.submitted.map Record.oid <+~ List.range s.accepted := by
    refine Subperm.trans (Sublist.subperm ?_) hs.placed
    simp
  obtain ⟨oids, perm, sub⟩ := hp
  refine ⟨perm.nodup_iff.mp (nodup_range.sublist sub), fun record hm => mem_range.mp ?_⟩
  exact sub.subset (perm.mem_iff.mpr (mem_map_of_mem hm))

/-- The collection, as the tasks have written it. -/
def Single.collection (hs : Single rejects s) : Collection where
  records := s.stored
  pushed record hm := hs.made record (by simp [mem_of_mem_filter (hs.stored.subset hm)])
  unique := hs.nodup_submitted.1.sublist ((hs.stored.trans filter_sublist).map _)

/-- **At most once.** Whatever fails, no object is submitted twice, nothing is submitted that was
not accepted, and what is stored was submitted and not rejected. -/
theorem objects_submitted_at_most_once {actions : List PushAction}
    (run : execute (pushStep pushTimeoutMultiplier rejects) (pushInit pushTimeoutMultiplier)
      actions = some t) :
    (t.submitted.map Record.oid).Nodup ∧ (∀ record ∈ t.submitted, record.oid < t.accepted) ∧
      t.stored <+ t.submitted.filter (!rejects ·) := by
  have hs := invariant_of_execute pushStep_single single_pushInit run
  obtain ⟨nodup, below⟩ := hs.nodup_submitted
  exact ⟨nodup, below, hs.stored⟩

/-- An object that was pushed inside the window of a query is returned in a later state, and found
by its time, exactly if it is retrievable there. -/
theorem pushed_object_found_iff {before after : List PushAction} {position : ℕ}
    {pushedAt : BitVec 64} {key : List Byte} {metaTags : Finset (List Byte)} {object : DataObject}
    {record : Record} (query : Query)
    (reached : execute (pushStep pushTimeoutMultiplier rejects) (pushInit pushTimeoutMultiplier)
      before = some s)
    (pushed : pushObject s.accepted pushedAt key metaTags object = .ok record)
    (run : execute (pushStep pushTimeoutMultiplier rejects) s
      (.pushObject pushedAt key metaTags object position :: after) = some t)
    (sameKey : query.key = key) (tagged : query.metaTags ⊆ metaTags)
    (notBefore : query.timestampFrom ≤ pushedAt) (notAfter : pushedAt ≤ query.timestampTo)
    (large : (query.matching t.stored ⟨0, 0⟩).length ≤ query.pageLen) (readAt : BitVec 64) :
    Returned t.stored query record ∧ getElement t.stored readAt key pushedAt = some record ↔
      Retrievable t.stored query record pushedAt readAt :=
  have single := invariant_of_execute pushStep_single single_pushInit reached
  found_iff_retrievable (invariant_of_execute pushStep_single single run).collection query pushed
    sameKey tagged notBefore notAfter large readAt

end Objects

/-- The dataset with a sequence number is pushed. -/
def pushDataset (seqId : BitVec 64) (position : ℕ) : PushAction :=
  .pushObject 1000 [107] ∅ (datasetObject (.int64 1) seqId) position

/-- At a multiple of 256 milliseconds, and within 16 of them, the dataset is found that has been
written. -/
theorem pushed_object_found_768 :
    ∃ t, execute (pushStep 0 fun _ => false) (pushInit 0)
        [.pushObject 768 [107] ∅ (datasetObject (.int64 1) 1) 0, .timeout, .executePush true] =
          some t ∧
      Returned t.stored ⟨[107], ∅, 700, 2000, 10⟩ (datasetRecord 0 768 [107] (.int64 1) 1) ∧
      getElement t.stored 770 [107] 768 = some (datasetRecord 0 768 [107] (.int64 1) 1) := by
  refine ⟨_, rfl, (@pushed_object_found_iff 0 (fun _ => false) _ _ [] [.timeout, .executePush true]
    0 768 [107] ∅ (datasetObject (.int64 1) 1) _ ⟨[107], ∅, 700, 2000, 10⟩ rfl rfl rfl rfl
    (Finset.Subset.refl _) (by decide) (by decide) (by decide) 770).mpr ?_⟩
  exact ⟨by decide, by decide, by decide, by decide, by decide, [], [], rfl, nofun⟩

/-- A dataset that is pushed at 1000 milliseconds is not found before it has been written, and is
then stored with 768. A window from 1000 on does not return it, and `getObject` does not find it at
the very same time. -/
theorem pushed_object_not_found :
    (∃ s, execute (pushStep 0 fun _ => false) (pushInit 0) [pushDataset 1 0] = some s ∧
      s.accepted = 1 ∧
      findObject s.stored ⟨[107], ∅, 700, 2000, 10⟩ ⟨0, 0⟩ = some ([], ⟨0, 0⟩)) ∧
    ∃ t, execute (pushStep 0 fun _ => false) (pushInit 0)
        [pushDataset 1 0, .timeout, .executePush true] = some t ∧
      t.stored = [datasetRecord 0 1000 [107] (.int64 1) 1] ∧
      findObject t.stored ⟨[107], ∅, 1000, 2000, 10⟩ ⟨0, 0⟩ = some ([], ⟨0, 0⟩) ∧
      getObject t.stored 1000 [107] 1000 = .empty := by
  decide

/-- Two datasets, of which the second is rejected, are in a batch. -/
theorem objects_submitted_once_two :
    ∃ t, execute (pushStep 0 fun record => record.oid = 1) (pushInit 0)
        [pushDataset 1 0, pushDataset 2 1, .timeout, .executePush true, .destroy] = some t ∧
      t.accepted = 2 ∧ t.stored.map Record.oid = [0] ∧
      (∀ oid < t.accepted, (t.submitted.map Record.oid).count oid = 1) ∧
      ∀ record ∈ t.submitted, decide (record.oid = 1) = false → record ∈ t.stored :=
  ⟨_, rfl, rfl, rfl, @objects_submitted_once 0 (fun record => record.oid = 1) _
    [pushDataset 1 0, pushDataset 2 1, .timeout, .executePush true, .destroy] (by decide) rfl rfl
    rfl⟩

/-- The first task ends with an exception. -/
theorem objects_submitted_at_most_once_lost :
    ∃ t, execute (pushStep 0 fun _ => false) (pushInit 0)
        [pushDataset 1 0, .timeout, .executePush false, pushDataset 2 0, .timeout,
          .executePush true] = some t ∧
      t.submitted.map Record.oid = [1] ∧ ∀ record ∈ t.submitted, record.oid < t.accepted :=
  ⟨_, rfl, rfl, (@objects_submitted_at_most_once 0 (fun _ => false) _
    [pushDataset 1 0, .timeout, .executePush false, pushDataset 2 0, .timeout, .executePush true]
    rfl).2.1⟩

/-- A dataset behind a rejected one is not stored, and one that is pushed before the data access
is destroyed is not even submitted. -/
theorem datasets_lost :
    (execute (pushStep 0 fun record => record.oid = 0) (pushInit 0)
        [pushDataset 1 0, pushDataset 2 1, .timeout, .executePush true, pushDataset 3 0,
          .destroy]).map
      (fun t => (t.accepted, t.destroyed, t.currentPush, t.submitted.map Record.oid,
        t.stored.map Record.oid)) = some (3, true, none, [0, 1], []) := by
  decide

end ChaosFramework.ObjectStorage
