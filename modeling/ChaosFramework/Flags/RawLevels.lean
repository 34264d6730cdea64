import ChaosFramework.Flags.Catalog
import Mathlib.Data.List.Count

/-!
# Raw levels

`getRawFlagsLevel` writes the current levels of a catalog into a buffer, in the order of the flags,
and `setApplyRawFlagsValue` sets the flags of another catalog to them. It goes through all the flags
for every byte of the buffer. That makes no difference to the levels and to the listeners, but a
level that a flag has already is counted every time.
-/

namespace ChaosFramework.Flags

open List Function

/-- The flags and catalogs, with what `setCurrentLevel` counts and whom it tells. -/
structure CountedWorld extends World where
  /-- The counter `occurence` of a level of a flag. -/
  occurence : ℕ → ℤ → ℕ
  /-- How often a flag has told a listener. -/
  fired : ℕ → ℕ → ℕ

namespace CountedWorld

def setCurrentLevel (w : CountedWorld) (f : ℕ) (level : ℤ) : CountedWorld :=
  let flag := w.flags f
  if (flag.findLevel level).isNone then w
  else if flag.currentLevel ≠ level then
    { w with
      toWorld := (w.toWorld.setFlag f (flag.withLevel level)).fire f
      fired := update w.fired f fun l => w.fired f l + if l ∈ flag.listeners then 1 else 0 }
  else
    { w with
      occurence :=
        update w.occurence f (update (w.occurence f) level (w.occurence f level + 1)) }

def setLevels (w : CountedWorld) (changes : List (ℕ × ℤ)) : CountedWorld :=
  changes.foldl (fun w change => w.setCurrentLevel change.1 change.2) w

/-- The memory of the buffer is not initialized. -/
def getRawFlagsLevel (w : CountedWorld) (c : ℕ) : List ℤ :=
  let container := (w.catalogs c).container
  container.foldl (fun raw e => raw.set e.seqId (w.flags e.statusFlag).currentLevel)
    (List.replicate container.length 0)

/-- The inner loop sets all the flags, and it is run once for each byte of the buffer. -/
def setApplyRawFlagsValue (w : CountedWorld) (c : ℕ) (buffer : List ℤ) : CountedWorld :=
  let container := (w.catalogs c).container
  if buffer.length ≠ container.length then w
  else
    w.setLevels (List.replicate buffer.length
      (container.map fun e => (e.statusFlag, buffer.getD e.seqId 0))).flatten

/-- The flags of the two catalogs have the same levels, and those of the first are set to one of
them. The places are numbered, and the flags of a catalog are different ones. -/
structure SameStructure (w : CountedWorld) (c d : ℕ) : Prop where
  length : (w.catalogs c).container.length = (w.catalogs d).container.length
  numbered : ∀ i ∈ [c, d], (w.catalogs i).container.map (·.seqId) =
    List.range (w.catalogs i).container.length
  uuids : ((w.catalogs d).container.map fun e => (w.flags e.statusFlag).uuid).Nodup
  levels : ∀ p ∈ (w.catalogs c).container.zip (w.catalogs d).container,
    (w.flags p.1.statusFlag).setLevels = (w.flags p.2.statusFlag).setLevels
  settled : ∀ e ∈ (w.catalogs c).container, (w.flags e.statusFlag).getCurrentStateLevel.isSome

/-- Every flag of a catalog has the level of the buffer. Its listeners have been told once if it
had another one, and its counter has been incremented once if not. -/
def Applied (w t : CountedWorld) (d : ℕ) (buffer : List ℤ) : Prop :=
  ∀ e ∈ (w.catalogs d).container, ∀ level ∈ buffer[e.seqId]?,
    (t.flags e.statusFlag).currentLevel = level ∧
    (∀ l, t.fired e.statusFlag l = w.fired e.statusFlag l +
      if (w.flags e.statusFlag).currentLevel ≠ level ∧ l ∈ (w.flags e.statusFlag).listeners then 1
      else 0) ∧
    ∀ v, t.occurence e.statusFlag v = w.occurence e.statusFlag v +
      if (w.flags e.statusFlag).currentLevel = level ∧ v = level then 1 else 0

variable {w : CountedWorld} {f g c d : ℕ} {level : ℤ} {e : StateFlagElement}

/-- The levels and the bitsets are those of the flags without the counters. -/
theorem toWorld_setCurrentLevel (w : CountedWorld) (f : ℕ) (level : ℤ) :
    (w.setCurrentLevel f level).toWorld = w.toWorld.setCurrentLevel f level := by
  simp only [setCurrentLevel, World.setCurrentLevel, apply_ite CountedWorld.toWorld]

theorem toWorld_setLevels (w : CountedWorld) (changes : List (ℕ × ℤ)) :
    (w.setLevels changes).toWorld = w.toWorld.setLevels changes := by
  induction changes generalizing w with
  | nil => rfl
  | cons change changes ih => exact (ih _).trans (by rw [toWorld_setCurrentLevel]; rfl)

theorem toWorld_setApplyRawFlagsValue (w : CountedWorld) (c : ℕ) (buffer : List ℤ) :
    (w.setApplyRawFlagsValue c buffer).toWorld = w.toWorld.setApplyRawFlagsValue c buffer := by
  simp only [setApplyRawFlagsValue, World.setApplyRawFlagsValue, apply_ite CountedWorld.toWorld,
    toWorld_setLevels]

/-- What remains of setting a flag to a level `k` times. -/
structure SetTimes (w t : CountedWorld) (f : ℕ) (level : ℤ) (k : ℕ) : Prop where
  currentLevel : (t.flags f).currentLevel = if k = 0 then (w.flags f).currentLevel else level
  fired : ∀ l, t.fired f l = w.fired f l +
    if k ≠ 0 ∧ (w.flags f).currentLevel ≠ level ∧ l ∈ (w.flags f).listeners then 1 else 0
  occurence : ∀ v, t.occurence f v = w.occurence f v +
    if v = level then if (w.flags f).currentLevel = level then k else k - 1 else 0

theorem setCurrentLevel_of_ne (h : f ≠ g) : (w.setCurrentLevel g level).flags f = w.flags f ∧
    (w.setCurrentLevel g level).fired f = w.fired f ∧
    (w.setCurrentLevel g level).occurence f = w.occurence f := by
  simp only [setCurrentLevel]
  split
  · exact ⟨rfl, rfl, rfl⟩
  · split
    · exact ⟨update_of_ne h .., update_of_ne h .., rfl⟩
    · exact ⟨rfl, rfl, update_of_ne h ..⟩

theorem setCurrentLevel_self (hl : ((w.flags f).findLevel level).isSome) :
    SetTimes w (w.setCurrentLevel f level) f level 1 ∧
      ((w.setCurrentLevel f level).flags f).setLevels = (w.flags f).setLevels := by
  have hn : ((w.flags f).findLevel level).isNone = false := by simpa using hl
  simp only [setCurrentLevel, hn, Bool.false_eq_true, if_false]
  split
  · rename_i different
    have hf : (((w.setFlag f ((w.flags f).withLevel level)).fire f).flags f) =
      (w.flags f).withLevel level := update_self ..
    refine ⟨⟨by rw [hf]; rfl, fun l => ?_, by simp [different]⟩, by rw [hf]; rfl⟩
    simp [different]
  · rename_i he
    refine ⟨⟨not_not.mp he, by simp [he], fun v => ?_⟩, rfl⟩
    dsimp only
    rw [if_pos (not_not.mp he), update_self, update_apply]
    split_ifs with hv
    · rw [hv]
    · rfl

/-- The first call may change the level, the further ones are counted. -/
theorem SetTimes.trans {u t : CountedWorld} {k : ℕ} (h : SetTimes w u f level 1)
    (ht : SetTimes u t f level k) : SetTimes w t f level (k + 1) := by
  have hu : (u.flags f).currentLevel = level := h.currentLevel
  refine ⟨?_, fun l => ?_, fun v => ?_⟩
  · rw [ht.currentLevel, hu]
    simp
  · rw [ht.fired, h.fired, hu]
    simp
  · rw [ht.occurence, h.occurence]
    split_ifs <;> omega

theorem setTimes_setLevels {changes : List (ℕ × ℤ)} (hl : ((w.flags f).findLevel level).isSome)
    (h : ∀ change ∈ changes, change.1 = f → change.2 = level) :
    SetTimes w (w.setLevels changes) f level (changes.countP (·.1 = f)) := by
  induction changes generalizing w with
  | nil => exact ⟨rfl, by simp [setLevels], by simp [setLevels]⟩
  | cons change changes ih =>
    obtain ⟨g, v⟩ := change
    have hc := fun change hm => h change (mem_cons_of_mem _ hm)
    by_cases hg : g = f
    · obtain rfl := h (g, v) mem_cons_self hg
      subst hg
      obtain ⟨hs, hl'⟩ := setCurrentLevel_self hl
      rw [countP_cons_of_pos (by simp)]
      refine hs.trans (ih ?_ hc)
      rwa [StateFlag.findLevel, hl']
    · obtain ⟨hf, hd, ho⟩ := @setCurrentLevel_of_ne w f g v (Ne.symm hg)
      rw [countP_cons_of_neg (by simpa using hg)]
      obtain ⟨h1, h2, h3⟩ := @ih (w.setCurrentLevel g v) (hf.symm ▸ hl) hc
      rw [hf] at h1 h2 h3
      rw [hd] at h2
      rw [ho] at h3
      exact ⟨h1, h2, h3⟩

theorem foldl_set_seqId (v : StateFlagElement → ℤ) (m : ℕ) {l : List StateFlagElement}
    (h : l.map (·.seqId) = range l.length) :
    l.foldl (fun raw e => raw.set e.seqId (v e)) (replicate (l.length + m) 0) =
      l.map v ++ replicate m 0 := by
  induction l using reverseRecOn generalizing m with
  | nil => simp
  | append_singleton l e ih =>
    rw [map_append, length_append, length_singleton, range_succ] at h
    obtain ⟨hl, he⟩ := append_inj' h rfl
    rw [foldl_append, length_append, length_singleton, Nat.add_assoc, ih _ hl, Nat.add_comm 1]
    simp [(List.cons.inj he).1, replicate_succ]

theorem getRawFlagsLevel_eq (h : (w.catalogs c).container.map (·.seqId) =
    range (w.catalogs c).container.length) :
    w.getRawFlagsLevel c =
      (w.catalogs c).container.map fun e => (w.flags e.statusFlag).currentLevel := by
  simpa [getRawFlagsLevel] using foldl_set_seqId (fun e => (w.flags e.statusFlag).currentLevel) 0 h

/-- A flag, and the one in the same place of the first catalog. -/
theorem SameStructure.place (h : SameStructure w c d)
    (he : e ∈ (w.catalogs d).container) : ∃ x, (x, e) ∈
      (w.catalogs c).container.zip (w.catalogs d).container ∧
        (w.getRawFlagsLevel c)[e.seqId]? = some (w.flags x.statusFlag).currentLevel := by
  obtain ⟨i, hi, rfl⟩ := getElem_of_mem he
  have hs : (w.catalogs d).container[i].seqId = i := by
    have := congrArg (·[i]?) (h.numbered d (by simp))
    simpa [hi] using this
  have hc : i < (w.catalogs c).container.length := h.length ▸ hi
  refine ⟨(w.catalogs c).container[i], ?_, ?_⟩
  · exact mem_iff_getElem.mpr ⟨i, by simp [hi, hc], by simp⟩
  · rw [getRawFlagsLevel_eq (h.numbered c (by simp)), hs]
    simp [hc]

theorem SameStructure.set (h : SameStructure w c d)
    (he : e ∈ (w.catalogs d).container) (hb : level ∈ (w.getRawFlagsLevel c)[e.seqId]?) :
    SetTimes w (w.setApplyRawFlagsValue d (w.getRawFlagsLevel c)) e.statusFlag level
      (w.catalogs d).container.length := by
  have hn : (w.getRawFlagsLevel c).length = (w.catalogs d).container.length := by
    rw [getRawFlagsLevel_eq (h.numbered c (by simp)), length_map, h.length]
  have hu : ∀ x ∈ (w.catalogs d).container, x.statusFlag = e.statusFlag → x = e := fun x hx hs =>
    inj_on_of_nodup_map h.uuids hx he (by rw [hs])
  let changes := (w.catalogs d).container.map
    fun e => (e.statusFlag, (w.getRawFlagsLevel c).getD e.seqId 0)
  have once : changes.countP (·.1 = e.statusFlag) = 1 := by
    rw [countP_map, ← count_eq_one_of_mem (h.uuids.of_map _) he]
    refine countP_congr fun x hx => ?_
    simpa using ⟨hu x hx, fun hs => by rw [hs]⟩
  have hl : ((w.flags e.statusFlag).findLevel level).isSome := by
    obtain ⟨x, hz, hx⟩ := h.place he
    rw [← Option.some.inj (hx.symm.trans hb), StateFlag.findLevel, ← h.levels _ hz]
    exact h.settled x (of_mem_zip hz).1
  have hlevel : ∀ change ∈ (replicate (w.catalogs d).container.length changes).flatten,
      change.1 = e.statusFlag → change.2 = level := by
    intro change hm hf
    obtain ⟨l, hr, hm⟩ := mem_flatten.mp hm
    rw [eq_of_mem_replicate hr] at hm
    obtain ⟨x, hx, rfl⟩ := mem_map.mp hm
    obtain rfl := hu x hx hf
    simp [Option.mem_def.mp hb]
  have times := setTimes_setLevels hl hlevel
  rw [countP_flatten, map_replicate, once, sum_replicate_nat, Nat.mul_one] at times
  simp only [setApplyRawFlagsValue, hn, ne_eq]
  exact times

/-- **Raw levels.** The levels of a catalog are applied to one of the same structure as they should
be exactly if there is at most one flag. -/
theorem applied_iff_length_le_one {c d : ℕ} (h : SameStructure w c d) :
    Applied w (w.setApplyRawFlagsValue d (w.getRawFlagsLevel c)) d (w.getRawFlagsLevel c) ↔
      (w.catalogs d).container.length ≤ 1 := by
  constructor
  · intro ha
    cases hd : (w.catalogs d).container with
    | nil => simp
    | cons e rest =>
      have he : e ∈ (w.catalogs d).container := by simp [hd]
      obtain ⟨x, -, hb⟩ := h.place he
      have ho := (ha e he _ hb).2.2 (w.flags x.statusFlag).currentLevel
      rw [(h.set he hb).occurence, hd] at ho
      split_ifs at ho <;> omega
  · intro hn e he level hb
    obtain ⟨hc, hf, ho⟩ := h.set he hb
    have once : (w.catalogs d).container.length = 1 :=
      Nat.le_antisymm hn (length_pos_of_mem he)
    rw [once] at hc hf ho
    refine ⟨hc, by simpa using hf, fun v => ?_⟩
    rw [ho]
    split_ifs <;> simp_all

/-- Two catalogs of so many flags with the levels `0` and `1`. The first flags are set to `1`, the
others to `0`. -/
def twoCatalogs (n : ℕ) : CountedWorld where
  flags f := ⟨f, toString (f % n), if f < n then 1 else 0, [⟨0, .regular⟩, ⟨1, .warning⟩],
    {f / n}⟩
  flagCount := 2 * n
  nextUuid := 2 * n
  catalogs c := ⟨"catalog", (List.range n).map fun i => ⟨i, toString i, c * n + i⟩, fun _ => []⟩
  catalogCount := 2
  looked := []
  occurence _ _ := 0
  fired _ _ := 0

theorem applied_iff_length_le_one_one : SameStructure (twoCatalogs 1) 0 1 ∧
    Applied (twoCatalogs 1) ((twoCatalogs 1).setApplyRawFlagsValue 1 [1]) 1 [1] := by
  have h : SameStructure (twoCatalogs 1) 0 1 :=
    ⟨rfl, by decide, by decide, by decide, by decide⟩
  exact ⟨h, (applied_iff_length_le_one h).mpr (by decide)⟩

/-- Two flags change their levels, and the new levels are counted. -/
theorem changed_level_counted : SameStructure (twoCatalogs 2) 0 1 ∧
    (twoCatalogs 2).getRawFlagsLevel 0 = [1, 1] ∧
    ((twoCatalogs 2).setApplyRawFlagsValue 1 [1, 1]).occurence 2 1 = 1 ∧
    ¬ Applied (twoCatalogs 2) ((twoCatalogs 2).setApplyRawFlagsValue 1 [1, 1]) 1 [1, 1] := by
  refine ⟨⟨rfl, by decide, by decide, by decide, by decide⟩, by decide, by decide, fun h => ?_⟩
  exact absurd ((h ⟨0, "0", 2⟩ (by decide) 1 rfl).2.2 1) (by decide)

end CountedWorld

end ChaosFramework.Flags
