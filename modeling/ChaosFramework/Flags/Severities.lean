import ChaosFramework.Flags.Catalog

/-!
# The severities of a catalog

`Consistent` says of a catalog that its bitsets have one bit for each of its flags, and that the bit
of a flag is set in the bitset of its severity only. It fails in three ways
(`severities_consistent_iff`): a flag that the catalog holds already is added under another name
(the container refuses it, the bitsets grow), the catalog is copied (the copy has no bits), and a
catalog is assigned (the bitsets stay).

The changes of levels need no care: a catalog listens to all its flags (`Kept.listening`), and the
uuids of a catalog are unique.
-/

namespace ChaosFramework.Flags

open Transition List Option Function
open StateFlagCatalog (addMemberToSeverityMap hasUuid hasName)

/-! ### What a catalog has to keep -/

/-- The bits of the catalog and what is derived from them. -/
structure StateFlagCatalog.Consistent (flags : ℕ → StateFlag) (c : StateFlagCatalog) : Prop where
  size : ∀ s ∈ severities, (c.bits s).length = c.container.length
  bit : ∀ s ∈ severities, ∀ e ∈ c.container,
    (c.bits s)[e.seqId]? = some ((flags e.statusFlag).severity == some s)
  listed : ∀ e ∈ c.container, ∃ s ∈ severities, some e.statusFlag ∈ c.getFlagsForSeverity s ∧
    ∀ other ∈ severities, some e.statusFlag ∈ c.getFlagsForSeverity other → other = s
  clear : c.isCatalogClear = true ↔
    ∀ e ∈ c.container, (flags e.statusFlag).severity = some .regular

/-- A flag with a current level, all of whose levels have one of the severities. -/
structure StateFlag.Proper (f : StateFlag) : Prop where
  current : f.getCurrentStateLevel.isSome
  levels : ∀ level ∈ f.setLevels, level.severity ∈ severities

theorem StateFlag.Proper.severity {f : StateFlag} (proper : f.Proper) :
    ∃ s ∈ severities, f.severity = some s := by
  obtain ⟨level, found⟩ := isSome_iff_exists.mp proper.current
  refine ⟨level.severity, proper.levels level (mem_of_find?_eq_some found), ?_⟩
  rw [StateFlag.severity, found, map_some]

/-- Nothing but listeners has come to the flags. -/
def Grows (flags others : ℕ → StateFlag) : Prop :=
  ∀ f, ∃ listeners, (flags f).listeners ⊆ listeners ∧ others f = { flags f with listeners }

namespace Grows

variable {flags others more : ℕ → StateFlag}

theorem refl (flags : ℕ → StateFlag) : Grows flags flags :=
  fun f => ⟨(flags f).listeners, subset_rfl, rfl⟩

theorem trans (first : Grows flags others) (second : Grows others more) : Grows flags more := by
  intro f
  obtain ⟨few, subset, same⟩ := first f
  obtain ⟨many, subsetToo, hs⟩ := second f
  refine ⟨many, subset.trans ?_, by rw [hs, same]⟩
  rwa [same] at subsetToo

theorem addListener (flags : ℕ → StateFlag) (f c : ℕ) :
    Grows flags (update flags f ((flags f).addListener c)) := by
  intro g
  obtain rfl | same := eq_or_ne g f
  · exact ⟨_, Finset.subset_insert c _, update_self ..⟩
  · exact ⟨_, subset_rfl, update_of_ne same ..⟩

variable (hg : Grows flags others)

include hg

theorem uuid (f : ℕ) : (others f).uuid = (flags f).uuid := by
  obtain ⟨_, -, same⟩ := hg f
  rw [same]

theorem severity (f : ℕ) : (others f).severity = (flags f).severity := by
  obtain ⟨_, -, same⟩ := hg f
  rw [same]
  rfl

theorem proper {f : ℕ} (hp : (flags f).Proper) : (others f).Proper := by
  obtain ⟨_, -, same⟩ := hg f
  rw [same]
  exact ⟨hp.current, hp.levels⟩

theorem listeners (f : ℕ) : (flags f).listeners ⊆ (others f).listeners := by
  obtain ⟨_, subset, same⟩ := hg f
  rwa [same]

end Grows

/-- The flag `f`, and no other, has another current level. -/
structure Relevelled (flags others : ℕ → StateFlag) (f : ℕ) : Prop where
  uuid : ∀ g, (others g).uuid = (flags g).uuid
  listeners : ∀ g, (others g).listeners = (flags g).listeners
  elsewhere : ∀ g, g ≠ f → others g = flags g
  proper : (others f).Proper

variable {flags : ℕ → StateFlag} {f : ℕ}

theorem relevelled_update {level : ℤ}
    (found : ((flags f).findLevel level).isSome) (hp : (flags f).Proper) :
    Relevelled flags (update flags f ((flags f).withLevel level)) f where
  uuid g := by
    rw [update_apply]
    split <;> simp [*, StateFlag.withLevel]
  listeners g := by
    rw [update_apply]
    split <;> simp [*, StateFlag.withLevel]
  elsewhere g other := update_of_ne other ..
  proper := by
    rw [update_self]
    exact ⟨found, hp.levels⟩

/-- What a catalog, the one with the number `i`, keeps of the flags. -/
structure Kept (flags : ℕ → StateFlag) (i : ℕ) (c : StateFlagCatalog) : Prop where
  numbered : ∀ j (e : StateFlagElement), c.container[j]? = some e → e.seqId = j
  names : (c.container.map StateFlagElement.flagName).Nodup
  uuids : (c.container.map fun e => (flags e.statusFlag).uuid).Nodup
  bits : ∀ s ∈ severities,
    c.bits s = c.container.map fun e => (flags e.statusFlag).severity == some s
  listening : ∀ e ∈ c.container, i ∈ (flags e.statusFlag).listeners
  proper : ∀ e ∈ c.container, (flags e.statusFlag).Proper

namespace Kept

variable {flags others : ℕ → StateFlag} {i f : ℕ} {c : StateFlagCatalog} {s : StateFlagServerity}
  {e : StateFlagElement}

theorem construct (flags : ℕ → StateFlag) (i : ℕ) (name : String) :
    Kept flags i (.construct name) where
  numbered := nofun
  names := nodup_nil
  uuids := nodup_nil
  bits _ _ := rfl
  listening := nofun
  proper := nofun

variable (hk : Kept flags i c)

include hk

/-- The bits depend on the severities only. -/
theorem bits_eq (member : s ∈ severities) :
    c.bits s = (c.container.map fun e => (flags e.statusFlag).severity).map (· == some s) := by
  rw [hk.bits s member, List.map_map]
  rfl

theorem getElem_seqId (member : e ∈ c.container) : c.container[e.seqId]? = some e := by
  obtain ⟨j, found⟩ := mem_iff_getElem?.mp member
  rwa [hk.numbered j e found]

theorem getFlagByOrderedID
    (member : e ∈ c.container) : c.getFlagByOrderedID e.seqId = some e.statusFlag := by
  have found : (c.container.find? fun other => other.seqId == e.seqId) = some e := by
    cases search : c.container.find? fun other => other.seqId == e.seqId with
    | none => simpa using find?_eq_none.mp search e member
    | some other =>
      have same : other.seqId = e.seqId := by simpa using find?_some search
      have first := hk.getElem_seqId (mem_of_find?_eq_some search)
      rw [same, hk.getElem_seqId member] at first
      exact first.symm
  rw [StateFlagCatalog.getFlagByOrderedID, found, map_some]

/-- The flags are listed by their severity. -/
theorem getFlagsForSeverity (member : s ∈ severities) :
    c.getFlagsForSeverity s =
      (c.container.filter fun e => (flags e.statusFlag).severity == some s).map
        fun e => some e.statusFlag := by
  have pairs : ∀ pair ∈ c.container.zipIdx, pair.1 ∈ c.container ∧ pair.1.seqId = pair.2 := by
    intro pair listed
    have found := (mem_zipIdx_iff_getElem?.mp listed)
    exact ⟨mem_of_getElem? found, hk.numbered _ _ found⟩
  rw [StateFlagCatalog.getFlagsForSeverity, hk.bits s member, zipIdx_map, List.filter_map,
    List.map_map]
  conv_rhs => rw [← zipIdx_map_fst 0 c.container, List.filter_map, List.map_map]
  refine map_congr_left fun pair hs => ?_
  obtain ⟨known, same⟩ := pairs pair (mem_filter.mp hs).1
  have flag := hk.getFlagByOrderedID known
  rw [same] at flag
  exact flag

theorem mem_getFlagsForSeverity (member : s ∈ severities) :
    some f ∈ c.getFlagsForSeverity s ↔
      ∃ e ∈ c.container, e.statusFlag = f ∧ (flags f).severity = some s := by
  rw [hk.getFlagsForSeverity member]
  constructor
  · intro listed
    obtain ⟨e, hs, same⟩ := List.mem_map.mp listed
    obtain ⟨known, severe⟩ := mem_filter.mp hs
    cases same
    exact ⟨e, known, rfl, by simpa using severe⟩
  · rintro ⟨e, known, rfl, severe⟩
    exact List.mem_map.mpr ⟨e, mem_filter.mpr ⟨known, by simpa using severe⟩, rfl⟩

theorem consistent : c.Consistent flags where
  size s member := by rw [hk.bits s member, length_map]
  bit s member e known := by
    rw [hk.bits s member, getElem?_map, hk.getElem_seqId known, map_some]
  listed e known := by
    obtain ⟨s, member, severe⟩ := (hk.proper e known).severity
    refine ⟨s, member, (hk.mem_getFlagsForSeverity member).mpr ⟨e, known, rfl, severe⟩,
      fun other too hl => ?_⟩
    obtain ⟨-, -, -, same⟩ := (hk.mem_getFlagsForSeverity too).mp hl
    exact Option.some.inj (same.symm.trans severe)
  clear := by
    rw [StateFlagCatalog.isCatalogClear, hk.getFlagsForSeverity (by decide), beq_iff_eq, eq_comm]
    simp

/-- A catalog keeps what it has when the flags get more listeners and its own flags
keep their severities. -/
theorem mono (hu : ∀ f, (others f).uuid = (flags f).uuid)
    (listeners : ∀ f, (flags f).listeners ⊆ (others f).listeners)
    (same : ∀ e ∈ c.container,
      (others e.statusFlag).severity = (flags e.statusFlag).severity ∧
        (others e.statusFlag).Proper) :
    Kept others i c where
  numbered := hk.numbered
  names := hk.names
  uuids := by simpa only [hu] using hk.uuids
  bits s member := by
    rw [hk.bits s member]
    exact map_congr_left fun e known => by rw [(same e known).1]
  listening e known := listeners _ (hk.listening e known)
  proper e known := (same e known).2

theorem grow (hg : Grows flags others) :
    Kept others i c :=
  hk.mono hg.uuid hg.listeners fun e known =>
    ⟨hg.severity _, hg.proper (hk.proper e known)⟩

theorem of_absent (hr : Relevelled flags others f) (absent : ∀ e ∈ c.container, e.statusFlag ≠ f) :
    Kept others i c := by
  refine hk.mono hr.uuid (fun g => (hr.listeners g).superset) fun e known => ?_
  rw [hr.elsewhere _ (absent e known)]
  exact ⟨rfl, hk.proper e known⟩

/-- The flag `f` has changed its level and says so. The element that is found by its uuid is that
of the flag, and its `seq_id` is its place. -/
theorem stateFlagUpdated (hr : Relevelled flags others f)
    (hd : ∀ e ∈ c.container, (flags e.statusFlag).uuid = (flags f).uuid → e.statusFlag = f) :
    Kept others i (c.stateFlagUpdated others (others f)) := by
  have hu := hr.uuid
  rw [StateFlagCatalog.stateFlagUpdated]
  cases search : c.container.find? fun e => (others e.statusFlag).uuid == (others f).uuid with
  | none =>
    refine hk.of_absent hr fun e known same => ?_
    simpa [same] using find?_eq_none.mp search e known
  | some e =>
    have known := mem_of_find?_eq_some search
    have found : (others e.statusFlag).uuid = (others f).uuid := by
      simpa using find?_some search
    rw [hu, hu] at found
    obtain rfl := hd e known found
    -- Another element has another uuid, so another flag.
    have other : ∀ d ∈ c.container, d ≠ e → others d.statusFlag = flags d.statusFlag :=
      fun d member different => hr.elsewhere _ fun same =>
        different (inj_on_of_nodup_map hk.uuids member known (by rw [same]))
    have settled : ∀ d ∈ c.container, (others d.statusFlag).Proper := by
      intro d member
      by_cases same : d = e
      · exact same ▸ hr.proper
      · exact other d member same ▸ hk.proper d member
    refine ⟨hk.numbered, hk.names, by simpa only [hu] using hk.uuids, fun s member => ?_,
      fun d member => (hr.listeners _).superset (hk.listening d member), settled⟩
    dsimp only
    rw [if_pos member, hk.bits s member]
    have own := hk.getElem_seqId known
    refine ext_getElem? fun j => ?_
    rw [getElem?_map]
    obtain rfl | outside := eq_or_ne e.seqId j
    · have inside := (List.getElem?_eq_some_iff.mp own).1
      rw [getElem?_set_self (by simpa using inside), own]
      rfl
    · rw [getElem?_set_ne outside, getElem?_map]
      refine Option.map_congr fun d place => ?_
      rw [other d (mem_of_getElem? place)]
      rintro rfl
      exact outside (hk.numbered j d place)

end Kept

theorem mem_container_insert {c : StateFlagCatalog} {name : String}
    {flag : StateFlag} {e : StateFlagElement}
    (member : e ∈ ((c.insert flags name f).addMemberToSeverityMap flag).container) :
    e ∈ c.container ∨ e.flagName = name ∧ e.statusFlag = f := by
  rw [StateFlagCatalog.insert] at member
  split at member
  case isTrue => exact Or.inl member
  case isFalse =>
    rcases mem_append.mp member with old | last
    · exact Or.inl old
    · cases mem_singleton.mp last
      exact Or.inr ⟨rfl, rfl⟩

namespace Kept

variable {flags : ℕ → StateFlag} {i : ℕ} {c : StateFlagCatalog}

theorem insertFlag {others : ℕ → StateFlag} {name : String} (hk : Kept flags i c)
    (hg : Grows flags others) (fresh : (flags f).Proper) (hl : i ∈ (others f).listeners)
    (hu : ¬ c.hasName name) (absent : ¬ c.hasUuid flags (flags f).uuid) :
    Kept others i ((c.insert flags name f).addMemberToSeverityMap (flags f)) := by
  have unnumbered : ¬ c.hasSeqId c.container.length := by
    rintro ⟨e, known, last⟩
    have place := (List.getElem?_eq_some_iff.mp (hk.getElem_seqId known)).1
    omega
  have new : ∀ e ∈ ((c.insert flags name f).addMemberToSeverityMap (flags f)).container,
      e ∈ c.container ∨ e.statusFlag = f :=
    fun e member => (mem_container_insert member).imp_right And.right
  rw [StateFlagCatalog.insert, if_neg (by simp [unnumbered, hu, absent])] at new ⊢
  refine ⟨fun j e place => ?_, ?_, ?_, fun s member => ?_, fun e member => ?_, fun e member => ?_⟩
  · rw [addMemberToSeverityMap, getElem?_append] at place
    split at place
    case isTrue inside => exact hk.numbered j e place
    case isFalse outside =>
      obtain ⟨last, rfl⟩ := List.getElem?_eq_some_iff.mp place
      have : j = c.container.length := by
        simp only [length_singleton] at last
        omega
      simp [this]
  · rw [addMemberToSeverityMap, map_append]
    refine Nodup.append hk.names (nodup_singleton _) ?_
    simpa [hasName] using hu
  · rw [addMemberToSeverityMap, map_append]
    simp only [hg.uuid]
    refine Nodup.append hk.uuids (nodup_singleton _) ?_
    simpa [hasUuid] using absent
  · rw [addMemberToSeverityMap]
    dsimp only
    rw [if_pos member, hk.bits s member, map_append, map_singleton]
    simp only [hg.severity]
  · rcases new e member with old | rfl
    · exact hg.listeners _ (hk.listening e old)
    · exact hl
  · rcases new e member with old | rfl
    · exact hg.proper (hk.proper e old)
    · exact hg.proper fresh

end Kept

/-! ### The heap -/

structure World.Tracked (w : World) : Prop where
  proper : ∀ f < w.flagCount, (w.flags f).Proper
  distinct : ∀ f < w.flagCount, ∀ g < w.flagCount, (w.flags f).uuid = (w.flags g).uuid → f = g
  kept : ∀ c < w.catalogCount, Kept w.flags c (w.catalogs c)
  known : ∀ c < w.catalogCount, ∀ e ∈ (w.catalogs c).container, e.statusFlag < w.flagCount

namespace World

variable {w t : World} {c f rhs : ℕ} {name : String} {cat : StateFlagCatalog}
  {others : ℕ → StateFlag} {call : CatalogCall}

/-- One catalog is replaced, and the flags get listeners. -/
theorem Tracked.setCatalog {count : ℕ}
    {looked : List StateFlag} (tracked : w.Tracked) (hg : Grows w.flags others)
    (hk : Kept others c cat) (known : ∀ e ∈ cat.container, e.statusFlag < w.flagCount)
    (count_le : ∀ d < count, d ≠ c → d < w.catalogCount) :
    Tracked { w with
      flags := others
      catalogs := update w.catalogs c cat
      catalogCount := count
      looked } where
  proper f small := hg.proper (tracked.proper f small)
  distinct f small g smallToo same :=
    tracked.distinct f small g smallToo (by rw [← hg.uuid f, ← hg.uuid g]; exact same)
  kept d small := by
    obtain rfl | same := eq_or_ne d c
    · simpa using hk
    · simpa [same] using (tracked.kept d (count_le d small same)).grow hg
  known d small := by
    obtain rfl | same := eq_or_ne d c
    · simpa using known
    · simpa [same] using tracked.known d (count_le d small same)

/-- A flag may be added under the name: it is skipped, or the container accepts it. -/
def Insertable (w : World) (c : ℕ) (name : String) (f : ℕ) : Prop :=
  (w.catalogs c).hasName name ∨ ¬ (w.catalogs c).hasUuid w.flags (w.flags f).uuid

@[simp] theorem insertFlag_catalogs : (w.insertFlag c name f).catalogs c =
    ((w.catalogs c).insert w.flags name f).addMemberToSeverityMap (w.flags f) :=
  update_self ..

theorem Tracked.addNamed (tracked : w.Tracked) (small : c < w.catalogCount)
    (constructed : f < w.flagCount) (hi : w.Insertable c name f) :
    (w.addNamed c name f).Tracked := by
  rw [World.addNamed]
  split
  case isTrue named => exact tracked
  case isFalse unnamed =>
    have absent := hi.resolve_left unnamed
    have hg := Grows.addListener w.flags f c
    have hl : c ∈ (update w.flags f ((w.flags f).addListener c) f).listeners := by
      simp [StateFlag.addListener]
    refine tracked.setCatalog hg ((tracked.kept c small).insertFlag hg
      (tracked.proper f constructed) hl unnamed absent) ?_ fun d less _ => less
    intro e member
    rcases mem_container_insert member with old | ⟨-, rfl⟩
    · exact tracked.known c small e old
    · exact constructed

/-! A container that has refused an element is behind its bitsets, and stays so. -/

/-- The bitsets have more bits than there are flags. -/
def Overfull (catalog : StateFlagCatalog) : Prop :=
  catalog.container.length < (catalog.bits .regular).length

theorem Overfull.not_consistent (ho : Overfull cat) : ¬ cat.Consistent flags := fun hc =>
  ho.ne' (hc.size .regular (by decide))

theorem Overfull.addNamed (ho : Overfull (w.catalogs c)) :
    Overfull ((w.addNamed c name f).catalogs c) := by
  rw [World.addNamed]
  split
  case isTrue named => exact ho
  case isFalse unnamed =>
    have size : ((w.catalogs c).insert w.flags name f).container.length ≤
        (w.catalogs c).container.length + 1 := by
      rw [StateFlagCatalog.insert]
      split <;> simp
    have bits : ((w.catalogs c).insert w.flags name f).bits = (w.catalogs c).bits := by
      rw [StateFlagCatalog.insert]
      split <;> rfl
    rw [Overfull] at ho ⊢
    simp [severities, addMemberToSeverityMap, bits]
    omega

theorem overfull_of_not_insertable (tracked : w.Tracked) (small : c < w.catalogCount)
    (hr : ¬ w.Insertable c name f) : Overfull ((w.addNamed c name f).catalogs c) := by
  obtain ⟨hu, hp⟩ := not_or.mp hr
  have full := (tracked.kept c small).consistent.size .regular (by decide)
  rw [World.addNamed, if_neg hu, Overfull]
  simp [severities, addMemberToSeverityMap, StateFlagCatalog.insert, not_not.mp hp, full]

/-! ### Appending a catalog -/

section Append

/-- What one more flag changes. -/
structure Added (w t : World) (c : ℕ) (name : String) (f : ℕ) : Prop where
  grows : Grows w.flags t.flags
  flagCount : t.flagCount = w.flagCount
  catalogCount : t.catalogCount = w.catalogCount
  others : ∀ d, d ≠ c → t.catalogs d = w.catalogs d
  /-- The elements of the catalog stay, and at most the flag comes to them. -/
  stays : ∀ e ∈ (w.catalogs c).container, e ∈ (t.catalogs c).container
  comes : ∀ e ∈ (t.catalogs c).container,
    e ∈ (w.catalogs c).container ∨ e.flagName = name ∧ e.statusFlag = f

theorem added_addNamed (w : World) (c : ℕ) (name : String) (f : ℕ) :
    Added w (w.addNamed c name f) c name f := by
  rw [World.addNamed]
  split
  case isTrue named => exact ⟨.refl _, rfl, rfl, fun _ _ => rfl, fun _ => id, fun _ => Or.inl⟩
  case isFalse unnamed =>
    refine ⟨.addListener w.flags f c, rfl, rfl, fun d other => update_of_ne other ..,
      fun e member => ?_, fun e member => mem_container_insert (insertFlag_catalogs ▸ member)⟩
    rw [insertFlag_catalogs, StateFlagCatalog.insert]
    split
    · exact member
    · exact mem_append_left _ member

variable {t : World} {src : ℕ} {todo : List StateFlagElement} {other : String}

theorem Added.hasName_iff (added : Added w t c name f) (different : other ≠ name) :
    (t.catalogs c).hasName other ↔ (w.catalogs c).hasName other := by
  constructor
  · rintro ⟨e, member, rfl⟩
    rcases added.comes e member with old | ⟨new, -⟩
    · exact ⟨e, old, rfl⟩
    · exact absurd new different
  · rintro ⟨e, member, rfl⟩
    exact ⟨e, added.stays e member, rfl⟩

theorem Added.hasUuid_iff (added : Added w t c name f) {uuid : ℕ}
    (different : (w.flags f).uuid ≠ uuid) :
    (t.catalogs c).hasUuid t.flags uuid ↔ (w.catalogs c).hasUuid w.flags uuid := by
  constructor
  · rintro ⟨e, member, rfl⟩
    rw [added.grows.uuid] at different ⊢
    rcases added.comes e member with old | ⟨-, new⟩
    · exact ⟨e, old, rfl⟩
    · exact absurd (by rw [new]) different
  · rintro ⟨e, member, rfl⟩
    exact ⟨e, added.stays e member, added.grows.uuid _⟩

/-- Flags with other names and other uuids are as insertable as before. -/
theorem Added.insertable_iff (added : Added w t c name f) {g : ℕ}
    (names : other ≠ name) (uuids : (w.flags f).uuid ≠ (w.flags g).uuid) :
    t.Insertable c other g ↔ w.Insertable c other g := by
  rw [Insertable, Insertable, added.hasName_iff names, added.grows.uuid g, added.hasUuid_iff uuids]

theorem composedName_injective {e d : StateFlagElement}
    (same : composedName cat e = composedName cat d) : e.flagName = d.flagName := by
  simpa [composedName] using same

theorem appendCatalog_catalogCount : (w.appendCatalog c src).catalogCount = w.catalogCount := by
  rw [World.appendCatalog]
  generalize (w.catalogs src).container = todo
  induction todo generalizing w with
  | nil => rfl
  | cons e todo ih => exact ih.trans (added_addNamed ..).catalogCount

theorem overfull_append (ho : Overfull (w.catalogs c)) :
    Overfull ((todo.foldl
      (fun w e => w.addNamed c (composedName (w.catalogs src) e) e.statusFlag) w).catalogs c) := by
  induction todo generalizing w with
  | nil => exact ho
  | cons e todo ih => exact ih ho.addNamed

/-- The loop of `appendCatalog` over the elements that are left. Their names and their uuids are
unique, as they are in the container of a catalog. -/
theorem append_spec (different : c ≠ src) (small : c < w.catalogCount)
    (tracked : w.Tracked) (names : (todo.map StateFlagElement.flagName).Nodup)
    (uuids : (todo.map fun e => (w.flags e.statusFlag).uuid).Nodup)
    (constructed : ∀ e ∈ todo, e.statusFlag < w.flagCount) :
    let res := todo.foldl (fun w e => w.addNamed c (composedName (w.catalogs src) e) e.statusFlag) w
    ((∀ e ∈ todo, w.Insertable c (composedName (w.catalogs src) e) e.statusFlag) → res.Tracked) ∧
    ((∃ e ∈ todo, ¬ w.Insertable c (composedName (w.catalogs src) e) e.statusFlag) →
      Overfull (res.catalogs c)) := by
  induction todo generalizing w with
  | nil => exact ⟨fun _ => tracked, fun ⟨e, member, _⟩ => by cases member⟩
  | cons e todo ih =>
    rw [map_cons, nodup_cons] at names uuids
    have added := added_addNamed w c (composedName (w.catalogs src) e) e.statusFlag
    by_cases hi : w.Insertable c (composedName (w.catalogs src) e) e.statusFlag
    · have next := tracked.addNamed small (constructed e (mem_cons_self ..)) hi
      have source := added.others src different.symm
      -- The element that was added has another name and another uuid than those that are left.
      have later : ∀ d ∈ todo,
          (w.addNamed c (composedName (w.catalogs src) e) e.statusFlag).Insertable c
              (composedName (w.catalogs src) d) d.statusFlag ↔
            w.Insertable c (composedName (w.catalogs src) d) d.statusFlag := by
        intro d member
        refine added.insertable_iff (fun same => ?_) fun same => ?_
        · exact names.1 (composedName_injective same ▸ List.mem_map_of_mem member)
        · exact uuids.1 (List.mem_map.mpr ⟨d, member, same.symm⟩)
      have rest := ih (added.catalogCount ▸ small) next names.2
        (by simpa only [added.grows.uuid] using uuids.2)
        fun d member => added.flagCount ▸ constructed d (mem_cons_of_mem e member)
      rw [source] at rest
      refine ⟨fun all => rest.1 fun d member => ?_, ?_⟩
      · exact (later d member).mpr (all d (mem_cons_of_mem e member))
      · rintro ⟨d, member, hr⟩
        rcases mem_cons.mp member with rfl | member
        · exact absurd hi hr
        · exact rest.2 ⟨d, member, fun allowed => hr ((later d member).mp allowed)⟩
    · refine ⟨fun all => absurd (all e (mem_cons_self ..)) hi, fun _ => ?_⟩
      rw [foldl_cons]
      exact overfull_append (overfull_of_not_insertable tracked small hi)

end Append

/-! ### Changing levels -/

/-- The listeners of the flag are told, and a catalog that does not listen does not have it. -/
theorem Tracked.fire (tracked : w.Tracked) (constructed : f < w.flagCount)
    (hr : Relevelled w.flags others f) : ({ w with flags := others }.fire f).Tracked := by
  refine ⟨fun g small => ?_, fun g small h smallToo same => ?_, fun d small => ?_,
    fun d small e member => ?_⟩
  · by_cases same : g = f
    · exact same ▸ hr.proper
    · have hp := tracked.proper g small
      rwa [← hr.elsewhere g same] at hp
  · exact tracked.distinct g small h smallToo ((hr.uuid g).symm.trans (same.trans (hr.uuid h)))
  · have hk := tracked.kept d small
    simp only [World.fire, World.look]
    split
    case isTrue listens =>
      exact hk.stateFlagUpdated hr fun e member same =>
        tracked.distinct _ (tracked.known d small e member) f constructed same
    case isFalse deaf =>
      refine hk.of_absent hr fun e member same => deaf ?_
      rw [hr.listeners, ← same]
      exact hk.listening e member
  · refine tracked.known d small e ?_
    simp only [World.fire, World.look] at member
    split at member
    case isTrue listens =>
      rw [StateFlagCatalog.stateFlagUpdated] at member
      split at member <;> exact member
    case isFalse deaf => exact member

theorem Tracked.setCurrentLevel (tracked : w.Tracked) (constructed : f < w.flagCount) (level : ℤ) :
    (w.setCurrentLevel f level).Tracked := by
  rw [World.setCurrentLevel]
  split
  case isTrue missing => exact tracked
  case isFalse found =>
    split
    case isFalse same => exact tracked
    case isTrue changed =>
      have hp : ((w.flags f).findLevel level).isSome :=
        isSome_iff_ne_none.mpr (by simpa using found)
      exact tracked.fire constructed (relevelled_update hp (tracked.proper f constructed))

theorem setCurrentLevel_flagCount (level : ℤ) :
    (w.setCurrentLevel f level).flagCount = w.flagCount := by
  rw [World.setCurrentLevel]
  split
  · rfl
  · split <;> rfl

theorem Tracked.setLevels {changes : List (ℕ × ℤ)} (tracked : w.Tracked)
    (constructed : ∀ change ∈ changes, change.1 < w.flagCount) : (w.setLevels changes).Tracked := by
  induction changes generalizing w with
  | nil => exact tracked
  | cons change changes ih =>
    refine ih (tracked.setCurrentLevel (constructed change (mem_cons_self ..)) _) ?_
    intro other member
    rw [setCurrentLevel_flagCount]
    exact constructed other (mem_cons_of_mem change member)

/-! ### Copies -/

theorem Tracked.construct (tracked : w.Tracked) (name : String) :
    Tracked { w.setCatalog w.catalogCount (.construct name) with
      catalogCount := w.catalogCount + 1 } := by
  refine tracked.setCatalog (.refl _) (.construct _ _ name) nofun fun d less other => ?_
  omega

/-- The loop of `operator=` that makes the catalog listen. -/
theorem listen_spec (w : World) (c : ℕ) (elems : List StateFlagElement) :
    ∃ others, elems.foldl
        (fun w e => w.setFlag e.statusFlag ((w.flags e.statusFlag).addListener c)) w =
          { w with flags := others } ∧
      Grows w.flags others ∧ ∀ e ∈ elems, c ∈ (others e.statusFlag).listeners := by
  induction elems generalizing w with
  | nil => exact ⟨w.flags, rfl, .refl _, nofun⟩
  | cons e elems ih =>
    obtain ⟨others, same, hg, hl⟩ :=
      ih (w.setFlag e.statusFlag ((w.flags e.statusFlag).addListener c))
    have first := Grows.addListener w.flags e.statusFlag c
    refine ⟨others, same, first.trans hg, fun d member => ?_⟩
    rcases mem_cons.mp member with rfl | member
    · refine hg.listeners _ ?_
      simp [World.setFlag, StateFlag.addListener]
    · exact hl d member

/-- The severities of the flags of a catalog, in their order. -/
def severitiesOf (w : World) (c : ℕ) : List (Option StateFlagServerity) :=
  (w.catalogs c).container.map fun e => (w.flags e.statusFlag).severity

/-- The bits that a catalog keeps in an assignment are right exactly when its old flags and
its new ones have the same severities. -/
theorem assign_spec (tracked : w.Tracked) (small : c < w.catalogCount)
    (smallToo : rhs < w.catalogCount) :
    (w.severitiesOf c = w.severitiesOf rhs → (w.assignCatalog c rhs).Tracked) ∧
    (((w.assignCatalog c rhs).catalogs c).Consistent (w.assignCatalog c rhs).flags →
      w.severitiesOf c = w.severitiesOf rhs) := by
  have own := tracked.kept c small
  have source := tracked.kept rhs smallToo
  obtain ⟨others, result, hg, hl⟩ := listen_spec
    (w.setCatalog c { w.catalogs rhs with bits := (w.catalogs c).bits }) c
    (w.catalogs rhs).container
  have grown := source.grow hg
  rw [World.assignCatalog, result]
  constructor
  · intro same
    refine tracked.setCatalog hg ⟨grown.numbered, grown.names, grown.uuids, fun s member => ?_,
      hl, grown.proper⟩ (tracked.known rhs smallToo) fun d less _ => less
    have bits : (w.catalogs c).bits s = (w.catalogs rhs).bits s := by
      rw [own.bits_eq member, source.bits_eq member]
      exact congrArg _ same
    exact bits.trans (grown.bits s member)
  · intro hc
    simp only [World.setCatalog, update_self] at hc
    have size : (w.catalogs c).container.length = (w.catalogs rhs).container.length := by
      rw [← own.consistent.size .regular (by decide)]
      exact hc.size .regular (by decide)
    refine ext_getElem (by simpa [severitiesOf] using size) fun j inside insideToo => ?_
    simp only [severitiesOf, getElem_map]
    rw [severitiesOf, length_map] at inside insideToo
    -- The `j`-th new flag has some severity, and its bit there is that of the `j`-th old flag.
    have known := getElem_mem insideToo
    obtain ⟨s, member, severe⟩ := (source.proper _ known).severity
    have number := source.numbered j _ (getElem?_eq_getElem insideToo)
    have bit := hc.bit s member _ known
    rw [number, hg.severity] at bit
    have old : ((w.catalogs c).bits s)[j]? =
        some ((w.flags (w.catalogs c).container[j].statusFlag).severity == some s) := by
      rw [own.bits s member, getElem?_map, getElem?_eq_getElem inside, map_some]
    have same := Option.some.inj (old.symm.trans bit)
    rw [World.setCatalog, severe, beq_self_eq_true, beq_iff_eq] at same
    exact same.trans severe.symm

theorem assignCatalog_catalogCount : (w.assignCatalog c rhs).catalogCount = w.catalogCount := by
  obtain ⟨others, result, -⟩ := listen_spec
    (w.setCatalog c { w.catalogs rhs with bits := (w.catalogs c).bits }) c
    (w.catalogs rhs).container
  rw [World.assignCatalog, result]
  rfl

/-- A copy is an assignment to a catalog without flags. -/
theorem copy_spec {src : ℕ} (tracked : w.Tracked) (small : src < w.catalogCount) :
    ((w.catalogs src).container = [] → (w.copyCatalog src).Tracked) ∧
    (((w.copyCatalog src).catalogs w.catalogCount).Consistent (w.copyCatalog src).flags →
      (w.catalogs src).container = []) := by
  have spec := assign_spec (tracked.construct "") (Nat.lt_succ_self _) (Nat.lt_succ_of_lt small)
  have target : severitiesOf { w.setCatalog w.catalogCount (.construct "") with
      catalogCount := w.catalogCount + 1 } w.catalogCount = [] := by
    simp [severitiesOf, World.setCatalog, StateFlagCatalog.construct]
  have source : severitiesOf { w.setCatalog w.catalogCount (.construct "") with
      catalogCount := w.catalogCount + 1 } src = w.severitiesOf src := by
    simp [severitiesOf, World.setCatalog, small.ne]
  rw [target, source, eq_comm, severitiesOf, map_eq_nil_iff] at spec
  exact spec

/-! ### Sequences of calls -/

/-- No flag is added that the catalog holds under another name, no catalog with flags is copied,
and a catalog is assigned only to one whose flags have the same severities. -/
def Careful (w : World) : CatalogCall → Prop
  | .addFlag c f => w.Insertable c (w.flags f).name f
  | .appendCatalog c src => ∀ e ∈ (w.catalogs src).container,
      w.Insertable c (composedName (w.catalogs src) e) e.statusFlag
  | .copy src => (w.catalogs src).container = []
  | .assign c rhs => w.severitiesOf c = w.severitiesOf rhs
  | _ => True

instance decidableInsertable (w : World) (c : ℕ) (name : String) (f : ℕ) :
    Decidable (w.Insertable c name f) :=
  inferInstanceAs (Decidable (_ ∨ ¬ _))

instance decidableCareful (w : World) (call : CatalogCall) : Decidable (w.Careful call) := by
  unfold Careful
  split <;> infer_instance

theorem step_tracked (tracked : w.Tracked)
    (hc : w.Careful call) (taken : w.catalogStep call = some t) : t.Tracked := by
  cases call with
  | construct name =>
    cases taken
    exact tracked.construct name
  | addFlag c f =>
    obtain ⟨⟨small, constructed⟩, ⟨⟩⟩ := ite_none_right_eq_some.mp taken
    exact tracked.addNamed small constructed hc
  | appendCatalog c src =>
    obtain ⟨⟨small, smallToo, different⟩, ⟨⟩⟩ := ite_none_right_eq_some.mp taken
    have source := tracked.kept src smallToo
    exact (append_spec different small tracked source.names source.uuids
      (tracked.known src smallToo)).1 hc
  | setFlagStateByName c name level | setFlagStateByID c id level =>
    obtain ⟨small, ⟨⟩⟩ := ite_none_right_eq_some.mp taken
    refine tracked.setLevels fun change member => ?_
    obtain ⟨e, found, rfl⟩ := List.mem_map.mp member
    exact tracked.known c small e (mem_of_find?_eq_some (mem_toList.mp found))
  | setAllFlagState c level =>
    obtain ⟨small, ⟨⟩⟩ := ite_none_right_eq_some.mp taken
    refine tracked.setLevels fun change member => ?_
    obtain ⟨e, known, rfl⟩ := List.mem_map.mp member
    exact tracked.known c small e known
  | setApplyRawFlagsValue c buf =>
    obtain ⟨small, ⟨⟩⟩ := ite_none_right_eq_some.mp taken
    rw [World.setApplyRawFlagsValue]
    split
    case isTrue other => exact tracked
    case isFalse same =>
      refine tracked.setLevels fun change member => ?_
      obtain ⟨pass, repeated, listed⟩ := mem_flatten.mp member
      obtain rfl := eq_of_mem_replicate repeated
      obtain ⟨e, known, rfl⟩ := List.mem_map.mp listed
      exact tracked.known c small e known
  | copy src =>
    obtain ⟨small, ⟨⟩⟩ := ite_none_right_eq_some.mp taken
    exact (copy_spec tracked small).1 hc
  | assign c rhs =>
    obtain ⟨⟨small, smallToo⟩, ⟨⟩⟩ := ite_none_right_eq_some.mp taken
    split
    case isTrue same => exact tracked
    case isFalse different => exact (assign_spec tracked small smallToo).1 hc

theorem careful_of_step (tracked : w.Tracked) (taken : w.catalogStep call = some t)
    (hc : ∀ c < t.catalogCount, (t.catalogs c).Consistent t.flags) : w.Careful call := by
  cases call with
  | construct name | setFlagStateByName c name level | setFlagStateByID c id level => exact trivial
  | addFlag c f =>
    obtain ⟨⟨small, constructed⟩, ⟨⟩⟩ := ite_none_right_eq_some.mp taken
    by_contra hr
    have added := added_addNamed w c (w.flags f).name f
    exact (overfull_of_not_insertable tracked small hr).not_consistent
      (hc c (added.catalogCount ▸ small))
  | appendCatalog c src =>
    obtain ⟨⟨small, smallToo, different⟩, ⟨⟩⟩ := ite_none_right_eq_some.mp taken
    have source := tracked.kept src smallToo
    intro e known
    by_contra hr
    have ho := (append_spec different small tracked source.names source.uuids
      (tracked.known src smallToo)).2 ⟨e, known, hr⟩
    exact ho.not_consistent (hc c (small.trans_eq appendCatalog_catalogCount.symm))
  | setAllFlagState c level | setApplyRawFlagsValue c buf => exact trivial
  | copy src =>
    obtain ⟨small, ⟨⟩⟩ := ite_none_right_eq_some.mp taken
    have count : (w.copyCatalog src).catalogCount = w.catalogCount + 1 :=
      assignCatalog_catalogCount
    exact (copy_spec tracked small).2 (hc _ ((Nat.lt_succ_self _).trans_eq count.symm))
  | assign c rhs =>
    obtain ⟨⟨small, smallToo⟩, ⟨⟩⟩ := ite_none_right_eq_some.mp taken
    obtain rfl | same := eq_or_ne c rhs
    · rfl
    · rw [if_neg same] at hc
      exact (assign_spec tracked small smallToo).2
        (hc c (small.trans_eq assignCatalog_catalogCount.symm))

/-- Before the first catalog is constructed. Every flag has a current level, the severities of the
levels are those of the bitsets, and the uuids of the flags are different. -/
structure Initial (w : World) : Prop where
  empty : w.catalogCount = 0
  proper : ∀ f < w.flagCount, (w.flags f).Proper
  distinct : ∀ f < w.flagCount, ∀ g < w.flagCount, (w.flags f).uuid = (w.flags g).uuid → f = g

theorem Initial.tracked (hi : w.Initial) : w.Tracked where
  proper := hi.proper
  distinct := hi.distinct
  kept c small := absurd small (by simp [hi.empty])
  known c small := absurd small (by simp [hi.empty])

theorem Tracked.consistent (tracked : w.Tracked) :
    ∀ c < w.catalogCount, (w.catalogs c).Consistent w.flags :=
  fun c small => (tracked.kept c small).consistent

end World

/-- For every sequence of calls, all catalogs are consistent after each of them exactly when all
the calls are careful. -/
theorem severities_consistent_iff (w : World) (initial : w.Initial) (calls : List World.CatalogCall)
    (t : World) (run : execute World.catalogStep w calls = some t) :
    Admissible World.catalogStep World.Careful w calls ↔
      ∀ n r, execute World.catalogStep w (calls.take n) = some r →
        ∀ c < r.catalogCount, (r.catalogs c).Consistent r.flags :=
  admissible_iff_forall_reached World.step_tracked World.Tracked.consistent
    World.careful_of_step initial.tracked run

/-- A heap with two alarms, both at their regular level. -/
def twoAlarms : World where
  flags f := ⟨f, if f = 0 then "a" else "b", 0, [⟨0, .regular⟩, ⟨1, .severe⟩], ∅⟩
  flagCount := 2
  nextUuid := 2
  catalogs _ := .construct ""
  catalogCount := 0
  looked := []

theorem twoAlarms_initial : twoAlarms.Initial where
  empty := rfl
  proper f _ := ⟨rfl, fun level member => by
    obtain rfl | rfl : level = ⟨0, .regular⟩ ∨ level = ⟨1, .severe⟩ := by
      simpa [twoAlarms] using member
    · decide
    · decide⟩
  distinct f _ g _ same := same

/-- Two catalogs that share a flag, whose level is changed through either of them. -/
theorem severities_consistent_iff_shared :
    let calls : List World.CatalogCall := [.construct "A", .construct "B", .addFlag 0 0,
      .addFlag 1 1, .appendCatalog 1 0, .setFlagStateByName 0 "a" 1, .setAllFlagState 1 0]
    ∃ t, execute World.catalogStep twoAlarms calls = some t ∧
      ∀ n r, execute World.catalogStep twoAlarms (calls.take n) = some r →
        ∀ c < r.catalogCount, (r.catalogs c).Consistent r.flags :=
  ⟨_, rfl, (severities_consistent_iff twoAlarms twoAlarms_initial _ _ rfl).mp (by decide)⟩

/-- The catalog `B` has the flag of `A` already when the flag is added to it. It then has two bits
for one flag, and is not clear although the flag is at its regular level. -/
theorem flag_added_twice :
    ∃ t, execute World.catalogStep twoAlarms
        [.construct "A", .construct "B", .addFlag 0 0, .appendCatalog 1 0, .addFlag 1 0] = some t ∧
      (t.catalogs 1).container = [⟨0, "A/a", 0⟩] ∧
      (t.flags 0).severity = some .regular ∧
      (t.catalogs 1).getFlagsForSeverity .regular = [some 0, none] ∧
      (t.catalogs 1).isCatalogClear = false ∧
      ¬ (t.catalogs 1).Consistent t.flags := by
  refine ⟨_, rfl, by decide, by decide, by decide, by decide, fun hc => ?_⟩
  exact absurd (hc.size .regular (by decide)) (by decide)

end ChaosFramework.Flags
