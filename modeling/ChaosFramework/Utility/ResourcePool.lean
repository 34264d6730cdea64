import ChaosFramework.Transition
import Mathlib.Data.List.Nodup
import Mathlib.Data.List.ReduceOption

/-!
# The resource pool

`getNewResource` lends a slot, from the front of the pool or from the allocator, and answers with a
null pointer when the allocation fails. `releaseResource` takes back what it is given: the cache
driver gives it also a null pointer, which the pool lends again or runs into in its maintenance.
The pools of the RPC client are modelled with their sockets, in `Rpc.SocketPool`: there no null
pointer is released, and to delete a slot is to close its socket.
-/

namespace ChaosFramework.Utility

open Transition List Option Function

/-- `ResourcePool`, with slots named in the order of their creation. A null pointer is `none`. -/
structure ResourcePool where
  rPool : List (Option ℕ)
  createdResources : ℕ
  validUntil : ℕ → ℕ
  nextSlot : ℕ
  /-- What `getNewResource` has returned and what was not released since. -/
  lent : List (Option ℕ)
  /-- For every null pointer that was returned, whether an allocation was tried. -/
  nullAnswers : List Bool
  /-- The slots that the maintenance has deleted, and when. -/
  expired : List (ℕ × ℕ)
  /-- A null pointer was dereferenced. -/
  faulted : Bool

inductive PoolCall
  /-- Until when the slot is valid that is made for an empty pool, unless the allocation fails. -/
  | getNewResource (allocated : Option ℕ)
  | releaseResource (slot : Option ℕ) (purge : Bool)
  | maintenance (now : ℕ)
  deriving DecidableEq, Repr

namespace ResourcePool

def init : ResourcePool := ⟨[], 0, fun _ => 0, 0, [], [], [], false⟩

def getNewResource (s : ResourcePool) (allocated : Option ℕ) : ResourcePool :=
  match s.rPool, allocated with
  | slot :: rest, _ => { s with
      rPool := rest
      lent := slot :: s.lent
      nullAnswers := if slot = none then false :: s.nullAnswers else s.nullAnswers }
  | [], some validUntil => { s with
      createdResources := s.createdResources + 1
      validUntil := update s.validUntil s.nextSlot validUntil
      nextSlot := s.nextSlot + 1
      lent := some s.nextSlot :: s.lent }
  | [], none => { s with lent := none :: s.lent, nullAnswers := true :: s.nullAnswers }

def releaseResource (s : ResourcePool) (slot : Option ℕ) (purge : Bool) : ResourcePool :=
  let s := { s with lent := s.lent.erase slot }
  if purge then
    match slot with
    | some _ => { s with createdResources := s.createdResources - 1 }
    | none => { s with faulted := true }
  else { s with rPool := slot :: s.rPool }

/-- The loop of `maintenance`, which looks at the last slot of the pool. -/
def maintenance (now : ℕ) : ℕ → ResourcePool → ResourcePool
  | 0, s => s
  | maxToCheck + 1, s =>
      match s.rPool.getLast? with
      | some (some slot) =>
          if s.validUntil slot < now then
            maintenance now maxToCheck { s with
              rPool := s.rPool.dropLast
              createdResources := s.createdResources - 1
              expired := (slot, now) :: s.expired }
          else s
      | some none => { s with faulted := true }
      | none => s

/-- Callers release what they were given. -/
def step (s : ResourcePool) : PoolCall → Option ResourcePool
  | .getNewResource allocated => some (s.getNewResource allocated)
  | .releaseResource slot purge =>
      if slot ∈ s.lent then some (s.releaseResource slot purge) else none
  | .maintenance now => some (maintenance now (min 3 s.rPool.length) s)

/-- The slots that are pooled or lent. -/
def slots (s : ResourcePool) : List ℕ := (s.rPool ++ s.lent).reduceOption

structure Sound (s : ResourcePool) : Prop where
  pooled : none ∉ s.rPool
  once : s.slots.Nodup
  counted : s.createdResources = s.slots.length
  tried : ∀ tried ∈ s.nullAnswers, tried = true
  late : ∀ e ∈ s.expired, s.validUntil e.1 < e.2 ∧ some e.1 ∉ s.lent
  intact : s.faulted = false

/-- No null pointer is released. -/
def GivesBack : PoolCall → Prop
  | .releaseResource slot _ => slot ≠ none
  | _ => True

/-- The invariant. What was deleted is not used again. -/
structure Tracked (s : ResourcePool) : Prop extends Sound s where
  made : ∀ slot ∈ s.slots, slot < s.nextSlot
  gone : ∀ e ∈ s.expired, e.1 < s.nextSlot ∧ e.1 ∉ s.slots

variable {s t : ResourcePool} {call : PoolCall}

/-- Slots change their places, and some are deleted. -/
theorem Tracked.keep (h : s.Tracked) (deleted : List ℕ) {rPool lent : List (Option ℕ)}
    {expired : List (ℕ × ℕ)} (hp : s.slots.Perm (deleted ++ (rPool ++ lent).reduceOption))
    (pooled : none ∉ rPool)
    (late : ∀ e ∈ expired, e ∈ s.expired ∨ s.validUntil e.1 < e.2 ∧ e.1 ∈ deleted) :
    Tracked { s with
      rPool, lent, expired, createdResources := s.createdResources - deleted.length } := by
  have hn := hp.nodup_iff.mp h.once
  have hs {slot : ℕ} (hm : slot ∈ (rPool ++ lent).reduceOption) : slot ∈ s.slots :=
    hp.mem_iff.mpr (mem_append_right _ hm)
  have gone : ∀ e ∈ expired, e.1 < s.nextSlot ∧ e.1 ∉ (rPool ++ lent).reduceOption := by
    intro e he
    obtain hold | ⟨-, hd⟩ := late e he
    · exact ⟨(h.gone e hold).1, fun hm => (h.gone e hold).2 (hs hm)⟩
    · exact ⟨h.made _ (hp.mem_iff.mpr (mem_append_left _ hd)), disjoint_of_nodup_append hn hd⟩
  refine { h with
    pooled, gone
    once := hn.of_append_right
    counted := ?_
    late := fun e he => ⟨?_, fun hm => (gone e he).2 ?_⟩
    made := fun slot hm => h.made slot (hs hm) }
  · have hl := hp.length_eq
    rw [length_append, ← h.counted] at hl
    exact (Nat.eq_sub_of_add_eq' hl.symm).symm
  · exact (late e he).elim (fun hold => (h.late e hold).1) And.left
  · exact reduceOption_mem_iff.mpr (mem_append_right _ hm)

theorem Tracked.getNewResource (h : s.Tracked) (allocated : Option ℕ) :
    (s.getNewResource allocated).Tracked := by
  have hp := h.pooled
  unfold ResourcePool.getNewResource
  split
  next slot rest hs =>
    rw [hs, mem_cons, not_or] at hp
    rw [if_neg (Ne.symm hp.1)]
    refine h.keep [] ?_ hp.2 fun e => .inl
    rw [slots, hs]
    exact (perm_middle.symm).filterMap _
  next validUntil hs =>
    have hn : s.nextSlot ∉ s.slots := fun hm => Nat.lt_irrefl _ (h.made _ hm)
    have new : (s.rPool ++ some s.nextSlot :: s.lent).reduceOption = s.nextSlot :: s.slots := by
      rw [slots, hs]
      rfl
    refine { h with
      once := (congrArg Nodup new).mpr (nodup_cons.mpr ⟨hn, h.once⟩)
      counted := (congrArg Nat.succ h.counted).trans (congrArg List.length new).symm
      late := fun e he => ?late
      made := (congrArg (∀ slot ∈ ·, slot < s.nextSlot + 1) new).mpr (forall_mem_cons.mpr
        ⟨Nat.lt_succ_self _, fun slot hm => Nat.lt_succ_of_lt (h.made slot hm)⟩)
      gone := fun e he => ?gone }
    case late =>
      have different := Nat.ne_of_lt (h.gone e he).1
      refine ⟨(congrArg (· < e.2) (update_of_ne different _ _)).mpr (h.late e he).1, ?_⟩
      exact not_mem_cons_of_ne_of_not_mem (fun same => different (Option.some.inj same))
        (h.late e he).2
    case gone =>
      obtain ⟨lt, hm⟩ := h.gone e he
      refine ⟨Nat.lt_succ_of_lt lt, (congrArg (e.1 ∉ ·) new).mpr ?_⟩
      exact not_mem_cons_of_ne_of_not_mem (Nat.ne_of_lt lt) hm
  next hs =>
    have same : Tracked { s with lent := none :: s.lent } :=
      h.keep [] (by rw [slots, hs]; exact .refl _) hp fun e => .inl
    exact { same with tried := forall_mem_cons.mpr ⟨rfl, h.tried⟩ }

theorem Tracked.releaseResource (h : s.Tracked) {slot : ℕ} (hl : some slot ∈ s.lent)
    (purge : Bool) : (s.releaseResource (some slot) purge).Tracked := by
  have hp : s.slots.Perm (slot :: (s.rPool ++ s.lent.erase (some slot)).reduceOption) :=
    (((perm_cons_erase hl).append_left s.rPool).trans perm_middle).filterMap _
  cases purge with
  | true => exact h.keep [slot] hp h.pooled fun e => .inl
  | false =>
    exact h.keep [] hp (not_mem_cons_of_ne_of_not_mem nofun h.pooled) fun e => .inl

theorem Tracked.maintenance (h : s.Tracked) (now maxToCheck : ℕ) :
    (maintenance now maxToCheck s).Tracked := by
  induction maxToCheck generalizing s with
  | zero => exact h
  | succ maxToCheck ih =>
    unfold ResourcePool.maintenance
    split
    next slot hs =>
      split
      next late =>
        obtain ⟨front, hf⟩ := getLast?_eq_some_iff.mp hs
        have hd : s.rPool.dropLast = front := by rw [hf, dropLast_concat]
        refine ih (h.keep [slot] ?_ ?_ ?_)
        · rw [slots, hd, hf, append_assoc]
          exact perm_middle.filterMap _
        · exact fun hm => h.pooled ((dropLast_sublist _).subset hm)
        · exact forall_mem_cons.mpr ⟨.inr ⟨late, mem_singleton_self _⟩, fun e => .inl⟩
      next => exact h
    next hs => exact absurd (mem_of_getLast? hs) h.pooled
    next => exact h

theorem Tracked.step (h : s.Tracked) (gives : GivesBack call) (ht : s.step call = some t) :
    t.Tracked := by
  cases call with
  | getNewResource allocated =>
    cases ht
    exact h.getNewResource allocated
  | releaseResource slot purge =>
    obtain ⟨hl, ⟨⟩⟩ := ite_none_right_eq_some.mp ht
    obtain ⟨slot, rfl⟩ := ne_none_iff_exists'.mp gives
    exact h.releaseResource hl purge
  | maintenance now =>
    cases ht
    exact h.maintenance now _

/-- A null pointer that is released is in the pool, or is dereferenced. -/
theorem Sound.givesBack (ht : s.step call = some t) (sound : t.Sound) : GivesBack call := by
  cases call with
  | getNewResource allocated | maintenance now => trivial
  | releaseResource slot purge =>
    obtain ⟨-, ⟨⟩⟩ := ite_none_right_eq_some.mp ht
    rintro rfl
    cases purge with
    | true => exact absurd sound.intact nofun
    | false => exact sound.pooled mem_cons_self

theorem tracked_init : init.Tracked :=
  ⟨⟨nofun, nodup_nil, rfl, nofun, nofun, rfl⟩, nofun, nofun⟩

/-- The pool is sound in every state exactly when no null pointer is released. -/
theorem sound_iff_givesBack {calls : List PoolCall}
    (run : execute ResourcePool.step init calls = some t) :
    Admissible ResourcePool.step (fun _ => GivesBack) init calls ↔
      ∀ n s, execute ResourcePool.step init (calls.take n) = some s → s.Sound :=
  admissible_iff_forall_reached Tracked.step Tracked.toSound (fun _ => Sound.givesBack)
    tracked_init run

/-- A slot is lent, returned and deleted when its time is over, and an allocation fails. -/
theorem sound_iff_givesBack_four :
    let calls : List PoolCall := [.getNewResource (some 60), .releaseResource (some 0) false,
      .maintenance 61, .getNewResource none]
    ∃ s, execute ResourcePool.step init calls = some s ∧ s.Sound ∧ s.expired = [(0, 61)] ∧
      s.lent = [none] := by
  intro calls
  have gives : Admissible ResourcePool.step (fun _ => GivesBack) init calls :=
    ⟨trivial, nofun, trivial, trivial, trivial⟩
  exact ⟨_, rfl, (@sound_iff_givesBack _ calls rfl).mp gives 4 _ rfl, rfl, rfl⟩

/-- The driver releases the null pointer of a failed allocation. The next call gets it without
trying an allocation, and the maintenance dereferences it. -/
theorem null_lent_and_dereferenced :
    ∃ s, execute ResourcePool.step init [.getNewResource none, .releaseResource none false,
        .getNewResource (some 60)] = some s ∧ s.nullAnswers = [false, true] ∧
      ∃ t, execute ResourcePool.step init [.getNewResource none, .releaseResource none false,
        .maintenance 61] = some t ∧ t.faulted = true :=
  ⟨_, rfl, rfl, _, rfl, rfl⟩

end ResourcePool

end ChaosFramework.Utility
