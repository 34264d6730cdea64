import ChaosFramework.Batch.Command
import Mathlib.Data.List.Perm.Lattice

/-!
# The history of command states

The executor remembers the last event of every command: a queue of shared state objects in the order
of their creation, and a map from identifiers to the same objects, in which an insertion does not
replace. Capping and flushing take ended states out of both.

`Indexed` says that the two hold the same objects. Every operation keeps it except the announcement
of an identifier that is already in the map. What capping leaves is in its old order only when it
has looked at no more than one active state, and flushing leaves ended states that stand before
active ones.
-/

namespace ChaosFramework.Batch

open List Option Function

/-- The position of an event type in its enumeration. -/
def BatchCommandEventType.index : BatchCommandEventType → Nat
  | .queued => 0
  | .waiting => 1
  | .running => 2
  | .paused => 3
  | .completed => 4
  | .fault => 5
  | .killed => 6
  | .fatalFault => 7
  | .dequeue => 8

/-- `CommandState`. -/
structure CommandState where
  commandId : Nat
  lastEvent : BatchCommandEventType
  faultDescription : FaultDescription
  deriving DecidableEq, Repr

/-- The test `last_event < EVT_COMPLETED`. -/
def CommandState.active (state : CommandState) : Bool :=
  state.lastEvent.index < BatchCommandEventType.completed.index

/-- A shared pointer to a state object. -/
abbrev StateRef := Nat

/-- The two containers and the objects they share. -/
structure CommandStateHistory where
  objects : StateRef → CommandState
  /-- How many objects have been created. -/
  created : Nat
  commandStateQueue : List StateRef
  commandStateFastAccessMap : Nat → Option StateRef

namespace CommandStateHistory

def empty : CommandStateHistory where
  objects := fun _ => ⟨0, .queued, ⟨0, "", ""⟩⟩
  created := 0
  commandStateQueue := []
  commandStateFastAccessMap := fun _ => none

/-! ### Events -/

/-- `addComamndState`: `map::insert` keeps an element that has the key already. -/
@[simps] def addComamndState (h : CommandStateHistory) (commandId : Nat) : CommandStateHistory where
  objects := update h.objects h.created ⟨commandId, .queued, ⟨0, "", ""⟩⟩
  created := h.created + 1
  commandStateQueue := h.commandStateQueue ++ [h.created]
  commandStateFastAccessMap :=
    if (h.commandStateFastAccessMap commandId).isSome then h.commandStateFastAccessMap
    else update h.commandStateFastAccessMap commandId (some h.created)

/-- Write to a state object. -/
@[simps] def write (h : CommandStateHistory) (r : StateRef) (f : CommandState → CommandState) :
    CommandStateHistory :=
  { h with objects := update h.objects r (f (h.objects r)) }

/-- `getCommandState`, the lookup in the map. -/
def getCommandState (h : CommandStateHistory) (commandId : Nat) : Option StateRef :=
  h.commandStateFastAccessMap commandId

def getStateForCommandID (h : CommandStateHistory) (commandId : Nat) : Option CommandState :=
  (h.getCommandState commandId).map h.objects

/-- `handleCommandEvent`. A fault event of a command that is found reads the fault through
`command_and_fault` without a test, so a null pointer there ends the process. -/
def handleCommandEvent (h : CommandStateHistory) (commandId : Nat) (type : BatchCommandEventType)
    (commandAndFault : Option FaultDescription) : Option CommandStateHistory :=
  match type with
  | .queued => some (h.addComamndState commandId)
  | .fault =>
      match h.getCommandState commandId with
      | none => some h
      | some r => commandAndFault.map fun fault => h.write r fun state =>
          { state with lastEvent := .fault, faultDescription := fault }
  | type =>
      match h.getCommandState commandId with
      | none => some h
      | some r => some (h.write r fun state => { state with lastEvent := type })

/-! ### Capping and flushing -/

/-- `command_state_fast_access_map.erase`. -/
@[simps] def eraseFromMap (h : CommandStateHistory) (commandId : Nat) : CommandStateHistory :=
  { h with
    commandStateFastAccessMap := update h.commandStateFastAccessMap commandId none }

/-- The loop of `capCommanaQueue`. The first list is what is left of the queue, the second
one collects the active states; they are pushed back one by one at the end, which reverses
them. -/
def capLoop (maxSize : Nat) : List StateRef → Nat → List StateRef → CommandStateHistory →
    CommandStateHistory
  | [], _, reinsert, h => { h with commandStateQueue := reinsert.reverse }
  | r :: rest, idx, reinsert, h =>
      if idx < maxSize then { h with commandStateQueue := reinsert.reverse ++ r :: rest }
      else if (h.objects r).active then capLoop maxSize rest idx (reinsert ++ [r]) h
      else capLoop maxSize rest (idx - 1) reinsert (h.eraseFromMap (h.objects r).commandId)

def capCommanaQueue (h : CommandStateHistory) (maxSize : Nat) : CommandStateHistory :=
  if h.commandStateQueue.length ≤ maxSize then h
  else capLoop maxSize h.commandStateQueue (h.commandStateQueue.length - 1) [] h

/-- The loop of `flushCommandStates` over the queue from its back. -/
def flushLoop : List StateRef → CommandStateHistory → CommandStateHistory
  | [], h => { h with commandStateQueue := [] }
  | r :: rest, h =>
      if (h.objects r).active then { h with commandStateQueue := (r :: rest).reverse }
      else flushLoop rest (h.eraseFromMap (h.objects r).commandId)

def flushCommandStates (h : CommandStateHistory) : CommandStateHistory :=
  flushLoop h.commandStateQueue.reverse h

/-! ### The two containers agree -/

variable {h h' : CommandStateHistory} {queue : List StateRef} {r : StateRef} {id maxSize : Nat}

/-- The queue and the map hold the same objects, the map under their identifiers. -/
structure Indexed (h : CommandStateHistory) : Prop where
  nodup : h.commandStateQueue.Nodup
  existing : ∀ r ∈ h.commandStateQueue, r < h.created
  mapped : ∀ commandId r, h.commandStateFastAccessMap commandId = some r ↔
    r ∈ h.commandStateQueue ∧ (h.objects r).commandId = commandId

theorem indexed_empty : empty.Indexed where
  nodup := nodup_nil
  existing := nofun
  mapped id r := by simp [empty]

/-- The order of the queue does not matter. -/
theorem Indexed.perm (hi : h.Indexed) (same : queue.Perm h.commandStateQueue) :
    Indexed { h with commandStateQueue := queue } where
  nodup := same.nodup_iff.mpr hi.nodup
  existing r hm := hi.existing r (same.mem_iff.mp hm)
  mapped id r := (hi.mapped id r).trans (and_congr_left' same.mem_iff.symm)

theorem Indexed.forget (hi : h.Indexed) (split : h.commandStateQueue.Perm (r :: queue)) :
    Indexed { h.eraseFromMap (h.objects r).commandId with commandStateQueue := queue } where
  nodup := (nodup_cons.mp (split.nodup_iff.mp hi.nodup)).2
  existing other hm :=
    hi.existing other (split.mem_iff.mpr (mem_cons_of_mem r hm))
  mapped id other := by
    have ha : r ∉ queue := (nodup_cons.mp (split.nodup_iff.mp hi.nodup)).1
    have found := (hi.mapped (h.objects r).commandId r).mpr
      ⟨split.mem_iff.mpr (mem_cons_self ..), rfl⟩
    obtain rfl | erased := eq_or_ne id ((h.objects r).commandId)
    · -- Only `r` had this identifier.
      have unique : ¬ (other ∈ queue ∧ (h.objects other).commandId = (h.objects r).commandId) := by
        rintro ⟨hm, same⟩
        have other' := (hi.mapped (h.objects r).commandId other).mpr
          ⟨split.mem_iff.mpr (mem_cons_of_mem r hm), same⟩
        obtain rfl : r = other := Option.some.inj (found.symm.trans other')
        exact ha hm
      simpa using unique
    · have kept : other ∈ h.commandStateQueue ∧ (h.objects other).commandId = id ↔
          other ∈ queue ∧ (h.objects other).commandId = id := by
        refine and_congr_left fun named => split.mem_iff.trans (mem_cons.trans ?_)
        refine or_iff_right fun same => erased ?_
        rw [← named, same]
      simpa [erased] using (hi.mapped id other).trans kept

/-- Objects are only taken out. -/
structure Forgets (h h' : CommandStateHistory) : Prop where
  objects : h'.objects = h.objects
  created : h'.created = h.created
  subset : h'.commandStateQueue ⊆ h.commandStateQueue
  indexed : h'.Indexed

theorem capLoop_forgets (rest : List StateRef) (idx : Nat) (reinsert : List StateRef)
    (hi : Indexed { h with commandStateQueue := reinsert.reverse ++ rest }) :
    Forgets { h with commandStateQueue := reinsert.reverse ++ rest }
      (capLoop maxSize rest idx reinsert h) := by
  -- The queue at each round is what has been put back, oldest last, and what is still to be seen.
  induction rest generalizing idx reinsert h with
  | nil =>
    rw [append_nil] at hi ⊢
    exact ⟨rfl, rfl, List.Subset.refl _, hi⟩
  | cons r rest ih =>
    have middle : (reinsert.reverse ++ r :: rest).Perm (r :: (reinsert.reverse ++ rest)) :=
      perm_middle
    unfold capLoop
    split
    · exact ⟨rfl, rfl, List.Subset.refl _, hi⟩
    split
    -- The state is kept: it moves to the part that has been seen.
    · have moved : ((reinsert ++ [r]).reverse ++ rest).Perm (reinsert.reverse ++ r :: rest) := by
        simpa using middle.symm
      have later := ih (h := h) idx (reinsert ++ [r]) (hi.perm moved)
      exact ⟨later.objects, later.created, List.Subset.trans later.subset moved.subset,
        later.indexed⟩
    -- The state is dropped, from the map as well.
    · have later :=
      ih (h := h.eraseFromMap (h.objects r).commandId) (idx - 1) reinsert (hi.forget middle)
      have fewer : reinsert.reverse ++ rest ⊆ reinsert.reverse ++ r :: rest :=
        List.Subset.trans (subset_cons_self ..) middle.symm.subset
      exact ⟨later.objects, later.created, List.Subset.trans later.subset fewer, later.indexed⟩

theorem Indexed.capCommanaQueue (hi : h.Indexed) (maxSize : Nat) :
    Forgets h (h.capCommanaQueue maxSize) := by
  unfold CommandStateHistory.capCommanaQueue
  split
  · exact ⟨rfl, rfl, List.Subset.refl _, hi⟩
  · exact capLoop_forgets h.commandStateQueue _ [] hi

theorem flushLoop_forgets (back : List StateRef)
    (hi : Indexed { h with commandStateQueue := back.reverse }) :
    Forgets { h with commandStateQueue := back.reverse } (flushLoop back h) := by
  induction back generalizing h with
  | nil => exact ⟨rfl, rfl, List.Subset.refl _, hi⟩
  | cons r rest ih =>
    have last : (r :: rest).reverse.Perm (r :: rest.reverse) := by simp
    unfold flushLoop
    split
    · exact ⟨rfl, rfl, List.Subset.refl _, hi⟩
    · have later := ih (h := h.eraseFromMap (h.objects r).commandId) (hi.forget last)
      have fewer : rest.reverse ⊆ (r :: rest).reverse :=
        List.Subset.trans (subset_cons_self ..) last.symm.subset
      exact ⟨later.objects, later.created, List.Subset.trans later.subset fewer, later.indexed⟩

theorem Indexed.flushCommandStates (hi : h.Indexed) : Forgets h h.flushCommandStates := by
  have whole := flushLoop_forgets h.commandStateQueue.reverse (by rw [reverse_reverse]; exact hi)
  rw [reverse_reverse] at whole
  exact whole

theorem Indexed.addComamndState (hi : h.Indexed) (fresh : h.commandStateFastAccessMap id = none) :
    (h.addComamndState id).Indexed where
  nodup := by
    have ha : h.created ∉ h.commandStateQueue :=
      fun hm => Nat.lt_irrefl _ (hi.existing _ hm)
    simpa using hi.nodup.concat ha
  existing r hm := by
    rcases mem_append.mp hm with old | new
    · exact Nat.lt_succ_of_lt (hi.existing r old)
    · obtain rfl := mem_singleton.mp new
      exact Nat.lt_succ_self _
  mapped wanted r := by
    have hb := hi.mapped wanted r
    simp only [addComamndState_commandStateFastAccessMap, fresh]
    -- The new state is reached under the new identifier only, the old ones as before.
    obtain rfl | new := eq_or_ne r h.created
    · have ha : h.created ∉ h.commandStateQueue :=
        fun hm => Nat.lt_irrefl _ (hi.existing _ hm)
      have unmapped : h.commandStateFastAccessMap wanted ≠ some h.created :=
        fun found => ha (hb.mp found).1
      by_cases same : wanted = id
      · simp [same]
      · have different : id ≠ wanted := fun equal => same equal.symm
        simp [same, unmapped, different]
    · obtain rfl | same := eq_or_ne wanted id
      · have other : h.created ≠ r := fun equal => new equal.symm
        have gone : ¬ (r ∈ h.commandStateQueue ∧ (h.objects r).commandId = wanted) := by
          rw [← hb, fresh]
          simp
        simpa [new, other] using gone
      · simpa [new, same] using hb

theorem Indexed.write {f : CommandState → CommandState} (hi : h.Indexed)
    (named : ∀ state, (f state).commandId = state.commandId) : (h.write r f).Indexed where
  nodup := hi.nodup
  existing := hi.existing
  mapped id other := by
    refine (hi.mapped id other).trans (and_congr_right fun _ => ?_)
    by_cases same : other = r <;> simp [named, same]

/-- What an event other than the announcement of a command does. -/
theorem handleCommandEvent_cases {type : BatchCommandEventType}
    {commandAndFault : Option FaultDescription} (later : type ≠ .queued)
    (hh : h.handleCommandEvent id type commandAndFault = some h') :
    h.commandStateFastAccessMap id = none ∧ h' = h ∨
      ∃ r f, h.commandStateFastAccessMap id = some r ∧ h' = h.write r f ∧
        ∀ state, (f state).commandId = state.commandId ∧ (f state).lastEvent = type := by
  cases found : h.commandStateFastAccessMap id with
  | none =>
    cases type <;> simp_all [handleCommandEvent, getCommandState]
  | some r =>
    right
    refine ⟨r, ?_⟩
    cases type with
    | queued => exact absurd rfl later
    -- The one event whose handler needs the description of the fault.
    | fault =>
      simp only [handleCommandEvent, getCommandState, found] at hh
      obtain ⟨fault, -, rfl⟩ := map_eq_some_iff.mp hh
      exact ⟨_, rfl, rfl, fun state => ⟨rfl, rfl⟩⟩
    | _ =>
      simp only [handleCommandEvent, getCommandState, found] at hh
      cases hh
      exact ⟨_, rfl, rfl, fun state => ⟨rfl, rfl⟩⟩

/-! ### What capping leaves -/

/-- The part of the queue that the loop of `capCommanaQueue` looks at when `n` states have to be
dropped: up to the `n`-th ended state, or all of it when there are fewer. -/
def scanned (h : CommandStateHistory) : Nat → List StateRef → List StateRef
  | 0, _ | _, [] => []
  | n + 1, r :: rest => r :: h.scanned (if (h.objects r).active then n + 1 else n) rest

/-- What `capCommanaQueue` is for: no active state is dropped, the oldest ended ones are, as many
as are too many, the others keep their order and the map has the keys of what is left. -/
structure Capped (h : CommandStateHistory) (maxSize : Nat) (h' : CommandStateHistory) : Prop where
  active_kept : ∀ r ∈ h.commandStateQueue, (h.objects r).active → r ∈ h'.commandStateQueue
  dropped : h.commandStateQueue.filter (· ∉ h'.commandStateQueue) =
    (h.commandStateQueue.filter fun r => !(h.objects r).active).take
      (h.commandStateQueue.length - maxSize)
  ordered : h'.commandStateQueue = h.commandStateQueue.filter (· ∈ h'.commandStateQueue)
  keys : ∀ commandId, (h'.commandStateFastAccessMap commandId).isSome ↔
    ∃ r ∈ h'.commandStateQueue, (h'.objects r).commandId = commandId

@[simp] theorem scanned_nil (n : Nat) : h.scanned n [] = [] := by
  cases n <;> rfl

theorem filter_scanned (n : Nat) (queue : List StateRef) :
    (h.scanned n queue).filter (fun r => !(h.objects r).active) =
      (queue.filter fun r => !(h.objects r).active).take n := by
  induction queue generalizing n with
  | nil => simp
  | cons r rest ih =>
    cases n with
    | zero => simp [scanned]
    | succ n => cases ha : (h.objects r).active <;> simp [scanned, ha, ih]

theorem scanned_append_drop (n : Nat) (queue : List StateRef) :
    h.scanned n queue ++ queue.drop (h.scanned n queue).length = queue := by
  induction queue generalizing n with
  | nil => simp
  | cons r rest ih => cases n <;> simp [scanned, ih]

theorem scanned_eraseFromMap (n : Nat) (queue : List StateRef) :
    (h.eraseFromMap id).scanned n queue = h.scanned n queue := by
  induction queue generalizing n with
  | nil => simp
  | cons r rest ih => cases n <;> simp [scanned, ih]

theorem capLoop_queue (rest : List StateRef) (idx : Nat) (reinsert : List StateRef)
    (bound : rest.length ≤ idx + 1) :
    (capLoop maxSize rest idx reinsert h).commandStateQueue =
      (reinsert ++
        (h.scanned (idx + 1 - maxSize) rest).filter fun r => (h.objects r).active).reverse ++
      rest.drop (h.scanned (idx + 1 - maxSize) rest).length := by
  -- As long as there are states, `idx + 1 - maxSize` of them are still to be dropped.
  induction rest generalizing idx reinsert h with
  | nil => simp [capLoop]
  | cons r rest ih =>
    rw [length_cons] at bound
    unfold capLoop
    split
    next done => simp [Nat.sub_eq_zero_of_le done, scanned]
    next more =>
      obtain ⟨n, left⟩ : ∃ n, idx + 1 - maxSize = n + 1 := ⟨idx - maxSize, by omega⟩
      rw [left]
      split
      next isActive =>
        rw [ih idx _ (by omega), left]
        simp [scanned, isActive]
      next hasEnded =>
        rw [ih (idx - 1) reinsert (by omega)]
        rw [scanned_eraseFromMap]
        rcases Nat.eq_zero_or_pos idx with rfl | hp
        -- The index stays at zero, but then this was the last state.
        · obtain rfl := length_eq_zero_iff.mp (show rest.length = 0 by omega)
          simp [scanned, hasEnded]
        · rw [show idx - 1 + 1 - maxSize = n by omega]
          simp [scanned, hasEnded]

theorem capCommanaQueue_queue (maxSize : Nat) :
    (h.capCommanaQueue maxSize).commandStateQueue =
      ((h.scanned (h.commandStateQueue.length - maxSize) h.commandStateQueue).filter
        fun r => (h.objects r).active).reverse ++
      h.commandStateQueue.drop
        (h.scanned (h.commandStateQueue.length - maxSize) h.commandStateQueue).length := by
  unfold capCommanaQueue
  split
  next few => simp [Nat.sub_eq_zero_of_le few, scanned]
  next many =>
    rw [capLoop_queue _ _ _ (by omega), Nat.sub_add_cancel (by omega), nil_append]

theorem reverse_eq_iff_of_nodup {l : List StateRef} (nodup : l.Nodup) :
    l.reverse = l ↔ l.length ≤ 1 := by
  match l with
  | [] | [r] => simp
  | r :: other :: rest =>
    -- The first one would be the last one as well.
    have last : (r :: other :: rest).getLast? = (other :: rest).getLast? := rfl
    refine ⟨fun same => absurd nodup ?_, fun short => by simp at short⟩
    rw [← same, getLast?_reverse] at last
    exact fun hd =>
      (nodup_cons.mp hd).1 (mem_of_getLast? last.symm)

/-- The states that were looked at and are active come back in reverse order, so capping does what
it is for exactly when there is at most one of them. -/
theorem capped_iff (indexed : h.Indexed) (maxSize : Nat) :
    h.Capped maxSize (h.capCommanaQueue maxSize) ↔
      (h.scanned (h.commandStateQueue.length - maxSize) h.commandStateQueue).countP
        (fun r => (h.objects r).active) ≤ 1 := by
  obtain ⟨ho, -, -, afterwards⟩ := indexed.capCommanaQueue maxSize
  have queue := h.capCommanaQueue_queue maxSize
  have ended := h.filter_scanned (h.commandStateQueue.length - maxSize) h.commandStateQueue
  have whole := h.scanned_append_drop (h.commandStateQueue.length - maxSize) h.commandStateQueue
  generalize h.scanned (h.commandStateQueue.length - maxSize) h.commandStateQueue = seen at *
  generalize h.commandStateQueue.drop seen.length = rest at *
  have nodup : (seen ++ rest).Nodup := whole ▸ indexed.nodup
  have apart := (nodup_append'.mp nodup).2.2
  have inSeen (r : StateRef) (hs : r ∈ seen) :
      r ∈ (h.capCommanaQueue maxSize).commandStateQueue ↔ (h.objects r).active := by
    rw [queue]
    have hn : r ∉ rest := apart hs
    simp [hs, hn]
  have inRest (r : StateRef) (hr : r ∈ rest) :
      r ∈ (h.capCommanaQueue maxSize).commandStateQueue := by
    rw [queue]
    simp [hr]
  have kept : h.commandStateQueue.filter (· ∈ (h.capCommanaQueue maxSize).commandStateQueue) =
      seen.filter (fun r => (h.objects r).active) ++ rest := by
    rw [← whole, filter_append]
    congr 1
    · exact filter_congr fun r hs => by simp [inSeen r hs]
    · exact filter_eq_self.mpr fun r hr => by simp [inRest r hr]
  rw [countP_eq_length_filter]
  constructor
  · intro capped
    have reversed := capped.ordered
    rw [kept, queue, append_cancel_right_eq] at reversed
    exact (reverse_eq_iff_of_nodup (nodup.of_append_left.filter _)).mp reversed
  · intro few
    constructor
    · intro r hm ha
      rcases mem_append.mp (whole ▸ hm) with hs | hr
      · exact (inSeen r hs).mpr ha
      · exact inRest r hr
    · rw [← ended, ← whole, filter_append]
      have none_of_rest : rest.filter (· ∉ (h.capCommanaQueue maxSize).commandStateQueue) = [] :=
        filter_eq_nil_iff.mpr fun r hr => by simp [inRest r hr]
      rw [none_of_rest, append_nil]
      exact filter_congr fun r hs => by simp [inSeen r hs]
    · rw [kept, queue, (reverse_eq_iff_of_nodup (nodup.of_append_left.filter _)).mpr few]
    · intro id
      rw [isSome_iff_exists]
      exact exists_congr (afterwards.mapped id)

theorem capped_iff_oldest :
    let h := ((empty.addComamndState 1).write 0
      ({ · with lastEvent := .completed })).addComamndState 2
    h.Indexed ∧ h.Capped 1 (h.capCommanaQueue 1) := by
  intro h
  have indexed : h.Indexed :=
    ((indexed_empty.addComamndState rfl).write (f := ({ · with lastEvent := .completed }))
      fun _ => rfl).addComamndState rfl
  exact ⟨indexed, (capped_iff indexed 1).mpr (by decide)⟩

/-- Two active states stand in front of the ended one. -/
theorem active_states_reversed :
    let h := (((empty.addComamndState 1).addComamndState 2).addComamndState 3).write 2
      ({ · with lastEvent := .completed })
    h.Indexed ∧ h.commandStateQueue = [0, 1, 2] ∧
      (h.capCommanaQueue 2).commandStateQueue = [1, 0] ∧ ¬ h.Capped 2 (h.capCommanaQueue 2) := by
  intro h
  have indexed : h.Indexed :=
    (((indexed_empty.addComamndState rfl).addComamndState rfl).addComamndState rfl).write
      fun _ => rfl
  exact ⟨indexed, rfl, rfl, fun capped => absurd capped.ordered (by decide)⟩

/-! ### What flushing leaves -/

/-- What `flushCommandStates` is for: the ended states go from both containers, and only they. -/
structure Flushed (h h' : CommandStateHistory) : Prop where
  queue : h'.commandStateQueue = h.commandStateQueue.filter fun r => (h.objects r).active
  map : ∀ commandId, h'.commandStateFastAccessMap commandId =
    (h.commandStateFastAccessMap commandId).filter fun r => (h.objects r).active

theorem flushLoop_queue (back : List StateRef) :
    (flushLoop back h).commandStateQueue =
      (back.dropWhile fun r => !(h.objects r).active).reverse := by
  induction back generalizing h with
  | nil => rfl
  | cons r rest ih =>
    unfold flushLoop
    split
    next isActive => simp [isActive]
    next hasEnded => simp [hasEnded, ih]

/-- Dropping from the front is enough when everything behind an active state is active. -/
theorem dropWhile_eq_filter_iff (back : List StateRef) :
    back.dropWhile (fun r => !(h.objects r).active) = back.filter (fun r => (h.objects r).active) ↔
      back.Pairwise fun r other => (h.objects r).active → (h.objects other).active := by
  induction back with
  | nil => simp
  | cons r rest ih =>
    rw [pairwise_cons, ← ih]
    cases ha : (h.objects r).active with
    | false => simp [ha]
    | true =>
      have dropped : (r :: rest).dropWhile (fun r => !(h.objects r).active) = r :: rest := by
        simp [ha]
      have hf : (r :: rest).filter (fun r => (h.objects r).active) =
          r :: rest.filter (fun r => (h.objects r).active) := by
        simp [ha]
      rw [dropped, hf, cons_inj_right, eq_comm, filter_eq_self]
      refine ⟨fun all => ⟨fun other hm _ => all other hm, ?_⟩,
        fun pairwise other hm => pairwise.1 other hm rfl⟩
      rw [filter_eq_self.mpr all]
      cases rest with
      | nil => rfl
      | cons other rest => simp [all other]

/-- The flush ends at the last active state, so it does what it is for exactly when the ended
states are the newest ones. -/
theorem flushed_iff (indexed : h.Indexed) :
    h.Flushed h.flushCommandStates ↔ h.commandStateQueue.Pairwise fun r other =>
      (h.objects other).active → (h.objects r).active := by
  obtain ⟨ho, -, -, afterwards⟩ := indexed.flushCommandStates
  have queue : h.flushCommandStates.commandStateQueue =
      (h.commandStateQueue.reverse.dropWhile fun r => !(h.objects r).active).reverse :=
    flushLoop_queue _
  rw [← pairwise_reverse, ← dropWhile_eq_filter_iff, filter_reverse,
    ← reverse_inj, ← queue, reverse_reverse]
  refine ⟨(·.queue), fun same => ⟨same, fun id => ext fun r => ?_⟩⟩
  rw [afterwards.mapped, same, ho, mem_filter, filter_eq_some_iff, indexed.mapped]
  tauto

theorem flushed_iff_newest :
    let h := ((empty.addComamndState 1).addComamndState 2).write 1
      ({ · with lastEvent := .completed })
    h.Indexed ∧ h.Flushed h.flushCommandStates := by
  intro h
  have indexed : h.Indexed :=
    ((indexed_empty.addComamndState rfl).addComamndState rfl).write fun _ => rfl
  exact ⟨indexed, (flushed_iff indexed).mpr (by decide)⟩

/-- An ended state in front of an active one stays. -/
theorem ended_state_kept :
    let h := ((empty.addComamndState 1).write 0
      ({ · with lastEvent := .completed })).addComamndState 2
    h.Indexed ∧ h.flushCommandStates.commandStateQueue = [0, 1] ∧
      ¬ h.Flushed h.flushCommandStates := by
  intro h
  have indexed : h.Indexed :=
    ((indexed_empty.addComamndState rfl).write (f := ({ · with lastEvent := .completed }))
      fun _ => rfl).addComamndState rfl
  exact ⟨indexed, rfl, fun flushed => absurd flushed.queue (by decide)⟩

end CommandStateHistory

end ChaosFramework.Batch
