import ChaosFramework.ControlManager.Locking

/-!
# Races in the control manager

Two threads race when one changes a map that the other one accesses, or when both make a step in the
state machine of the same unit. An access takes place while it is the next action of its thread, so
races are seen in the states. These places do not have the locks that they need:

* `unloadControlUnit` inserts into the map of the registering units with the lock of the
  registered ones only;
* `manageControlUnit` inserts into the map of the registering units with locks to read, and reads
  its size without a lock;
* `makeSMSteps` and `workUnitRegistrationACK` make steps in state machines with a lock to read.

Without an overlap of these there are no races (`raceFree_of_separate`).
-/

namespace ChaosFramework.ControlManager

open SharedMutex Transition List Option

/-- Two accesses that must not take place at the same time. -/
def Access.conflicts : Access → Access → Bool
  | .writeRegistering, .readRegistering => true
  | .readRegistering, .writeRegistering => true
  | .writeRegistering, .writeRegistering => true
  | .writeRegistered, .readRegistered => true
  | .readRegistered, .writeRegistered => true
  | .writeRegistered, .writeRegistered => true
  | .advance d, .advance e => d = e
  | _, _ => false

/-- The accesses that a thread is at. -/
def touched (t : Task) : List Access :=
  match t.prog with
  | .access accesses :: _ => accesses
  | _ => []

/-- The accesses of two threads do not conflict. -/
def Peaceful (accesses others : List Access) : Prop :=
  ∀ a ∈ accesses, ∀ b ∈ others, a.conflicts b = false

instance decidablePeaceful (accesses others : List Access) : Decidable (Peaceful accesses others) :=
  inferInstanceAs (Decidable (∀ a ∈ accesses, ∀ b ∈ others, a.conflicts b = false))

def RaceFree (s : Manager) : Prop := s.Pairwise fun t u => Peaceful (touched t) (touched u)

instance decidableRaceFree (s : Manager) : Decidable (RaceFree s) :=
  inferInstanceAs (Decidable (List.Pairwise _ _))

/-! ### What must not overlap -/

/-- The units in whose state machines an operation makes steps under a lock to read. -/
def Operation.advances : Operation → List String
  | .ack device => device.toList
  | .iterate it => it.stepped
  | _ => []

/-- What the first operation does with the maps is allowed while the second one is under way. -/
def spares : Operation → Operation → Bool
  | .iterate _, .iterate _ => false
  | .iterate it, .load _ => true ∉ it.queued
  | .iterate it, .ack _ => true ∉ it.queued
  | .unload ending, .ack _ => ending = .absent
  | .unload ending, .iterate _ => ending = .absent
  | _, _ => true

/-- No unit of the queue is inserted during a load or an acknowledgement, no unit is unloaded during
an acknowledgement or an iteration, and no two operations make steps in the state machine of the
same unit. There is one iteration at a time in any case. -/
def Separate (o p : Operation) : Prop :=
  spares o p = true ∧ spares p o = true ∧ ∀ d ∈ o.advances, d ∉ p.advances

instance decidableSeparate (o p : Operation) : Decidable (Separate o p) :=
  inferInstanceAs (Decidable (_ ∧ _ ∧ ∀ d ∈ o.advances, d ∉ p.advances))

theorem Separate.symm {o p : Operation} (hs : Separate o p) : Separate p o :=
  ⟨hs.2.1, hs.1, fun d advances advancesToo => hs.2.2 d advancesToo advances⟩

section Races

variable {o p : Operation} {held heldToo : List (Lock × Mode)} {accesses others : List Access}

/-- The accesses that change no map. -/
def Reading (o : Operation) (accesses : List Access) : Prop :=
  ∀ a ∈ accesses, a = .readRegistering ∨ a = .readRegistered ∨ ∃ d ∈ o.advances, a = .advance d

/-- The places where a map is changed, with what is held there. -/
inductive Writing : Operation → List (Lock × Mode) → Prop
  | unload {ending} (found : ending ≠ .absent) : Writing (.unload ending) [(.registered, .write)]
  | inserts {it} (inserts : true ∈ it.queued) :
      Writing (.iterate it) [(.registered, .read), (.registering, .read), (.queue, .write)]
  | moves {it} : Writing (.iterate it) [(.registered, .write), (.registering, .write)]

theorem Touches.reading_or_writing (ht : Touches o held accesses) :
    Reading o accesses ∨ Writing o held := by
  cases ht with
  | load reads =>
    left
    intro a ha
    rcases reads a ha with registering | hr
    · exact .inl registering
    · exact .inr (.inl hr)
  | looksUp | queueReads | size | scans => left; simp [Reading]
  | unload found => exact .inr (.unload found)
  | ack reads =>
    left
    intro a ha
    rcases reads a ha with registering | ⟨d, hd, advances⟩
    · exact .inl registering
    · exact .inr (.inr ⟨d, mem_toList.mpr hd, advances⟩)
  | queueInserts inserts => exact .inr (.inserts inserts)
  | steps reads =>
    left
    intro a ha
    rcases reads a ha with registering | ⟨d, hs, advances⟩
    · exact .inl registering
    · exact .inr (.inr ⟨d, hs, advances⟩)
  | moves => exact .inr .moves

/-- Operations that change no map are only in each other's way at a state machine. -/
theorem peaceful_of_reading (hs : Separate o p) (first : Reading o accesses)
    (second : Reading p others) : Peaceful accesses others := by
  intro a ha b ho
  rcases first a ha with rfl | rfl | ⟨d, advances, rfl⟩
  · rcases second b ho with rfl | rfl | ⟨e, -, rfl⟩ <;> rfl
  · rcases second b ho with rfl | rfl | ⟨e, -, rfl⟩ <;> rfl
  · rcases second b ho with rfl | rfl | ⟨e, advancesToo, rfl⟩
    · rfl
    · rfl
    · exact decide_eq_false fun same => hs.2.2 d advances (same ▸ advancesToo)

/-- Where a map is changed no other operation touches one, by what both hold or by what does not
overlap. -/
theorem false_of_writing (hw : Writing o held) (ht : Touches p heldToo others) (hs : Separate o p)
    (he : ∀ l m n, (l, m) ∈ held → (l, n) ∈ heldToo → m.Compatible n) : False := by
  have hr := he .registered
  have registering := he .registering
  cases hw with
  -- The lock of the registered units keeps out all but the acknowledgements and the manager.
  | unload found =>
    cases ht with
    | load => exact hr .write .read (by simp) (by simp)
    | looksUp | unload => exact hr .write .write (by simp) (by simp)
    | ack => exact found (of_decide_eq_true hs.1)
    | queueReads | queueInserts | size | steps | scans | moves =>
      exact found (of_decide_eq_true hs.1)
  -- A lock to read keeps out the unloads only.
  | inserts inserts =>
    cases ht with
    | load | ack => exact of_decide_eq_true hs.1 inserts
    | looksUp | unload => exact hr .read .write (by simp) (by simp)
    | queueReads | queueInserts | size | steps | scans | moves => cases hs.1
  | moves =>
    cases ht with
    | load => exact hr .write .read (by simp) (by simp)
    | looksUp | unload => exact hr .write .write (by simp) (by simp)
    | ack => exact registering .write .read (by simp) (by simp)
    | queueReads | queueInserts | size | steps | scans | moves => cases hs.1

theorem peaceful_of_touches (first : Touches o held accesses) (second : Touches p heldToo others)
    (hs : Separate o p)
    (he : ∀ l m n, (l, m) ∈ held → (l, n) ∈ heldToo → m.Compatible n) :
    Peaceful accesses others := by
  rcases first.reading_or_writing with hr | hw
  · rcases second.reading_or_writing with readingToo | writingToo
    · exact peaceful_of_reading hs hr readingToo
    · have turned : ∀ l m n, (l, m) ∈ heldToo → (l, n) ∈ held → m.Compatible n :=
        fun l m n hh holdsToo => (he l n m holdsToo hh).symm
      exact (false_of_writing writingToo first hs.symm turned).elim
  · exact (false_of_writing hw second hs he).elim

theorem prog_of_mem_touched {t : Task} {a : Access} (ht : a ∈ touched t) :
    ∃ rest, t.prog = .access (touched t) :: rest := by
  unfold touched at ht ⊢
  split at ht
  next accesses rest next => exact ⟨rest, next⟩
  next => cases ht

theorem raceFree_of_orderly {s : Manager} (ho : Orderly Allowed Separate s) : RaceFree s := by
  refine pairwise_iff_getElem.mpr fun i j inside insideToo before => ?_
  intro a ht b isTouchedToo
  have thread := getElem?_eq_getElem inside
  have threadToo := getElem?_eq_getElem insideToo
  obtain ⟨rest, next⟩ := prog_of_mem_touched ht
  obtain ⟨restToo, hn⟩ := prog_of_mem_touched isTouchedToo
  have hf := ho.disciplined i _ thread
  have followsToo := ho.disciplined j _ threadToo
  rw [next] at hf
  rw [hn] at followsToo
  have separate := ho.related i j before.ne _ thread _ threadToo (next ▸ cons_ne_nil _ _)
    (hn ▸ cons_ne_nil _ _)
  exact peaceful_of_touches hf.1 followsToo.1 separate
    (ho.exclusive i j before.ne _ thread _ threadToo) a ht b isTouchedToo

/-- **No races.** As long as operations that lack a lock do not overlap, no map is changed while
another thread reads or changes it, and no state machine is advanced by two threads. -/
theorem raceFree_of_separate (bars : Bool) (labels : List (Label Operation))
    (admissible : Admissible (step bars) (Careful Separate) [] labels) (t : Manager)
    (executed : execute (step bars) [] labels = some t) : RaceFree t :=
  raceFree_of_orderly (orderly_of_execute (fun _ _ => Separate.symm) admissible executed)

end Races

/-- A unit is loaded and another one is acknowledged while the manager makes a step in a third. -/
def loadDuringStep : List (Label Operation) :=
  [.start (.iterate ⟨[], some ([some "BPM"], [.stays])⟩), .run 0, .run 0, .run 0, .run 0,
    .start (.load .submitted), .run 1, .run 1, .run 1, .start (.ack (some "MAG")), .run 2, .run 2]

theorem raceFree_of_separate_load :
    Admissible (step true) (Careful Separate) [] loadDuringStep ∧
      ∃ t ∈ execute (step true) [] loadDuringStep, RaceFree t := by
  have ha : Admissible (step true) (Careful Separate) [] loadDuringStep := by decide
  obtain ⟨t, he⟩ := isSome_iff_exists.mp
    (show (execute (step true) [] loadDuringStep).isSome = true by decide)
  exact ⟨ha, t, he, raceFree_of_separate true loadDuringStep ha t he⟩

/-- A unit is unloaded while the manager makes a step in another one. -/
def unloadDuringStep : List (Label Operation) :=
  [.start (.iterate ⟨[], some ([some "BPM"], [.stays])⟩), .run 0, .run 0, .run 0, .run 0,
    .start (.unload (.unloaded "MAG")), .run 1, .run 1]

/-- The unload inserts into the map that the manager iterates over. -/
theorem unload_races :
    (∃ t ∈ execute (step false) [] unloadDuringStep, ¬ RaceFree t) ∧
      ∃ t ∈ execute (step true) [] unloadDuringStep, ¬ RaceFree t := by
  decide

end ChaosFramework.ControlManager
