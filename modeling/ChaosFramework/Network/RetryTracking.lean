import ChaosFramework.Network.URLHAServiceFeeder

/-!
# No service is forgotten

A service that is not online has to be in one of the two queues, otherwise it is never probed again.
Every operation keeps this, except a pass of `checkForAliveService` that evicts a service and then
goes on: the next iteration raises, and the entry it has just taken from the queue is lost. A pass
may evict the service of its last entry only (`OneEviction`). A service is also forgotten when the
round robin position that it is given is in use, after the counter of 64 bits has wrapped around
(`GivesNewPositions`).
-/

namespace ChaosFramework.Network.URLHAServiceFeeder

open Transition List Option URLServiceFeeder

variable {s t : URLHAServiceFeeder} {sri : ServiceRetryInformation} {ts i : Nat}
  {probe : Probe} {owned : Bool} {act : Action}

/-- The indexes in the two queues. -/
def queued (s : URLHAServiceFeeder) : List Nat :=
  (s.retryQueue ++ s.respawnedQueue).map (·.serviceIndex)

theorem queued_pushRetry (s : URLHAServiceFeeder) (sri : ServiceRetryInformation) :
    (s.pushRetry sri).queued.Perm (sri.serviceIndex :: s.queued) := by
  simp only [queued, pushRetry_retryQueue, append_assoc]
  exact perm_middle.map _

theorem queued_pushRespawned (s : URLHAServiceFeeder) (sri : ServiceRetryInformation) :
    (s.pushRespawned sri).queued.Perm (sri.serviceIndex :: s.queued) := by
  simp only [queued, pushRespawned_respawnedQueue]
  rw [← append_assoc]
  exact (perm_append_singleton ..).map _

/-- The entry that a pass takes from the queue. -/
theorem queued_pop {rest : List ServiceRetryInformation} (queue : s.retryQueue = sri :: rest) :
    s.queued = sri.serviceIndex :: queued { s with retryQueue := rest } := by
  rw [queued, queue]
  rfl

/-! ### Following the slots -/

/-- Every occupied slot is online or in the given list. -/
def Follows (f : URLServiceFeeder) (list : List Nat) : Prop :=
  ∀ i ∈ f.occupied, i ∈ f.onlineIndexes ∨ i ∈ list

section Follows

variable {f g : URLServiceFeeder} {list : List Nat} {idx : Nat}

theorem Follows.mono {more : List Nat} (hf : Follows f list)
    (hi : list ⊆ more) : Follows f more := by
  intro i hh
  exact (hf i hh).imp_right fun member => hi member

section

variable (hf : Follows f (idx :: s.queued)) (he : sri.serviceIndex = idx)

include hf he

theorem Follows.pushRetry : Follows f (s.pushRetry sri).queued := by
  subst he
  exact hf.mono (queued_pushRetry s sri).symm.subset

theorem Follows.pushRespawned : Follows f (s.pushRespawned sri).queued := by
  subst he
  exact hf.mono (queued_pushRespawned s sri).symm.subset

end

theorem Follows.addURL (hf : Follows f list) (ha : f.Allotted) (url : String)
    (prio : Nat) {srv : Option ServicePtr} (new : srv.isSome → f.NewPosition) :
    Follows (f.addURL url prio srv).1 list := by
  have grown : Follows f.grow list := by
    intro i hh
    rw [f.occupied_grow] at hh
    rw [f.onlineIndexes_grow]
    exact hf i hh
  cases srv with
  | none =>
    rw [addURL_none]
    exact grown
  | some srv =>
    obtain ⟨idx, free, added⟩ := f.addURL_some url prio srv
    rw [added]
    intro i hh
    have below := ((ha.grow.available idx).mp free).1
    rw [onlineIndexes_occupy]
    rcases (mem_occupied_occupy below).mp hh with he | old
    · exact .inl (.inr ⟨he, newPosition_grow.mpr (new rfl)⟩)
    · exact (grown i old).imp_left .inl

/-- A slot that is released need not be followed any more. -/
theorem Follows.removeURL (hf : Follows f (idx :: list))
    (hr : f.removeURL idx = some g) : Follows g list := by
  rcases URLServiceFeeder.removeURL_cases hr with ⟨beyond, rfl⟩ | ⟨below, rfl⟩
  · intro i hh
    have inside := (mem_occupied.mp hh).1
    have other : i ≠ idx := by omega
    exact (hf i hh).imp_right fun member => (mem_cons.mp member).resolve_left other
  · intro i hh
    rw [occupied_release below, Finset.mem_erase] at hh
    refine (hf i hh.2).imp (fun online => ?_) fun member =>
      (mem_cons.mp member).resolve_left hh.1
    exact onlineIndexes_removeFromOnlineQueue.mpr ⟨hh.1, online⟩

theorem Follows.setURLOffline (hf : Follows f list)
    (taken : f.setURLOffline idx = some g) : Follows g (idx :: list) := by
  rcases setURLOffline_cases taken with ⟨-, rfl⟩ | ⟨below, rfl⟩
  · exact hf.mono (subset_cons_self ..)
  · intro i hh
    rw [occupied_takeOffline below] at hh
    by_cases he : i = idx
    · exact .inr (mem_cons.mpr (.inl he))
    · refine (hf i hh).imp (fun online => ?_) (mem_cons_of_mem idx)
      exact onlineIndexes_removeFromOnlineQueue.mpr ⟨he, online⟩

theorem Follows.setURLOnline (hf : Follows f (idx :: list)) (ha : f.Allotted)
    (new : f.NewPosition) (taken : f.setURLOnline idx = some g) : Follows g list := by
  rcases setURLOnline_cases taken with ⟨beyond, rfl⟩ | ⟨below, rfl⟩
  · intro i hh
    have inside := (mem_occupied.mp hh).1
    have other : i ≠ idx := by omega
    exact (hf i hh).imp_right fun member => (mem_cons.mp member).resolve_left other
  · intro i hh
    rw [occupied_bringOnline below] at hh
    rw [onlineIndexes_bringOnline ha below]
    rcases hf i hh with online | member
    · exact .inl (.inl online)
    · exact (mem_cons.mp member).imp_left fun same => .inr ⟨same, new⟩

theorem Follows.getService (hf : Follows f list) (new : f.NewPosition) :
    Follows f.getService.1 list := by
  intro i hh
  rw [f.getService_rescheduled.occupied] at hh
  rw [onlineIndexes_getService new.repositions]
  exact hf i hh

end Follows

/-! ### A pass over the queue -/

section

variable (visited : Visited s ts sri probe t owned)

include visited

theorem Visited.follows
    (hf : Follows s.feeder (sri.serviceIndex :: s.queued)) : Follows t.feeder t.queued := by
  cases visited with
  | waits early | postpones tmo spared => exact Follows.pushRetry hf rfl
  | respawns alive => exact Follows.pushRespawned hf rfl
  | evicts feeder evicted hr => exact hf.removeURL hr

theorem Visited.lost_eq : t.lost = s.lost := by
  cases visited <;> rfl

/-- Entries are only added behind those that the pass has still to visit. -/
theorem Visited.retryQueue_eq : ∃ pushed, t.retryQueue = s.retryQueue ++ pushed := by
  cases visited with
  | waits early | postpones tmo spared => exact ⟨_, rfl⟩
  | respawns alive | evicts feeder evicted hr => exact ⟨[], (append_nil _).symm⟩

end

section Loop

variable {probe : Probe} {probes : List Probe} {todo rest visited : List ServiceRetryInformation}

theorem checkLoop_owned (queue : s.retryQueue = sri :: rest)
    (taken : checkLoop ts s true (probe :: probes) = some t) :
    ∃ mid owned, Visited { s with retryQueue := rest } ts sri probe mid owned ∧
      checkLoop ts mid owned probes = some t := by
  unfold checkLoop at taken
  rw [queue] at taken
  obtain ⟨⟨mid, owned⟩, done, hc⟩ := bind_eq_some_iff.mp taken
  exact ⟨mid, owned, visit_cases done, hc⟩

/-- An iteration that does not own the lock raises, and its entry is lost. -/
theorem checkLoop_raises (queue : s.retryQueue = sri :: rest)
    (taken : checkLoop ts s false (probe :: probes) = some t) :
    t.lost = s.lost ++ [sri] := by
  unfold checkLoop at taken
  rw [queue] at taken
  cases taken
  rfl

/-- The loop has still to visit `todo`, and `visited` has been pushed again. -/
theorem checkLoop_tracked (tracked : s.lost = [] ∧ Follows s.feeder s.queued)
    (queue : s.retryQueue = todo ++ visited) (size : probes.length = todo.length)
    (spared : ∀ pair ∈ (todo.zip probes).dropLast, ¬ s.Evicts ts pair.1 pair.2)
    (taken : checkLoop ts s true probes = some t) :
    t.lost = [] ∧ Follows t.feeder t.queued := by
  induction probes generalizing s todo visited with
  | nil =>
    cases taken
    exact tracked
  | cons probe probes ih =>
    obtain ⟨sri, todo, rfl⟩ := exists_cons_of_length_eq_add_one size.symm
    obtain ⟨mid, owned, step, hc⟩ := checkLoop_owned queue taken
    have followed : mid.lost = [] ∧ Follows mid.feeder mid.queued := by
      refine ⟨step.lost_eq.trans tracked.1, step.follows ?_⟩
      rw [← queued_pop queue]
      exact tracked.2
    obtain ⟨pushed, behind⟩ := step.retryQueue_eq
    have hs : probes.length = todo.length := Nat.succ.inj size
    cases owned with
    | true =>
      refine ih followed (behind.trans (append_assoc ..)) hs ?_ hc
      intro pair member
      rw [step.evicts_iff]
      refine spared pair ?_
      have more := ne_nil_of_mem (mem_of_mem_dropLast member)
      rw [zip_cons_cons, dropLast_cons_of_ne_nil more]
      exact mem_cons_of_mem _ member
    | false =>
      -- the service of this entry was evicted, so there is no further one
      cases probes with
      | nil =>
        cases hc
        exact followed
      | cons next probes =>
        obtain ⟨later, todo, rfl⟩ := exists_cons_of_length_eq_add_one hs.symm
        have alone := spared (sri, probe) (mem_cons_self ..)
        cases step.owned_iff.mpr alone

/-- The entry behind one whose service was evicted is lost. -/
theorem checkLoop_spared (queue : s.retryQueue = todo ++ visited)
    (size : probes.length = todo.length) (taken : checkLoop ts s true probes = some t)
    (kept : t.lost = []) :
    ∀ pair ∈ (todo.zip probes).dropLast, ¬ s.Evicts ts pair.1 pair.2 := by
  induction probes generalizing s todo visited with
  | nil =>
    intro pair member
    rw [zip_nil_right] at member
    cases member
  | cons probe probes ih =>
    obtain ⟨sri, todo, rfl⟩ := exists_cons_of_length_eq_add_one size.symm
    obtain ⟨mid, owned, step, hc⟩ := checkLoop_owned queue taken
    obtain ⟨pushed, behind⟩ := step.retryQueue_eq
    have hs : probes.length = todo.length := Nat.succ.inj size
    cases probes with
    | nil =>
      obtain rfl := length_eq_zero_iff.mp hs.symm
      intro pair member
      cases member
    | cons next probes =>
      obtain ⟨later, todo, rfl⟩ := exists_cons_of_length_eq_add_one hs.symm
      cases owned with
      | false =>
        -- The iteration after an eviction drops its entry, against `kept`.
        have raised := checkLoop_raises behind hc
        rw [kept] at raised
        cases append_ne_nil_of_right_ne_nil _ (cons_ne_nil later []) raised.symm
      | true =>
        intro pair member
        rcases mem_cons.mp member with rfl | inner
        · exact step.owned_iff.mp rfl
        · intro evicted
          refine ih (behind.trans (append_assoc ..)) hs hc pair inner ?_
          exact (step.evicts_iff ..).mpr evicted

end Loop

/-- Each of the services gets a new position, and one is left for the service that is fed. -/
theorem enableRespawned_follows {queue : List ServiceRetryInformation} (ha : s.feeder.Allotted)
    (bounded : queue.length < 2 ^ 64) (new : s.feeder.NewPositions (queue.length + 1))
    (hf : Follows s.feeder ((s.retryQueue ++ queue).map (·.serviceIndex)))
    (taken : s.enableRespawned queue = some t) :
    t.lost = s.lost ∧ Follows t.feeder t.queued ∧ t.feeder.NewPosition := by
  induction queue generalizing s with
  | nil =>
    cases taken
    exact ⟨rfl, hf, new.newPosition⟩
  | cons sri rest ih =>
    obtain ⟨feeder, ho, hc⟩ := bind_eq_some_iff.mp taken
    refine ih (s := (s.record .online sri).setFeeder feeder)
      ((Reaches.of_setURLOnline ho).allotted ha) (Nat.lt_of_succ_lt bounded)
      (new.setURLOnline bounded ho) ?_ hc
    refine Follows.setURLOnline (hf.mono ?_) ha new.newPosition ho
    exact (perm_middle.map ServiceRetryInformation.serviceIndex).subset

/-! ### Runs -/

/-- No error was raised by a pass, no entry was dropped, and every URL that is in the feeder is
online or waits in one of the queues. -/
structure Tracked (s : URLHAServiceFeeder) : Prop where
  kept : s.lost = []
  follows : ∀ i ∈ s.feeder.occupied, i ∈ s.feeder.onlineIndexes ∨
    i ∈ s.retryQueue.map (·.serviceIndex) ∨ i ∈ s.respawnedQueue.map (·.serviceIndex)

theorem tracked_iff : s.Tracked ↔ s.lost = [] ∧ Follows s.feeder s.queued := by
  constructor
  · rintro ⟨kept, hf⟩
    refine ⟨kept, fun i hh => ?_⟩
    rw [queued, map_append, mem_append]
    exact hf i hh
  · rintro ⟨kept, hf⟩
    refine ⟨kept, fun i hh => ?_⟩
    have member := hf i hh
    rwa [queued, map_append, mem_append] at member

/-- No pass evicts a service unless its entry is the last one of the pass. -/
def OneEviction (s : URLHAServiceFeeder) : Action → Prop
  | .checkForAliveService currentTs probes =>
      ∀ pair ∈ (s.retryQueue.zip probes).dropLast, ¬ s.Evicts currentTs pair.1 pair.2
  | _ => True

instance (s : URLHAServiceFeeder) (action : Action) : Decidable (s.OneEviction action) := by
  cases action <;> unfold OneEviction <;> infer_instance

/-- The round robin positions that a call hands out are not in use. -/
def GivesNewPositions (s : URLHAServiceFeeder) : Action → Prop
  | .addURL _ _ service => service.isSome → s.feeder.NewPosition
  | .getService => s.respawnedQueue.length < 2 ^ 64 ∧
      s.feeder.NewPositions (s.respawnedQueue.length + 1)
  | _ => True

instance (s : URLHAServiceFeeder) (action : Action) : Decidable (s.GivesNewPositions action) := by
  cases action <;> unfold GivesNewPositions <;> infer_instance

theorem step_tracked (sound : s.feeder.Allotted ∧ s.Tracked) (new : s.GivesNewPositions act)
    (hg : s.OneEviction act) (taken : step s act = some t) :
    t.feeder.Allotted ∧ t.Tracked := by
  obtain ⟨ha, tracked⟩ := sound
  refine ⟨step_feeder_allotted ha taken, ?_⟩
  rw [tracked_iff] at tracked ⊢
  obtain ⟨kept, hf⟩ := tracked
  cases act with
  | addURL url prio srv =>
    cases taken
    exact ⟨kept, hf.addURL ha url prio new⟩
  | removeURL url =>
    rcases removeURL_cases taken with rfl | ⟨idx, feeder, -, hr, rfl⟩
    · exact ⟨kept, hf⟩
    · exact ⟨kept, (hf.mono (subset_cons_self idx _)).removeURL hr⟩
  | clear =>
    cases taken
    refine ⟨kept, fun i hh => ?_⟩
    rw [show s.clear.feeder.occupied = ∅ from occupied_clear] at hh
    cases hh
  | getService =>
    obtain ⟨enabled, hd, rfl⟩ := getService_cases taken
    obtain ⟨he, followed, next⟩ := enableRespawned_follows ha new.1 new.2 hf hd
    exact ⟨he.trans kept, followed.getService next⟩
  | setURLAsOffline raddr now =>
    rcases setURLAsOffline_cases taken with rfl | ⟨idx, feeder, -, ho, rfl⟩
    · exact ⟨kept, hf⟩
    · exact ⟨kept, Follows.pushRetry (hf.setURLOffline ho) rfl⟩
  | setIndexAsOffline rix now =>
    obtain ⟨feeder, ho, ⟨hu, rfl⟩ | ⟨url, -, rfl⟩⟩ := setIndexAsOffline_cases taken
    · refine ⟨kept, fun i hh => ?_⟩
      have mapped := ((Reaches.of_setURLOffline ho).allotted ha).mapped i hh
      refine (hf.setURLOffline ho i hh).imp_right fun member => ?_
      -- an occupied slot has a URL, so this call has not raised for it
      rcases mem_cons.mp member with rfl | old
      · rw [hu] at mapped
        cases mapped
      · exact old
    · exact ⟨kept, Follows.pushRetry (hf.setURLOffline ho) rfl⟩
  | checkForAliveService ts probes =>
    obtain ⟨size, looped⟩ := checkForAliveService_cases taken
    exact checkLoop_tracked ⟨kept, hf⟩ (append_nil _).symm size hg looped
  | setAutoEvitionForDeadUrl _ | setMaxRetryForDeadDeclaration _ | setRetryTime _ _ =>
    cases taken
    exact ⟨kept, hf⟩

theorem oneEviction_of_tracked (taken : step s act = some t)
    (tracked : t.Tracked) : s.OneEviction act := by
  cases act with
  | checkForAliveService ts probes =>
    obtain ⟨size, looped⟩ := checkForAliveService_cases taken
    exact checkLoop_spared (append_nil _).symm size looped tracked.kept
  | _ => trivial

theorem tracked_init : init.feeder.Allotted ∧ init.Tracked := by
  refine ⟨allotted_init, rfl, fun i hh => ?_⟩
  cases (mem_occupied.mp hh).1

/-- As long as no round robin position is handed out that is in use, every service of the feeder is
tracked all along a run, and no pass of the run raises or drops an entry, exactly when no pass
evicts a service before its last entry. -/
theorem tracked_iff_oneEviction {actions : List Action} (run : execute step init actions = some s)
    (new : Admissible step GivesNewPositions init actions) :
    Admissible step OneEviction init actions ↔
      ∀ n t, execute step init (actions.take n) = some t → t.Tracked :=
  Admissible.iff_forall_reached step_tracked And.right
    (fun _ taken tracked => oneEviction_of_tracked taken tracked) tracked_init new run

/-- Two services go offline, one comes back and the other one is evicted in the end. -/
def recovery : List Action :=
  [.setAutoEvitionForDeadUrl true, .addURL "a" 0 (some 7), .addURL "b" 0 (some 8),
    .setURLAsOffline "a" 0, .setIndexAsOffline 1 0,
    .checkForAliveService 1000 [⟨true, 1000⟩, ⟨false, 1000⟩], .getService,
    .checkForAliveService 2000 [⟨false, 2000⟩], .checkForAliveService 4000 [⟨false, 4000⟩]]

theorem tracked_iff_oneEviction_recovery :
    ∃ s, execute step init recovery = some s ∧ s.feeder.onlineIndexes = [0] ∧ s.Tracked := by
  have one : Admissible step OneEviction init recovery := by decide
  have new : Admissible step GivesNewPositions init recovery := by decide
  exact ⟨_, rfl, by decide, (tracked_iff_oneEviction rfl new).mp one 9 _ rfl⟩

/-- Both services are dead. The pass that evicts the first one forgets the second one. -/
theorem entry_after_eviction_lost :
    ∃ s, execute step init
        [.setAutoEvitionForDeadUrl true, .addURL "a" 0 (some 7), .addURL "b" 0 (some 8),
          .setURLAsOffline "a" 0, .setURLAsOffline "b" 0,
          .checkForAliveService 1000 [⟨false, 1000⟩, ⟨false, 1000⟩],
          .checkForAliveService 2000 [⟨false, 2000⟩, ⟨false, 2000⟩],
          .checkForAliveService 4000 [⟨false, 4000⟩, ⟨false, 4000⟩]] = some s ∧
      s.lost.map (·.serviceUrl) = ["b"] ∧ s.feeder.occupied = {1} ∧
      s.feeder.onlineIndexes = [] ∧ s.retryQueue = [] ∧ s.respawnedQueue = [] ∧ ¬ s.Tracked := by
  refine ⟨_, rfl, by decide, by decide, by decide, by decide, by decide, fun tracked => ?_⟩
  exact absurd tracked.kept (by decide)

end ChaosFramework.Network.URLHAServiceFeeder
