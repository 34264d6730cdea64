import ChaosFramework.Network.RetryTracking

/-!
# An entry acts on its own service

The entries of the queues hold a bare index. `Bound` says that the index of every entry is still
that of the URL for which the entry was created. It is kept as long as no slot is freed of which a
queue holds the index (`FreesUnqueued`). Then everything that is done to the index of an entry is
done to the service of its URL.
-/

namespace ChaosFramework.Network.URLHAServiceFeeder

open Transition List URLServiceFeeder

variable {s t : URLHAServiceFeeder} {sri : ServiceRetryInformation} {ts : Nat} {owned : Bool}
  {probe : Probe}

theorem binding_of_entry {f : URLServiceFeeder} {idx : Nat} {url : String} (hn : f.Named)
    (entry : f.mappingUrlIndex.findByRightKey idx = some url) : f.binding idx = some url := by
  obtain ⟨hh, called⟩ := (hn.named idx url).mp entry
  rw [binding, if_pos hh, called]

/-- The index of the entry is still that of its URL. -/
def Current (f : URLServiceFeeder) (sri : ServiceRetryInformation) : Prop :=
  f.mappingUrlIndex.findByRightKey sri.serviceIndex = some sri.serviceUrl

structure Bound (s : URLHAServiceFeeder) : Prop where
  named : s.feeder.Named
  retry : ∀ sri ∈ s.retryQueue, Current s.feeder sri
  respawned : ∀ sri ∈ s.respawnedQueue, Current s.feeder sri
  acts : ∀ act ∈ s.acts, act.binding = some act.serviceUrl

theorem bound_init : init.Bound where
  named := named_init
  retry := nofun
  respawned := nofun
  acts := nofun

namespace Bound

theorem pushRetry (bound : s.Bound) (hc : Current s.feeder sri) : (s.pushRetry sri).Bound := by
  refine ⟨bound.named, ?_, bound.respawned, bound.acts⟩
  exact forall_mem_append.mpr ⟨bound.retry, forall_mem_singleton.mpr hc⟩

theorem pushRespawned (bound : s.Bound) (hc : Current s.feeder sri) :
    (s.pushRespawned sri).Bound := by
  refine ⟨bound.named, bound.retry, ?_, bound.acts⟩
  exact forall_mem_append.mpr ⟨bound.respawned, forall_mem_singleton.mpr hc⟩

theorem record (bound : s.Bound) (kind : ActKind) (hc : Current s.feeder sri) :
    (s.record kind sri).Bound := by
  refine ⟨bound.named, bound.retry, bound.respawned, forall_mem_append.mpr ⟨bound.acts, ?_⟩⟩
  exact forall_mem_singleton.mpr (binding_of_entry bound.named hc)

variable {f : URLServiceFeeder} {idx : Nat}

/-- A call that does not remove a queued index. -/
theorem call (bound : s.Bound) (call : URLServiceFeeder.Action)
    (empty : call = .clear → s.feeder.occupied = ∅) (taken : s.feeder.step call = some f)
    (hu : ∀ idx ∈ s.queued, call ≠ .removeURL idx) : (s.setFeeder f).Bound := by
  refine ⟨step_named bound.named empty taken, fun entry member => ?_, fun entry member => ?_,
    bound.acts⟩
  · have hq : entry.serviceIndex ∈ s.queued :=
      mem_map_of_mem (mem_append_left _ member)
    exact step_entry call taken (hu _ hq) (bound.retry entry member)
  · have hq : entry.serviceIndex ∈ s.queued :=
      mem_map_of_mem (mem_append_right _ member)
    exact step_entry call taken (hu _ hq) (bound.respawned entry member)

theorem removeURL (bound : s.Bound) (hr : s.feeder.removeURL idx = some f) (hu : idx ∉ s.queued) :
    (s.setFeeder f).Bound := by
  refine bound.call (.removeURL idx) (by simp) hr fun other member same => ?_
  cases same
  exact hu member

theorem setURLOnline (bound : s.Bound)
    (taken : s.feeder.setURLOnline idx = some f) : (s.setFeeder f).Bound :=
  bound.call (.setURLOnline idx) (by simp) taken (by simp)

theorem setURLOffline (bound : s.Bound)
    (taken : s.feeder.setURLOffline idx = some f) : (s.setFeeder f).Bound :=
  bound.call (.setURLOffline idx) (by simp) taken (by simp)

end Bound

/-! ### A pass over the queue -/

/-- The service of the entry may be evicted when no other entry has its index. -/
theorem Visited.bound (hv : Visited s ts sri probe t owned) (hb : s.Bound)
    (hc : Current s.feeder sri)
    (alone : s.Evicts ts sri probe → sri.serviceIndex ∉ s.queued) : t.Bound := by
  have probed : (s.record .probe (countRetry sri)).Bound := hb.record .probe hc
  cases hv with
  | waits early => exact hb.pushRetry hc
  | respawns alive => exact probed.pushRespawned hc
  | evicts feeder he hr =>
    exact (probed.record .evict hc).removeURL hr (alone he)
  | postpones tmo spared => exact probed.pushRetry hc

theorem Visited.count_queued (hv : Visited s ts sri probe t owned) (i : Nat) :
    t.queued.count i ≤ (sri.serviceIndex :: s.queued).count i := by
  cases hv with
  | waits early => exact ((queued_pushRetry s sri).count_eq i).le
  | respawns alive => exact ((queued_pushRespawned (s.record ..) (countRetry sri)).count_eq i).le
  | evicts feeder he hr => exact count_le_count_cons ..
  | postpones tmo spared => exact ((queued_pushRetry (s.record ..) _).count_eq i).le

/-- The loop has still to visit `todo`, and `visited` has been pushed again. The entries only
become fewer, so an index that is queued once before the pass is so in every iteration. -/
theorem checkLoop_bound {probes : List Probe}
    {todo visited : List ServiceRetryInformation} (hb : s.Bound)
    (queue : s.retryQueue = todo ++ visited) (size : probes.length = todo.length)
    (alone : ∀ pair ∈ todo.zip probes, s.Evicts ts pair.1 pair.2 →
      s.queued.count pair.1.serviceIndex ≤ 1)
    (taken : checkLoop ts s owned probes = some t) : t.Bound := by
  induction probes generalizing s owned todo visited with
  | nil =>
    cases taken
    exact hb
  | cons probe probes ih =>
    obtain ⟨sri, todo, rfl⟩ := exists_cons_of_length_eq_add_one size.symm
    have hc := hb.retry sri (queue ▸ mem_cons_self ..)
    have popped : Bound { s with retryQueue := todo ++ visited } := by
      refine ⟨hb.named, fun entry member => ?_, hb.respawned, hb.acts⟩
      exact hb.retry entry (queue ▸ mem_cons_of_mem sri member)
    have count := queued_pop queue
    cases owned with
    -- The lock was lost in the iteration before: the entry is popped and the pass raises.
    | false =>
      unfold checkLoop at taken
      rw [queue] at taken
      cases taken
      exact { popped with }
    | true =>
      obtain ⟨mid, owned, step, continued⟩ := checkLoop_owned queue taken
      obtain ⟨pushed, behind⟩ := step.retryQueue_eq
      refine ih (step.bound popped hc fun he member => ?_)
        (behind.trans (append_assoc ..)) (Nat.succ.inj size) (fun pair member he => ?_)
        continued
      -- The popped entry was the only one with its index, so an eviction leaves none behind.
      · have once := alone (sri, probe) (mem_cons_self ..) he
        rw [count, count_cons_self] at once
        exact Nat.not_le.mpr (count_pos_iff.mpr member) (Nat.le_of_succ_le_succ once)
      · have fewer := step.count_queued pair.1.serviceIndex
        have once := alone pair (mem_cons_of_mem _ member) ((step.evicts_iff ..).mp he)
        rw [count] at once
        exact fewer.trans once

theorem enableRespawned_bound {queue : List ServiceRetryInformation} (bound : s.Bound)
    (hc : ∀ sri ∈ queue, Current s.feeder sri)
    (taken : s.enableRespawned queue = some t) : t.Bound := by
  induction queue generalizing s with
  | nil =>
    cases taken
    exact ⟨bound.named, bound.retry, fun sri member => (by cases member), bound.acts⟩
  | cons sri rest ih =>
    obtain ⟨feeder, ho, continued⟩ := Option.bind_eq_some_iff.mp taken
    have hh := hc sri (mem_cons_self ..)
    refine ih ((bound.record .online hh).setURLOnline ho) (fun entry member => ?_) continued
    exact step_entry (.setURLOnline sri.serviceIndex) ho (by simp)
      (hc entry (mem_cons_of_mem sri member))

/-! ### Runs -/

/-- No slot is freed of which a queue holds the index: a removed URL has no entry, an evicted
service has no second one, and `clear` finds no URL. -/
def FreesUnqueued (s : URLHAServiceFeeder) : Action → Prop
  | .removeURL url => ∀ idx ∈ s.queued, s.feeder.mappingUrlIndex.findByLeftKey url ≠ some idx
  | .clear => s.feeder.occupied = ∅
  | .checkForAliveService currentTs probes =>
      ∀ pair ∈ s.retryQueue.zip probes, s.Evicts currentTs pair.1 pair.2 →
        s.queued.count pair.1.serviceIndex ≤ 1
  | _ => True

instance (s : URLHAServiceFeeder) : ∀ action, Decidable (s.FreesUnqueued action)
  | .removeURL url => inferInstanceAs (Decidable
      (∀ idx ∈ s.queued, s.feeder.mappingUrlIndex.findByLeftKey url ≠ some idx))
  | .clear => inferInstanceAs (Decidable (s.feeder.occupied = ∅))
  | .checkForAliveService currentTs probes => inferInstanceAs (Decidable
      (∀ pair ∈ s.retryQueue.zip probes, s.Evicts currentTs pair.1 pair.2 →
        s.queued.count pair.1.serviceIndex ≤ 1))
  | .addURL .. | .getService | .setURLAsOffline .. | .setIndexAsOffline ..
  | .setAutoEvitionForDeadUrl _ | .setMaxRetryForDeadDeclaration _ | .setRetryTime .. =>
      .isTrue trivial

theorem step_bound {act : Action} (bound : s.Bound) (frees : s.FreesUnqueued act)
    (taken : step s act = some t) : t.Bound := by
  cases act with
  | addURL url prio srv =>
    cases taken
    exact bound.call (.addURL url prio srv) (by simp) rfl (by simp)
  | removeURL url =>
    rcases removeURL_cases taken with rfl | ⟨idx, feeder, known, hr, rfl⟩
    · exact bound
    · exact bound.removeURL hr fun member => frees idx member known
  | clear =>
    cases taken
    exact bound.call .clear (fun _ => frees) rfl (by simp)
  | getService =>
    obtain ⟨enabled, hd, rfl⟩ := getService_cases taken
    -- First the respawned entries are put online, then the feeder below is asked.
    have restored := enableRespawned_bound bound bound.respawned hd
    exact restored.call .getService (by simp) rfl (by simp)
  | setURLAsOffline raddr now =>
    rcases setURLAsOffline_cases taken with rfl | ⟨idx, feeder, known, ho, rfl⟩
    · exact bound
    · refine (bound.setURLOffline ho).pushRetry ?_
      exact step_entry (.setURLOffline idx) ho (by simp) (bound.named.paired raddr idx known)
  | setIndexAsOffline rix now =>
    obtain ⟨feeder, ho, ⟨-, rfl⟩ | ⟨url, known, rfl⟩⟩ := setIndexAsOffline_cases taken
    · exact bound.setURLOffline ho
    · exact (bound.setURLOffline ho).pushRetry known
  | checkForAliveService ts probes =>
    obtain ⟨size, looped⟩ := checkForAliveService_cases taken
    exact checkLoop_bound bound (append_nil _).symm size frees looped
  | setAutoEvitionForDeadUrl _ | setMaxRetryForDeadDeclaration _ | setRetryTime _ _ =>
    cases taken
    exact { bound with }

/-- Whatever is probed, put online or evicted for an entry is the service of the URL for which
the entry was created, in every run in which no queued slot is freed. -/
theorem acts_on_own_url {actions : List Action}
    (admissible : Admissible step FreesUnqueued init actions)
    (run : execute step init actions = some s) :
    ∀ act ∈ s.acts, act.binding = some act.serviceUrl :=
  (admissible.invariant step_bound bound_init run).acts

/-- A service that is probed and put online again, and one that is evicted. -/
theorem acts_on_own_url_recovery :
    ∃ s, execute step init recovery = some s ∧
      s.acts.map (·.kind) = [.probe, .probe, .online, .probe, .probe, .evict] ∧
      ∀ act ∈ s.acts, act.binding = some act.serviceUrl := by
  have frees : Admissible step FreesUnqueued init recovery := by decide
  exact ⟨_, rfl, by decide, acts_on_own_url frees rfl⟩

/-- The entry of a removed URL is used for the URL that has got its slot. Of two entries for one
URL the first one puts the slot online that was freed by the eviction of the second one. -/
theorem entry_outlives_url :
    (∃ s, execute step init
        [.addURL "a" 0 (some 7), .setURLAsOffline "a" 0, .removeURL "a", .addURL "b" 0 (some 8),
          .checkForAliveService 1000 [⟨true, 1000⟩], .getService] = some s ∧
      s.acts = [⟨.probe, 0, "a", some "b"⟩, ⟨.online, 0, "a", some "b"⟩]) ∧
    (∃ s, execute step init
        [.setAutoEvitionForDeadUrl true, .setMaxRetryForDeadDeclaration 1,
          .addURL "a" 0 (some 7), .setURLAsOffline "a" 0, .setURLAsOffline "a" 0,
          .checkForAliveService 1000 [⟨true, 1000⟩, ⟨false, 1000⟩], .getService] = some s ∧
      s.acts = [⟨.probe, 0, "a", some "a"⟩, ⟨.probe, 0, "a", some "a"⟩,
        ⟨.evict, 0, "a", some "a"⟩, ⟨.online, 0, "a", none⟩]) :=
  ⟨⟨_, rfl, by decide⟩, ⟨_, rfl, by decide⟩⟩

end ChaosFramework.Network.URLHAServiceFeeder
