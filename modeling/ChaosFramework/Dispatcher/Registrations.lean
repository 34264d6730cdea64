import ChaosFramework.Dispatcher.RegistrationLoops

/-!
# Registrations of actions

Several objects may declare the same action. The container of a domain keeps the first descriptor
only, and the deregistration of any of the objects removes it; if it was the last one of its domain
the scheduler is gone as well.

As long as no object is deregistered while another registration declares one of its actions, the two
maps agree with each other and with what is registered. This condition is exact.
-/

namespace ChaosFramework.Dispatcher

open Transition Option DeclareAction

/-! ### Sequences of registrations -/

inductive Registration
  | register (d : DeclareAction)
  | deregister (d : DeclareAction)
  deriving DecidableEq, Repr

/-- A dispatcher, with the objects that are registered. -/
structure Registry (Doc : Type) where
  dispatcher : DefaultCommandDispatcher Doc
  registered : List DeclareAction

/-- One of the objects declares an action. -/
def Declared (registered : List DeclareAction) (domain name : String) : Prop :=
  ∃ d ∈ registered, (domain, name) ∈ d.actions

namespace Registry

variable {Doc : Type}

def init : Registry Doc := ⟨.init, []⟩

/-- There is at most one deregistration for each registration. -/
def step (s : Registry Doc) : Registration → Option (Registry Doc)
  | .register d => some ⟨s.dispatcher.registerAction d, d :: s.registered⟩
  | .deregister d =>
      if d ∈ s.registered then some ⟨s.dispatcher.deregisterAction d, s.registered.erase d⟩
      else none

/-- The dispatcher offers what is registered. -/
structure Offers (s : Registry Doc) : Prop where
  accepts : ∀ (c : Call Doc) (domain name : String), c.pack.domain = some domain →
    c.pack.name = some name →
      ((s.dispatcher.dispatchCommand c).2 = 0 ↔ Declared s.registered domain name)
  /-- The scheduler finds a descriptor, and it can be fired. -/
  runs : ∀ (c : Call Doc) (domain : String), c.pack.domain = some domain →
    (s.dispatcher.dispatchCommand c).2 = 0 →
      ∃ k desc, s.dispatcher.dasMap domain = some k ∧ s.dispatcher.lookup k c = some desc ∧
        s.dispatcher.enabled desc = true ∧ ∃ d ∈ s.registered, desc ∈ d.getActionDescriptors
  schedules : ∀ domain, (s.dispatcher.dasMap domain).isSome ↔
    ∃ name, Declared s.registered domain name
  /-- A scheduler works on the container that registrations change. -/
  shares : ∀ domain, ∀ k ∈ s.dispatcher.dasMap domain,
    s.dispatcher.actionDomainExecutorMap domain =
      some (s.dispatcher.schedulers k).domainActionsContainer

/-- No object is deregistered while another registration declares one of its actions. -/
def Separate (s : Registry Doc) : Registration → Prop
  | .register _ => True
  | .deregister d => ∀ other ∈ s.registered.erase d, ∀ action ∈ d.actions, action ∉ other.actions

instance decidableSeparate (s : Registry Doc) (r : Registration) : Decidable (s.Separate r) := by
  unfold Separate
  split <;> infer_instance

open DefaultCommandDispatcher

/-- The invariant: the entries are those that are declared, and there are schedulers for their
domains. -/
structure Consistent (s : Registry Doc) : Prop where
  named : Named s.dispatcher
  filled : Filled s.dispatcher
  scheduled : Scheduled s.dispatcher
  attached : Attached s.dispatcher
  covered : ∀ domain, (s.dispatcher.dasMap domain).isSome ↔
    (s.dispatcher.actionDomainExecutorMap domain).isSome
  declared : ∀ domain name, (s.dispatcher.entry domain name).isSome ↔
    Declared s.registered domain name
  owned : ∀ domain name, ∀ desc ∈ s.dispatcher.entry domain name,
    desc.owner ∈ s.registered ∧ desc ∈ desc.owner.getActionDescriptors ∧ desc.domain = domain
  enabled : ∀ domain name, ∀ desc ∈ s.dispatcher.entry domain name,
    s.dispatcher.enabled desc = true

variable {s t : Registry Doc} {d : DeclareAction} {r : Registration}

theorem consistent_init : Consistent (init : Registry Doc) where
  named := nofun
  filled := nofun
  scheduled := by
    refine ⟨?_, ?_, ?_, ?_⟩
    · intro _ _ _ found
      cases found
    all_goals
      intro _ _ found
      cases found
  attached := nofun
  covered _ := Iff.rfl
  declared dom name := by
    simp [Declared, init, entry, DefaultCommandDispatcher.init]
  owned := nofun
  enabled := nofun

section

variable (hc : Consistent s) {dom : String} {k : ℕ}

include hc

/-- A domain is in the map if one of its actions is declared. -/
theorem Consistent.isSome_map_iff (dom : String) :
    (s.dispatcher.actionDomainExecutorMap dom).isSome ↔ ∃ name, Declared s.registered dom name := by
  constructor
  · intro hp
    obtain ⟨name, ht⟩ := hc.filled dom hp
    exact ⟨name, (hc.declared dom name).mp ht⟩
  · rintro ⟨name, hd⟩
    exact isSome_map_of_entry ((hc.declared dom name).mpr hd)

theorem Consistent.shares (found : s.dispatcher.dasMap dom = some k) :
    s.dispatcher.actionDomainExecutorMap dom =
      some (s.dispatcher.schedulers k).domainActionsContainer := by
  have hp := (hc.covered dom).mp (isSome_iff_exists.mpr ⟨k, found⟩)
  obtain ⟨c, ht⟩ := isSome_iff_exists.mp hp
  rw [ht, hc.attached dom k found c ht]

/-- What the scheduler of a domain finds is the entry of its container. -/
theorem Consistent.lookup_eq (found : s.dispatcher.dasMap dom = some k)
    (c : Call Doc) : s.dispatcher.lookup k c = s.dispatcher.entry dom (c.pack.name.getD "") := by
  rw [entry_of_here (hc.shares found), lookup]

theorem Consistent.accepts_iff {c : Call Doc} {name : String}
    (hi : c.pack.domain = some dom) (called : c.pack.name = some name) :
    (s.dispatcher.dispatchCommand c).2 = 0 ↔ (s.dispatcher.entry dom name).isSome := by
  simp only [dispatchCommand, hi, called]
  cases found : s.dispatcher.dasMap dom with
  | none =>
    have hm : ¬ (s.dispatcher.entry dom name).isSome := fun hp => by
      have hs := (hc.covered dom).mpr (isSome_map_of_entry hp)
      rw [found] at hs
      cases hs
    exact iff_of_false (by simp) hm
  | some k =>
    have hl := hc.lookup_eq found c
    rw [called, getD_some] at hl
    simp only [push, hc.scheduled.armed dom k found, hl, hc.scheduled.empty dom k found]
    cases s.dispatcher.entry dom name with
    | none => simp
    | some desc => simp

theorem Consistent.offers : Offers s where
  accepts c dom name hi called := by
    rw [hc.accepts_iff hi called, hc.declared]
  runs c dom hi ha := by
    cases called : c.pack.name with
    | none =>
      rw [dispatchCommand, hi] at ha
      simp [called] at ha
    | some name =>
      have hp := (hc.accepts_iff hi called).mp ha
      obtain ⟨desc, he⟩ := isSome_iff_exists.mp hp
      obtain ⟨k, found⟩ := isSome_iff_exists.mp ((hc.covered dom).mpr (isSome_map_of_entry hp))
      obtain ⟨hr, hd, -⟩ := hc.owned dom name desc he
      refine ⟨k, desc, found, ?_, hc.enabled dom name desc he, desc.owner, hr, hd⟩
      rw [hc.lookup_eq found, called, getD_some, he]
  schedules dom := (hc.covered dom).trans (hc.isSome_map_iff dom)
  shares dom k found := hc.shares found

end

/-! ### One step -/

theorem declares_iff {dom name : String} :
    Declares d.getActionDescriptors dom name ↔ (dom, name) ∈ d.actions :=
  mem_actions_iff.symm

theorem declared_erase (hs : s.Separate (.deregister d)) (dom name : String) :
    Declared (s.registered.erase d) dom name ↔
      Declared s.registered dom name ∧ (dom, name) ∉ d.actions := by
  constructor
  · rintro ⟨other, ho, declares⟩
    exact ⟨⟨other, List.mem_of_mem_erase ho, declares⟩, fun hd =>
      hs other ho _ hd declares⟩
  · rintro ⟨⟨other, ho, declares⟩, hu⟩
    refine ⟨other, (List.mem_erase_of_ne ?_).mpr ho, declares⟩
    rintro rfl
    exact hu declares

section Loops

variable (hc : Consistent s) (d : DeclareAction)

include hc

theorem Consistent.covered_registerAction :
    Covered (d.getActionDescriptors.foldl registerDescriptor s.dispatcher)
      (d.getActionDescriptors.map (·.domain)) (s.dispatcher.registerAction d) := by
  have first := foldl_registerDescriptor hc.named d.getActionDescriptors
  apply foldl_addScheduler
  · exact hc.scheduled.congr first.dasMap first.schedulers first.nextScheduler
  · intro dom k found c ht
    rw [first.dasMap] at found
    have hh := first.kept dom _ (hc.shares found)
    rw [first.schedulers]
    exact Option.some.inj (hh.symm.trans ht)
  · intro desc hd
    exact isSome_map_of_entry ((first.present desc.domain desc.name).mpr
      (.inr ⟨desc, hd, rfl, rfl⟩))

theorem Consistent.uncovered_deregisterAction :
    Uncovered (d.getActionDescriptors.foldl deregisterDescriptor s.dispatcher)
      (d.getActionDescriptors.map (·.domain)) (s.dispatcher.deregisterAction d) := by
  have first := foldl_deregisterDescriptor hc.named d.getActionDescriptors
  apply foldl_removeScheduler
  · exact hc.scheduled.congr first.dasMap first.schedulers first.nextScheduler
  · intro dom k found c ht
    rw [first.dasMap] at found
    rw [first.schedulers]
    exact hc.attached dom k found c (first.kept dom c ht)

theorem Consistent.isSome_dasMap_registerAction (dom : String) :
    ((s.dispatcher.registerAction d).dasMap dom).isSome ↔
      ((s.dispatcher.registerAction d).actionDomainExecutorMap dom).isSome := by
  have first := foldl_registerDescriptor hc.named d.getActionDescriptors
  have second := hc.covered_registerAction d
  rw [second.present, second.same.actionDomainExecutorMap, first.dasMap, hc.covered]
  constructor
  · rintro (hp | hi)
    · obtain ⟨c, found⟩ := isSome_iff_exists.mp hp
      exact isSome_iff_exists.mpr ⟨c, first.kept dom c found⟩
    · obtain ⟨desc, hd, rfl⟩ := List.mem_map.mp hi
      exact isSome_map_of_entry ((first.present desc.domain desc.name).mpr
        (.inr ⟨desc, hd, rfl, rfl⟩))
  · intro hp
    obtain ⟨name, ht⟩ := first.filled hc.filled dom hp
    rcases (first.present dom name).mp ht with hb | ⟨desc, hd, rfl, -⟩
    · exact .inl (isSome_map_of_entry hb)
    · exact .inr (List.mem_map_of_mem hd)

theorem Consistent.isSome_dasMap_deregisterAction (dom : String) :
    ((s.dispatcher.deregisterAction d).dasMap dom).isSome ↔
      ((s.dispatcher.deregisterAction d).actionDomainExecutorMap dom).isSome := by
  have first := foldl_deregisterDescriptor hc.named d.getActionDescriptors
  have second := hc.uncovered_deregisterAction d
  rw [second.present, second.same.actionDomainExecutorMap, first.dasMap, hc.covered]
  constructor
  · rintro ⟨hp, hk⟩
    by_cases hi : dom ∈ d.getActionDescriptors.map (·.domain)
    · exact hk hi
    · -- A domain without an action of the object keeps its entries.
      obtain ⟨name, ht⟩ := hc.filled dom hp
      have hu : ¬ Declares d.getActionDescriptors dom name := by
        rintro ⟨desc, hd, rfl, -⟩
        exact hi (List.mem_map_of_mem hd)
      rw [← first.stays dom name hu] at ht
      exact isSome_map_of_entry ht
  · intro hp
    obtain ⟨c, found⟩ := isSome_iff_exists.mp hp
    exact ⟨isSome_iff_exists.mpr ⟨c, first.kept dom c found⟩, fun _ => hp⟩

theorem register_consistent : Consistent ⟨s.dispatcher.registerAction d, d :: s.registered⟩ := by
  have first := foldl_registerDescriptor hc.named d.getActionDescriptors
  have second := hc.covered_registerAction d
  refine ⟨second.same.named first.named, second.same.filled (first.filled hc.filled),
    second.scheduled, second.attached, hc.isSome_dasMap_registerAction d, ?_, ?_, ?_⟩
  · intro dom name
    rw [second.same.entry, first.present, hc.declared, declares_iff]
    simp [Declared, or_comm]
  · intro dom name desc found
    rw [second.same.entry] at found
    rcases first.origin dom name desc found with hb | ⟨hd, hi⟩
    · obtain ⟨hr, rest⟩ := hc.owned dom name desc hb
      exact ⟨List.mem_cons_of_mem d hr, rest⟩
    · rw [owner_of_mem hd]
      exact ⟨List.mem_cons_self, hd, hi⟩
  · intro dom name desc found
    rw [second.same.entry] at found
    rw [second.same.enabled]
    apply first.enables
    rcases first.origin dom name desc found with hb | ⟨hd, -⟩
    · exact .inl (hc.enabled dom name desc hb)
    · exact .inr hd

variable {d}

theorem deregister_consistent (hs : s.Separate (.deregister d)) :
    Consistent ⟨s.dispatcher.deregisterAction d, s.registered.erase d⟩ := by
  have first := foldl_deregisterDescriptor hc.named d.getActionDescriptors
  have second := hc.uncovered_deregisterAction d
  refine ⟨second.same.named first.named, second.same.filled (first.filled hc.filled),
    second.scheduled, second.attached, hc.isSome_dasMap_deregisterAction d, ?_, ?_, ?_⟩
  · intro dom name
    rw [second.same.entry, declared_erase hs, ← hc.declared, ← declares_iff]
    by_cases declares : Declares d.getActionDescriptors dom name
    · rw [first.gone dom name declares]
      simp [declares]
    · rw [first.stays dom name declares]
      simp [declares]
  · intro dom name desc found
    rw [second.same.entry] at found
    obtain ⟨hu, hb⟩ := first.entry_some found
    obtain ⟨hr, hd, hi⟩ := hc.owned dom name desc hb
    refine ⟨(List.mem_erase_of_ne ?_).mpr hr, hd, hi⟩
    rintro he
    apply hu
    rw [← he]
    exact ⟨desc, hd, hi, name_of_entry hb⟩
  · intro dom name desc found
    rw [second.same.entry] at found
    obtain ⟨hu, hb⟩ := first.entry_some found
    obtain ⟨-, -, hi⟩ := hc.owned dom name desc hb
    rw [second.same.enabled, first.enabled]
    · exact hc.enabled dom name desc hb
    · intro hd
      exact hu ⟨desc, hd, hi, name_of_entry hb⟩

end Loops

theorem step_consistent (hc : Consistent s) (hs : s.Separate r)
    (taken : s.step r = some t) : Consistent t := by
  cases r with
  | register d =>
    cases taken
    exact register_consistent hc d
  | deregister d =>
    obtain ⟨-, same⟩ := ite_none_right_eq_some.mp taken
    cases same
    exact deregister_consistent hc hs

/-- A deregistration removes the actions of the others as well. -/
theorem separate_of_offers (hc : Consistent s)
    (taken : s.step r = some t) (offers : Offers t) : s.Separate r := by
  cases r with
  | register d => exact trivial
  | deregister d =>
    obtain ⟨-, he⟩ := ite_none_right_eq_some.mp taken
    cases he
    rintro other ho ⟨dom, name⟩ declares hd
    -- The call is accepted, and its scheduler finds what the container has: nothing.
    let c : Call Doc := ⟨⟨some dom, some name, none, none, none, none, none⟩, []⟩
    have accepted := (offers.accepts c dom name rfl rfl).mpr ⟨other, ho, hd⟩
    obtain ⟨k, desc, found, hl, -⟩ := offers.runs c dom rfl accepted
    have entry : (s.dispatcher.deregisterAction d).entry dom name = some desc := by
      rw [entry_of_here (offers.shares dom k found)]
      exact hl
    have first := foldl_deregisterDescriptor hc.named d.getActionDescriptors
    rw [(hc.uncovered_deregisterAction d).same.entry,
      first.gone dom name (declares_iff.mpr declares)] at entry
    cases entry

/-- **What is registered can be called.** In a sequence of registrations the dispatcher offers what
is registered at all times if and only if no object is deregistered while another registration
declares one of its actions. -/
theorem offers_iff_separate (Doc : Type) (registrations : List Registration) (t : Registry Doc)
    (executed : execute step init registrations = some t) :
    Admissible step Separate (init : Registry Doc) registrations ↔
      ∀ n (r : Registry Doc), execute step init (registrations.take n) = some r → Offers r :=
  admissible_iff_forall_reached step_consistent Consistent.offers separate_of_offers
    consistent_init executed

end Registry

/-- Two objects with an action each in the same domain. -/
def readout : DeclareAction := ⟨0, [("BPM", "read")]⟩

def calibration : DeclareAction := ⟨1, [("BPM", "calibrate")]⟩

/-- An object that declares the action of the first one as well. -/
def otherReadout : DeclareAction := ⟨2, [("BPM", "read")]⟩

namespace Registry

def separateRegistrations : List Registration :=
  [.register readout, .register calibration, .deregister readout, .register otherReadout]

theorem offers_iff_separate_shared :
    ∃ t : Registry Unit, execute step init separateRegistrations = some t ∧ Offers t := by
  have ha : Admissible step Separate (init : Registry Unit) separateRegistrations := by
    decide
  exact ⟨_, rfl, (offers_iff_separate Unit separateRegistrations _ rfl).mp ha 4 _ rfl⟩

/-- The deregistration of the second object takes the action of the first one away. -/
theorem action_taken_away :
    ∃ t : Registry Unit,
      execute step init [.register readout, .register otherReadout, .deregister otherReadout] =
        some t ∧ t.registered = [readout] ∧ (t.dispatcher.dasMap "BPM").isNone ∧ ¬ Offers t := by
  refine ⟨_, rfl, rfl, rfl, fun offers => ?_⟩
  have hs := (offers.schedules "BPM").mpr ⟨"read", readout, by decide, by decide⟩
  exact absurd hs (by decide)

end Registry

end ChaosFramework.Dispatcher
