import Mathlib.Data.List.Lemmas
import ChaosFramework.Dispatcher.DefaultCommandDispatcher
import ChaosFramework.UniqueIndex

/-!
# The loops of registrations and deregistrations

What `registerAction` and `deregisterAction` do to the two maps, loop by loop. The containers are
seen through `entry`, the descriptor under the name of a domain and the name of an action; a
container is erased as soon as it has no entry.
-/

namespace ChaosFramework.Dispatcher

open UniqueIndex List Function
open Option (bind_some getD_some)

namespace DomainActions

variable {c : DomainActions} {desc : ActionDescriptor} {name : String}

theorem name_of_get (found : c.getActionDescriptornFormActionName name = some desc) :
    desc.name = name := by
  simpa using find?_some found

theorem get_addActionDescriptor (fits : desc.domain = c.domainName) :
    (c.addActionDescriptor desc).getActionDescriptornFormActionName name =
      if name = desc.name then
        some ((c.getActionDescriptornFormActionName name).getD desc)
      else c.getActionDescriptornFormActionName name := by
  rw [addActionDescriptor, if_neg (not_not_intro fits)]
  obtain rfl | same := eq_or_ne name desc.name
  · rw [if_pos rfl]
    split
    next present =>
      obtain ⟨other, found⟩ := Option.isSome_iff_exists.mp present
      rw [found, getD_some]
    next absent =>
      have hm := Option.not_isSome_iff_eq_none.mp absent
      simp [getActionDescriptornFormActionName]
  · split
    · rfl
    · simp [getActionDescriptornFormActionName, Ne.symm same]

theorem get_removeActionDescriptor (fits : desc.domain = c.domainName) :
    (c.removeActionDescriptor desc).getActionDescriptornFormActionName name =
      if name = desc.name then none else c.getActionDescriptornFormActionName name := by
  rw [removeActionDescriptor, if_neg (not_not_intro fits)]
  obtain rfl | same := eq_or_ne name desc.name
  · simp [getActionDescriptornFormActionName]
  · rw [if_neg same]
    simp only [getActionDescriptornFormActionName, find?_filter]
    congr 1
    funext other
    by_cases named : other.name = name <;> simp [named, same]

@[simp] theorem domainName_addActionDescriptor :
    (c.addActionDescriptor desc).domainName = c.domainName := by
  unfold addActionDescriptor
  split
  · rfl
  · split <;> rfl

@[simp] theorem domainName_removeActionDescriptor :
    (c.removeActionDescriptor desc).domainName = c.domainName := by
  unfold removeActionDescriptor
  split <;> rfl

theorem registeredActions_eq_zero :
    c.registeredActions = 0 ↔ ∀ name, c.getActionDescriptornFormActionName name = none := by
  rw [registeredActions, length_eq_zero_iff]
  constructor
  · intro empty name
    simp [getActionDescriptornFormActionName, empty]
  · intro none
    apply eq_nil_iff_forall_not_mem.mpr
    intro desc ht
    have hm := none desc.name
    rw [getActionDescriptornFormActionName, find?_eq_none] at hm
    exact hm desc ht (decide_eq_true rfl)

end DomainActions

namespace DefaultCommandDispatcher

variable {Doc : Type} {s t : DefaultCommandDispatcher Doc} {desc : ActionDescriptor}
  {dom name : String} {cont : DomainActions} {c : ℕ}

/-- The descriptor that the container of a domain has under a name. -/
def entry (s : DefaultCommandDispatcher Doc) (domain name : String) : Option ActionDescriptor :=
  (s.actionDomainExecutorMap domain).bind fun c =>
    (s.containers c).getActionDescriptornFormActionName name

/-- The containers are in the map under their names. -/
def Named (s : DefaultCommandDispatcher Doc) : Prop :=
  ∀ domain, ∀ c ∈ s.actionDomainExecutorMap domain,
    c < s.nextContainer ∧ (s.containers c).domainName = domain

/-- No container in the map is empty. -/
def Filled (s : DefaultCommandDispatcher Doc) : Prop :=
  ∀ domain, (s.actionDomainExecutorMap domain).isSome → ∃ name, (s.entry domain name).isSome

theorem isSome_map_of_entry (hp : (s.entry dom name).isSome) :
    (s.actionDomainExecutorMap dom).isSome := by
  rw [entry] at hp
  cases found : s.actionDomainExecutorMap dom with
  | none =>
    rw [found] at hp
    exact hp
  | some c => rfl

theorem name_of_entry (found : s.entry dom name = some desc) : desc.name = name := by
  obtain ⟨c, -, ht⟩ := Option.bind_eq_some_iff.mp found
  exact DomainActions.name_of_get ht

/-! ### The container of a domain -/

/-- What `getDomainActionsFromName` does. -/
structure Fetched (s : DefaultCommandDispatcher Doc) (domain : String)
    (t : DefaultCommandDispatcher Doc) (c : ℕ) : Prop where
  schedulers : t.schedulers = s.schedulers
  nextScheduler : t.nextScheduler = s.nextScheduler
  dasMap : t.dasMap = s.dasMap
  enabled : t.enabled = s.enabled
  named : Named t
  here : t.actionDomainExecutorMap domain = some c
  old : ∀ c', s.actionDomainExecutorMap domain = some c' → c' = c
  others : ∀ other, other ≠ domain →
    t.actionDomainExecutorMap other = s.actionDomainExecutorMap other
  entry : t.entry = s.entry

theorem allocateDomainActions_here (dom : String) :
    (s.allocateDomainActions dom).actionDomainExecutorMap dom = some s.nextContainer :=
  update_self ..

theorem allocateDomainActions_others {other : String} (different : other ≠ dom) :
    (s.allocateDomainActions dom).actionDomainExecutorMap other =
      s.actionDomainExecutorMap other :=
  update_of_ne different ..

theorem allocateDomainActions_containers (hs : c < s.nextContainer) :
    (s.allocateDomainActions dom).containers c = s.containers c :=
  update_of_ne hs.ne ..

theorem allocateDomainActions_new :
    (s.allocateDomainActions dom).containers s.nextContainer = ⟨dom, []⟩ :=
  update_self ..

theorem allocateDomainActions_named (named : Named s) (dom : String) :
    Named (s.allocateDomainActions dom) := by
  intro other c ht
  obtain rfl | same := eq_or_ne other dom
  · obtain rfl := Option.some.inj ((allocateDomainActions_here other).symm.trans ht)
    exact ⟨Nat.lt_succ_self _, by rw [allocateDomainActions_new]⟩
  · obtain ⟨hs, hc⟩ := named other c ((allocateDomainActions_others same).symm.trans ht)
    exact ⟨Nat.lt_succ_of_lt hs, by rwa [allocateDomainActions_containers hs]⟩

/-- The new container is empty, and the old ones are where they were. -/
theorem allocateDomainActions_entry (named : Named s) (hm : s.actionDomainExecutorMap dom = none) :
    (s.allocateDomainActions dom).entry = s.entry := by
  funext other name
  obtain rfl | same := eq_or_ne other dom
  · rw [entry, entry, allocateDomainActions_here, hm, bind_some, allocateDomainActions_new]
    rfl
  · rw [entry, entry, allocateDomainActions_others same]
    cases found : s.actionDomainExecutorMap other with
    | none => rfl
    | some c =>
      rw [bind_some, bind_some, allocateDomainActions_containers (named other c found).1]

theorem getDomainActionsFromName_fetched (named : Named s) (dom : String) :
    Fetched s dom (s.getDomainActionsFromName dom).1 (s.getDomainActionsFromName dom).2 := by
  unfold getDomainActionsFromName
  split
  case h_1 c found =>
    exact ⟨rfl, rfl, rfl, rfl, named, found, fun c' foundToo =>
      Option.some.inj (foundToo.symm.trans found), fun _ _ => rfl, rfl⟩
  case h_2 missing =>
    refine ⟨rfl, rfl, rfl, rfl, allocateDomainActions_named named dom,
      allocateDomainActions_here dom, ?_, fun _ => allocateDomainActions_others,
      allocateDomainActions_entry named missing⟩
    intro c found
    rw [missing] at found
    cases found

/-! ### The loops over the containers -/

theorem entry_update (named : Named s) (here : s.actionDomainExecutorMap dom = some c)
    (same : t.actionDomainExecutorMap = s.actionDomainExecutorMap)
    (changed : t.containers = update s.containers c cont)
    (other name : String) :
    t.entry other name =
      if other = dom then cont.getActionDescriptornFormActionName name
      else s.entry other name := by
  rw [entry, same, changed]
  obtain rfl | equal := eq_or_ne other dom
  · rw [if_pos rfl, here, bind_some, update_self]
  · rw [if_neg equal, entry]
    cases found : s.actionDomainExecutorMap other with
    | none => rfl
    | some c' =>
      have different : c' ≠ c := by
        rintro rfl
        exact equal ((named other c' found).2.symm.trans (named dom c' here).2)
      rw [bind_some, bind_some, update_of_ne different]

theorem entry_of_here (here : s.actionDomainExecutorMap dom = some c) (name : String) :
    s.entry dom name = (s.containers c).getActionDescriptornFormActionName name := by
  rw [entry, here, bind_some]

theorem named_update (named : Named s)
    (same : t.actionDomainExecutorMap = s.actionDomainExecutorMap)
    (next : t.nextContainer = s.nextContainer)
    (changed : t.containers = update s.containers c cont)
    (hc : cont.domainName = (s.containers c).domainName) : Named t := by
  intro other c' ht
  rw [same] at ht
  obtain ⟨hs, calledToo⟩ := named other c' ht
  rw [next, changed]
  refine ⟨hs, ?_⟩
  obtain rfl | equal := eq_or_ne c' c
  · rw [update_self, hc, calledToo]
  · rwa [update_of_ne equal]

/-- What `registerDescriptor` does. -/
structure Registered (s : DefaultCommandDispatcher Doc) (desc : ActionDescriptor)
    (t : DefaultCommandDispatcher Doc) : Prop where
  schedulers : t.schedulers = s.schedulers
  nextScheduler : t.nextScheduler = s.nextScheduler
  dasMap : t.dasMap = s.dasMap
  enabled : t.enabled = update s.enabled desc true
  named : Named t
  filled : Filled s → Filled t
  kept : ∀ domain c, s.actionDomainExecutorMap domain = some c →
    t.actionDomainExecutorMap domain = some c
  entry : ∀ domain name, t.entry domain name =
    if domain = desc.domain ∧ name = desc.name then some ((s.entry domain name).getD desc)
    else s.entry domain name

theorem registerDescriptor_registered (hn : Named s) (desc : ActionDescriptor) :
    Registered s desc (s.registerDescriptor desc) := by
  have fetched := getDomainActionsFromName_fetched hn desc.domain
  unfold registerDescriptor
  generalize s.getDomainActionsFromName desc.domain = fetch at fetched
  obtain ⟨t, c⟩ := fetch
  simp only at fetched ⊢
  have fits : desc.domain = (t.containers c).domainName := (fetched.named _ c fetched.here).2.symm
  set u : DefaultCommandDispatcher Doc :=
    { t with
      containers := update t.containers c ((t.containers c).addActionDescriptor desc)
      enabled := update t.enabled desc true } with after
  have entries : ∀ dom name, u.entry dom name =
      if dom = desc.domain ∧ name = desc.name then some ((s.entry dom name).getD desc)
      else s.entry dom name := by
    intro dom name
    rw [entry_update (t := u) fetched.named fetched.here rfl rfl,
      DomainActions.get_addActionDescriptor fits, ← entry_of_here fetched.here, fetched.entry]
    by_cases same : dom = desc.domain <;> simp [same]
  refine ⟨fetched.schedulers, fetched.nextScheduler, fetched.dasMap, ?_, ?_, ?_, ?_, entries⟩
  · simp only [after, fetched.enabled]
  · exact named_update fetched.named rfl rfl rfl DomainActions.domainName_addActionDescriptor
  · intro filled dom hp
    obtain rfl | same := eq_or_ne dom desc.domain
    · refine ⟨desc.name, ?_⟩
      rw [entries, if_pos ⟨rfl, rfl⟩]
      rfl
    · have presentBefore : (s.actionDomainExecutorMap dom).isSome := by
        rwa [← fetched.others dom same]
      obtain ⟨name, hp⟩ := filled dom presentBefore
      refine ⟨name, ?_⟩
      rwa [entries, if_neg fun both => same both.1]
  · intro dom c' found
    obtain rfl | same := eq_or_ne dom desc.domain
    · rw [fetched.old c' found]
      exact fetched.here
    · exact (fetched.others dom same).trans found

/-- What `deregisterDescriptor` does. -/
structure Deregistered (s : DefaultCommandDispatcher Doc) (desc : ActionDescriptor)
    (t : DefaultCommandDispatcher Doc) : Prop where
  schedulers : t.schedulers = s.schedulers
  nextScheduler : t.nextScheduler = s.nextScheduler
  dasMap : t.dasMap = s.dasMap
  enabled : t.enabled = update s.enabled desc false
  named : Named t
  filled : Filled s → Filled t
  kept : ∀ domain c, t.actionDomainExecutorMap domain = some c →
    s.actionDomainExecutorMap domain = some c
  entry : ∀ domain name, t.entry domain name =
    if domain = desc.domain ∧ name = desc.name then none else s.entry domain name

/-- What becomes of the map when the container of a domain leaves it if it is empty. -/
structure Erased (s : DefaultCommandDispatcher Doc) (domain : String)
    (t : DefaultCommandDispatcher Doc) : Prop where
  entry : t.entry = s.entry
  kept : ∀ other c, t.actionDomainExecutorMap other = some c →
    s.actionDomainExecutorMap other = some c
  occupied : (t.actionDomainExecutorMap domain).isSome → ∃ name, (t.entry domain name).isSome

section Erase

variable {c : ℕ} (here : s.actionDomainExecutorMap dom = some c)
  (changed : t.containers = s.containers)
  (erased : t.actionDomainExecutorMap =
    if (s.containers c).registeredActions = 0 then
      update s.actionDomainExecutorMap dom none
    else s.actionDomainExecutorMap)

include here changed erased

/-- The entries after a container that is empty has been erased from the map. -/
theorem entry_erase : t.entry = s.entry := by
  funext other name
  rw [entry, entry, changed, erased]
  split
  next empty =>
    obtain rfl | same := eq_or_ne other dom
    · rw [update_self, here, bind_some, Option.bind_none,
        DomainActions.registeredActions_eq_zero.mp empty]
    · rw [update_of_ne same]
  next => rfl

theorem erased_of_registeredActions : Erased s dom t := by
  have he := entry_erase here changed erased
  by_cases empty : (s.containers c).registeredActions = 0
  · rw [if_pos empty] at erased
    refine ⟨he, fun other c' found => ?_, fun hp => ?_⟩
    · rw [erased] at found
      obtain ⟨-, ⟨⟩⟩ | ⟨-, hb⟩ := update_eq_iff.mp found
      exact hb
    · rw [erased, update_self] at hp
      cases hp
  · rw [if_neg empty] at erased
    refine ⟨he, fun other c' found => erased ▸ found, fun _ => ?_⟩
    rw [DomainActions.registeredActions_eq_zero, not_forall] at empty
    obtain ⟨name, hp⟩ := empty
    refine ⟨name, ?_⟩
    rw [he, entry_of_here here]
    exact Option.isSome_iff_ne_none.mpr hp

end Erase

theorem deregisterDescriptor_deregistered (hn : Named s) (desc : ActionDescriptor) :
    Deregistered s desc (s.deregisterDescriptor desc) := by
  have fetched := getDomainActionsFromName_fetched hn desc.domain
  unfold deregisterDescriptor
  generalize s.getDomainActionsFromName desc.domain = fetch at fetched
  obtain ⟨t, c⟩ := fetch
  simp only at fetched ⊢
  have fits : desc.domain = (t.containers c).domainName := (fetched.named _ c fetched.here).2.symm
  have called : ((t.containers c).removeActionDescriptor desc).domainName = desc.domain := by
    rw [DomainActions.domainName_removeActionDescriptor, ← fits]
  rw [called]
  -- The removal, and what becomes of the map afterwards.
  set removed : DefaultCommandDispatcher Doc :=
    { t with
      containers := update t.containers c ((t.containers c).removeActionDescriptor desc)
      enabled := update t.enabled desc false } with isRemoved
  set u : DefaultCommandDispatcher Doc :=
    { removed with
      actionDomainExecutorMap :=
        if ((t.containers c).removeActionDescriptor desc).registeredActions = 0 then
          update t.actionDomainExecutorMap desc.domain none
        else t.actionDomainExecutorMap } with ha
  have erased : Erased removed desc.domain u := by
    apply erased_of_registeredActions (s := removed) (t := u) fetched.here rfl
    rw [show removed.containers c = (t.containers c).removeActionDescriptor desc from
      update_self ..]
  have entries : ∀ dom name, u.entry dom name =
      if dom = desc.domain ∧ name = desc.name then none else s.entry dom name := by
    intro dom name
    rw [erased.entry, entry_update (t := removed) fetched.named fetched.here rfl rfl,
      DomainActions.get_removeActionDescriptor fits, ← entry_of_here fetched.here, fetched.entry]
    by_cases same : dom = desc.domain <;> simp [same]
  -- A container that is left in the map has an entry, so that it was not made just now.
  have kept : ∀ dom c', u.actionDomainExecutorMap dom = some c' →
      s.actionDomainExecutorMap dom = some c' := by
    intro dom c' found
    have hb : t.actionDomainExecutorMap dom = some c' := erased.kept dom c' found
    obtain rfl | same := eq_or_ne dom desc.domain
    · obtain ⟨name, hp⟩ := erased.occupied (Option.isSome_iff_exists.mpr ⟨c', found⟩)
      rw [entries] at hp
      split at hp
      · cases hp
      · obtain ⟨old, isOld⟩ := Option.isSome_iff_exists.mp (isSome_map_of_entry hp)
        rw [isOld, fetched.old old isOld]
        exact fetched.here.symm.trans hb
    · rwa [fetched.others dom same] at hb
  refine ⟨fetched.schedulers, fetched.nextScheduler, fetched.dasMap, ?_, ?_, ?_, kept, entries⟩
  · simp only [ha, isRemoved, fetched.enabled]
  · intro dom c' found
    have namedToo : Named removed := named_update fetched.named rfl rfl rfl
      DomainActions.domainName_removeActionDescriptor
    exact namedToo dom c' (erased.kept dom c' found)
  · intro filled dom hp
    obtain rfl | same := eq_or_ne dom desc.domain
    · exact erased.occupied hp
    · obtain ⟨c', found⟩ := Option.isSome_iff_exists.mp hp
      obtain ⟨name, presentToo⟩ :=
        filled dom (Option.isSome_iff_exists.mpr ⟨c', kept dom c' found⟩)
      refine ⟨name, ?_⟩
      rwa [entries, if_neg fun both => same both.1]

/-- The descriptors declare an action. -/
def Declares (descs : List ActionDescriptor) (domain name : String) : Prop :=
  ∃ desc ∈ descs, desc.domain = domain ∧ desc.name = name

/-- What the first loop of `registerAction` does. -/
structure AllRegistered (s : DefaultCommandDispatcher Doc) (descs : List ActionDescriptor)
    (t : DefaultCommandDispatcher Doc) : Prop where
  schedulers : t.schedulers = s.schedulers
  nextScheduler : t.nextScheduler = s.nextScheduler
  dasMap : t.dasMap = s.dasMap
  named : Named t
  filled : Filled s → Filled t
  kept : ∀ domain c, s.actionDomainExecutorMap domain = some c →
    t.actionDomainExecutorMap domain = some c
  enables : ∀ desc, s.enabled desc = true ∨ desc ∈ descs → t.enabled desc = true
  present : ∀ domain name, (t.entry domain name).isSome ↔
    (s.entry domain name).isSome ∨ Declares descs domain name
  origin : ∀ domain name desc, t.entry domain name = some desc →
    s.entry domain name = some desc ∨ desc ∈ descs ∧ desc.domain = domain

theorem foldl_registerDescriptor (hn : Named s) (descs : List ActionDescriptor) :
    AllRegistered s descs (descs.foldl registerDescriptor s) := by
  induction descs generalizing s with
  | nil =>
    refine ⟨rfl, rfl, rfl, hn, id, fun _ _ => id, ?_, ?_, fun _ _ _ => .inl⟩
    · rintro desc (enabled | hd)
      · exact enabled
      · cases hd
    · simp [Declares]
  | cons first descs ih =>
    have hh := registerDescriptor_registered hn first
    have rest := ih hh.named
    rw [foldl_cons]
    refine ⟨rest.schedulers.trans hh.schedulers, rest.nextScheduler.trans hh.nextScheduler,
      rest.dasMap.trans hh.dasMap, rest.named, fun filled => rest.filled (hh.filled filled),
      fun dom c found => rest.kept dom c (hh.kept dom c found), ?_, ?_, ?_⟩
    · intro desc hb
      apply rest.enables
      rw [hh.enabled]
      obtain rfl | same := eq_or_ne desc first
      · rw [update_self]
        exact .inl rfl
      · rw [update_of_ne same]
        rcases hb with enabled | hd
        · exact .inl enabled
        · exact .inr ((mem_cons.mp hd).resolve_left same)
    · intro dom name
      rw [rest.present, hh.entry]
      by_cases same : dom = first.domain ∧ name = first.name
      · obtain ⟨rfl, rfl⟩ := same
        simp [Declares]
      · have other : ¬ (first.domain = dom ∧ first.name = name) := fun both =>
          same ⟨both.1.symm, both.2.symm⟩
        simp [Declares, same, other]
    · intro dom name desc found
      rcases rest.origin dom name desc found with hb | ⟨hd, hi⟩
      · rw [hh.entry] at hb
        split at hb
        next same =>
          cases old : s.entry dom name with
          | none =>
            rw [old] at hb
            cases hb
            exact .inr ⟨mem_cons_self, same.1.symm⟩
          | some other =>
            rw [old] at hb
            exact .inl hb
        next => exact .inl hb
      · exact .inr ⟨mem_cons_of_mem first hd, hi⟩

/-- What the first loop of `deregisterAction` does. -/
structure AllDeregistered (s : DefaultCommandDispatcher Doc) (descs : List ActionDescriptor)
    (t : DefaultCommandDispatcher Doc) : Prop where
  schedulers : t.schedulers = s.schedulers
  nextScheduler : t.nextScheduler = s.nextScheduler
  dasMap : t.dasMap = s.dasMap
  named : Named t
  filled : Filled s → Filled t
  kept : ∀ domain c, t.actionDomainExecutorMap domain = some c →
    s.actionDomainExecutorMap domain = some c
  enabled : ∀ desc, desc ∉ descs → t.enabled desc = s.enabled desc
  gone : ∀ domain name, Declares descs domain name → t.entry domain name = none
  stays : ∀ domain name, ¬ Declares descs domain name → t.entry domain name = s.entry domain name

/-- What is left is what has not been declared. -/
theorem AllDeregistered.entry_some {descs : List ActionDescriptor}
    (deregistered : AllDeregistered s descs t) (found : t.entry dom name = some desc) :
    ¬ Declares descs dom name ∧ s.entry dom name = some desc := by
  have hu : ¬ Declares descs dom name := fun hd => by
    rw [deregistered.gone dom name hd] at found
    cases found
  exact ⟨hu, (deregistered.stays dom name hu).symm.trans found⟩

theorem foldl_deregisterDescriptor (hn : Named s) (descs : List ActionDescriptor) :
    AllDeregistered s descs (descs.foldl deregisterDescriptor s) := by
  induction descs generalizing s with
  | nil =>
    refine ⟨rfl, rfl, rfl, hn, id, fun _ _ => id, fun _ _ => rfl, ?_, fun _ _ _ => rfl⟩
    rintro dom name ⟨desc, hd, -⟩
    cases hd
  | cons first descs ih =>
    have hh := deregisterDescriptor_deregistered hn first
    have rest := ih hh.named
    rw [foldl_cons]
    refine ⟨rest.schedulers.trans hh.schedulers, rest.nextScheduler.trans hh.nextScheduler,
      rest.dasMap.trans hh.dasMap, rest.named, fun filled => rest.filled (hh.filled filled),
      fun dom c found => hh.kept dom c (rest.kept dom c found), ?_, ?_, ?_⟩
    · intro desc ho
      rw [rest.enabled desc fun later => ho (mem_cons_of_mem first later), hh.enabled]
      apply update_of_ne
      rintro rfl
      exact ho mem_cons_self
    · rintro dom name ⟨desc, hd, hi, hc⟩
      by_cases later : Declares descs dom name
      · exact rest.gone dom name later
      · rcases mem_cons.mp hd with rfl | isLater
        · rw [rest.stays dom name later, hh.entry, if_pos ⟨hi.symm, hc.symm⟩]
        · exact absurd ⟨desc, isLater, hi, hc⟩ later
    · intro dom name hu
      have later : ¬ Declares descs dom name := fun ⟨desc, isLater, pair⟩ =>
        hu ⟨desc, mem_cons_of_mem first isLater, pair⟩
      rw [rest.stays dom name later, hh.entry, if_neg]
      rintro ⟨rfl, rfl⟩
      exact hu ⟨first, mem_cons_self, rfl, rfl⟩

/-! ### The loops over the schedulers -/

/-- The schedulers in the map are different for different domains, and take calls. -/
structure Scheduled (s : DefaultCommandDispatcher Doc) : Prop where
  apart : ∀ domain other k, s.dasMap domain = some k → s.dasMap other = some k → domain = other
  old : ∀ domain, ∀ k ∈ s.dasMap domain, k < s.nextScheduler
  armed : ∀ domain, ∀ k ∈ s.dasMap domain, (s.schedulers k).armed = true
  empty : ∀ domain, ∀ k ∈ s.dasMap domain, (s.schedulers k).bufferQueue = []

theorem Scheduled.congr (hs : Scheduled s) (dasMap : t.dasMap = s.dasMap)
    (schedulers : t.schedulers = s.schedulers) (nextScheduler : t.nextScheduler = s.nextScheduler) :
    Scheduled t := by
  obtain ⟨ha, old, armed, empty⟩ := hs
  constructor
  · rwa [dasMap]
  · rwa [dasMap, nextScheduler]
  · rwa [dasMap, schedulers]
  · rwa [dasMap, schedulers]

/-- The schedulers work on the containers in the map, as far as these are there. -/
def Attached (s : DefaultCommandDispatcher Doc) : Prop :=
  ∀ domain, ∀ k ∈ s.dasMap domain, ∀ c ∈ s.actionDomainExecutorMap domain,
    (s.schedulers k).domainActionsContainer = c

/-- The parts of the state that the scheduler loops leave alone. -/
structure SameContainers (s t : DefaultCommandDispatcher Doc) : Prop where
  containers : t.containers = s.containers
  nextContainer : t.nextContainer = s.nextContainer
  actionDomainExecutorMap : t.actionDomainExecutorMap = s.actionDomainExecutorMap
  enabled : t.enabled = s.enabled

theorem SameContainers.trans {u : DefaultCommandDispatcher Doc} (first : SameContainers s t)
    (second : SameContainers t u) : SameContainers s u :=
  ⟨second.containers.trans first.containers, second.nextContainer.trans first.nextContainer,
    second.actionDomainExecutorMap.trans first.actionDomainExecutorMap,
    second.enabled.trans first.enabled⟩

theorem SameContainers.entry (same : SameContainers s t) : t.entry = s.entry := by
  funext dom name
  rw [DefaultCommandDispatcher.entry, DefaultCommandDispatcher.entry, same.containers,
    same.actionDomainExecutorMap]

theorem SameContainers.named (same : SameContainers s t) (hn : Named s) : Named t := by
  intro dom c found
  rw [same.containers, same.nextContainer]
  rw [same.actionDomainExecutorMap] at found
  exact hn dom c found

theorem SameContainers.filled (same : SameContainers s t) (filled : Filled s) : Filled t := by
  intro dom hp
  rw [same.actionDomainExecutorMap] at hp
  rw [same.entry]
  exact filled dom hp

/-- What `addScheduler` and the loop over it do. -/
structure Covered (s : DefaultCommandDispatcher Doc) (domains : List String)
    (t : DefaultCommandDispatcher Doc) : Prop where
  same : SameContainers s t
  scheduled : Scheduled t
  attached : Attached t
  present : ∀ domain, (t.dasMap domain).isSome ↔ (s.dasMap domain).isSome ∨ domain ∈ domains

variable (hs : Scheduled s) (ha : Attached s)

include hs ha

theorem addScheduler_covered (hc : (s.actionDomainExecutorMap desc.domain).isSome) :
    Covered s [desc.domain] (s.addScheduler desc) := by
  unfold addScheduler
  split
  case h_1 k found =>
    refine ⟨⟨rfl, rfl, rfl, rfl⟩, hs, ha, fun dom => ?_⟩
    rw [mem_singleton]
    refine ⟨.inl, ?_⟩
    rintro (hp | rfl)
    · exact hp
    · rw [found]
      rfl
  case h_2 missing =>
    obtain ⟨c, here⟩ := Option.isSome_iff_exists.mp hc
    have fetched : s.getDomainActionsFromName desc.domain = (s, c) := by
      rw [getDomainActionsFromName, here]
    rw [fetched]
    -- A scheduler in the map is the new one or an old one.
    have cases {dom : String} {k : ℕ}
        (found : update s.dasMap desc.domain (some s.nextScheduler) dom = some k) :
        dom = desc.domain ∧ k = s.nextScheduler ∨ s.dasMap dom = some k ∧ k ≠ s.nextScheduler := by
      obtain ⟨same, ⟨⟩⟩ | ⟨-, hb⟩ := update_eq_iff.mp found
      · exact .inl ⟨same, rfl⟩
      · exact .inr ⟨hb, (hs.old dom k hb).ne⟩
    refine ⟨⟨rfl, rfl, rfl, rfl⟩, ⟨?_, ?_, ?_, ?_⟩, ?_, ?_⟩
    · intro dom other k found foundToo
      rcases cases found with ⟨rfl, new⟩ | ⟨hb, older⟩ <;>
        rcases cases foundToo with ⟨same, hn⟩ | ⟨beforeToo, olderToo⟩
      · exact same.symm
      · exact absurd new olderToo
      · exact absurd hn older
      · exact hs.apart dom other k hb beforeToo
    · intro dom k found
      rcases cases found with ⟨-, rfl⟩ | ⟨hb, -⟩
      · exact Nat.lt_succ_self _
      · exact Nat.lt_succ_of_lt (hs.old dom k hb)
    · intro dom k found
      rcases cases found with ⟨-, rfl⟩ | ⟨hb, older⟩
      · simp
      · simpa [older] using hs.armed dom k hb
    · intro dom k found
      rcases cases found with ⟨-, rfl⟩ | ⟨hb, older⟩
      · simp
      · simpa [older] using hs.empty dom k hb
    · intro dom k found c' ht
      rcases cases found with ⟨rfl, rfl⟩ | ⟨hb, older⟩
      · simpa using Option.some.inj (here.symm.trans ht)
      · simpa [older] using ha dom k hb c' ht
    · intro dom
      by_cases same : dom = desc.domain <;> simp [same]

theorem foldl_addScheduler (descs : List ActionDescriptor)
    (hc : ∀ desc ∈ descs, (s.actionDomainExecutorMap desc.domain).isSome) :
    Covered s (descs.map (·.domain)) (descs.foldl addScheduler s) := by
  induction descs generalizing s with
  | nil =>
    refine ⟨⟨rfl, rfl, rfl, rfl⟩, hs, ha, fun dom => ?_⟩
    simp
  | cons first descs ih =>
    have hh := addScheduler_covered hs ha (hc first mem_cons_self)
    have rest := ih hh.scheduled hh.attached (by
      intro desc hd
      rw [hh.same.actionDomainExecutorMap]
      exact hc desc (mem_cons_of_mem first hd))
    rw [foldl_cons]
    refine ⟨hh.same.trans rest.same, rest.scheduled, rest.attached, fun dom => ?_⟩
    rw [rest.present, hh.present, map_cons, mem_singleton, mem_cons, or_assoc]

/-- What `removeScheduler` and the loop over it do. -/
structure Uncovered (s : DefaultCommandDispatcher Doc) (domains : List String)
    (t : DefaultCommandDispatcher Doc) : Prop where
  same : SameContainers s t
  scheduled : Scheduled t
  attached : Attached t
  present : ∀ domain, (t.dasMap domain).isSome ↔
    (s.dasMap domain).isSome ∧ (domain ∈ domains → (s.actionDomainExecutorMap domain).isSome)

theorem removeScheduler_uncovered
    (desc : ActionDescriptor) : Uncovered s [desc.domain] (s.removeScheduler desc) := by
  unfold removeScheduler
  split
  case h_1 k found hm =>
    -- Another scheduler of the map is an old one, with another number.
    have cases {dom : String} {k' : ℕ} (foundToo : update s.dasMap desc.domain none dom = some k') :
        s.dasMap dom = some k' ∧ k' ≠ k := by
      obtain ⟨-, ⟨⟩⟩ | ⟨other, hb⟩ := update_eq_iff.mp foundToo
      refine ⟨hb, ?_⟩
      rintro rfl
      exact other (hs.apart dom desc.domain k' hb found)
    refine ⟨⟨rfl, rfl, rfl, rfl⟩, ⟨?_, ?_, ?_, ?_⟩, ?_, ?_⟩
    · intro dom other k' foundToo foundLast
      exact hs.apart dom other k' (cases foundToo).1 (cases foundLast).1
    · intro dom k' foundToo
      exact hs.old dom k' (cases foundToo).1
    · intro dom k' foundToo
      obtain ⟨hb, different⟩ := cases foundToo
      simpa [deinitScheduler, different] using hs.armed dom k' hb
    · intro dom k' foundToo
      obtain ⟨hb, different⟩ := cases foundToo
      simpa [deinitScheduler, different] using hs.empty dom k' hb
    · intro dom k' foundToo c ht
      obtain ⟨hb, different⟩ := cases foundToo
      simpa [deinitScheduler, different] using ha dom k' hb c ht
    · intro dom
      by_cases same : dom = desc.domain <;> simp [deinitScheduler, same, hm]
  case h_2 kept =>
    refine ⟨⟨rfl, rfl, rfl, rfl⟩, hs, ha, fun dom => ?_⟩
    rw [mem_singleton]
    refine ⟨fun hp => ⟨hp, ?_⟩, fun both => both.1⟩
    rintro rfl
    obtain ⟨k, found⟩ := Option.isSome_iff_exists.mp hp
    by_contra hm
    exact kept k found (Option.not_isSome_iff_eq_none.mp hm)

theorem foldl_removeScheduler (descs : List ActionDescriptor) :
    Uncovered s (descs.map (·.domain)) (descs.foldl removeScheduler s) := by
  induction descs generalizing s with
  | nil =>
    refine ⟨⟨rfl, rfl, rfl, rfl⟩, hs, ha, fun dom => ?_⟩
    simp
  | cons first descs ih =>
    have hh := removeScheduler_uncovered hs ha first
    have rest := ih hh.scheduled hh.attached
    rw [foldl_cons]
    refine ⟨hh.same.trans rest.same, rest.scheduled, rest.attached, fun dom => ?_⟩
    rw [rest.present, hh.present, hh.same.actionDomainExecutorMap, map_cons,
      mem_singleton, mem_cons, and_assoc, or_imp]

end DefaultCommandDispatcher

end ChaosFramework.Dispatcher
