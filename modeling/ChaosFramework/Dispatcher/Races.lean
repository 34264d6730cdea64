import ChaosFramework.Dispatcher.Programs
import ChaosFramework.Dispatcher.RegistrationLoops

/-!
# Races in the dispatcher

`dispatchCommand` and `executeCommandSync` look for the domain in the map of the schedulers and then
take the scheduler from it, without the lock of the map. They and the threads of the schedulers do
the same with the map of the actions, which has no lock. In between, registrations and
deregistrations change both: what was found may be gone.

The threads run on the maps here. A test is right about what it finds, and what it has found has to
be there when it is used. As long as nothing is looked up without the lock while it is changed,
there are no races, and all that is used is there (`safe_of_separate`).
-/

namespace ChaosFramework.Dispatcher

open SharedMutex Transition DefaultCommandDispatcher List Option Function Access

variable {Doc : Type}

/-! ### The maps -/

namespace Scheduler

/-- The actions of a scheduler. -/
def container (k : Scheduler) (s : DefaultCommandDispatcher Doc) : DomainActions :=
  s.containers (s.schedulers k.id).domainActionsContainer

/-- The scheduler has been made for its domain. -/
def Works (k : Scheduler) (s : DefaultCommandDispatcher Doc) : Prop :=
  k.id < s.nextScheduler ∧ (k.container s).domainName = k.domain

instance (k : Scheduler) (s : DefaultCommandDispatcher Doc) : Decidable (k.Works s) :=
  inferInstanceAs (Decidable (_ ∧ _))

end Scheduler

/-- The scheduler of a domain that has no container any more. -/
def DefaultCommandDispatcher.unneeded (s : DefaultCommandDispatcher Doc) (domain : String) :
    Option ℕ :=
  match s.dasMap domain, s.actionDomainExecutorMap domain with
  | some k, none => some k
  | _, _ => none

/-- An access, if it finds what it says. The use of what is missing has no result. -/
def Access.act (a : Access) (s : DefaultCommandDispatcher Doc) :
    Option (DefaultCommandDispatcher Doc) :=
  match a with
  | .count domain found => if s.dasMap domain = found then some s else none
  | .fetch k => if s.dasMap k.domain = some k.id then some s else none
  | .member k => if s.dasMap k.domain = some k.id then some s else none
  | .hasActionName k name found =>
      if k.Works s ∧ (k.container s).hasActionName name = found then some s else none
  | .getActionDescriptornFormActionName k desc =>
      if (k.container s).getActionDescriptornFormActionName desc.name = some desc then some s
      else none
  | .addActionDescriptor desc => some (s.registerDescriptor desc)
  | .insertScheduler desc => some (s.addScheduler desc)
  | .removeActionDescriptor desc => some (s.deregisterDescriptor desc)
  | .unneeded desc found => if s.unneeded desc.domain = found then some s else none
  | .eraseScheduler desc => some (s.removeScheduler desc)
  | .clear => some { s with dasMap := fun _ => none }

def Fact.Holds (s : DefaultCommandDispatcher Doc) : Fact → Prop
  | .scheduler k => s.dasMap k.domain = some k.id
  | .action k name => k.Works s ∧ (k.container s).hasActionName name = true

/-! ### Runs -/

abbrev System (Doc : Type) := Machine (DefaultCommandDispatcher Doc) Lock Access Operation

namespace System

def init : System Doc := ⟨.init, []⟩

def step (bars : Bool) : System Doc → Label Operation → Option (System Doc) :=
  Machine.step program bars Access.act

/-- One of two accesses changes what the other one reads or changes. -/
def Clash (a b : Access) : Prop :=
  ∃ r, a.writes = some r ∧ (b.reads = some r ∨ b.writes = some r)

/-- No thread reads or changes a map while another one changes it, and what a thread uses is
there. -/
structure Safe (s : System Doc) : Prop where
  raceFree : ∀ i j, i ≠ j → ∀ a ∈ Machine.access? s.threads i,
    ∀ b ∈ Machine.access? s.threads j, ¬ Clash a b
  founded : ∀ i, ∀ a ∈ Machine.access? s.threads i, ∀ f ∈ a.uses, f.Holds s.store

end System

/-- `deinit` changes the map of the schedulers with a lock to read. -/
def Operation.ends : Operation → Bool
  | .deinit _ => true
  | _ => false

/-- What an operation changes is not looked up by the other one without the lock, and nothing
overlaps with the end of all schedulers. -/
def Spares (o p : Operation) : Prop := o.ends = false ∧ ∀ r ∈ o.alters, r ∉ p.looks

instance (o p : Operation) : Decidable (Spares o p) := inferInstanceAs (Decidable (_ ∧ _))

def Separate (o p : Operation) : Prop := Spares o p ∧ Spares p o

instance decidableSeparate (o p : Operation) : Decidable (Separate o p) :=
  inferInstanceAs (Decidable (_ ∧ _))

theorem Separate.symm {o p : Operation} (hs : Separate o p) : Separate p o :=
  And.symm hs

/-! ### What accesses leave alone -/

section Store

variable {s t : DefaultCommandDispatcher Doc} {k : Scheduler} {desc : ActionDescriptor}
  {changed : Option String}

/-- The containers are named, and the schedulers have theirs. -/
structure Sound (s : DefaultCommandDispatcher Doc) : Prop where
  named : Named s
  contained : ∀ id < s.nextScheduler, (s.schedulers id).domainActionsContainer < s.nextContainer

/-- Old schedulers keep their containers, and these stay as they are but for those of a domain. -/
structure Keeps (changed : Option String) (s t : DefaultCommandDispatcher Doc) : Prop where
  nextScheduler : s.nextScheduler ≤ t.nextScheduler
  schedulers : ∀ id < s.nextScheduler,
    (t.schedulers id).domainActionsContainer = (s.schedulers id).domainActionsContainer
  containers : ∀ c < s.nextContainer, some (s.containers c).domainName ≠ changed →
    t.containers c = s.containers c

theorem Keeps.refl (s : DefaultCommandDispatcher Doc) (changed : Option String) :
    Keeps changed s s :=
  ⟨Nat.le_refl _, fun _ _ => rfl, fun _ _ _ => rfl⟩

section

variable (hk : Keeps changed s t) (hs : Sound s) (hw : k.Works s) (ho : some k.domain ≠ changed)

include hk hs hw ho

theorem Keeps.container : k.container t = k.container s := by
  have same := hk.schedulers k.id hw.1
  have spared : some (k.container s).domainName ≠ changed := by
    rw [hw.2]
    exact ho
  unfold Scheduler.container
  rw [same]
  exact hk.containers _ (hs.contained k.id hw.1) spared

theorem Keeps.works : k.Works t := by
  refine ⟨Nat.lt_of_lt_of_le hw.1 hk.nextScheduler, ?_⟩
  rw [hk.container hs hw ho]
  exact hw.2

end

/-- The containers that were there are not touched when one is made. -/
theorem getDomainActionsFromName_old (s : DefaultCommandDispatcher Doc) (dom : String) :
    s.nextContainer ≤ (s.getDomainActionsFromName dom).1.nextContainer ∧
      ∀ c < s.nextContainer, (s.getDomainActionsFromName dom).1.containers c = s.containers c := by
  unfold getDomainActionsFromName
  split
  · exact ⟨Nat.le_refl _, fun _ _ => rfl⟩
  · exact ⟨Nat.le_succ _, fun c small => allocateDomainActions_containers small⟩

theorem keeps_update (hn : Named s) (dom : String) {cont : DomainActions}
    (schedulers : t.schedulers = s.schedulers) (nextScheduler : t.nextScheduler = s.nextScheduler)
    (hc : t.containers =
      update (s.getDomainActionsFromName dom).1.containers
        (s.getDomainActionsFromName dom).2 cont) :
    Keeps (some dom) s t := by
  obtain ⟨-, old⟩ := getDomainActionsFromName_old s dom
  have hf := getDomainActionsFromName_fetched hn dom
  refine ⟨nextScheduler.ge, fun id _ => by rw [schedulers], fun c small ho => ?_⟩
  rw [hc, update_of_ne, old c small]
  rintro rfl
  refine ho (congrArg some ?_)
  rw [← old _ small]
  exact (hf.named dom _ hf.here).2

section

variable (hs : Sound s) (desc : ActionDescriptor)

include hs

theorem registerDescriptor_keeps : Keeps (some desc.domain) s (s.registerDescriptor desc) := by
  have hr := registerDescriptor_registered hs.named desc
  exact keeps_update hs.named desc.domain hr.schedulers hr.nextScheduler rfl

theorem deregisterDescriptor_keeps : Keeps (some desc.domain) s (s.deregisterDescriptor desc) := by
  have hd := deregisterDescriptor_deregistered hs.named desc
  exact keeps_update hs.named desc.domain hd.schedulers hd.nextScheduler rfl

theorem addScheduler_keeps : Keeps none s (s.addScheduler desc) := by
  unfold addScheduler
  split
  case h_1 => exact .refl s none
  case h_2 =>
    obtain ⟨-, old⟩ := getDomainActionsFromName_old s desc.domain
    have hf := getDomainActionsFromName_fetched hs.named desc.domain
    generalize s.getDomainActionsFromName desc.domain = fetch at old hf
    obtain ⟨u, c⟩ := fetch
    refine ⟨?_, fun id small => ?_, fun c small _ => old c small⟩
    · exact hf.nextScheduler ▸ Nat.le_succ _
    · have different : id ≠ u.nextScheduler := hf.nextScheduler ▸ small.ne
      refine (congrArg _ (update_of_ne different ..)).trans ?_
      rw [hf.schedulers]

end

theorem deinitScheduler_contains (s : DefaultCommandDispatcher Doc) (k id : ℕ) :
    ((s.deinitScheduler k).schedulers id).domainActionsContainer =
      (s.schedulers id).domainActionsContainer := by
  obtain rfl | same := eq_or_ne id k
  · simp [deinitScheduler]
  · exact congrArg DomainActionsScheduler.domainActionsContainer (update_of_ne same ..)

theorem removeScheduler_keeps (s : DefaultCommandDispatcher Doc) (desc : ActionDescriptor) :
    Keeps none s (s.removeScheduler desc) := by
  unfold removeScheduler
  split
  case h_1 k _ _ =>
    exact ⟨Nat.le_refl _, fun id _ => deinitScheduler_contains _ k id, fun _ _ _ => rfl⟩
  case h_2 => exact .refl s none

section

variable (hs : Sound s) (desc : ActionDescriptor)

include hs

theorem registerDescriptor_sound : Sound (s.registerDescriptor desc) := by
  have hr := registerDescriptor_registered hs.named desc
  obtain ⟨more, -⟩ := getDomainActionsFromName_old s desc.domain
  refine ⟨hr.named, fun id small => ?_⟩
  rw [hr.schedulers]
  exact Nat.lt_of_lt_of_le (hs.contained id (hr.nextScheduler ▸ small)) more

theorem deregisterDescriptor_sound : Sound (s.deregisterDescriptor desc) := by
  have hd := deregisterDescriptor_deregistered hs.named desc
  obtain ⟨more, -⟩ := getDomainActionsFromName_old s desc.domain
  refine ⟨hd.named, fun id small => ?_⟩
  rw [hd.schedulers]
  exact Nat.lt_of_lt_of_le (hs.contained id (hd.nextScheduler ▸ small)) more

theorem addScheduler_sound : Sound (s.addScheduler desc) := by
  unfold addScheduler
  split
  case h_1 => exact hs
  case h_2 =>
    obtain ⟨more, -⟩ := getDomainActionsFromName_old s desc.domain
    have hf := getDomainActionsFromName_fetched hs.named desc.domain
    generalize s.getDomainActionsFromName desc.domain = fetch at more hf
    obtain ⟨u, c⟩ := fetch
    refine ⟨hf.named, fun id small => ?_⟩
    obtain rfl | isNew := eq_or_ne id u.nextScheduler
    · refine (congrArg _ (update_self ..)).trans_lt ?_
      exact (hf.named desc.domain c hf.here).1
    · have ho : id < s.nextScheduler := by
        rw [← hf.nextScheduler]
        exact Nat.lt_of_le_of_ne (Nat.le_of_lt_succ small) isNew
      refine (congrArg _ (update_of_ne isNew ..)).trans_lt ?_
      rw [hf.schedulers]
      exact Nat.lt_of_lt_of_le (hs.contained id ho) more

theorem removeScheduler_sound : Sound (s.removeScheduler desc) := by
  unfold removeScheduler
  split
  case h_1 k _ _ =>
    refine ⟨hs.named, fun id small => ?_⟩
    rw [deinitScheduler_contains]
    exact hs.contained id small
  case h_2 => exact hs

end

theorem sound_init : Sound (DefaultCommandDispatcher.init : DefaultCommandDispatcher Doc) :=
  ⟨(fun _ _ found => nomatch found), fun _ small => absurd small (Nat.not_lt_zero _)⟩

/-- What an access does to the maps. -/
inductive Effect (s : DefaultCommandDispatcher Doc) : Access → DefaultCommandDispatcher Doc → Prop
  | none {a} (still : a.writes = none) : Effect s a s
  | register (desc : ActionDescriptor) :
      Effect s (.addActionDescriptor desc) (s.registerDescriptor desc)
  | deregister (desc : ActionDescriptor) :
      Effect s (.removeActionDescriptor desc) (s.deregisterDescriptor desc)
  | insert (desc : ActionDescriptor) : Effect s (.insertScheduler desc) (s.addScheduler desc)
  | erase (desc : ActionDescriptor) : Effect s (.eraseScheduler desc) (s.removeScheduler desc)
  | clear : Effect s .clear { s with dasMap := fun _ => none }

variable {a : Access}

theorem Access.act_effect (acted : a.act s = some t) : Effect s a t := by
  cases a with
  | count | fetch | member | hasActionName | getActionDescriptornFormActionName | unneeded =>
    obtain ⟨-, same⟩ := ite_none_right_eq_some.mp acted
    cases same
    exact .none rfl
  | addActionDescriptor desc => cases acted; exact .register desc
  | removeActionDescriptor desc => cases acted; exact .deregister desc
  | insertScheduler desc => cases acted; exact .insert desc
  | eraseScheduler desc => cases acted; exact .erase desc
  | clear => cases acted; exact .clear

section

variable (effect : Effect s a t) (hs : Sound s)

include effect hs

theorem Effect.sound : Sound t := by
  cases effect with
  | none still => exact hs
  | register desc => exact registerDescriptor_sound hs desc
  | deregister desc => exact deregisterDescriptor_sound hs desc
  | insert desc => exact addScheduler_sound hs desc
  | erase desc => exact removeScheduler_sound hs desc
  | clear => exact ⟨hs.named, hs.contained⟩

/-- The domain whose actions an access changes. -/
def Access.domain? : Access → Option String
  | .addActionDescriptor desc => some desc.domain
  | .removeActionDescriptor desc => some desc.domain
  | _ => none

theorem Effect.keeps : Keeps a.domain? s t := by
  cases effect with
  | none still => exact .refl s _
  | register desc => exact registerDescriptor_keeps hs desc
  | deregister desc => exact deregisterDescriptor_keeps hs desc
  | insert desc => exact addScheduler_keeps hs desc
  | erase desc => exact removeScheduler_keeps s desc
  | clear => exact ⟨Nat.le_refl _, fun _ _ => rfl, fun _ _ _ => rfl⟩

theorem Effect.dasMap (ho : a.writes ≠ some .schedulers) : t.dasMap = s.dasMap := by
  cases effect with
  | none still => rfl
  | register desc => exact (registerDescriptor_registered hs.named desc).dasMap
  | deregister desc => exact (deregisterDescriptor_deregistered hs.named desc).dasMap
  | insert | erase | clear => exact absurd rfl ho

/-- **Frame.** A fact holds until what it is about is changed. -/
theorem Effect.holds {f : Fact} (hh : f.Holds s) (ho : a.writes ≠ some f.shared) : f.Holds t := by
  cases f with
  | scheduler k => exact (congrFun (effect.dasMap hs ho) k.domain).trans hh
  | action k name =>
    have elsewhere : some k.domain ≠ a.domain? := by
      intro same
      cases a with
      | addActionDescriptor desc | removeActionDescriptor desc =>
        exact ho (congrArg (some ∘ Shared.actions) (Option.some.inj same).symm)
      | count | fetch | member | hasActionName | getActionDescriptornFormActionName | unneeded
        | insertScheduler | eraseScheduler | clear => cases same
    have keeps := effect.keeps hs
    refine ⟨keeps.works hs hh.1 elsewhere, ?_⟩
    rw [keeps.container hs hh.1 elsewhere]
    exact hh.2

end

theorem Access.holds_of_tests (acted : a.act s = some t) : ∀ f ∈ a.tests, f.Holds t := by
  intro f isTested
  cases a with
  | count dom found =>
    obtain ⟨ht, same⟩ := ite_none_right_eq_some.mp acted
    cases same
    cases found with
    | none => cases isTested
    | some id =>
      cases mem_singleton.mp isTested
      exact ht
  | hasActionName k name found =>
    obtain ⟨ht, same⟩ := ite_none_right_eq_some.mp acted
    cases same
    cases found with
    | false => cases isTested
    | true =>
      cases mem_singleton.mp isTested
      exact ht
  | fetch | member | getActionDescriptornFormActionName | addActionDescriptor | insertScheduler
    | removeActionDescriptor | unneeded | eraseScheduler | clear => cases isTested

end Store

/-! ### The programs test what they use -/

section Tested

/-- The program of an operation or of a part of it tests what it uses. -/
abbrev Tested (prog : List Act) : Prop := Machine.Closed Access.uses Access.tests prog

open Machine

theorem dispatch_tested (d : Dispatch) : Tested (dispatchProgram d) := by
  cases d with
  | refused | noDomain => rfl
  | unarmed k | noAction k | pushed k =>
    simp [Closed, pending, dispatchProgram, findProgram, holding, Access.uses, tests]

theorem lookup_tested (k : Scheduler) (desc : ActionDescriptor) :
    Tested (lookupProgram k desc []) := by
  simp [Closed, pending, lookupProgram, Access.uses, tests]

/-- A synchronous call finds the scheduler and uses it twice. -/
theorem find_lookup_tested (k : Scheduler) (desc : ActionDescriptor) :
    Tested (findProgram k ++ lookupProgram k desc [.access (.member k)]) := by
  simp [Closed, pending, findProgram, lookupProgram, Access.uses, tests]

theorem call_tested (desc : ActionDescriptor) (shared : Bool)
    (check : Option (String × Option ℕ)) : Tested (callProgram desc shared check) := by
  cases check with
  | none => cases shared <;> rfl
  | some check =>
    have asked : Tested (hasDomainProgram check.1 check.2) := Closed.holding rfl
    cases shared with
    | true => exact asked
    | false => exact asked.holding

theorem execution_tested {e : Execution} {sub : List Act} (later : Tested sub) :
    Tested (executionProgram e [] sub) := by
  cases e with
  | absent k name => rfl
  | disabled id desc => exact (lookup_tested _ desc).append rfl
  | fired id desc shared check =>
    exact (lookup_tested _ desc).append ((call_tested desc shared check).append later).holding

theorem synchronous_tested (e : Execution) :
    Tested (findProgram e.scheduler ++ executionProgram e [.access (.member e.scheduler)] []) := by
  cases e with
  | absent k name =>
    simp [Closed, pending, findProgram, executionProgram, Access.uses, tests]
  | disabled id desc =>
    exact (find_lookup_tested _ desc).append rfl
  | fired id desc shared check =>
    rw [executionProgram, append_nil]
    exact (find_lookup_tested _ desc).append (call_tested desc shared check).holding

theorem program_tested (o : Operation) : Tested (program o) := by
  cases o with
  | registerAction descs | deregisterAction descs =>
    refine Closed.holding (Closed.append ?_ ?_)
    · exact Closed.flatMap descs fun d _ => rfl
    · refine Closed.flatMap descs fun d _ => ?_
      obtain ⟨desc, found⟩ := d
      cases found <;> rfl
  | hasDomain dom found => exact Closed.holding rfl
  | domainRPCActionQueued dom found =>
    cases found <;> rfl
  | dispatchCommand d => exact dispatch_tested d
  | executeCommandSync s =>
    cases s with
    | refused | noDomain => rfl
    | found e => exact synchronous_tested e
  | processBufferElement e sub =>
    exact Closed.holding (Closed.append rfl (execution_tested (dispatch_tested sub)))
  | deinit scheds =>
    have each (k) (_ : k ∈ scheds) :
        Tested ([.access (.count k.domain (some k.id))] ++ deinitProgram k) := rfl
    exact Closed.holding ((Closed.flatMap scheds each).append rfl)

end Tested

/-! ### Races -/

namespace System

section Races

variable {o p : Operation} {held heldToo : List (Lock × Mode)} {a b : Access} {r : Shared}
  {f : Fact}

/-- An operation that looks something up without the lock changes nothing. -/
theorem not_looks_of_alters (ha : r ∈ o.alters) : r ∉ o.looks := by
  cases o with
  | registerAction | deregisterAction | deinit => exact not_mem_nil
  | hasDomain | domainRPCActionQueued | dispatchCommand | executeCommandSync
    | processBufferElement => cases ha

/-- What is used without the lock is looked up without it. -/
theorem looks_of_uses (ht : Touches o held a) (hu : f ∈ a.uses) : f.shared ∈ o.looks := by
  cases ht with
  | looks still reads uses => exact uses f hu
  | locked hh still reads uses | alters hh changing hw mine strong reads uses =>
    rw [uses] at hu
    cases hu
  | clears ends hc =>
    rw [hc] at hu
    cases hu

theorem looks_of_pending {prog : List Act} {final : List (Lock × Mode)}
    (leads : Leads (Allowed o) held prog final)
    (hp : f ∈ Machine.pending Access.uses tests prog) : f.shared ∈ o.looks := by
  induction prog generalizing held with
  | nil => cases hp
  | cons act prog ih =>
    cases act with
    | access a =>
      rcases mem_append.mp hp with hu | later
      · exact looks_of_uses leads.1 hu
      · exact ih leads.2 (mem_filter.mp later).1
    | lock | unlock | promote | demote => exact ih leads.2 hp

/-- What an operation changes is not looked up by another one under way, nor by itself. -/
theorem not_looks_of_writes (ht : Touches o held a) (hw : a.writes = some r)
    (hs : o = p ∨ Spares o p) : r ∉ p.looks := by
  cases ht with
  | looks still | locked hh still => cases still.symm.trans hw
  | alters hh changing writesToo mine =>
    cases writesToo.symm.trans hw
    rcases hs with rfl | hs
    · exact not_looks_of_alters mine
    · exact hs.2 _ mine
  | clears ends hc =>
    subst ends
    rcases hs with rfl | hs
    · exact not_mem_nil
    · cases hs.1

/-- Two accesses do not clash, by what both hold or by what does not overlap. -/
theorem not_clash (ht : Touches o held a) (touchesToo : Touches p heldToo b) (hs : Separate o p)
    (he : ∀ l m n, (l, m) ∈ held → (l, n) ∈ heldToo → m.Compatible n) : ¬ Clash a b := by
  rintro ⟨r, hw, conflict⟩
  have hu := not_looks_of_writes ht hw (.inr hs.1)
  cases ht with
  | looks still | locked hh still => cases still.symm.trans hw
  | clears ends hc =>
    subst ends
    cases hs.1.1
  | @alters m q hh changing writesToo mine strong =>
    cases writesToo.symm.trans hw
    cases touchesToo with
    | looks still reads uses =>
      rcases conflict with hr | writing
      · exact hu (reads r hr)
      · cases still.symm.trans writing
    | locked holdsToo still reads =>
      rcases conflict with hr | writing
      · cases reads.symm.trans hr
        cases strong rfl
        exact he .dasMap .write _ hh holdsToo
      · cases still.symm.trans writing
    | @alters n _ holdsToo changingToo =>
      have compatible := he .dasMap m n hh holdsToo
      cases m with
      | read => exact changing rfl
      | upgrade =>
        cases n with
        | read => exact changingToo rfl
        | upgrade | write => exact compatible
      | write => exact compatible
    | clears ends hc =>
      subst ends
      cases hs.2.1

end Races

section Runs

variable {bars : Bool} {s t : System Doc} {a : Access} {i : ℕ}

/-- The invariant: the threads are in order, the containers are known, and what has been tested
holds. -/
structure Consistent (s : System Doc) : Prop where
  orderly : Orderly Allowed Separate s.threads
  sound : Sound s.store
  grounded : Machine.Grounded Access.uses Access.tests (fun store f => f.Holds store) s

theorem consistent_init : Consistent (init : System Doc) := ⟨orderly_nil, sound_init, nofun⟩

/-- What a thread is at is allowed. -/
theorem Consistent.touches (hc : Consistent s) (isAccess : Machine.access? s.threads i = some a) :
    ∃ u rest, s.threads[i]? = some u ∧ u.prog = .access a :: rest ∧ Touches u.tag u.held a := by
  obtain ⟨u, rest, thread, next⟩ := Machine.access?_eq_some.mp isAccess
  have hf := hc.orderly.disciplined i u thread
  rw [next] at hf
  exact ⟨u, rest, thread, next, hf.1⟩

/-- An access leaves what any thread has tested. -/
theorem Consistent.spares (hc : Consistent s)
    (isAccess : Machine.access? s.threads i = some a) {store : DefaultCommandDispatcher Doc}
    (acted : a.act s.store = some store) {j : ℕ} {w : Task} (thread : s.threads[j]? = some w)
    (f : Fact) (hp : f ∈ Machine.pending Access.uses tests w.prog)
    (hh : f.Holds s.store) : f.Holds store := by
  obtain ⟨u, rest, acting, next, ht⟩ := hc.touches isAccess
  refine (act_effect acted).holds hc.sound hh fun hw => ?_
  have looks := looks_of_pending (hc.orderly.disciplined j w thread) hp
  have unfinished : w.prog ≠ [] := by
    intro atEnd
    rw [atEnd] at hp
    cases hp
  refine not_looks_of_writes ht hw ?_ looks
  obtain rfl | same := eq_or_ne i j
  · exact .inl (congrArg Thread.tag (Option.some.inj (acting.symm.trans thread)))
  · exact .inr (hc.orderly.related i j same u acting w thread (next ▸ cons_ne_nil _ _) unfinished).1

theorem Consistent.step {label : Label Operation} (hc : Consistent s)
    (careful : Careful Separate s.threads label) (taken : s.step bars label = some t) :
    Consistent t := by
  obtain ⟨threads, hs⟩ := Machine.step_cases taken
  refine ⟨?_, ?_, ?_⟩
  · exact step_orderly program_leads (fun _ _ => Separate.symm) hc.orderly careful threads
  · rcases hs with ⟨-, same⟩ | ⟨i, a, -, -, acted⟩
    · exact same ▸ hc.sound
    · exact (act_effect acted).sound hc.sound
  · exact Machine.step_grounded program_tested holds_of_tests hc.grounded taken
      fun isAccess acted => hc.spares isAccess acted

theorem Consistent.safe (hc : Consistent s) : Safe s where
  raceFree i j different a isA b isB := by
    obtain ⟨u, rest, thread, next, ht⟩ := hc.touches isA
    obtain ⟨w, restToo, threadToo, hn, touchesToo⟩ := hc.touches isB
    have hs := hc.orderly.related i j different u thread w threadToo
      (next ▸ cons_ne_nil _ _) (hn ▸ cons_ne_nil _ _)
    exact not_clash ht touchesToo hs (hc.orderly.exclusive i j different u thread w threadToo)
  founded i a isAccess f hu := by
    obtain ⟨u, rest, thread, next, -⟩ := hc.touches isAccess
    refine hc.grounded i u thread f ?_
    rw [next]
    exact mem_append_left _ hu

/-- **No races.** As long as nothing that an operation looks up without the lock is changed by one
that overlaps it, no map is changed while another thread reads or changes it, and the descriptors
and schedulers that have been found are there when they are used. -/
theorem safe_of_separate (bars : Bool) (labels : List (Label Operation))
    (admissible : Admissible (step bars) (fun s => Careful Separate s.threads)
      (init : System Doc) labels) (t : System Doc)
    (executed : execute (step bars) init labels = some t) : Safe t :=
  (admissible.invariant Consistent.step consistent_init executed).safe

end Runs

/-- The action of a control unit. -/
def loadUnit : ActionDescriptor := ⟨⟨0, [("unit", "load")]⟩, 0, "unit", "load"⟩

/-- An action of another domain. -/
def readProbe : ActionDescriptor := ⟨⟨1, [("probe", "read")]⟩, 0, "probe", "read"⟩

/-- The registration of the only action of a domain. -/
def registerUnit : List (Label Operation) :=
  .start (.registerAction [(loadUnit, none)]) :: List.replicate 9 (.run 0)

/-- A call is dispatched, and another domain is registered while the call is executed. -/
def registerDuringExecution : List (Label Operation) :=
  registerUnit ++ .start (.dispatchCommand (.pushed ⟨"unit", 0⟩ "load")) ::
    (List.replicate 7 (.run 1) ++
    [.start (.processBufferElement (.fired 0 loadUnit true none) .refused), .run 2, .run 2, .run 2,
      .run 2, .start (.registerAction [(readProbe, none)]), .run 3, .run 3, .run 3, .run 3, .run 2,
      .run 3, .run 3])

theorem safe_of_separate_registers :
    Admissible (step true) (fun s => Careful Separate s.threads) (init : System Unit)
        registerDuringExecution ∧
      ∃ s : System Unit, execute (step true) init registerDuringExecution = some s ∧ Safe s := by
  have ha : Admissible (step true) (fun s => Careful Separate s.threads)
      (init : System Unit) registerDuringExecution := by decide
  have runs : (execute (step true) (init : System Unit) registerDuringExecution).isSome = true := by
    decide
  obtain ⟨s, he⟩ := isSome_iff_exists.mp runs
  exact ⟨ha, s, he, safe_of_separate true registerDuringExecution ha s he⟩

/-- A call comes in while the only action of its domain is deregistered: the deregistration is about
to erase the scheduler. -/
def dispatchDuringErasure : List (Label Operation) :=
  registerUnit ++ .start (.dispatchCommand (.pushed ⟨"unit", 0⟩ "load")) ::
    .start (.deregisterAction [(loadUnit, some 0)]) :: List.replicate 5 (.run 2)

/-- The call has found the domain before the scheduler is erased. -/
def dispatchBeforeErasure : List (Label Operation) :=
  registerUnit ++ .start (.dispatchCommand (.pushed ⟨"unit", 0⟩ "load")) :: .run 1 ::
    .start (.deregisterAction [(loadUnit, some 0)]) :: List.replicate 6 (.run 2)

/-- The map is read while it is changed, and a scheduler that was found is missing. -/
theorem scheduler_missing :
    (∃ s : System Unit, execute (step true) init dispatchDuringErasure = some s ∧
      Machine.access? s.threads 2 = some (.eraseScheduler loadUnit) ∧
      Machine.access? s.threads 1 = some (.count "unit" (some 0)) ∧ ¬ Safe s) ∧
    ∃ s : System Unit, execute (step true) init dispatchBeforeErasure = some s ∧
      Machine.access? s.threads 1 = some (.fetch ⟨"unit", 0⟩) ∧ s.store.dasMap "unit" = none ∧
      ¬ Safe s := by
  have races : (execute (step true) (init : System Unit) dispatchDuringErasure).map
      (fun s => (Machine.access? s.threads 2, Machine.access? s.threads 1)) =
      some (some (.eraseScheduler loadUnit), some (.count "unit" (some 0))) := by decide
  have misses : (execute (step true) (init : System Unit) dispatchBeforeErasure).map
      (fun s => (Machine.access? s.threads 1, s.store.dasMap "unit")) =
      some (some (.fetch ⟨"unit", 0⟩), none) := by decide
  obtain ⟨s, he, hr⟩ := map_eq_some_iff.mp races
  obtain ⟨t, executedToo, reachedToo⟩ := map_eq_some_iff.mp misses
  obtain ⟨erases, hc⟩ := Prod.mk.inj hr
  obtain ⟨fetches, hm⟩ := Prod.mk.inj reachedToo
  refine ⟨⟨s, he, erases, hc, fun hs => ?_⟩, t, executedToo, fetches, hm, fun hs => ?_⟩
  · exact hs.raceFree 2 1 nofun _ erases _ hc ⟨.schedulers, rfl, .inl rfl⟩
  · have found := hs.founded 1 _ fetches (.scheduler ⟨"unit", 0⟩) mem_cons_self
    exact absurd (hm.symm.trans found) nofun

end System

end ChaosFramework.Dispatcher
