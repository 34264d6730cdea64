import ChaosFramework.Dispatcher.Programs

/-!
# Deadlocks of the dispatcher

An action may call `hasDomain`, as `CheckDomainRpcAction` does. Its thread then waits for the map
with its own action locked and its scheduler busy, and whoever has the map may wait for these. There
is no deadlock as long as the actions of a domain are not registered, deregistered or ended while
one of them that calls `hasDomain` is executed (`drains_of_apart_domains`).

When no thread can go on, the kinds of requests are excluded one after the other, those for the map
in the end.
-/

namespace ChaosFramework.Dispatcher

open SharedMutex Transition List Option

def step (bars : Bool) : Tasks → Label Operation → Option Tasks := Threads.step program bars

/-- An action that calls `hasDomain` is not executed while an operation has to do with its
domain. -/
def Apart (o p : Operation) : Prop :=
  (∀ domain ∈ o.asks, domain ∉ p.domains) ∧ ∀ domain ∈ p.asks, domain ∉ o.domains

instance decidableApart (o p : Operation) : Decidable (Apart o p) :=
  inferInstanceAs (Decidable (_ ∧ _))

theorem Apart.symm {o p : Operation} (apart : Apart o p) : Apart p o := And.symm apart

/-! ### Stuck threads -/

section Stuck

variable {o : Operation} {held : List (Lock × Mode)} {a : Act}

/-- A thread holds a lock and makes a request. -/
inductive Waits (o : Operation) : Lock → Mode → Act → Prop
  | queue {l m k} (free : ∀ k, l ≠ .queue k) : Waits o l m (.lock (.queue k) .write)
  | promote : Waits o .dasMap .upgrade (.promote .dasMap)
  | enable {m desc} (mine : desc.domain ∈ o.domains) :
      Waits o .dasMap m (.lock (.action desc) .write)
  | join {m k} (mine : k.domain ∈ o.domains) : Waits o .dasMap m (.lock (.worker k) .write)
  | fire {id desc} : Waits o (.worker ⟨desc.domain, id⟩) .write (.lock (.action desc) .read)
  | call {desc} : Waits o (.action desc) .read (.lock (.execution desc) .write)
  | work {id desc} : Waits o (.worker ⟨desc.domain, id⟩) .write (.lock (.execution desc) .write)
  | executes {desc} (asks : desc.domain ∈ o.asks) :
      Waits o (.execution desc) .write (.lock .dasMap .read)
  | fires {desc} (asks : desc.domain ∈ o.asks) : Waits o (.action desc) .read (.lock .dasMap .read)
  | works {id domain} (asks : domain ∈ o.asks) :
      Waits o (.worker ⟨domain, id⟩) .write (.lock .dasMap .read)

variable {desc : ActionDescriptor} {l : Lock}

theorem Request.waits (request : Request o held a) {m : Mode} (hh : (l, m) ∈ held) :
    Waits o l m a := by
  cases request with
  | map | work => cases hh
  | promote =>
    cases mem_singleton.mp hh
    exact .promote
  | enable mine =>
    cases mem_singleton.mp hh
    exact .enable mine
  | join mine =>
    cases mem_singleton.mp hh
    exact .join mine
  | queue free => exact .queue fun k same => free k m (same ▸ hh)
  | fire own =>
    obtain ⟨id, same⟩ := own _ hh
    cases same
    exact .fire
  | call own =>
    rcases mem_cons.mp hh with same | isIn
    · cases same
      exact .call
    · obtain ⟨id, same⟩ := own _ isIn
      cases same
      exact .work
  | ask asks mine =>
    rcases mine _ hh with same | same | ⟨id, same⟩
    · cases same
      exact .executes asks
    · cases same
      exact .fires asks
    · cases same
      exact .works asks

/-- An action is enabled and disabled by operations of its domain. -/
theorem Request.mine
    (request : Request o held (.lock (.action desc) .write)) : desc.domain ∈ o.domains := by
  cases request with
  | enable hm => exact hm

theorem Request.isMap (request : Request o held (.promote l)) : l = .dasMap := by
  cases request with
  | promote => rfl

variable {bars : Bool} {s : Tasks} {i : ℕ} {w : Task} {k : Scheduler}

section

variable (ho : Orderly Allowed Apart s) (hs : Stuck bars s) (thread : s[i]? = some w)

include ho hs thread

theorem request_of_stuck :
    (w.prog = [] ∧ w.held = []) ∨
      ∃ a rest, w.prog = a :: rest ∧ Request w.tag w.held a ∧ ¬ s.Ready bars i a := by
  rcases hs.blocked ho thread with atEnd | ⟨a, rest, next, allowed, hb⟩
  · exact .inl atEnd
  · refine .inr ⟨a, rest, next, ?_, hb⟩
    cases a with
    | lock l m | promote l => exact allowed
    | unlock | demote | access => exact absurd trivial hb

/-- A thread that holds a lock is not at its end. -/
theorem waits_of_stuck {m : Mode} (hh : (l, m) ∈ w.held) :
    ∃ a rest, w.prog = a :: rest ∧ Waits w.tag l m a ∧ ¬ s.Ready bars i a := by
  rcases request_of_stuck ho hs thread with
    ⟨-, hr⟩ | ⟨a, rest, next, request, hb⟩
  · rw [hr] at hh
    cases hh
  · exact ⟨a, rest, next, request.waits hh, hb⟩

end

/-- A lock to write that is not granted is held by somebody else. -/
theorem holder_of_blocked (hb : ¬ s.Ready bars i (.lock l .write)) :
    ∃ j u m, j ≠ i ∧ s[j]? = some u ∧ (l, m) ∈ u.held := by
  by_contra none
  refine hb fun j other u ht lm hh same => none ⟨j, u, lm.2, other, ht, ?_⟩
  rw [← same]
  exact hh

/-- The locks of the queues are not held for long. -/
theorem not_queue (ho : Orderly Allowed Apart s) (hs : Stuck bars s)
    (hb : ¬ s.Ready bars i (.lock (.queue k) .write)) : False := by
  obtain ⟨j, u, m, -, ht, hh⟩ := holder_of_blocked hb
  obtain ⟨a, rest, -, waits, -⟩ := waits_of_stuck ho hs ht hh
  cases waits with
  | queue free => exact free k rfl

/-- A thread asks for the map while it executes an action of the domain. -/
def Asked (s : Tasks) (domain : String) : Prop :=
  ∃ (i : ℕ) (w : Task) (rest : List Act), s[i]? = some w ∧ w.prog = .lock .dasMap .read :: rest ∧
    domain ∈ w.tag.asks

/-- An operation that has to do with a domain has kept those apart that ask. -/
theorem not_asked (ho : Orderly Allowed Apart s) (thread : s[i]? = some w)
    (hu : w.prog ≠ []) {dom : String} (mine : dom ∈ w.tag.domains) :
    ¬ Asked s dom := by
  rintro ⟨j, u, rest, ht, next, has⟩
  obtain rfl | same := eq_or_ne i j
  · obtain rfl := Option.some.inj (thread.symm.trans ht)
    cases isTag : w.tag <;> simp [isTag, Operation.asks, Operation.domains] at has mine
  · have apart := ho.related i j same w thread u ht hu (next ▸ cons_ne_nil _ _)
    exact apart.2 dom has mine

variable (ho : Orderly Allowed Apart s) (hs : Stuck bars s)

include ho hs

theorem asked_of_execution
    (hb : ¬ s.Ready bars i (.lock (.execution desc) .write)) : Asked s desc.domain := by
  obtain ⟨j, u, m, -, ht, hh⟩ := holder_of_blocked hb
  obtain ⟨a, rest, next, waits, blockedToo⟩ := waits_of_stuck ho hs ht hh
  cases waits with
  | queue free => exact (not_queue ho hs blockedToo).elim
  | executes asks => exact ⟨j, u, rest, ht, next, asks⟩

/-- Nobody waits to enable or disable an action: it would be for one that asks for the map. -/
theorem not_enable (thread : s[i]? = some w) {rest : List Act}
    (next : w.prog = .lock (.action desc) .write :: rest) : False := by
  have hu : w.prog ≠ [] := next ▸ cons_ne_nil _ rest
  rcases request_of_stuck ho hs thread with
    ⟨atEnd, -⟩ | ⟨a, more, hn, request, hb⟩
  · exact hu atEnd
  obtain ⟨rfl, rfl⟩ := List.cons.inj (next.symm.trans hn)
  refine not_asked ho thread hu request.mine ?_
  obtain ⟨j, u, m, -, ht, hh⟩ := holder_of_blocked hb
  obtain ⟨b, last, nextAfter, waits, blockedToo⟩ := waits_of_stuck ho hs ht hh
  cases waits with
  | queue free => exact (not_queue ho hs blockedToo).elim
  | call => exact asked_of_execution ho hs blockedToo
  | fires asks => exact ⟨j, u, last, ht, nextAfter, asks⟩

/-- Nobody waits to execute an action either. -/
theorem not_fire (hb : ¬ s.Ready bars i (.lock (.action desc) .read)) : False := by
  refine hb fun j other u ht isBar => ?_
  rcases isBar with hh | ⟨-, next | ⟨-, next⟩⟩
  · obtain ⟨a, rest, -, waits, blockedToo⟩ := waits_of_stuck ho hs ht hh
    cases waits with
    | queue free => exact not_queue ho hs blockedToo
  · obtain ⟨rest, next⟩ := head?_eq_some_iff.mp next
    exact not_enable ho hs ht next
  · obtain ⟨rest, next⟩ := head?_eq_some_iff.mp next
    rcases request_of_stuck ho hs ht with ⟨atEnd, -⟩ | ⟨a, more, hn, request, -⟩
    · exact absurd (atEnd.symm.trans next) nofun
    · obtain ⟨rfl, rfl⟩ := List.cons.inj (next.symm.trans hn)
      cases request.isMap

theorem asked_of_worker (hb : ¬ s.Ready bars i (.lock (.worker k) .write)) : Asked s k.domain := by
  obtain ⟨j, u, m, -, ht, hh⟩ := holder_of_blocked hb
  obtain ⟨a, rest, next, waits, blockedToo⟩ := waits_of_stuck ho hs ht hh
  cases waits with
  | queue free => exact (not_queue ho hs blockedToo).elim
  | fire => exact (not_fire ho hs blockedToo).elim
  | work => exact asked_of_execution ho hs blockedToo
  | works asks => exact ⟨j, u, rest, ht, next, asks⟩

section

variable (thread : s[i]? = some w) {m : Mode}

include thread

/-- Who has the map waits to write. -/
theorem promote_of_map (hh : (.dasMap, m) ∈ w.held) :
    m = .upgrade ∧ ¬ s.Ready bars i (.promote .dasMap) := by
  obtain ⟨a, rest, next, waits, hb⟩ := waits_of_stuck ho hs thread hh
  have hu : w.prog ≠ [] := next ▸ cons_ne_nil _ rest
  cases waits with
  | queue free => exact (not_queue ho hs hb).elim
  | promote => exact ⟨rfl, hb⟩
  | enable mine => exact (not_enable ho hs thread next).elim
  | join mine =>
    exact (not_asked ho thread hu mine (asked_of_worker ho hs hb)).elim

/-- Nobody has the map: two threads would wait to write. -/
theorem not_map (hh : (.dasMap, m) ∈ w.held) : False := by
  obtain ⟨rfl, hb⟩ := promote_of_map ho hs thread hh
  refine hb fun j other u ht ⟨l, n⟩ holdsToo same => ?_
  obtain rfl : l = .dasMap := same
  obtain ⟨rfl, -⟩ := promote_of_map ho hs ht holdsToo
  exact ho.exclusive i j (Ne.symm other) w thread u ht .dasMap .upgrade .upgrade hh holdsToo

theorem map_free : ∀ lm ∈ w.held, lm.1 ≠ .dasMap := by
  rintro ⟨l, m⟩ hh same
  obtain rfl : l = .dasMap := same
  exact not_map ho hs thread hh

/-- Nobody keeps readers from the map. -/
theorem not_bars_map : ¬ w.Bars bars .dasMap := by
  have free : s.Grants bars i .dasMap .write := fun j _ u ht =>
    map_free ho hs ht
  rintro (hh | ⟨-, next | ⟨-, next⟩⟩)
  · exact not_map ho hs thread hh
  · obtain ⟨rest, next⟩ := head?_eq_some_iff.mp next
    exact not_ready_of_run_eq_none thread next (hs i) free
  · obtain ⟨rest, next⟩ := head?_eq_some_iff.mp next
    exact not_ready_of_run_eq_none thread next (hs i) free

end

theorem ready_map (m : Mode) : s.Ready bars i (.lock .dasMap m) := by
  cases m with
  | read => exact fun j _ u ht => not_bars_map ho hs ht
  | upgrade =>
    exact fun j _ u ht =>
      ⟨not_bars_map ho hs ht, not_map ho hs ht⟩
  | write => exact fun j _ u ht => map_free ho hs ht

theorem finished_of_stuck : s.Finished := by
  have unasked (dom : String) : ¬ Asked s dom := by
    rintro ⟨i, w, rest, thread, next, -⟩
    exact not_ready_of_run_eq_none thread next (hs i) (ready_map ho hs .read)
  intro i w thread
  rcases request_of_stuck ho hs thread with ⟨atEnd, -⟩ | ⟨a, rest, next, request, hb⟩
  · exact atEnd
  -- Each of the requests would be granted.
  exfalso
  obtain ⟨tag, prog, held, waiting⟩ := w
  cases request with
  | map | ask asks mine => exact hb (ready_map ho hs _)
  | promote => exact not_map ho hs thread mem_cons_self
  | enable mine => exact not_enable ho hs thread next
  | join mine | work => exact unasked _ (asked_of_worker ho hs hb)
  | queue free => exact not_queue ho hs hb
  | fire own => exact not_fire ho hs hb
  | call own => exact unasked _ (asked_of_execution ho hs hb)

end Stuck

/-- **No deadlock.** Whatever the threads do, all of them can be brought to their end, as long as
no action that calls `hasDomain` is executed while the actions of its domain are registered,
deregistered or ended. -/
theorem drains_of_apart_domains (bars : Bool) (labels : List (Label Operation))
    (admissible : Admissible (step bars) (Careful Apart) [] labels) (t : Tasks)
    (executed : execute (step bars) [] labels = some t) : t.Drains bars :=
  drains_of_orderly finished_of_stuck
    (orderly_of_careful program_leads (fun _ _ => Apart.symm) admissible executed)

/-- The action that `AbstractCommandDispatcher` declares to ask for a domain. -/
def checkDomain : ActionDescriptor :=
  ⟨⟨0, [("system", "checkDomain")]⟩, 0, "system", "checkDomain"⟩

/-- A descriptor of a control unit. -/
def setAttributes : ActionDescriptor :=
  ⟨⟨1, [("BPM", "setAttributes")]⟩, 0, "BPM", "setAttributes"⟩

/-- The domain of a control unit is asked for while its only action is deregistered. -/
def askedDuringDeregistration : List (Label Operation) :=
  [.start (.processBufferElement (.fired 0 checkDomain false (some ("BPM", none))) .refused),
    .run 0, .run 0, .run 0, .run 0, .run 0, .run 0, .run 0,
    .start (.deregisterAction [(setAttributes, some 1)]), .run 1, .run 1,
    .start (.dispatchCommand (.pushed ⟨"system", 0⟩ "checkDomain")), .run 2]

theorem drains_of_apart_domains_asked :
    Admissible (step true) (Careful Apart) [] askedDuringDeregistration ∧
      ∃ t, execute (step true) [] askedDuringDeregistration = some t ∧ t.Drains true := by
  have ha : Admissible (step true) (Careful Apart) [] askedDuringDeregistration := by
    decide
  obtain ⟨t, he⟩ := isSome_iff_exists.mp
    (show (execute (step true) [] askedDuringDeregistration).isSome = true by decide)
  exact ⟨ha, t, he, drains_of_apart_domains true askedDuringDeregistration ha t he⟩

/-- `stop` deregisters the action while it is executed. -/
def askedDuringStop : List (Label Operation) :=
  [.start (.processBufferElement (.fired 0 checkDomain false (some ("BPM", none))) .refused),
    .run 0, .run 0, .run 0, .run 0, .run 0, .run 0, .run 0,
    .start (.deregisterAction [(checkDomain, none)]), .run 1, .run 1]

/-- The action waits for the map, and the deregistration for the action. -/
theorem stop_deadlocks :
    (∃ t ∈ execute (step false) [] askedDuringStop, t.Deadlocked false ∧ ¬ t.Drains false) ∧
      ∃ t ∈ execute (step true) [] askedDuringStop, t.Deadlocked true ∧ ¬ t.Drains true := by
  have hr (bars : Bool) : ∃ t ∈ execute (step bars) [] askedDuringStop, t.Deadlocked bars := by
    cases bars <;> decide
  obtain ⟨t, he, hd⟩ := hr false
  obtain ⟨u, executedToo, deadlockedToo⟩ := hr true
  exact ⟨⟨t, he, hd, hd.not_drains⟩, u, executedToo, deadlockedToo, deadlockedToo.not_drains⟩

end ChaosFramework.Dispatcher
