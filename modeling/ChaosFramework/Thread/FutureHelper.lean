import ChaosFramework.SortedList
import ChaosFramework.Transition

/-!
# Promises of answers

`FutureHelper` keeps the promises of the requests that have not been answered. A promise leaves the
set when its answer arrives or when it has been waited for too long.

New promises are added and old ones are purged under the exclusive lock. `setDataForPromiseID`
searches for the promise, sets its value and erases it under the shared lock: two answers with the
same id set the promise twice, and what one of them erases the other may be reading. Apart from this
every request gets the value of the first answer with its id, as long as the counter of the ids does
not come back to a request that is still waiting and the handler returns (`sound_of_separate`).
-/

namespace ChaosFramework.Thread

open Transition SortedList List Option Function

variable {α : Type*}

/-- A promise, with what has happened to it. -/
structure Promise (α : Type*) where
  promiseId : ℕ
  timeoutTs : ℕ
  /-- There is a handler that is called before the value is set. -/
  handler : Bool
  value : Option α
  /-- The first answer with the id that has arrived while the promise was in the set. -/
  first : Option α
  /-- How often the value was set and the promise was erased. -/
  sets : ℕ
  erases : ℕ
  deriving DecidableEq, Repr

/-- Where a call of `setDataForPromiseID` stands. -/
inductive Point
  | searching
  | setting (promise : ℕ)
  | erasing (promise : ℕ)
  deriving DecidableEq, Repr

/-- A thread in `setDataForPromiseID`, which has the shared lock. -/
structure Reader (α : Type*) where
  promiseId : ℕ
  promiseData : α
  point : Point
  deriving DecidableEq, Repr

structure FutureHelper (α : Type*) where
  promiseTimeout : ℕ
  promises : ℕ → Promise α
  next : ℕ
  promisesCounter : ℕ
  /-- The promises of the set, those that were added first in front. -/
  setP : List ℕ
  readers : List (Reader α)

/-- The id of a request as it is put into the request and comes back with the answer. -/
def messageId (promiseId : ℕ) : ℤ := Int.bmod promiseId 4294967296

/-- The id of a request as it is read from an answer. -/
def requestId (messageId : ℤ) : ℕ := (messageId % 4294967296).toNat

namespace FutureHelper

def init (promiseTimeout : ℕ) : FutureHelper α where
  promiseTimeout := promiseTimeout
  promises _ := ⟨0, 0, false, none, none, 0, 0⟩
  next := 0
  promisesCounter := 0
  setP := []
  readers := []

def addNewPromise (s : FutureHelper α) (now : ℕ) (handler : Bool) : FutureHelper α :=
  { s with
    promises := update s.promises s.next
      ⟨s.promisesCounter, now + s.promiseTimeout, handler, none, none, 0, 0⟩
    next := s.next + 1
    promisesCounter := (s.promisesCounter + 1) % 4294967296
    setP := s.setP ++ [s.next] }

/-- The promises that a purge erases: of the ten that time out first those that have. -/
def outdated (s : FutureHelper α) (now : ℕ) : List ℕ :=
  ((sortOn (fun p => (s.promises p).timeoutTs) s.setP).take 10).filter fun p =>
    (s.promises p).timeoutTs ≤ now

/-- The purge of the timer. -/
def timeout (s : FutureHelper α) (now : ℕ) : FutureHelper α :=
  { s with setP := s.setP.filter (· ∉ s.outdated now) }

/-- `set_p_req_id_index.find`. -/
def find (s : FutureHelper α) (promiseId : ℕ) : Option ℕ :=
  s.setP.find? fun p => (s.promises p).promiseId = promiseId

/-- The promises that wait for an answer with an id take note of the first one. -/
def arrive (s : FutureHelper α) (promiseId : ℕ) (data : α) : FutureHelper α :=
  { s with
    promises := fun p =>
      if p ∈ s.setP ∧ (s.promises p).promiseId = promiseId ∧ (s.promises p).first = none then
        { s.promises p with first := some data }
      else s.promises p }

def setValue (s : FutureHelper α) (p : ℕ) (data : α) : FutureHelper α :=
  { s with
    promises := update s.promises p
      { s.promises p with value := some data, sets := (s.promises p).sets + 1 } }

/-- A promise with a value refuses another one. -/
def refuse (s : FutureHelper α) (p : ℕ) : FutureHelper α :=
  { s with
    promises := update s.promises p
      { s.promises p with sets := (s.promises p).sets + 1 } }

def erase (s : FutureHelper α) (p : ℕ) : FutureHelper α :=
  { s with
    setP := s.setP.erase p
    promises := update s.promises p
      { s.promises p with erases := (s.promises p).erases + 1 } }

end FutureHelper

/-- The steps of the threads. -/
inductive Access (α : Type*)
  | addNewPromise (now : ℕ) (handler : Bool)
  | timeout (now : ℕ)
  /-- `MessageRequestDomain::response`, up to the shared lock. -/
  | response (messageId : Option ℤ) (data : α)
  | find (reader : Reader α)
  /-- The handler is called, which may throw, and the value is set. -/
  | setValue (reader : Reader α) (throws : Bool)
  | erase (reader : Reader α)
  deriving DecidableEq, Repr

namespace FutureHelper

variable [DecidableEq α]

/-- A call of `setDataForPromiseID` ends. -/
def leave (s : FutureHelper α) (r : Reader α) : FutureHelper α :=
  { s with readers := s.readers.erase r }

def goTo (s : FutureHelper α) (r : Reader α) (point : Point) : FutureHelper α :=
  { s with readers := { r with point } :: s.readers.erase r }

def step (s : FutureHelper α) : Access α → Option (FutureHelper α)
  | .addNewPromise now handler =>
      if s.readers = [] then some (s.addNewPromise now handler) else none
  | .timeout now => if s.readers = [] then some (s.timeout now) else none
  | .response none _ => some s
  | .response (some messageId) data =>
      some { s with readers := ⟨requestId messageId, data, .searching⟩ :: s.readers }
  | .find r =>
      if r ∈ s.readers ∧ r.point = .searching then
        let arrived := s.arrive r.promiseId r.promiseData
        match s.find r.promiseId with
        | none => some (arrived.leave r)
        | some p => some (arrived.goTo r (.setting p))
      else none
  | .setValue r throws =>
      match r.point with
      | .setting p =>
          if r ∈ s.readers ∧ (throws → (s.promises p).handler) then
            if throws then some (s.leave r)
            else if (s.promises p).value = none then
              some ((s.setValue p r.promiseData).goTo r (.erasing p))
            else some ((s.refuse p).leave r)
          else none
      | _ => none
  | .erase r =>
      match r.point with
      | .erasing p => if r ∈ s.readers then some ((s.erase p).leave r) else none
      | _ => none

/-- A thread is about to modify the set while another one is about to read or to modify it. -/
def Race (s : FutureHelper α) : Prop :=
  ∃ r ∈ s.readers, r.point matches .erasing _ ∧
    ∃ q ∈ s.readers.erase r, q.point matches .searching ∨ q.point matches .erasing _

structure Sound (s : FutureHelper α) : Prop where
  distinct : ∀ p ∈ s.setP, ∀ q ∈ s.setP,
    (s.promises p).promiseId = (s.promises q).promiseId → p = q
  /-- A request has the value of the first answer, or the answer is on its way. -/
  first : ∀ p < s.next, (s.promises p).value = (s.promises p).first ∨
    (s.promises p).value = none ∧ ∃ r ∈ s.readers, r.point = .setting p ∧
      (s.promises p).first = some r.promiseData
  once : ∀ p < s.next, (s.promises p).sets ≤ 1 ∧ (s.promises p).erases ≤ 1
  exclusive : ¬ s.Race

/-- The answers are received one after the other, the counter is at an id that no pending promise
has, and the handlers return. -/
def Separate (s : FutureHelper α) : Access α → Prop
  | .response (some _) _ => s.readers = []
  | .addNewPromise _ _ => ∀ p ∈ s.setP, (s.promises p).promiseId ≠ s.promisesCounter
  | .setValue _ throws => throws = false
  | _ => True

instance decidableSeparate (s : FutureHelper α) (l : Access α) : Decidable (s.Separate l) := by
  unfold Separate
  split <;> infer_instance

end FutureHelper

/-! ### The invariant -/

/-- Nothing has happened to the promise. -/
structure Promise.Untouched (p : Promise α) : Prop where
  value : p.value = none
  first : p.first = none
  sets : p.sets = 0
  erases : p.erases = 0

/-- The first answer has arrived. -/
structure Promise.Expecting (p : Promise α) (data : α) : Prop where
  value : p.value = none
  first : p.first = some data
  sets : p.sets = 0
  erases : p.erases = 0

/-- The promise has the value of the first answer. -/
structure Promise.Answered (p : Promise α) : Prop where
  value : p.value = p.first
  sets : p.sets ≤ 1
  erases : p.erases = 0

/-- The promise has been erased or purged. -/
structure Promise.Gone (p : Promise α) : Prop where
  value : p.value = p.first
  sets : p.sets ≤ 1
  erases : p.erases ≤ 1

theorem Promise.Untouched.gone {p : Promise α} (untouched : p.Untouched) : p.Gone where
  value := untouched.value.trans untouched.first.symm
  sets := untouched.sets ▸ Nat.zero_le 1
  erases := untouched.erases ▸ Nat.zero_le 1

namespace FutureHelper

/-- The promises are as the thread in `setDataForPromiseID` has left them. -/
structure Consistent (s : FutureHelper α) : Prop where
  alone : s.readers.length ≤ 1
  nodup : s.setP.Nodup
  known : ∀ p ∈ s.setP, p < s.next
  distinct : ∀ p ∈ s.setP, ∀ q ∈ s.setP,
    (s.promises p).promiseId = (s.promises q).promiseId → p = q
  untouched : ∀ p ∈ s.setP, (∀ r ∈ s.readers, r.point ≠ .setting p ∧ r.point ≠ .erasing p) →
    (s.promises p).Untouched
  expecting : ∀ r ∈ s.readers, ∀ p, r.point = .setting p →
    p ∈ s.setP ∧ (s.promises p).Expecting r.promiseData
  answered : ∀ r ∈ s.readers, ∀ p, r.point = .erasing p → p ∈ s.setP ∧ (s.promises p).Answered
  gone : ∀ p < s.next, p ∉ s.setP → (s.promises p).Gone

variable {s : FutureHelper α} {r : Reader α} {p : ℕ}

theorem Consistent.readers_eq (hc : Consistent s) (hm : r ∈ s.readers) : s.readers = [r] := by
  obtain ⟨front, back, split⟩ := append_of_mem hm
  have short := hc.alone
  rw [split, length_append, length_cons] at short
  have noFront : front = [] := length_eq_zero_iff.mp (by omega)
  have noBack : back = [] := length_eq_zero_iff.mp (by omega)
  rw [split, noFront, noBack, nil_append]

/-- The only thread is busy with one promise at most. -/
theorem Consistent.untouched_of (hc : Consistent s) (hr : r ∈ s.readers) (hm : p ∈ s.setP)
    (hp : r.point ≠ .setting p ∧ r.point ≠ .erasing p) : (s.promises p).Untouched := by
  apply hc.untouched p hm
  intro q hq
  rw [hc.readers_eq hr] at hq
  rwa [mem_singleton.mp hq]

/-- What has become of a promise. -/
theorem Consistent.fate (hc : Consistent s) (small : p < s.next) :
    (s.promises p).Gone ∨
      ∃ r ∈ s.readers, r.point = .setting p ∧ (s.promises p).Expecting r.promiseData := by
  by_cases hm : p ∈ s.setP
  · by_cases busy : ∀ r ∈ s.readers, r.point ≠ .setting p ∧ r.point ≠ .erasing p
    · exact .inl (hc.untouched p hm busy).gone
    · push Not at busy
      obtain ⟨r, hr, hb⟩ := busy
      by_cases setting : r.point = .setting p
      · exact .inr ⟨r, hr, setting, (hc.expecting r hr p setting).2⟩
      · obtain ⟨value, sets, erases⟩ := (hc.answered r hr p (hb setting)).2
        exact .inl ⟨value, sets, erases ▸ Nat.zero_le 1⟩
  · exact .inl (hc.gone p small hm)

variable {t : FutureHelper α}

/-- The last thread leaves, and all promises of the set are untouched. -/
theorem consistent_of_untouched (nobody : s.readers = []) (nodup : s.setP.Nodup)
    (known : ∀ p ∈ s.setP, p < s.next)
    (distinct : ∀ p ∈ s.setP, ∀ q ∈ s.setP,
      (s.promises p).promiseId = (s.promises q).promiseId → p = q)
    (untouched : ∀ p ∈ s.setP, (s.promises p).Untouched)
    (gone : ∀ p < s.next, p ∉ s.setP → (s.promises p).Gone) : Consistent s := by
  refine ⟨nobody ▸ Nat.zero_le 1, nodup, known, distinct, fun p hm _ => untouched p hm,
    fun r hr => ?_, fun r hr => ?_, gone⟩
  · rw [nobody] at hr
    cases hr
  · rw [nobody] at hr
    cases hr

theorem consistent_init (promiseTimeout : ℕ) :
    Consistent (init promiseTimeout : FutureHelper α) := by
  apply consistent_of_untouched
  case nobody => rfl
  case nodup => exact nodup_nil
  case known | distinct | untouched => exact fun _ hm => absurd hm not_mem_nil
  case gone => exact fun _ small => absurd small (Nat.not_lt_zero _)

/-! ### The exclusive lock -/

section

variable (hc : Consistent s) (nobody : s.readers = [])

include hc nobody

/-- While nobody is in `setDataForPromiseID` the promises of the set are untouched. -/
theorem Consistent.untouched_of_nil (hm : p ∈ s.setP) : (s.promises p).Untouched := by
  apply hc.untouched p hm
  intro r hr
  rw [nobody] at hr
  cases hr

theorem Consistent.addNewPromise
    (new : ∀ p ∈ s.setP, (s.promises p).promiseId ≠ s.promisesCounter) (now : ℕ)
    (handler : Bool) : Consistent (s.addNewPromise now handler) := by
  set t := s.addNewPromise now handler
  have self : t.promises s.next =
      ⟨s.promisesCounter, now + s.promiseTimeout, handler, none, none, 0, 0⟩ :=
    update_self ..
  have others {p : ℕ} (small : p < s.next) : t.promises p = s.promises p :=
    update_of_ne small.ne ..
  have split {p : ℕ} : p ∈ t.setP ↔ p ∈ s.setP ∨ p = s.next := by
    rw [show t.setP = s.setP ++ [s.next] from rfl, mem_append, mem_singleton]
  apply consistent_of_untouched
  case nobody => exact nobody
  case nodup =>
    apply hc.nodup.append (nodup_singleton _)
    intro p isOld isNew
    obtain rfl := mem_singleton.mp isNew
    exact absurd (hc.known _ isOld) (lt_irrefl _)
  case known =>
    intro p hm
    rcases split.mp hm with isOld | rfl
    · exact (hc.known p isOld).trans (Nat.lt_succ_self _)
    · exact Nat.lt_succ_self _
  case distinct =>
    intro p memberP q memberQ same
    rcases split.mp memberP with isOldP | rfl <;> rcases split.mp memberQ with isOldQ | rfl
    · rw [others (hc.known p isOldP), others (hc.known q isOldQ)] at same
      exact hc.distinct p isOldP q isOldQ same
    · rw [others (hc.known p isOldP), self] at same
      exact absurd same (new p isOldP)
    · rw [others (hc.known q isOldQ), self] at same
      exact absurd same.symm (new q isOldQ)
    · rfl
  case untouched =>
    intro p hm
    rcases split.mp hm with isOld | rfl
    · rw [others (hc.known p isOld)]
      exact hc.untouched_of_nil nobody isOld
    · rw [self]
      exact ⟨rfl, rfl, rfl, rfl⟩
  case gone =>
    intro p small ha
    have isOld : p < s.next := by
      have bound : p < s.next + 1 := small
      have different : p ≠ s.next := fun eq => ha (split.mpr (.inr eq))
      omega
    rw [others isOld]
    exact hc.gone p isOld fun hm => ha (split.mpr (.inl hm))

theorem Consistent.timeout (now : ℕ) : Consistent (s.timeout now) := by
  have isOld {p : ℕ} (hm : p ∈ (s.timeout now).setP) : p ∈ s.setP :=
    mem_of_mem_filter hm
  apply consistent_of_untouched
  case nobody => exact nobody
  case nodup => exact hc.nodup.filter _
  case known => exact fun p hm => hc.known p (isOld hm)
  case distinct =>
    exact fun p memberP q memberQ => hc.distinct p (isOld memberP) q (isOld memberQ)
  case untouched => exact fun p hm => hc.untouched_of_nil nobody (isOld hm)
  case gone =>
    -- A promise that is purged has not been answered.
    intro p small _
    by_cases hm : p ∈ s.setP
    · exact (hc.untouched_of_nil nobody hm).gone
    · exact hc.gone p small hm

/-! ### The shared lock -/

theorem Consistent.response (promiseId : ℕ) (data : α) :
    Consistent { s with readers := ⟨promiseId, data, .searching⟩ :: s.readers } := by
  have hp (r : Reader α) (hr : r ∈ ⟨promiseId, data, .searching⟩ :: s.readers) :
      r.point = .searching := by
    rw [nobody] at hr
    rw [mem_singleton.mp hr]
  refine ⟨?_, hc.nodup, hc.known, hc.distinct, fun p hm _ => ?_,
    fun r hr p setting => ?_, fun r hr p erasing => ?_, hc.gone⟩
  · rw [nobody]
    exact le_rfl
  · exact hc.untouched_of_nil nobody hm
  · rw [hp r hr] at setting
    cases setting
  · rw [hp r hr] at erasing
    cases erasing

end

/-- Of the promises of the set the first answer changes the one with its id. -/
theorem arrive_of_ne {promiseId : ℕ} {data : α}
    (different : p ∈ s.setP → (s.promises p).promiseId ≠ promiseId) :
    (s.arrive promiseId data).promises p = s.promises p :=
  if_neg fun both => different both.1 both.2.1

/-- The only thread is busy with a promise of the set, and has changed nothing else. -/
theorem Consistent.busy (hc : Consistent s)
    (readers : t.readers = [r]) (setP : t.setP = s.setP) (next : t.next = s.next)
    (hm : p ∈ s.setP) (sameId : (t.promises p).promiseId = (s.promises p).promiseId)
    (others : ∀ q, q ≠ p → t.promises q = s.promises q)
    (untouched : ∀ q ∈ s.setP, q ≠ p → (s.promises q).Untouched)
    (state : r.point = .setting p ∧ (t.promises p).Expecting r.promiseData ∨
      r.point = .erasing p ∧ (t.promises p).Answered) : Consistent t := by
  have only {q : Reader α} (hr : q ∈ t.readers) : q = r := by
    rw [readers] at hr
    exact mem_singleton.mp hr
  have ids (q : ℕ) : (t.promises q).promiseId = (s.promises q).promiseId := by
    by_cases same : q = p
    · rw [same, sameId]
    · rw [others q same]
  constructor
  case alone =>
    rw [readers]
    exact le_rfl
  case nodup => exact setP ▸ hc.nodup
  case known => exact setP ▸ next ▸ hc.known
  case distinct =>
    rw [setP]
    intro q memberQ k memberK same
    rw [ids, ids] at same
    exact hc.distinct q memberQ k memberK same
  case untouched =>
    intro q memberQ free
    have different : q ≠ p := by
      rintro rfl
      obtain ⟨hn, notErasing⟩ := free r (readers ▸ mem_singleton_self r)
      exact state.elim (fun setting => hn setting.1) fun erases => notErasing erases.1
    rw [others q different]
    exact untouched q (setP ▸ memberQ) different
  case expecting =>
    intro q hr k setting
    obtain rfl := only hr
    rcases state with ⟨settingP, expecting⟩ | ⟨erases, -⟩
    · obtain rfl : p = k := Point.setting.inj (settingP.symm.trans setting)
      exact ⟨setP ▸ hm, expecting⟩
    · rw [erases] at setting
      cases setting
  case answered =>
    intro q hr k erases
    obtain rfl := only hr
    rcases state with ⟨setting, -⟩ | ⟨erasingP, answered⟩
    · rw [setting] at erases
      cases erases
    · obtain rfl : p = k := Point.erasing.inj (erasingP.symm.trans erases)
      exact ⟨setP ▸ hm, answered⟩
  case gone =>
    intro q small ha
    have different : q ≠ p := by
      rintro rfl
      exact ha (setP ▸ hm)
    rw [others q different]
    exact hc.gone q (next ▸ small) (setP ▸ ha)

variable [DecidableEq α]

section

variable (hc : Consistent s)

include hc

/-- The only thread leaves. -/
theorem Consistent.erase_eq_nil (hr : r ∈ s.readers) : s.readers.erase r = [] := by
  rw [hc.readers_eq hr, erase_cons_head]

theorem Consistent.sound : Sound s where
  distinct := hc.distinct
  first p small := by
    rcases hc.fate small with gone | ⟨r, hr, setting, expecting⟩
    · exact .inl gone.value
    · exact .inr ⟨expecting.value, r, hr, setting, expecting.first⟩
  once p small := by
    rcases hc.fate small with gone | ⟨r, -, -, expecting⟩
    · exact ⟨gone.sets, gone.erases⟩
    · exact ⟨expecting.sets ▸ Nat.zero_le 1, expecting.erases ▸ Nat.zero_le 1⟩
  exclusive := by
    rintro ⟨r, hr, -, q, ho, -⟩
    rw [hc.erase_eq_nil hr] at ho
    cases ho

variable (hr : r ∈ s.readers)

include hr

theorem Consistent.find_none (hp : r.point = .searching) (missing : s.find r.promiseId = none) :
    Consistent ((s.arrive r.promiseId r.promiseData).leave r) := by
  have promises (p : ℕ) : (s.arrive r.promiseId r.promiseData).promises p = s.promises p :=
    arrive_of_ne fun hm => by simpa using find?_eq_none.mp missing p hm
  apply consistent_of_untouched
  case nobody => exact hc.erase_eq_nil hr
  case nodup => exact hc.nodup
  case known => exact hc.known
  case distinct =>
    intro p memberP q memberQ same
    rw [leave, promises, promises] at same
    exact hc.distinct p memberP q memberQ same
  case untouched =>
    intro p hm
    rw [leave, promises]
    exact hc.untouched_of hr hm (by simp [hp])
  case gone =>
    intro p small ha
    rw [leave, promises]
    exact hc.gone p small ha

theorem Consistent.find_some (hp : r.point = .searching) (found : s.find r.promiseId = some p) :
    Consistent ((s.arrive r.promiseId r.promiseData).goTo r (.setting p)) := by
  have hm : p ∈ s.setP := mem_of_find?_eq_some found
  have sameId : (s.promises p).promiseId = r.promiseId := by simpa using find?_some found
  have untouched (q : ℕ) (memberQ : q ∈ s.setP) : (s.promises q).Untouched :=
    hc.untouched_of hr memberQ (by simp [hp])
  have first : (s.arrive r.promiseId r.promiseData).promises p =
      { s.promises p with first := some r.promiseData } :=
    if_pos ⟨hm, sameId, (untouched p hm).first⟩
  apply hc.busy
  case readers => exact congrArg (_ :: ·) (hc.erase_eq_nil hr)
  case setP | next => rfl
  case hm => exact hm
  case sameId => rw [goTo, first]
  case others =>
    intro q different
    exact arrive_of_ne fun memberQ hs =>
      different (hc.distinct q memberQ p hm (hs.trans sameId.symm))
  case untouched => exact fun q memberQ _ => untouched q memberQ
  case state =>
    obtain ⟨value, -, sets, erases⟩ := untouched p hm
    refine .inl ⟨rfl, ?_⟩
    rw [goTo, first]
    exact ⟨value, rfl, sets, erases⟩

theorem Consistent.setValue (hp : r.point = .setting p) :
    Consistent ((s.setValue p r.promiseData).goTo r (.erasing p)) := by
  obtain ⟨hm, value, first, sets, erases⟩ := hc.expecting r hr p hp
  have self : (s.setValue p r.promiseData).promises p =
      { s.promises p with value := some r.promiseData, sets := (s.promises p).sets + 1 } :=
    update_self ..
  apply hc.busy
  case readers => exact congrArg (_ :: ·) (hc.erase_eq_nil hr)
  case setP | next => rfl
  case hm => exact hm
  case sameId => rw [goTo, self]
  case others => exact fun q different => update_of_ne different ..
  case untouched =>
    exact fun q busy different => hc.untouched_of hr busy (by simp [hp, different.symm])
  case state =>
    refine .inr ⟨rfl, ?_⟩
    rw [goTo, self]
    exact ⟨first.symm, by rw [sets], erases⟩

theorem Consistent.erase (hp : r.point = .erasing p) : Consistent ((s.erase p).leave r) := by
  obtain ⟨hm, value, sets, erases⟩ := hc.answered r hr p hp
  have self : (s.erase p).promises p = { s.promises p with erases := (s.promises p).erases + 1 } :=
    update_self ..
  have others {q : ℕ} (different : q ≠ p) : (s.erase p).promises q = s.promises q :=
    update_of_ne different ..
  have remains {q : ℕ} : q ∈ (s.erase p).setP ↔ q ≠ p ∧ q ∈ s.setP :=
    hc.nodup.mem_erase_iff
  apply consistent_of_untouched
  case nobody => exact hc.erase_eq_nil hr
  case nodup => exact hc.nodup.erase p
  case known => exact fun q memberQ => hc.known q (remains.mp memberQ).2
  case distinct =>
    intro q memberQ k memberK same
    obtain ⟨differentQ, memberQ⟩ := remains.mp memberQ
    obtain ⟨differentK, memberK⟩ := remains.mp memberK
    rw [leave, others differentQ, others differentK] at same
    exact hc.distinct q memberQ k memberK same
  case untouched =>
    intro q memberQ
    obtain ⟨different, memberQ⟩ := remains.mp memberQ
    rw [leave, others different]
    exact hc.untouched_of hr memberQ (by simp [hp, different.symm])
  case gone =>
    intro q small ha
    by_cases same : q = p
    · rw [leave, same, self]
      exact ⟨value, sets, by rw [erases]⟩
    · rw [leave, others same]
      exact hc.gone q small fun memberQ => ha (remains.mpr ⟨same, memberQ⟩)

end

/-! ### Runs -/

theorem Consistent.step (l : Access α) (hc : Consistent s)
    (hs : s.Separate l) (taken : s.step l = some t) : Consistent t := by
  cases l with
  | addNewPromise now handler =>
    obtain ⟨nobody, ⟨⟩⟩ := ite_none_right_eq_some.mp taken
    exact hc.addNewPromise nobody hs now handler
  | timeout now =>
    obtain ⟨nobody, ⟨⟩⟩ := ite_none_right_eq_some.mp taken
    exact hc.timeout nobody now
  | response messageId data =>
    cases messageId with
    | none =>
      cases taken
      exact hc
    | some messageId =>
      cases taken
      exact hc.response hs _ data
  | find r =>
    simp only [FutureHelper.step] at taken
    split at taken
    case isFalse => cases taken
    case isTrue enabled =>
      cases found : s.find r.promiseId with
      | none =>
        rw [found] at taken
        cases taken
        exact hc.find_none enabled.1 enabled.2 found
      | some p =>
        rw [found] at taken
        cases taken
        exact hc.find_some enabled.1 enabled.2 found
  | setValue r throws =>
    obtain rfl : throws = false := hs
    simp only [FutureHelper.step] at taken
    cases hp : r.point with
    | searching | erasing p =>
      rw [hp] at taken
      cases taken
    | setting p =>
      simp only [hp] at taken
      split at taken
      case isFalse => cases taken
      case isTrue enabled =>
        have waits := (hc.expecting r enabled.1 p hp).2.value
        rw [if_pos waits] at taken
        cases taken
        exact hc.setValue enabled.1 hp
  | erase r =>
    simp only [FutureHelper.step] at taken
    cases hp : r.point with
    | searching | setting p =>
      rw [hp] at taken
      cases taken
    | erasing p =>
      simp only [hp] at taken
      obtain ⟨hr, ⟨⟩⟩ := ite_none_right_eq_some.mp taken
      exact hc.erase hr hp

/-- Whatever the threads do, and in whatever order. -/
theorem sound_of_separate {promiseTimeout : ℕ} {accesses : List (Access α)}
    {s : FutureHelper α} (separate : Admissible step Separate (init promiseTimeout) accesses)
    (run : execute step (init promiseTimeout) accesses = some s) : Sound s :=
  (separate.invariant (Consistent.step _) (consistent_init promiseTimeout) run).sound

/-- Two requests, of which the first is answered twice and the second is purged. -/
def accessesInTurn : List (Access String) :=
  [.addNewPromise 0 false, .addNewPromise 10 false, .response (some 0) "yes",
    .find ⟨0, "yes", .searching⟩, .setValue ⟨0, "yes", .setting 0⟩ false,
    .erase ⟨0, "yes", .erasing 0⟩, .response (some 0) "no", .find ⟨0, "no", .searching⟩,
    .timeout 40000]

theorem sound_of_separate_inTurn :
    ∃ s, execute step (init 30000) accessesInTurn = some s ∧
      Admissible step Separate (init 30000) accessesInTurn ∧ Sound s ∧
      (s.promises 0).value = some "yes" ∧ (s.promises 1).value = none ∧ s.setP = [] := by
  have hs : Admissible step Separate (init 30000) accessesInTurn := by decide
  exact ⟨_, rfl, hs, sound_of_separate hs rfl, rfl, rfl, by decide⟩

/-- Two answers with the same id: while one of them is about to erase the promise the other one is
searching for it. -/
theorem answers_race :
    ∃ s, execute step (init 30000 : FutureHelper String)
        [.addNewPromise 0 false, .response (some 0) "yes", .response (some 0) "no",
          .find ⟨0, "yes", .searching⟩, .setValue ⟨0, "yes", .setting 0⟩ false] = some s ∧
      s.Race ∧ ¬ Sound s := by
  refine ⟨_, rfl, ?_, fun sound => sound.exclusive ?_⟩
  all_goals
    exact ⟨⟨0, "yes", .erasing 0⟩, by decide, by decide, ⟨0, "no", .searching⟩, by decide, .inl rfl⟩

end FutureHelper

end ChaosFramework.Thread
