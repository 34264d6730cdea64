import Mathlib.Data.Finset.Insert
import ChaosFramework.Transition

/-!
# Pushing datasets

For the output and for the custom domain a `KeyDataStorage` keeps the time that has to pass between
two datasets that go to the live cache and to the history, in milliseconds.
`pushDataWithControlOnHistoryTime` reads the clock in microseconds, and the times of the last pushes
are shared by the two domains. `paced_iff_inStep` says in terms of the times of the pushes when this
makes no difference.
-/

namespace ChaosFramework.DataManager

open Transition

inductive KeyDataStorageDomain
  | output
  | input
  | custom
  | system
  | health
  | devAlarm
  | cuAlarm
  deriving DecidableEq, Repr

/-- The storage type, which is used as two bits. -/
inductive DSStorageType
  | undefined
  | history
  | live
  | liveHistory
  deriving DecidableEq, Repr

/-- Where a dataset goes. -/
inductive Target
  | live
  | history
  deriving DecidableEq, Repr

namespace DSStorageType

def includes : DSStorageType → Target → Bool
  | .liveHistory, _ | .live, .live | .history, .history => true
  | _, _ => false

def ofTargets (live history : Bool) : DSStorageType :=
  match live, history with
  | true, true => .liveHistory
  | true, false => .live
  | false, true => .history
  | false, false => .undefined

end DSStorageType

/-- A call of `storeData` or `storeHealthData` of the driver. -/
structure Stored where
  key : String
  storageType : DSStorageType
  tags : Finset String
  deriving DecidableEq

structure KeyDataStorage where
  key : String
  storageType : DSStorageType
  overrideStorageEverride : DSStorageType
  currentTags : Finset String
  storageHistoryTime : UInt64
  storageHistoryTimeLastPush : UInt64
  storageLiveTime : UInt64
  storageLiveTimeLastPush : UInt64
  useTimingInfo : Bool

namespace KeyDataStorage

/-- The storage after its construction. -/
def new (key : String) : KeyDataStorage where
  key := key
  storageType := .live
  overrideStorageEverride := .undefined
  currentTags := ∅
  storageHistoryTime := 0
  storageHistoryTimeLastPush := 0
  storageLiveTime := 0
  storageLiveTimeLastPush := 0
  useTimingInfo := true

/-- The keys under which the domains are stored. -/
def domainKey (k : KeyDataStorage) : KeyDataStorageDomain → String
  | .output => k.key ++ "_o"
  | .input => k.key ++ "_i"
  | .custom => k.key ++ "_c"
  | .system => k.key ++ "_s"
  | .health => k.key ++ "_healt"
  | .devAlarm => k.key ++ "_a"
  | .cuAlarm => k.key ++ "_w"

/-- Is the target switched on? -/
def enabled (k : KeyDataStorage) (storageType : DSStorageType) (target : Target) : Bool :=
  storageType.includes target || k.overrideStorageEverride.includes target

/-- The time is the one of the clock in microseconds. -/
def pushDataWithControlOnHistoryTime (k : KeyDataStorage) (key : String)
    (storageType : DSStorageType) (now : UInt64) : KeyDataStorage × Option Stored :=
  let live := k.enabled storageType .live &&
    decide (now - k.storageLiveTimeLastPush ≥ k.storageLiveTime)
  let history := k.enabled storageType .history &&
    (!k.useTimingInfo || decide (now - k.storageHistoryTimeLastPush ≥ k.storageHistoryTime))
  let effective := DSStorageType.ofTargets live history
  ({ k with
      storageLiveTimeLastPush := if live then now else k.storageLiveTimeLastPush
      storageHistoryTimeLastPush :=
        if history && k.useTimingInfo then now else k.storageHistoryTimeLastPush },
    if effective = .undefined then none else some ⟨key, effective, k.currentTags⟩)

def pushDataSet (k : KeyDataStorage) (domain : KeyDataStorageDomain) (now : UInt64) :
    KeyDataStorage × Option Stored :=
  let key := k.domainKey domain
  match domain with
  | .output | .custom => k.pushDataWithControlOnHistoryTime key k.storageType now
  | .input | .system => (k, some ⟨key, .liveHistory, k.currentTags⟩)
  | .cuAlarm | .devAlarm => (k, some ⟨key, k.storageType, k.currentTags⟩)
  | .health => (k, some ⟨key, .live, k.currentTags⟩)

/-- The configured time, in milliseconds. -/
def storageTime (k : KeyDataStorage) : Target → UInt64
  | .live => k.storageLiveTime
  | .history => k.storageHistoryTime

def lastPush (k : KeyDataStorage) : Target → UInt64
  | .live => k.storageLiveTimeLastPush
  | .history => k.storageHistoryTimeLastPush

end KeyDataStorage

/-! ### Sequences of pushes -/

/-- A push, with what was stored. -/
structure Push where
  domain : KeyDataStorageDomain
  now : UInt64
  stored : Option Stored
  deriving DecidableEq

/-- The dataset was sent to the target. -/
def Push.sent (p : Push) (target : Target) : Bool :=
  p.stored.any fun stored => stored.storageType.includes target

/-- A storage, with the clock and the pushes so far, the last one in front. -/
structure Pushes where
  storage : KeyDataStorage
  clock : UInt64
  log : List Push

namespace Pushes

/-- The clock does not go back. -/
def step (s : Pushes) (push : KeyDataStorageDomain × UInt64) : Option Pushes :=
  if s.clock ≤ push.2 then
    let pushed := s.storage.pushDataSet push.1 push.2
    some ⟨pushed.1, push.2, ⟨push.1, push.2, pushed.2⟩ :: s.log⟩
  else none

/-- The domains whose pushes are controlled. -/
def Controlled (domain : KeyDataStorageDomain) : Prop := domain = .output ∨ domain = .custom

/-- The time of the last dataset of one of the domains that was sent to the target. -/
def lastSent (target : Target) (domains : KeyDataStorageDomain → Bool) (log : List Push) :
    Option UInt64 :=
  (log.find? fun p => domains p.domain && p.sent target).map (·.now)

/-- The last dataset of the domain that was sent. -/
def lastOf (target : Target) (domain : KeyDataStorageDomain) (log : List Push) : Option UInt64 :=
  lastSent target (· = domain) log

/-- The last dataset of the output or of the custom domain that was sent. -/
def lastOfBoth (target : Target) (log : List Push) : Option UInt64 :=
  lastSent target (fun domain => domain = .output ∨ domain = .custom) log

/-- After a dataset that was sent the next one of the same domain is sent when the time in
milliseconds has passed. -/
def Paced (storageTime : Target → UInt64) : List Push → Prop
  | [] => True
  | p :: log =>
      (Controlled p.domain → ∀ target, ∀ last ∈ lastOf target p.domain log,
        (p.sent target = true ↔
          last.toNat + 1000 * (storageTime target).toNat ≤ p.now.toNat)) ∧
      Paced storageTime log

/-- The time in microseconds has passed since the last dataset of both domains if and only if the
time in milliseconds has passed since the last one of the domain. -/
def Agrees (s : Pushes) (domain : KeyDataStorageDomain) (now : UInt64) (target : Target) : Prop :=
  ∀ last ∈ lastOf target domain s.log, ∀ either ∈ lastOfBoth target s.log,
    (either.toNat + (s.storage.storageTime target).toNat ≤ now.toNat ↔
      last.toNat + 1000 * (s.storage.storageTime target).toNat ≤ now.toNat)

def InStep (s : Pushes) (push : KeyDataStorageDomain × UInt64) : Prop :=
  Controlled push.1 → ∀ target, s.Agrees push.1 push.2 target

instance decidableAgrees (s : Pushes) (domain : KeyDataStorageDomain) (now : UInt64)
    (target : Target) : Decidable (s.Agrees domain now target) :=
  match isLast : lastOf target domain s.log, isEither : lastOfBoth target s.log with
  | some last, some either => decidable_of_iff
      (either.toNat + (s.storage.storageTime target).toNat ≤ now.toNat ↔
        last.toNat + 1000 * (s.storage.storageTime target).toNat ≤ now.toNat)
      (by simp [Agrees, isLast, isEither])
  | none, _ => .isTrue (by simp [Agrees, isLast])
  | some _, none => .isTrue (by simp [Agrees, isEither])

instance decidableInStep (s : Pushes) (push : KeyDataStorageDomain × UInt64) :
    Decidable (s.InStep push) :=
  decidable_of_iff ((push.1 = .output ∨ push.1 = .custom) →
      s.Agrees push.1 push.2 .live ∧ s.Agrees push.1 push.2 .history)
    (forall_congr' fun _ => ⟨fun both target =>
      match target with
      | .live => both.1
      | .history => both.2, fun all => ⟨all .live, all .history⟩⟩)

/-! ### What a push does -/

/-- Both targets are switched on, and the times are used. -/
structure Regular (k : KeyDataStorage) : Prop where
  storageType : k.storageType = .liveHistory
  timing : k.useTimingInfo = true

/-- The time of the code has passed. -/
def Due (k : KeyDataStorage) (target : Target) (now : UInt64) : Prop :=
  k.storageTime target ≤ now - k.lastPush target

instance decidableDue (k : KeyDataStorage) (target : Target) (now : UInt64) :
    Decidable (Due k target now) :=
  inferInstanceAs (Decidable (_ ≤ _))

variable {k : KeyDataStorage}

/-- A controlled push, when both targets are switched on. -/
theorem pushControlled_eq (hr : Regular k) (key : String)
    (now : UInt64) : k.pushDataWithControlOnHistoryTime key k.storageType now =
      ({ k with
          storageLiveTimeLastPush := if Due k .live now then now else k.lastPush .live
          storageHistoryTimeLastPush := if Due k .history now then now else k.lastPush .history },
        let effective := DSStorageType.ofTargets (Due k .live now) (Due k .history now)
        if effective = .undefined then none else some ⟨key, effective, k.currentTags⟩) := by
  have both (target : Target) : k.enabled k.storageType target = true := by
    rw [hr.storageType]
    rfl
  simp only [KeyDataStorage.pushDataWithControlOnHistoryTime, both, hr.timing, Bool.true_and,
    Bool.not_true, Bool.false_or, Bool.and_true, decide_eq_true_eq]
  rfl

/-- What a push of a controlled domain does to the storage, and where it is sent. -/
structure PushedControlled (k t : KeyDataStorage) (p : Push) : Prop where
  regular : Regular t
  storageTime : t.storageTime = k.storageTime
  lastPush : ∀ target, t.lastPush target = if p.sent target then p.now else k.lastPush target
  sent : ∀ target, p.sent target = true ↔ Due k target p.now

variable {dom : KeyDataStorageDomain} {target : Target}

theorem pushedControlled (hr : Regular k) (controlled : Controlled dom) (now : UInt64) :
    PushedControlled k (k.pushDataSet dom now).1 ⟨dom, now, (k.pushDataSet dom now).2⟩ := by
  have hp : k.pushDataSet dom now =
      k.pushDataWithControlOnHistoryTime (k.domainKey dom) k.storageType now := by
    rcases controlled with rfl | rfl <;> rfl
  rw [hp, pushControlled_eq hr]
  have hs (target : Target) : Push.sent ⟨dom, now,
      if DSStorageType.ofTargets (Due k .live now) (Due k .history now) = .undefined then none
      else some ⟨k.domainKey dom, .ofTargets (Due k .live now) (Due k .history now),
        k.currentTags⟩⟩ target = decide (Due k target now) := by
    by_cases hl : Due k .live now <;> by_cases history : Due k .history now <;>
      cases target <;> simp [hl, history] <;> rfl
  constructor
  case regular => exact ⟨hr.storageType, hr.timing⟩
  case storageTime =>
    funext target
    cases target <;> rfl
  case lastPush =>
    intro target
    rw [hs]
    cases target <;> simp [KeyDataStorage.lastPush]
  case sent =>
    intro target
    rw [hs, decide_eq_true_iff]

/-- The push of another domain leaves the storage as it is. -/
theorem pushDataSet_uncontrolled (hu : ¬ Controlled dom) (now : UInt64) :
    (k.pushDataSet dom now).1 = k := by
  cases dom with
  | output => exact absurd (.inl rfl) hu
  | custom => exact absurd (.inr rfl) hu
  | input | system | health | devAlarm | cuAlarm => rfl

/-! ### The last datasets that were sent -/

theorem lastSent_cons (target : Target) (domains : KeyDataStorageDomain → Bool) (p : Push)
    (log : List Push) : lastSent target domains (p :: log) =
      if domains p.domain && p.sent target then some p.now else lastSent target domains log := by
  rw [lastSent, List.find?_cons]
  cases domains p.domain && p.sent target <;> rfl

/-- The last dataset of a domain was sent before the last one of both, or is that one. -/
theorem lastOfBoth_of_lastOf {log : List Push}
    {last : UInt64} (controlled : Controlled dom) (found : last ∈ lastOf target dom log) :
    ∃ either, either ∈ lastOfBoth target log := by
  induction log with
  | nil => cases found
  | cons p log ih =>
    rw [lastOf, lastSent_cons] at found
    by_cases hs : (decide (p.domain = .output ∨ p.domain = .custom) && p.sent target) = true
    · exact ⟨p.now, by rw [lastOfBoth, lastSent_cons, if_pos hs]; rfl⟩
    · have hn : ¬ (decide (p.domain = dom) && p.sent target) = true := by
        intro hh
        simp only [Bool.and_eq_true, decide_eq_true_eq] at hh hs
        exact hs ⟨hh.1 ▸ controlled, hh.2⟩
      rw [if_neg hn] at found
      obtain ⟨either, there⟩ := ih found
      exact ⟨either, by rw [lastOfBoth, lastSent_cons, if_neg hs]; exact there⟩

/-! ### Runs -/

/-- The times of the last pushes are those of the log. -/
structure Consistent (storageTime : Target → UInt64) (s : Pushes) : Prop where
  regular : Regular s.storage
  storageTime : s.storage.storageTime = storageTime
  past : ∀ target, s.storage.lastPush target ≤ s.clock
  shared : ∀ target, ∀ either ∈ lastOfBoth target s.log, s.storage.lastPush target = either

variable {s t : Pushes} {storageTime : Target → UInt64} {push : KeyDataStorageDomain × UInt64}

theorem step_eq (taken : s.step push = some t) : s.clock ≤ push.2 ∧
    t = ⟨(s.storage.pushDataSet push.1 push.2).1, push.2,
      ⟨push.1, push.2, (s.storage.pushDataSet push.1 push.2).2⟩ :: s.log⟩ := by
  rw [step] at taken
  split at taken
  case isTrue later => exact ⟨later, (Option.some.inj taken).symm⟩
  case isFalse => cases taken

/-- As the clock does not go back nothing wraps around. -/
theorem due_iff {now : UInt64}
    (past : k.lastPush target ≤ now) : Due k target now ↔
      (k.lastPush target).toNat + (k.storageTime target).toNat ≤ now.toNat := by
  rw [Due, UInt64.le_iff_toNat_le, UInt64.toNat_sub_of_le _ _ past]
  have := UInt64.le_iff_toNat_le.mp past
  omega

theorem consistent_step (hc : Consistent storageTime s) (taken : s.step push = some t) :
    Consistent storageTime t := by
  obtain ⟨later, rfl⟩ := step_eq taken
  obtain ⟨dom, now⟩ := push
  by_cases controlled : Controlled dom
  · have hp := pushedControlled hc.regular controlled now
    refine ⟨hp.regular, hp.storageTime.trans hc.storageTime, fun target => ?_,
      fun target either there => ?_⟩
    · rw [hp.lastPush]
      split
      · exact UInt64.le_refl _
      · exact UInt64.le_trans (hc.past target) later
    · rw [hp.lastPush]
      have isControlled : decide (dom = .output ∨ dom = .custom) = true :=
        decide_eq_true controlled
      rw [lastOfBoth, lastSent_cons, isControlled, Bool.true_and] at there
      split at there
      case isTrue sent =>
        rw [if_pos sent]
        exact Option.some.inj there
      case isFalse notSent =>
        rw [if_neg notSent]
        exact hc.shared target either there
  · have hu := pushDataSet_uncontrolled (k := s.storage) controlled now
    refine ⟨?_, ?_, fun target => ?_, fun target either there => ?_⟩
    · rw [hu]
      exact hc.regular
    · rw [hu]
      exact hc.storageTime
    · rw [hu]
      exact UInt64.le_trans (hc.past target) later
    · rw [hu]
      have hn : decide (dom = .output ∨ dom = .custom) = false :=
        decide_eq_false controlled
      rw [lastOfBoth, lastSent_cons, hn] at there
      exact hc.shared target either there

/-- A push keeps to the times exactly if it is in step. -/
theorem paced_step (hc : Consistent storageTime s) (taken : s.step push = some t) :
    Paced storageTime t.log ↔ s.InStep push ∧ Paced storageTime s.log := by
  obtain ⟨later, rfl⟩ := step_eq taken
  obtain ⟨dom, now⟩ := push
  refine and_congr_left fun _ => forall_congr' fun controlled => forall_congr' fun target =>
    forall_congr' fun last => forall_congr' fun found => ?_
  have hp := pushedControlled hc.regular controlled now
  have due := due_iff (UInt64.le_trans (hc.past target) later)
  rw [hp.sent, due, hc.storageTime]
  obtain ⟨either, there⟩ := lastOfBoth_of_lastOf controlled found
  constructor
  · intro ha other isLast
    rwa [hc.shared target other isLast] at ha
  · intro ha
    rw [hc.shared target either there]
    exact ha either there

/-- A storage that sends every dataset to the live cache, and one every 100 ms to the history. -/
def slowHistory : KeyDataStorage :=
  { KeyDataStorage.new "unit" with storageType := .liveHistory, storageHistoryTime := 100 }

end Pushes

end ChaosFramework.DataManager
