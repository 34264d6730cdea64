import Mathlib.Data.Int.Notation
import Mathlib.Data.List.Count
import ChaosFramework.Transition

/-!
# Timers

`AsyncCentralManager` installs and removes timers. A callback runs in the thread of the event loop,
calls `timeout` and waits again. `removeTimer` cancels the timer, or waits until the callback has
seen that the handler was stopped.

A callback clears `cicle_test` before it takes the mutex: a `removeTimer` in between returns while
the callback is still to come. A cancelled wait leaves `cicle_test` set, so that another
`removeTimer` waits forever. `addTimer` does not take the mutex, and a repetition time of zero is
divided by. `sound_of_orderly_timers` says that this is all.
-/

namespace ChaosFramework.AsyncCentral

open Transition List Option

structure TimerHandler where
  stoppped : Bool
  needSignal : Bool
  cicleTest : Bool
  stopMe : Bool
  /-- There is a timer. -/
  timer : Bool
  delay : ℕ
  deriving DecidableEq, Repr

namespace TimerHandler

def new : TimerHandler := ⟨false, false, false, false, false, 0⟩

/-- `reset` up to the timer. -/
def resetTimer (h : TimerHandler) : TimerHandler :=
  { h with needSignal := false, stoppped := false, cicleTest := false, timer := false }

def reset (h : TimerHandler) : TimerHandler := { h.resetTimer with delay := 0 }

end TimerHandler

/-- A callback that is ready to be called, with the error code of a wait that was aborted. -/
inductive Completion
  | expired
  | aborted
  deriving DecidableEq, Repr

/-- Where the event loop is in `timerTimeout`. -/
inductive Point
  | idle
  /-- The callback has been called without an error. -/
  | dispatched
  /-- It has cleared the flags. -/
  | locking
  /-- It has the mutex. -/
  | testing
  | calling
  /-- `timeout` has taken the given time. -/
  | deciding (spentTime : ℤ)
  | finishing
  /-- The timer has been reset, and the delay has not. -/
  | resetting
  deriving DecidableEq, Repr

/-- The loop has the mutex of the handler. -/
def Point.locks : Point → Bool
  | .idle | .dispatched | .locking => false
  | _ => true

/-- The callback may wait again. -/
def Point.continues : Point → Bool
  | .dispatched | .locking | .testing | .calling | .deciding _ => true
  | _ => false

/-- Where the thread is that has the mutex of the manager. -/
inductive Caller
  | idle
  /-- `addTimer`, before it waits. -/
  | arming
  /-- `removeTimer`, before it has the mutex of the handler. -/
  | removing
  /-- It waits for the condition. -/
  | waiting
  /-- It has returned from the handler and is to reset the timer. -/
  | disposing
  deriving DecidableEq, Repr

structure Timing where
  handler : TimerHandler
  /-- The timer has a wait that has not expired. -/
  armed : Bool
  queue : List Completion
  loop : Point
  caller : Caller
  /-- The condition has been notified. -/
  notified : Bool
  /-- `removeTimer` has returned, and `addTimer` has not been called since. -/
  removed : Bool
  /-- The program has divided by zero. -/
  crashed : Bool
  deriving DecidableEq, Repr

namespace Timing

def init : Timing := ⟨.new, false, [], .idle, .idle, false, false, false⟩

/-- The wait of the timer is aborted. -/
def abort (s : Timing) : Timing :=
  if s.armed then { s with armed := false, queue := s.queue ++ [.aborted] } else s

/-- `wait`. A new time of expiry aborts the wait that there is. -/
def wait (s : Timing) : Timing :=
  if s.handler.timer then
    { s.abort with armed := true, handler := { s.handler with cicleTest := true } }
  else s

/-- The event loop goes on. The time is that of a call of `timeout` which ends. -/
def advance (s : Timing) (spentTime : ℤ) : Option Timing :=
  match s.loop with
  | .idle =>
      match s.queue with
      | [] => none
      | .aborted :: rest => some { s with queue := rest }
      | .expired :: rest => some { s with queue := rest, loop := .dispatched }
  | .dispatched =>
      some { s with
        loop := .locking, handler := { s.handler with cicleTest := false, stopMe := false } }
  | .locking => some { s with loop := .testing }
  | .testing => some { s with loop := if s.handler.stoppped then .finishing else .calling }
  | .calling => some { s with loop := .deciding spentTime }
  | .deciding spent =>
      if s.handler.stopMe then
        some { s.abort with handler := s.handler.resetTimer, loop := .resetting }
      else if s.handler.delay < spent.natAbs ∧ s.handler.delay = 0 then
        some { s with crashed := true, loop := .finishing }
      else some { s.wait with loop := .finishing }
  | .finishing =>
      some { s with
        loop := .idle
        handler := { s.handler with
          cicleTest := if s.handler.stoppped then false else s.handler.cicleTest }
        notified := s.notified || (s.handler.needSignal && decide (s.caller = .waiting)) }
  | .resetting => some { s with loop := .idle, handler := { s.handler with delay := 0 } }

/-- `TimerHandler::removeTimer` with the mutex, up to its end or to the condition. -/
def removeTimer (s : Timing) : Timing :=
  let remain := s.handler.timer && s.armed
  let t := if s.handler.timer then s.abort else s
  if !remain && s.handler.cicleTest then
    { t with
      handler := { s.handler with stoppped := true, needSignal := true }
      caller := .waiting
      notified := false }
  else { t with handler := { s.handler with stoppped := true }, caller := .disposing }

end Timing

inductive TimerMove
  | addTimer (repeatTime : ℕ)
  /-- `addTimer` waits for the first time. -/
  | arm
  | removeTimer
  /-- `removeTimer` gets the mutex. -/
  | enter
  /-- `removeTimer` wakes up, with or without a notification. -/
  | wake
  /-- The manager resets the timer. -/
  | dispose
  | stopMe
  | expire
  | loop (spentTime : ℤ)
  deriving DecidableEq, Repr

namespace Timing

def step (s : Timing) : TimerMove → Option Timing
  | .addTimer repeatTime =>
      if s.caller = .idle then
        if s.handler.timer then some s
        else some { s with
          handler := { s.handler.reset with timer := true, delay := repeatTime }
          caller := .arming
          removed := false }
      else none
  | .arm => if s.caller = .arming then some { s.wait with caller := .idle } else none
  | .removeTimer => if s.caller = .idle then some { s with caller := .removing } else none
  | .enter => if s.caller = .removing ∧ s.loop.locks = false then some s.removeTimer else none
  | .wake =>
      if s.caller = .waiting ∧ s.loop.locks = false then
        if s.handler.cicleTest then some { s with notified := false }
        else some { s with caller := .disposing }
      else none
  | .dispose =>
      if s.caller = .disposing then
        some { s.abort with
          handler := { s.handler with timer := false }, caller := .idle, removed := true }
      else none
  | .stopMe => some { s with handler := { s.handler with stopMe := true } }
  | .expire =>
      if s.armed then some { s with armed := false, queue := s.queue ++ [.expired] } else none
  | .loop spentTime => s.advance spentTime

/-- The callbacks in the queue that are called without an error. -/
def queued (s : Timing) : ℕ := s.queue.count .expired

/-- The chains of callbacks: a wait of the timer, a callback in the queue, and one that may wait
again. -/
def chains (s : Timing) : ℕ := s.armed.toNat + s.queued + s.loop.continues.toNat

/-- Within the given number of its steps the event loop comes to a state with the property. -/
def Reaches (s : Timing) (bound : ℕ) (P : Timing → Prop) : Prop :=
  ∃ n ≤ bound, ∃ t, execute step s (List.replicate n (.loop 0)) = some t ∧ P t

/-- The mutex becomes free within the given number of steps. -/
def Frees (s : Timing) (bound : ℕ) : Prop := s.Reaches bound fun t => t.loop.locks = false

/-- The next step of `removeTimer` brings it to its end. -/
def Woken (s : Timing) : Prop :=
  s.loop.locks = false ∧ s.handler.cicleTest = false ∧ s.notified = true

structure Sound (s : Timing) : Prop where
  /-- The mutex becomes free for `removeTimer`. -/
  enters : s.caller = .removing → s.Frees 5
  /-- A `removeTimer` that waits is woken up. -/
  returns : s.caller = .waiting → s.Reaches (s.queue.length + 5) Woken
  quiet : s.removed = true → s.loop = .idle
  single : s.chains ≤ 1
  intact : s.crashed = false

/-- `removeTimer` looks at the flags when no callback is before the mutex, and is not called again
for a wait that was cancelled; `addTimer` is not called while a callback stops itself, and gets a
time that is not zero. -/
def Orderly (s : Timing) : TimerMove → Prop
  | .addTimer repeatTime => repeatTime ≠ 0 ∧ s.loop ≠ .resetting
  | .enter => s.loop ≠ .locking ∧ (s.handler.timer = true ∨ s.handler.cicleTest = false)
  | .wake => s.loop ≠ .locking
  | _ => True

instance decidableOrderly (s : Timing) (l : TimerMove) : Decidable (s.Orderly l) := by
  unfold Orderly
  split <;> infer_instance

/-! ### The invariant -/

structure Consistent (s : Timing) : Prop where
  single : s.chains ≤ 1
  /-- The flag is set as long as the callback has not begun. -/
  flagged : s.armed = true ∨ 0 < s.queued ∨ s.loop = .dispatched → s.handler.cicleTest = true
  tracked : s.handler.cicleTest = true → s.handler.timer = true → s.handler.stoppped = false →
    s.armed = true ∨ 0 < s.queued ∨ s.loop = .dispatched
  uninstalled : s.handler.timer = false →
    s.armed = false ∧ s.queued = 0 ∧ (s.loop = .idle ∨ s.loop = .resetting)
  resetting : s.loop = .resetting → s.handler.timer = false
  stopped : s.handler.stoppped = true →
    s.caller = .waiting ∨ s.caller = .disposing ∨ s.handler.timer = false
  running : s.loop = .calling ∨ (∃ spent, s.loop = .deciding spent) → s.handler.stoppped = false
  delay : s.handler.timer = true → s.handler.delay ≠ 0
  arming : s.caller = .arming → s.handler.timer = true ∧ s.armed = false ∧ s.queued = 0 ∧
    s.loop = .idle ∧ s.handler.stoppped = false
  /-- What a `removeTimer` waits for, and that it is going to be told. -/
  waiting : s.caller = .waiting →
    s.handler.stoppped = true ∧ s.handler.needSignal = true ∧ s.armed = false ∧
      (s.handler.cicleTest = true ∧ (0 < s.queued ∧ s.loop = .idle ∨ s.loop = .dispatched) ∨
        s.queued = 0 ∧ (s.loop = .locking ∨ s.loop = .testing ∨ s.loop = .finishing) ∨
        s.queued = 0 ∧ s.loop = .idle ∧ s.handler.cicleTest = false ∧ s.notified = true)
  disposing : s.caller = .disposing → s.loop = .idle ∧ s.armed = false ∧ s.queued = 0
  removed : s.removed = true → s.handler.timer = false ∧ s.loop = .idle
  intact : s.crashed = false

attribute [local simp] chains queued Point.continues

theorem consistent_init : Consistent init := by
  constructor <;> simp [init, TimerHandler.new]

variable {s t : Timing}

theorem abort_of_not_armed (hn : s.armed = false) : s.abort = s := by
  rw [abort, hn]
  rfl

section

variable (hc : Consistent s)

include hc

/-- The only chain is the callback that runs. -/
theorem Consistent.alone (continues : s.loop.continues = true) :
    s.armed = false ∧ s.queued = 0 ∧ s.handler.timer = true := by
  have hs := hc.single
  rw [chains, continues] at hs
  refine ⟨?_, ?_, ?_⟩
  · cases ha : s.armed with
    | false => rfl
    | true => simp [ha] at hs
  · have : true.toNat = 1 := rfl
    omega
  · cases isTimer : s.handler.timer with
    | true => rfl
    | false =>
      rcases (hc.uninstalled isTimer).2.2 with idle | resetting
      · rw [idle] at continues
        cases continues
      · rw [resetting] at continues
        cases continues

theorem consistent_addTimer {repeatTime : ℕ} (ho : s.Orderly (.addTimer repeatTime))
    (taken : s.step (.addTimer repeatTime) = some t) : Consistent t := by
  obtain ⟨notZero, notResetting⟩ := ho
  obtain ⟨idle, taken⟩ := ite_none_right_eq_some.mp taken
  split at taken <;> cases taken
  case isTrue => exact hc
  case isFalse noTimer =>
    have free := hc.uninstalled (Bool.eq_false_iff.mpr noTimer)
    have intact := hc.intact
    constructor <;> simp_all [TimerHandler.reset, TimerHandler.resetTimer]

theorem consistent_arm (taken : s.step .arm = some t) : Consistent t := by
  obtain ⟨ha, ⟨⟩⟩ := ite_none_right_eq_some.mp taken
  obtain ⟨timer, hn, none, idle, notStopped⟩ := hc.arming ha
  have delay := hc.delay timer
  have removed := hc.removed
  have intact := hc.intact
  simp only [wait, abort_of_not_armed hn]
  constructor <;> simp_all

/-- `removeTimer` finds the flag cleared when there is no callback to come. -/
theorem Consistent.none_of_cleared (hp : s.loop = .idle ∨ s.loop = .dispatched)
    (cleared : s.handler.cicleTest = false) : s.loop = .idle ∧ s.armed = false ∧ s.queued = 0 := by
  have noCallback : ¬ (s.armed = true ∨ 0 < s.queued ∨ s.loop = .dispatched) := fun callback =>
    Bool.false_ne_true (cleared.symm.trans (hc.flagged callback))
  push Not at noCallback
  obtain ⟨hn, none, notDispatched⟩ := noCallback
  exact ⟨hp.resolve_right notDispatched, Bool.eq_false_iff.mpr hn, by omega⟩

end

theorem place_of_free (free : s.loop.locks = false) (notLocking : s.loop ≠ .locking) :
    s.loop = .idle ∨ s.loop = .dispatched := by
  cases hl : s.loop <;> simp_all [Point.locks]

/-- `removeTimer` leaves the handler when no callback is to come. -/
theorem consistent_of_disposing (caller : t.caller = .disposing) (idle : t.loop = .idle)
    (hn : t.armed = false) (none : t.queued = 0) (hs : t.handler.stoppped = true)
    (delay : t.handler.timer = true → t.handler.delay ≠ 0)
    (hr : t.removed = true → t.handler.timer = false) (hi : t.crashed = false) :
    Consistent t := by
  constructor <;> simp_all

section Enter

variable (hc : Consistent s) (hp : s.loop = .idle ∨ s.loop = .dispatched)

include hc hp

/-- The wait is cancelled, and it was the only chain. -/
theorem consistent_removeTimer_of_armed (armed : s.armed = true) : Consistent s.removeTimer := by
  have isTimer : s.handler.timer = true := by
    by_contra noTimer
    have hn := (hc.uninstalled (Bool.eq_false_iff.mpr noTimer)).1
    exact Bool.false_ne_true (hn.symm.trans armed)
  have single := hc.single
  simp only [chains, armed, Bool.toNat_true] at single
  have idle : s.loop = .idle := by
    rcases hp with idle | hd
    · exact idle
    · rw [hd] at single
      simp [Point.continues] at single
  have left : s.removeTimer = { s with
      armed := false
      queue := s.queue ++ [.aborted]
      handler := { s.handler with stoppped := true }
      caller := .disposing } := by
    simp [removeTimer, abort, armed, isTimer]
  have none : List.count Completion.expired (s.queue ++ [.aborted]) = 0 := by
    have : s.queued = 0 := by omega
    simpa [queued] using this
  rw [left]
  exact consistent_of_disposing rfl idle rfl none rfl hc.delay
    (fun removed => (hc.removed removed).1) hc.intact

variable (hn : s.armed = false)

include hn

/-- There is nothing to cancel and nothing to wait for. -/
theorem consistent_removeTimer_of_cleared (cleared : s.handler.cicleTest = false) :
    Consistent s.removeTimer := by
  obtain ⟨idle, -, none⟩ := hc.none_of_cleared hp cleared
  have left : s.removeTimer = { s with
      handler := { s.handler with stoppped := true }, caller := .disposing } := by
    simp [removeTimer, abort_of_not_armed hn, cleared]
  rw [left]
  exact consistent_of_disposing rfl idle hn none rfl hc.delay
    (fun removed => (hc.removed removed).1) hc.intact

/-- It is too late to cancel: the callback is in the queue or has been called. -/
theorem consistent_removeTimer_of_late (hr : s.caller = .removing)
    (flag : s.handler.cicleTest = true) (timer : s.handler.timer = true) :
    Consistent s.removeTimer := by
  have waits : s.removeTimer = { s with
      handler := { s.handler with stoppped := true, needSignal := true }
      caller := .waiting
      notified := false } := by
    simp [removeTimer, abort_of_not_armed hn, flag, hn]
  rw [waits]
  have notStopped : s.handler.stoppped = false := by
    by_contra hs
    have := hc.stopped (by simpa using hs)
    simp [hr, timer] at this
  have callback := hc.tracked flag timer notStopped
  have single := hc.single
  have delay := hc.delay
  have removed := hc.removed
  have intact := hc.intact
  constructor
  case waiting =>
    refine fun _ => ⟨rfl, rfl, hn, .inl ⟨flag, ?_⟩⟩
    rcases hp with idle | hd
    · have hq : 0 < s.queued := by simpa [hn, idle] using callback
      exact .inl ⟨hq, idle⟩
    · exact .inr hd
  case single => exact single
  case running | resetting => rcases hp with hp | hp <;> simp [hp]
  all_goals simp_all

end Enter

section

variable (hc : Consistent s)

include hc

theorem consistent_enter (ho : s.Orderly .enter) (taken : s.step .enter = some t) :
    Consistent t := by
  obtain ⟨⟨hr, free⟩, ⟨⟩⟩ := ite_none_right_eq_some.mp taken
  obtain ⟨notLocking, hi⟩ := ho
  have hp := place_of_free free notLocking
  cases ha : s.armed with
  | true => exact consistent_removeTimer_of_armed hc hp ha
  | false =>
    cases flag : s.handler.cicleTest with
    | false => exact consistent_removeTimer_of_cleared hc hp ha flag
    | true =>
      have isTimer : s.handler.timer = true := by simpa [flag] using hi
      exact consistent_removeTimer_of_late hc hp ha hr flag isTimer

theorem consistent_wake (ho : s.Orderly .wake) (taken : s.step .wake = some t) :
    Consistent t := by
  obtain ⟨⟨hw, free⟩, taken⟩ := ite_none_right_eq_some.mp taken
  have hp := place_of_free free ho
  obtain ⟨hs, needSignal, hn, state⟩ := hc.waiting hw
  split at taken <;> cases taken
  case isTrue flag =>
    -- It goes on waiting.
    refine { hc with waiting := fun _ => ⟨hs, needSignal, hn, ?_⟩ }
    rcases state with there | there | there
    · exact .inl there
    · exact .inr (.inl there)
    · exact absurd flag (by rw [there.2.2.1]; exact Bool.false_ne_true)
  case isFalse cleared =>
    obtain ⟨idle, -, none⟩ := hc.none_of_cleared hp (Bool.eq_false_iff.mpr cleared)
    exact consistent_of_disposing rfl idle hn none hs hc.delay
      (fun hr => (hc.removed hr).1) hc.intact

theorem consistent_dispose (taken : s.step .dispose = some t) : Consistent t := by
  obtain ⟨hd, ⟨⟩⟩ := ite_none_right_eq_some.mp taken
  obtain ⟨idle, hn, none⟩ := hc.disposing hd
  have hi := hc.intact
  rw [abort_of_not_armed hn]
  constructor <;> simp_all

/-- Another thread calls `removeTimer`, or `stopMe`, or the timer expires. -/
theorem consistent_outside {l : TimerMove}
    (ho : l = .removeTimer ∨ l = .stopMe ∨ l = .expire) (taken : s.step l = some t) :
    Consistent t := by
  rcases ho with rfl | rfl | rfl
  · obtain ⟨hi, ⟨⟩⟩ := ite_none_right_eq_some.mp taken
    cases hc
    constructor <;> simp_all
  · cases taken
    exact { hc with }
  · obtain ⟨isArmed, ⟨⟩⟩ := ite_none_right_eq_some.mp taken
    cases hc
    constructor <;> simp_all
    omega

end

/-! ### The event loop -/

variable {spent : ℤ} {P : Timing → Prop} {bound : ℕ}

section

variable (hc : Consistent s)

include hc

theorem consistent_dispatch (idle : s.loop = .idle) (taken : s.advance spent = some t) :
    Consistent t := by
  simp only [advance, idle] at taken
  have hs := hc.single
  cases hc
  split at taken
  · cases taken
  case h_2 rest queue =>
    cases taken
    constructor <;> simp_all
  case h_3 rest queue =>
    cases taken
    have counted : s.queued = List.count .expired rest + 1 := by simp [queue]
    have none : List.count .expired rest = 0 ∧ s.armed = false := by
      rw [chains] at hs
      have few : s.armed.toNat = 0 := by omega
      exact ⟨by omega, by simpa using few⟩
    constructor <;> simp_all

/-- The loop takes the mutex and looks whether the handler was stopped. -/
theorem consistent_begin
    (hp : s.loop = .dispatched ∨ s.loop = .locking ∨ s.loop = .testing ∨ s.loop = .calling)
    (taken : s.advance spent = some t) : Consistent t := by
  cases hc
  rcases hp with hl | hl | hl | hl <;> simp only [advance, hl] at taken <;>
    cases taken
  case mk.inr.inr.inl.refl => cases hs : s.handler.stoppped <;> constructor <;> simp_all
  all_goals constructor <;> simp_all

/-- After `timeout` the callback waits again or stops. -/
theorem consistent_decide {spentTime : ℤ} (loop : s.loop = .deciding spentTime)
    (ht : s.advance spent = some t) : Consistent t := by
  obtain ⟨hn, none, timer⟩ := hc.alone (by rw [loop]; rfl)
  have notZero := hc.delay timer
  cases hc
  simp only [advance, loop] at ht
  split at ht
  case isTrue =>
    cases ht
    rw [abort_of_not_armed hn]
    constructor <;> simp_all [TimerHandler.resetTimer]
  case isFalse =>
    rw [if_neg fun hb => notZero hb.2] at ht
    cases ht
    simp only [wait, abort_of_not_armed hn]
    constructor <;> simp_all

/-- A callback that finishes after the handler was stopped is the last one. -/
theorem Consistent.last_of_stopped (hl : s.loop = .finishing)
    (hs : s.handler.stoppped = true) : s.armed = false ∧ s.queued = 0 := by
  rcases hc.stopped hs with hw | disposing | noTimer
  · obtain ⟨-, -, hn, state⟩ := hc.waiting hw
    refine ⟨hn, ?_⟩
    rcases state with ⟨-, ⟨-, idle⟩ | hd⟩ | ⟨none, -⟩ | ⟨none, -⟩
    · cases hl.symm.trans idle
    · cases hl.symm.trans hd
    · exact none
    · exact none
  · exact (hc.disposing disposing).2
  · obtain ⟨hn, none, -⟩ := hc.uninstalled noTimer
    exact ⟨hn, none⟩

theorem consistent_finish (hl : s.loop = .finishing) (taken : s.advance spent = some t) :
    Consistent t := by
  have last := hc.last_of_stopped hl
  cases hc
  simp only [advance, hl] at taken
  cases taken
  cases hs : s.handler.stoppped with
  | true =>
    -- Who waits finds the flag cleared, and is told so.
    constructor <;> simp_all
  | false => constructor <;> simp_all

theorem consistent_reset (hl : s.loop = .resetting) (taken : s.advance spent = some t) :
    Consistent t := by
  cases hc
  simp only [advance, hl] at taken
  cases taken
  constructor <;> simp_all

theorem consistent_loop (taken : s.advance spent = some t) : Consistent t := by
  cases hl : s.loop with
  | idle => exact consistent_dispatch hc hl taken
  | dispatched | locking | testing | calling =>
    exact consistent_begin hc (by simp [hl]) taken
  | deciding spentTime => exact consistent_decide hc hl taken
  | finishing => exact consistent_finish hc hl taken
  | resetting => exact consistent_reset hc hl taken

end

theorem consistent_step (l : TimerMove) (hc : Consistent s) (ho : s.Orderly l)
    (taken : s.step l = some t) : Consistent t := by
  cases l with
  | addTimer repeatTime => exact consistent_addTimer hc ho taken
  | arm => exact consistent_arm hc taken
  | enter => exact consistent_enter hc ho taken
  | wake => exact consistent_wake hc ho taken
  | dispose => exact consistent_dispose hc taken
  | removeTimer | stopMe | expire => exact consistent_outside hc (by simp) taken
  | loop spent => exact consistent_loop hc taken

/-! ### The end of `removeTimer` -/

theorem Reaches.now (hh : P s) : s.Reaches bound P :=
  ⟨0, Nat.zero_le _, s, rfl, hh⟩

theorem Reaches.next
    (next : ∃ t, s.advance 0 = some t ∧ t.Reaches bound P) : s.Reaches (bound + 1) P := by
  obtain ⟨t, taken, n, few, u, run, hh⟩ := next
  exact ⟨n + 1, Nat.succ_le_succ few, u, execute_cons.mpr ⟨t, taken, run⟩, hh⟩

theorem Reaches.mono {few many : ℕ} (le : few ≤ many)
    (hr : s.Reaches few P) : s.Reaches many P := by
  obtain ⟨n, small, rest⟩ := hr
  exact ⟨n, Nat.le_trans small le, rest⟩

theorem frees_of_end (hp : s.loop = .finishing ∨ s.loop = .resetting) : s.Frees 1 := by
  apply Reaches.next
  rcases hp with hl | hl <;> simp only [advance, hl] <;> exact ⟨_, rfl, .now rfl⟩

theorem frees_of_deciding (hl : s.loop = .deciding spent) : s.Frees 2 := by
  apply Reaches.next
  simp only [advance, hl]
  split
  · exact ⟨_, rfl, frees_of_end (.inr rfl)⟩
  · split <;> exact ⟨_, rfl, frees_of_end (.inl rfl)⟩

theorem frees_of_calling (hl : s.loop = .calling) : s.Frees 3 := by
  apply Reaches.next
  simp only [advance, hl]
  exact ⟨_, rfl, frees_of_deciding rfl⟩

/-- A callback that has the mutex gives it back. -/
theorem frees (s : Timing) : s.Frees 5 := by
  cases hl : s.loop with
  | idle | dispatched | locking => exact .now (by rw [hl]; rfl)
  | finishing | resetting => exact (frees_of_end (by simp [hl])).mono (by omega)
  | deciding spent => exact (frees_of_deciding hl).mono (by omega)
  | calling => exact (frees_of_calling hl).mono (by omega)
  | testing =>
    apply Reaches.next
    simp only [advance, hl]
    cases s.handler.stoppped with
    | true => exact ⟨_, rfl, (frees_of_end (.inl rfl)).mono (by omega)⟩
    | false => exact ⟨_, rfl, (frees_of_calling rfl).mono (by omega)⟩

/-- The handler was stopped and somebody waits for it. -/
structure Stopping (s : Timing) : Prop where
  caller : s.caller = .waiting
  stopped : s.handler.stoppped = true
  needSignal : s.handler.needSignal = true

section

variable (stopping : Stopping s)

include stopping

theorem Stopping.finishing (hl : s.loop = .finishing) : s.Reaches 1 Woken := by
  apply Reaches.next
  simp only [advance, hl]
  refine ⟨_, rfl, .now ⟨rfl, ?_, ?_⟩⟩
  · simp [stopping.stopped]
  · simp [stopping.needSignal, stopping.caller]

theorem Stopping.testing (hl : s.loop = .testing) : s.Reaches 2 Woken := by
  apply Reaches.next
  simp only [advance, hl, stopping.stopped]
  exact ⟨_, rfl, finishing { stopping with } rfl⟩

theorem Stopping.locking (hl : s.loop = .locking) : s.Reaches 3 Woken := by
  apply Reaches.next
  simp only [advance, hl]
  exact ⟨_, rfl, testing { stopping with } rfl⟩

theorem Stopping.dispatched (hl : s.loop = .dispatched) : s.Reaches 4 Woken := by
  apply Reaches.next
  simp only [advance, hl]
  exact ⟨_, rfl, locking { stopping with } rfl⟩

/-- The callbacks of aborted waits come first. -/
theorem Stopping.queued (hl : s.loop = .idle) (hq : 0 < s.queued) :
    s.Reaches (s.queue.length + 4) Woken := by
  induction queue : s.queue generalizing s with
  | nil =>
    rw [Timing.queued, queue] at hq
    exact absurd hq (Nat.not_lt_zero _)
  | cons completion rest ih =>
    rw [length_cons]
    apply Reaches.next
    simp only [advance, hl, queue]
    cases completion with
    | aborted =>
      have isQueuedToo : 0 < List.count .expired rest := by
        simpa [queue] using hq
      refine ⟨_, rfl, ih ?_ rfl isQueuedToo rfl⟩
      exact { stopping with }
    | expired =>
      refine ⟨_, rfl, (dispatched ?_ rfl).mono (by omega)⟩
      exact { stopping with }

end

/-- What a `removeTimer` waits for comes. -/
theorem Consistent.returns (hc : Consistent s) (hw : s.caller = .waiting) :
    s.Reaches (s.queue.length + 5) Woken := by
  obtain ⟨hs, needSignal, -, state⟩ := hc.waiting hw
  have stopping : Stopping s := ⟨hw, hs, needSignal⟩
  rcases state with ⟨-, ⟨hq, idle⟩ | hd⟩ | ⟨-, locking | testing | finishing⟩ |
    ⟨-, idle, cleared, notified⟩
  · exact (stopping.queued idle hq).mono (by omega)
  · exact (stopping.dispatched hd).mono (by omega)
  · exact (stopping.locking locking).mono (by omega)
  · exact (stopping.testing testing).mono (by omega)
  · exact (stopping.finishing finishing).mono (by omega)
  · exact .now ⟨by rw [idle]; rfl, cleared, notified⟩

theorem Consistent.sound (hc : Consistent s) : Sound s where
  enters := fun _ => frees s
  returns := hc.returns
  quiet := fun hr => (hc.removed hr).2
  single := hc.single
  intact := hc.intact

/-- **Timers are removed.** Whatever the threads do, and in whatever order. -/
theorem sound_of_orderly_timers {moves : List TimerMove} {s : Timing}
    (orderly : Admissible step Orderly init moves) (run : execute step init moves = some s) :
    Sound s :=
  (orderly.invariant (consistent_step _) consistent_init run).sound

/-- The callback is in the queue when the timer is removed, and lets `removeTimer` go. -/
def lateRemoval : List TimerMove :=
  [.addTimer 100, .arm, .expire, .removeTimer, .enter, .loop 0, .loop 0, .loop 0, .loop 0, .loop 0,
    .wake, .dispose]

theorem sound_of_orderly_timers_late :
    ∃ s, execute step init lateRemoval = some s ∧ Admissible step Orderly init lateRemoval ∧
      Sound s ∧ s.removed = true ∧ s.loop = .idle := by
  have ho : Admissible step Orderly init lateRemoval := by decide
  exact ⟨_, rfl, ho, sound_of_orderly_timers ho rfl, rfl, rfl⟩

/-- `removeTimer` gets the mutex after the callback has cleared the flag, and returns. The callback
is still to come. -/
theorem callback_outlives_removal :
    ∃ s, execute step init [.addTimer 100, .arm, .expire, .loop 0, .loop 0, .removeTimer, .enter,
        .dispose] = some s ∧
      s.removed = true ∧ s.loop = .locking ∧ ¬ Sound s := by
  refine ⟨_, rfl, rfl, rfl, fun sound => ?_⟩
  cases sound.quiet rfl

end Timing

end ChaosFramework.AsyncCentral
