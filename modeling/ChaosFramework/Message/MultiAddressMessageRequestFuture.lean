import ChaosFramework.Network.URLHAServiceFeeder

/-!
# Requests to one of several servers

A `MultiAddressMessageRequestFuture` sends a request to a server of its channel. `wait` waits for
the answer and tries another server when the request could not be submitted or is not answered.

`retry_other_server` is compared with two and never incremented, and `retry_on_same_server` is not
reset for a new server. A local answer without an error code is neither an answer nor a failure:
`wait` asks for it again, forever. When there is no server left `wait` returns true, as it does
whenever it returns. `Channel.Served` says what `wait` should do, and `Channel.Answered` when it
does.
-/

namespace ChaosFramework.Message

open Network Transition

/-- What `wait` reads of the pack with which a request is answered. -/
structure ResponsePack where
  /-- The answer was made by the own node, for a request that could not be submitted. -/
  internalRedirect : Bool
  submissionErrorCode : Option ℤ
  deriving DecidableEq, Repr

/-- What becomes of a request. -/
inductive Behaviour
  | silent
  /-- The answer comes after the given number of waits, perhaps without a pack. -/
  | answers (timeouts : ℕ) (pack : Option ResponsePack)
  deriving DecidableEq, Repr

/-- `ErrorCode::EC_TIMEOUT`. -/
def ecTimeout : ℤ := 100

def localResultOf : Option ResponsePack → Bool
  | none => true
  | some pack => pack.internalRedirect

def errorCodeOf : Option ResponsePack → ℤ
  | none => ecTimeout
  | some pack => pack.submissionErrorCode.getD 0

structure MessageRequestFuture where
  behaviour : Behaviour
  /-- How often it has been waited for. -/
  waits : ℕ
  received : Bool
  errorCode : ℤ
  localResult : Bool
  deriving DecidableEq, Repr

namespace MessageRequestFuture

def new (behaviour : Behaviour) : MessageRequestFuture := ⟨behaviour, 0, false, 0, false⟩

/-- With a negative timeout the status of the future is not asked for. -/
def wait (f : MessageRequestFuture) (timeoutInMilliseconds : ℤ) : MessageRequestFuture × Bool :=
  match f.behaviour with
  | .silent => ({ f with waits := f.waits + 1 }, false)
  | .answers timeouts pack =>
      if 0 ≤ timeoutInMilliseconds ∧ timeouts ≤ f.waits then
        ({ f with
          waits := f.waits + 1
          received := true
          errorCode := errorCodeOf pack
          localResult := localResultOf pack }, true)
      else ({ f with waits := f.waits + 1 }, false)

def isRemoteMeaning (f : MessageRequestFuture) : Bool := !f.localResult

end MessageRequestFuture

/-- What a request needs of `MultiAddressMessageChannel`. -/
structure Channel (σ : Type*) where
  /-- `_sendRequestWithFuture`, with the address that was used. -/
  sendRequestWithFuture : σ → σ × Option (String × Behaviour)
  setURLAsOffline : σ → String → σ

/-- The object, with the local variables of `wait`. -/
structure MultiAddressMessageRequestFuture (σ : Type*) where
  channel : σ
  currentFuture : Option MessageRequestFuture
  lastUsedAddress : String
  retryOnSameServer : ℕ
  retryOtherServer : ℕ
  working : Bool
  /-- How often the request was sent again and how often `wait` has waited. -/
  retransmissions : ℕ
  waits : ℕ

variable {σ : Type*}

/-- The local variables at the begin of `wait`. -/
def MultiAddressMessageRequestFuture.start (s : MultiAddressMessageRequestFuture σ) :
    MultiAddressMessageRequestFuture σ :=
  { s with
    retryOnSameServer := 0
    retryOtherServer := 0
    working := true
    retransmissions := 0
    waits := 0 }

namespace Channel

variable (c : Channel σ)

/-- `_sendRequestWithFuture` with the future and the address that it sets. -/
def submit (s : MultiAddressMessageRequestFuture σ) : MultiAddressMessageRequestFuture σ :=
  match c.sendRequestWithFuture s.channel with
  | (channel, some (address, behaviour)) =>
      { s with channel, lastUsedAddress := address, currentFuture := some (.new behaviour) }
  | (channel, none) => { s with channel, lastUsedAddress := "", currentFuture := none }

/-- The constructor. -/
def construct (channel : σ) : MultiAddressMessageRequestFuture σ :=
  c.submit ⟨channel, none, "", 0, 0, false, 0, 0⟩

/-- The body of the inner loop, and whether the loop goes on. -/
def visit (timeoutInMilliseconds : ℤ) (s : MultiAddressMessageRequestFuture σ)
    (f : MessageRequestFuture) : MultiAddressMessageRequestFuture σ × Bool :=
  let (f, ready) := f.wait timeoutInMilliseconds
  let s := { s with currentFuture := some f, waits := s.waits + 1 }
  if ready then
    if f.isRemoteMeaning then ({ s with working := false }, true)
    else if f.errorCode ≠ 0 then
      ({ s with channel := c.setURLAsOffline s.channel s.lastUsedAddress }, false)
    else (s, true)
  else
    let retried := { s with retryOnSameServer := s.retryOnSameServer + 1 }
    if s.retryOnSameServer < 3 then (retried, true)
    else ({ retried with channel := c.setURLAsOffline s.channel s.lastUsedAddress }, false)

/-- The inner loop. -/
def waitOnServer (timeoutInMilliseconds : ℤ) :
    ℕ → MultiAddressMessageRequestFuture σ → Option (MultiAddressMessageRequestFuture σ)
  | 0, _ => none
  | fuel + 1, s =>
      match s.currentFuture with
      | some f =>
          if s.working then
            match c.visit timeoutInMilliseconds s f with
            | (t, true) => waitOnServer timeoutInMilliseconds fuel t
            | (t, false) => some t
          else some s
      | none => some s

/-- The end of the body of the outer loop. -/
def tryOther (s : MultiAddressMessageRequestFuture σ) : MultiAddressMessageRequestFuture σ :=
  if s.working then
    let t := { c.submit s with retransmissions := s.retransmissions + 1 }
    if t.currentFuture = none then { t with working := false } else t
  else s

/-- The outer loop. -/
def waitOnServers (timeoutInMilliseconds : ℤ) :
    ℕ → MultiAddressMessageRequestFuture σ → Option (MultiAddressMessageRequestFuture σ)
  | 0, _ => none
  | fuel + 1, s =>
      if s.retryOtherServer < 2 ∧ s.working = true then
        (c.waitOnServer timeoutInMilliseconds fuel s).bind fun t =>
          waitOnServers timeoutInMilliseconds fuel (c.tryOther t)
      else some s

/-- `wait`, with the object afterwards. -/
def wait (timeoutInMilliseconds : ℤ) (fuel : ℕ) (s : MultiAddressMessageRequestFuture σ) :
    Option (Bool × MultiAddressMessageRequestFuture σ) :=
  (c.waitOnServers timeoutInMilliseconds fuel s.start).map fun t => (t.working == false, t)

end Channel

/-- An answer of a server is held in `current_future`. -/
def MultiAddressMessageRequestFuture.HoldsRemoteAnswer (s : MultiAddressMessageRequestFuture σ) :
    Prop :=
  ∃ f, s.currentFuture = some f ∧ f.received = true ∧ f.isRemoteMeaning = true

/-- `wait` returns after at most two retransmissions and four waits for each of the three requests,
and returns true if there is an answer. -/
def Channel.Served (c : Channel σ) (timeoutInMilliseconds : ℤ) (channel : σ) : Prop :=
  ∃ fuel result t, c.wait timeoutInMilliseconds fuel (c.construct channel) = some (result, t) ∧
    t.retransmissions ≤ 2 ∧ t.waits ≤ 12 ∧ (result = true ↔ t.HoldsRemoteAnswer)

/-! ### The condition -/

/-- What comes of waiting for the answer of a server. -/
inductive Attempt
  | received
  /-- The server is given up, after the given number of retries on one server. -/
  | failed (retries : ℕ)
  | stuck
  deriving DecidableEq, Repr

/-- The retries that are left are shared by all servers: an answer is in time if it is there when it
is waited for or comes before they are used up. -/
def Behaviour.attempt (timeoutInMilliseconds : ℤ) (retries : ℕ) : Behaviour → Attempt
  | .silent => .failed (max retries 3 + 1)
  | .answers timeouts pack =>
      if 0 ≤ timeoutInMilliseconds ∧ (timeouts = 0 ∨ retries + timeouts ≤ 3) then
        if localResultOf pack = false then .received
        else if errorCodeOf pack ≠ 0 then .failed (retries + timeouts)
        else .stuck
      else .failed (max retries 3 + 1)

/-- One of the given number of requests is answered by a server, and those before it have failed. -/
def Channel.Answered (c : Channel σ) (timeoutInMilliseconds : ℤ) :
    ℕ → σ → Option (String × Behaviour) → ℕ → Prop
  | 0, _, _, _ => False
  | requests + 1, channel, some (address, behaviour), retries =>
      match behaviour.attempt timeoutInMilliseconds retries with
      | .received => True
      | .failed retries =>
          let next := c.sendRequestWithFuture (c.setURLAsOffline channel address)
          next.2.isSome ∧ Answered c timeoutInMilliseconds requests next.1 next.2 retries
      | .stuck => False
  | requests + 1, channel, none, retries =>
      let next := c.sendRequestWithFuture channel
      next.2.isSome ∧ Answered c timeoutInMilliseconds requests next.1 next.2 retries

/-! ### Fuel -/

namespace Channel

variable {c : Channel σ} {tmo : ℤ} {s t u : MultiAddressMessageRequestFuture σ}
  {f : MessageRequestFuture}

/-- The inner loop ends. -/
def Waits (c : Channel σ) (timeoutInMilliseconds : ℤ)
    (s t : MultiAddressMessageRequestFuture σ) : Prop :=
  ∃ fuel, c.waitOnServer timeoutInMilliseconds fuel s = some t

theorem waitOnServer_succ (hf : s.currentFuture = some f) (working : s.working = true)
    (fuel : ℕ) : c.waitOnServer tmo (fuel + 1) s =
      if (c.visit tmo s f).2 = true then
        c.waitOnServer tmo fuel (c.visit tmo s f).1
      else some (c.visit tmo s f).1 := by
  rw [waitOnServer, hf]
  simp only [working]
  rcases c.visit tmo s f with ⟨next, _ | _⟩ <;> rfl

theorem waitOnServer_idle (idle : s.currentFuture = none ∨ s.working = false) (fuel : ℕ) :
    c.waitOnServer tmo (fuel + 1) s = some s := by
  rw [waitOnServer]
  rcases idle with noFuture | hn
  · rw [noFuture]
  · cases s.currentFuture with
    | none => rfl
    | some f => exact if_neg (by rw [hn]; exact Bool.false_ne_true)

/-- Is there something to wait for? -/
theorem idle_or_busy (s : MultiAddressMessageRequestFuture σ) :
    (s.currentFuture = none ∨ s.working = false) ∨
      ∃ f, s.currentFuture = some f ∧ s.working = true := by
  cases hf : s.currentFuture with
  | none => exact .inl (.inl rfl)
  | some f =>
    cases working : s.working with
    | false => exact .inl (.inr rfl)
    | true => exact .inr ⟨f, rfl, rfl⟩

theorem waitOnServer_mono {fuel : ℕ} (ends : c.waitOnServer tmo fuel s = some t) (more : ℕ) :
    c.waitOnServer tmo (fuel + more) s = some t := by
  induction fuel generalizing s with
  | zero => cases ends
  | succ fuel ih =>
    rw [Nat.add_right_comm]
    rcases idle_or_busy s with idle | ⟨f, hf, working⟩
    · rw [waitOnServer_idle idle] at ends ⊢
      exact ends
    · rw [waitOnServer_succ hf working] at ends ⊢
      split at ends
      case isTrue goesOn =>
        rw [if_pos goesOn]
        exact ih ends
      case isFalse stops => rwa [if_neg stops]

theorem Waits.unique (first : c.Waits tmo s t) (second : c.Waits tmo s u) : t = u := by
  obtain ⟨fuel, ends⟩ := first
  obtain ⟨fuelToo, he⟩ := second
  have both := waitOnServer_mono ends fuelToo
  rw [Nat.add_comm, waitOnServer_mono he fuel] at both
  exact (Option.some.inj both).symm

variable (hf : s.currentFuture = some f) (working : s.working = true)

include hf working

theorem waits_visit (hg : (c.visit tmo s f).2 = true) :
    c.Waits tmo s t ↔ c.Waits tmo (c.visit tmo s f).1 t := by
  constructor
  · rintro ⟨_ | fuel, ends⟩
    · cases ends
    · rw [waitOnServer_succ hf working, if_pos hg] at ends
      exact ⟨fuel, ends⟩
  · rintro ⟨fuel, ends⟩
    refine ⟨fuel + 1, ?_⟩
    rw [waitOnServer_succ hf working, if_pos hg, ends]

theorem waits_break (stops : (c.visit tmo s f).2 = false) : c.Waits tmo s (c.visit tmo s f).1 := by
  refine ⟨1, ?_⟩
  rw [waitOnServer_succ hf working, if_neg (by rw [stops]; exact Bool.false_ne_true)]

/-! ### The inner loop -/

end Channel

/-- What is still to come of the behaviour of a request that has been waited for. -/
def MessageRequestFuture.remaining (f : MessageRequestFuture) : Behaviour :=
  match f.behaviour with
  | .silent => .silent
  | .answers timeouts pack => .answers (timeouts - f.waits) pack

namespace Channel

variable {c : Channel σ} {tmo : ℤ} {s t u : MultiAddressMessageRequestFuture σ}
  {f : MessageRequestFuture}

/-- What one wait for a server costs. -/
def Paid (s t : MultiAddressMessageRequestFuture σ) : Prop :=
  t.waits + min s.retryOnSameServer 3 ≤ s.waits + 1 + min t.retryOnSameServer 3

/-- The server has answered. -/
structure Received (s t : MultiAddressMessageRequestFuture σ) : Prop where
  stopped : t.working = false
  holds : t.HoldsRemoteAnswer
  retransmissions : t.retransmissions = s.retransmissions
  paid : Paid s t

/-- The server has been given up. -/
structure Failed (c : Channel σ) (s : MultiAddressMessageRequestFuture σ) (retries : ℕ)
    (t : MultiAddressMessageRequestFuture σ) : Prop where
  working : t.working = true
  channel : t.channel = c.setURLAsOffline s.channel s.lastUsedAddress
  retries : t.retryOnSameServer = retries
  others : t.retryOtherServer = s.retryOtherServer
  retransmissions : t.retransmissions = s.retransmissions
  paid : Paid s t

/-- How the inner loop ends. -/
def Ends (c : Channel σ) (timeoutInMilliseconds : ℤ) (s : MultiAddressMessageRequestFuture σ) :
    Attempt → Prop
  | .received => ∃ t, c.Waits timeoutInMilliseconds s t ∧ Received s t
  | .failed retries => ∃ t, c.Waits timeoutInMilliseconds s t ∧ c.Failed s retries t
  | .stuck => ∀ t, ¬ c.Waits timeoutInMilliseconds s t

/-- An iteration that goes on does not change how the loop ends. -/
theorem Ends.of_next {attempt : Attempt} (ends : c.Ends tmo u attempt)
    (same : ∀ t, c.Waits tmo s t ↔ c.Waits tmo u t)
    (hc : u.channel = s.channel) (ha : u.lastUsedAddress = s.lastUsedAddress)
    (ho : u.retryOtherServer = s.retryOtherServer)
    (retransmissions : u.retransmissions = s.retransmissions)
    (paid : u.waits + min s.retryOnSameServer 3 ≤ s.waits + min u.retryOnSameServer 3) :
    c.Ends tmo s attempt := by
  have hp {t : MultiAddressMessageRequestFuture σ} (rest : Paid u t) : Paid s t := by
    unfold Paid at rest ⊢
    omega
  cases attempt with
  | received =>
    obtain ⟨t, hw, hr⟩ := ends
    exact ⟨t, (same t).mpr hw, hr.stopped, hr.holds, hr.retransmissions.trans retransmissions,
      hp hr.paid⟩
  | failed tries =>
    obtain ⟨t, hw, failed⟩ := ends
    refine ⟨t, (same t).mpr hw, failed.working, ?_, failed.retries,
      failed.others.trans ho, failed.retransmissions.trans retransmissions,
      hp failed.paid⟩
    rw [failed.channel, hc, ha]
  | stuck => exact fun t hw => ends t ((same t).mp hw)

end Channel

namespace MessageRequestFuture

variable {f : MessageRequestFuture} {tmo : ℤ} {pack : Option ResponsePack}

/-- The next wait brings the answer. -/
def Ready (f : MessageRequestFuture) (timeoutInMilliseconds : ℤ) (pack : Option ResponsePack) :
    Prop :=
  0 ≤ timeoutInMilliseconds ∧ ∃ timeouts, f.behaviour = .answers timeouts pack ∧ timeouts ≤ f.waits

/-- The future with its answer. -/
def answered (f : MessageRequestFuture) (pack : Option ResponsePack) : MessageRequestFuture :=
  { f with
    waits := f.waits + 1
    received := true
    errorCode := errorCodeOf pack
    localResult := localResultOf pack }

theorem wait_of_ready (ready : f.Ready tmo pack) : f.wait tmo = (f.answered pack, true) := by
  obtain ⟨hn, tmos, hb, there⟩ := ready
  simp only [wait, hb, if_pos (And.intro hn there), answered]

theorem wait_of_not_ready (notReady : ∀ pack, ¬ f.Ready tmo pack) :
    f.wait tmo = ({ f with waits := f.waits + 1 }, false) := by
  rw [wait]
  cases hb : f.behaviour with
  | silent => rfl
  | answers tmos pack =>
    exact if_neg fun both => notReady pack ⟨both.1, tmos, hb, both.2⟩

/-- An answer that is there decides what comes of the attempt. -/
theorem attempt_of_ready (ready : f.Ready tmo pack) (tries : ℕ) :
    f.remaining.attempt tmo tries =
      if localResultOf pack = false then .received
      else if errorCodeOf pack ≠ 0 then .failed tries
      else .stuck := by
  obtain ⟨hn, tmos, hb, there⟩ := ready
  have none : tmos - f.waits = 0 := by omega
  rw [remaining, hb, Behaviour.attempt, none, if_pos ⟨hn, .inl rfl⟩, Nat.add_zero]

variable (notReady : ∀ pack, ¬ f.Ready tmo pack) {tries : ℕ}

include notReady

/-- While there are retries left another wait makes no difference. -/
theorem attempt_of_retry (left : tries < 3) :
    ({ f with waits := f.waits + 1 } : MessageRequestFuture).remaining.attempt tmo (tries + 1) =
      f.remaining.attempt tmo tries := by
  unfold remaining
  cases hb : f.behaviour with
  | silent =>
    simp only [Behaviour.attempt]
    congr 2
    omega
  | answers tmos pack =>
    simp only [Behaviour.attempt]
    by_cases hn : 0 ≤ tmo
    · have later : f.waits < tmos := by
        by_contra there
        exact notReady pack ⟨hn, tmos, hb, Nat.not_lt.mp there⟩
      have sum : tries + 1 + (tmos - (f.waits + 1)) = tries + (tmos - f.waits) := by
        omega
      have inTime : (tmos - (f.waits + 1) = 0 ∨ tries + (tmos - f.waits) ≤ 3) ↔
          (tmos - f.waits = 0 ∨ tries + (tmos - f.waits) ≤ 3) := by
        omega
      have spent : max (tries + 1) 3 = max tries 3 := by omega
      simp only [sum, inTime, spent]
    · rw [if_neg fun both => hn both.1, if_neg fun both => hn both.1]
      congr 2
      omega

/-- Without retries left a server that does not answer has failed. -/
theorem attempt_of_last (spent : ¬ tries < 3) :
    f.remaining.attempt tmo tries = .failed (tries + 1) := by
  have same : max tries 3 = tries := by omega
  unfold remaining
  cases hb : f.behaviour with
  | silent => simp only [Behaviour.attempt, same]
  | answers tmos pack =>
    simp only [Behaviour.attempt, same]
    apply if_neg
    rintro ⟨hn, hi⟩
    apply notReady pack ⟨hn, tmos, hb, _⟩
    omega

end MessageRequestFuture

namespace Channel

variable {c : Channel σ} {tmo : ℤ} {s t u : MultiAddressMessageRequestFuture σ}
  {f : MessageRequestFuture} (hf : s.currentFuture = some f) (working : s.working = true)
  {pack : Option ResponsePack}

include hf working

/-- The loop asks for the same answer again and again. -/
theorem not_waits_of_stuck (ready : f.Ready tmo pack)
    (hl : localResultOf pack = true) (noError : errorCodeOf pack = 0) :
    ∀ t, ¬ c.Waits tmo s t := by
  rintro t ⟨fuel, ends⟩
  induction fuel generalizing s f with
  | zero => cases ends
  | succ fuel ih =>
    have hv : c.visit tmo s f =
        ({ s with currentFuture := some (f.answered pack), waits := s.waits + 1 }, true) := by
      simp [visit, f.wait_of_ready ready, MessageRequestFuture.isRemoteMeaning,
        MessageRequestFuture.answered, hl, noError]
    rw [waitOnServer_succ hf working, hv] at ends
    obtain ⟨hn, tmos, hb, there⟩ := ready
    have readyAgain : (f.answered pack).Ready tmo pack :=
      ⟨hn, tmos, hb, there.trans (Nat.le_succ _)⟩
    apply ih _ _ readyAgain ends
    · rfl
    · exact working

theorem ends_of_ready (ready : f.Ready tmo pack) :
    c.Ends tmo s (f.remaining.attempt tmo s.retryOnSameServer) := by
  rw [f.attempt_of_ready ready]
  split
  case isTrue remote =>
    have hv : c.visit tmo s f =
        ({ s with
          currentFuture := some (f.answered pack), waits := s.waits + 1, working := false },
          true) := by
      simp [visit, f.wait_of_ready ready, MessageRequestFuture.isRemoteMeaning,
        MessageRequestFuture.answered, remote]
    refine ⟨_, (waits_visit hf working (by rw [hv])).mpr
      ⟨1, waitOnServer_idle (.inr (by rw [hv])) 0⟩, ?_⟩
    rw [hv]
    refine ⟨rfl, ⟨_, rfl, rfl, ?_⟩, rfl, le_rfl⟩
    simp [MessageRequestFuture.isRemoteMeaning, MessageRequestFuture.answered, remote]
  case isFalse notRemote =>
    have hl : localResultOf pack = true := Bool.eq_true_of_not_eq_false notRemote
    split
    case isTrue error =>
      have hv : c.visit tmo s f =
          ({ s with
            currentFuture := some (f.answered pack)
            waits := s.waits + 1
            channel := c.setURLAsOffline s.channel s.lastUsedAddress }, false) := by
        simp [visit, f.wait_of_ready ready, MessageRequestFuture.isRemoteMeaning,
          MessageRequestFuture.answered, hl, error]
      refine ⟨_, waits_break hf working (by rw [hv]), ?_⟩
      rw [hv]
      exact ⟨working, rfl, rfl, rfl, rfl, le_rfl⟩
    case isFalse noError =>
      exact not_waits_of_stuck hf working ready hl (not_not.mp noError)

theorem ends_of_last (notReady : ∀ pack, ¬ f.Ready tmo pack) (spent : ¬ s.retryOnSameServer < 3) :
    c.Ends tmo s (f.remaining.attempt tmo s.retryOnSameServer) := by
  have hv : c.visit tmo s f =
      ({ s with
        currentFuture := some { f with waits := f.waits + 1 }
        waits := s.waits + 1
        retryOnSameServer := s.retryOnSameServer + 1
        channel := c.setURLAsOffline s.channel s.lastUsedAddress }, false) := by
    simp [visit, f.wait_of_not_ready notReady, spent]
  rw [f.attempt_of_last notReady spent]
  refine ⟨_, waits_break hf working (by rw [hv]), ?_⟩
  rw [hv]
  refine ⟨working, rfl, rfl, rfl, rfl, ?_⟩
  unfold Paid
  dsimp only
  omega

/-- The inner loop ends as the behaviour of the request says. -/
theorem ends_attempt : c.Ends tmo s (f.remaining.attempt tmo s.retryOnSameServer) := by
  -- Induction on the number of retries that are left.
  induction left : 3 - s.retryOnSameServer generalizing s f with
  | zero =>
    by_cases isReady : ∃ pack, f.Ready tmo pack
    · obtain ⟨pack, ready⟩ := isReady
      exact ends_of_ready hf working ready
    · exact ends_of_last hf working (not_exists.mp isReady) (by omega)
  | succ n ih =>
    by_cases isReady : ∃ pack, f.Ready tmo pack
    · obtain ⟨pack, ready⟩ := isReady
      exact ends_of_ready hf working ready
    · have notReady := not_exists.mp isReady
      have retry : s.retryOnSameServer < 3 := by omega
      set next : MultiAddressMessageRequestFuture σ :=
        { s with
          currentFuture := some { f with waits := f.waits + 1 }
          waits := s.waits + 1
          retryOnSameServer := s.retryOnSameServer + 1 } with isNext
      have visited : c.visit tmo s f = (next, true) := by
        simp [visit, f.wait_of_not_ready notReady, retry, isNext]
      have ends := ih (s := next) rfl working (by simp only [isNext]; omega)
      rw [f.attempt_of_retry notReady retry] at ends
      refine ends.of_next (fun t => ?_) rfl rfl rfl rfl ?_
      · rw [waits_visit hf working (by rw [visited]), visited]
      · simp only [isNext]
        omega

end Channel

end ChaosFramework.Message
