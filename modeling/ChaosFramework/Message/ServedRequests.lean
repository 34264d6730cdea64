import ChaosFramework.Message.MultiAddressMessageRequestFuture

/-!
# Waiting for one of several servers

The loop of `wait` over the servers. It does what it should when one of the first three requests is
answered by a server in time and those before it have failed (`Channel.served_iff`). The channel
whose servers are those of a feeder is one of the channels that this is about.
-/

namespace ChaosFramework.Message

open Network Transition Option MessageRequestFuture

variable {σ : Type*}

namespace Channel

variable {c : Channel σ} {tmo : ℤ} {s t u : MultiAddressMessageRequestFuture σ}
  {f : MessageRequestFuture} {sub : Option (String × Behaviour)} {reqs fuel tries more : ℕ}
  {chan : σ}

/-- The outer loop ends. -/
def Returns (c : Channel σ) (timeoutInMilliseconds : ℤ)
    (s t : MultiAddressMessageRequestFuture σ) : Prop :=
  ∃ fuel, c.waitOnServers timeoutInMilliseconds fuel s = some t

theorem waitOnServers_mono (ends : c.waitOnServers tmo fuel s = some t) (more : ℕ) :
    c.waitOnServers tmo (fuel + more) s = some t := by
  induction fuel generalizing s with
  | zero => cases ends
  | succ fuel ih =>
    rw [Nat.add_right_comm]
    rw [waitOnServers] at ends ⊢
    split at ends
    case isFalse stops => rwa [if_neg stops]
    case isTrue goesOn =>
      obtain ⟨u, waited, rest⟩ := bind_eq_some_iff.mp ends
      rw [if_pos goesOn, waitOnServer_mono waited]
      exact ih rest

theorem returns_iff (ho : s.retryOtherServer < 2) (working : s.working = true) :
    c.Returns tmo s t ↔ ∃ u, c.Waits tmo s u ∧ c.Returns tmo (c.tryOther u) t := by
  constructor
  · rintro ⟨_ | fuel, ends⟩
    · cases ends
    · rw [waitOnServers, if_pos ⟨ho, working⟩] at ends
      obtain ⟨u, waited, rest⟩ := bind_eq_some_iff.mp ends
      exact ⟨u, ⟨fuel, waited⟩, fuel, rest⟩
  · rintro ⟨u, ⟨fuel, waited⟩, fuelToo, rest⟩
    refine ⟨fuel + fuelToo + 1, ?_⟩
    rw [waitOnServers, if_pos ⟨ho, working⟩, waitOnServer_mono waited, bind_some,
      Nat.add_comm fuel, waitOnServers_mono rest]

theorem returns_of_stopped (stopped : s.working = false) : c.Returns tmo s t ↔ s = t := by
  have stops : ¬ (s.retryOtherServer < 2 ∧ s.working = true) := by
    rw [stopped]
    exact fun both => Bool.false_ne_true both.2
  constructor
  · rintro ⟨_ | fuel, ends⟩
    · cases ends
    · rw [waitOnServers, if_neg stops] at ends
      exact Option.some.inj ends
  · rintro rfl
    exact ⟨1, by rw [waitOnServers, if_neg stops]⟩

/-- The request has been submitted, with the given result, and nobody has waited for it. -/
structure Submitted (s : MultiAddressMessageRequestFuture σ)
    (submission : Option (String × Behaviour)) : Prop where
  working : s.working = true
  others : s.retryOtherServer < 2
  future : s.currentFuture = submission.map fun sent => .new sent.2
  address : ∀ sent ∈ submission, s.lastUsedAddress = sent.1

theorem submit_eq : ∃ addr, c.submit s =
    { s with
      channel := (c.sendRequestWithFuture s.channel).1
      currentFuture := (c.sendRequestWithFuture s.channel).2.map fun sent => .new sent.2
      lastUsedAddress := addr } ∧
    ∀ sent ∈ (c.sendRequestWithFuture s.channel).2, addr = sent.1 := by
  unfold submit
  rcases c.sendRequestWithFuture s.channel with ⟨chan, _ | ⟨addr, beh⟩⟩
  · exact ⟨_, rfl, nofun⟩
  · exact ⟨addr, rfl, fun _ sent => by rw [← mem_some_iff.mp sent]⟩

theorem tryOther_some (working : s.working = true) (ho : s.retryOtherServer < 2)
    (found : (c.sendRequestWithFuture s.channel).2.isSome) :
    Submitted (c.tryOther s) (c.sendRequestWithFuture s.channel).2 ∧
      (c.tryOther s).channel = (c.sendRequestWithFuture s.channel).1 ∧
      (c.tryOther s).retryOnSameServer = s.retryOnSameServer ∧
      (c.tryOther s).retransmissions = s.retransmissions + 1 ∧ (c.tryOther s).waits = s.waits := by
  obtain ⟨addr, hs, used⟩ := c.submit_eq (s := s)
  obtain ⟨sent, isSent⟩ := isSome_iff_exists.mp found
  have tried : c.tryOther s = { c.submit s with retransmissions := s.retransmissions + 1 } := by
    simp [tryOther, working, hs, isSent]
  rw [tried, hs]
  exact ⟨⟨working, ho, rfl, used⟩, rfl, rfl, rfl, rfl⟩

theorem tryOther_none (working : s.working = true)
    (hm : (c.sendRequestWithFuture s.channel).2 = none) :
    (c.tryOther s).working = false ∧ (c.tryOther s).currentFuture = none := by
  obtain ⟨addr, hs, -⟩ := c.submit_eq (s := s)
  simp [tryOther, working, hs, hm]

theorem tryOther_stopped (stopped : s.working = false) : c.tryOther s = s :=
  if_neg (by rw [stopped]; exact Bool.false_ne_true)

theorem not_holds_of_none (hm : s.currentFuture = none) : ¬ s.HoldsRemoteAnswer := by
  rintro ⟨f, hf, -⟩
  rw [hm] at hf
  cases hf

theorem remaining_new (beh : Behaviour) : (new beh).remaining = beh := by
  cases beh <;> rfl

theorem Submitted.ends {addr : String} {beh : Behaviour}
    (hs : Submitted s (some (addr, beh))) (tmo : ℤ) :
    c.Ends tmo s (beh.attempt tmo s.retryOnSameServer) := by
  have ends : c.Ends tmo s ((new beh).remaining.attempt tmo s.retryOnSameServer) :=
    ends_attempt hs.future hs.working
  rwa [remaining_new] at ends

/-- One of the requests is answered: `wait` ends with the answer. -/
theorem returns_of_answered (hs : Submitted s sub)
    (ha : c.Answered tmo reqs s.channel sub s.retryOnSameServer) :
    ∃ t, c.Returns tmo s t ∧ t.working = false ∧ t.HoldsRemoteAnswer ∧
      t.retransmissions + 1 ≤ s.retransmissions + reqs ∧
      t.waits + min s.retryOnSameServer 3 ≤ s.waits + reqs + 3 := by
  induction reqs generalizing s sub with
  | zero => exact ha.elim
  | succ reqs ih =>
    -- What comes after a server that has been given up, or when there was none.
    have further (u : MultiAddressMessageRequestFuture σ) (working : u.working = true)
        (ho : u.retryOtherServer < 2)
        (rest : (c.sendRequestWithFuture u.channel).2.isSome ∧
          c.Answered tmo reqs (c.sendRequestWithFuture u.channel).1
            (c.sendRequestWithFuture u.channel).2 u.retryOnSameServer) :
        ∃ t, c.Returns tmo (c.tryOther u) t ∧ t.working = false ∧
          t.HoldsRemoteAnswer ∧ t.retransmissions ≤ u.retransmissions + reqs ∧
          t.waits + min u.retryOnSameServer 3 ≤ u.waits + reqs + 3 := by
      obtain ⟨again, hc, retries, retransmissions, hw⟩ :=
        tryOther_some working ho rest.1
      obtain ⟨t, returns, stopped, hh, few, short⟩ :=
        ih again (by rw [hc, retries]; exact rest.2)
      refine ⟨t, returns, stopped, hh, ?_, ?_⟩
      · omega
      · rwa [retries, hw] at short
    cases sub with
    | none =>
      have waited : c.Waits tmo s s :=
        ⟨1, waitOnServer_idle (.inl hs.future) 0⟩
      obtain ⟨t, returns, stopped, hh, few, short⟩ :=
        further s hs.working hs.others ha
      exact ⟨t, (returns_iff hs.others hs.working).mpr ⟨s, waited, returns⟩, stopped,
        hh, by omega, by omega⟩
    | some sent =>
      obtain ⟨addr, beh⟩ := sent
      have ends := hs.ends (c := c) tmo
      rw [Answered] at ha
      cases attempt : beh.attempt tmo s.retryOnSameServer with
      | received =>
        rw [attempt] at ends
        obtain ⟨t, waited, hr⟩ := ends
        have stays := tryOther_stopped (c := c) hr.stopped
        refine ⟨t, (returns_iff hs.others hs.working).mpr ⟨t, waited, ?_⟩,
          hr.stopped, hr.holds, ?_, ?_⟩
        · rw [stays]
          exact (returns_of_stopped hr.stopped).mpr rfl
        · rw [hr.retransmissions]
          omega
        · have paid := hr.paid
          unfold Paid at paid
          omega
      | failed retries =>
        rw [attempt] at ends ha
        obtain ⟨u, waited, failed⟩ := ends
        have used : s.lastUsedAddress = addr := hs.address _ rfl
        rw [← used, ← failed.channel, ← failed.retries] at ha
        obtain ⟨t, returns, stopped, hh, few, short⟩ :=
          further u failed.working (failed.others ▸ hs.others) ha
        refine ⟨t, (returns_iff hs.others hs.working).mpr ⟨u, waited, returns⟩, stopped, hh, ?_, ?_⟩
        · rw [failed.retransmissions] at few
          omega
        · have paid := failed.paid
          unfold Paid at paid
          omega
      | stuck =>
        rw [attempt] at ha
        exact ha.elim

/-- When `wait` ends it is not working any more. It ends with an answer if one of the requests that
it has made is answered. -/
theorem answered_of_returns (hs : Submitted s sub)
    (returned : c.waitOnServers tmo fuel s = some t) :
    t.working = false ∧ (t.HoldsRemoteAnswer → ∃ more,
      t.retransmissions = s.retransmissions + more ∧
      c.Answered tmo (more + 1) s.channel sub s.retryOnSameServer) := by
  induction fuel generalizing s sub with
  | zero => cases returned
  | succ fuel ih =>
    rw [waitOnServers, if_pos ⟨hs.others, hs.working⟩] at returned
    obtain ⟨u, waitedOnce, rest⟩ := bind_eq_some_iff.mp returned
    have waited : c.Waits tmo s u := ⟨fuel, waitedOnce⟩
    have further (working : u.working = true) (ho : u.retryOtherServer < 2) :
        t.working = false ∧ (t.HoldsRemoteAnswer → ∃ more,
          t.retransmissions = u.retransmissions + (more + 1) ∧
          (c.sendRequestWithFuture u.channel).2.isSome ∧
          c.Answered tmo (more + 1) (c.sendRequestWithFuture u.channel).1
            (c.sendRequestWithFuture u.channel).2 u.retryOnSameServer) := by
      cases found : (c.sendRequestWithFuture u.channel).2 with
      | none =>
        obtain ⟨stopped, hm⟩ := tryOther_none working found
        obtain rfl := (returns_of_stopped stopped).mp ⟨fuel, rest⟩
        exact ⟨stopped, fun hh => absurd hh (not_holds_of_none hm)⟩
      | some sent =>
        obtain ⟨again, hc, retries, retransmissions, -⟩ :=
          tryOther_some working ho (by rw [found]; rfl)
        obtain ⟨stopped, ha⟩ := ih again rest
        refine ⟨stopped, fun hh => ?_⟩
        obtain ⟨more, count, ha⟩ := ha hh
        rw [hc, retries, found] at ha
        exact ⟨more, by omega, rfl, ha⟩
    cases sub with
    | none =>
      obtain rfl := waited.unique ⟨1, waitOnServer_idle (.inl hs.future) 0⟩
      obtain ⟨stopped, ha⟩ := further hs.working hs.others
      refine ⟨stopped, fun hh => ?_⟩
      obtain ⟨more, count, ht, ha⟩ := ha hh
      exact ⟨more + 1, count, ht, ha⟩
    | some sent =>
      obtain ⟨addr, beh⟩ := sent
      have ends := hs.ends (c := c) tmo
      cases attempt : beh.attempt tmo s.retryOnSameServer with
      | received =>
        rw [attempt] at ends
        obtain ⟨v, hw, hr⟩ := ends
        obtain rfl := waited.unique hw
        rw [tryOther_stopped hr.stopped] at rest
        obtain rfl := (returns_of_stopped hr.stopped).mp ⟨fuel, rest⟩
        refine ⟨hr.stopped, fun _ => ⟨0, hr.retransmissions, ?_⟩⟩
        rw [Answered, attempt]
        trivial
      | failed retries =>
        rw [attempt] at ends
        obtain ⟨v, hw, failed⟩ := ends
        obtain rfl := waited.unique hw
        obtain ⟨stopped, ha⟩ :=
          further failed.working (failed.others ▸ hs.others)
        refine ⟨stopped, fun hh => ?_⟩
        obtain ⟨more, count, ht, ha⟩ := ha hh
        refine ⟨more + 1, by rw [count, failed.retransmissions], ?_⟩
        rw [Answered, attempt]
        have used : s.lastUsedAddress = addr := hs.address _ rfl
        rw [failed.channel, used] at ht ha
        rw [failed.retries] at ha
        exact ⟨ht, ha⟩
      | stuck =>
        rw [attempt] at ends
        exact absurd waited (ends u)

theorem Answered.succ (ha : c.Answered tmo reqs chan sub tries) :
    c.Answered tmo (reqs + 1) chan sub tries := by
  induction reqs generalizing chan sub tries with
  | zero => exact ha.elim
  | succ reqs ih =>
    cases sub with
    | none =>
      exact ⟨ha.1, ih ha.2⟩
    | some sent =>
      obtain ⟨addr, beh⟩ := sent
      rw [Answered] at ha ⊢
      cases attempt : beh.attempt tmo tries with
      | received => trivial
      | failed tries =>
        rw [attempt] at ha
        exact ⟨ha.1, ih ha.2⟩
      | stuck =>
        rw [attempt] at ha
        exact ha

/-- More requests do no harm. -/
theorem Answered.mono (fewer : reqs ≤ more) (ha : c.Answered tmo reqs chan sub tries) :
    c.Answered tmo more chan sub tries := by
  induction fewer with
  | refl => exact ha
  | step _ ih => exact ih.succ

/-- How long `wait` may take makes no difference to what it returns. -/
theorem wait_unique {first second : Bool × MultiAddressMessageRequestFuture σ}
    (returned : c.wait tmo fuel s = some first)
    (hr : c.wait tmo more s = some second) : first = second := by
  obtain ⟨t, ends, rfl⟩ := map_eq_some_iff.mp returned
  obtain ⟨u, he, rfl⟩ := map_eq_some_iff.mp hr
  have both := waitOnServers_mono ends more
  rw [Nat.add_comm, waitOnServers_mono he fuel] at both
  rw [Option.some.inj both]

/-- `wait` is called after the construction. -/
theorem submitted_start (c : Channel σ) (chan : σ) :
    Submitted (c.construct chan).start (c.sendRequestWithFuture chan).2 ∧
      (c.construct chan).start.channel = (c.sendRequestWithFuture chan).1 := by
  obtain ⟨addr, hc, used⟩ := c.submit_eq
  rw [construct, hc]
  exact ⟨⟨rfl, Nat.zero_lt_two, rfl, used⟩, rfl⟩

/-- `wait` does what it should if one of the first three requests is answered by a server in time
and those before it have failed. -/
theorem served_iff (c : Channel σ) (timeoutInMilliseconds : ℤ) (channel : σ) :
    c.Served timeoutInMilliseconds channel ↔
      c.Answered timeoutInMilliseconds 3 (c.sendRequestWithFuture channel).1
        (c.sendRequestWithFuture channel).2 0 := by
  obtain ⟨hs, startChannel⟩ := c.submitted_start channel
  have hn : (c.construct channel).start.retryOnSameServer = 0 := rfl
  have noRetransmissions : (c.construct channel).start.retransmissions = 0 := rfl
  have noWaits : (c.construct channel).start.waits = 0 := rfl
  constructor
  · rintro ⟨fuel, res, t, waited, few, -, right⟩
    obtain ⟨t, returned, made⟩ := map_eq_some_iff.mp waited
    obtain ⟨rfl, rfl⟩ := Prod.mk.inj made
    obtain ⟨stopped, ha⟩ := answered_of_returns hs returned
    obtain ⟨more, count, ha⟩ := ha (right.mp (by rw [stopped]; rfl))
    rw [startChannel] at ha
    exact ha.mono (by omega)
  · intro ha
    rw [← startChannel] at ha
    obtain ⟨t, ⟨fuel, returned⟩, stopped, hh, few, short⟩ :=
      returns_of_answered hs ha
    refine ⟨fuel, true, t, ?_, by omega, by omega, iff_of_true rfl hh⟩
    rw [wait, returned, map_some, stopped]
    rfl

end Channel

/-! ### The channel of the feeder -/

/-- The feeder of the channel, with the number of the requests that have been submitted. -/
structure MultiAddressMessageChannel where
  serviceFeeder : URLHAServiceFeeder
  submitted : ℕ

/-- What the channel does not decide. -/
structure Environment where
  /-- `ip_port` of a service. -/
  ipPort : ServicePtr → String
  /-- What becomes of a request. -/
  behaviour : ℕ → Behaviour
  /-- What the timer and other users of the channel do with the feeder before a request. -/
  meanwhile : ℕ → List URLHAServiceFeeder.Action
  /-- The time at which the server of a request is given up. -/
  clock : ℕ → ℕ

namespace MultiAddressMessageChannel

def sendRequestWithFuture (e : Environment) (c : MultiAddressMessageChannel) :
    MultiAddressMessageChannel × Option (String × Behaviour) :=
  let feeder := (execute URLHAServiceFeeder.step c.serviceFeeder (e.meanwhile c.submitted)).getD
    c.serviceFeeder
  match feeder.getService with
  | some (feeder, some service) =>
      (⟨feeder, c.submitted + 1⟩, some (e.ipPort service, e.behaviour c.submitted))
  | some (feeder, none) => (⟨feeder, c.submitted⟩, none)
  -- A slot behind the list has been accessed.
  | none => (c, none)

def setURLAsOffline (e : Environment) (c : MultiAddressMessageChannel) (address : String) :
    MultiAddressMessageChannel :=
  { c with serviceFeeder :=
      (c.serviceFeeder.setURLAsOffline address (e.clock c.submitted)).getD c.serviceFeeder }

def channel (e : Environment) : Channel MultiAddressMessageChannel :=
  ⟨sendRequestWithFuture e, setURLAsOffline e⟩

end MultiAddressMessageChannel

/-- The requests are answered as the function says, and the feeder is left alone. -/
def quietEnvironment (behaviour : ℕ → Behaviour) : Environment where
  ipPort service := if service = 1 then "mds1:5000" else "mds2:5000"
  behaviour := behaviour
  meanwhile _ := []
  clock _ := 0

def twoServers : MultiAddressMessageChannel :=
  ⟨(URLHAServiceFeeder.init.addURL "mds1:5000" 0 (some 1)).addURL "mds2:5000" 0 (some 2), 0⟩

/-- The first request cannot be submitted, the second one is answered. -/
example :
    let channel := MultiAddressMessageChannel.channel (quietEnvironment fun n =>
      if n = 0 then .answers 0 (some ⟨true, some (-1)⟩) else .answers 2 (some ⟨false, none⟩))
    channel.Answered 5000 3 (channel.sendRequestWithFuture twoServers).1
      (channel.sendRequestWithFuture twoServers).2 0 :=
  ⟨rfl, trivial⟩

/-- Neither of the servers answers, both are given up, and `wait` returns true. -/
theorem true_without_answer :
    ∃ t, (MultiAddressMessageChannel.channel (quietEnvironment fun _ => .silent)).wait 5000 10
        ((MultiAddressMessageChannel.channel (quietEnvironment fun _ => .silent)).construct
          twoServers) = some (true, t) ∧ t.currentFuture = none ∧
      ¬ (MultiAddressMessageChannel.channel (quietEnvironment fun _ => .silent)).Served 5000
        twoServers := by
  refine ⟨_, rfl, rfl, ?_⟩
  rintro ⟨fuel, res, t, returned, -, -, right⟩
  have ends : (MultiAddressMessageChannel.channel (quietEnvironment fun _ => .silent)).wait 5000 10
      ((MultiAddressMessageChannel.channel (quietEnvironment fun _ => .silent)).construct
        twoServers) = some (true, _) := rfl
  obtain ⟨rfl, rfl⟩ := Prod.mk.inj (Channel.wait_unique ends returned)
  exact Channel.not_holds_of_none rfl (right.mp rfl)

end ChaosFramework.Message
