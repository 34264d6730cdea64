import ChaosFramework.Batch.Channel
import ChaosFramework.Batch.CommandStateHistory

/-!
# The batch command executor

The executor owns any number of sandboxes of one kind, the execution channels, and one history of
command states. It hands the submitted commands to the sandbox of their channel, reports an
identifier to the caller and records the events that the sandboxes report, by identifier.

Two channels give out the same identifiers, and one of the two submission calls reports what
`enqueueCommand` returns, which the parallel sandbox leaves at zero. `AssignsAlone` and `Identifies`
say when neither shows.
-/

namespace ChaosFramework.Batch

open SubmissionRuleType Transition List Option Function CommandStateHistory Sandbox
  BatchCommandSandbox

/-- `CException`. -/
structure CException where
  errorCode : Int
  errorMessage : String
  errorDomain : String
  deriving DecidableEq, Repr

/-- The keys of a command description that a submission reads. -/
structure SubmissionDescription where
  executionChannel : Option Nat
  submissionPriority : Option Nat
  submissionRule : Option Nat
  submissionRetryDelay : Option Nat
  schedulerStepTimeInterval : Option Nat
  deriving DecidableEq, Repr

/-- What a submission hands to the sandbox. -/
structure SubmissionRequest where
  executionChannel : Nat
  description : CommandClass
  submissionRule : Nat
  submissionRetryDelay : Nat
  schedulerStepDelay : Nat
  priority : Nat
  deriving DecidableEq, Repr

/-- A submission that has returned: the reported identifier, the command it is about and
the state object that its announcement has created. -/
structure Submission where
  commandId : Nat
  channel : Nat
  command : CommandRef
  state : Option StateRef
  deriving DecidableEq, Repr

structure BatchCommandExecutor where
  serializedSandbox : Bool
  /-- The service state is `START`. -/
  started : Bool
  mapCommandDescription : List CommandClass
  /-- Sandbox `k` serves channel `k`. -/
  sandboxMap : List Sandbox
  commandStates : CommandStateHistory
  /-- The submissions that have returned, oldest first. -/
  submissions : List Submission

namespace BatchCommandExecutor

/-- `COMMAND_STATE_QUEUE_DEFAULT_SIZE`. -/
def commandStateQueueMaxSize : Nat := 50

/-- A sandbox that is added is initialized by `init` of the executor only. Here it starts out
initialized, so that the calls between the two are those of an initialized sandbox. -/
def newSandbox (serializedSandbox : Bool) : Sandbox :=
  if serializedSandbox then .serialized .init else .parallel .init

/-- The constructor adds the first sandbox. -/
def init (serializedSandbox : Bool) : BatchCommandExecutor where
  serializedSandbox := serializedSandbox
  started := false
  mapCommandDescription := []
  sandboxMap := [newSandbox serializedSandbox]
  commandStates := .empty
  submissions := []

/-- `map::insert` keeps a description that is already there. -/
def installCommand (e : BatchCommandExecutor) (description : CommandClass) :
    BatchCommandExecutor :=
  if e.mapCommandDescription.any (·.commandAlias == description.commandAlias) then e
  else { e with mapCommandDescription := e.mapCommandDescription ++ [description] }

def findDescription (e : BatchCommandExecutor) (commandAlias : String) : Option CommandClass :=
  e.mapCommandDescription.find? (·.commandAlias == commandAlias)

def addSandboxInstance (e : BatchCommandExecutor) (sandboxNumber : Nat) : BatchCommandExecutor :=
  { e with sandboxMap :=
      e.sandboxMap ++ List.replicate sandboxNumber (newSandbox e.serializedSandbox) }

/-! ### Events -/

/-- Hand the events of a sandbox to the history, in their order, as the event handler of
`SlowCommandExecutor` does: it calls that of `BatchCommandExecutor` first. -/
def deliver (sandbox : Sandbox) : List CommandEvent → CommandStateHistory →
    Option CommandStateHistory
  | [], h => some h
  | event :: rest, h =>
      (h.handleCommandEvent (sandbox.uniqueId event.command) event.type
        event.commandAndFault).bind (deliver sandbox rest)

/-- A sandbox has moved from `before` to `after`; the calls of the event handler that it has
made on the way, that of `SlowCommandExecutor`, are part of the move. -/
def moveSandbox (e : BatchCommandExecutor) (channel : Nat) (before after : Sandbox) :
    Option BatchCommandExecutor :=
  (deliver after (after.events.drop before.events.length) e.commandStates).map fun h =>
    { e with sandboxMap := e.sandboxMap.set channel after, commandStates := h }

/-! ### Submissions -/

/-- The checks and defaults of the first `submitCommand`. -/
def describedRequest (e : BatchCommandExecutor) (commandAlias : String)
    (commandDescription : Option SubmissionDescription) : Except CException SubmissionRequest :=
  match commandDescription with
  | none => .error ⟨-1, "Invalid parameter", "BatchCommandExecutor::setCommandFeatures"⟩
  | some keys =>
      let executionChannel := keys.executionChannel.getD 0
      if e.started = false then
        .error ⟨-2, "Slow command executor is not started", "BatchCommandExecutor::submitCommand"⟩
      else if e.sandboxMap.length ≤ executionChannel then
        .error ⟨-3, "Execution channel not found", "BatchCommandExecutor::submitCommand"⟩
      else match e.findDescription commandAlias with
        | none =>
            .error ⟨-4, "Command instantiation failed", "BatchCommandExecutor::submitCommand"⟩
        | some description => .ok {
            executionChannel := executionChannel
            description := description
            submissionRule := keys.submissionRule.getD submitNormal
            submissionRetryDelay := keys.submissionRetryDelay.getD 1000000
            schedulerStepDelay := keys.schedulerStepTimeInterval.getD 1000000
            priority := keys.submissionPriority.getD 50 }

/-- The checks of the second `submitCommand`, which does not look at the service state. -/
def directRequest (e : BatchCommandExecutor) (commandAlias : String)
    (executionChannel priority submissionRule submissionRetryDelay schedulerStepDelay : Nat) :
    Except CException SubmissionRequest :=
  if e.sandboxMap.length ≤ executionChannel then
    .error ⟨-3, "Execution channel not found", "BatchCommandExecutor::submitCommand"⟩
  else match e.findDescription commandAlias with
    | none => .error ⟨-4, "Command instantiation failed", "BatchCommandExecutor::submitCommand"⟩
    | some description => .ok {
        executionChannel := executionChannel
        description := description
        submissionRule := submissionRule
        submissionRetryDelay := submissionRetryDelay
        schedulerStepDelay := schedulerStepDelay
        priority := priority }

/-- Enqueue the command and report the identifier that `reported` reads off the sandbox. -/
def enqueueRequest (e : BatchCommandExecutor) (request : SubmissionRequest)
    (reported : Sandbox → Nat) : Option BatchCommandExecutor :=
  match e.sandboxMap[request.executionChannel]? with
  | none => none
  | some before =>
      let after := before.enqueueCommand request.description request.submissionRule
        request.submissionRetryDelay request.schedulerStepDelay request.priority
      (e.moveSandbox request.executionChannel before after).map fun moved =>
        { moved with submissions := moved.submissions ++ [{
            commandId := reported before
            channel := request.executionChannel
            command := after.commandSequenceId
            state := if e.commandStates.created < moved.commandStates.created then
              some e.commandStates.created else none }] }

/-- A call with a refused request leaves the executor as it is. -/
def submit (e : BatchCommandExecutor) (request : Except CException SubmissionRequest)
    (reported : Sandbox → Nat) : Option BatchCommandExecutor :=
  match request with
  | .ok request => e.enqueueRequest request reported
  | .error _ => some e

/-- `setDefaultCommand`, refused while the executor is started. The command always goes to
the first sandbox. -/
def setDefaultCommand (e : BatchCommandExecutor) (commandAlias : String) :
    Option BatchCommandExecutor :=
  if e.started then some e
  else match e.findDescription commandAlias, e.sandboxMap[0]? with
    | some description, some before =>
        (before.setDefaultStickyCommand description).bind (e.moveSandbox 0 before)
    | _, _ => some e

/-! ### Transitions -/

/-- Calls of the executor, and steps of its sandboxes. The sandboxes are started, stopped and
deinitialized by their own steps, since the executor walks over them one by one. -/
inductive Action
  | installCommand (description : CommandClass)
  | addSandboxInstance (sandboxNumber : Nat)
  | start
  | stop
  | setDefaultCommand (commandAlias : String)
  | submitCommand (commandAlias : String) (commandDescription : Option SubmissionDescription)
  | submitCommandOn (commandAlias : String)
      (executionChannel priority submissionRule submissionRetryDelay schedulerStepDelay : Nat)
  | runSandbox (channel : Nat) (action : SandboxAction)
  | timeout
  | flushCommandStates

/-- The transition function. The first `submitCommand` reports the `unique_id` of the
instance, the second one what `enqueueCommand` returns. -/
def step (e : BatchCommandExecutor) : Action → Option BatchCommandExecutor
  | .installCommand description => some (e.installCommand description)
  | .addSandboxInstance sandboxNumber => some (e.addSandboxInstance sandboxNumber)
  | .start => some { e with started := true }
  | .stop => some { e with started := false }
  | .setDefaultCommand commandAlias => e.setDefaultCommand commandAlias
  | .submitCommand commandAlias commandDescription =>
      e.submit (e.describedRequest commandAlias commandDescription) Sandbox.assignedId
  | .submitCommandOn commandAlias executionChannel priority submissionRule submissionRetryDelay
      schedulerStepDelay =>
      e.submit (e.directRequest commandAlias executionChannel priority submissionRule
        submissionRetryDelay schedulerStepDelay) Sandbox.enqueueResult
  | .runSandbox channel action =>
      match e.sandboxMap[channel]? with
      | none => none
      | some before =>
          if action.fromExecutor then none
          else (before.step action).bind (e.moveSandbox channel before)
  | .timeout => some { e with
      commandStates := e.commandStates.capCommanaQueue commandStateQueueMaxSize }
  | .flushCommandStates => some { e with commandStates := e.commandStates.flushCommandStates }

/-! ### The record of the submissions -/

/-- The state objects of the history are those of the submissions, under the reported
identifiers, and what is still in the queue holds the last event of its command. `log` gives
for each channel the events delivered so far. -/
structure Recorded (submissions : List Submission) (h : CommandStateHistory)
    (log : Nat → List CommandEvent) : Prop where
  indexed : h.Indexed
  distinct : (submissions.map (·.commandId)).Nodup
  owned : ∀ r < h.created, ∃ sub ∈ submissions, sub.state = some r
  named : ∀ sub ∈ submissions, ∃ r, sub.state = some r ∧ r < h.created ∧
    (h.objects r).commandId = sub.commandId
  latest : ∀ sub ∈ submissions, ∀ r ∈ h.commandStateQueue, sub.state = some r →
    (historyOf (log sub.channel) sub.command).getLast? = some (h.objects r).lastEvent

variable {submissions : List Submission} {h h' : CommandStateHistory}
  {log : Nat → List CommandEvent} {channel id : Nat} {event : CommandEvent}

theorem recorded_empty (log : Nat → List CommandEvent) : Recorded [] .empty log where
  indexed := indexed_empty
  distinct := nodup_nil
  owned r below := absurd below (Nat.not_lt_zero r)
  named := nofun
  latest := nofun

/-- The identifier of a state object in the queue is that of its submission. -/
theorem Recorded.commandId_of_state {sub : Submission} {r : StateRef}
    (hr : Recorded submissions h log) (hm : sub ∈ submissions)
    (state : sub.state = some r) : (h.objects r).commandId = sub.commandId := by
  obtain ⟨found, stateToo, -, hn⟩ := hr.named sub hm
  obtain rfl : found = r := Option.some.inj (stateToo.symm.trans state)
  exact hn

/-- Capping and flushing. -/
theorem Recorded.forgets (hr : Recorded submissions h log) (hf : h.Forgets h') :
    Recorded submissions h' log where
  indexed := hf.indexed
  distinct := hr.distinct
  owned r below := hr.owned r (hf.created ▸ below)
  named sub hm := by
    rw [hf.objects, hf.created]
    exact hr.named sub hm
  latest sub hm r kept state := by
    rw [hf.objects]
    exact hr.latest sub hm r (hf.subset kept) state

/-- The history of a command after one more event on a channel. -/
theorem historyOf_update (log : Nat → List CommandEvent) (channel other : Nat) (c : CommandRef)
    (event : CommandEvent) :
    historyOf (update log channel (log channel ++ [event]) other) c =
      historyOf (log other) c ++
        if other = channel ∧ c = event.command then [event.type] else [] := by
  obtain rfl | same := eq_or_ne other channel
  · by_cases named : event.command = c
    · simp [named]
    · simp [named, Ne.symm named]
  · simp [same]

section

variable (hr : Recorded submissions h log)

include hr

/-- An event reaches the state of the submission it is about, and no other. -/
theorem Recorded.handle (later : event.type ≠ .queued)
    (ht : ∀ sub ∈ submissions,
      sub.commandId = id ↔ sub.channel = channel ∧ sub.command = event.command)
    (hh : h.handleCommandEvent id event.type event.commandAndFault = some h') :
    Recorded submissions h' (update log channel (log channel ++ [event])) := by
  rcases handleCommandEvent_cases later hh with
    ⟨missing, rfl⟩ | ⟨found, f, mapped, rfl, hw⟩
  · refine { hr with latest := fun sub hm r kept state => ?_ }
    -- The map has lost the identifier, so no submission with it is in the queue.
    have other : ¬ (sub.channel = channel ∧ sub.command = event.command) := by
      rw [← ht sub hm]
      intro same
      have hp := (hr.indexed.mapped id r).mpr ⟨kept, (hr.commandId_of_state hm state).trans same⟩
      rw [missing] at hp
      cases hp
    rw [historyOf_update, if_neg other, append_nil]
    exact hr.latest sub hm r kept state
  · have objects (r : StateRef) (different : r ≠ found) :
        (h.write found f).objects r = h.objects r := by simp [different]
    have names (r : StateRef) : ((h.write found f).objects r).commandId =
        (h.objects r).commandId := by
      obtain rfl | same := eq_or_ne r found
      · simp [(hw _).1]
      · rw [objects r same]
    have identifier : (h.objects found).commandId = id :=
      ((hr.indexed.mapped id found).mp mapped).2
    refine ⟨hr.indexed.write fun state => (hw state).1, hr.distinct,
      hr.owned, fun sub hm => ?_, fun sub hm r kept state => ?_⟩
    · obtain ⟨r, state, below, hn⟩ := hr.named sub hm
      exact ⟨r, state, below, (names r).trans hn⟩
    · have hn := hr.commandId_of_state hm state
      rw [historyOf_update]
      by_cases reached : sub.commandId = id
      · -- Both `r` and the written object are the one mapped to the identifier.
        have hp := (hr.indexed.mapped id r).mpr ⟨kept, hn.trans reached⟩
        obtain rfl : found = r := Option.some.inj (mapped.symm.trans hp)
        rw [if_pos ((ht sub hm).mp reached)]
        simp [(hw _).2]
      · have different : r ≠ found := by
          rintro rfl
          exact reached (hn.symm.trans identifier)
        rw [if_neg (fun same => reached ((ht sub hm).mpr same)), append_nil, objects r different]
        exact hr.latest sub hm r kept state

theorem Recorded.announce (channel : Nat) (event : CommandEvent) (announces : event.type = .queued)
    (fresh : ∀ sub ∈ submissions, sub.commandId ≠ id)
    (unheard : ∀ sub ∈ submissions, ¬ (sub.channel = channel ∧ sub.command = event.command)) :
    Recorded (submissions ++ [⟨id, channel, event.command, some h.created⟩]) (h.addComamndState id)
      (update log channel (log channel ++ [event])) := by
  -- An identifier in the map is the identifier of a recorded submission.
  have unmapped : h.commandStateFastAccessMap id = none := by
    by_contra hp
    obtain ⟨r, mapped⟩ := ne_none_iff_exists'.mp hp
    obtain ⟨kept, hn⟩ := (hr.indexed.mapped id r).mp mapped
    obtain ⟨sub, hm, state⟩ := hr.owned r (hr.indexed.existing r kept)
    exact fresh sub hm ((hr.commandId_of_state hm state).symm.trans hn)
  have old (r : StateRef) (below : r < h.created) :
      (h.addComamndState id).objects r = h.objects r := by
    simp [Nat.ne_of_lt below]
  refine ⟨hr.indexed.addComamndState unmapped, ?_, ?_, ?_, ?_⟩
  · rw [map_append]
    refine nodup_append.mpr ⟨hr.distinct, nodup_singleton _, ?_⟩
    intro a known b new
    obtain ⟨sub, hm, rfl⟩ := List.mem_map.mp known
    obtain rfl := mem_singleton.mp new
    exact fresh sub hm
  · intro r below
    rcases Nat.lt_succ_iff_lt_or_eq.mp below with older | rfl
    · obtain ⟨sub, hm, state⟩ := hr.owned r older
      exact ⟨sub, mem_append_left _ hm, state⟩
    · exact ⟨_, mem_append_right _ (mem_singleton_self _), rfl⟩
  · intro sub hm
    rcases mem_append.mp hm with known | new
    · obtain ⟨r, state, below, hn⟩ := hr.named sub known
      exact ⟨r, state, Nat.lt_succ_of_lt below, by rw [old r below]; exact hn⟩
    · obtain rfl := mem_singleton.mp new
      exact ⟨h.created, rfl, Nat.lt_succ_self _, by simp⟩
  · intro sub hm r kept state
    rw [historyOf_update]
    rcases mem_append.mp hm with known | new
    -- A submission made before has its state below the new one, and this event is not about it.
    · obtain ⟨found, stateToo, below, -⟩ := hr.named sub known
      obtain rfl : found = r := Option.some.inj (stateToo.symm.trans state)
      have hq : found ∈ h.commandStateQueue := by
        rcases mem_append.mp kept with hq | hc
        · exact hq
        · exact absurd (mem_singleton.mp hc) (Nat.ne_of_lt below)
      rw [if_neg (unheard sub known), append_nil, old found below]
      exact hr.latest sub known found hq state
    · obtain rfl := mem_singleton.mp new
      obtain rfl : h.created = r := Option.some.inj state
      simp [announces]

theorem deliver_recorded {sbx : Sandbox} {evs : List CommandEvent}
    (later : ∀ event ∈ evs, event.type ≠ .queued)
    (ht : ∀ event ∈ evs, ∀ sub ∈ submissions,
      sub.commandId = sbx.uniqueId event.command ↔
        sub.channel = channel ∧ sub.command = event.command)
    (hd : deliver sbx evs h = some h') :
    Recorded submissions h' (update log channel (log channel ++ evs)) := by
  induction evs generalizing h log with
  | nil =>
    cases hd
    rwa [append_nil, update_eq_self]
  | cons event rest ih =>
    obtain ⟨mid, hh, remaining⟩ := bind_eq_some_iff.mp hd
    rw [forall_mem_cons] at later ht
    have next := ih (hr.handle later.1 ht.1 hh) later.2 ht.2 remaining
    simpa [update_idem] using next

end

/-! ### Channels -/

variable {e e' : BatchCommandExecutor}

/-- How many commands the sandbox of a channel has numbered. -/
def sequenceOf (e : BatchCommandExecutor) (channel : Nat) : Nat :=
  (e.sandboxMap[channel]?).elim 0 (·.commandSequenceId)

/-- What the sandbox of a channel has reported. -/
def eventsOf (e : BatchCommandExecutor) (channel : Nat) : List CommandEvent :=
  (e.sandboxMap[channel]?).elim [] (·.events)

/-- The events of a command, oldest first. -/
def history (e : BatchCommandExecutor) (channel : Nat) (c : CommandRef) :
    List BatchCommandEventType :=
  historyOf (e.eventsOf channel) c

/-- Every command of the executor has been numbered by one sandbox, every submission has
reported the number of its command, and the states are recorded accordingly. -/
structure Sound (e : BatchCommandExecutor) : Prop where
  numbered : ∀ sandbox ∈ e.sandboxMap, sandbox.Numbered
  alone : ∀ j k, 0 < e.sequenceOf j → 0 < e.sequenceOf k → j = k
  bounded : ∀ k, e.sequenceOf k < 2 ^ 64
  submitted : ∀ sub ∈ e.submissions, sub.commandId = sub.command ∧ 0 < sub.commandId ∧
    sub.commandId ≤ e.sequenceOf sub.channel
  recorded : Recorded e.submissions e.commandStates e.eventsOf

theorem Sound.numbered_set {after : Sandbox} (hs : e.Sound) (hn : after.Numbered) :
    ∀ sbx ∈ e.sandboxMap.set channel after, sbx.Numbered := by
  intro sbx hm
  rcases mem_or_eq_of_mem_set hm with old | rfl
  · exact hs.numbered sbx old
  · exact hn

section Move

variable {before after : Sandbox} (found : e.sandboxMap[channel]? = some before)
  {new : List CommandEvent}
include found

theorem sequenceOf_of_found : e.sequenceOf channel = before.commandSequenceId := by
  simp [sequenceOf, found]

theorem eventsOf_of_found : e.eventsOf channel = before.events := by
  simp [eventsOf, found]

theorem mem_of_found : before ∈ e.sandboxMap := mem_of_getElem? found

theorem getElem?_set (k : Nat) :
    (e.sandboxMap.set channel after)[k]? =
      if k = channel then some after else e.sandboxMap[k]? := by
  have below : channel < e.sandboxMap.length := (List.getElem?_eq_some_iff.mp found).1
  simp only [List.getElem?_set, if_pos below, eq_comm]

theorem moveSandbox_eq (added : after.events = before.events ++ new)
    (moved : e.moveSandbox channel before after = some e') :
    deliver after new e.commandStates = some e'.commandStates ∧
      e'.submissions = e.submissions ∧ e'.sandboxMap = e.sandboxMap.set channel after ∧
      e'.sequenceOf = update e.sequenceOf channel after.commandSequenceId ∧
      e'.eventsOf = update e.eventsOf channel (e.eventsOf channel ++ new) := by
  obtain ⟨h, hd, rfl⟩ := map_eq_some_iff.mp moved
  rw [added, drop_left] at hd
  refine ⟨hd, rfl, rfl, ?_, ?_⟩
  · funext k
    rw [sequenceOf, getElem?_set found, update_apply]
    split <;> rfl
  · rw [eventsOf_of_found found, ← added]
    funext k
    rw [eventsOf, getElem?_set found, update_apply]
    split <;> rfl

/-- An event that carries a number is about one submission at most. -/
theorem Sound.target (hs : e.Sound) {c : Nat} (hp : 0 < c)
    (below : c ≤ before.commandSequenceId) {sub : Submission} (hm : sub ∈ e.submissions) :
    sub.commandId = c % 2 ^ 64 ↔ sub.channel = channel ∧ sub.command = c := by
  have small : c < 2 ^ 64 :=
    Nat.lt_of_le_of_lt below (sequenceOf_of_found found ▸ hs.bounded channel)
  obtain ⟨named, positiveToo, belowToo⟩ := hs.submitted sub hm
  rw [Nat.mod_eq_of_lt small, named]
  refine ⟨fun same => ⟨hs.alone _ _ ?_ ?_, same⟩, fun same => same.2⟩
  · omega
  · rw [sequenceOf_of_found found]
    omega

theorem Sound.continues (hs : e.Sound) (hc : before.Continues after new)
    (same : after.commandSequenceId = before.commandSequenceId)
    (moved : e.moveSandbox channel before after = some e') : e'.Sound := by
  obtain ⟨hd, submissions, sandboxes, sequence, events⟩ :=
    moveSandbox_eq found hc.events moved
  -- No command is numbered, so all the counters are what they were.
  have hu : e'.sequenceOf = e.sequenceOf := by
    rw [sequence, same, ← sequenceOf_of_found found, update_eq_self]
  refine ⟨sandboxes ▸ hs.numbered_set hc.numbered, hu ▸ hs.alone,
    hu ▸ hs.bounded, hu ▸ submissions ▸ hs.submitted, ?_⟩
  rw [submissions, events]
  refine deliver_recorded hs.recorded (fun event hm => (hc.about event hm).2.2)
    (fun event hm sub known => ?_) hd
  obtain ⟨hp, below, -⟩ := hc.about event hm
  rw [hc.numbered.uniqueId hp (same ▸ below)]
  exact hs.target found hp below known

end Move

/-! ### When identifiers are unique -/

/-- No other sandbox has numbered a command, and the counter of this one does not reach the
end of its 64 bits. -/
def AssignsAlone (e : BatchCommandExecutor) (channel : Nat) : Prop :=
  (∀ k < e.sandboxMap.length, k ≠ channel → e.sequenceOf k = 0) ∧
    e.sequenceOf channel + 1 < 2 ^ 64

instance : Decidable (e.AssignsAlone channel) := inferInstanceAs (Decidable (_ ∧ _))

/-- A submission for which the caller gets the number of the command: it is accepted, no other
channel has a command, and `reported` is read off the instance, or off `enqueueCommand` of a
serialized sandbox. -/
def Identifies (e : BatchCommandExecutor) (serializedOnly : Bool) :
    Except CException SubmissionRequest → Prop
  | .error _ => True
  | .ok request => e.AssignsAlone request.executionChannel ∧
      match e.sandboxMap[request.executionChannel]? with
      | some (.serialized s) => s.deinitialized = false
      | some (.parallel _) => serializedOnly = false
      | none => True

instance (serializedOnly : Bool) (request : Except CException SubmissionRequest) :
    Decidable (e.Identifies serializedOnly request) := by
  unfold Identifies
  repeat' split
  all_goals infer_instance

/-- The steps that number a command do so alone and report its number: submissions with either
call, the direct one on a serialized sandbox only, and the installation of a default command. -/
def Identifying (e : BatchCommandExecutor) : Action → Prop
  | .setDefaultCommand commandAlias =>
      e.started = true ∨ (e.findDescription commandAlias).isNone ∨ e.AssignsAlone 0
  | .submitCommand commandAlias commandDescription =>
      e.Identifies false (e.describedRequest commandAlias commandDescription)
  | .submitCommandOn commandAlias executionChannel priority submissionRule submissionRetryDelay
      schedulerStepDelay =>
      e.Identifies true (e.directRequest commandAlias executionChannel priority submissionRule
        submissionRetryDelay schedulerStepDelay)
  | _ => True

instance (action : Action) : Decidable (e.Identifying action) := by
  unfold Identifying
  split <;> infer_instance

theorem AssignsAlone.others (alone : e.AssignsAlone channel) {k : Nat} (other : k ≠ channel) :
    e.sequenceOf k = 0 := by
  by_cases below : k < e.sandboxMap.length
  · exact alone.1 k below other
  · simp [sequenceOf, Nat.not_lt.mp below]

/-- The counters after one channel has moved its own one to at most the next number. -/
theorem AssignsAlone.update (alone : e.AssignsAlone channel) {n : Nat}
    (next : n ≤ e.sequenceOf channel + 1) :
    (∀ j k, 0 < update e.sequenceOf channel n j → 0 < update e.sequenceOf channel n k → j = k) ∧
      ∀ k, update e.sequenceOf channel n k < 2 ^ 64 := by
  have only (j : Nat) (ha : 0 < Function.update e.sequenceOf channel n j) : j = channel := by
    by_contra other
    rw [update_of_ne other, alone.others other] at ha
    exact Nat.lt_irrefl 0 ha
  refine ⟨fun j k first second => (only j first).trans (only k second).symm, fun k => ?_⟩
  obtain rfl | same := eq_or_ne k channel
  · rw [update_self]
    exact Nat.lt_of_le_of_lt next alone.2
  · rw [update_of_ne same, alone.others same]
    decide

section

variable (hs : e.Sound) {reported : Sandbox → Nat}

include hs

/-- A counter that grows keeps the submissions below it. -/
theorem Sound.submitted_update {n : Nat} (grows : e.sequenceOf channel ≤ n) :
    ∀ sub ∈ e.submissions, sub.commandId = sub.command ∧ 0 < sub.commandId ∧
      sub.commandId ≤ update e.sequenceOf channel n sub.channel := by
  intro sub hm
  obtain ⟨named, hp, below⟩ := hs.submitted sub hm
  refine ⟨named, hp, ?_⟩
  by_cases same : sub.channel = channel
  · rw [same, update_self]
    exact (same ▸ below).trans grows
  · rwa [update_of_ne same]

/-- All numbers given out so far are those of the channel that assigns alone. -/
theorem Sound.commandId_le (alone : e.AssignsAlone channel) {sub : Submission}
    (hm : sub ∈ e.submissions) : sub.commandId ≤ e.sequenceOf channel := by
  obtain ⟨-, hp, below⟩ := hs.submitted sub hm
  by_cases same : sub.channel = channel
  · rwa [same] at below
  · rw [alone.others same] at below
    omega

/-- The sandbox of a channel that assigns alone has moved its counter to at most the next
number. -/
theorem Sound.of_move {after : Sandbox} (alone : e.AssignsAlone channel) (hn : after.Numbered)
    (next : after.commandSequenceId ≤ e.sequenceOf channel + 1)
    (sandboxes : e'.sandboxMap = e.sandboxMap.set channel after)
    (sequence : e'.sequenceOf = update e.sequenceOf channel after.commandSequenceId)
    (submitted : ∀ sub ∈ e'.submissions, sub.commandId = sub.command ∧ 0 < sub.commandId ∧
      sub.commandId ≤ update e.sequenceOf channel after.commandSequenceId sub.channel)
    (hr : Recorded e'.submissions e'.commandStates e'.eventsOf) : e'.Sound := by
  obtain ⟨aloneAfter, boundedAfter⟩ := alone.update next
  exact ⟨sandboxes ▸ hs.numbered_set hn, sequence ▸ aloneAfter, sequence ▸ boundedAfter,
    sequence ▸ submitted, hr⟩

theorem Sound.enqueueRequest {req : SubmissionRequest}
    {before : Sandbox} (alone : e.AssignsAlone req.executionChannel)
    (found : e.sandboxMap[req.executionChannel]? = some before)
    (ha : before.accepts = true) (number : reported before = before.assignedId)
    (taken : e.enqueueRequest req reported = some e') : e'.Sound := by
  unfold BatchCommandExecutor.enqueueRequest at taken
  rw [found] at taken
  obtain ⟨moved, move, rfl⟩ := map_eq_some_iff.mp taken
  obtain ⟨hn, hc, stats, announced⟩ := enqueueCommand_announces
    (hs.numbered before (mem_of_found found)) ha req.description
    req.submissionRule req.submissionRetryDelay req.schedulerStepDelay
    req.priority
  set after := before.enqueueCommand req.description req.submissionRule
    req.submissionRetryDelay req.schedulerStepDelay req.priority
  obtain ⟨hd, submissions, sandboxes, sequence, events⟩ :=
    moveSandbox_eq found announced move
  have count := sequenceOf_of_found found
  have small : before.commandSequenceId + 1 < 2 ^ 64 := count ▸ alone.2
  have identifier : after.uniqueId (before.commandSequenceId + 1) =
      before.commandSequenceId + 1 := by
    rw [hn.uniqueId (Nat.succ_pos _) hc.ge, Nat.mod_eq_of_lt small]
  have reports : reported before = before.commandSequenceId + 1 := by
    rw [number, assignedId, if_pos ha, Nat.mod_eq_of_lt small]
  have states : moved.commandStates =
      e.commandStates.addComamndState (before.commandSequenceId + 1) := by
    simpa [deliver, handleCommandEvent, identifier] using hd.symm
  refine hs.of_move alone hn (by rw [hc, count]) sandboxes sequence ?_ ?_
  · rw [submissions]
    intro sub hm
    rcases mem_append.mp hm with old | new
    · exact hs.submitted_update (by omega) sub old
    · obtain rfl := mem_singleton.mp new
      simp only [update_self, reports, hc]
      exact ⟨trivial, Nat.succ_pos _, Nat.le_refl _⟩
  · change Recorded (moved.submissions ++ [_]) moved.commandStates moved.eventsOf
    rw [submissions, states, events, reports, hc]
    -- all numbers given out so far are smaller than the new one
    have fresh (sub : Submission) (hm : sub ∈ e.submissions) :
        sub.commandId ≠ before.commandSequenceId + 1 := by
      have older := hs.commandId_le alone hm
      omega
    have announce := hs.recorded.announce req.executionChannel
      ⟨before.commandSequenceId + 1, .queued, none, stats⟩ rfl fresh
      fun sub hm same => fresh sub hm ((hs.submitted sub hm).1.trans same.2)
    simpa using announce

theorem Sound.submit {req : Except CException SubmissionRequest}
    {serializedOnly : Bool} (identifies : e.Identifies serializedOnly req)
    (instance' : serializedOnly = false → reported = assignedId)
    (returned : serializedOnly = true → reported = enqueueResult)
    (taken : e.submit req reported = some e') : e'.Sound := by
  cases req with
  | error refusal =>
    cases taken
    exact hs
  | ok req =>
    obtain ⟨alone, kind⟩ := identifies
    cases found : e.sandboxMap[req.executionChannel]? with
    | none =>
      simp [BatchCommandExecutor.submit, BatchCommandExecutor.enqueueRequest, found] at taken
    | some before =>
      rw [found] at kind
      refine hs.enqueueRequest alone found ?_ ?_ taken
      · cases before with
        | serialized s =>
          have live : s.deinitialized = false := kind
          simp [accepts, live]
        | parallel s => rfl
      · cases serializedOnly with
        | false => rw [instance' rfl]
        | true =>
          rw [returned rfl]
          cases before with
          | serialized s => rfl
          -- The second overload on a parallel sandbox is what the guard excludes.
          | parallel s => cases (kind : true = false)

theorem Sound.setDefaultCommand {cmdAl : String}
    (identifying : e.Identifying (.setDefaultCommand cmdAl))
    (taken : e.setDefaultCommand cmdAl = some e') : e'.Sound := by
  unfold BatchCommandExecutor.setDefaultCommand at taken
  split at taken
  next =>
    cases taken
    exact hs
  next stopped =>
    split at taken
    next descr before known found =>
      obtain ⟨after, hi, moved⟩ := bind_eq_some_iff.mp taken
      obtain ⟨hn, silent, grows, next⟩ := setDefaultStickyCommand_silent
        (hs.numbered before (mem_of_found found)) hi
      have added : after.events = before.events ++ [] := by rw [silent, append_nil]
      obtain ⟨hd, submissions, sandboxes, sequence, events⟩ :=
        moveSandbox_eq found added moved
      -- The default command takes a number, always on the first channel.
      have alone : e.AssignsAlone 0 := by
        rcases identifying with started | hu | alone
        · exact absurd started stopped
        · rw [known] at hu
          cases hu
        · exact alone
      have count := sequenceOf_of_found found
      have states : e.commandStates = e'.commandStates := Option.some.inj hd
      refine hs.of_move alone hn (by omega) sandboxes sequence ?_ ?_
      · rw [submissions]
        exact hs.submitted_update (by omega)
      · rw [submissions, events, append_nil, update_eq_self, ← states]
        exact hs.recorded
    next =>
      cases taken
      exact hs

end

theorem numbered_newSandbox (ser : Bool) :
    (newSandbox ser).Numbered ∧ (newSandbox ser).commandSequenceId = 0 ∧
      (newSandbox ser).events = [] := by
  have hu (c : Nat) (hp : 0 < c) (below : c ≤ 0) : False :=
    Nat.not_lt.mpr below hp
  cases ser with
  | true =>
    exact ⟨⟨allocated_init, fun c refers => absurd refers (not_refers_init c),
      fun c hp below => (hu c hp below).elim⟩, rfl, rfl⟩
  | false =>
    exact ⟨⟨fun c refers => absurd refers not_mem_nil, fun c hp below => (hu c hp below).elim⟩, rfl,
      rfl⟩

/-- New channels change neither counters nor events. -/
theorem Sound.addSandboxInstance (hs : e.Sound) (num : Nat) : (e.addSandboxInstance num).Sound := by
  obtain ⟨hn, zero, quiet⟩ := numbered_newSandbox e.serializedSandbox
  -- A channel is one of the old ones, a new one or none.
  have lookup (k : Nat) : (e.addSandboxInstance num).sandboxMap[k]? =
      e.sandboxMap[k]? ∨ e.sandboxMap[k]? = none ∧
        (e.addSandboxInstance num).sandboxMap[k]? = some (newSandbox e.serializedSandbox) := by
    simp only [BatchCommandExecutor.addSandboxInstance]
    by_cases old : k < e.sandboxMap.length
    · exact .inl (getElem?_append_left old)
    · rw [getElem?_append_right (Nat.not_lt.mp old), getElem?_replicate,
        getElem?_eq_none (Nat.not_lt.mp old)]
      split
      · exact .inr ⟨rfl, rfl⟩
      · exact .inl rfl
  have sequence : (e.addSandboxInstance num).sequenceOf = e.sequenceOf := by
    funext k
    rcases lookup k with same | ⟨missing, added⟩
    · simp only [sequenceOf, same]
    · simp [sequenceOf, missing, added, zero]
  have events : (e.addSandboxInstance num).eventsOf = e.eventsOf := by
    funext k
    rcases lookup k with same | ⟨missing, added⟩
    · simp only [eventsOf, same]
    · simp [eventsOf, missing, added, quiet]
  refine ⟨fun sbx hm => ?_, sequence ▸ hs.alone, sequence ▸ hs.bounded,
    sequence ▸ hs.submitted, events ▸ hs.recorded⟩
  rcases mem_append.mp hm with old | new
  · exact hs.numbered sbx old
  · obtain rfl := eq_of_mem_replicate new
    exact hn

theorem sound_init (ser : Bool) : (init ser).Sound := by
  obtain ⟨hn, zero, -⟩ := numbered_newSandbox ser
  have none (k : Nat) : (init ser).sequenceOf k = 0 := by
    cases k with
    | zero => exact zero
    | succ k => rfl
  refine ⟨fun sbx hm => ?_, fun j k ha => ?_, fun k => ?_, fun sub hm => ?_, recorded_empty _⟩
  · obtain rfl := mem_singleton.mp hm
    exact hn
  · rw [none] at ha
    exact absurd ha (Nat.lt_irrefl 0)
  · rw [none]
    decide
  · cases hm

theorem step_sound {act : Action} (hs : e.Sound) (identifying : e.Identifying act)
    (taken : e.step act = some e') : e'.Sound := by
  cases act with
  | installCommand descr =>
    cases taken
    unfold installCommand
    split
    · exact hs
    · exact { hs with }
  | addSandboxInstance num =>
    cases taken
    exact hs.addSandboxInstance num
  | start | stop =>
    all_goals
      cases taken
      exact { hs with }
  | setDefaultCommand cmdAl => exact hs.setDefaultCommand identifying taken
  | submitCommand cmdAl commandDescription =>
    exact hs.submit identifying (fun _ => rfl) nofun taken
  | submitCommandOn =>
    exact hs.submit identifying nofun (fun _ => rfl) taken
  | runSandbox channel act =>
    simp only [step] at taken
    split at taken
    next => cases taken
    next before found =>
      split at taken
      next => cases taken
      next own =>
        obtain ⟨after, stepped, moved⟩ := bind_eq_some_iff.mp taken
        obtain ⟨⟨new, hc⟩, same⟩ := step_continues
          (hs.numbered before (mem_of_found found)) (Bool.eq_false_iff.mpr own) stepped
        exact hs.continues found hc same moved
  -- Capping and flushing only forget states.
  | timeout =>
    cases taken
    exact { hs with
      recorded := hs.recorded.forgets (hs.recorded.indexed.capCommanaQueue _) }
  | flushCommandStates =>
    cases taken
    exact { hs with
      recorded := hs.recorded.forgets hs.recorded.indexed.flushCommandStates }

/-- A class with an acquire handler. -/
def moveClass : CommandClass := ⟨"move", 2, ⟨0, 0, 0, 0⟩⟩

/-- A description that only names a channel. -/
def onChannel (channel : Nat) : Option SubmissionDescription :=
  some ⟨some channel, none, none, none, none⟩

/-- Two submissions, on the first channel and on another one; then the first command is
installed. -/
def submittingRun (second : Nat) : List Action :=
  [.installCommand moveClass, .addSandboxInstance 1, .start,
    .runSandbox 0 (.serialized .start), .submitCommand "move" (onChannel 0),
    .submitCommand "move" (onChannel second), .runSandbox 0 (.serialized (.checkQueue true)),
    .runSandbox 0 (.serialized (.installFirst 10 .silent))]

end BatchCommandExecutor

end ChaosFramework.Batch
