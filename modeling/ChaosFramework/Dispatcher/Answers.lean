import ChaosFramework.Dispatcher.DefaultCommandDispatcher

/-!
# Answers to calls

An accepted call waits in the queue of its scheduler. The action can be deregistered before the
thread of the scheduler takes the call, and also between the search for the action and its
execution. In both cases `processBufferElement` returns without an answer, and the caller waits
until its timeout. Otherwise there is exactly one answer, and its error code tells whether the
action returned.
-/

namespace ChaosFramework.Dispatcher

open Transition DefaultCommandDispatcher List Option

variable {Doc : Type}

/-- A step of one of the threads: of the callers, or of the thread of a scheduler. -/
inductive Event (Doc : Type)
  | registerAction (d : DeclareAction)
  | deregisterAction (d : DeclareAction)
  | dispatchCommand (c : Call Doc)
  | takeCall (scheduler : ℕ)
  | runCall (scheduler : ℕ) (outcome : Outcome Doc)
  deriving DecidableEq, Repr

/-- A dispatcher, with the calls that its schedulers have worked on. -/
structure Service (Doc : Type) where
  dispatcher : DefaultCommandDispatcher Doc
  handled : List (Handled Doc)

namespace Service

def init : Service Doc := ⟨.init, []⟩

def step (s : Service Doc) : Event Doc → Option (Service Doc)
  | .registerAction d => some { s with dispatcher := s.dispatcher.registerAction d }
  | .deregisterAction d => some { s with dispatcher := s.dispatcher.deregisterAction d }
  | .dispatchCommand c => some { s with dispatcher := (s.dispatcher.dispatchCommand c).1 }
  | .takeCall k => (s.dispatcher.takeCall k).map fun (dispatcher, worked) =>
      ⟨dispatcher, s.handled ++ worked.toList⟩
  | .runCall k outcome => (s.dispatcher.runCall k outcome).map fun (dispatcher, worked) =>
      ⟨dispatcher, s.handled ++ [worked]⟩

/-- There is one response to where the answer goes, with an error code unless the action was
executed and returned. -/
def IsAnswered (h : Handled Doc) : Prop :=
  ∀ d ∈ h.call.pack.answerTo, ∃ response, h.responses = [response] ∧ response.id = d.id ∧
    response.host = d.host ∧ (response.errorCode = 0 ↔ h.returned = true)

def Answered (s : Service Doc) : Prop := ∀ h ∈ s.handled, IsAnswered h

/-- The action of a call that needs an answer is there when the call is taken, and enabled when it
is run. -/
def Attended (s : Service Doc) : Event Doc → Prop
  | .takeCall k => ∀ c ∈ (s.dispatcher.schedulers k).bufferQueue.head?,
      c.pack.answerTo.isSome → (s.dispatcher.lookup k c).isSome
  | .runCall k _ => ∀ taken ∈ (s.dispatcher.schedulers k).taken,
      taken.1.pack.answerTo.isSome → s.dispatcher.enabled taken.2 = true
  | _ => True

instance decidableAttended (s : Service Doc) (e : Event Doc) : Decidable (s.Attended e) := by
  unfold Attended
  split <;> infer_instance

variable {s t : Service Doc}

/-! ### What the thread of a scheduler does -/

/-- The error code of an answer is zero for an action that has returned. -/
theorem errorCode_answer (d : Destination) (out : Outcome Doc) :
    (d.answer out).errorCode = 0 ↔ out.returns = true := by
  cases out with
  | returned res | otherException => simp [Destination.answer, Outcome.returns]
  | cException code msg dom => simpa [Destination.answer, Outcome.returns] using code.2

theorem isAnswered_of_run (c : Call Doc) (out : Outcome Doc) :
    IsAnswered ⟨c, (c.pack.answerTo.map fun d => d.answer out).toList, out.returns⟩ := by
  intro d hn
  have destination : c.pack.answerTo = some d := hn
  refine ⟨d.answer out, ?_, rfl, rfl, errorCode_answer d out⟩
  simp [destination]

/-- A call without a response is as it should be if it needs no answer. -/
theorem isAnswered_nil_iff {c : Call Doc} {returned : Bool} :
    IsAnswered ⟨c, [], returned⟩ ↔ ¬ c.pack.answerTo.isSome := by
  constructor
  · intro ha hn
    obtain ⟨d, hd⟩ := isSome_iff_exists.mp hn
    obtain ⟨resp, hm, -⟩ := ha d hd
    cases hm
  · intro needless d hd
    exact absurd (isSome_iff_exists.mpr ⟨d, hd⟩) needless

/-- What a step adds to the calls that have been worked on. -/
inductive Finished (s : Service Doc) : Event Doc → List (Handled Doc) → Prop
  | nothing {e} (attended : s.Attended e) : Finished s e []
  | absent {k c} (next : (s.dispatcher.schedulers k).bufferQueue.head? = some c)
      (missing : s.dispatcher.lookup k c = none) : Finished s (.takeCall k) [⟨c, [], false⟩]
  | disabled {k outcome c desc} (taken : (s.dispatcher.schedulers k).taken = some (c, desc))
      (off : s.dispatcher.enabled desc = false) :
      Finished s (.runCall k outcome) [⟨c, [], false⟩]
  | executed {k outcome c desc} (taken : (s.dispatcher.schedulers k).taken = some (c, desc))
      (on : s.dispatcher.enabled desc = true) :
      Finished s (.runCall k outcome)
        [⟨c, (c.pack.answerTo.map fun d => d.answer outcome).toList, outcome.returns⟩]

variable {e : Event Doc} {disp : DefaultCommandDispatcher Doc} {k : ℕ}

theorem takeCall_finished {worked : Option (Handled Doc)}
    (taken : s.dispatcher.takeCall k = some (disp, worked)) :
    Finished s (.takeCall k) worked.toList := by
  unfold takeCall at taken
  split at taken
  case h_1 c rest idle queue =>
    split at taken
    next missing =>
      obtain ⟨-, rfl⟩ := Prod.mk.inj (Option.some.inj taken)
      exact .absent (by rw [queue, head?_cons]) missing
    next desc found =>
      obtain ⟨-, rfl⟩ := Prod.mk.inj (Option.some.inj taken)
      refine .nothing fun c' next hn => ?_
      rw [queue] at next
      cases next
      rw [found]
      rfl
  case h_2 => cases taken

theorem runCall_finished {out : Outcome Doc} {worked : Handled Doc}
    (ran : s.dispatcher.runCall k out = some (disp, worked)) :
    Finished s (.runCall k out) [worked] := by
  unfold runCall at ran
  split at ran
  case h_1 => cases ran
  case h_2 c desc taken =>
    split at ran
    next on =>
      obtain ⟨-, rfl⟩ := Prod.mk.inj (Option.some.inj ran)
      exact .executed taken on
    next off =>
      obtain ⟨-, rfl⟩ := Prod.mk.inj (Option.some.inj ran)
      exact .disabled taken (Bool.eq_false_iff.mpr off)

theorem step_finished (taken : s.step e = some t) :
    ∃ worked, t.handled = s.handled ++ worked ∧ Finished s e worked := by
  cases e with
  | registerAction d | deregisterAction d | dispatchCommand c =>
    cases taken
    exact ⟨[], (append_nil _).symm, .nothing trivial⟩
  | takeCall k =>
    obtain ⟨⟨disp, worked⟩, took, rfl⟩ := map_eq_some_iff.mp taken
    exact ⟨worked.toList, rfl, takeCall_finished took⟩
  | runCall k out =>
    obtain ⟨⟨disp, worked⟩, ran, rfl⟩ := map_eq_some_iff.mp taken
    exact ⟨[worked], rfl, runCall_finished ran⟩

/-- What is added is answered if and only if the step is attended. -/
theorem Finished.answered_iff {worked : List (Handled Doc)}
    (finished : Finished s e worked) : (∀ h ∈ worked, IsAnswered h) ↔ s.Attended e := by
  cases finished with
  | nothing attended =>
    refine iff_of_true (fun h isThere => ?_) attended
    cases isThere
  | @absent k c next hm =>
    rw [forall_mem_singleton, isAnswered_nil_iff]
    constructor
    · intro needless c' nextToo hn
      obtain rfl := Option.some.inj (next.symm.trans nextToo)
      exact absurd hn needless
    · intro attended hn
      have found := attended c next hn
      rw [hm] at found
      cases found
  | @disabled k out c desc taken off =>
    rw [forall_mem_singleton, isAnswered_nil_iff]
    constructor
    · intro needless pair takenToo hn
      obtain rfl := Option.some.inj (taken.symm.trans takenToo)
      exact absurd hn needless
    · intro attended hn
      exact Bool.false_ne_true (off.symm.trans (attended (c, desc) taken hn))
  | @executed k out c desc taken on =>
    rw [forall_mem_singleton]
    refine iff_of_true (isAnswered_of_run c out) ?_
    intro pair takenToo hn
    obtain rfl := Option.some.inj (taken.symm.trans takenToo)
    exact on

theorem step_answered (ha : Answered s) (attended : s.Attended e)
    (taken : s.step e = some t) : Answered t := by
  obtain ⟨worked, hh, finished⟩ := step_finished taken
  intro h isThere
  rw [hh] at isThere
  rcases mem_append.mp isThere with hb | new
  · exact ha h hb
  · exact finished.answered_iff.mpr attended h new

theorem attended_of_answered (taken : s.step e = some t) (ha : Answered t) :
    s.Attended e := by
  obtain ⟨worked, hh, finished⟩ := step_finished taken
  apply finished.answered_iff.mp
  intro h new
  apply ha
  rw [hh]
  exact mem_append_right _ new

end Service

/-- An object with one action, and a call of it that asks for an answer. -/
def reader : DeclareAction := ⟨0, [("BPM", "read")]⟩

def readCall : Call Unit :=
  ⟨⟨some "BPM", some "read", none, some 7, some "10.0.0.2:5000", some "client", some "response"⟩,
    []⟩

namespace Service

def answeredCalls : List (Event Unit) :=
  [.registerAction reader, .dispatchCommand readCall, .dispatchCommand readCall, .takeCall 0,
    .runCall 0 (.returned none), .takeCall 0, .runCall 0 .otherException]

end Service

end ChaosFramework.Dispatcher
