import ChaosFramework.Bytes
import ChaosFramework.Transition

/-!
# The workers of the RPC server

A worker of `ZMQServer` gets messages of several frames from a socket: the identity of the sender,
which the router puts in front, and the request. It reads an identity and a request, has the request
handled, and sends the identity and the answer back as the two frames of one message. A frame that
announces another one stays pending in the socket until a last frame is sent.

The frames are read one by one, whatever message they belong to: a message that has more than two
frames, or an identity that is empty, makes the worker take another frame for an identity. The
results of the two send calls are not looked at either. As long as none of this happens, every
answer goes to the sender of its request (`sound_of_attentive`).
-/

namespace ChaosFramework.Rpc

open Bytes Transition List Option

/-- A frame, with its message and its place there. -/
structure Frame where
  message : ℕ
  index : ℕ
  content : List Byte
  /-- `zmq_msg_more` -/
  more : Bool
  deriving DecidableEq, Repr

/-- The frame that is read next. -/
structure Position where
  message : ℕ
  index : ℕ
  deriving DecidableEq, Repr

/-- A message that has been received: its frames, of which there is at least one. -/
structure Multipart where
  first : List Byte
  others : List (List Byte)
  deriving DecidableEq, Repr

def Multipart.frames (m : Multipart) : List (List Byte) := m.first :: m.others

def frameAt (received : List Multipart) (p : Position) : Option Frame :=
  received[p.message]?.bind fun m =>
    m.frames[p.index]?.map fun content =>
      ⟨p.message, p.index, content, p.index + 1 < m.frames.length⟩

/-- Where the next frame is. -/
def Frame.next (f : Frame) : Position :=
  if f.more then ⟨f.message, f.index + 1⟩ else ⟨f.message + 1, 0⟩

/-- What becomes of a request. -/
inductive Handled (Doc : Type)
  | result (doc : Doc)
  /-- The handler returns a pointer that is NULL. -/
  | noResult
  | cException
  | otherException
  deriving DecidableEq, Repr

/-- What happens in an iteration of the loop, as far as it gets. -/
structure Iteration (Doc : Type) where
  /-- The second `zmq_msg_recv` -/
  requestReceived : Bool
  handled : Handled Doc
  /-- `sendMessage` of the identity -/
  identitySent : Bool
  /-- `zmq_msg_init_data` of the response -/
  responseMade : Bool
  /-- `zmq_msg_send` of the response -/
  responseSent : Bool
  deriving DecidableEq, Repr

/-- A frame that is sent. -/
inductive Part (Doc : Type)
  | identity (frame : Frame)
  | answer (request : Frame) (result : Doc) (seqId : ℤ)
  deriving DecidableEq, Repr

structure Worker (Doc : Type) where
  received : List Multipart
  position : Position
  /-- The frames that have been sent with `ZMQ_SNDMORE`. -/
  pending : List (Part Doc)
  sent : List (List (Part Doc))
  /-- The thread has not been left by an exception. -/
  alive : Bool
  /-- A NULL pointer has been dereferenced. -/
  crashed : Bool
  deriving DecidableEq, Repr

variable {Doc : Type}

namespace Worker

inductive Label (Doc : Type)
  | deliver (m : Multipart)
  | iterate (it : Iteration Doc)
  deriving DecidableEq, Repr

def init : Worker Doc := ⟨[], ⟨0, 0⟩, [], [], true, false⟩

/-- What an iteration reads. -/
inductive Reading
  /-- There is nothing to be handled. -/
  | skipped (position : Position)
  | request (identity request : Frame) (position : Position)
  deriving DecidableEq, Repr

/-- Reading the identity and the request. `readMessage` takes a frame without content for
an error, and what follows it stays where it is. -/
def read (w : Worker Doc) (requestReceived : Bool) : Option Reading :=
  (frameAt w.received w.position).bind fun identity =>
    if identity.content = [] then some (.skipped identity.next)
    else if identity.more = false then some (.skipped identity.next)
    else if requestReceived = false then some (.skipped identity.next)
    else
      (frameAt w.received identity.next).map fun request =>
        if request.content = [] then .skipped request.next
        else .request identity request request.next

/-- `sendMessage`, with more to send. -/
def sendIdentity (w : Worker Doc) (identity : Frame) (accepted : Bool) : Worker Doc :=
  if accepted then { w with pending := w.pending ++ [.identity identity] } else w

/-- The last frame completes the message. -/
def sendResponse (w : Worker Doc) (answer : Part Doc) (accepted : Bool) : Worker Doc :=
  if accepted then { w with pending := [], sent := w.sent ++ [w.pending ++ [answer]] } else w

/-- What is done with a request. The sequence number is read from it. -/
def handle (seqIdOf : List Byte → ℤ) (w : Worker Doc) (identity request : Frame)
    (it : Iteration Doc) : Worker Doc :=
  match it.handled with
  | .cException => w
  | .otherException => { w with alive := false }
  | .noResult => { w.sendIdentity identity it.identitySent with alive := false, crashed := true }
  | .result doc =>
      (w.sendIdentity identity it.identitySent).sendResponse
        (.answer request doc (seqIdOf request.content)) (it.responseMade && it.responseSent)

def step (seqIdOf : List Byte → ℤ) (w : Worker Doc) : Label Doc → Option (Worker Doc)
  | .deliver m => some { w with received := w.received ++ [m] }
  | .iterate it =>
      if w.alive = false then none
      else
        (w.read it.requestReceived).map fun reading =>
          match reading with
          | .skipped position => { w with position }
          | .request identity request position =>
              { w with position }.handle seqIdOf identity request it

/-! ### Answers and their requests -/

/-- The message is the identity of a request and the answer to it. -/
def Routed (received : List Multipart) (message : List (Part Doc)) : Prop :=
  ∃ identity request result seqId, message = [.identity identity, .answer request result seqId] ∧
    identity.index = 0 ∧ request.index = 1 ∧ request.message = identity.message ∧
    frameAt received ⟨identity.message, identity.index⟩ = some identity ∧
    frameAt received ⟨request.message, request.index⟩ = some request

/-- The message contains an answer to a request. -/
def answers (n : ℕ) (message : List (Part Doc)) : Bool :=
  message.any fun part =>
    match part with
    | .identity _ => false
    | .answer request _ _ => request.message = n

/-- The number of answers to a message. -/
def answersTo (w : Worker Doc) (n : ℕ) : ℕ := w.sent.countP (answers n)

structure Sound (w : Worker Doc) : Prop where
  routed : ∀ message ∈ w.sent, Routed w.received message
  once : ∀ n, w.answersTo n ≤ 1
  intact : w.crashed = false

/-- There is a result, the identity and the response are both accepted or neither is, and the
identity is the first frame of its message. -/
def Delivers (identity : Frame) (identitySent responseSent : Bool) : Handled Doc → Prop
  | .result _ => identitySent = responseSent ∧ (identitySent = true → identity.index = 0)
  | .noResult => False
  | .cException => True
  | .otherException => True

instance decidableDelivers (identity : Frame) (identitySent responseSent : Bool)
    (handled : Handled Doc) :
    Decidable (Delivers identity identitySent responseSent handled) := by
  unfold Delivers
  split <;> infer_instance

def Iteration.Attentive (it : Iteration Doc) : Option Reading → Prop
  | some (.request identity _ _) =>
      Delivers identity it.identitySent (it.responseMade && it.responseSent) it.handled
  | some (.skipped _) => True
  | none => True

instance decidableIterationAttentive (it : Iteration Doc) (reading : Option Reading) :
    Decidable (Iteration.Attentive it reading) := by
  unfold Iteration.Attentive
  split <;> infer_instance

/-- What is required of the iterations in which a request is handled. -/
def Attentive (w : Worker Doc) : Label Doc → Prop
  | .deliver _ => True
  | .iterate it => Iteration.Attentive it (w.read it.requestReceived)

instance decidableAttentive (w : Worker Doc) (l : Label Doc) : Decidable (w.Attentive l) := by
  unfold Attentive
  split <;> infer_instance

section Frames

variable {received : List Multipart} {p : Position} {f : Frame} {n : ℕ}

section

variable (hf : frameAt received p = some f)

include hf

theorem frameAt_eq_some : f.message = p.message ∧ f.index = p.index := by
  obtain ⟨m, -, rest⟩ := bind_eq_some_iff.mp hf
  obtain ⟨content, -, rfl⟩ := map_eq_some_iff.mp rest
  exact ⟨rfl, rfl⟩

theorem frameAt_self : frameAt received ⟨f.message, f.index⟩ = some f := by
  obtain ⟨hm, hi⟩ := frameAt_eq_some hf
  rw [hm, hi]
  exact hf

theorem frameAt_append (m : Multipart) : frameAt (received ++ [m]) p = some f := by
  obtain ⟨isThere, hm, rest⟩ := bind_eq_some_iff.mp hf
  have hi := (List.getElem?_eq_some_iff.mp hm).1
  rw [frameAt, getElem?_append_left hi, hm]
  exact rest

end

theorem Routed.append {msg : List (Part Doc)} (routed : Routed received msg)
    (m : Multipart) : Routed (received ++ [m]) msg := by
  obtain ⟨who, request, res, seqId, parts, first, second, he, hi, hr⟩ := routed
  exact ⟨who, request, res, seqId, parts, first, second, he, frameAt_append hi m,
    frameAt_append hr m⟩

/-- The first frame of a message has been read. -/
def Behind (n : ℕ) (p : Position) : Prop := n < p.message ∨ n = p.message ∧ 0 < p.index

theorem Behind.next (hb : Behind n p) (hf : frameAt received p = some f) : Behind n f.next := by
  obtain ⟨hm, index⟩ := frameAt_eq_some hf
  unfold Frame.next
  split
  · rcases hb with earlier | ⟨same, -⟩
    · exact .inl (hm ▸ earlier)
    · exact .inr ⟨same.trans hm.symm, Nat.succ_pos _⟩
  · left
    rcases hb with earlier | ⟨same, -⟩
    · change n < f.message + 1
      omega
    · change n < f.message + 1
      omega

/-- The second frame of a message is behind those that the first one is behind of. -/
theorem Behind.second (hb : Behind n p) (hf : frameAt received p = some f) :
    Behind n ⟨f.message, f.index + 1⟩ := by
  obtain ⟨hm, -⟩ := frameAt_eq_some hf
  rcases hb with earlier | ⟨hh, -⟩
  · exact .inl (hm ▸ earlier)
  · exact .inr ⟨hh.trans hm.symm, Nat.succ_pos _⟩

theorem behind_next (f : Frame) : Behind f.message f.next := by
  unfold Frame.next
  split
  · exact .inr ⟨rfl, Nat.succ_pos _⟩
  · exact .inl (Nat.lt_succ_self _)

end Frames

section Reading

variable {w : Worker Doc} {requestReceived : Bool} {position : Position}

/-- What an iteration that handles a request has read. -/
theorem read_request {who request : Frame}
    (reads : w.read requestReceived = some (.request who request position)) :
    frameAt w.received w.position = some who ∧
      frameAt w.received ⟨who.message, who.index + 1⟩ = some request ∧
      position = request.next := by
  obtain ⟨first, hi, rest⟩ := bind_eq_some_iff.mp reads
  split at rest
  · cases rest
  split at rest
  · cases rest
  next more =>
    split at rest
    · cases rest
    obtain ⟨second, hr, same⟩ := map_eq_some_iff.mp rest
    split at same
    · cases same
    cases same
    rw [Bool.not_eq_false] at more
    rw [Frame.next, if_pos more] at hr
    exact ⟨hi, hr, rfl⟩

/-- An iteration goes on from the frames that it has read. -/
theorem read_skipped {n : ℕ} (hb : Behind n w.position)
    (reads : w.read requestReceived = some (.skipped position)) : Behind n position := by
  obtain ⟨first, hi, rest⟩ := bind_eq_some_iff.mp reads
  have behindFirst := hb.next hi
  split at rest
  · cases rest
    exact behindFirst
  split at rest
  · cases rest
    exact behindFirst
  split at rest
  · cases rest
    exact behindFirst
  obtain ⟨second, hr, same⟩ := map_eq_some_iff.mp rest
  split at same
  · cases same
    exact behindFirst.next hr
  · cases same

end Reading

/-! ### Steps and runs -/

section Steps

variable {seqIdOf : List Byte → ℤ} {w t : Worker Doc} {who request : Frame}

/-- Nothing is pending, and the messages that have been answered are behind the position. -/
structure Tracked (w : Worker Doc) : Prop extends Sound w where
  settled : w.pending = []
  behind : ∀ n, 0 < w.answersTo n → Behind n w.position

theorem Tracked.deliver (tracked : Tracked w) (m : Multipart) :
    Tracked { w with received := w.received ++ [m] } where
  routed msg hs := (tracked.routed msg hs).append m
  once := tracked.once
  intact := tracked.intact
  settled := tracked.settled
  behind := tracked.behind

/-- An iteration that sends nothing. -/
theorem Tracked.move (tracked : Tracked w) {position : Position} {alive : Bool}
    (onwards : ∀ n, Behind n w.position → Behind n position) :
    Tracked { w with position, alive } where
  routed := tracked.routed
  once := tracked.once
  intact := tracked.intact
  settled := tracked.settled
  behind n ha := onwards n (tracked.behind n ha)

theorem answersTo_append {msg : List (Part Doc)} {sent : List (List (Part Doc))}
    (after : t.sent = sent ++ [msg]) (n : ℕ) :
    t.answersTo n = sent.countP (answers n) + if answers n msg then 1 else 0 := by
  rw [answersTo, after, countP_append, countP_singleton]

theorem Tracked.answer (tracked : Tracked w) (doc : Doc) (seqId : ℤ)
    (alive : Bool) (hi : frameAt w.received w.position = some who)
    (hr : frameAt w.received ⟨who.message, who.index + 1⟩ = some request)
    (first : who.index = 0) :
    Tracked { w with
      position := request.next
      sent := w.sent ++ [[.identity who, .answer request doc seqId]]
      alive } := by
  obtain ⟨same, second⟩ : request.message = who.message ∧ request.index = who.index + 1 :=
    frameAt_eq_some hr
  rw [first] at second
  obtain ⟨atMessage, atIndex⟩ := frameAt_eq_some hi
  have count (n : ℕ) := answersTo_append (t := { w with
      position := request.next
      sent := w.sent ++ [[.identity who, .answer request doc seqId]]
      alive }) rfl n
  have isAnswer (n : ℕ) : answers n [.identity who, .answer request doc seqId] = true ↔
      n = who.message := by
    simp [answers, same, eq_comm]
  -- It has not been answered before, as its first frame is the one that has just been read.
  have unanswered : w.answersTo who.message = 0 := by
    by_contra ha
    rcases tracked.behind _ (Nat.pos_of_ne_zero ha) with earlier | ⟨-, later⟩
    · omega
    · omega
  refine ⟨⟨?routed, ?once, tracked.intact⟩, tracked.settled, ?behind⟩
  case routed =>
    intro msg hs
    rcases mem_append.mp hs with isOld | isNew
    · exact tracked.routed msg isOld
    · obtain rfl := mem_singleton.mp isNew
      exact ⟨who, request, doc, seqId, rfl, first, second, same, frameAt_self hi, frameAt_self hr⟩
  case once =>
    intro n
    rw [count]
    split
    next isIt =>
      obtain rfl := (isAnswer n).mp isIt
      exact (congrArg (· + 1) unanswered).le
    next => exact tracked.once n
  case behind =>
    intro n ha
    rw [count] at ha
    split at ha
    next isIt =>
      obtain rfl := (isAnswer n).mp isIt
      exact same ▸ behind_next request
    next =>
      exact ((tracked.behind n ha).second hi).next hr

theorem Tracked.handle (tracked : Tracked w) {it : Iteration Doc}
    (hi : frameAt w.received w.position = some who)
    (hr : frameAt w.received ⟨who.message, who.index + 1⟩ = some request)
    (hd : Delivers who it.identitySent (it.responseMade && it.responseSent) it.handled) :
    Tracked (({ w with position := request.next } : Worker Doc).handle seqIdOf who request it) := by
  have onwards : ∀ n, Behind n w.position → Behind n request.next := fun n hb =>
    (hb.second hi).next hr
  unfold Worker.handle
  cases hh : it.handled with
  | cException | otherException => exact tracked.move onwards
  | noResult =>
    rw [hh] at hd
    exact hd.elim
  | result doc =>
    rw [hh] at hd
    obtain ⟨together, first⟩ := hd
    simp only [← together]
    cases ha : it.identitySent with
    | false => exact tracked.move onwards
    | true =>
      have sent := tracked.answer doc (seqIdOf request.content) w.alive hi hr (first ha)
      simpa [sendIdentity, sendResponse, tracked.settled] using sent

theorem tracked_step (l : Label Doc) (tracked : Tracked w) (attentive : w.Attentive l)
    (taken : w.step seqIdOf l = some t) : Tracked t := by
  cases l with
  | deliver m =>
    cases taken
    exact tracked.deliver m
  | iterate it =>
    simp only [step] at taken
    split at taken
    · cases taken
    obtain ⟨reading, reads, rfl⟩ := map_eq_some_iff.mp taken
    cases reading with
    | skipped position => exact tracked.move fun n hb => read_skipped hb reads
    | request who request position =>
      obtain ⟨hi, hr, rfl⟩ := read_request reads
      rw [Attentive, reads] at attentive
      exact tracked.handle hi hr attentive

end Steps

theorem tracked_init : Tracked (init : Worker Doc) where
  routed _ hs := absurd hs not_mem_nil
  once _ := Nat.zero_le 1
  intact := rfl
  settled := rfl
  behind _ ha := absurd ha (Nat.lt_irrefl 0)

/-- Whatever messages are received, and whatever becomes of them. -/
theorem sound_of_attentive {seqIdOf : List Byte → ℤ} {labels : List (Label Doc)} {w : Worker Doc}
    (attentive : Admissible (step seqIdOf) Attentive init labels)
    (run : execute (step seqIdOf) init labels = some w) : Sound w :=
  (attentive.invariant (tracked_step _) tracked_init run).toSound

/-- An iteration in which everything goes well. -/
def answered (doc : ℕ) : Iteration ℕ := ⟨true, .result doc, true, true, true⟩

/-- A request is answered, one with an empty frame in front is not, nor is one whose handler throws,
and for the last one nothing can be sent. -/
theorem sound_of_attentive_four :
    let labels : List (Label ℕ) := [.deliver ⟨[1], [[10]]⟩, .iterate (answered 7),
      .deliver ⟨[2], [[], [11]]⟩, .iterate (answered 8), .iterate (answered 8),
      .deliver ⟨[3], [[12]]⟩, .iterate ⟨true, .cException, true, true, true⟩,
      .deliver ⟨[4], [[13]]⟩, .iterate ⟨true, .result 9, false, true, false⟩]
    ∃ w, execute (step fun request => request.length) init labels = some w ∧
      Admissible (step fun request => request.length) Attentive init labels ∧ Sound w ∧
      w.sent = [[.identity ⟨0, 0, [1], true⟩, .answer ⟨0, 1, [10], false⟩ 7 1]] := by
  intro labels
  have attentive : Admissible (step fun request => request.length) Attentive init labels := by
    decide
  exact ⟨_, rfl, attentive, sound_of_attentive attentive rfl, rfl⟩

/-- A message of four frames is answered twice, the second time to what its third frame says. -/
theorem message_answered_twice :
    ∃ w, execute (step fun request => request.length) init [.deliver ⟨[1], [[10], [2], [11]]⟩,
        .iterate (answered 7), .iterate (answered 8)] = some w ∧
      w.sent = [[.identity ⟨0, 0, [1], true⟩, .answer ⟨0, 1, [10], true⟩ 7 1],
        [.identity ⟨0, 2, [2], true⟩, .answer ⟨0, 3, [11], false⟩ 8 1]] ∧
      ¬ Sound w := by
  refine ⟨_, rfl, rfl, fun sound => ?_⟩
  have ho := sound.once 0
  exact absurd ho (by decide)

end Worker

end ChaosFramework.Rpc
