import ChaosFramework.DirectIO.DataPack
import ChaosFramework.Transition

/-!
# Receiving in step with the messages

A call of `reveiceDatapack` reads the frames that the header announces and not, except when the
header has a wrong size, those that are left in the message. `conforms` says for which messages
that is all of them: then, and only then, the next call starts at the next message.
-/

namespace ChaosFramework.DirectIO

open Bytes Transition List Option

variable {host : Order} {errno mismatch : Int} {content header part : List Byte}
  {message parts : List (List Byte)} {rest : List Frame} {size : ℕ} {delivery : Delivery}
  {pack : DataPack}

/-- A message and the error number of the thread when it is received. -/
structure Delivery where
  message : List (List Byte)
  errno : Int
  nonempty : message ≠ []

/-- The queue of a socket to which the messages have been delivered. -/
def queue (deliveries : List Delivery) : List Frame :=
  deliveries.flatMap fun delivery => frames delivery.message

/-- One call, of the overload that reads an identity first or of the other one. -/
def receive (identity : Bool) (host : Order) (socket : List Frame) (errno : Int) :
    Option (List Frame) :=
  if identity then (reveiceDatapackIdentity host errno socket).map (·.socket)
  else (reveiceDatapack host errno socket).map (·.socket)

/-! ### Messages that are read to their end -/

/-- The frames behind a header of the right size. An empty frame is not seen as one unless the
thread has an error number. -/
def partsConform (errno : Int) (pack : DataPack) : List (List Byte) → Bool
  | [] => true
  | [part] => (pack.channelPart = 1 ∨ pack.channelPart = 2 ∨ pack.channelPart = 3) ∧
      (part.length ≠ 0 ∨ errno ≠ 0)
  | [first, second] => pack.channelPart = 3 ∧ first.length ≠ 0 ∧
      first.length = pack.channelHeaderSize ∧ (second.length ≠ 0 ∨ errno ≠ 0)
  | _ => false

/-- The messages that `reveiceDatapack` reads to their end. -/
def packConforms (host : Order) (errno : Int) : List (List Byte) → Bool
  | [] => false
  | header :: parts =>
      if header.length = 0 then errno ≠ 0 ∧ parts = []
      else if directIOHeaderSize ≠ header.length then
        parts.dropLast.all fun part => part.length ≠ 0
      else partsConform errno (receiveHeader host header) parts

/-- With an identity in front. -/
def conforms (identity : Bool) (host : Order) (delivery : Delivery) : Bool :=
  if identity then
    match delivery.message with
    | [] => false
    | name :: message =>
        if name.length = 0 then message = []
        else message = [] ∨ packConforms host delivery.errno message
  else packConforms host delivery.errno delivery.message

/-! ### Single frames -/

theorem readMessage_empty (empty : content.length = 0) :
    readMessage errno (frames (content :: parts) ++ rest) =
      ⟨errno, none, false, frames parts ++ rest⟩ :=
  if_pos empty

theorem readMessage_full (full : content.length ≠ 0) :
    readMessage errno (frames (content :: parts) ++ rest) =
      ⟨0, some content, !parts.isEmpty, frames parts ++ rest⟩ :=
  if_neg full

@[simp] theorem frames_eq_nil : frames parts = [] ↔ parts = [] := by
  cases parts with
  | nil => exact iff_of_true rfl rfl
  | cons part parts => exact iff_of_false (cons_ne_nil _ _) (cons_ne_nil _ _)

theorem frames_append_eq_iff : frames parts ++ rest = rest ↔ parts = [] := by
  simp

/-- The loop stops behind an empty frame. -/
theorem consumeFrames_eq_iff :
    consumeFrames (!parts.isEmpty) (frames parts ++ rest) = rest ↔
      (parts.dropLast.all fun part => part.length ≠ 0) = true := by
  induction parts with
  | nil => simp [consumeFrames]
  | cons part parts ih =>
    have unfolded : consumeFrames (!(part :: parts).isEmpty) (frames (part :: parts) ++ rest) =
        consumeFrames (if part.length = 0 then false else !parts.isEmpty)
          (frames parts ++ rest) := rfl
    rw [unfolded]
    by_cases empty : part.length = 0
    · rw [if_pos empty, consumeFrames]
      cases parts with
      | nil => simp
      | cons second parts => simp [length_eq_zero_iff.mp empty]
    · rw [if_neg empty, ih]
      cases parts with
      | nil => simp
      | cons second parts => simp [mt length_eq_zero_iff.mpr empty]

theorem readPart_empty (empty : part.length = 0) :
    readPart errno size mismatch (frames (part :: parts) ++ rest) =
      if errno ≠ 0 then some ⟨errno, none, false, frames parts ++ rest⟩ else none := by
  rw [readPart, readMessage_empty empty]
  rfl

theorem readPart_full (full : part.length ≠ 0) :
    readPart errno size mismatch (frames (part :: parts) ++ rest) =
      some ⟨if part.length ≠ size then mismatch else 0, some part, !parts.isEmpty,
        frames parts ++ rest⟩ := by
  rw [readPart, readMessage_full full]
  rfl

/-- A part that is the last to be read is to be the last of the message. -/
theorem readPart_socket :
    (readPart errno size mismatch (frames (part :: parts) ++ rest)).map (·.socket) = some rest ↔
      parts = [] ∧ (part.length ≠ 0 ∨ errno ≠ 0) := by
  by_cases empty : part.length = 0
  · rw [readPart_empty empty]
    by_cases known : errno ≠ 0 <;> simp [empty, known]
  · rw [readPart_full empty]
    simp [empty]

/-! ### Calls -/

/-- Both parts are announced: a wrong size of the first ends the call. -/
theorem receiveBoth_socket (ha : pack.channelPart = 3) :
    ((readPart errno pack.channelHeaderSize (-13007) (frames (part :: parts) ++ rest)).bind
      fun header =>
        if header.err ≠ 0 then
          some ⟨header.err, some { pack with channelHeaderData := header.buffer }, header.socket⟩
        else if ¬ header.hasNext then
          some ⟨-13008, some { pack with channelHeaderData := header.buffer }, header.socket⟩
        else
          (readPart errno pack.channelDataSize (-13009) header.socket).map fun data =>
            (⟨data.err, some { pack with
              channelHeaderData := header.buffer
              channelData := data.buffer }, data.socket⟩ : Reception)).map (·.socket) =
        some rest ↔ partsConform errno pack (part :: parts) = true := by
  by_cases empty : part.length = 0
  · rw [readPart_empty empty]
    by_cases known : errno ≠ 0 <;> rcases parts with _ | ⟨second, _ | ⟨third, parts⟩⟩ <;>
      simp [partsConform, ha, known, empty]
  · rw [readPart_full empty]
    by_cases wrong : part.length ≠ pack.channelHeaderSize
    · rcases parts with _ | ⟨second, _ | ⟨third, parts⟩⟩ <;>
        simp [partsConform, ha, wrong, empty]
    · cases parts with
      | nil => simp [partsConform, ha, wrong, empty]
      | cons second parts =>
        simp only [bind_some, if_neg wrong, ne_eq, not_true_eq_false, if_false,
          isEmpty_cons, Bool.not_false, Option.map_map]
        refine readPart_socket.trans ?_
        have same := of_not_not wrong
        cases parts <;> simp [partsConform, ha, same ▸ empty, same]

theorem receiveParts_socket :
    (receiveParts errno pack (!parts.isEmpty) (frames parts ++ rest)).map (·.socket) = some rest ↔
      partsConform errno pack parts = true := by
  cases parts with
  | nil =>
    -- nothing is left to be read, and nothing is read
    refine iff_of_true ?_ rfl
    unfold receiveParts
    split <;> simp [frames]
  | cons part parts =>
    unfold receiveParts
    split
    next announced => rcases parts with _ | ⟨second, _ | ⟨third, parts⟩⟩ <;>
      simp [partsConform, announced]
    case h_2 announced | h_3 announced =>
      simp only [isEmpty_cons, Bool.not_false, not_true_eq_false, if_false, Option.map_map]
      refine readPart_socket.trans ?_
      rcases parts with _ | ⟨second, _ | ⟨third, parts⟩⟩ <;> simp [partsConform, announced]
    next announced =>
      exact receiveBoth_socket announced
    next empty single double triple =>
      rcases parts with _ | ⟨second, _ | ⟨third, parts⟩⟩ <;> simp_all [partsConform]

theorem reveiceDatapack_socket (nonempty : message ≠ []) :
    (reveiceDatapack host errno (frames message ++ rest)).map (·.socket) = some rest ↔
      packConforms host errno message = true := by
  obtain ⟨header, parts, rfl⟩ := exists_cons_of_ne_nil nonempty
  simp only [reveiceDatapack, packConforms]
  by_cases empty : header.length = 0
  · rw [readMessage_empty empty, if_pos empty]
    by_cases known : errno ≠ 0 <;> simp [known]
  · rw [readMessage_full empty, if_neg empty]
    by_cases wrong : directIOHeaderSize ≠ header.length
    · simpa [wrong] using consumeFrames_eq_iff
    · simp only [bind_some, if_neg wrong]
      exact receiveParts_socket

theorem reveiceDatapackIdentity_socket :
    (reveiceDatapackIdentity host delivery.errno (frames delivery.message ++ rest)).map (·.socket) =
      some rest ↔ conforms true host delivery = true := by
  obtain ⟨message, errno, nonempty⟩ := delivery
  obtain ⟨name, message, rfl⟩ := exists_cons_of_ne_nil nonempty
  simp only [reveiceDatapackIdentity, conforms]
  by_cases empty : name.length = 0
  · rw [readMessage_empty empty, if_pos empty]
    by_cases known : errno ≠ 0 <;> simp [known]
  · rw [readMessage_full empty]
    cases message with
    | nil => simp [empty]
    | cons header parts =>
      simpa [empty] using reveiceDatapack_socket (cons_ne_nil header parts)

/-- A call starts at a message and leaves the next one, if and only if the message conforms. -/
theorem receive_eq_some_iff {who : Bool} :
    receive who host (frames delivery.message ++ rest) delivery.errno = some rest ↔
      conforms who host delivery = true := by
  cases who with
  | true => exact reveiceDatapackIdentity_socket
  | false => exact reveiceDatapack_socket delivery.nonempty

/-- For every sequence of messages, each call starts at the first frame of a message if and only
if all the messages conform. -/
theorem receive_in_step_iff (identity : Bool) (host : Order) (deliveries : List Delivery) :
    (∀ calls ≤ deliveries.length,
      execute (receive identity host) (queue deliveries)
        ((deliveries.map (·.errno)).take calls) = some (queue (deliveries.drop calls))) ↔
      ∀ delivery ∈ deliveries, conforms identity host delivery = true := by
  induction deliveries with
  | nil => simp [queue]
  | cons delivery deliveries ih =>
    rw [forall_mem_cons, ← ih]
    constructor
    · intro ha
      have call := ha 1 (Nat.succ_le_succ (Nat.zero_le _))
      obtain ⟨sock, hr, done⟩ := execute_cons.mp call
      obtain rfl : sock = queue deliveries := Option.some.inj done
      refine ⟨receive_eq_some_iff.mp hr, fun calls bound => ?_⟩
      have later := ha (calls + 1) (Nat.succ_le_succ bound)
      obtain ⟨same, receivedToo, run⟩ := execute_cons.mp later
      obtain rfl := Option.some.inj (hr.symm.trans receivedToo)
      exact run
    · rintro ⟨conform, ha⟩ calls bound
      cases calls with
      | zero => rfl
      | succ calls =>
        exact execute_cons.mpr ⟨queue deliveries, receive_eq_some_iff.mpr conform,
          ha calls (Nat.le_of_succ_le_succ bound)⟩

/-- A header that announces both parts, one byte each, and a channel header of two bytes: the
data is left behind, and the next call takes it for a header. -/
def mismatchedMessage : Delivery where
  message := [[0, 0, 0, 0, 2, 3, 0, 0, 0, 0, 0, 0, 1, 0, 0, 0, 1, 0, 0, 0], [7, 7], [8]]
  errno := 0
  nonempty := List.cons_ne_nil _ _

theorem channel_data_left_behind :
    (reveiceDatapack .little 0 (queue [mismatchedMessage, mismatchedMessage])).map
        (fun reception => (reception.err, reception.socket)) =
      some (-13007, ⟨[8], false⟩ :: queue [mismatchedMessage]) ∧
    conforms false .little mismatchedMessage = false := by
  decide

end ChaosFramework.DirectIO
