import ChaosFramework.Thread.FutureHelper

/-!
# The answers that the RPC client gives in place of the server

`ZMQClient::submitMessage` sends a message to a server and waits for the ack. When a request does
not get to the server, or when the server refuses it, the client dispatches a response with an error
to the node that waits for an answer. In the synchronous mode the ack is already the answer, and the
client dispatches it. How far the transmission gets and what the ack says is decided outside of the
client; `informed_iff` states in which of the cases the sender is informed.
-/

namespace ChaosFramework.Rpc

open Thread (messageId)

structure NetworkForwardInfo where
  isRequest : Bool
  destinationAddr : String
  hasMessage : Bool
  senderNodeId : String
  senderRequestId : ℕ
  deriving DecidableEq, Repr

/-- A field of a document, as it is read as a number. -/
inductive Field
  | absent
  | number (value : ℤ)
  /-- It cannot be read as a number, so that reading it throws. -/
  | other
  deriving DecidableEq, Repr

/-- The fields of an ack that the client looks at, and the rest of it. -/
structure Ack (Doc : Type) where
  seqId : Field
  errorCode : Field
  messageId : Field
  rest : Doc
  deriving DecidableEq, Repr

inductive Reply (Doc : Type)
  | empty
  /-- No document can be made of the bytes. The pointer to it stays NULL, and the assertion on it,
  or looking for a key in it, ends the process: nothing is thrown that could be logged. -/
  | malformed
  | document (ack : Ack Doc)
  deriving DecidableEq, Repr

/-- `zmq_errno` and `zmq_strerror` -/
structure ZmqError where
  code : ℤ
  message : String
  deriving DecidableEq, Repr

/-- How far the transmission of a message gets. -/
inductive Transmission (Doc : Type)
  /-- `getSocketForNFI` returns NULL. -/
  | noSlot
  | noResource
  /-- `zmq_msg_init_data` fails. -/
  | notMade
  | notSent (error : ZmqError)
  | notReceived (error : ZmqError)
  | received (reply : Reply Doc)
  deriving DecidableEq, Repr

/-- A `response` action that is dispatched to a node. -/
inductive Response (Doc : Type)
  | error (domain : String) (messageId errorCode : ℤ) (errorMessage serverAddr : String)
  | answer (domain : String) (ack : Ack Doc)
  deriving DecidableEq, Repr

def ecRpcNoSocket : ℤ := -1000
def ecRpcSendingData : ℤ := -1001
def ecRpcGettingAckData : ℤ := -1002
def ecRpcImplErr : ℤ := -1100

/-- `CObjectProcessingQueue_MAX_ELEMENT_IN_QUEUE` -/
def maxElementInQueue : ℕ := 1000

variable {Doc : Type}

/-- The id is appended. A field of this name that is already there is the one that is found. -/
def Ack.addMessageId (ack : Ack Doc) (id : ℤ) : Ack Doc :=
  match ack.messageId with
  | .absent => { ack with messageId := .number id }
  | .number _ => ack
  | .other => ack

namespace NetworkForwardInfo

/-- `RpcClient::forwadSubmissionResultError` of a message that has not got through -/
def forwadSubmissionResultError (nfi : NetworkForwardInfo) (errorCode : ℤ)
    (errorMessage : String) : List (Response Doc) :=
  [.error nfi.senderNodeId (messageId nfi.senderRequestId) errorCode errorMessage
    nfi.destinationAddr]

def forwadSubmissionResult (nfi : NetworkForwardInfo) (ack : Ack Doc) : List (Response Doc) :=
  if nfi.senderNodeId = "" then []
  else [.answer nfi.senderNodeId (ack.addMessageId (messageId nfi.senderRequestId))]

/-- `RpcClient::forwadSubmissionResultError` of an ack. An error code that cannot be read throws. -/
def forwadSubmissionResultErrorOfAck (nfi : NetworkForwardInfo) (ack : Ack Doc) :
    List (Response Doc) :=
  if nfi.senderNodeId = "" then []
  else
    match ack.errorCode with
    | .absent => []
    | .other => []
    | .number code =>
        if code = 0 then []
        else [.answer nfi.senderNodeId (ack.addMessageId (messageId nfi.senderRequestId))]

/-- What is dispatched for a reply. -/
def acknowledge (synchronousCall : Bool) (nfi : NetworkForwardInfo) :
    Reply Doc → List (Response Doc)
  | .malformed => []
  | .empty =>
      if nfi.isRequest then nfi.forwadSubmissionResultError ecRpcGettingAckData "bad ack received"
      else []
  | .document ack =>
      -- The exception is caught around the whole of the transmission.
      if ack.seqId = .other then []
      else if nfi.isRequest = false then []
      else if synchronousCall then nfi.forwadSubmissionResult ack
      else nfi.forwadSubmissionResultErrorOfAck ack

/-- What is dispatched. Without a socket it makes no difference whether the message is a
request. -/
def processBufferElement (synchronousCall : Bool) (nfi : NetworkForwardInfo) :
    Transmission Doc → List (Response Doc)
  | .noSlot => nfi.forwadSubmissionResultError ecRpcNoSocket "GetSocketForNFI failed"
  | .noResource => nfi.forwadSubmissionResultError ecRpcNoSocket "Socket creation error"
  | .notMade =>
      if nfi.isRequest then
        nfi.forwadSubmissionResultError (ecRpcImplErr - 1) "Error initializiend rcp message"
      else []
  | .notSent error =>
      if nfi.isRequest then nfi.forwadSubmissionResultError ecRpcSendingData error.message else []
  | .notReceived error =>
      if nfi.isRequest then
        nfi.forwadSubmissionResultError ecRpcGettingAckData
          (error.message ++ "[" ++ toString error.code ++ "]")
      else []
  | .received reply => nfi.acknowledge synchronousCall reply

/-- What is dispatched for a message. What `push` returns is not looked at, and the two exceptions
are caught. -/
def submitMessage (synchronousCall : Bool) (queueSize : ℕ) (nfi : NetworkForwardInfo)
    (onThisThread : Bool) (transmission : Transmission Doc) : List (Response Doc) :=
  if nfi.destinationAddr = "" then []
  else if nfi.hasMessage = false then []
  else if onThisThread then nfi.processBufferElement synchronousCall transmission
  else if maxElementInQueue < queueSize then []
  else nfi.processBufferElement synchronousCall transmission

/-! ### Being informed -/

/-- The message gets as far as `processBufferElement`. -/
def Accepted (queueSize : ℕ) (nfi : NetworkForwardInfo) (onThisThread : Bool) : Prop :=
  nfi.destinationAddr ≠ "" ∧ nfi.hasMessage = true ∧
    (onThisThread = true ∨ queueSize ≤ maxElementInQueue)

instance (queueSize : ℕ) (nfi : NetworkForwardInfo) (onThisThread : Bool) :
    Decidable (Accepted queueSize nfi onThisThread) :=
  inferInstanceAs (Decidable (_ ∧ _ ∧ _))

/-- The server has said that the message is all right. -/
def Positive (ack : Ack Doc) : Transmission Doc → Prop
  | .received (.document received) => received = ack ∧ ack.errorCode = .number 0
  | _ => False

/-- A response with an error, for the sender of the request. -/
def IsError (nfi : NetworkForwardInfo) : Response Doc → Prop
  | .error domain id code _ _ =>
      domain = nfi.senderNodeId ∧ id = messageId nfi.senderRequestId ∧ code ≠ 0
  | .answer domain ack =>
      domain = nfi.senderNodeId ∧ ack.messageId = .number (messageId nfi.senderRequestId) ∧
        ∃ code, ack.errorCode = .number code ∧ code ≠ 0

/-- The server has acknowledged the request, and in the synchronous mode the ack is the answer, or
the sender has got exactly one error. Nobody gets an answer to a message that is not a request. -/
def Informed (synchronousCall : Bool) (queueSize : ℕ) (nfi : NetworkForwardInfo)
    (onThisThread : Bool) (transmission : Transmission Doc) : Prop :=
  let responses := nfi.submitMessage synchronousCall queueSize onThisThread transmission
  if nfi.isRequest then
    (∃ ack, Accepted queueSize nfi onThisThread ∧ Positive ack transmission ∧
      responses = if synchronousCall then
        [.answer nfi.senderNodeId (ack.addMessageId (messageId nfi.senderRequestId))] else []) ∨
    ∃ response, responses = [response] ∧ nfi.IsError response
  else responses = []

/-- An ack that says whether there is an error, with a sender for it if there is something to be
forwarded, and without the id of another request. -/
def Conclusive (synchronousCall : Bool) (nfi : NetworkForwardInfo) (ack : Ack Doc) : Prop :=
  match ack.errorCode with
  | .absent => False
  | .other => False
  | .number code =>
      (synchronousCall = true ∨ code ≠ 0 → ack.seqId ≠ .other ∧ nfi.senderNodeId ≠ "") ∧
      (code ≠ 0 → ack.messageId = .absent ∨
        ack.messageId = .number (messageId nfi.senderRequestId))

/-- If a request is replied to then with a document that is conclusive. A message that is not
a request needs a socket. -/
def Transmitted (synchronousCall : Bool) (nfi : NetworkForwardInfo) :
    Transmission Doc → Prop
  | .noSlot => nfi.isRequest = true
  | .noResource => nfi.isRequest = true
  | .notMade => True
  | .notSent _ => True
  | .notReceived _ => True
  | .received .empty => True
  | .received .malformed => nfi.isRequest = false
  | .received (.document ack) => nfi.isRequest = true → nfi.Conclusive synchronousCall ack

/-- The condition under which the sender is informed. -/
def Answerable (synchronousCall : Bool) (queueSize : ℕ) (nfi : NetworkForwardInfo)
    (onThisThread : Bool) (transmission : Transmission Doc) : Prop :=
  (nfi.isRequest = true → Accepted queueSize nfi onThisThread) ∧
    (Accepted queueSize nfi onThisThread → nfi.Transmitted synchronousCall transmission)

variable {sync onThisThread : Bool} {queueSize : ℕ} {nfi : NetworkForwardInfo}
  {tx : Transmission Doc} {ack : Ack Doc}

theorem submitMessage_eq : nfi.submitMessage sync queueSize onThisThread tx =
    if Accepted queueSize nfi onThisThread then
      nfi.processBufferElement sync tx
    else [] := by
  unfold submitMessage
  by_cases address : nfi.destinationAddr = ""
  · rw [if_pos address, if_neg fun ha => ha.1 address]
  rw [if_neg address]
  cases hm : nfi.hasMessage with
  | false =>
    rw [if_pos rfl, if_neg fun ha => absurd (hm.symm.trans ha.2.1) (by decide)]
  | true =>
    rw [if_neg (by decide)]
    cases onThisThread with
    | true => rw [if_pos rfl, if_pos ⟨address, hm, .inl rfl⟩]
    | false =>
      rw [if_neg (by decide)]
      split
      next full =>
        rw [if_neg]
        rintro ⟨-, -, hh | room⟩
        · cases hh
        · omega
      next room => rw [if_pos ⟨address, hm, .inr (Nat.le_of_not_lt room)⟩]

/-- The response for a message that has not got through. -/
theorem exists_isError {code : ℤ} (text : String) (he : code ≠ 0) :
    ∃ resp : Response Doc, nfi.forwadSubmissionResultError code text = [resp] ∧
      nfi.IsError resp :=
  ⟨_, rfl, rfl, rfl, he⟩

/-- The ack is passed on. -/
def Forwards (synchronousCall : Bool) (nfi : NetworkForwardInfo) (ack : Ack Doc) : Prop :=
  ack.seqId ≠ .other ∧ nfi.senderNodeId ≠ "" ∧
    (synchronousCall = true ∨ ∃ code, ack.errorCode = .number code ∧ code ≠ 0)

/-- The response that an ack is passed on with. -/
def forwarded (nfi : NetworkForwardInfo) (ack : Ack Doc) : Response Doc :=
  .answer nfi.senderNodeId (ack.addMessageId (messageId nfi.senderRequestId))

theorem acknowledge_of_forwards (hr : nfi.isRequest = true) (hf : Forwards sync nfi ack) :
    nfi.acknowledge sync (.document ack) = [nfi.forwarded ack] := by
  obtain ⟨readable, hs, mode⟩ := hf
  rw [acknowledge, if_neg readable, hr, if_neg (by decide)]
  cases sync with
  | true => rw [if_pos rfl, forwadSubmissionResult, if_neg hs, forwarded]
  | false =>
    obtain ⟨code, hc, he⟩ := mode.resolve_left (by decide)
    rw [forwadSubmissionResultErrorOfAck, if_neg hs, hc]
    exact if_neg he

theorem acknowledge_of_not_forwards (keeps : ¬ Forwards sync nfi ack) :
    nfi.acknowledge sync (.document ack) = [] := by
  rw [acknowledge]
  split
  · rfl
  next readable =>
  split
  · rfl
  split
  next isSynchronous =>
    rw [forwadSubmissionResult]
    split
    · rfl
    next sender => exact absurd ⟨readable, sender, .inl isSynchronous⟩ keeps
  next =>
    rw [forwadSubmissionResultErrorOfAck]
    split
    · rfl
    next sender =>
    split
    · rfl
    · rfl
    next code isCode =>
      split
      · rfl
      next isError => exact absurd ⟨readable, sender, .inr ⟨code, isCode, isError⟩⟩ keeps

theorem isError_forwarded : nfi.IsError (nfi.forwarded ack) ↔
    (ack.messageId = .absent ∨ ack.messageId = .number (messageId nfi.senderRequestId)) ∧
      ∃ code, ack.errorCode = .number code ∧ code ≠ 0 := by
  unfold forwarded IsError Ack.addMessageId
  cases given : ack.messageId with
  | absent => simp
  | number id | other => simp [given]

/-- A document is a positive ack that is passed on in the synchronous mode, or it is passed on as
an error. -/
theorem acknowledge_document (hr : nfi.isRequest = true) :
    (ack.errorCode = .number 0 ∧ nfi.acknowledge sync (.document ack) =
        if sync then [nfi.forwarded ack] else []) ∨
      (∃ resp, nfi.acknowledge sync (.document ack) = [resp] ∧ nfi.IsError resp) ↔
    nfi.Conclusive sync ack := by
  by_cases hf : Forwards sync nfi ack
  · rw [acknowledge_of_forwards hr hf, Conclusive]
    obtain ⟨readable, hs, mode⟩ := hf
    simp only [List.cons.injEq, and_true, exists_eq_left', isError_forwarded]
    cases hc : ack.errorCode with
    | absent | other => simp
    | number code =>
      obtain rfl | good := eq_or_ne code 0
      · have isSynchronous : sync = true := mode.resolve_right (by simp [hc])
        simp [isSynchronous, readable, hs]
      · simp [good, readable, hs]
  · rw [acknowledge_of_not_forwards hf, Conclusive]
    cases hc : ack.errorCode with
    | absent | other => simp
    | number code =>
      unfold Forwards at hf
      obtain rfl | good := eq_or_ne code 0
      · cases sync with
        | true => simpa using hf
        | false => simp
      · have hn : ¬ (ack.seqId ≠ .other ∧ nfi.senderNodeId ≠ "") := fun both =>
          hf ⟨both.1, both.2, .inr ⟨code, hc, good⟩⟩
        simp [good, hn]

variable (sync tx) in
theorem processBufferElement_request (hr : nfi.isRequest = true) :
    (∃ ack, Positive ack tx ∧
        nfi.processBufferElement sync tx =
          if sync then [nfi.forwarded ack] else []) ∨
      (∃ resp, nfi.processBufferElement sync tx = [resp] ∧ nfi.IsError resp) ↔
    nfi.Transmitted sync tx := by
  cases tx with
  | noSlot | noResource => exact iff_of_true (.inr (exists_isError _ (by decide))) hr
  | notMade | notSent error | notReceived error =>
    rw [processBufferElement, if_pos hr]
    exact iff_of_true (.inr (exists_isError _ (by decide))) trivial
  | received reply =>
    cases reply with
    | empty =>
      rw [processBufferElement, acknowledge, if_pos hr]
      exact iff_of_true (.inr (exists_isError _ (by decide))) trivial
    | malformed => simp [processBufferElement, acknowledge, Positive, Transmitted, hr]
    | document ack =>
      rw [processBufferElement, Transmitted, ← acknowledge_document hr]
      simp [Positive, hr]

variable (sync tx) in
theorem processBufferElement_message (hm : nfi.isRequest = false) :
    nfi.processBufferElement sync tx = [] ↔
      nfi.Transmitted sync tx := by
  cases tx with
  | noSlot | noResource =>
    simp [processBufferElement, forwadSubmissionResultError, Transmitted, hm]
  | notMade | notSent error | notReceived error =>
    simp [processBufferElement, Transmitted, hm]
  | received reply =>
    cases reply <;> simp [processBufferElement, acknowledge, Transmitted, hm]

/-- Whatever becomes of a message, and in both modes. -/
theorem informed_iff (synchronousCall : Bool) (queueSize : ℕ) (nfi : NetworkForwardInfo)
    (onThisThread : Bool) (transmission : Transmission Doc) :
    nfi.Informed synchronousCall queueSize onThisThread transmission ↔
      nfi.Answerable synchronousCall queueSize onThisThread transmission := by
  unfold Informed Answerable
  rw [submitMessage_eq]
  by_cases ha : Accepted queueSize nfi onThisThread
  · cases hr : nfi.isRequest with
    | true =>
      have settled := processBufferElement_request synchronousCall transmission hr
      simpa [ha, forwarded] using settled
    | false =>
      have hs := processBufferElement_message synchronousCall transmission hr
      simpa [ha] using hs
  · cases hr : nfi.isRequest with
    | true | false => simp [ha]

/-- There is no room for a request in the queue, and nobody is told. -/
theorem request_without_room :
    let transmission : Transmission Unit :=
      .received (.document ⟨.number 1, .number 0, .absent, ()⟩)
    let nfi : NetworkForwardInfo := ⟨true, "localhost:30175", true, "node", 7⟩
    nfi.submitMessage false 1001 false transmission = [] ∧
      ¬ nfi.Informed false 1001 false transmission := by
  refine ⟨by decide, ?_⟩
  rintro (⟨ack, ha, -⟩ | ⟨resp, one, -⟩)
  · exact absurd ha (by decide)
  · cases one

end NetworkForwardInfo

end ChaosFramework.Rpc
