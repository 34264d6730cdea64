import ChaosFramework.Bytes

/-!
# Data packs and the messages that carry them

A data pack has a dispatcher header, which is a union: ten bytes of memory, read either as fields or
as five numbers of two bytes for the conversion of their byte order. The two fields that share a
byte start from its other end on a big endian host. On the wire the pack is a message of one frame
for the header and one for each of the parts that `channel_part` announces.

Sending and receiving have no result where the code would use a pointer that is not set. An empty
frame is an error for `readMessage`, with the error number that the thread happens to have.
-/

namespace ChaosFramework.DirectIO

open Bytes

/-! ### The dispatcher header -/

/-- For the flag `synchronous_answer`. -/
instance neZero_flag : NeZero 2 := ⟨by decide⟩

/-- `dispatcher_header.fields`. -/
structure DispatcherHeader where
  routeAddr : Fin 65536
  /-- The bits of an `int16_t`. -/
  err : Fin 65536
  channelIdx : Byte
  channelPart : Byte
  channelOpcode : Byte
  synchronousAnswer : Fin 2
  unused : Fin 128
  counter : Fin 65536
  deriving DecidableEq, Repr

/-- `dispatcher_header.endianes`, as memory: each number is a pair of bytes. -/
structure EndianHeader where
  field1 : Byte × Byte
  field2 : Byte × Byte
  field3 : Byte × Byte
  field4 : Byte × Byte
  field5 : Byte × Byte
  deriving DecidableEq, Repr

/-- `byte_swap` of a number of two bytes. -/
def byteSwap (host : Order) (number : Byte × Byte) : Byte × Byte :=
  match host with
  | .little => number
  | .big => number.swap

def store16 (host : Order) (n : Fin 65536) : Byte × Byte :=
  byteSwap host (Fin.ofNat 256 n.val, Fin.ofNat 256 (n.val / 256))

def load16 (host : Order) (number : Byte × Byte) : Fin 65536 :=
  ⟨(byteSwap host number).1.val + 256 * (byteSwap host number).2.val, by omega⟩

/-- The byte that `synchronous_answer` and `unused` share. -/
def storeFlags (host : Order) (synchronousAnswer : Fin 2) (unused : Fin 128) : Byte :=
  match host with
  | .little => ⟨synchronousAnswer.val + 2 * unused.val, by omega⟩
  | .big => ⟨128 * synchronousAnswer.val + unused.val, by omega⟩

def loadSynchronousAnswer (host : Order) (flags : Byte) : Fin 2 :=
  match host with
  | .little => ⟨flags.val % 2, by omega⟩
  | .big => ⟨flags.val / 128, by omega⟩

def loadUnused (host : Order) (flags : Byte) : Fin 128 :=
  match host with
  | .little => ⟨flags.val / 2, by omega⟩
  | .big => ⟨flags.val % 128, by omega⟩

/-- The fields in the memory of a host. -/
def DispatcherHeader.store (host : Order) (fields : DispatcherHeader) : EndianHeader where
  field1 := store16 host fields.routeAddr
  field2 := store16 host fields.err
  field3 := (fields.channelIdx, fields.channelPart)
  field4 := (fields.channelOpcode, storeFlags host fields.synchronousAnswer fields.unused)
  field5 := store16 host fields.counter

def EndianHeader.fields (host : Order) (memory : EndianHeader) : DispatcherHeader where
  routeAddr := load16 host memory.field1
  err := load16 host memory.field2
  channelIdx := memory.field3.1
  channelPart := memory.field3.2
  channelOpcode := memory.field4.1
  synchronousAnswer := loadSynchronousAnswer host memory.field4.2
  unused := loadUnused host memory.field4.2
  counter := load16 host memory.field5

/-- `DIRECT_IO_DATAPACK_DISPATCH_HEADER_TO_ENDIAN`, and `FROM_ENDIAN`, which does the same. -/
def EndianHeader.convert (host : Order) (memory : EndianHeader) : EndianHeader where
  field1 := byteSwap host memory.field1
  field2 := byteSwap host memory.field2
  field3 := byteSwap host memory.field3
  field4 := byteSwap host memory.field4
  field5 := byteSwap host memory.field5

def EndianHeader.bytes (memory : EndianHeader) : List Byte :=
  [memory.field1.1, memory.field1.2, memory.field2.1, memory.field2.2, memory.field3.1,
    memory.field3.2, memory.field4.1, memory.field4.2, memory.field5.1, memory.field5.2]

section Memory

variable (host : Order)

@[simp] theorem byteSwap_byteSwap (num : Byte × Byte) :
    byteSwap host (byteSwap host num) = num := by
  cases host <;> rfl

theorem load16_store16 (n : Fin 65536) : load16 host (store16 host n) = n := by
  ext
  simp only [load16, store16, byteSwap_byteSwap, Fin.val_ofNat]
  omega

theorem store16_load16 (num : Byte × Byte) : store16 host (load16 host num) = num := by
  refine (congrArg (byteSwap host) (Prod.ext ?_ ?_)).trans (byteSwap_byteSwap host num)
  · ext
    simp only [load16, Fin.val_ofNat]
    omega
  · ext
    simp only [load16, Fin.val_ofNat]
    omega

theorem loadSynchronousAnswer_storeFlags (sync : Fin 2) (unused : Fin 128) :
    loadSynchronousAnswer host (storeFlags host sync unused) = sync := by
  ext
  cases host <;> simp only [loadSynchronousAnswer, storeFlags] <;> omega

theorem loadUnused_storeFlags (sync : Fin 2) (unused : Fin 128) :
    loadUnused host (storeFlags host sync unused) = unused := by
  ext
  cases host <;> simp only [loadUnused, storeFlags] <;> omega

theorem storeFlags_load (flags : Byte) :
    storeFlags host (loadSynchronousAnswer host flags) (loadUnused host flags) = flags := by
  ext
  cases host <;> simp only [loadSynchronousAnswer, loadUnused, storeFlags] <;> omega

theorem fields_store (flds : DispatcherHeader) : (flds.store host).fields host = flds := by
  simp only [DispatcherHeader.store, EndianHeader.fields, load16_store16,
    loadSynchronousAnswer_storeFlags, loadUnused_storeFlags]

/-- The fields take up all the ten bytes. -/
theorem store_fields (mem : EndianHeader) : (mem.fields host).store host = mem := by
  simp only [DispatcherHeader.store, EndianHeader.fields, store16_load16, storeFlags_load]

theorem fields_eq_iff {mem : EndianHeader} {flds : DispatcherHeader} :
    mem.fields host = flds ↔ mem = flds.store host := by
  constructor
  · rintro rfl
    exact (store_fields host mem).symm
  · rintro rfl
    exact fields_store host flds

@[simp] theorem convert_convert (mem : EndianHeader) : (mem.convert host).convert host = mem := by
  simp [EndianHeader.convert]

end Memory

/-! ### The data pack -/

/-- `byte_swap` of a number of four bytes. -/
def swap32 (host : Order) (n : ℕ) : ℕ := ofBytes (host.convert (toBytes 4 n))

theorem swap32_lt (host : Order) (n : ℕ) : swap32 host n < 4294967296 := by
  have bound := ofBytes_lt (host.convert (toBytes 4 n))
  rw [Order.length_convert, length_toBytes] at bound
  exact bound

theorem swap32_swap32 (host : Order) {n : ℕ} (small : n < 4294967296) :
    swap32 host (swap32 host n) = n := by
  have hi : toBytes 4 (swap32 host n) = host.convert (toBytes 4 n) := by
    have bytes := toBytes_ofBytes (host.convert (toBytes 4 n))
    rwa [Order.length_convert] at bytes
  rw [swap32, hi, Order.convert_convert, ofBytes_toBytes_of_lt small]

theorem swap32_little {n : ℕ} (small : n < 4294967296) : swap32 .little n = n :=
  ofBytes_toBytes_of_lt small

@[simp] theorem swap32_zero (host : Order) : swap32 host 0 = 0 := by
  cases host <;> rfl

/-- `DirectIODataPack`, in the memory of a host. -/
structure DataPack where
  dispatcherHeader : EndianHeader
  channelHeaderSize : ℕ
  channelDataSize : ℕ
  channelHeaderData : Option (List Byte)
  channelData : Option (List Byte)
  deriving DecidableEq, Repr

namespace DataPack

/-- `fields.channel_part`. -/
def channelPart (pack : DataPack) : Byte := pack.dispatcherHeader.field3.2

def addChannelPart (pack : DataPack) (part : Byte) : DataPack :=
  { pack with dispatcherHeader := { pack.dispatcherHeader with
      field3 := (pack.dispatcherHeader.field3.1, pack.channelPart + part) } }

/-- `DIRECT_IO_SET_CHANNEL_HEADER`, with a size that is converted to `uint32_t`. -/
def setChannelHeader (host : Order) (pack : DataPack) (buffer : Option (List Byte)) (size : ℕ) :
    DataPack :=
  if buffer.isSome ∧ size % 4294967296 ≠ 0 then
    { pack.addChannelPart 1 with
      channelHeaderSize := swap32 host (size % 4294967296)
      channelHeaderData := buffer }
  else pack

/-- `DIRECT_IO_SET_CHANNEL_DATA`. -/
def setChannelData (host : Order) (pack : DataPack) (buffer : Option (List Byte)) (size : ℕ) :
    DataPack :=
  if buffer.isSome ∧ size % 4294967296 ≠ 0 then
    { pack.addChannelPart 2 with
      channelDataSize := swap32 host (size % 4294967296)
      channelData := buffer }
  else pack

/-- A pack without parts, with the given fields. -/
def create (host : Order) (fields : DispatcherHeader) : DataPack where
  dispatcherHeader := fields.store host
  channelHeaderSize := 0
  channelDataSize := 0
  channelHeaderData := none
  channelData := none

end DataPack

/-- A pack with the given fields, to which the two parts are added. -/
def buildPack (host : Order) (fields : DispatcherHeader) (header data : List Byte) : DataPack :=
  ((DataPack.create host { fields with channelPart := 0 }).setChannelHeader host (some header)
    header.length).setChannelData host (some data) data.length

/-! ### Sending -/

/-- A part is sent from the buffer's memory, as many bytes as the header says. -/
def sendPart (buffer : Option (List Byte)) (size : ℕ) : Option (List Byte) :=
  buffer.bind fun bytes => if size ≤ bytes.length then some (bytes.take size) else none

/-- The frame of the header. Two bytes of padding, which nobody reads, precede the sizes. -/
def headerFrame (host : Order) (header : EndianHeader) (channelHeaderSize channelDataSize : ℕ) :
    List Byte :=
  header.bytes ++ [0, 0] ++ host.store 4 channelHeaderSize ++ host.store 4 channelDataSize

/-- The frames that are sent under a `channel_part`: none at all for an unknown one. -/
def messageOf (channelPart : Byte) (frame : List Byte) (header data : Option (List Byte)) :
    Option (List (List Byte)) :=
  match channelPart with
  | 0 => some [frame]
  | 1 => header.map fun first => [frame, first]
  | 2 => data.map fun first => [frame, first]
  | 3 => header.bind fun first => data.map fun second => [frame, first, second]
  | _ => some []

/-- The message that `sendDatapack` hands to the socket. The parts are those that the converted
header announces. -/
def sendDatapack (host : Order) (pack : DataPack) : Option (List (List Byte)) :=
  let header := pack.dispatcherHeader.convert host
  let channelHeaderSize := swap32 host pack.channelHeaderSize
  let channelDataSize := swap32 host pack.channelDataSize
  messageOf header.field3.2 (headerFrame host header channelHeaderSize channelDataSize)
    (sendPart pack.channelHeaderData channelHeaderSize) (sendPart pack.channelData channelDataSize)

/-! ### Receiving -/

/-- A frame in the queue of a socket. -/
structure Frame where
  content : List Byte
  /-- `ZMQ_RCVMORE`: there are more frames of this message. -/
  more : Bool
  deriving DecidableEq, Repr

/-- What a call of `readMessage` yields. -/
structure Read where
  err : Int
  buffer : Option (List Byte)
  hasNext : Bool
  socket : List Frame
  deriving DecidableEq, Repr

/-- `EAGAIN`, when no frame arrives in time. -/
def eagain : Int := 11

/-- `readMessage`. The length of an empty frame is taken for an error. -/
def readMessage (errno : Int) : List Frame → Read
  | [] => ⟨eagain, none, false, []⟩
  | frame :: socket =>
      if frame.content.length = 0 then ⟨errno, none, false, socket⟩
      else ⟨0, some frame.content, frame.more, socket⟩

/-- The result of `reveiceDatapack`, and what is left in the socket. -/
structure Reception where
  err : Int
  dataPack : Option DataPack
  socket : List Frame
  deriving DecidableEq, Repr

/-- The loop that consumes the frames of a message that is not conform. -/
def consumeFrames : Bool → List Frame → List Frame
  | false, socket => socket
  | true, [] => []
  | true, frame :: socket =>
      consumeFrames (if frame.content.length = 0 then false else frame.more) socket

/-- `DIRECT_IO_HEADER_SIZE`. -/
def directIOHeaderSize : ℕ := 20

/-- The header that a frame of the right size is copied to, after the conversions. -/
def receiveHeader (host : Order) (frame : List Byte) : DataPack where
  dispatcherHeader := EndianHeader.convert host
    ⟨(frame.getD 0 0, frame.getD 1 0), (frame.getD 2 0, frame.getD 3 0),
      (frame.getD 4 0, frame.getD 5 0), (frame.getD 6 0, frame.getD 7 0),
      (frame.getD 8 0, frame.getD 9 0)⟩
  channelHeaderSize := swap32 host (host.load ((frame.drop 12).take 4))
  channelDataSize := swap32 host (host.load ((frame.drop 16).take 4))
  channelHeaderData := none
  channelData := none

/-- A part is read and its size is compared. -/
def readPart (errno : Int) (size : ℕ) (mismatch : Int) (socket : List Frame) : Option Read :=
  let read := readMessage errno socket
  if read.err ≠ 0 then some read
  else
    read.buffer.map fun bytes =>
      { read with err := if bytes.length ≠ size then mismatch else 0 }

/-- The second half of `reveiceDatapack`: the parts that the header announces. -/
def receiveParts (errno : Int) (pack : DataPack) (hasNext : Bool) (socket : List Frame) :
    Option Reception :=
  match pack.channelPart with
  | 0 => some ⟨0, some pack, socket⟩
  | 1 =>
      if ¬ hasNext then some ⟨-13002, some pack, socket⟩
      else
        (readPart errno pack.channelHeaderSize (-13003) socket).map fun header =>
          ⟨header.err, some { pack with channelHeaderData := header.buffer }, header.socket⟩
  | 2 =>
      if ¬ hasNext then some ⟨-13004, some pack, socket⟩
      else
        (readPart errno pack.channelDataSize (-13005) socket).map fun data =>
          ⟨data.err, some { pack with channelData := data.buffer }, data.socket⟩
  | 3 =>
      if ¬ hasNext then some ⟨-13006, some pack, socket⟩
      else
        (readPart errno pack.channelHeaderSize (-13007) socket).bind fun header =>
          let pack := { pack with channelHeaderData := header.buffer }
          if header.err ≠ 0 then some ⟨header.err, some pack, header.socket⟩
          else if ¬ header.hasNext then some ⟨-13008, some pack, header.socket⟩
          else
            (readPart errno pack.channelDataSize (-13009) header.socket).map fun data =>
              ⟨data.err, some { pack with channelData := data.buffer }, data.socket⟩
  | _ => some ⟨0, some pack, socket⟩

def reveiceDatapack (host : Order) (errno : Int) (socket : List Frame) : Option Reception :=
  let read := readMessage errno socket
  if read.err ≠ 0 then some ⟨read.err, none, read.socket⟩
  else
    read.buffer.bind fun headerBuffer =>
      if directIOHeaderSize ≠ headerBuffer.length then
        some ⟨-13003, none, consumeFrames read.hasNext read.socket⟩
      else receiveParts errno (receiveHeader host headerBuffer) read.hasNext read.socket

/-- `reveiceDatapack` of a socket whose messages start with the identity of the peer. -/
def reveiceDatapackIdentity (host : Order) (errno : Int) (socket : List Frame) :
    Option Reception :=
  let read := readMessage errno socket
  if read.err ≠ 0 then some ⟨read.err, none, read.socket⟩
  else if (read.buffer.getD []).length = 0 then some ⟨-12000, none, read.socket⟩
  else if ¬ read.hasNext then some ⟨-12001, none, read.socket⟩
  else reveiceDatapack host errno read.socket

/-- The frames of a message as they stand in the queue of a socket. -/
def frames : List (List Byte) → List Frame
  | [] => []
  | content :: rest => ⟨content, !rest.isEmpty⟩ :: frames rest

end ChaosFramework.DirectIO
