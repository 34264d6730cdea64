import ChaosFramework.ByteMemory
import ChaosFramework.Bytes

/-!
# Events

An event is a block of 1024 bytes (`eventData`): a header of four bytes with the signature, the
version and the length, a byte with type and priority, two codes, and then the identification of the
sender behind its length and the value behind its type. The numbers are little endian in the block,
but the fields of the header are bit fields of the host.

`setIdentificationAndValueWithType` does not look at the size of the block, and the length of the
event passes through a parameter of eight bits. It does what it should for events of up to 255 bytes
(`encodes_iff`).
-/

namespace ChaosFramework.Event

open Bytes ByteMemory List

/-- `EVENT_DATA_BYTE_LENGTH` -/
def eventDataByteLength : ℕ := 1024

/-- `EVT_HEADER_BYTE_LENGTH` -/
def headerByteLength : ℕ := 4

/-- `EVT_SUB_CODE_OFFSET` -/
def subCodeOffset : ℕ := 5

/-- `EVT_SUB_CODE_PRIORITY_OFFSET` -/
def subCodePriorityOffset : ℕ := 7

/-- `EVT_IDENTIFICATION_LENGTH_INFO_OFFSET` -/
def identificationLengthInfoOffset : ℕ := 9

/-- `EVT_IDENTIFICATION_VALUE_INFO_OFFSET` -/
def identificationValueInfoOffset : ℕ := 10

inductive EventType
  | alert
  | instrument
  | command
  | custom
  deriving DecidableEq, Repr

def EventType.code : EventType → ℕ
  | alert => 0
  | instrument => 1
  | command => 2
  | custom => 3

inductive EventDataType
  | int8
  | int16
  | int32
  | int64
  | double
  | cString
  | binary
  deriving DecidableEq, Repr

namespace EventDataType

def code : EventDataType → Byte
  | int8 => 0
  | int16 => 1
  | int32 => 2
  | int64 => 3
  | double => 4
  | cString => 5
  | binary => 6

/-- The size of a number. -/
def width : EventDataType → Option ℕ
  | int8 => some 1
  | int16 => some 2
  | int32 => some 4
  | int64 => some 8
  | double => some 8
  | cString => none
  | binary => none

end EventDataType

/-- A value in the memory of the host, with its type. The size of a number is that of its type, and
other sizes are numbers of two bytes. -/
structure EventValue where
  type : EventDataType
  bytes : List Byte
  sized : ∀ width ∈ type.width, bytes.length = width
  small : bytes.length < 65536

/-- The value as it is put into the event: numbers are converted, other values are copied. -/
def EventValue.encoded (host : Order) (value : EventValue) : List Byte :=
  match value.type.width with
  | some _ => host.convert value.bytes
  | none => value.bytes

/-! ### Bit fields -/

/-- The fields of `EventHeader` in the number that it is. -/
def headerOf (host : Order) (sign version length : ℕ) : ℕ :=
  match host with
  | .little => sign + 65536 * version + 524288 * length
  | .big => 65536 * sign + 8192 * version + length

def lengthField (host : Order) (header : ℕ) : ℕ :=
  match host with
  | .little => header / 524288
  | .big => header % 8192

def setLengthField (host : Order) (header length : ℕ) : ℕ :=
  match host with
  | .little => header % 524288 + 524288 * length
  | .big => header / 8192 * 8192 + length

/-- `EventTypeAndPriority`, with two bits for the type and six for the priority. -/
def typeAndPriority (host : Order) (type priority : ℕ) : Byte :=
  match host with
  | .little => Fin.ofNat 256 (type % 4 + 4 * (priority % 64))
  | .big => Fin.ofNat 256 (64 * (type % 4) + priority % 64)

def typeField (host : Order) (byte : Byte) : ℕ :=
  match host with
  | .little => byte.val % 4
  | .big => byte.val / 64

def priorityField (host : Order) (byte : Byte) : ℕ :=
  match host with
  | .little => byte.val / 4
  | .big => byte.val % 64

/-! ### The descriptor -/

structure EventDescriptor where
  /-- The memory from the first byte of `eventData` on. -/
  eventData : ℕ → Byte
  /-- The blocks that have been written, by offset and length. -/
  written : List (ℕ × ℕ)

namespace EventDescriptor

variable (host : Order) (d : EventDescriptor)

def store (offset : ℕ) (bytes : List Byte) : EventDescriptor where
  eventData := write d.eventData offset bytes
  written := d.written ++ [(offset, bytes.length)]

/-- The header as a number of the host. -/
def header : ℕ := ofBytes (read d.eventData 0 headerByteLength)

def initData (type : EventType) (priority : Byte) : EventDescriptor :=
  ((d.store 0 (List.replicate eventDataByteLength 0)).store 0
    (toBytes headerByteLength (headerOf host 0x4345 1 5))).store headerByteLength
      [typeAndPriority host type.code priority.val]

/-- The parameter has eight bits. -/
def setEventDataLength (newSize : ℕ) : EventDescriptor :=
  d.store 0 (toBytes headerByteLength (setLengthField host d.header (newSize % 256)))

def getEventDataLength : ℕ := lengthField host d.header

def getEventType : ℕ := typeField host (d.eventData headerByteLength)

def getEventPriority : ℕ := priorityField host (d.eventData headerByteLength)

def setSubCode (subCode : ℕ) : EventDescriptor := d.store subCodeOffset (toBytes 2 subCode)

def getSubCode : ℕ := ofBytes (read d.eventData subCodeOffset 2)

def setSubCodePriority (subCodePriority : ℕ) : EventDescriptor :=
  d.store subCodePriorityOffset (toBytes 2 subCodePriority)

def getSubCodePriority : ℕ := ofBytes (read d.eventData subCodePriorityOffset 2)

def getIdentificationlength : ℕ := (d.eventData identificationLengthInfoOffset).val

/-- The length is put into one byte. -/
def setSenderIdentification (identification : List Byte) : EventDescriptor × ℕ :=
  ((d.store identificationLengthInfoOffset [Fin.ofNat 256 identification.length]).store
    identificationValueInfoOffset identification, identification.length % 65536)

/-- As many bytes as the length says. -/
def getIdentification : List Byte :=
  read d.eventData identificationValueInfoOffset d.getIdentificationlength

def setIdentificationAndValueWithType (identification : List Byte) (value : EventValue) :
    EventDescriptor :=
  let (e, size) := d.setSenderIdentification identification
  ((e.store (identificationValueInfoOffset + size) [value.type.code]).store
    (identificationValueInfoOffset + size + 1) (value.encoded host)).setEventDataLength host
      (identificationValueInfoOffset + value.bytes.length + size + 1)

def getEventValueType : Byte :=
  d.eventData (identificationValueInfoOffset + d.getIdentificationlength)

/-- The difference has sixteen bits. -/
def getEventValueSize : ℕ :=
  (d.getEventDataLength host + 65536 -
    (identificationLengthInfoOffset + d.getIdentificationlength + 2)) % 65536

def getEventValue : List Byte :=
  read d.eventData (identificationValueInfoOffset + d.getIdentificationlength + 1)
    (d.getEventValueSize host)

/-! ### What is set is returned -/

/-- What the getters return is what has been set. -/
structure Returned (identification : List Byte) (value : EventValue) : Prop where
  identificationLength : d.getIdentificationlength = identification.length
  sameIdentification : d.getIdentification = identification
  valueType : d.getEventValueType = value.type.code
  valueSize : d.getEventValueSize host = value.bytes.length
  sameValue : d.getEventValue host = value.bytes
  dataLength : d.getEventDataLength host =
    identificationValueInfoOffset + identification.length + 1 + value.bytes.length

/-- `setIdentificationAndValueWithType` writes into `eventData` only, an event that fits into it is
returned, and the fields in front of the identification stay as they are. -/
structure Encodes (identification : List Byte) (value : EventValue) : Prop where
  inside : ∀ block ∈ (d.setIdentificationAndValueWithType host identification value).written.drop
    d.written.length, block.1 + block.2 ≤ eventDataByteLength
  returned :
    identificationValueInfoOffset + identification.length + 1 + value.bytes.length ≤
      eventDataByteLength →
    (d.setIdentificationAndValueWithType host identification value).Returned host identification
      value
  subCode : (d.setIdentificationAndValueWithType host identification value).getSubCode =
    d.getSubCode
  subCodePriority :
    (d.setIdentificationAndValueWithType host identification value).getSubCodePriority =
      d.getSubCodePriority
  eventType : (d.setIdentificationAndValueWithType host identification value).getEventType host =
    d.getEventType host
  eventPriority :
    (d.setIdentificationAndValueWithType host identification value).getEventPriority host =
      d.getEventPriority host

variable {host d} {ident : List Byte} {val : EventValue} {header length : ℕ}

theorem header_lt : d.header < 4294967296 := by
  have bound := ofBytes_lt (read d.eventData 0 headerByteLength)
  rwa [length_read] at bound

theorem lengthField_setLengthField (hi : length < 8192) :
    lengthField host (setLengthField host header length) = length := by
  cases host with
  | little | big =>
    simp only [lengthField, setLengthField]
    omega

theorem setLengthField_lt (isHeader : header < 4294967296)
    (hi : length < 8192) : setLengthField host header length < 4294967296 := by
  cases host with
  | little | big =>
    simp only [setLengthField]
    omega

theorem length_encoded : (val.encoded host).length = val.bytes.length := by
  unfold EventValue.encoded
  split
  · exact host.length_convert val.bytes
  · rfl

theorem getEventDataLength_setEventDataLength (newSize : ℕ) :
    (d.setEventDataLength host newSize).getEventDataLength host = newSize % 256 := by
  have hi : newSize % 256 < 8192 := by omega
  have stored : (d.setEventDataLength host newSize).header =
      setLengthField host d.header (newSize % 256) := by
    rw [setEventDataLength, header, store, read_write_self (length_toBytes ..)]
    exact ofBytes_toBytes_of_lt (setLengthField_lt header_lt hi)
  rw [getEventDataLength, stored, lengthField_setLengthField hi]

section Set

variable (host d ident val) {off : ℕ}

/-- The memory after the identification, the type and the value have been written. -/
theorem eventData_set : ∃ length,
    (d.setIdentificationAndValueWithType host ident val).eventData =
      write (write (write (write (write d.eventData identificationLengthInfoOffset
        [Fin.ofNat 256 ident.length]) identificationValueInfoOffset ident)
          (identificationValueInfoOffset + ident.length % 65536) [val.type.code])
            (identificationValueInfoOffset + ident.length % 65536 + 1)
              (val.encoded host)) 0 (toBytes headerByteLength length) :=
  ⟨_, rfl⟩

theorem getIdentificationlength_set :
    (d.setIdentificationAndValueWithType host ident val).getIdentificationlength =
      ident.length % 256 := by
  obtain ⟨length, hm⟩ := eventData_set host d ident val
  have place : identificationLengthInfoOffset < identificationValueInfoOffset := by decide
  rw [getIdentificationlength, hm, write_of_le (by rw [length_toBytes]; decide),
    write_of_lt (by omega), write_of_lt (by omega)]
  rfl

theorem getEventDataLength_set :
    (d.setIdentificationAndValueWithType host ident val).getEventDataLength host =
      (identificationValueInfoOffset + val.bytes.length + ident.length % 65536 + 1) %
        256 :=
  getEventDataLength_setEventDataLength _

/-- The bytes between the header and the identification. -/
theorem eventData_set_of_front (behind : headerByteLength ≤ off)
    (hb : off < identificationLengthInfoOffset) :
    (d.setIdentificationAndValueWithType host ident val).eventData off =
      d.eventData off := by
  obtain ⟨length, hm⟩ := eventData_set host d ident val
  have place : identificationLengthInfoOffset < identificationValueInfoOffset := by decide
  rw [hm, write_of_le (by simpa using behind), write_of_lt (by omega), write_of_lt (by omega),
    write_of_lt (by omega), write_of_lt hb]

/-- A block of them. -/
theorem read_set_of_front (behind : headerByteLength ≤ off)
    (hb : off + length ≤ identificationLengthInfoOffset) :
    read (d.setIdentificationAndValueWithType host ident val).eventData off length =
      read d.eventData off length := by
  apply map_congr_left
  intro i hm
  have hi := mem_range.mp hm
  exact eventData_set_of_front host d ident val (by omega) (by omega)

end Set

section Short

variable (short : identificationValueInfoOffset + ident.length + 1 + val.bytes.length ≤ 255)

include short

theorem getIdentificationlength_set_of_short :
    (d.setIdentificationAndValueWithType host ident val).getIdentificationlength =
      ident.length := by
  rw [getIdentificationlength_set, Nat.mod_eq_of_lt (by omega)]

variable (host d) in
/-- The memory after a short event has been written, where nothing is cut. -/
theorem eventData_set_of_short : ∃ length,
    (d.setIdentificationAndValueWithType host ident val).eventData =
      write (write (write (write (write d.eventData identificationLengthInfoOffset
        [Fin.ofNat 256 ident.length]) identificationValueInfoOffset ident)
          (identificationValueInfoOffset + ident.length) [val.type.code])
            (identificationValueInfoOffset + ident.length + 1)
              (val.encoded host)) 0 (toBytes headerByteLength length) := by
  have hm := eventData_set host d ident val
  rwa [Nat.mod_eq_of_lt (by omega : ident.length < 65536)] at hm

theorem getIdentification_set_of_short :
    (d.setIdentificationAndValueWithType host ident val).getIdentification =
      ident := by
  obtain ⟨length, hm⟩ := eventData_set_of_short host d short
  have place : headerByteLength < identificationValueInfoOffset := by decide
  rw [getIdentification, getIdentificationlength_set_of_short short, hm,
    read_write_of_disjoint (.inr (by rw [length_toBytes]; omega)),
    read_write_of_disjoint (.inl (by omega)), read_write_of_disjoint (.inl (by omega)),
    read_write_self rfl]

theorem getEventValueType_set_of_short :
    (d.setIdentificationAndValueWithType host ident val).getEventValueType =
      val.type.code := by
  obtain ⟨length, hm⟩ := eventData_set_of_short host d short
  have place : headerByteLength < identificationValueInfoOffset := by decide
  rw [getEventValueType, getIdentificationlength_set_of_short short, hm,
    write_of_le (by rw [length_toBytes]; omega)]
  simp [write]

theorem getEventDataLength_set_of_short :
    (d.setIdentificationAndValueWithType host ident val).getEventDataLength host =
      identificationValueInfoOffset + ident.length + 1 + val.bytes.length := by
  rw [getEventDataLength_set]
  omega

theorem getEventValueSize_set_of_short :
    (d.setIdentificationAndValueWithType host ident val).getEventValueSize host =
      val.bytes.length := by
  have offsets : identificationValueInfoOffset = identificationLengthInfoOffset + 1 := rfl
  rw [getEventValueSize, getEventDataLength_set_of_short short,
    getIdentificationlength_set_of_short short]
  omega

theorem getEventValue_set_of_short :
    (d.setIdentificationAndValueWithType host ident val).getEventValue host =
      val.encoded host := by
  obtain ⟨length, hm⟩ := eventData_set_of_short host d short
  have place : headerByteLength < identificationValueInfoOffset := by decide
  rw [getEventValue, getEventValueSize_set_of_short short,
    getIdentificationlength_set_of_short short, hm,
    read_write_of_disjoint (.inr (by rw [length_toBytes]; omega)),
    read_write_self length_encoded]

end Short

/-- The blocks are inside exactly when the event fits. -/
theorem inside_iff :
    (∀ block ∈ (d.setIdentificationAndValueWithType host ident val).written.drop
      d.written.length, block.1 + block.2 ≤ eventDataByteLength) ↔
      identificationValueInfoOffset + ident.length + 1 + val.bytes.length ≤
        eventDataByteLength := by
  have sizes : identificationValueInfoOffset = 10 ∧ identificationLengthInfoOffset = 9 ∧
      headerByteLength = 4 ∧ eventDataByteLength = 1024 := ⟨rfl, rfl, rfl, rfl⟩
  simp only [setIdentificationAndValueWithType, setSenderIdentification, setEventDataLength, store,
    length_encoded, append_assoc, drop_left, cons_append, nil_append,
    mem_cons, not_mem_nil, or_false, forall_eq_or_imp, forall_eq, length_toBytes,
    length_singleton]
  constructor
  · omega
  · intro fits
    refine ⟨?_, ?_, ?_, ?_, ?_⟩ <;> omega

/-- The event is set and returned exactly if it has at most 255 bytes and its value, if it
is a number, reads the same in both byte orders on a big endian host. -/
theorem encodes_iff (host : Order) (d : EventDescriptor) (identification : List Byte)
    (value : EventValue) :
    d.Encodes host identification value ↔
      identificationValueInfoOffset + identification.length + 1 + value.bytes.length ≤ 255 ∧
        value.encoded host = value.bytes := by
  constructor
  · intro encodes
    have fits := inside_iff.mp encodes.inside
    have returned := encodes.returned fits
    have small : identification.length < 65536 := by
      have bound : eventDataByteLength = 1024 := rfl
      omega
    -- The length that is returned is one of eight bits.
    have short : identificationValueInfoOffset + identification.length + 1 + value.bytes.length ≤
        255 := by
      have length := returned.dataLength
      rw [getEventDataLength_set] at length
      omega
    exact ⟨short, (getEventValue_set_of_short short).symm.trans returned.sameValue⟩
  · rintro ⟨short, same⟩
    have front := eventData_set_of_front host d identification value le_rfl (by decide)
    constructor
    case inside =>
      apply inside_iff.mpr
      exact short.trans (by decide)
    case returned =>
      intro _
      exact ⟨getIdentificationlength_set_of_short short, getIdentification_set_of_short short,
        getEventValueType_set_of_short short, getEventValueSize_set_of_short short,
        (getEventValue_set_of_short short).trans same, getEventDataLength_set_of_short short⟩
    case subCode =>
      rw [getSubCode, getSubCode, read_set_of_front host d identification value] <;> decide
    case subCodePriority =>
      rw [getSubCodePriority, getSubCodePriority,
        read_set_of_front host d identification value] <;> decide
    case eventType => rw [getEventType, getEventType, front]
    case eventPriority => rw [getEventPriority, getEventPriority, front]

/-- The sender is called by 240 bytes, and the value is a number of eight. The event has 259
bytes, and its length is said to be 3. -/
theorem event_of_259_bytes :
    let value : EventValue := ⟨.int64, [1, 0, 0, 0, 0, 0, 0, 0], by decide, by decide⟩
    let created : EventDescriptor := ⟨fun _ => 0, []⟩
    let d := ((created.initData .little .alert 0).setSubCode 1).setSubCodePriority 2
    let identification : List Byte := replicate 240 65
    (d.setIdentificationAndValueWithType .little identification value).getEventDataLength .little =
        3 ∧
      ¬ d.Encodes .little identification value := by
  intro value created d identification
  have length : (d.setIdentificationAndValueWithType .little identification
      value).getEventDataLength .little = 3 := by
    rw [getEventDataLength_set, length_replicate]
    simp [value, identificationValueInfoOffset]
  refine ⟨length, fun encodes => ?_⟩
  have hr := encodes.returned (by rw [length_replicate]; decide)
  have full := length.symm.trans hr.dataLength
  rw [length_replicate] at full
  exact absurd full (by decide)

end EventDescriptor

end ChaosFramework.Event
