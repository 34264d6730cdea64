import ChaosFramework.DirectIO.Framing

/-!
# Data packs between hosts

The numbers of the header are converted to little endian when a pack is sent and back when it is
received, but some of them more often: the macros that set a part convert its size already, and the
dispatcher converts the header of an answer before `sendDatapack` does. Two little endian hosts
exchange packs faithfully. Where a big endian host takes part, two conversions cancel out, and the
fields of one byte change places; what is left are the packs whose fields read the same either way.
-/

namespace ChaosFramework.DirectIO

open Bytes List Option DataPack DispatcherHeader

variable {snd rcv : Order} {errno : Int} {flds : DispatcherHeader}
  {hdr data : List Byte} {memory : EndianHeader}

/-- The code of the parts that are not empty. -/
def partCode (header data : List Byte) : Byte :=
  (if header = [] then 0 else 1) + (if data = [] then 0 else 2)

/-- What the dispatcher does to the answer of a handler, after it has set three of the fields. -/
def prepareAnswer (host : Order) (channelOpcode : Byte) (counter err : Fin 65536)
    (answer : DataPack) : DataPack :=
  { answer with dispatcherHeader :=
      (({ answer.dispatcherHeader.fields host with
          channelOpcode := channelOpcode
          counter := counter
          err := err }).store host).convert host }

/-- A pack is sent and received. -/
def exchange (sender receiver : Order) (errno : Int) (pack : DataPack) : Option Reception :=
  (sendDatapack sender pack).bind fun message => reveiceDatapack receiver errno (frames message)

/-- The receiver has the values of the fields, the sizes and the bytes of the parts. -/
def Reproduces (receiver : Order) (fields : DispatcherHeader) (header data : List Byte)
    (result : Option Reception) : Prop :=
  ∃ pack, result = some ⟨0, some pack, []⟩ ∧
    pack.dispatcherHeader.fields receiver =
      { fields with channelPart := partCode header data } ∧
    pack.channelHeaderSize = header.length ∧ pack.channelDataSize = data.length ∧
    pack.channelHeaderData.getD [] = header ∧ pack.channelData.getD [] = data

/-! ### What is sent -/

/-- A part that is not empty. -/
def part (bytes : List Byte) : Option (List Byte) := if bytes = [] then none else some bytes

theorem part_of_ne_nil (nonempty : data ≠ []) : part data = some data := if_neg nonempty

/-- The pack that the macros build on a header. -/
def packOf (host : Order) (memory : EndianHeader) (header data : List Byte) : DataPack where
  dispatcherHeader := memory
  channelHeaderSize := swap32 host header.length
  channelDataSize := swap32 host data.length
  channelHeaderData := part header
  channelData := part data

variable {host : Order} {pack : DataPack} {frame bytes first : List Byte} {sock rest : List Frame}
  {headerSize dataSize : ℕ} {n : Fin 65536} {err : Int}

theorem setChannelHeader_eq (small : hdr.length < 4294967296)
    (fresh : pack.channelHeaderSize = 0 ∧ pack.channelHeaderData = none) :
    pack.setChannelHeader host (some hdr) hdr.length =
      { pack.addChannelPart (if hdr = [] then 0 else 1) with
        channelHeaderSize := swap32 host hdr.length
        channelHeaderData := part hdr } := by
  unfold setChannelHeader part
  rw [Nat.mod_eq_of_lt small]
  obtain rfl | empty := eq_or_ne hdr ([])
  · obtain ⟨memory, size, dataSize, buf, dataBuffer⟩ := pack
    obtain ⟨rfl, rfl⟩ := fresh
    simp [addChannelPart, DataPack.channelPart]
  · simp [empty]

theorem setChannelData_eq (small : data.length < 4294967296)
    (fresh : pack.channelDataSize = 0 ∧ pack.channelData = none) :
    pack.setChannelData host (some data) data.length =
      { pack.addChannelPart (if data = [] then 0 else 2) with
        channelDataSize := swap32 host data.length
        channelData := part data } := by
  unfold setChannelData part
  rw [Nat.mod_eq_of_lt small]
  obtain rfl | empty := eq_or_ne data ([])
  · obtain ⟨memory, size, dataSize, buf, dataBuffer⟩ := pack
    obtain ⟨rfl, rfl⟩ := fresh
    simp [addChannelPart, DataPack.channelPart]
  · simp [empty]

theorem buildPack_eq (hs : hdr.length < 4294967296) (smallData : data.length < 4294967296) :
    buildPack host flds hdr data =
      packOf host ({ flds with channelPart := partCode hdr data }.store host) hdr data := by
  rw [buildPack, setChannelHeader_eq hs ⟨rfl, rfl⟩, setChannelData_eq smallData ⟨rfl, rfl⟩]
  simp [create, addChannelPart, DataPack.channelPart, packOf, partCode, store]

theorem sendPart_part {size : ℕ} (exact : size = bytes.length) :
    sendPart (part bytes) size = part bytes := by
  unfold part sendPart
  split
  · rfl
  · simp [exact]

theorem sendDatapack_packOf (hs : hdr.length < 4294967296) (smallData : data.length < 4294967296) :
    sendDatapack snd (packOf snd memory hdr data) =
      messageOf (memory.convert snd).field3.2
        (headerFrame snd (memory.convert snd) hdr.length data.length) (part hdr)
        (part data) := by
  simp only [sendDatapack, packOf, swap32_swap32 snd hs, swap32_swap32 snd smallData, sendPart_part]

/-- The ways in which something is sent. -/
inductive Sent (frame header data : List Byte) : Byte → List (List Byte) → Prop
  | empty : Sent frame header data 0 [frame]
  | headerOnly : header ≠ [] → Sent frame header data 1 [frame, header]
  | dataOnly : data ≠ [] → Sent frame header data 2 [frame, data]
  | both : header ≠ [] → data ≠ [] → Sent frame header data 3 [frame, header, data]
  | nothing (code : Byte) : Sent frame header data code []

theorem part_eq_some : part bytes = some first ↔ bytes ≠ [] ∧ bytes = first := by
  unfold part
  split <;> simp_all

theorem sent_of_messageOf {code : Byte} {msg : List (List Byte)}
    (sent : messageOf code frame (part hdr) (part data) = some msg) :
    Sent frame hdr data code msg := by
  unfold messageOf at sent
  split at sent
  · cases sent
    exact .empty
  · obtain ⟨first, found, rfl⟩ := map_eq_some_iff.mp sent
    obtain ⟨nonempty, rfl⟩ := part_eq_some.mp found
    exact .headerOnly nonempty
  · obtain ⟨first, found, rfl⟩ := map_eq_some_iff.mp sent
    obtain ⟨nonempty, rfl⟩ := part_eq_some.mp found
    exact .dataOnly nonempty
  · obtain ⟨first, found, rest⟩ := bind_eq_some_iff.mp sent
    obtain ⟨second, foundToo, rfl⟩ := map_eq_some_iff.mp rest
    obtain ⟨nonempty, rfl⟩ := part_eq_some.mp found
    obtain ⟨hn, rfl⟩ := part_eq_some.mp foundToo
    exact .both nonempty hn
  · cases sent
    exact .nothing code

/-! ### What is received -/

theorem length_headerFrame :
    (headerFrame snd memory headerSize dataSize).length = directIOHeaderSize := by
  simp [headerFrame, EndianHeader.bytes, directIOHeaderSize]

/-- The sizes lack a conversion. -/
theorem receiveHeader_headerFrame :
    receiveHeader rcv (headerFrame snd memory headerSize dataSize) =
      ⟨memory.convert rcv, swap32 snd headerSize, swap32 snd dataSize, none, none⟩ := by
  have size (bytes : List Byte) (length : bytes.length = 4) :
      swap32 rcv (rcv.load bytes) = ofBytes bytes := by
    have hi := toBytes_ofBytes (rcv.convert bytes)
    rw [Order.length_convert, length] at hi
    rw [swap32, Order.load, hi, Order.convert_convert]
  have first : (((headerFrame snd memory headerSize dataSize).drop 12).take 4) =
      snd.store 4 headerSize := by
    simp [headerFrame, EndianHeader.bytes]
  have second : (((headerFrame snd memory headerSize dataSize).drop 16).take 4) =
      snd.store 4 dataSize := by
    simp [headerFrame, EndianHeader.bytes, take_of_length_le]
  rw [receiveHeader, first, second, size _ (Order.length_store ..), size _ (Order.length_store ..)]
  rfl

theorem reveiceDatapack_of_header {parts : List (List Byte)}
    (size : frame.length = directIOHeaderSize) :
    reveiceDatapack rcv errno (frames (frame :: parts)) =
      receiveParts errno (receiveHeader rcv frame) (!parts.isEmpty) (frames parts) := by
  have full : frame.length ≠ 0 := by
    rw [size]
    decide
  have read : readMessage errno (frames (frame :: parts) ++ []) = _ := readMessage_full full
  rw [append_nil] at read
  simp [reveiceDatapack, read, size]

theorem readPart_single {size : ℕ} {mismatch : Int} {more : List (List Byte)} (full : first ≠ []) :
    readPart errno size mismatch (frames (first :: more)) =
      some ⟨if first.length ≠ size then mismatch else 0, some first, !more.isEmpty,
        frames more⟩ := by
  have read : readPart errno size mismatch (frames (first :: more) ++ []) = _ :=
    readPart_full (mt length_eq_zero_iff.mp full)
  rwa [append_nil, append_nil] at read

/-- The parts are added to the header that was received. -/
theorem receiveParts_header {received : DataPack} {hasNext : Bool}
    (ht : receiveParts errno pack hasNext sock = some ⟨err, some received, rest⟩) :
    received.dispatcherHeader = pack.dispatcherHeader ∧
      received.channelHeaderSize = pack.channelHeaderSize ∧
      received.channelDataSize = pack.channelDataSize := by
  unfold receiveParts at ht
  split at ht
  case h_1 | h_5 =>
    cases ht
    exact ⟨rfl, rfl, rfl⟩
  all_goals split at ht
  case h_2.isTrue | h_3.isTrue | h_4.isTrue =>
    cases ht
    exact ⟨rfl, rfl, rfl⟩
  case h_2.isFalse | h_3.isFalse =>
    obtain ⟨read, -, ⟨⟩⟩ := map_eq_some_iff.mp ht
    exact ⟨rfl, rfl, rfl⟩
  -- Both parts: the second one is read unless there is something wrong with the first.
  obtain ⟨read, -, same⟩ := bind_eq_some_iff.mp ht
  split at same
  · cases same
    exact ⟨rfl, rfl, rfl⟩
  split at same
  · cases same
    exact ⟨rfl, rfl, rfl⟩
  obtain ⟨second, -, ⟨⟩⟩ := map_eq_some_iff.mp same
  exact ⟨rfl, rfl, rfl⟩

section

variable {frame : List Byte} {code : Byte} {msg : List (List Byte)} {received : DataPack}
  (sent : Sent frame hdr data code msg) (size : frame.length = directIOHeaderSize)
  (ho : receiveHeader rcv frame = pack)
  (ht : reveiceDatapack rcv errno (frames msg) = some ⟨0, some received, []⟩)

include sent size ho ht

theorem header_of_sent : received.dispatcherHeader = pack.dispatcherHeader ∧
    received.channelHeaderSize = pack.channelHeaderSize ∧
    received.channelDataSize = pack.channelDataSize := by
  cases sent with
  | nothing => simp [reveiceDatapack, frames, readMessage] at ht
  | _ =>
    rw [reveiceDatapack_of_header size, ho] at ht
    exact receiveParts_header ht

/-- The receiver is content only if it finds the parts that the header announces. -/
theorem sent_eq_partCode (ha : pack.channelPart = partCode hdr data) :
    code = partCode hdr data := by
  cases sent with
  | nothing => simp [reveiceDatapack, frames, readMessage] at ht
  | empty =>
    rw [reveiceDatapack_of_header size, receiveParts] at ht
    by_cases hn : hdr = [] <;> by_cases noData : data = [] <;>
      simp_all [partCode]
  | headerOnly nonempty =>
    rw [reveiceDatapack_of_header size, ho, receiveParts, ha] at ht
    by_cases noData : data = []
    · simp [partCode, nonempty, noData]
    · by_cases fits : hdr.length = pack.channelHeaderSize <;>
        simp [partCode, nonempty, noData, readPart_single nonempty, fits] at ht
  | dataOnly nonempty =>
    rw [reveiceDatapack_of_header size, ho, receiveParts, ha] at ht
    by_cases hn : hdr = []
    · simp [partCode, nonempty, hn]
    · by_cases fits : data.length = pack.channelHeaderSize <;>
        simp [partCode, nonempty, hn, readPart_single nonempty, fits] at ht
  | both nonemptyHeader nonemptyData => simp [partCode, nonemptyHeader, nonemptyData]

end

theorem part_getD (bytes : List Byte) : (part bytes).getD [] = bytes := by
  unfold part
  split
  next empty => rw [empty, getD_none]
  next => rfl

/-- The parts that there are are sent and received. -/
theorem reveiceDatapack_selected (size : frame.length = directIOHeaderSize)
    (ho : receiveHeader rcv frame = pack)
    (ha : pack.channelPart = partCode hdr data)
    (headerSize : pack.channelHeaderSize = hdr.length)
    (dataSize : pack.channelDataSize = data.length)
    (bare : pack.channelHeaderData = none ∧ pack.channelData = none) :
    (messageOf (partCode hdr data) frame (part hdr) (part data)).bind
        (fun msg => reveiceDatapack rcv errno (frames msg)) =
      some ⟨0, some { pack with channelHeaderData := part hdr, channelData := part data }, []⟩ := by
  obtain ⟨memory, headerLength, dataLength, headerBuffer, dataBuffer⟩ := pack
  obtain ⟨rfl, rfl⟩ := bare
  by_cases hn : hdr = [] <;> by_cases noData : data = [] <;>
    simp [partCode, messageOf, part, hn, noData, reveiceDatapack_of_header size, ho,
      receiveParts, ha, readPart_single, ← headerSize, ← dataSize]

/-- A faithful exchange: the header arrives as it is stored, the sender has selected the parts
that there are, and the sizes survive their conversions. -/
theorem reproduces_packOf_iff (hs : hdr.length < 4294967296)
    (smallData : data.length < 4294967296) :
    Reproduces rcv flds hdr data (exchange snd rcv errno (packOf snd memory hdr data)) ↔
      (memory.convert snd).convert rcv = { flds with channelPart := partCode hdr data }.store rcv ∧
        (memory.convert snd).field3.2 = partCode hdr data ∧
        swap32 snd hdr.length = hdr.length ∧ swap32 snd data.length = data.length := by
  have ho : receiveHeader rcv (headerFrame snd (memory.convert snd) hdr.length data.length) = _ :=
    receiveHeader_headerFrame
  have size : (headerFrame snd (memory.convert snd) hdr.length data.length).length =
      directIOHeaderSize := length_headerFrame
  rw [exchange, sendDatapack_packOf hs smallData]
  constructor
  · rintro ⟨pack, received, same, headerSize, dataSize, -, -⟩
    obtain ⟨msg, sent, ht⟩ := bind_eq_some_iff.mp received
    have cases := sent_of_messageOf sent
    -- the header of the pack is the one that was sent, so the fields tell about the memory
    obtain ⟨stored, sizeOfHeader, sizeOfData⟩ := header_of_sent cases size ho ht
    rw [fields_eq_iff, stored] at same
    refine ⟨same, sent_eq_partCode cases size ho ht ?_, sizeOfHeader.symm.trans headerSize,
      sizeOfData.symm.trans dataSize⟩
    exact congrArg (fun hdr => hdr.field3.2) same
  · rintro ⟨same, selected, headerSize, dataSize⟩
    have ha : ((memory.convert snd).convert rcv).field3.2 =
      partCode hdr data := congrArg (fun hdr => hdr.field3.2) same
    refine ⟨⟨(memory.convert snd).convert rcv, hdr.length, data.length, part hdr,
      part data⟩, ?_, (fields_eq_iff rcv).mpr same, rfl, rfl, ?_, ?_⟩
    · rw [selected, reveiceDatapack_selected size ho ha headerSize dataSize ⟨rfl, rfl⟩]
      simp only [headerSize, dataSize]
    · exact part_getD hdr
    · exact part_getD data

/-- The sizes that are received fit in their fields. -/
theorem sizes_of_reveiceDatapack
    (ht : reveiceDatapack rcv errno sock = some ⟨err, some pack, rest⟩) :
    pack.channelHeaderSize < 4294967296 ∧ pack.channelDataSize < 4294967296 := by
  unfold reveiceDatapack at ht
  dsimp only at ht
  split at ht
  · cases ht
  · obtain ⟨headerBuffer, -, received⟩ := bind_eq_some_iff.mp ht
    split at received
    · cases received
    · obtain ⟨-, headerSize, dataSize⟩ := receiveParts_header received
      rw [headerSize, dataSize]
      exact ⟨swap32_lt .., swap32_lt ..⟩

theorem Reproduces.small (hr : Reproduces rcv flds hdr data (exchange snd rcv errno pack)) :
    hdr.length < 4294967296 ∧ data.length < 4294967296 := by
  obtain ⟨received, ht, -, headerSize, dataSize, -, -⟩ := hr
  obtain ⟨msg, -, ht⟩ := bind_eq_some_iff.mp ht
  obtain ⟨hs, smallData⟩ := sizes_of_reveiceDatapack ht
  exact ⟨headerSize ▸ hs, dataSize ▸ smallData⟩

/-! ### The faithful exchanges -/

/-- A number of two bytes that is the same in both orders. -/
def Palindrome (n : Fin 65536) : Prop := n.val % 256 = n.val / 256

instance (n : Fin 65536) : Decidable (Palindrome n) := inferInstanceAs (Decidable (_ = _))

theorem swap_bytes_eq_iff :
    (Fin.ofNat 256 (n.val / 256), Fin.ofNat 256 n.val) =
      (Fin.ofNat 256 n.val, Fin.ofNat 256 (n.val / 256)) ↔ Palindrome n := by
  rw [Prod.mk.injEq, Fin.ext_iff, Fin.ext_iff, Fin.val_ofNat, Fin.val_ofNat, Palindrome]
  omega

theorem bytes_eq_swap_iff :
    (Fin.ofNat 256 n.val, Fin.ofNat 256 (n.val / 256)) =
      (Fin.ofNat 256 (n.val / 256), Fin.ofNat 256 n.val) ↔ Palindrome n :=
  eq_comm.trans swap_bytes_eq_iff

/-- The requests that arrive: all those between little endian hosts. Otherwise the fields that
share a number change places, and the sizes that a big endian host sends are read backwards. -/
structure RequestFaithful (sender receiver : Order) (fields : DispatcherHeader)
    (header data : List Byte) : Prop where
  smallHeader : header.length < 4294967296
  smallData : data.length < 4294967296
  sizes : sender = .big → swap32 .big header.length = header.length ∧
    swap32 .big data.length = data.length
  selection : sender = .big ∨ receiver = .big → fields.channelIdx = partCode header data
  flags : sender ≠ receiver →
    fields.channelOpcode = storeFlags .little fields.synchronousAnswer fields.unused ∧
      fields.channelOpcode = storeFlags .big fields.synchronousAnswer fields.unused

/-- The answers that arrive. Their header is converted twice before it is sent. -/
structure AnswerFaithful (sender receiver : Order) (fields : DispatcherHeader)
    (header data : List Byte) : Prop where
  smallHeader : header.length < 4294967296
  smallData : data.length < 4294967296
  sizes : sender = .big → swap32 .big header.length = header.length ∧
    swap32 .big data.length = data.length
  numbers : sender = .big → Palindrome fields.routeAddr ∧ Palindrome fields.err ∧
    Palindrome fields.counter
  selection : receiver = .big → fields.channelIdx = partCode header data
  opcode : receiver = .big →
    fields.channelOpcode = storeFlags .big fields.synchronousAnswer fields.unused
  flags : sender ≠ receiver → storeFlags .little fields.synchronousAnswer fields.unused =
    storeFlags .big fields.synchronousAnswer fields.unused

theorem request_memory_iff :
    ((flds.store snd).convert snd).convert rcv = flds.store rcv ↔
      (snd ≠ rcv → flds.channelIdx = flds.channelPart ∧
        flds.channelOpcode = storeFlags .little flds.synchronousAnswer flds.unused ∧
        flds.channelOpcode = storeFlags .big flds.synchronousAnswer flds.unused) := by
  cases snd <;> cases rcv <;>
    simp only [EndianHeader.convert, byteSwap, store, store16]
  all_goals grind

theorem answer_memory_iff :
    (flds.store snd).convert rcv = flds.store rcv ↔
      (snd = .big → Palindrome flds.routeAddr ∧ Palindrome flds.err ∧ Palindrome flds.counter) ∧
      (rcv = .big → flds.channelIdx = flds.channelPart ∧
        flds.channelOpcode = storeFlags .big flds.synchronousAnswer flds.unused) ∧
      (snd ≠ rcv → storeFlags .little flds.synchronousAnswer flds.unused =
        storeFlags .big flds.synchronousAnswer flds.unused) := by
  cases snd <;> cases rcv <;>
    simp only [EndianHeader.convert, byteSwap, store, store16, Prod.swap_prod_mk,
      EndianHeader.mk.injEq, swap_bytes_eq_iff,
      bytes_eq_swap_iff]
  all_goals grind

theorem swap32_eq_of_big {n : ℕ} (small : n < 4294967296)
    (big : snd = .big → swap32 .big n = n) : swap32 snd n = n := by
  cases snd with
  | little => exact swap32_little small
  | big => exact big rfl

/-- Two conversions of the sender cancel out in the answer. -/
theorem prepareAnswer_packOf {op : Byte} {ctr err : Fin 65536} :
    prepareAnswer snd op ctr err (packOf snd (flds.store snd) hdr data) =
      packOf snd
        (({ flds with
            channelOpcode := op
            counter := ctr
            err := err }.store snd).convert snd) hdr data := by
  simp only [prepareAnswer, packOf, fields_store]

theorem request_reproduced_iff :
    Reproduces rcv flds hdr data (exchange snd rcv errno (buildPack snd flds hdr data)) ↔
      RequestFaithful snd rcv flds hdr data := by
  constructor
  · intro hr
    obtain ⟨hs, smallData⟩ := hr.small
    rw [buildPack_eq hs smallData, reproduces_packOf_iff hs smallData, request_memory_iff] at hr
    obtain ⟨memory, selected, headerSize, dataSize⟩ := hr
    refine ⟨hs, smallData, ?_, ?_, fun different => (memory different).2⟩
    · rintro rfl
      exact ⟨headerSize, dataSize⟩
    · intro big
      by_cases same : snd = rcv
      · -- the sender is big endian, and selects the parts by the index
        obtain rfl : snd = .big := by
          rcases big with big | big
          · exact big
          · rw [same, big]
        exact selected
      · exact (memory same).1
  · rintro ⟨hs, smallData, sizes, selection, flags⟩
    rw [buildPack_eq hs smallData, reproduces_packOf_iff hs smallData, request_memory_iff]
    refine ⟨fun different => ⟨selection ?_, flags different⟩, ?_,
      swap32_eq_of_big hs fun big => (sizes big).1,
      swap32_eq_of_big smallData fun big => (sizes big).2⟩
    · cases snd <;> cases rcv <;> simp_all
    · cases snd with
      | little => rfl
      | big => exact selection (.inl rfl)

/-- A pack, and an answer that the dispatcher has prepared, are reproduced on the other host
exactly if they are faithful. -/
theorem packs_reproduced_iff (sender receiver : Order) (errno : Int) (fields : DispatcherHeader)
    (header data : List Byte) (channelOpcode : Byte) (counter err : Fin 65536) :
    (Reproduces receiver fields header data
          (exchange sender receiver errno (buildPack sender fields header data)) ↔
        RequestFaithful sender receiver fields header data) ∧
      (Reproduces receiver
          { fields with channelOpcode := channelOpcode, counter := counter, err := err } header data
          (exchange sender receiver errno (prepareAnswer sender channelOpcode counter err
            (buildPack sender fields header data))) ↔
        AnswerFaithful sender receiver
          { fields with channelOpcode := channelOpcode, counter := counter, err := err }
          header data) := by
  refine ⟨request_reproduced_iff, fun hr => ?_, ?_⟩
  · obtain ⟨hs, smallData⟩ := hr.small
    rw [buildPack_eq hs smallData, prepareAnswer_packOf,
      reproduces_packOf_iff hs smallData, convert_convert] at hr
    obtain ⟨memory, -, headerSize, dataSize⟩ := hr
    obtain ⟨hn, bytes, flags⟩ := answer_memory_iff.mp memory
    refine ⟨hs, smallData, ?_, hn, fun big => (bytes big).1, fun big => (bytes big).2, flags⟩
    rintro rfl
    exact ⟨headerSize, dataSize⟩
  · rintro ⟨hs, smallData, sizes, hn, selection, opcode, flags⟩
    rw [buildPack_eq hs smallData, prepareAnswer_packOf, reproduces_packOf_iff hs smallData,
      convert_convert]
    exact ⟨answer_memory_iff.mpr ⟨hn, fun big => ⟨selection big, opcode big⟩, flags⟩, rfl,
      swap32_eq_of_big hs fun big => (sizes big).1,
      swap32_eq_of_big smallData fun big => (sizes big).2⟩

/-! ### Little endian hosts -/

theorem sendPart_take (buf : Option (List Byte)) (size : ℕ) :
    sendPart (buf.map (·.take size)) size = sendPart buf size := by
  cases buf with
  | none => rfl
  | some bytes =>
    simp [sendPart, take_take]

/-- The bytes behind the size of the data are not sent. -/
theorem sendDatapack_take (pack : DataPack) :
    sendDatapack snd { pack with
      channelData := pack.channelData.map (·.take (swap32 snd pack.channelDataSize)) } =
        sendDatapack snd pack := by
  simp only [sendDatapack, sendPart_take]

/-- The size is converted to `uint32_t`. -/
theorem buildPack_take (flds : DispatcherHeader) (hdr data : List Byte) :
    let pack := buildPack .little flds hdr data
    buildPack .little flds hdr (data.take (data.length % 4294967296)) =
      { pack with
        channelData := pack.channelData.map (·.take (swap32 .little pack.channelDataSize)) } := by
  have small : data.length % 4294967296 < 4294967296 := Nat.mod_lt _ (by decide)
  have length : (data.take (data.length % 4294967296)).length = data.length % 4294967296 := by
    rw [length_take, Nat.min_eq_left (Nat.mod_le ..)]
  have none : ((create .little { flds with channelPart := 0 }).setChannelHeader .little
      (some hdr) hdr.length).channelData = none := by
    unfold setChannelHeader
    split <;> rfl
  unfold buildPack
  generalize setChannelHeader _ _ _ _ = pack at none ⊢
  obtain ⟨memory, headerSize, dataSize, headerBuffer, dataBuffer⟩ := pack
  obtain rfl : dataBuffer = Option.none := none
  simp only [setChannelData, length, Nat.mod_eq_of_lt small, isSome_some]
  split
  next => simp [swap32_little small]
  next => rfl

/-- Between little endian hosts a pack arrives as it was built, up to the size of its data. -/
theorem exchange_little (errno : Int) (flds : DispatcherHeader)
    (hs : hdr.length < 4294967296) (data : List Byte) :
    exchange .little .little errno (buildPack .little flds hdr data) =
      some ⟨0, some (packOf .little ({ flds with
        channelPart := partCode hdr (data.take (data.length % 4294967296)) }.store .little)
          hdr (data.take (data.length % 4294967296))), []⟩ := by
  have smallData : (data.take (data.length % 4294967296)).length < 4294967296 :=
    (length_take_le ..).trans_lt (Nat.mod_lt _ (by decide))
  rw [exchange, ← sendDatapack_take, ← buildPack_take, buildPack_eq hs smallData,
    sendDatapack_packOf hs smallData]
  exact reveiceDatapack_selected length_headerFrame receiveHeader_headerFrame rfl
    (swap32_little hs) (swap32_little smallData) ⟨rfl, rfl⟩

/-- The same for an answer of the dispatcher. -/
theorem exchange_answer_little (errno : Int) (op : Byte) (ctr err : Fin 65536)
    (flds : DispatcherHeader) (hs : hdr.length < 4294967296) (data : List Byte) :
    exchange .little .little errno
        (prepareAnswer .little op ctr err (buildPack .little flds hdr data)) =
      some ⟨0, some (packOf .little ({ flds with
        channelPart := partCode hdr (data.take (data.length % 4294967296))
        channelOpcode := op
        counter := ctr
        err := err }.store .little) hdr (data.take (data.length % 4294967296))), []⟩ := by
  have smallData : (data.take (data.length % 4294967296)).length < 4294967296 :=
    (length_take_le ..).trans_lt (Nat.mod_lt _ (by decide))
  have truncated := congrArg (prepareAnswer .little op ctr err) (buildPack_take flds hdr data)
  rw [exchange, ← sendDatapack_take]
  rw [buildPack_eq hs smallData, prepareAnswer_packOf] at truncated
  refine Eq.trans (congrArg (fun pack => (sendDatapack .little pack).bind _) truncated.symm) ?_
  rw [sendDatapack_packOf hs smallData]
  exact reveiceDatapack_selected length_headerFrame receiveHeader_headerFrame rfl
    (swap32_little hs) (swap32_little smallData) ⟨rfl, rfl⟩

/-- A request of the dataset channel. -/
def datasetFields : DispatcherHeader where
  routeAddr := 0
  err := 0
  channelIdx := 2
  channelPart := 0
  channelOpcode := 1
  synchronousAnswer := 1
  unused := 0
  counter := 7

/-- A big endian host sends only the data of the request, as the index takes the place of the
parts, and takes the first part for the data when it receives; its answer arrives no better. -/
theorem big_endian_request_lost :
    (exchange .big .big 0 (buildPack .big datasetFields [1] [2])).map (·.err) = some (-13007) ∧
    (exchange .big .little 0 (buildPack .big datasetFields [1] [2])).map (·.err) = some (-13005) ∧
    (exchange .little .big 0 (buildPack .little datasetFields [1] [2])).map
      (fun reception => (reception.err, reception.socket)) = some (0, [⟨[2], false⟩]) ∧
    (exchange .big .big 0 (prepareAnswer .big 1 7 0 (buildPack .big datasetFields [1] [2]))).map
      (·.err) = some (-13005) ∧
    ¬ Reproduces .big datasetFields [1] [2]
      (exchange .big .big 0 (buildPack .big datasetFields [1] [2])) := by
  refine ⟨by decide, by decide, by decide, by decide, ?_⟩
  rintro ⟨pack, received, -⟩
  have err : (exchange .big .big 0 (buildPack .big datasetFields [1] [2])).map (·.err) =
      some (-13007) := by decide
  rw [received] at err
  cases err

end ChaosFramework.DirectIO
