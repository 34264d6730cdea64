import ChaosFramework.DirectIO.Channels

/-!
# Packets from the network

The server channels trust the counts and the lengths inside a packet. `DeviceWellFormed` and
`SystemWellFormed` say which packets they can read without leaving the buffers that were received:
the parts are long enough for the fields that are read first, and the strings that are announced end
inside the buffer.
-/

namespace ChaosFramework.DirectIO

open Bytes DataBuffer
open Option (bind_some isSome_map bind_none getD_some)

variable {errno : Int} {pack received : DataPack} {socket rest : List Frame} {bytes : List Byte}
  {b : DataBuffer} {n : ℕ}

/-- The number of the bytes that were received behind the header. -/
def DataPack.size (pack : DataPack) : ℕ :=
  (pack.channelHeaderData.getD []).length + (pack.channelData.getD []).length

/-- Only bytes of the packet are accessed, and none of them more than twice on average. -/
def Safe (pack : DataPack) (result : Option (Event × ℕ)) : Prop :=
  ∃ event accesses, result = some (event, accesses) ∧ accesses ≤ 2 * pack.size

/-! ### Packets that can be read -/

/-- The mode, the count of the tags, the key, and as many tags. -/
def PutReadable (pack : DataPack) : Prop :=
  ∃ header, pack.channelHeaderData = some header ∧ 3 ≤ header.length ∧
    ofBytes ((header.drop 1).take 2) + 1 ≤ (header.drop 3).count 0 ∧
    ofBytes ((header.drop 1).take 2) ≤ ((header.take 2147483647).drop 3).count 0

/-- The count of the keys, and as many keys in the other part. -/
def MultiGetReadable (pack : DataPack) : Prop :=
  ∃ header data, pack.channelHeaderData = some header ∧ pack.channelData = some data ∧
    2 ≤ header.length ∧ ofBytes (header.take 2) ≤ data.count 0 ∧
    ofBytes (header.take 2) - 1 ≤ (data.take 2147483647).count 0

/-- Entries behind their lengths, from an offset on. A length that is negative ends the reading
with an exception. -/
def Framed (bytes : List Byte) : ℕ → ℕ → Prop
  | 0, _ => True
  | n + 1, offset =>
      let length := ofBytes ((bytes.drop offset).take 4)
      offset < 2147483648 ∧ offset + 4 ≤ bytes.length ∧
        (2147483648 ≤ length ∨
          ((length = 0 ∨ offset + 4 < 2147483648 ∧ offset + 4 + length ≤ bytes.length) ∧
            Framed bytes n (offset + 4 + length)))

/-- The count of the entries, and one entry more, the node name, in the other part. -/
def LogReadable (pack : DataPack) : Prop :=
  ∃ header data, pack.channelHeaderData = some header ∧ pack.channelData = some data ∧
    4 ≤ header.length ∧ Framed data (ofBytes (header.take 4) + 1) 0

def DeviceWellFormed (pack : DataPack) : Prop :=
  (pack.channelOpcode = putOutput ∨ pack.channelOpcode = putHealthData → PutReadable pack) ∧
    (pack.channelOpcode = multiGetLastOutput → pack.synchronousAnswer ≠ 0 → MultiGetReadable pack)

def SystemWellFormed (pack : DataPack) : Prop :=
  pack.channelOpcode = pushLogEntryForANode → LogReadable pack

/-! ### The parts that are received -/

theorem length_of_readPart {size : ℕ} {mismatch : Int} {read : Read} (differs : mismatch ≠ 0)
    (taken : readPart errno size mismatch socket = some read) (ok : read.err = 0)
    (found : read.buffer = some bytes) : bytes.length = size := by
  unfold readPart at taken
  dsimp only at taken
  split at taken
  next failed =>
    cases taken
    exact absurd ok failed
  next =>
    obtain ⟨content, buffer, rfl⟩ := Option.map_eq_some_iff.mp taken
    obtain rfl := Option.some.inj (buffer.symm.trans found)
    by_contra different
    rw [if_pos different] at ok
    exact differs ok

theorem lengths_of_receiveParts {hasNext : Bool}
    (bare : pack.channelHeaderData = none ∧ pack.channelData = none)
    (taken : receiveParts errno pack hasNext socket = some ⟨0, some received, rest⟩) :
    (∀ bytes ∈ received.channelHeaderData, bytes.length = received.channelHeaderSize) ∧
      ∀ bytes ∈ received.channelData, bytes.length = received.channelDataSize := by
  have hm {part : Option (List Byte)} {size : ℕ} (none : part = none) :
      ∀ bytes ∈ part, bytes.length = size := by
    rw [none]
    exact fun _ found => nomatch found
  unfold receiveParts at taken
  split at taken
  · cases taken
    exact ⟨hm bare.1, hm bare.2⟩
  · split at taken
    · cases taken
    · obtain ⟨header, read, same⟩ := Option.map_eq_some_iff.mp taken
      obtain ⟨ok, packs, -⟩ := Reception.mk.inj same
      cases packs
      exact ⟨fun _ found => length_of_readPart (by decide) read ok found, hm bare.2⟩
  · split at taken
    · cases taken
    · obtain ⟨data, read, same⟩ := Option.map_eq_some_iff.mp taken
      obtain ⟨ok, packs, -⟩ := Reception.mk.inj same
      cases packs
      exact ⟨hm bare.1, fun _ found => length_of_readPart (by decide) read ok found⟩
  · split at taken
    · cases taken
    · obtain ⟨header, read, more⟩ := Option.bind_eq_some_iff.mp taken
      split at more
      next failed =>
        obtain ⟨ok, -, -⟩ := Reception.mk.inj (Option.some.inj more)
        exact absurd ok failed
      next ok =>
        split at more
        · cases more
        · obtain ⟨data, hr, same⟩ := Option.map_eq_some_iff.mp more
          obtain ⟨okToo, packs, -⟩ := Reception.mk.inj same
          cases packs
          exact ⟨fun _ found => length_of_readPart (by decide) read (not_not.mp ok) found,
            fun _ found => length_of_readPart (by decide) hr okToo found⟩
  · cases taken
    exact ⟨hm bare.1, hm bare.2⟩

/-- The parts fit in the sizes of the header. -/
theorem parts_bounded {host : Order}
    (taken : reveiceDatapack host errno socket = some ⟨0, some pack, rest⟩) :
    (∀ bytes ∈ pack.channelHeaderData, bytes.length < 4294967296) ∧
      ∀ bytes ∈ pack.channelData, bytes.length < 4294967296 := by
  obtain ⟨hh, hd⟩ := sizes_of_reveiceDatapack taken
  have lengths : (∀ bytes ∈ pack.channelHeaderData, bytes.length = pack.channelHeaderSize) ∧
      ∀ bytes ∈ pack.channelData, bytes.length = pack.channelDataSize := by
    unfold reveiceDatapack at taken
    dsimp only at taken
    split at taken
    · exact nomatch (Reception.mk.inj (Option.some.inj taken)).2.1
    · obtain ⟨headerBuffer, -, received⟩ := Option.bind_eq_some_iff.mp taken
      split at received
      · cases received
      · exact lengths_of_receiveParts ⟨rfl, rfl⟩ received
  exact ⟨fun bytes found => lengths.1 bytes found ▸ hh,
    fun bytes found => lengths.2 bytes found ▸ hd⟩

/-! ### Reading -/

theorem readPutHeader_of_short (short : bytes.length < 3) :
    readPutHeader (attach bytes) = none := by
  rw [readPutHeader, bind_apply, readInt8_eq]
  split
  next =>
    rw [bind_some, bind_apply, readInt16_eq, if_neg, bind_none]
    rw [rest_skip (by simp), rest_attach, List.length_drop]
    omega
  next => rfl

/-- The key and the tags are read as strings, behind the two numbers. -/
theorem readPutHeader_of_long (long : 3 ≤ bytes.length) : ∃ hstTag : BitVec 8,
    readPutHeader (attach bytes) =
      (readStrings (ofBytes ((bytes.drop 1).take 2) + 1) ((attach bytes).skip 3 3)).map fun read =>
        (⟨hstTag.toInt, read.1.headD [], read.1.tail.toFinset⟩, read.2) := by
  have first : ((attach bytes).skip 1 1).rest = bytes.drop 1 := by
    rw [rest_skip (by simp), rest_attach]
  obtain ⟨num, read, value⟩ : ∃ num, readInt16 ((attach bytes).skip 1 1) =
      some (num, _) ∧ num.toNat = _ :=
    readInt16_isSome (by rw [first, List.length_drop]; omega)
  rw [first] at value
  refine ⟨BitVec.ofNat 8 (ofBytes (bytes.take 1)), ?_⟩
  rw [readPutHeader, bind_apply, readInt8_eq, rest_attach, if_pos (by omega), bind_some,
    bind_apply, read, bind_some, readStrings_succ, ← value, bind_apply,
    Option.map_bind]
  refine congrArg _ (funext fun key => ?_)
  rw [bind_apply, readTags_eq, Function.comp_apply]
  cases readStrings num.toNat key.2 with
  | none => rfl
  | some tags => simp [pure_apply]

theorem readPutHeader_isSome_iff (hb : bytes.length < 4294967296) :
    (readPutHeader (attach bytes)).isSome ↔ 3 ≤ bytes.length ∧
      ofBytes ((bytes.drop 1).take 2) + 1 ≤ (bytes.drop 3).count 0 ∧
      ofBytes ((bytes.drop 1).take 2) ≤ ((bytes.take 2147483647).drop 3).count 0 := by
  by_cases long : 3 ≤ bytes.length
  · obtain ⟨hstTag, read⟩ := readPutHeader_of_long long
    have strings : (readStrings (ofBytes ((bytes.drop 1).take 2) + 1)
        ((attach bytes).skip 3 3)).isSome ↔ _ :=
      readStrings_isSome_iff hb (by rw [toNat_skip, toNat_cursor_attach]; decide)
    rw [read, isSome_map, strings]
    exact (and_iff_right long).symm
  · rw [readPutHeader_of_short (Nat.not_le.mp long)]
    exact iff_of_false (by simp) fun hr => long hr.1

theorem readPutHeader_bounds {header : PutHeader} {after : DataBuffer}
    (hb : bytes.length < 4294967296)
    (done : readPutHeader (attach bytes) = some (header, after)) :
    after.accesses ≤ 2 * bytes.length := by
  by_cases long : 3 ≤ bytes.length
  · obtain ⟨hstTag, read⟩ := readPutHeader_of_long long
    rw [read] at done
    obtain ⟨strs, readStrings, same⟩ := Option.map_eq_some_iff.mp done
    obtain ⟨-, rfl⟩ := Prod.mk.inj same
    have bounds := (readStrings_bounds hb readStrings).1
    rw [rest_skip (by simp), rest_attach, List.length_drop, skip_accesses] at bounds
    have none : (attach bytes).accesses = 0 := rfl
    omega
  · rw [readPutHeader_of_short (Nat.not_le.mp long)] at done
    cases done

/-- An entry is read at once, behind its length. -/
theorem readEntry_eq (b : DataBuffer) : readEntry b =
    if 4 ≤ b.rest.length then
      if 2147483648 ≤ ofBytes (b.rest.take 4) then some (.error .lengthError, b.skip 4 4)
      else if ofBytes (b.rest.take 4) ≤ (b.skip 4 4).rest.length then
        some (.ok ((b.skip 4 4).rest.take (ofBytes (b.rest.take 4))),
          b.skip (4 + ofBytes (b.rest.take 4)) (4 + ofBytes (b.rest.take 4)))
      else none
    else none := by
  by_cases long : 4 ≤ b.rest.length
  · obtain ⟨num, read, value⟩ := readInt32_isSome long
    rw [if_pos long, readEntry, bind_apply, read, bind_some, readString, ← value]
    by_cases hn : num.toInt < 0
    · rw [if_pos hn, if_pos (toInt_neg_iff.mp hn)]
      rfl
    · rw [if_neg hn, if_neg (mt toInt_neg_iff.mpr hn), bind_apply, access]
      split
      next => rw [bind_some, pure_apply, skip_skip]
      next => rfl
  · rw [if_neg long, readEntry, bind_apply, readInt32_eq, if_neg long, bind_none]

section

variable (hb : b.buffer.length < 4294967296) {after : DataBuffer}

include hb

theorem readEntry_bounds {res : Except LengthError (List Byte)}
    (done : readEntry b = some (res, after)) :
    after.buffer = b.buffer ∧ after.accesses + after.rest.length ≤ b.accesses + b.rest.length := by
  rw [readEntry_eq] at done
  split at done
  next long =>
    split at done
    next =>
      obtain ⟨-, rfl⟩ := Prod.mk.inj (Option.some.inj done)
      have left := length_rest_skip_le (k := 4) hb long
      rw [skip_accesses]
      exact ⟨rfl, by omega⟩
    next =>
      split at done
      next inside =>
        obtain ⟨-, rfl⟩ := Prod.mk.inj (Option.some.inj done)
        have left := length_rest_skip_le (k := 4) hb long
        have all : 4 + ofBytes (b.rest.take 4) ≤ b.rest.length := by omega
        have rest := length_rest_skip_le (k := 4 + ofBytes (b.rest.take 4)) hb all
        rw [skip_accesses]
        exact ⟨rfl, by omega⟩
      next => cases done
  next => cases done

theorem readEntries_bounds {res : Except LengthError (List (List Byte))}
    (done : readEntries n b = some (res, after)) :
    after.accesses ≤ b.accesses + b.rest.length := by
  induction n generalizing b res with
  | zero =>
    obtain ⟨-, rfl⟩ := Prod.mk.inj (Option.some.inj done)
    exact Nat.le_add_right ..
  | succ n ih =>
    rw [readEntries_succ] at done
    obtain ⟨⟨first, next⟩, read, more⟩ := Option.bind_eq_some_iff.mp done
    obtain ⟨buffer, ha⟩ := readEntry_bounds hb read
    cases first with
    | error error =>
      obtain ⟨-, rfl⟩ := Prod.mk.inj (Option.some.inj more)
      exact (Nat.le_add_right ..).trans ha
    | ok entry =>
      obtain ⟨others, hr, same⟩ := Option.map_eq_some_iff.mp more
      obtain ⟨-, rfl⟩ := Prod.mk.inj same
      exact (ih (buffer ▸ hb) hr).trans ha

/-- The lengths inside the buffer decide whether the entries can be read. -/
theorem readEntries_isSome_iff : (readEntries n b).isSome ↔ Framed b.buffer n b.cursor.toNat := by
  induction n generalizing b with
  | zero => exact iff_of_true rfl trivial
  | succ n ih =>
    rw [readEntries_succ, readEntry_eq, Framed]
    by_cases long : 4 ≤ b.rest.length
    · have small := small_of_rest (List.ne_nil_of_length_pos (by omega : 0 < b.rest.length))
      have rest := rest_of_small small
      have length := congrArg List.length rest
      rw [List.length_drop] at length
      rw [if_pos long, ← rest]
      generalize ofBytes (b.rest.take 4) = size
      by_cases hn : 2147483648 ≤ size
      · rw [if_pos hn]
        exact iff_of_true rfl ⟨small, by omega, .inl hn⟩
      · rw [if_neg hn]
        have hi : size ≤ (b.skip 4 4).rest.length ↔ size = 0 ∨
            b.cursor.toNat + 4 < 2147483648 ∧ b.cursor.toNat + 4 + size ≤ b.buffer.length := by
          by_cases next : b.cursor.toNat + 4 < 2147483648
          · rw [rest_skip next, List.length_drop]
            omega
          · rw [rest_of_large (by rw [toNat_skip]; omega), List.length_nil]
            omega
        by_cases fits : size ≤ (b.skip 4 4).rest.length
        · have moved : (b.skip (4 + size) (4 + size)).cursor.toNat = b.cursor.toNat + 4 + size := by
            rw [toNat_skip]
            omega
          have others := ih (b := b.skip (4 + size) (4 + size)) hb
          rw [moved] at others
          rw [if_pos fits, bind_some]
          rw [isSome_map, others]
          exact ⟨fun framed => ⟨small, by omega, .inr ⟨hi.mp fits, framed⟩⟩,
            fun framed => (framed.2.2.resolve_left hn).2⟩
        · rw [if_neg fits]
          exact iff_of_false (by simp) fun framed =>
            fits (hi.mpr (framed.2.2.resolve_left hn).1)
    · rw [if_neg long]
      refine iff_of_false (by simp) fun framed => long ?_
      rw [rest_of_small framed.1, List.length_drop]
      omega

end

/-! ### Safety -/

theorem safe_iff_isSome {res : Option (Event × ℕ)}
    (bounds : ∀ ev accesses, res = some (ev, accesses) → accesses ≤ 2 * pack.size) :
    Safe pack res ↔ res.isSome := by
  rw [Option.isSome_iff_exists]
  constructor
  · rintro ⟨ev, accesses, done, -⟩
    exact ⟨_, done⟩
  · rintro ⟨⟨ev, accesses⟩, done⟩
    exact ⟨ev, accesses, done, bounds ev accesses done⟩

theorem not_safe_none : ¬ Safe pack none := fun ⟨_, _, done, _⟩ => nomatch done

theorem safe_consumePut_iff {ev : PutHeader → Option (List Byte) → Event}
    (hb : ∀ bytes ∈ pack.channelHeaderData, bytes.length < 4294967296) :
    Safe pack (consumePut ev pack) ↔ PutReadable pack := by
  rw [consumePut, PutReadable]
  cases found : pack.channelHeaderData with
  | none =>
    refine iff_of_false not_safe_none ?_
    rintro ⟨_, hp, _⟩
    cases hp
  | some header =>
    have small := hb header found
    rw [bind_some, safe_iff_isSome, isSome_map, readPutHeader_isSome_iff small]
    · constructor
      · exact fun hr => ⟨header, rfl, hr⟩
      · rintro ⟨_, ⟨⟩, hr⟩
        exact hr
    · intro ev accesses done
      obtain ⟨read, readHeader, same⟩ := Option.map_eq_some_iff.mp done
      obtain ⟨-, rfl⟩ := Prod.mk.inj same
      have bounds := readPutHeader_bounds small readHeader
      rw [DataPack.size, found, getD_some]
      omega

/-- A decoder that needs both parts. -/
theorem safe_bind_parts_iff {decode : List Byte → List Byte → Option (Event × ℕ)}
    {readable : List Byte → List Byte → Prop}
    (decodes : ∀ header data, pack.channelHeaderData = some header →
      pack.channelData = some data → (Safe pack (decode header data) ↔ readable header data)) :
    Safe pack (pack.channelHeaderData.bind fun header =>
        pack.channelData.bind fun data => decode header data) ↔
      ∃ header data, pack.channelHeaderData = some header ∧ pack.channelData = some data ∧
        readable header data := by
  constructor
  · rintro ⟨ev, accesses, done, bound⟩
    obtain ⟨header, foundHeader, rest⟩ := Option.bind_eq_some_iff.mp done
    obtain ⟨data, hf, hd⟩ := Option.bind_eq_some_iff.mp rest
    exact ⟨header, data, foundHeader, hf,
      (decodes header data foundHeader hf).mp ⟨ev, accesses, hd, bound⟩⟩
  · rintro ⟨header, data, foundHeader, hf, reads⟩
    rw [foundHeader, hf]
    exact (decodes header data foundHeader hf).mpr reads

theorem size_of_parts {header data : List Byte} (foundHeader : pack.channelHeaderData = some header)
    (hf : pack.channelData = some data) : pack.size = header.length + data.length := by
  rw [DataPack.size, foundHeader, hf, getD_some, getD_some]

@[simp] theorem accesses_attach (buf : List Byte) : (attach buf).accesses = 0 := rfl

section

variable (hb : ∀ bytes ∈ pack.channelData, bytes.length < 4294967296)

include hb

theorem safe_consumeMultiGet_iff :
    Safe pack (consumeMultiGet pack) ↔ (pack.synchronousAnswer ≠ 0 → MultiGetReadable pack) := by
  rw [consumeMultiGet]
  by_cases refused : pack.synchronousAnswer = 0
  · rw [if_pos refused]
    exact iff_of_true ⟨_, _, rfl, Nat.zero_le _⟩ (absurd refused)
  rw [if_neg refused, forall_prop_of_true refused]
  refine safe_bind_parts_iff fun header data foundHeader hf => ?_
  have small := hb data hf
  by_cases long : 2 ≤ header.length
  · obtain ⟨num, read, value⟩ : ∃ num, readInt16 (attach header) =
      some (num, _) ∧ num.toNat = ofBytes (header.take 2) := readInt16_isSome long
    have strings : (readStrings num.toNat (attach data)).isSome ↔ _ :=
      readStrings_isSome_iff small (by rw [toNat_cursor_attach]; decide)
    rw [read, bind_some, safe_iff_isSome, isSome_map, strings, value]
    · exact (and_iff_right long).symm
    · intro ev accesses done
      obtain ⟨keys, readKeys, same⟩ := Option.map_eq_some_iff.mp done
      obtain ⟨-, rfl⟩ := Prod.mk.inj same
      have bounds := (readStrings_bounds small readKeys).1
      rw [rest_attach, accesses_attach] at bounds
      rw [size_of_parts foundHeader hf, skip_accesses, accesses_attach]
      omega
  · rw [readInt16_eq, rest_attach, if_neg long]
    exact iff_of_false not_safe_none fun hr => long hr.1

theorem safe_consumeSystemPack_iff :
    Safe pack (consumeSystemPack pack) ↔ SystemWellFormed pack := by
  rw [consumeSystemPack, SystemWellFormed]
  by_cases ho : pack.channelOpcode = pushLogEntryForANode
  swap
  · rw [if_neg ho]
    exact iff_of_true ⟨_, _, rfl, Nat.zero_le _⟩ fun same => absurd same ho
  -- the code looks at the data first
  rw [if_pos ho, forall_prop_of_true ho, Option.bind_comm]
  refine safe_bind_parts_iff fun header data foundHeader hf => ?_
  have small := hb data hf
  by_cases long : 4 ≤ header.length
  · obtain ⟨num, read, value⟩ : ∃ num, readInt32 (attach header) =
      some (num, _) ∧ num.toNat = ofBytes (header.take 4) := readInt32_isSome long
    have entries : (readEntries (num.toNat + 1) (attach data)).isSome ↔ _ :=
      readEntries_isSome_iff small
    rw [read, bind_some, safe_iff_isSome, isSome_map, readLog_eq, isSome_map, entries, value]
    · exact (and_iff_right long).symm
    · intro ev accesses done
      obtain ⟨log, readLog, same⟩ := Option.map_eq_some_iff.mp done
      obtain ⟨-, rfl⟩ := Prod.mk.inj same
      rw [readLog_eq] at readLog
      obtain ⟨entries, readEntries, rfl⟩ := Option.map_eq_some_iff.mp readLog
      have bounds := readEntries_bounds small readEntries
      rw [rest_attach, accesses_attach] at bounds
      rw [size_of_parts foundHeader hf, skip_accesses, accesses_attach]
      dsimp only
      omega
  · rw [readInt32_eq, rest_attach, if_neg long]
    exact iff_of_false not_safe_none fun framed => long framed.1

end

theorem safe_consumeDevicePack_iff
    (boundedHeader : ∀ bytes ∈ pack.channelHeaderData, bytes.length < 4294967296)
    (boundedData : ∀ bytes ∈ pack.channelData, bytes.length < 4294967296) :
    Safe pack (consumeDevicePack pack) ↔ DeviceWellFormed pack := by
  rw [consumeDevicePack, DeviceWellFormed]
  split
  next put =>
    rw [safe_consumePut_iff boundedHeader, put]
    simp [putOutput, multiGetLastOutput]
  next notPut =>
    split
    next health =>
      rw [safe_consumePut_iff boundedHeader, health]
      simp [putHealthData, multiGetLastOutput]
    next notHealth =>
      split
      next multiGet =>
        rw [safe_consumeMultiGet_iff boundedData]
        simp [multiGet, putOutput, putHealthData, multiGetLastOutput]
      next other =>
        refine iff_of_true ⟨_, _, rfl, Nat.zero_le _⟩ ?_
        simp [notPut, notHealth, other]

/-- The packets that the server channels read without leaving their buffers. -/
theorem consumed_safely_iff
    (taken : reveiceDatapack .little errno socket = some ⟨0, some pack, rest⟩) :
    (Safe pack (consumeDevicePack pack) ↔ DeviceWellFormed pack) ∧
      (Safe pack (consumeSystemPack pack) ↔ SystemWellFormed pack) := by
  obtain ⟨header, data⟩ := parts_bounded taken
  exact ⟨safe_consumeDevicePack_iff header data, safe_consumeSystemPack_iff data⟩

/-- The message of a put without data. -/
def putMessage (header : List Byte) : List (List Byte) :=
  [headerFrame .little ({ datasetFields with channelPart := 1 }.store .little) header.length 0,
    header]

/-- What is received then. -/
def putPack (header : List Byte) : DataPack :=
  { DataPack.create .little { datasetFields with channelPart := 1 } with
    channelHeaderSize := header.length
    channelHeaderData := some header }

theorem consumed_safely_tagged :
    Safe (putPack [0, 1, 0, 107, 0, 116, 0])
      (consumeDevicePack (putPack [0, 1, 0, 107, 0, 116, 0])) := by
  have taken : reveiceDatapack .little 0 (frames (putMessage [0, 1, 0, 107, 0, 116, 0])) =
    some ⟨0, some (putPack [0, 1, 0, 107, 0, 116, 0]), []⟩ := by decide
  refine (consumed_safely_iff taken).1.mpr ⟨fun _ => ⟨_, rfl, ?_⟩, ?_⟩
  · decide
  · exact fun ho => absurd ho (by decide)

/-- The count of the tags is `-1`, and there are none. -/
theorem tags_read_outside :
    reveiceDatapack .little 0 (frames (putMessage [0, 255, 255, 107, 0])) =
        some ⟨0, some (putPack [0, 255, 255, 107, 0]), []⟩ ∧
      consumeDevicePack (putPack [0, 255, 255, 107, 0]) = none := by
  refine ⟨by decide, ?_⟩
  have hm : readPutHeader (attach [0, 255, 255, 107, 0]) = none := by
    rw [← Option.not_isSome_iff_eq_none, readPutHeader_isSome_iff (by decide)]
    decide
  exact congrArg (Option.map _) hm

end ChaosFramework.DirectIO
