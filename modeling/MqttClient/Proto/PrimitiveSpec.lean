import MqttClient.Lib.RoundTrip
import MqttClient.Proto.Primitive
import Mathlib.Tactic.Ring

/-! What is put as an integer, a variable byte integer, binary data or a string is read
back, and whatever is read fits into no more bytes than it was read from. -/

namespace MqttClient.Proto

open Lib Decoding Encoding

theorem roundTrips_u8 (n : UInt8) : RoundTrips (tryPutU8 n) tryGetU8 n :=
  (Encoder.Emits.slice _ _).roundTrips fun _ => rfl

theorem u16FromBeBytes_toBeBytes (n : UInt16) :
    u16FromBeBytes (.ofNat (n.toNat / 256)) (.ofNat n.toNat) = n := by
  have small := n.toNat_lt
  apply UInt16.toNat_inj.mp
  simp only [u16FromBeBytes, UInt16.toNat_ofNat', UInt8.toNat_ofNat']
  omega

theorem u16FromBeBytes_toNat (high low : UInt8) :
    (u16FromBeBytes high low).toNat = high.toNat * 256 + low.toNat := by
  have highSmall := high.toNat_lt
  have lowSmall := low.toNat_lt
  simp only [u16FromBeBytes, UInt16.toNat_ofNat']
  omega

theorem u16ToBeBytes_fromBeBytes (high low : UInt8) :
    u16ToBeBytes (u16FromBeBytes high low) = [high, low] := by
  have highSmall := high.toNat_lt
  have lowSmall := low.toNat_lt
  have first : UInt8.ofNat ((high.toNat * 256 + low.toNat) / 256) = high := by
    apply UInt8.toNat_inj.mp
    rw [UInt8.toNat_ofNat']
    omega
  have second : UInt8.ofNat (high.toNat * 256 + low.toNat) = low := by
    apply UInt8.toNat_inj.mp
    rw [UInt8.toNat_ofNat']
    omega
  rw [u16ToBeBytes, u16FromBeBytes_toNat, first, second]

theorem roundTrips_u16 (n : UInt16) : RoundTrips (tryPutU16Be n) tryGetU16Be n := by
  refine (Encoder.Emits.slice _ _).roundTrips fun rest => ?_
  simp only [u16ToBeBytes, List.cons_append, List.nil_append, tryGetU16Be,
    u16FromBeBytes_toBeBytes]

theorem roundTrips_u32 (n : UInt32) : RoundTrips (tryPutU32Be n) tryGetU32Be n := by
  refine (Encoder.Emits.slice _ _).roundTrips fun rest => ?_
  have small := n.toNat_lt
  have same : u32FromBeBytes (.ofNat (n.toNat / 16777216)) (.ofNat (n.toNat / 65536))
      (.ofNat (n.toNat / 256)) (.ofNat n.toNat) = n := by
    apply UInt32.toNat_inj.mp
    simp only [u32FromBeBytes, UInt32.toNat_ofNat', UInt8.toNat_ofNat']
    omega
  simp only [u32ToBeBytes, List.cons_append, List.nil_append, tryGetU32Be, same]

theorem roundTrips_packetIdentifier (identifier : PacketIdentifier) :
    RoundTrips (tryPutU16Be identifier.get) tryGetPacketIdentifier identifier := by
  refine (roundTrips_u16 identifier.get).finish ?_
  simpa [PacketIdentifier.new, identifier.nonzero] using Decoder.Reads.pure identifier

@[simp] theorem size_u8 (n : UInt8) : (tryPutU8 n).size = 1 := rfl

@[simp] theorem size_u16 (n : UInt16) : (tryPutU16Be n).size = 2 := rfl

@[simp] theorem size_u32 (n : UInt32) : (tryPutU32Be n).size = 4 := rfl

@[simp] theorem size_slice (bytes : Bytes) : (tryPutSlice bytes).size = bytes.length :=
  congrArg List.length (Encoder.Emits.slice bytes _).2

@[simp] theorem size_shared (bytes : Bytes) : (putShared bytes).size = bytes.length :=
  congrArg List.length (Encoder.Emits.shared bytes).2

@[simp] theorem BinaryData.size_encode (data : BinaryData) :
    data.encode.size = data.shared.length :=
  size_shared data.shared

@[simp] theorem ByteStr.size_encode (text : ByteStr) :
    text.encode.size = text.data.shared.length :=
  size_shared text.data.shared

@[simp] theorem Topic.size_encode (topic : Topic) :
    topic.encode.size = topic.inner.data.shared.length :=
  size_shared topic.inner.data.shared

@[simp] theorem Filter.size_encode (filter : Filter) :
    filter.encode.size = filter.inner.data.shared.length :=
  size_shared filter.inner.data.shared

theorem ensures_u8 : Decoder.Ensures tryGetU8 fun _ used => used = 1 := by
  intro src value rest decoded
  match src, decoded with
  | _ :: _, decoded =>
    cases decoded
    exact ⟨1, by simp only [List.length_cons]; omega, rfl⟩

theorem ensures_u16 : Decoder.Ensures tryGetU16Be fun _ used => used = 2 := by
  intro src value rest decoded
  match src, decoded with
  | _ :: _ :: _, decoded =>
    cases decoded
    exact ⟨2, by simp only [List.length_cons]; omega, rfl⟩

theorem ensures_u32 : Decoder.Ensures tryGetU32Be fun _ used => used = 4 := by
  intro src value rest decoded
  match src, decoded with
  | _ :: _ :: _ :: _ :: _, decoded =>
    cases decoded
    exact ⟨4, by simp only [List.length_cons]; omega, rfl⟩

theorem ensures_packetIdentifier : Decoder.Ensures tryGetPacketIdentifier fun _ used => used = 2 := by
  refine ensures_u16.bind fun n used two => ?_
  split
  · exact .pure (by omega)
  · exact .fail

theorem roundTrips_required {α : Type} {encoder : Encoding} {decoder : Decoding (Option α)}
    {value : α} (trips : RoundTrips encoder decoder (some value)) :
    RoundTrips encoder (required decoder) value :=
  trips.finish (.pure value)

theorem ensures_required {α : Type} {decoder : Decoding (Option α)}
    {post : α → Nat → Prop}
    (ensured : Decoder.Ensures decoder fun outcome used =>
      ∀ value, outcome = some value → post value used) :
    Decoder.Ensures (required decoder) post := by
  refine ensured.bind fun outcome used holds => ?_
  cases outcome with
  | none => exact .fail
  | some value => exact .pure (holds value rfl)

theorem ensures_splitTo (index : Nat) :
    (splitTo index).Ensures fun block used => used = index ∧ block.length = index := by
  intro src block rest decoded
  simp only [splitTo] at decoded
  split at decoded
  · rename_i within
    cases decoded
    exact ⟨index, by simp; omega, rfl, by simp; omega⟩
  · cases decoded

/-- A decoder on a view reads what it reads on the input itself. -/
theorem reads_scan {α : Type} {decoder : Decoding α} {code : Bytes} {value : α}
    (read : decoder.Reads code value) : (scan decoder).Reads code value := by
  intro rest
  simp [scan, read rest]

theorem roundTrips_scan {α : Type} {encoder : Encoding} {decoder : Decoding α} {value : α}
    (trips : RoundTrips encoder decoder value) : RoundTrips encoder (scan decoder) value :=
  ⟨trips.1, reads_scan trips.2⟩

theorem ensures_scan {α : Type} {decoder : Decoding α} {post : α → Nat → Prop}
    (ensured : decoder.Ensures post) : (scan decoder).Ensures post := by
  intro src value rest decoded
  simp only [scan] at decoded
  cases viewed : decoder src with
  | error fault => simp [viewed] at decoded
  | ok outcome =>
    obtain ⟨found, left⟩ := outcome
    obtain ⟨used, length, holds⟩ := ensured src found left viewed
    have shorter : left.length ≤ src.length := by omega
    simp only [viewed, shorter, if_true, Except.ok.injEq, Prod.mk.injEq] at decoded
    obtain ⟨rfl, rfl⟩ := decoded
    refine ⟨used, ?_, holds⟩
    rw [List.length_drop]
    omega

theorem byte_low (byte : UInt8) : (byte &&& 0x7F).toUInt32.toNat = byte.toNat % 128 := by
  have mask := Nat.and_two_pow_sub_one_eq_mod byte.toNat 7
  simpa using mask

theorem byte_last (byte : UInt8) : byte &&& 0x80 = 0 ↔ byte.toNat < 128 := by
  have each : ∀ n : Fin 256, UInt8.ofFin n &&& 0x80 = 0 ↔ n.val < 128 := by decide +kernel
  exact each byte.toFin

/-- Seven bits are added above those read so far. -/
theorem varint_or (result low : UInt32) {read : Nat} (few : read < 4)
    (below : result.toNat < 128 ^ read) (small : low.toNat < 128) :
    (result ||| (low <<< UInt32.ofNat (read * 7))).toNat =
      result.toNat + low.toNat * 128 ^ read := by
  have power : 128 ^ read = 2 ^ (7 * read) := by rw [Nat.pow_mul]
  have shift : (UInt32.ofNat (read * 7)).toNat % 32 = 7 * read := by
    rw [UInt32.toNat_ofNat']
    omega
  have bound : low.toNat * 128 ^ read < 2 ^ 32 := by
    obtain rfl | rfl | rfl | rfl : read = 0 ∨ read = 1 ∨ read = 2 ∨ read = 3 := by omega
    all_goals omega
  rw [UInt32.toNat_or, UInt32.toNat_shiftLeft, shift, Nat.shiftLeft_eq, ← power,
    Nat.mod_eq_of_lt bound, Nat.or_comm, Nat.mul_comm, power,
    ← Nat.two_pow_add_eq_or_of_lt (power ▸ below)]
  omega

theorem item_low (item : UInt32) : (item &&& 0x7F).toUInt8.toNat = item.toNat % 128 := by
  have mask : item.toNat &&& (0x7F : UInt32).toNat = item.toNat % 128 :=
    Nat.and_two_pow_sub_one_eq_mod item.toNat 7
  rw [UInt32.toNat_toUInt8, UInt32.toNat_and, mask]
  omega

theorem item_high (item : UInt32) : (item >>> 7).toNat = item.toNat / 128 := by
  rw [UInt32.toNat_shiftRight, Nat.shiftRight_eq_div_pow]
  rfl

theorem byte_continued {byte : UInt8} (low : byte.toNat < 128) :
    (byte ||| 0x80).toNat = byte.toNat + 128 := by
  have high : byte.toNat ||| 2 ^ 7 * 1 = 2 ^ 7 * 1 + byte.toNat := by
    rw [Nat.or_comm, Nat.two_pow_add_eq_or_of_lt low]
  rw [UInt8.toNat_or]
  exact high.trans (by omega)

/-- One turn of the encoder, on the numbers that its words stand for. -/
theorem encodeVarintLoop_succ (original item : UInt32) (left : Nat) :
    encodeVarintLoop original (left + 1) item =
      if item.toNat < 128 then tryPutU8 (.ofNat item.toNat)
      else tryPutU8 (.ofNat (item.toNat % 128 + 128)) ++
        encodeVarintLoop original left (item >>> 7) := by
  have low := item_low item
  have more : (0 : UInt32) < item >>> 7 ↔ ¬item.toNat < 128 := by
    rw [UInt32.lt_iff_toNat_lt, item_high]
    simp
  have none : item >>> 7 = 0 ↔ item.toNat < 128 := by
    rw [← UInt32.toNat_inj, item_high]
    simp
  by_cases last : item.toNat < 128
  · have byte : (item &&& 0x7F).toUInt8 = .ofNat item.toNat := by
      apply UInt8.toNat_inj.mp
      rw [low, UInt8.toNat_ofNat']
      omega
    simp only [encodeVarintLoop, more, none, last, not_true_eq_false, if_true, if_false, byte,
      Encoder.append_skip]
  · have byte : (item &&& 0x7F).toUInt8 ||| 0x80 = .ofNat (item.toNat % 128 + 128) := by
      apply UInt8.toNat_inj.mp
      rw [byte_continued (by omega), low, UInt8.toNat_ofNat']
      omega
    simp only [encodeVarintLoop, more, none, last, not_false_eq_true, if_true, if_false, byte]

/-- One turn of the decoder. -/
theorem decodeVarintLoop_cons {result : UInt32} {read : Nat} (few : read < 4) (byte : UInt8)
    (rest : Bytes) :
    decodeVarintLoop result read (byte :: rest) =
      let result := result ||| ((byte &&& 0x7F).toUInt32 <<< UInt32.ofNat (read * 7))
      if byte.toNat < 128 then .ok (some result, rest)
      else if read + 1 = 4 then .error (.error .varintTooHigh)
      else decodeVarintLoop result (read + 1) rest := by
  simp only [decodeVarintLoop, shiftLeftU32, if_pos (show read * 7 < 32 by omega),
    defaultRemainingLengthFieldMaxLength, byte_last]
  rfl

/-- The rest of an integer is read back above the bits read before it. -/
theorem varintLoop_roundTrips (original item result : UInt32) (left read : Nat)
    (all : left + read = 4) (fits : item.toNat < 128 ^ left) (below : result.toNat < 128 ^ read)
    (positive : 0 < left) :
    RoundTrips (encodeVarintLoop original left item) (decodeVarintLoop result read)
      (some (.ofNat (result.toNat + item.toNat * 128 ^ read))) := by
  induction left generalizing item result read with
  | zero => omega
  | succ left ih =>
    have few : read < 4 := by omega
    rw [encodeVarintLoop_succ]
    by_cases last : item.toNat < 128
    · rw [if_pos last]
      refine (Encoder.Emits.slice _ _).roundTrips fun rest => ?_
      have byte : (UInt8.ofNat item.toNat).toNat = item.toNat := by
        rw [UInt8.toNat_ofNat']
        omega
      have low : (UInt8.ofNat item.toNat &&& 0x7F).toUInt32.toNat = item.toNat := by
        rw [byte_low, byte]
        omega
      rw [List.singleton_append, decodeVarintLoop_cons few, byte, if_pos last]
      simp only [Except.ok.injEq, Prod.mk.injEq, Option.some.injEq, and_true]
      apply UInt32.toNat_inj.mp
      have value := varint_or result (UInt8.ofNat item.toNat &&& 0x7F).toUInt32 few below (by omega)
      have total : result.toNat + item.toNat * 128 ^ read < 2 ^ 32 := by
        rw [low] at value
        rw [← value]
        exact UInt32.toNat_lt _
      rw [value, low, UInt32.toNat_ofNat', Nat.mod_eq_of_lt total]
    · rw [if_neg last]
      have byte : (UInt8.ofNat (item.toNat % 128 + 128)).toNat = item.toNat % 128 + 128 := by
        rw [UInt8.toNat_ofNat']
        omega
      have low : (UInt8.ofNat (item.toNat % 128 + 128) &&& 0x7F).toUInt32.toNat =
          item.toNat % 128 := by
        rw [byte_low, byte]
        omega
      have some : 0 < left := by
        apply Nat.pos_of_ne_zero
        rintro rfl
        omega
      have value := varint_or result (UInt8.ofNat (item.toNat % 128 + 128) &&& 0x7F).toUInt32 few
        below (by omega)
      rw [low] at value
      have power : 128 ^ (read + 1) = 128 * 128 ^ read := by ring
      have above : result.toNat + item.toNat % 128 * 128 ^ read < 128 ^ (read + 1) := by
        have digit : item.toNat % 128 ≤ 127 := by omega
        have product := Nat.mul_le_mul_right (128 ^ read) digit
        omega
      have later := ih (item >>> 7) _ (read + 1) (by omega)
        (by
          rw [item_high]
          exact Nat.div_lt_of_lt_mul (by rwa [Nat.pow_succ, Nat.mul_comm] at fits))
        (value ▸ above) some
      rw [value, item_high] at later
      have whole : result.toNat + item.toNat % 128 * 128 ^ read +
          item.toNat / 128 * 128 ^ (read + 1) = result.toNat + item.toNat * 128 ^ read := by
        rw [power]
        nth_rewrite 3 [← Nat.mod_add_div item.toNat 128]
        ring
      rw [whole] at later
      refine ((Encoder.Emits.slice _ _).append later.emits).roundTrips fun rest => ?_
      rw [List.append_assoc, List.singleton_append, decodeVarintLoop_cons few, byte,
        if_neg (by omega), if_neg (by omega)]
      exact later.2 rest

/-- An integer below `2 ^ 28` is read back. -/
theorem roundTrips_varint (item : UInt32) (small : item.toNat < 268435456) :
    RoundTrips (encodeVarint item) decodeVarint (some item) := by
  have trips := varintLoop_roundTrips item item 0 4 0 rfl (by simpa using small) (by simp)
    (by decide)
  simpa [encodeVarint, decodeVarint, defaultRemainingLengthFieldMaxLength] using trips

/-- An integer that fits into `length` groups of seven bits takes no more bytes. -/
theorem size_varintLoop_le (original item : UInt32) (left length : Nat) (positive : 0 < length)
    (fits : item.toNat < 128 ^ length) :
    (encodeVarintLoop original left item).size ≤ length := by
  induction left generalizing item length with
  | zero => exact Nat.zero_le _
  | succ left ih =>
    rw [encodeVarintLoop_succ]
    by_cases last : item.toNat < 128
    · rw [if_pos last, size_u8]
      exact positive
    · rw [if_neg last]
      obtain ⟨shorter, rfl⟩ : ∃ shorter, length = shorter + 1 := ⟨length - 1, by omega⟩
      have some : 0 < shorter := by
        apply Nat.pos_of_ne_zero
        rintro rfl
        omega
      have rest := ih (item >>> 7) shorter some (by
        rw [item_high]
        exact Nat.div_lt_of_lt_mul (by rwa [Nat.pow_succ, Nat.mul_comm] at fits))
      rw [Encoder.size_append, size_u8]
      omega

/-- An integer read from some bytes fits into their groups of seven bits. -/
theorem ensures_varintLoop (result : UInt32) (read : Nat) (few : read < 4)
    (below : result.toNat < 128 ^ read) :
    (decodeVarintLoop result read).Ensures fun outcome used =>
      ∀ value, outcome = some value →
        0 < used ∧ read + used ≤ 4 ∧ value.toNat < 128 ^ (read + used) := by
  intro src outcome rest decoded
  induction src generalizing result read with
  | nil =>
    cases decoded
    exact ⟨0, rfl, fun value missing => by simp at missing⟩
  | cons byte tail ih =>
    rw [decodeVarintLoop_cons few] at decoded
    have digit : (byte &&& 0x7F).toUInt32.toNat ≤ 127 := by
      rw [byte_low]
      omega
    have value := varint_or result (byte &&& 0x7F).toUInt32 few below (by omega)
    have above : (result ||| ((byte &&& 0x7F).toUInt32 <<< UInt32.ofNat (read * 7))).toNat <
        128 ^ (read + 1) := by
      have power : 128 ^ (read + 1) = 128 * 128 ^ read := by ring
      have product := Nat.mul_le_mul_right (128 ^ read) digit
      omega
    simp only at decoded
    split at decoded
    · simp only [Except.ok.injEq, Prod.mk.injEq] at decoded
      obtain ⟨rfl, rfl⟩ := decoded
      refine ⟨1, by simp [Nat.add_comm], fun found same => ?_⟩
      cases same
      exact ⟨by omega, by omega, above⟩
    · split at decoded
      · cases decoded
      · obtain ⟨used, length, holds⟩ := ih _ (read + 1) (by omega) above decoded
        refine ⟨used + 1, by simp only [List.length_cons]; omega, fun found same => ?_⟩
        obtain ⟨_, within, fits⟩ := holds found same
        refine ⟨by omega, by omega, ?_⟩
        rwa [show read + (used + 1) = read + 1 + used by omega]

theorem ensures_varint : decodeVarint.Ensures fun outcome used =>
    ∀ value, outcome = some value → 0 < used ∧ used ≤ 4 ∧ value.toNat < 128 ^ used := by
  simpa [decodeVarint] using ensures_varintLoop 0 0 (by decide) (by simp)

theorem roundTrips_remainingLength {length : Nat} (small : length < 268435456) :
    RoundTrips (encodeRemainingLength length) decodeRemainingLength (some length) := by
  have value : (UInt32.ofNat length).toNat = length := by
    rw [UInt32.toNat_ofNat']
    omega
  have trips := roundTrips_varint (.ofNat length) (value.symm ▸ small)
  rw [encodeRemainingLength, if_pos (by omega)]
  have read : decodeRemainingLength.Reads (encodeVarint (.ofNat length)).items (some length) := by
    refine trips.2.finish ?_
    simpa [value] using Decoder.Reads.pure (some length)
  exact (trips.emits.mapError _).roundTrips read

theorem size_remainingLength_le {length groups : Nat} (positive : 0 < groups)
    (fits : length < 128 ^ groups) : (encodeRemainingLength length).size ≤ groups := by
  unfold encodeRemainingLength
  split
  · have value : (UInt32.ofNat length).toNat = length := by
      rw [UInt32.toNat_ofNat']
      omega
    have short := size_varintLoop_le (.ofNat length) (.ofNat length) 4 groups positive
      (value.symm ▸ fits)
    simpa [encodeVarint, defaultRemainingLengthFieldMaxLength] using short
  · exact Nat.zero_le _

theorem ensures_remainingLength : decodeRemainingLength.Ensures fun outcome used =>
    ∀ value, outcome = some value → 0 < used ∧ used ≤ 4 ∧ value < 128 ^ used := by
  refine ensures_varint.bind fun outcome used holds => .pure fun value same => ?_
  cases outcome with
  | none => simp at same
  | some varint =>
    simp only [Option.map_some, Option.some.injEq] at same
    subst same
    exact holds varint rfl

theorem decodeFixedHeader_cons (firstByte : UInt8) (src : Bytes) :
    decodeFixedHeader (firstByte :: src) =
      (do return (← decodeRemainingLength).map (firstByte, ·) :
        Decoding (Option (UInt8 × Nat))) src := by
  rw [decodeFixedHeader, Decoder.bind_apply, Decoder.bind_apply]
  cases decodeRemainingLength src with
  | error fault => rfl
  | ok found =>
    obtain ⟨outcome, rest⟩ := found
    cases outcome <;> rfl

/-- The counting pass counts all that is put. -/
theorem run_byteCounter {encoder : Encoding} {code : Bytes} (emits : encoder.Emits code)
    (start : Nat) :
    encoder.run (⟨start⟩ : ByteCounter true) = .ok ⟨start + code.length⟩ := by
  obtain ⟨puts⟩ := encoder
  obtain ⟨succeeds, rfl⟩ := emits
  simp only [Encoder.run, Encoder.items, Encoder.Succeeds] at succeeds ⊢
  induction puts generalizing start with
  | nil => rfl
  | cons head tail ih =>
    have step : (Encoder.runPut (⟨start⟩ : ByteCounter true) head : Except EncodeFault _) =
        .ok ⟨start + head.items.length⟩ := by
      cases head with
      | fail fault => exact absurd List.mem_cons_self (succeeds fault)
      | _ => rfl
    rw [List.foldlM_cons, step]
    refine (ih (start + head.items.length) fun fault member => ?_).trans ?_
    · exact succeeds fault (List.mem_cons_of_mem _ member)
    · simp [Nat.add_assoc]

namespace BinaryData

/-- The prefix is the length of what follows it. -/
def WellFormed (data : BinaryData) : Prop :=
  data.asBytes.length ≤ 65535 ∧
    data.shared = u16ToBeBytes (.ofNat data.asBytes.length) ++ data.asBytes

theorem WellFormed.length {data : BinaryData} (formed : data.WellFormed) :
    data.shared.length = 2 + data.asBytes.length := by
  rw [formed.2]
  simp [u16ToBeBytes, asBytes]
  omega

theorem WellFormed.tryAsBytes {data : BinaryData} (formed : data.WellFormed) :
    data.tryAsBytes = .ok data.asBytes := by
  have long := formed.length
  simp only [BinaryData.tryAsBytes, sliceFrom, if_pos (show 2 ≤ data.shared.length by omega)]
  rfl

/-- Binary data behind its length, if all of it is there. -/
theorem decode_cons (high low : UInt8) (tail : Bytes) :
    BinaryData.decode (high :: low :: tail) =
      if tail.length < (u16FromBeBytes high low).toNat then .ok (none, high :: low :: tail)
      else .ok (some ⟨high :: low :: tail.take (u16FromBeBytes high low).toNat⟩,
        tail.drop (u16FromBeBytes high low).toNat) := by
  generalize same : (u16FromBeBytes high low).toNat = len
  have shorter : (high :: low :: tail).length < 2 + len ↔ tail.length < len := by
    simp only [List.length_cons]
    omega
  have front : (high :: low :: tail).take (2 + len) = high :: low :: tail.take len := by
    rw [Nat.add_comm]
    rfl
  have back : (high :: low :: tail).drop (2 + len) = tail.drop len := by
    rw [Nat.add_comm]
    rfl
  simp only [BinaryData.decode, same, shorter]
  split
  · rfl
  · rename_i enough
    have within : 2 + len ≤ (high :: low :: tail).length := by
      simp only [List.length_cons]
      omega
    simp only [Decoder.bind_apply, splitTo, if_pos within, front, back]
    rfl

theorem roundTrips {data : BinaryData} (formed : data.WellFormed) :
    RoundTrips data.encode BinaryData.decode (some data) := by
  refine (Encoder.Emits.shared _).roundTrips fun rest => ?_
  have value : (UInt16.ofNat data.asBytes.length).toNat = data.asBytes.length := by
    have small := formed.1
    rw [UInt16.toNat_ofNat']
    omega
  have front : data.shared ++ rest =
      .ofNat ((UInt16.ofNat data.asBytes.length).toNat / 256) ::
        .ofNat (UInt16.ofNat data.asBytes.length).toNat :: (data.asBytes ++ rest) := by
    nth_rewrite 1 [formed.2]
    rfl
  have whole : u16ToBeBytes (.ofNat data.asBytes.length) ++ data.asBytes = data.shared :=
    formed.2.symm
  rw [front, decode_cons, u16FromBeBytes_toBeBytes, value]
  simp only [List.length_append, Nat.not_lt.mpr (Nat.le_add_right _ _), if_false,
    List.take_left, List.drop_left]
  simp only [u16ToBeBytes, List.cons_append, List.nil_append] at whole
  rw [value] at whole
  simp [whole]

theorem ensures : BinaryData.decode.Ensures fun outcome used =>
    ∀ data, outcome = some data → data.WellFormed ∧ data.shared.length = used := by
  intro src outcome rest decoded
  match src, decoded with
  | [], decoded =>
    cases decoded
    exact ⟨0, rfl, by simp⟩
  | [single], decoded =>
    cases decoded
    exact ⟨0, by simp, by simp⟩
  | high :: low :: tail, decoded =>
    rw [decode_cons] at decoded
    split at decoded
    · cases decoded
      exact ⟨0, by simp, by simp⟩
    · rename_i enough
      simp only [Except.ok.injEq, Prod.mk.injEq] at decoded
      obtain ⟨rfl, rfl⟩ := decoded
      have length : (tail.take (u16FromBeBytes high low).toNat).length =
          (u16FromBeBytes high low).toNat := by
        rw [List.length_take]
        omega
      refine ⟨2 + (u16FromBeBytes high low).toNat, ?_, ?_⟩
      · simp only [List.length_cons, List.length_drop]
        omega
      · intro data same
        cases same
        refine ⟨⟨?_, ?_⟩, ?_⟩
        · have small := (u16FromBeBytes high low).toNat_lt
          simp only [asBytes, List.drop_succ_cons, List.drop_zero, length]
          omega
        · simp only [asBytes, List.drop_succ_cons, List.drop_zero, length, UInt16.ofNat_toNat,
            u16ToBeBytes_fromBeBytes]
          rfl
        · simp only [List.length_cons, length]
          omega

end BinaryData

section

variable [UnicodeGeneralCategory]

namespace ByteStr

def WellFormed (text : ByteStr) : Prop :=
  text.data.WellFormed ∧ validateMqttString text.asBytes = .ok ()

theorem roundTrips {text : ByteStr} (formed : text.WellFormed) :
    RoundTrips text.encode ByteStr.decode (some text) := by
  refine (BinaryData.roundTrips formed.1).finish ?_
  refine (Decoder.Reads.ofExcept formed.1.tryAsBytes).finish ?_
  exact (Decoder.Reads.ofExcept formed.2).finish (.pure _)

theorem ensures : ByteStr.decode.Ensures fun outcome used =>
    ∀ text, outcome = some text → text.WellFormed ∧ text.data.shared.length = used := by
  refine BinaryData.ensures.bind fun outcome used holds => ?_
  cases outcome with
  | none => exact .pure (by simp)
  | some data =>
    obtain ⟨formed, length⟩ := holds data rfl
    refine .bindExcept fun text same => .bindExcept fun _ valid => .pure fun text found => ?_
    rw [formed.tryAsBytes] at same
    cases same
    cases found
    exact ⟨⟨formed, valid⟩, length⟩

end ByteStr

namespace Topic

def WellFormed (topic : Topic) : Prop :=
  topic.inner.WellFormed ∧ Topic.new topic.inner = .ok topic

theorem roundTrips {topic : Topic} (formed : topic.WellFormed) :
    RoundTrips topic.encode Topic.decode (some topic) := by
  refine (ByteStr.roundTrips formed.1).finish ?_
  exact (Decoder.Reads.ofExcept formed.2).finish (.pure _)

theorem new_inner {text : ByteStr} {topic : Topic} (created : Topic.new text = .ok topic) :
    topic.inner = text := by
  simp only [Topic.new, bind, Except.bind] at created
  split at created
  · cases created
  · split at created
    · cases created
    · split at created
      · cases created
      · split at created
        · cases created
        · split at created
          · cases created
          · cases created
            rfl

theorem ensures : Topic.decode.Ensures fun outcome used =>
    ∀ topic, outcome = some topic → topic.WellFormed ∧ topic.inner.data.shared.length = used := by
  refine ByteStr.ensures.bind fun outcome used holds => ?_
  cases outcome with
  | none => exact .pure (by simp)
  | some text =>
    obtain ⟨formed, length⟩ := holds text rfl
    refine .bindExcept fun topic created => .pure fun found same => ?_
    cases same
    have inner := new_inner created
    exact ⟨⟨inner ▸ formed, inner ▸ created⟩, inner ▸ length⟩

end Topic

namespace Filter

def WellFormed (filter : Filter) : Prop :=
  filter.inner.WellFormed ∧ Filter.new filter.inner = .ok filter

theorem roundTrips {filter : Filter} (formed : filter.WellFormed) :
    RoundTrips filter.encode Filter.decode (some filter) := by
  refine (ByteStr.roundTrips formed.1).finish ?_
  exact (Decoder.Reads.ofExcept formed.2).finish (.pure _)

theorem new_inner {text : ByteStr} {filter : Filter} (created : Filter.new text = .ok filter) :
    filter.inner = text := by
  simp only [Filter.new, bind, Except.bind] at created
  split at created
  · cases created
  · split at created
    · cases created
    · split at created
      · cases created
      · split at created
        · cases created
        · split at created
          · cases created
          · split at created
            · cases created
            · split at created
              · cases created
              · cases created
                rfl

theorem ensures : Filter.decode.Ensures fun outcome used =>
    ∀ filter, outcome = some filter →
      filter.WellFormed ∧ filter.inner.data.shared.length = used := by
  refine ByteStr.ensures.bind fun outcome used holds => ?_
  cases outcome with
  | none => exact .pure (by simp)
  | some text =>
    obtain ⟨formed, length⟩ := holds text rfl
    refine .bindExcept fun filter created => .pure fun found same => ?_
    cases same
    have inner := new_inner created
    exact ⟨⟨inner ▸ formed, inner ▸ created⟩, inner ▸ length⟩

end Filter

end

end MqttClient.Proto
