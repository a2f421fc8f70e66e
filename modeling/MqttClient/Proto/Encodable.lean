import MqttClient.Proto.CodecSpec

/-! Which packets can be encoded, and how long their encoding is. The limits are those of
the variable byte integer: a remaining length and a subscription identifier of 28 bits. -/

namespace MqttClient.Proto

open Lib Encoding

/-- The largest variable byte integer. -/
def varintMax : Nat := 268435455

/-- The bytes of a variable byte integer. -/
def varintLength (value : Nat) : Nat :=
  if value < 128 then 1 else if value < 16384 then 2 else if value < 2097152 then 3 else 4

/-- The bytes of a block of properties, its length included. -/
def blockLength (length : Nat) : Nat := varintLength length + length

@[simp] theorem succeeds_tryPutSlice (bytes : Bytes) : (tryPutSlice bytes).Succeeds :=
  Encoder.succeeds_slice bytes _

@[simp] theorem succeeds_u8 (n : UInt8) : (tryPutU8 n).Succeeds := succeeds_tryPutSlice _

@[simp] theorem succeeds_u16 (n : UInt16) : (tryPutU16Be n).Succeeds := succeeds_tryPutSlice _

@[simp] theorem succeeds_u32 (n : UInt32) : (tryPutU32Be n).Succeeds := succeeds_tryPutSlice _

@[simp] theorem succeeds_putShared (bytes : Bytes) : (putShared bytes).Succeeds :=
  Encoder.succeeds_shared bytes

@[simp] theorem BinaryData.succeeds_encode (data : BinaryData) : data.encode.Succeeds :=
  Encoder.succeeds_shared data.shared

@[simp] theorem ByteStr.succeeds_encode (text : ByteStr) : text.encode.Succeeds :=
  text.data.succeeds_encode

@[simp] theorem Topic.succeeds_encode (topic : Topic) : topic.encode.Succeeds :=
  topic.inner.succeeds_encode

@[simp] theorem Filter.succeeds_encode (filter : Filter) : filter.encode.Succeeds :=
  filter.inner.succeeds_encode

/-- With some bytes left, the loop writes an integer of that many groups of seven bits. -/
theorem succeeds_varintLoop (original item : UInt32) (left : Nat) :
    (encodeVarintLoop original (left + 1) item).Succeeds ↔ item.toNat < 128 ^ (left + 1) := by
  induction left generalizing item with
  | zero =>
    rw [encodeVarintLoop_succ]
    by_cases last : item.toNat < 128
    · simp [last]
    · simp [last, encodeVarintLoop, refuse]
  | succ left ih =>
    rw [encodeVarintLoop_succ]
    have power : 128 ^ (left + 1 + 1) = 128 * 128 ^ (left + 1) := by ring
    by_cases last : item.toNat < 128
    · have positive : 0 < 128 ^ (left + 1) := Nat.pow_pos (by decide)
      simp only [last, if_true, succeeds_u8, true_iff]
      omega
    · rw [if_neg last, Encoder.succeeds_append, ih, item_high, power]
      simp only [succeeds_u8, true_and]
      exact Nat.div_lt_iff_lt_mul (by decide) |>.trans (by rw [Nat.mul_comm])

@[simp] theorem succeeds_varint (item : UInt32) :
    (encodeVarint item).Succeeds ↔ item.toNat ≤ varintMax := by
  rw [encodeVarint, defaultRemainingLengthFieldMaxLength, succeeds_varintLoop, varintMax]
  omega

@[simp] theorem succeeds_remainingLength (length : Nat) :
    (encodeRemainingLength length).Succeeds ↔ length ≤ varintMax := by
  unfold encodeRemainingLength
  split
  · rw [Encoder.succeeds_mapError, succeeds_varint, UInt32.toNat_ofNat',
      Nat.mod_eq_of_lt (by assumption)]
  · simp only [refuse, Encoder.not_succeeds_fail, varintMax, false_iff]
    omega

theorem size_varintLoop (original item : UInt32) (left : Nat) :
    (encodeVarintLoop original (left + 1) item).size =
      if item.toNat < 128 then 1
      else 1 + (encodeVarintLoop original left (item >>> 7)).size := by
  rw [encodeVarintLoop_succ]
  split <;> simp

theorem size_varint {item : UInt32} (small : item.toNat ≤ varintMax) :
    (encodeVarint item).size = varintLength item.toNat := by
  unfold varintMax at small
  simp only [encodeVarint, defaultRemainingLengthFieldMaxLength, size_varintLoop, item_high,
    varintLength]
  repeat' split
  all_goals omega

theorem size_remainingLength {length : Nat} (small : length ≤ varintMax) :
    (encodeRemainingLength length).size = varintLength length := by
  have value : (UInt32.ofNat length).toNat = length := by
    unfold varintMax at small
    rw [UInt32.toNat_ofNat']
    omega
  rw [encodeRemainingLength, if_pos (by unfold varintMax at small; omega), Encoder.size_mapError,
    size_varint (value.symm ▸ small), value]

theorem byteCounter_accepts {countShared : Bool} (counter : ByteCounter countShared)
    (bytes : Bytes) : (Accumulator.tryPutSlice counter bytes).isSome = true :=
  rfl

/-- The counting pass fails where the encoder does, and else it counts all that is put. -/
theorem run_counter_cases (encoder : Encoding) :
    (encoder.Succeeds ∧ encoder.run ({} : ByteCounter true) = .ok ⟨encoder.size⟩) ∨
      (¬ encoder.Succeeds ∧ ∃ fault, encoder.run ({} : ByteCounter true) = .error fault) := by
  by_cases succeeds : encoder.Succeeds
  · have counted := run_byteCounter ⟨succeeds, rfl⟩ 0
    rw [Nat.zero_add] at counted
    exact .inl ⟨succeeds, counted⟩
  · refine .inr ⟨succeeds, ?_⟩
    cases ran : encoder.run ({} : ByteCounter true) with
    | error fault => exact ⟨fault, rfl⟩
    | ok counter =>
      have ended := Encoder.run_isOk_iff byteCounter_accepts encoder ({} : ByteCounter true)
      rw [ran] at ended
      exact absurd (ended.mp rfl) succeeds

namespace Property

/-- Only a subscription identifier can be too large for its property. -/
def Encodable : Property → Prop
  | .subscriptionIdentifier identifier => identifier.get.toNat ≤ varintMax
  | _ => True

@[simp] theorem succeeds_encode (property : Property) :
    property.encode.Succeeds ↔ property.Encodable := by
  cases property with
  | subscriptionIdentifier identifier => simp [encode, Encodable]
  | maximumQoS qos => cases qos <;> simp [encode, Encodable]
  | _ =>
    simp only [encode, Encodable, iff_true]
    try split
    all_goals simp

theorem encodeAll_encodable {properties : List Property}
    (encodable : ∀ property ∈ properties, property.Encodable) :
    encodeAll properties =
      encodeRemainingLength (weight properties) ++ .forEach properties encode := by
  have succeeds : (Encoder.forEach properties encode).Succeeds := by simpa using encodable
  rcases run_counter_cases (.forEach properties encode) with ⟨-, counted⟩ | ⟨fails, -⟩
  · rw [size_forEach] at counted
    simp only [encodeAll, counted]
  · exact absurd succeeds fails

@[simp] theorem succeeds_encodeAll (properties : List Property) :
    (encodeAll properties).Succeeds ↔
      (∀ property ∈ properties, property.Encodable) ∧ weight properties ≤ varintMax := by
  by_cases encodable : ∀ property ∈ properties, property.Encodable
  · simp [encodeAll_encodable encodable, and_comm]
  · rcases run_counter_cases (.forEach properties encode) with ⟨succeeds, -⟩ | ⟨-, fault, ran⟩
    · exact absurd (by simpa using succeeds) encodable
    · simp only [encodeAll, ran, Encoder.not_succeeds_fail, encodable, false_and]

theorem size_encodeAll {properties : List Property}
    (encodable : ∀ property ∈ properties, property.Encodable)
    (light : weight properties ≤ varintMax) :
    (encodeAll properties).size = blockLength (weight properties) := by
  rw [encodeAll_encodable encodable, Encoder.size_append, size_remainingLength light,
    size_forEach, blockLength]

end Property

namespace Packet

theorem encode_succeeds {packet : Packet} {version : ProtocolVersion}
    (succeeds : (packet.encodeBody version).Succeeds) :
    packet.encode version =
      tryPutU8 (packet.packetType ||| packet.flags) ++
        encodeRemainingLength (packet.encodeBody version).size ++ packet.encodeBody version ++
        .put .done := by
  rcases run_counter_cases (packet.encodeBody version) with ⟨-, counted⟩ | ⟨fails, -⟩
  · simp only [encode, counted]
  · exact absurd succeeds fails

/-- A packet is encoded when its body is and the length of the body fits. -/
theorem succeeds_encode (packet : Packet) (version : ProtocolVersion) :
    (packet.encode version).Succeeds ↔
      (packet.encodeBody version).Succeeds ∧ (packet.encodeBody version).size ≤ varintMax := by
  rcases run_counter_cases (packet.encodeBody version) with ⟨succeeds, -⟩ | ⟨fails, fault, ran⟩
  · simp [encode_succeeds succeeds, succeeds]
  · simp only [encode, ran, Encoder.not_succeeds_fail, fails, false_and]

/-- A packet whose body can only fail in its block of properties. -/
theorem succeeds_encode_block {packet : Packet} {before after : Encoding}
    {properties : List Property}
    (body : packet.encodeBody .v5 = before ++ Property.encodeAll properties ++ after)
    (first : before.Succeeds) (last : after.Succeeds) :
    (packet.encode .v5).Succeeds ↔
      (∀ property ∈ properties, property.Encodable) ∧
        before.size + blockLength (Property.weight properties) + after.size ≤ varintMax := by
  rw [succeeds_encode, body]
  simp only [Encoder.succeeds_append, Encoder.size_append, first, last, true_and, and_true,
    Property.succeeds_encodeAll]
  constructor
  · rintro ⟨⟨encodable, light⟩, fits⟩
    rw [Property.size_encodeAll encodable light] at fits
    exact ⟨encodable, fits⟩
  · rintro ⟨encodable, fits⟩
    have light : Property.weight properties ≤ varintMax := by
      unfold blockLength at fits
      omega
    exact ⟨⟨encodable, light⟩, by rwa [Property.size_encodeAll encodable light]⟩

end Packet

end MqttClient.Proto
