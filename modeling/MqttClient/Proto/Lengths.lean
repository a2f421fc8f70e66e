import MqttClient.Proto.Encodable

/-! The length fields of an encoding: the remaining length of the packet and the lengths of
its blocks of properties. -/

namespace MqttClient.Proto

open Lib Decoding Encoding

/-- The block of an acknowledgement, which is left out when it is empty. -/
def AckOtherProperties.blocks (other : AckOtherProperties) : List (List Slot) :=
  if other.isDefault then [] else [other.slots]

/-- The blocks of properties in a packet, in the order of the wire. -/
def Packet.propertyBlocks (packet : Packet) : ProtocolVersion → List (List Slot)
  | .v3 => []
  | .v5 =>
    match packet with
    | .auth packet => [packet.slots]
    | .connAck packet => [packet.otherProperties.slots]
    | .connect packet =>
      Connect.slots packet.otherProperties :: packet.will.toList.map fun (will, delay) =>
        Connect.willSlots will.otherProperties delay
    | .disconnect packet =>
      if Disconnect.hasProperties packet.otherProperties then
        [Disconnect.slots packet.otherProperties]
      else []
    | .pingReq => []
    | .pingResp => []
    | .pubAck packet => packet.otherProperties.blocks
    | .pubComp packet => packet.otherProperties.blocks
    | .publish packet => [Publish.slots packet.otherProperties]
    | .pubRec packet => packet.otherProperties.blocks
    | .pubRel packet => packet.otherProperties.blocks
    | .subAck packet => [packet.otherProperties.slots]
    | .subscribe packet => [packet.otherProperties.slots]
    | .unsubAck packet => [packet.otherProperties.slots]
    | .unsubscribe packet => [[Binding.userProperty.repeated packet.otherProperties.userProperties]]

theorem encodeAck_contains {R : Type} [U8Code R] [DecidableEq R] {success : R}
    (isSuccess : R → Bool) (negative : R → EncodeError) {packetIdentifier : PacketIdentifier}
    {reasonCode : R} {other : AckOtherProperties} {slots : List Slot}
    (member : slots ∈ other.blocks) :
    (encodeAck success isSuccess negative packetIdentifier reasonCode other .v5).Contains
      (encodeProperties slots) := by
  unfold AckOtherProperties.blocks at member
  split at member
  · cases member
  · rename_i present
    obtain rfl := List.mem_singleton.mp member
    refine .right (.right ?_ _) _
    rw [if_pos (by simpa using present)]
    exact .refl _

theorem Connect.encode_contains {packet : Connect} {slots : List Slot}
    (member : slots ∈ (Packet.connect packet).propertyBlocks .v5) :
    (packet.encode .v5).Contains (encodeProperties slots) := by
  have rest : (packet.encodeRest .v5).Contains (encodeProperties slots) := by
    rcases List.mem_cons.mp member with rfl | ofWill
    · exact .left (.left (.left (.left (.right (.refl _) _) _) _) _) _
    · obtain ⟨⟨will, delay⟩, held, rfl⟩ := List.mem_map.mp ofWill
      rw [Connect.encodeRest, Option.mem_toList.mp held]
      exact .left (.left (.right (.left (.left (.left (.refl _) _) _) _) _) _) _
  exact rest.right _

/-- Every block is a part of the body. -/
theorem Packet.encodeBody_contains {packet : Packet} {version : ProtocolVersion}
    {slots : List Slot} (member : slots ∈ packet.propertyBlocks version) :
    (packet.encodeBody version).Contains (encodeProperties slots) := by
  cases version with
  | v3 => cases member
  | v5 =>
    cases packet with
    | auth packet =>
      obtain rfl := List.mem_singleton.mp member
      exact .right (.refl _) _
    | connAck packet =>
      obtain rfl := List.mem_singleton.mp member
      exact .right (.refl _) _
    | connect packet => exact Connect.encode_contains member
    | disconnect packet =>
      simp only [propertyBlocks] at member
      split at member
      · rename_i present
        obtain rfl := List.mem_singleton.mp member
        have v5 : ProtocolVersion.v5.isV5 = true := rfl
        rw [encodeBody, Disconnect.encode, if_pos v5, if_pos (.inr present), if_pos present]
        exact .right (.refl _) _
      · cases member
    | pingReq => cases member
    | pingResp => cases member
    | pubAck packet =>
      exact encodeAck_contains PubAckReasonCode.isSuccess .negativePubAck member
    | pubComp packet =>
      exact encodeAck_contains (fun reasonCode => decide (reasonCode = .success)) .negativePubComp
        member
    | publish packet =>
      obtain rfl := List.mem_singleton.mp member
      exact .left (.right (.refl _) _) _
    | pubRec packet =>
      exact encodeAck_contains PubRecReasonCode.isSuccess .negativePubRec member
    | pubRel packet =>
      exact encodeAck_contains (fun reasonCode => decide (reasonCode = .success)) .negativePubRel
        member
    | subAck packet =>
      obtain rfl := List.mem_singleton.mp member
      exact .left (.right (.refl _) _) _
    | subscribe packet =>
      obtain rfl := List.mem_singleton.mp member
      exact .left (.left (.right (.refl _) _) _) _
    | unsubAck packet =>
      obtain rfl := List.mem_singleton.mp member
      exact .right (.left (.refl _) _) _
    | unsubscribe packet =>
      obtain rfl := List.mem_singleton.mp member
      exact .left (.left (.right (.refl _) _) _) _

/-- A length field: read back, it is the number of these bytes. -/
def IsLengthOf (field content : Bytes) : Prop :=
  decodeRemainingLength.Reads field (some content.length)

theorem isLengthOf_remainingLength {content : Bytes} (small : content.length ≤ varintMax) :
    IsLengthOf (encodeRemainingLength content.length).items content :=
  (roundTrips_remainingLength (Nat.lt_succ_of_le small)).2

/-- A block of properties begins with the length of its properties. -/
theorem encodeProperties_length {slots : List Slot} (succeeds : (encodeProperties slots).Succeeds) :
    ∃ field, (encodeProperties slots).items =
        field ++ (Encoder.forEach (slots.flatMap Slot.properties) Property.encode).items ∧
      IsLengthOf field (Encoder.forEach (slots.flatMap Slot.properties) Property.encode).items := by
  obtain ⟨encodable, light⟩ := (Property.succeeds_encodeAll _).mp succeeds
  rw [← Property.size_forEach] at light
  refine ⟨_, ?_, isLengthOf_remainingLength light⟩
  rw [encodeProperties, Property.encodeAll_encodable encodable, ← Property.size_forEach]
  simp [Encoder.items, Encoder.append_def, Encoder.size]

/-- Every length field in the encoding of a packet is the number of bytes it stands for: the
rest of the packet, or the properties of its block. -/
structure Packet.ExactLengths (packet : Packet) (version : ProtocolVersion) : Prop where
  header : ∃ field, (packet.encode version).items =
      (packet.packetType ||| packet.flags) :: (field ++ (packet.encodeBody version).items) ∧
    IsLengthOf field (packet.encodeBody version).items
  blocks : ∀ slots ∈ packet.propertyBlocks version, ∃ before field after,
    (packet.encodeBody version).items =
      before ++ (field ++
        (Encoder.forEach (slots.flatMap Slot.properties) Property.encode).items) ++ after ∧
    IsLengthOf field (Encoder.forEach (slots.flatMap Slot.properties) Property.encode).items

theorem Packet.exactLengths {packet : Packet} {version : ProtocolVersion}
    (succeeds : (packet.encode version).Succeeds) : packet.ExactLengths version := by
  obtain ⟨body, small⟩ := (packet.succeeds_encode version).mp succeeds
  constructor
  · refine ⟨_, ?_, isLengthOf_remainingLength small⟩
    rw [encode_succeeds body]
    simp [Encoder.items, Encoder.append_def, Encoder.size, Encoder.put, tryPutU8, tryPutSlice,
      Put.items]
  · intro slots member
    have part := encodeBody_contains member
    obtain ⟨before, after, same⟩ := part.items
    obtain ⟨field, block, exact⟩ := encodeProperties_length (part.succeeds body)
    exact ⟨before, field, after, by rw [same, block], exact⟩

end MqttClient.Proto
