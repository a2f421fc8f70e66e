import MqttClient.Proto.ConnectSpec
import MqttClient.Proto.PublishCodec

/-! PUBLISH and the packets that acknowledge it: a well-formed packet is read back, and
what is read is well formed and put again into no more bytes. -/

namespace MqttClient.Proto

open Lib Decoding Encoding

namespace AckOtherProperties

theorem layout (other : AckOtherProperties) :
    Layout [.reasonString] [.userProperty] other.slots where
  distinct := (by decide : List.Nodup [PropertyKind.reasonString, .userProperty])
  fits := by simp (disch := decide) [slots, Slot.fits_optional, Slot.fits_repeated]

theorem eq_default {other : AckOtherProperties} (bare : other.isDefault = true) : other = {} := by
  obtain ⟨reasonString, userProperties⟩ := other
  simp_all [isDefault]

variable [UnicodeGeneralCategory]

theorem roundTrips {other : AckOtherProperties} (formed : ∀ slot ∈ other.slots, slot.WellFormed)
    (small : (encodeProperties other.slots).size ≤ 268435455) :
    RoundTrips (encodeProperties other.slots) AckOtherProperties.decode other := by
  have layout := other.layout
  refine (layout.roundTrips formed small).finish ?_
  have reasonString : Binding.reasonString.value (wire other.slots) = other.reasonString :=
    layout.value_optional (by simp [slots]) fun _ => rfl
  have userProperties : Binding.userProperty.values (wire other.slots) = other.userProperties :=
    layout.values_repeated (by simp [slots]) fun _ => rfl
  simp only [reasonString, userProperties]
  exact .pure other

theorem ensures : AckOtherProperties.decode.Ensures fun other used =>
    (∀ slot ∈ other.slots, slot.WellFormed) ∧ (encodeProperties other.slots).size ≤ used := by
  refine Property.ensures_all.bind fun properties block read => .pure ?_
  refine Slot.drawn_fits read (layout _).distinct ?_
  simp [slots, Slot.drawn_optional read.formed, Slot.drawn_repeated read.formed]

theorem wellFormed_default : ∀ slot ∈ slots {}, slot.WellFormed := by
  simp [slots, Slot.WellFormed, Binding.optional, Binding.repeated]

end AckOtherProperties

section Ack

variable [UnicodeGeneralCategory] {R α : Type} [U8Code R] [DecidableEq R]

/-- An acknowledgement that the wire can carry. In version 3 it is bare. -/
def AckFormed (success reasonCode : R) (other : AckOtherProperties) : ProtocolVersion → Prop
  | .v3 => reasonCode = success ∧ other = {}
  | .v5 => ∀ slot ∈ other.slots, slot.WellFormed

variable {success : R} {isSuccess : R → Bool} {negative : R → EncodeError}
  {packet : PacketIdentifier → R → AckOtherProperties → α}

theorem roundTrips_ack {packetIdentifier : PacketIdentifier} {reasonCode : R}
    {other : AckOtherProperties} {version : ProtocolVersion} (succeeds : isSuccess success = true)
    (formed : AckFormed success reasonCode other version)
    (small : (encodeAck success isSuccess negative packetIdentifier reasonCode other
      version).size ≤ 268435455) :
    RoundTripsAll
      (encodeAck success isSuccess negative packetIdentifier reasonCode other version)
      (decodeAck success packet version) (packet packetIdentifier reasonCode other) := by
  refine (roundTrips_packetIdentifier packetIdentifier).appendAll ?_
  cases version with
  | v3 =>
    obtain ⟨rfl, rfl⟩ := formed
    simp only [succeeds, Bool.not_true, Bool.false_eq_true, if_false]
    exact (RoundTrips.skip (.pure _)).all
  | v5 =>
    simp only [encodeAck, Encoder.size_append] at small
    cases bare : other.isDefault with
    | false =>
      simp only [bare, Bool.not_false, or_true, if_true] at small ⊢
      have block : (encodeProperties other.slots).size ≤ 268435455 := by omega
      refine RoundTrips.all ((roundTrips_u8OrEnd _).append (.pass (reads_tryInto reasonCode) ?_))
      refine .bindIsEmpty (other.layout.items_ne_nil formed block) ?_
      exact (AckOtherProperties.roundTrips formed block).finish (.pure _)
    | true =>
      obtain rfl := AckOtherProperties.eq_default bare
      dsimp only
      by_cases same : reasonCode = success
      · rw [if_neg (by simp [same]), if_neg (by simp), same]
        exact .atEnd rfl
      · rw [if_pos (.inl same), if_neg (by simp)]
        exact (roundTrips_u8OrEnd _).appendAll (.pass (reads_tryInto reasonCode) (.atEnd rfl))

omit [UnicodeGeneralCategory] in
theorem size_encodeAck_bare (packetIdentifier : PacketIdentifier) :
    (encodeAck success isSuccess negative packetIdentifier success {} .v5).size = 2 := by
  simp [encodeAck, AckOtherProperties.isDefault]

omit [UnicodeGeneralCategory] in
theorem size_encodeAck (packetIdentifier : PacketIdentifier) (reasonCode : R)
    (other : AckOtherProperties) :
    (encodeAck success isSuccess negative packetIdentifier reasonCode other .v5).size ≤
      3 + if other.isDefault then 0 else (encodeProperties other.slots).size := by
  cases bare : other.isDefault with
  | false =>
    simp [encodeAck, bare]
    omega
  | true =>
    simp only [encodeAck, bare, Encoder.size_append, size_u16]
    split <;> simp

/-- What is said of the fields of an acknowledgement that was read holds of the packet. -/
theorem ensures_ack (version : ProtocolVersion) {post : α → Nat → Prop}
    (succeeds : isSuccess success = true)
    (packed : ∀ packetIdentifier reasonCode other used,
      AckFormed success reasonCode other version →
      (encodeAck success isSuccess negative packetIdentifier reasonCode other version).size ≤ used →
      post (packet packetIdentifier reasonCode other) used) :
    (decodeAck success packet version).Ensures post := by
  refine ensures_packetIdentifier.bind fun packetIdentifier a two => ?_
  cases version with
  | v3 => exact .pure (packed _ _ _ _ ⟨rfl, rfl⟩ (by simp [encodeAck, succeeds, two]))
  | v5 =>
    have bare := AckOtherProperties.wellFormed_default
    refine ensures_u8OrEnd.bind fun outcome b read => ?_
    rcases read with ⟨rfl, rfl⟩ | ⟨code, rfl, rfl⟩
    · exact .pure (packed _ _ _ _ bare (by rw [size_encodeAck_bare]; omega))
    · refine (ensures_tryInto code).bind fun reasonCode c zero => ?_
      refine .bindIsEmpty fun empty => ?_
      split
      · refine .pure (packed _ _ _ _ bare (Nat.le_trans (size_encodeAck _ _ _) ?_))
        simp only [AckOtherProperties.isDefault, Option.isNone_none, List.isEmpty_nil,
          Bool.and_self, if_true]
        omega
      · refine AckOtherProperties.ensures.bind fun other d holds => ?_
        refine .pure (packed _ _ _ _ holds.1 (Nat.le_trans (size_encodeAck _ _ _) ?_))
        have size := holds.2
        split <;> omega

end Ack

namespace PubAck

variable [UnicodeGeneralCategory]

def WellFormed (packet : PubAck) (version : ProtocolVersion) : Prop :=
  AckFormed .success packet.reasonCode packet.otherProperties version

theorem roundTrips {packet : PubAck} {version : ProtocolVersion}
    (formed : packet.WellFormed version) (small : (packet.encode version).size ≤ 268435455) :
    RoundTripsAll (packet.encode version) (PubAck.decode version) packet :=
  roundTrips_ack rfl formed small

theorem ensures (version : ProtocolVersion) : (PubAck.decode version).Ensures fun packet used =>
    packet.WellFormed version ∧ (packet.encode version).size ≤ used :=
  ensures_ack version rfl fun _ _ _ _ formed size => ⟨formed, size⟩

end PubAck

namespace PubRec

variable [UnicodeGeneralCategory]

def WellFormed (packet : PubRec) (version : ProtocolVersion) : Prop :=
  AckFormed .success packet.reasonCode packet.otherProperties version

theorem roundTrips {packet : PubRec} {version : ProtocolVersion}
    (formed : packet.WellFormed version) (small : (packet.encode version).size ≤ 268435455) :
    RoundTripsAll (packet.encode version) (PubRec.decode version) packet :=
  roundTrips_ack rfl formed small

theorem ensures (version : ProtocolVersion) : (PubRec.decode version).Ensures fun packet used =>
    packet.WellFormed version ∧ (packet.encode version).size ≤ used :=
  ensures_ack version rfl fun _ _ _ _ formed size => ⟨formed, size⟩

end PubRec

namespace PubRel

variable [UnicodeGeneralCategory]

def WellFormed (packet : PubRel) (version : ProtocolVersion) : Prop :=
  AckFormed .success packet.reasonCode packet.otherProperties version

theorem roundTrips {packet : PubRel} {version : ProtocolVersion}
    (formed : packet.WellFormed version) (small : (packet.encode version).size ≤ 268435455) :
    RoundTripsAll (packet.encode version) (PubRel.decode version) packet :=
  roundTrips_ack rfl formed small

theorem ensures (version : ProtocolVersion) : (PubRel.decode version).Ensures fun packet used =>
    packet.WellFormed version ∧ (packet.encode version).size ≤ used :=
  ensures_ack version rfl fun _ _ _ _ formed size => ⟨formed, size⟩

end PubRel

namespace PubComp

variable [UnicodeGeneralCategory]

def WellFormed (packet : PubComp) (version : ProtocolVersion) : Prop :=
  AckFormed .success packet.reasonCode packet.otherProperties version

theorem roundTrips {packet : PubComp} {version : ProtocolVersion}
    (formed : packet.WellFormed version) (small : (packet.encode version).size ≤ 268435455) :
    RoundTripsAll (packet.encode version) (PubComp.decode version) packet :=
  roundTrips_ack rfl formed small

theorem ensures (version : ProtocolVersion) : (PubComp.decode version).Ensures fun packet used =>
    packet.WellFormed version ∧ (packet.encode version).size ≤ used :=
  ensures_ack version rfl fun _ _ _ _ formed size => ⟨formed, size⟩

end PubComp

namespace Publish

theorem layout (other : PublishOtherProperties) :
    Layout
      [.payloadIsUtf8, .messageExpiryInterval, .topicAlias, .responseTopic, .correlationData,
        .contentType]
      [.userProperty, .subscriptionIdentifier] (slots other) where
  distinct := (by decide : List.Nodup [PropertyKind.payloadIsUtf8, .messageExpiryInterval,
    .topicAlias, .responseTopic, .correlationData, .userProperty, .subscriptionIdentifier,
    .contentType])
  fits := by
    simp (disch := decide) [slots, Slot.fits_optional, Slot.fits_once, Slot.fits_repeated]

variable [UnicodeGeneralCategory]

structure WellFormed (packet : Publish) (version : ProtocolVersion) : Prop where
  topicName : packet.topicName.WellFormed
  properties :
    match version with
    | .v3 => packet.otherProperties = {}
    | .v5 => ∀ slot ∈ slots packet.otherProperties, slot.WellFormed

theorem roundTrips_otherProperties {other : PublishOtherProperties}
    (formed : ∀ slot ∈ slots other, slot.WellFormed)
    (small : (encodeProperties (slots other)).size ≤ 268435455) :
    RoundTrips (encodeProperties (slots other)) decodeOtherProperties other := by
  have layout := layout other
  refine (layout.roundTrips formed small).finish ?_
  have payloadIsUtf8 : (Binding.payloadIsUtf8.value (wire (slots other))).getD false =
      other.payloadIsUtf8 :=
    layout.value_once (by simp [slots]) (Binding.omits_flag rfl rfl)
  have messageExpiryInterval : Binding.messageExpiryInterval.value (wire (slots other)) =
      other.messageExpiryInterval :=
    layout.value_optional (by simp [slots]) fun _ => rfl
  have topicAlias : Binding.topicAlias.value (wire (slots other)) = other.topicAlias :=
    layout.value_optional (by simp [slots]) fun _ => rfl
  have responseTopic : Binding.responseTopic.value (wire (slots other)) = other.responseTopic :=
    layout.value_optional (by simp [slots]) fun _ => rfl
  have correlationData : Binding.correlationData.value (wire (slots other)) =
      other.correlationData :=
    layout.value_optional (by simp [slots]) fun _ => rfl
  have userProperties : Binding.userProperty.values (wire (slots other)) =
      other.userProperties :=
    layout.values_repeated (by simp [slots]) fun _ => rfl
  have subscriptionIdentifiers : Binding.subscriptionIdentifier.values (wire (slots other)) =
      other.subscriptionIdentifiers :=
    layout.values_repeated (by simp [slots]) fun _ => rfl
  have contentType : Binding.contentType.value (wire (slots other)) = other.contentType :=
    layout.value_optional (by simp [slots]) fun _ => rfl
  simp only [payloadIsUtf8, messageExpiryInterval, topicAlias, responseTopic, correlationData,
    userProperties, subscriptionIdentifiers, contentType]
  exact .pure other

theorem ensures_otherProperties : decodeOtherProperties.Ensures fun other used =>
    (∀ slot ∈ slots other, slot.WellFormed) ∧ (encodeProperties (slots other)).size ≤ used := by
  refine Property.ensures_all.bind fun properties block read => .pure ?_
  refine Slot.drawn_fits read (layout _).distinct ?_
  simp only [slots, List.forall_mem_cons, List.not_mem_nil, false_implies, implies_true,
    Slot.drawn_optional read.formed, Slot.drawn_repeated read.formed, and_true]
  exact Slot.drawn_once read.formed trivial rfl

omit [UnicodeGeneralCategory] in
/-- The flags carry what the decoder takes from them. -/
theorem flags_read (packet : Publish) :
    (packet.flags &&& 0x01 != 0) = packet.retain ∧
      match packet.packetIdentifierDupQoS with
      | .atMostOnce => (packet.flags &&& 0x08 != 0) = false ∧ (packet.flags &&& 0x06) >>> 1 = 0x00
      | .atLeastOnce _ dup =>
        (packet.flags &&& 0x08 != 0) = dup ∧ (packet.flags &&& 0x06) >>> 1 = 0x01
      | .exactlyOnce _ dup =>
        (packet.flags &&& 0x08 != 0) = dup ∧ (packet.flags &&& 0x06) >>> 1 = 0x02 := by
  unfold flags
  generalize packet.retain = retain
  cases packet.packetIdentifierDupQoS with
  | atMostOnce =>
    revert retain
    decide
  | atLeastOnce packetIdentifier dup =>
    cases dup <;> dsimp only <;> revert retain <;> decide
  | exactlyOnce packetIdentifier dup =>
    cases dup <;> dsimp only <;> revert retain <;> decide

omit [UnicodeGeneralCategory] in
theorem roundTrips_packetIdentifierDupQoS (packet : Publish) :
    RoundTrips (encodePacketIdentifier packet.packetIdentifierDupQoS)
      (decodePacketIdentifierDupQoS packet.flags) packet.packetIdentifierDupQoS := by
  have read := packet.flags_read.2
  cases delivery : packet.packetIdentifierDupQoS with
  | atMostOnce =>
    simp only [delivery] at read
    simp only [decodePacketIdentifierDupQoS, read.1, read.2]
    exact .skip (.pure _)
  | atLeastOnce packetIdentifier dup =>
    simp only [delivery] at read
    simp only [decodePacketIdentifierDupQoS, read.1, read.2]
    exact (roundTrips_packetIdentifier packetIdentifier).finish (.pure _)
  | exactlyOnce packetIdentifier dup =>
    simp only [delivery] at read
    simp only [decodePacketIdentifierDupQoS, read.1, read.2]
    exact (roundTrips_packetIdentifier packetIdentifier).finish (.pure _)

omit [UnicodeGeneralCategory] in
theorem roundTrips_payload (payload : Bytes) :
    RoundTripsAll (putShared payload) decodePayload payload := by
  refine (Encoder.Emits.shared payload).roundTripsAll ?_
  simp [Decoder.ReadsAll, decodePayload, Decoder.bind_apply, Decoder.input, splitTo]

omit [UnicodeGeneralCategory] in
theorem ensures_payload : decodePayload.Ensures fun payload used => payload.length = used :=
  .bindInput fun src => (ensures_splitTo src.length).mono fun _ _ holds => holds.2.trans holds.1.symm

omit [UnicodeGeneralCategory] in
theorem ensures_packetIdentifierDupQoS (flags : UInt8) :
    (decodePacketIdentifierDupQoS flags).Ensures fun delivery used =>
      (encodePacketIdentifier delivery).size = used := by
  unfold decodePacketIdentifierDupQoS
  dsimp only
  split
  · split
    · exact .fail
    · exact .pure rfl
  · exact ensures_packetIdentifier.bind fun _ _ two => .pure two.symm
  · exact ensures_packetIdentifier.bind fun _ _ two => .pure two.symm
  · exact .fail

theorem roundTrips {packet : Publish} {version : ProtocolVersion}
    (formed : packet.WellFormed version) (small : (packet.encode version).size ≤ 268435455) :
    RoundTripsAll (packet.encode version) (Publish.decode packet.flags version) packet := by
  have topicName := roundTrips_required (Topic.roundTrips formed.topicName)
  have retain := packet.flags_read.1
  simp only [encode, Encoder.append_assoc, Encoder.size_append] at small ⊢
  refine topicName.appendAll ((roundTrips_packetIdentifierDupQoS packet).appendAll ?_)
  cases version with
  | v3 =>
    refine (roundTrips_payload packet.payload).finish ?_
    rw [retain, ← show packet.otherProperties = {} from formed.properties]
    exact .pure packet
  | v5 =>
    simp only [ProtocolVersion.isV5, if_true] at small ⊢
    refine (roundTrips_otherProperties formed.properties (by omega)).appendAll ?_
    refine (roundTrips_payload packet.payload).finish ?_
    rw [retain]
    exact .pure packet

theorem ensures (flags : UInt8) (version : ProtocolVersion) :
    (Publish.decode flags version).Ensures fun packet used =>
      packet.WellFormed version ∧ (packet.encode version).size ≤ used := by
  refine (ensures_required Topic.ensures).bind fun topicName a topic => ?_
  refine (ensures_packetIdentifierDupQoS flags).bind fun delivery b identifier => ?_
  have front := topic.2
  cases version with
  | v3 =>
    refine ensures_payload.bind fun payload c tail => .pure ⟨⟨topic.1, rfl⟩, ?_⟩
    simp only [encode, Encoder.size_append, Topic.size_encode, ProtocolVersion.isV5,
      Bool.false_eq_true, if_false, Encoder.size_skip, size_shared]
    omega
  | v5 =>
    refine ensures_otherProperties.bind fun other c properties => ?_
    refine ensures_payload.bind fun payload d tail => .pure ⟨⟨topic.1, properties.1⟩, ?_⟩
    have block := properties.2
    simp only [encode, Encoder.size_append, Topic.size_encode, ProtocolVersion.isV5, if_true,
      size_shared]
    omega

end Publish

end MqttClient.Proto
