import MqttClient.Proto.ConnectCodec

/-! The codec of PUBLISH and of the packets that acknowledge it. -/

namespace MqttClient.Proto

open Lib Decoding Encoding

namespace AckOtherProperties

def decode [UnicodeGeneralCategory] : Decoding AckOtherProperties := do
  let properties ← Property.decodeAll [.reasonString] [.userProperty]
  return {
    reasonString := Binding.reasonString.value properties
    userProperties := Binding.userProperty.values properties }

def slots (other : AckOtherProperties) : List Slot :=
  [Binding.reasonString.optional other.reasonString,
    Binding.userProperty.repeated other.userProperties]

def isDefault (other : AckOtherProperties) : Bool :=
  other.reasonString.isNone && other.userProperties.isEmpty

end AckOtherProperties

/-- The body of a PUBACK, PUBREC, PUBREL or PUBCOMP. Without a reason code it reports
success, and without a property length it has no properties. -/
def decodeAck [UnicodeGeneralCategory] {R α : Type} [U8Code R] (success : R)
    (packet : PacketIdentifier → R → AckOtherProperties → α) (version : ProtocolVersion) :
    Decoding α := do
  let packetIdentifier ← tryGetPacketIdentifier
  match version with
  | .v3 => return packet packetIdentifier success {}
  | .v5 =>
    match ← tryGetU8OrEnd with
    | some reasonCode =>
      let reasonCode ← tryInto R reasonCode
      if ← Decoder.isEmpty then return packet packetIdentifier reasonCode {}
      else return packet packetIdentifier reasonCode (← AckOtherProperties.decode)
    | none => return packet packetIdentifier success {}

/-- Version 3 has no reason codes, so it can only report success. -/
def encodeAck {R : Type} [U8Code R] [DecidableEq R] (success : R) (isSuccess : R → Bool)
    (negative : R → EncodeError) (packetIdentifier : PacketIdentifier) (reasonCode : R)
    (other : AckOtherProperties) (version : ProtocolVersion) : Encoding :=
  tryPutU16Be packetIdentifier.get ++
    match version with
    | .v3 => if !isSuccess reasonCode then refuse (negative reasonCode) else .skip
    | .v5 =>
      (if reasonCode ≠ success ∨ !other.isDefault then tryPutU8 (U8Code.toU8 reasonCode)
        else .skip) ++
        if !other.isDefault then encodeProperties other.slots else .skip

namespace PubAck

def packetType : UInt8 := 0x40

def decode [UnicodeGeneralCategory] (version : ProtocolVersion) : Decoding PubAck :=
  decodeAck PubAckReasonCode.success PubAck.mk version

def encode (packet : PubAck) (version : ProtocolVersion) : Encoding :=
  encodeAck .success PubAckReasonCode.isSuccess .negativePubAck packet.packetIdentifier
    packet.reasonCode packet.otherProperties version

end PubAck

namespace PubRec

def packetType : UInt8 := 0x50

def decode [UnicodeGeneralCategory] (version : ProtocolVersion) : Decoding PubRec :=
  decodeAck PubRecReasonCode.success PubRec.mk version

def encode (packet : PubRec) (version : ProtocolVersion) : Encoding :=
  encodeAck .success PubRecReasonCode.isSuccess .negativePubRec packet.packetIdentifier
    packet.reasonCode packet.otherProperties version

end PubRec

namespace PubRel

def packetType : UInt8 := 0x60

def decode [UnicodeGeneralCategory] (version : ProtocolVersion) : Decoding PubRel :=
  decodeAck PubRelReasonCode.success PubRel.mk version

def encode (packet : PubRel) (version : ProtocolVersion) : Encoding :=
  encodeAck .success (fun reasonCode => decide (reasonCode = .success)) .negativePubRel
    packet.packetIdentifier packet.reasonCode packet.otherProperties version

end PubRel

namespace PubComp

def packetType : UInt8 := 0x70

def decode [UnicodeGeneralCategory] (version : ProtocolVersion) : Decoding PubComp :=
  decodeAck PubCompReasonCode.success PubComp.mk version

def encode (packet : PubComp) (version : ProtocolVersion) : Encoding :=
  encodeAck .success (fun reasonCode => decide (reasonCode = .success)) .negativePubComp
    packet.packetIdentifier packet.reasonCode packet.otherProperties version

end PubComp

namespace Publish

def packetType : UInt8 := 0x30

def decodePacketIdentifierDupQoS (flags : UInt8) : Decoding PacketIdentifierDupQoS :=
  let dup := flags &&& 0x08 != 0
  match (flags &&& 0x06) >>> 1 with
  | 0x00 => if dup then reject .publishDupAtMostOnce else return .atMostOnce
  | 0x01 => return .atLeastOnce (← tryGetPacketIdentifier) dup
  | 0x02 => return .exactlyOnce (← tryGetPacketIdentifier) dup
  | qos => reject (.unrecognizedQoS qos)

def decodeOtherProperties [UnicodeGeneralCategory] : Decoding PublishOtherProperties := do
  let properties ← Property.decodeAll
    [.payloadIsUtf8, .messageExpiryInterval, .topicAlias, .responseTopic, .correlationData,
      .contentType]
    [.userProperty, .subscriptionIdentifier]
  return {
    payloadIsUtf8 := (Binding.payloadIsUtf8.value properties).getD false
    messageExpiryInterval := Binding.messageExpiryInterval.value properties
    topicAlias := Binding.topicAlias.value properties
    responseTopic := Binding.responseTopic.value properties
    correlationData := Binding.correlationData.value properties
    userProperties := Binding.userProperty.values properties
    subscriptionIdentifiers := Binding.subscriptionIdentifier.values properties
    contentType := Binding.contentType.value properties }

/-- All that is left of the body. -/
def decodePayload : Decoding Bytes := do
  let src ← Decoder.input
  splitTo src.length

def decode [UnicodeGeneralCategory] (flags : UInt8) (version : ProtocolVersion) :
    Decoding Publish := do
  let retain := flags &&& 0x01 != 0
  let topicName ← required Topic.decode
  let packetIdentifierDupQoS ← decodePacketIdentifierDupQoS flags
  match version with
  | .v3 =>
    let payload ← decodePayload
    return ⟨topicName, packetIdentifierDupQoS, retain, payload, {}⟩
  | .v5 =>
    let otherProperties ← decodeOtherProperties
    let payload ← decodePayload
    return ⟨topicName, packetIdentifierDupQoS, retain, payload, otherProperties⟩

def slots (other : PublishOtherProperties) : List Slot :=
  [Binding.payloadIsUtf8.once other.payloadIsUtf8,
    Binding.messageExpiryInterval.optional other.messageExpiryInterval,
    Binding.topicAlias.optional other.topicAlias,
    Binding.responseTopic.optional other.responseTopic,
    Binding.correlationData.optional other.correlationData,
    Binding.userProperty.repeated other.userProperties,
    Binding.subscriptionIdentifier.repeated other.subscriptionIdentifiers,
    Binding.contentType.optional other.contentType]

/-- The flags of the fixed header. -/
def flags (packet : Publish) : UInt8 :=
  (match packet.packetIdentifierDupQoS with
    | .atMostOnce => 0x00
    | .atLeastOnce _ true => 0x0A
    | .atLeastOnce _ false => 0x02
    | .exactlyOnce _ true => 0x0C
    | .exactlyOnce _ false => 0x04) |||
    if packet.retain then 0x01 else 0x00

def encodePacketIdentifier : PacketIdentifierDupQoS → Encoding
  | .atMostOnce => .skip
  | .atLeastOnce packetIdentifier _ => tryPutU16Be packetIdentifier.get
  | .exactlyOnce packetIdentifier _ => tryPutU16Be packetIdentifier.get

def encode (packet : Publish) (version : ProtocolVersion) : Encoding :=
  packet.topicName.encode ++ encodePacketIdentifier packet.packetIdentifierDupQoS ++
    (if version.isV5 then encodeProperties (slots packet.otherProperties) else .skip) ++
    putShared packet.payload

end Publish

end MqttClient.Proto
