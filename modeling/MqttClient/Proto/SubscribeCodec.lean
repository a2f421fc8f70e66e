import MqttClient.Proto.PublishCodec

/-! The codec of SUBSCRIBE and UNSUBSCRIBE and of their acknowledgements. -/

namespace MqttClient.Proto

open Lib Decoding Encoding

/-- One reason code for each byte that is left, at least one. -/
def decodeReasonCodes {R : Type} (tryFrom : UInt8 → Except Fault R) : Decoding (List R) := do
  let src ← Decoder.input
  let reasonCodes ← Decoder.ofExcept (src.mapM tryFrom)
  drain reasonCodes.length
  if reasonCodes.isEmpty then reject .noTopics
  else return reasonCodes

namespace SubscribeReasonCode

def tryFrom (version : ProtocolVersion) (code : UInt8) : Except Fault SubscribeReasonCode :=
  match version, code with
  | .v3, 0x00 => .ok .grantedQoS0
  | .v3, 0x01 => .ok .grantedQoS1
  | .v3, 0x02 => .ok .grantedQoS2
  | .v3, 0x80 => .ok .unspecifiedError
  | .v3, code => .error (.error (.unrecognizedQoS code))
  | .v5, code => (U8Code.tryFrom SubscribeReasonCode code).mapError .error

def toU8 : SubscribeReasonCode → ProtocolVersion → UInt8
  | .grantedQoS0, .v3 => 0x00
  | .grantedQoS1, .v3 => 0x01
  | .grantedQoS2, .v3 => 0x02
  | _, .v3 => 0x80
  | code, .v5 => U8Code.toU8 code

end SubscribeReasonCode

namespace SubAck

def packetType : UInt8 := 0x90

def decode [UnicodeGeneralCategory] (version : ProtocolVersion) : Decoding SubAck := do
  let packetIdentifier ← tryGetPacketIdentifier
  let otherProperties ← (match version with
    | .v3 => return {}
    | .v5 => AckOtherProperties.decode : Decoding AckOtherProperties)
  let reasonCodes ← decodeReasonCodes (SubscribeReasonCode.tryFrom version)
  return { packetIdentifier, reasonCodes, otherProperties }

def encode (packet : SubAck) (version : ProtocolVersion) : Encoding :=
  tryPutU16Be packet.packetIdentifier.get ++
    (if version.isV5 then encodeProperties packet.otherProperties.slots else .skip) ++
    .forEach packet.reasonCodes fun reasonCode => tryPutU8 (reasonCode.toU8 version)

end SubAck

namespace UnsubAck

def packetType : UInt8 := 0xB0

def decode [UnicodeGeneralCategory] (version : ProtocolVersion) : Decoding UnsubAck := do
  let packetIdentifier ← tryGetPacketIdentifier
  match version with
  | .v3 => return ⟨packetIdentifier, [], {}⟩
  | .v5 =>
    let otherProperties ← AckOtherProperties.decode
    let reasonCodes ← decodeReasonCodes fun code =>
      (U8Code.tryFrom UnsubAckReasonCode code).mapError .error
    return { packetIdentifier, reasonCodes, otherProperties }

def encode (packet : UnsubAck) (version : ProtocolVersion) : Encoding :=
  tryPutU16Be packet.packetIdentifier.get ++
    match version with
    | .v3 =>
      match packet.reasonCodes.find? fun reasonCode => !reasonCode.isSuccess with
      | some reasonCode => refuse (.negativeUnsubAck reasonCode)
      | none => .skip
    | .v5 =>
      encodeProperties packet.otherProperties.slots ++
        .forEach packet.reasonCodes fun reasonCode => tryPutU8 (U8Code.toU8 reasonCode)

end UnsubAck

namespace SubscribeOptions

def decode (version : ProtocolVersion) : Decoding SubscribeOptions :=
  match version with
  | .v3 => do
    match ← tryGetU8 with
    | 0x00 => return ⟨.atMostOnce, {}⟩
    | 0x01 => return ⟨.atLeastOnce, {}⟩
    | 0x02 => return ⟨.exactlyOnce, {}⟩
    | maximumQoS => reject (.unrecognizedQoS maximumQoS)
  | .v5 => do
    let options ← tryGetU8
    let maximumQoS ← tryInto QoS (options &&& 0x03)
    let noLocal := options &&& 0x04 != 0
    let retainAsPublished := options &&& 0x08 != 0
    let retainHandling ← tryInto RetainHandling ((options &&& 0x30) >>> 4)
    if options &&& 0xC0 ≠ 0 then reject .subscriptionOptionsReservedSet
    else return ⟨maximumQoS, ⟨noLocal, retainAsPublished, retainHandling⟩⟩

/-- The byte of the options. -/
def toU8 (options : SubscribeOptions) : ProtocolVersion → UInt8
  | .v3 => U8Code.toU8 options.maximumQoS
  | .v5 =>
    U8Code.toU8 options.maximumQoS |||
      (if options.otherProperties.noLocal then 0x04 else 0x00 : UInt8) |||
      (if options.otherProperties.retainAsPublished then 0x08 else 0x00 : UInt8) |||
      (U8Code.toU8 options.otherProperties.retainHandling <<< 4)

def encode (options : SubscribeOptions) (version : ProtocolVersion) : Encoding :=
  tryPutU8 (options.toU8 version)

end SubscribeOptions

namespace SubscribeTo

def decode [UnicodeGeneralCategory] (version : ProtocolVersion) : Decoding SubscribeTo := do
  let topicFilter ← required Filter.decode
  let options ← SubscribeOptions.decode version
  if topicFilter.isShared && options.otherProperties.noLocal then
    reject .noLocalWithSharedSubscription
  else return { topicFilter, options }

def encode (subscribeTo : SubscribeTo) (version : ProtocolVersion) : Encoding :=
  subscribeTo.topicFilter.encode ++ subscribeTo.options.encode version

end SubscribeTo

namespace SubscribeOtherProperties

def decode [UnicodeGeneralCategory] (version : ProtocolVersion) :
    Decoding SubscribeOtherProperties :=
  match version with
  | .v3 => return {}
  | .v5 => do
    let properties ← Property.decodeAll [.subscriptionIdentifier] [.userProperty]
    return {
      subscriptionIdentifier := Binding.subscriptionIdentifier.value properties
      userProperties := Binding.userProperty.values properties }

def slots (other : SubscribeOtherProperties) : List Slot :=
  [Binding.subscriptionIdentifier.optional other.subscriptionIdentifier,
    Binding.userProperty.repeated other.userProperties]

def encode (other : SubscribeOtherProperties) (version : ProtocolVersion) : Encoding :=
  if version.isV5 then encodeProperties other.slots else .skip

end SubscribeOtherProperties

/-- Items up to the end of the body, at least one. -/
def decodeTopics {α : Type} (item : Decoding α) : Decoding (List α) := do
  let topics ← Decoder.collect .diverge fun _ => item
  if topics.isEmpty then reject .noTopics
  else return topics

namespace Subscribe

def packetType : UInt8 := 0x80

def decode [UnicodeGeneralCategory] (version : ProtocolVersion) : Decoding Subscribe := do
  let packetIdentifier ← tryGetPacketIdentifier
  let otherProperties ← SubscribeOtherProperties.decode version
  let subscribeTo ← decodeTopics (SubscribeTo.decode version)
  return { packetIdentifier, subscribeTo, otherProperties }

def encode (packet : Subscribe) (version : ProtocolVersion) : Encoding :=
  tryPutU16Be packet.packetIdentifier.get ++ packet.otherProperties.encode version ++
    (if packet.subscribeTo.isEmpty then refuse .noTopics else .skip) ++
    .forEach packet.subscribeTo fun subscribeTo => subscribeTo.encode version

end Subscribe

namespace Unsubscribe

def packetType : UInt8 := 0xA0

def decode [UnicodeGeneralCategory] (version : ProtocolVersion) : Decoding Unsubscribe := do
  let packetIdentifier ← tryGetPacketIdentifier
  let otherProperties ← (match version with
    | .v3 => return {}
    | .v5 => do
      let properties ← Property.decodeAll [] [.userProperty]
      return ⟨Binding.userProperty.values properties⟩ : Decoding UnsubscribeOtherProperties)
  let unsubscribeFrom ← decodeTopics (required Filter.decode)
  return { packetIdentifier, unsubscribeFrom, otherProperties }

def encode (packet : Unsubscribe) (version : ProtocolVersion) : Encoding :=
  tryPutU16Be packet.packetIdentifier.get ++
    (if version.isV5 then
      encodeProperties [Binding.userProperty.repeated packet.otherProperties.userProperties]
    else .skip) ++
    (if packet.unsubscribeFrom.isEmpty then refuse .noTopics else .skip) ++
    .forEach packet.unsubscribeFrom Filter.encode

end Unsubscribe

end MqttClient.Proto
