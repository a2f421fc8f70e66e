import MqttClient.Proto.Codes

/-! The packets of MQTT 3.1.1 and 5.0 as the codec represents them. -/

namespace MqttClient.Proto

structure NonZeroU16 where
  get : UInt16
  nonzero : get ≠ 0
  deriving DecidableEq, Repr

structure NonZeroU32 where
  get : UInt32
  nonzero : get ≠ 0
  deriving DecidableEq, Repr

def NonZeroU16.new (value : UInt16) : Option NonZeroU16 :=
  if nonzero : value ≠ 0 then some ⟨value, nonzero⟩ else none

def NonZeroU32.new (value : UInt32) : Option NonZeroU32 :=
  if nonzero : value ≠ 0 then some ⟨value, nonzero⟩ else none

def NonZeroU16.max : NonZeroU16 := ⟨65535, by decide⟩

def NonZeroU32.max : NonZeroU32 := ⟨4294967295, by decide⟩

/-- A packet identifier: sixteen bits that are not all zero. -/
structure PacketIdentifier where
  get : UInt16
  nonzero : get ≠ 0
  deriving DecidableEq, Repr

namespace PacketIdentifier

def new (raw : UInt16) : Option PacketIdentifier :=
  if nonzero : raw ≠ 0 then some ⟨raw, nonzero⟩ else none

def one : PacketIdentifier := ⟨1, by decide⟩

/-- Addition wraps around zero to one. -/
def add (identifier : PacketIdentifier) (other : UInt16) : PacketIdentifier :=
  match new (identifier.get + other) with
  | some result => result
  | none => one

theorem ext_toNat {left right : PacketIdentifier}
    (same : left.get.toNat = right.get.toNat) : left = right := by
  obtain ⟨left, leftNonzero⟩ := left
  obtain ⟨right, rightNonzero⟩ := right
  simp only [PacketIdentifier.mk.injEq]
  exact UInt16.toNat_inj.mp same

theorem toNat_pos (identifier : PacketIdentifier) :
    0 < identifier.get.toNat := by
  apply Nat.pos_of_ne_zero
  intro zero
  apply identifier.nonzero
  exact UInt16.toNat_inj.mp (by simpa using zero)

/-- Below the largest identifier, adding one is the successor. -/
theorem toNat_add_one {identifier bound : PacketIdentifier}
    (below : identifier.get.toNat < bound.get.toNat) :
    (identifier.add 1).get.toNat = identifier.get.toNat + 1 := by
  have small : bound.get.toNat < 65536 := bound.get.toNat_lt
  have sum : (identifier.get + 1).toNat = identifier.get.toNat + 1 := by
    rw [UInt16.toNat_add]
    exact Nat.mod_eq_of_lt (by simpa using (by omega : identifier.get.toNat + 1 < 65536))
  have nonzero : identifier.get + 1 ≠ 0 := by
    intro zero
    rw [zero] at sum
    simp at sum
  simp [PacketIdentifier.add, PacketIdentifier.new, nonzero, sum]

end PacketIdentifier

inductive KeepAlive where
  | infinite
  | duration (seconds : NonZeroU16)
  deriving DecidableEq, Repr

namespace KeepAlive

def ofU16 (value : UInt16) : KeepAlive :=
  match NonZeroU16.new value with
  | some seconds => .duration seconds
  | none => .infinite

def toU16 : KeepAlive → UInt16
  | .infinite => 0
  | .duration seconds => seconds.get

end KeepAlive

inductive SessionExpiryInterval where
  | infinite
  | duration (seconds : UInt32)
  deriving DecidableEq, Repr

namespace SessionExpiryInterval

def ofU32 (value : UInt32) : SessionExpiryInterval :=
  if value = 4294967295 then .infinite else .duration value

def toU32 : SessionExpiryInterval → UInt32
  | .infinite => 4294967295
  | .duration seconds => seconds

end SessionExpiryInterval

/-- The raw bytes of a binary field, the two-byte length included. -/
structure BinaryData where
  shared : Bytes
  deriving DecidableEq, Repr

namespace BinaryData

def asBytes (data : BinaryData) : Bytes := data.shared.drop 2

def isEmpty (data : BinaryData) : Bool := data.shared == [0, 0]

end BinaryData

/-- Binary data that holds text. -/
structure ByteStr where
  data : BinaryData
  deriving DecidableEq, Repr

namespace ByteStr

def asBytes (text : ByteStr) : Bytes := text.data.asBytes

def isEmpty (text : ByteStr) : Bool := text.data.isEmpty

end ByteStr

structure Topic where
  inner : ByteStr
  deriving DecidableEq, Repr

inductive FilterKind where
  | regular
  | dollar
  | shared (indexGroupNameAndFilter : Nat)
  deriving DecidableEq, Repr

structure Filter where
  inner : ByteStr
  kind : FilterKind
  deriving DecidableEq, Repr

namespace Filter

def isShared (filter : Filter) : Bool :=
  match filter.kind with
  | .shared _ => true
  | _ => false

end Filter

abbrev UserProperties := List (ByteStr × ByteStr)

structure Authentication where
  method : ByteStr
  data : Option BinaryData
  deriving DecidableEq, Repr

inductive PacketIdentifierDupQoS where
  | atMostOnce
  | atLeastOnce (packetIdentifier : PacketIdentifier) (dup : Bool)
  | exactlyOnce (packetIdentifier : PacketIdentifier) (dup : Bool)
  deriving DecidableEq, Repr

structure Auth where
  reasonCode : AuthenticateReasonCode
  authentication : Option Authentication
  reasonString : Option ByteStr
  userProperties : UserProperties
  deriving DecidableEq, Repr

inductive ConnectReasonCode where
  | success (sessionPresent : Bool)
  | refused (reason : ConnectionRefusedReason)
  deriving DecidableEq, Repr

structure ConnAckOtherProperties where
  sessionExpiryInterval : Option SessionExpiryInterval := none
  receiveMaximum : NonZeroU16 := .max
  maximumQoS : QoS := .exactlyOnce
  retainAvailable : Bool := true
  maximumPacketSize : NonZeroU32 := .max
  assignedClientId : Option ByteStr := none
  topicAliasMaximum : UInt16 := 0
  reasonString : Option ByteStr := none
  userProperties : UserProperties := []
  wildcardSubscriptionAvailable : Bool := true
  sharedSubscriptionAvailable : Bool := true
  subscriptionIdentifiersAvailable : Bool := true
  serverKeepAlive : Option KeepAlive := none
  responseInformation : Option ByteStr := none
  serverReference : Option ByteStr := none
  authentication : Option Authentication := none
  deriving DecidableEq, Repr

structure ConnAck where
  reasonCode : ConnectReasonCode
  otherProperties : ConnAckOtherProperties
  deriving DecidableEq, Repr

structure PublicationOtherProperties where
  payloadIsUtf8 : Bool := false
  messageExpiryInterval : Option UInt32 := none
  responseTopic : Option Topic := none
  correlationData : Option BinaryData := none
  userProperties : UserProperties := []
  contentType : Option ByteStr := none
  deriving DecidableEq, Repr

/-- A message without a packet identifier, as a will carries it. -/
structure Publication where
  topicName : Topic
  qos : QoS
  retain : Bool
  payload : Bytes
  otherProperties : PublicationOtherProperties
  deriving DecidableEq, Repr

structure ConnectOtherProperties where
  sessionExpiryInterval : SessionExpiryInterval := .duration 0
  receiveMaximum : NonZeroU16 := .max
  maximumPacketSize : NonZeroU32 := .max
  topicAliasMaximum : UInt16 := 0
  requestResponseInformation : Bool := false
  requestProblemInformation : Bool := true
  userProperties : UserProperties := []
  authentication : Option Authentication := none
  deriving DecidableEq, Repr

structure Connect where
  username : Option ByteStr
  password : Option BinaryData
  will : Option (Publication × UInt32)
  clientId : Option ByteStr
  cleanStart : Bool
  keepAlive : KeepAlive
  otherProperties : ConnectOtherProperties
  deriving DecidableEq, Repr

structure DisconnectOtherProperties where
  sessionExpiryInterval : Option SessionExpiryInterval := none
  reasonString : Option ByteStr := none
  userProperties : UserProperties := []
  serverReference : Option ByteStr := none
  deriving DecidableEq, Repr

structure Disconnect where
  reasonCode : DisconnectReasonCode
  otherProperties : DisconnectOtherProperties
  deriving DecidableEq, Repr

/-- The properties shared by the acknowledgements of every kind. -/
structure AckOtherProperties where
  reasonString : Option ByteStr := none
  userProperties : UserProperties := []
  deriving DecidableEq, Repr

abbrev PubAckOtherProperties := AckOtherProperties

structure PubAck where
  packetIdentifier : PacketIdentifier
  reasonCode : PubAckReasonCode
  otherProperties : PubAckOtherProperties
  deriving DecidableEq, Repr

abbrev PubRecOtherProperties := AckOtherProperties

structure PubRec where
  packetIdentifier : PacketIdentifier
  reasonCode : PubRecReasonCode
  otherProperties : PubRecOtherProperties
  deriving DecidableEq, Repr

abbrev PubRelOtherProperties := AckOtherProperties

structure PubRel where
  packetIdentifier : PacketIdentifier
  reasonCode : PubRelReasonCode
  otherProperties : PubRelOtherProperties
  deriving DecidableEq, Repr

abbrev PubCompOtherProperties := AckOtherProperties

structure PubComp where
  packetIdentifier : PacketIdentifier
  reasonCode : PubCompReasonCode
  otherProperties : PubCompOtherProperties
  deriving DecidableEq, Repr

structure PublishOtherProperties where
  payloadIsUtf8 : Bool := false
  messageExpiryInterval : Option UInt32 := none
  topicAlias : Option NonZeroU16 := none
  responseTopic : Option Topic := none
  correlationData : Option BinaryData := none
  userProperties : UserProperties := []
  subscriptionIdentifiers : List NonZeroU32 := []
  contentType : Option ByteStr := none
  deriving DecidableEq, Repr

structure Publish where
  topicName : Topic
  packetIdentifierDupQoS : PacketIdentifierDupQoS
  retain : Bool
  payload : Bytes
  otherProperties : PublishOtherProperties
  deriving DecidableEq, Repr

abbrev SubAckOtherProperties := AckOtherProperties

structure SubAck where
  packetIdentifier : PacketIdentifier
  reasonCodes : List SubscribeReasonCode
  otherProperties : SubAckOtherProperties
  deriving DecidableEq, Repr

structure SubscribeOptionsOtherProperties where
  noLocal : Bool := false
  retainAsPublished : Bool := true
  retainHandling : RetainHandling := .send
  deriving DecidableEq, Repr

structure SubscribeOptions where
  maximumQoS : QoS
  otherProperties : SubscribeOptionsOtherProperties
  deriving DecidableEq, Repr

structure SubscribeTo where
  topicFilter : Filter
  options : SubscribeOptions
  deriving DecidableEq, Repr

structure SubscribeOtherProperties where
  subscriptionIdentifier : Option NonZeroU32 := none
  userProperties : UserProperties := []
  deriving DecidableEq, Repr

structure Subscribe where
  packetIdentifier : PacketIdentifier
  subscribeTo : List SubscribeTo
  otherProperties : SubscribeOtherProperties
  deriving DecidableEq, Repr

abbrev UnsubAckOtherProperties := AckOtherProperties

structure UnsubAck where
  packetIdentifier : PacketIdentifier
  reasonCodes : List UnsubAckReasonCode
  otherProperties : UnsubAckOtherProperties
  deriving DecidableEq, Repr

structure UnsubscribeOtherProperties where
  userProperties : UserProperties := []
  deriving DecidableEq, Repr

structure Unsubscribe where
  packetIdentifier : PacketIdentifier
  unsubscribeFrom : List Filter
  otherProperties : UnsubscribeOtherProperties
  deriving DecidableEq, Repr

/-- An MQTT packet. -/
inductive Packet where
  | auth (packet : Auth)
  | connAck (packet : ConnAck)
  | connect (packet : Connect)
  | disconnect (packet : Disconnect)
  | pingReq
  | pingResp
  | pubAck (packet : PubAck)
  | pubComp (packet : PubComp)
  | publish (packet : Publish)
  | pubRec (packet : PubRec)
  | pubRel (packet : PubRel)
  | subAck (packet : SubAck)
  | subscribe (packet : Subscribe)
  | unsubAck (packet : UnsubAck)
  | unsubscribe (packet : Unsubscribe)
  deriving DecidableEq, Repr

end MqttClient.Proto
