import MqttClient.Proto.Primitive

/-! The properties of MQTT 5.0 and the blocks they stand in. -/

namespace MqttClient.Proto

open Lib Decoding Encoding

inductive PropertyKind where
  | assignedClientIdentifier
  | authenticationData
  | authenticationMethod
  | connectSessionExpiryInterval
  | contentType
  | correlationData
  | maximumPacketSize
  | maximumQoS
  | messageExpiryInterval
  | payloadIsUtf8
  | reasonString
  | receiveMaximum
  | requestProblemInformation
  | requestResponseInformation
  | responseInformation
  | responseTopic
  | retainAvailable
  | serverKeepAlive
  | serverReference
  | sessionExpiryInterval
  | sharedSubscriptionAvailable
  | subscriptionIdentifier
  | subscriptionIdentifiersAvailable
  | topicAlias
  | topicAliasMaximum
  | userProperty
  | wildcardSubscriptionAvailable
  | willDelayInterval
  deriving DecidableEq, Repr

/-- The name of a property in errors. -/
def PropertyKind.name : PropertyKind → String
  | .assignedClientIdentifier => "AssignedClientIdentifier"
  | .authenticationData => "AuthenticationData"
  | .authenticationMethod => "AuthenticationMethod"
  | .connectSessionExpiryInterval => "ConnectSessionExpiryInterval"
  | .contentType => "ContentType"
  | .correlationData => "CorrelationData"
  | .maximumPacketSize => "MaximumPacketSize"
  | .maximumQoS => "MaximumQoS"
  | .messageExpiryInterval => "MessageExpiryInterval"
  | .payloadIsUtf8 => "PayloadIsUtf8"
  | .reasonString => "ReasonString"
  | .receiveMaximum => "ReceiveMaximum"
  | .requestProblemInformation => "RequestProblemInformation"
  | .requestResponseInformation => "RequestResponseInformation"
  | .responseInformation => "ResponseInformation"
  | .responseTopic => "ResponseTopic"
  | .retainAvailable => "RetainAvailable"
  | .serverKeepAlive => "ServerKeepAlive"
  | .serverReference => "ServerReference"
  | .sessionExpiryInterval => "SessionExpiryInterval"
  | .sharedSubscriptionAvailable => "SharedSubscriptionAvailable"
  | .subscriptionIdentifier => "SubscriptionIdentifier"
  | .subscriptionIdentifiersAvailable => "SubscriptionIdentifiersAvailable"
  | .topicAlias => "TopicAlias"
  | .topicAliasMaximum => "TopicAliasMaximum"
  | .userProperty => "UserProperty"
  | .wildcardSubscriptionAvailable => "WildcardSubscriptionAvailable"
  | .willDelayInterval => "WillDelayInterval"

inductive Property where
  | assignedClientIdentifier (clientId : ByteStr)
  | authenticationData (data : BinaryData)
  | authenticationMethod (method : ByteStr)
  | connectSessionExpiryInterval (interval : SessionExpiryInterval)
  | contentType (text : ByteStr)
  | correlationData (data : BinaryData)
  | maximumPacketSize (value : NonZeroU32)
  | maximumQoS (qos : QoS)
  | messageExpiryInterval (interval : UInt32)
  | payloadIsUtf8 (isUtf8 : Bool)
  | reasonString (reason : ByteStr)
  | receiveMaximum (value : NonZeroU16)
  | requestProblemInformation (requested : Bool)
  | requestResponseInformation (requested : Bool)
  | responseInformation (information : ByteStr)
  | responseTopic (topic : Topic)
  | retainAvailable (available : Bool)
  | serverKeepAlive (keepAlive : KeepAlive)
  | serverReference (reference : ByteStr)
  | sessionExpiryInterval (interval : SessionExpiryInterval)
  | sharedSubscriptionAvailable (available : Bool)
  | subscriptionIdentifier (identifier : NonZeroU32)
  | subscriptionIdentifiersAvailable (available : Bool)
  | topicAlias (value : NonZeroU16)
  | topicAliasMaximum (value : UInt16)
  | userProperty (name value : ByteStr)
  | wildcardSubscriptionAvailable (available : Bool)
  | willDelayInterval (interval : UInt32)
  deriving DecidableEq, Repr

namespace Property

def kind : Property → PropertyKind
  | .assignedClientIdentifier _ => .assignedClientIdentifier
  | .authenticationData _ => .authenticationData
  | .authenticationMethod _ => .authenticationMethod
  | .connectSessionExpiryInterval _ => .connectSessionExpiryInterval
  | .contentType _ => .contentType
  | .correlationData _ => .correlationData
  | .maximumPacketSize _ => .maximumPacketSize
  | .maximumQoS _ => .maximumQoS
  | .messageExpiryInterval _ => .messageExpiryInterval
  | .payloadIsUtf8 _ => .payloadIsUtf8
  | .reasonString _ => .reasonString
  | .receiveMaximum _ => .receiveMaximum
  | .requestProblemInformation _ => .requestProblemInformation
  | .requestResponseInformation _ => .requestResponseInformation
  | .responseInformation _ => .responseInformation
  | .responseTopic _ => .responseTopic
  | .retainAvailable _ => .retainAvailable
  | .serverKeepAlive _ => .serverKeepAlive
  | .serverReference _ => .serverReference
  | .sessionExpiryInterval _ => .sessionExpiryInterval
  | .sharedSubscriptionAvailable _ => .sharedSubscriptionAvailable
  | .subscriptionIdentifier _ => .subscriptionIdentifier
  | .subscriptionIdentifiersAvailable _ => .subscriptionIdentifiersAvailable
  | .topicAlias _ => .topicAlias
  | .topicAliasMaximum _ => .topicAliasMaximum
  | .userProperty _ _ => .userProperty
  | .wildcardSubscriptionAvailable _ => .wildcardSubscriptionAvailable
  | .willDelayInterval _ => .willDelayInterval

/-- A flag of one byte. -/
def decodeBool (unrecognized : UInt8 → DecodeError) : Decoding Bool := do
  match ← tryGetU8 with
  | 0x00 => return false
  | 0x01 => return true
  | value => reject (unrecognized value)

/-- A sixteen-bit value that is not zero. -/
def decodeNonZeroU16 (invalid : UInt16 → DecodeError) : Decoding NonZeroU16 := do
  let value ← tryGetU16Be
  match NonZeroU16.new value with
  | some value => return value
  | none => reject (invalid value)

def decodeSubscriptionIdentifier : Decoding NonZeroU32 := scan do
  let varint ← required decodeVarint
  match NonZeroU32.new varint with
  | some value => return value
  | none => reject (.invalidSubscriptionIdentifier varint)

/-- The value of the property with this identifier. -/
def decodeValue [UnicodeGeneralCategory] (identifier : UInt8) : Decoding Property :=
  match identifier with
  | 0x01 => return .payloadIsUtf8 (← decodeBool .unrecognizedPayloadFormatIndicator)
  | 0x02 => return .messageExpiryInterval (← tryGetU32Be)
  | 0x03 => return .contentType (← required ByteStr.decode)
  | 0x08 => return .responseTopic (← required Topic.decode)
  | 0x09 => return .correlationData (← required BinaryData.decode)
  | 0x0B => return .subscriptionIdentifier (← decodeSubscriptionIdentifier)
  | 0x11 => return .sessionExpiryInterval (.ofU32 (← tryGetU32Be))
  | 0x12 => return .assignedClientIdentifier (← required ByteStr.decode)
  | 0x13 => return .serverKeepAlive (.ofU16 (← tryGetU16Be))
  | 0x15 => return .authenticationMethod (← required ByteStr.decode)
  | 0x16 => return .authenticationData (← required BinaryData.decode)
  | 0x17 => do
    let flag ← decodeBool .unrecognizedRequestProblemInformation
    return .requestProblemInformation flag
  | 0x18 => return .willDelayInterval (← tryGetU32Be)
  | 0x19 => do
    let flag ← decodeBool .unrecognizedRequestResponseInformation
    return .requestResponseInformation flag
  | 0x1A => return .responseInformation (← required ByteStr.decode)
  | 0x1C => return .serverReference (← required ByteStr.decode)
  | 0x1F => return .reasonString (← required ByteStr.decode)
  | 0x21 => return .receiveMaximum (← decodeNonZeroU16 .invalidReceiveMaximum)
  | 0x22 => return .topicAliasMaximum (← tryGetU16Be)
  | 0x23 => return .topicAlias (← decodeNonZeroU16 .invalidTopicAlias)
  | 0x24 => do
    match ← tryGetU8 with
    | 0x00 => return .maximumQoS .atMostOnce
    | 0x01 => return .maximumQoS .atLeastOnce
    | value => reject (.unrecognizedMaximumQoS value)
  | 0x25 => return .retainAvailable (← decodeBool .unrecognizedRetainAvailable)
  | 0x26 => do
    let name ← required ByteStr.decode
    let value ← required ByteStr.decode
    return .userProperty name value
  | 0x27 => do
    let value ← tryGetU32Be
    match NonZeroU32.new value with
    | some value => return .maximumPacketSize value
    | none => reject (.invalidMaximumPacketSize value)
  | 0x28 => do
    let flag ← decodeBool .unrecognizedWildcardSubscriptionAvailable
    return .wildcardSubscriptionAvailable flag
  | 0x29 => do
    let flag ← decodeBool .unrecognizedSubscriptionIdentifiersAvailable
    return .subscriptionIdentifiersAvailable flag
  | 0x2A => do
    let flag ← decodeBool .unrecognizedSharedSubscriptionAvailable
    return .sharedSubscriptionAvailable flag
  | identifier => reject (.unrecognizedPropertyIdentifier identifier)

def decode [UnicodeGeneralCategory] : Decoding Property := do
  let identifier ← tryGetU8
  decodeValue identifier

/-- Values that equal the default of the protocol are left out. -/
def encode : Property → Encoding
  | .assignedClientIdentifier clientId => tryPutU8 0x12 ++ clientId.encode
  | .authenticationData data => tryPutU8 0x16 ++ data.encode
  | .authenticationMethod method => tryPutU8 0x15 ++ method.encode
  | .connectSessionExpiryInterval interval =>
    if 0 < interval.toU32 then tryPutU8 0x11 ++ tryPutU32Be interval.toU32 else .skip
  | .contentType text => tryPutU8 0x03 ++ text.encode
  | .correlationData data => tryPutU8 0x09 ++ data.encode
  | .maximumPacketSize value =>
    if value.get < 4294967295 then tryPutU8 0x27 ++ tryPutU32Be value.get else .skip
  | .maximumQoS qos =>
    match qos with
    | .atMostOnce | .atLeastOnce => tryPutU8 0x24 ++ tryPutU8 (U8Code.toU8 qos)
    | .exactlyOnce => .skip
  | .messageExpiryInterval interval => tryPutU8 0x02 ++ tryPutU32Be interval
  | .payloadIsUtf8 isUtf8 => if isUtf8 then tryPutU8 0x01 ++ tryPutU8 0x01 else .skip
  | .reasonString reason => tryPutU8 0x1F ++ reason.encode
  | .receiveMaximum value =>
    if value.get < 65535 then tryPutU8 0x21 ++ tryPutU16Be value.get else .skip
  | .requestProblemInformation requested =>
    if !requested then tryPutU8 0x17 ++ tryPutU8 0x00 else .skip
  | .requestResponseInformation requested =>
    if requested then tryPutU8 0x19 ++ tryPutU8 0x01 else .skip
  | .responseInformation information => tryPutU8 0x1A ++ information.encode
  | .responseTopic topic => tryPutU8 0x08 ++ topic.encode
  | .retainAvailable available => if !available then tryPutU8 0x25 ++ tryPutU8 0x00 else .skip
  | .serverKeepAlive keepAlive => tryPutU8 0x13 ++ tryPutU16Be keepAlive.toU16
  | .serverReference reference => tryPutU8 0x1C ++ reference.encode
  | .sessionExpiryInterval interval => tryPutU8 0x11 ++ tryPutU32Be interval.toU32
  | .sharedSubscriptionAvailable available =>
    if !available then tryPutU8 0x2A ++ tryPutU8 0x00 else .skip
  | .subscriptionIdentifier identifier => tryPutU8 0x0B ++ encodeVarint identifier.get
  | .subscriptionIdentifiersAvailable available =>
    if !available then tryPutU8 0x29 ++ tryPutU8 0x00 else .skip
  | .topicAlias value => tryPutU8 0x23 ++ tryPutU16Be value.get
  | .topicAliasMaximum value => if 0 < value then tryPutU8 0x22 ++ tryPutU16Be value else .skip
  | .userProperty name value => tryPutU8 0x26 ++ name.encode ++ value.encode
  | .wildcardSubscriptionAvailable available =>
    if !available then tryPutU8 0x28 ++ tryPutU8 0x00 else .skip
  | .willDelayInterval interval =>
    if 0 < interval then tryPutU8 0x18 ++ tryPutU32Be interval else .skip

/-- The next property of a block, of which those before it have been seen: one of the
kinds the packet has, and one that may stand once stands once. -/
def decodeNext [UnicodeGeneralCategory] (single repeated : List PropertyKind)
    (seen : List Property) : Decoding Property := do
  let property ← decode
  if property.kind ∈ repeated then return property
  else if property.kind ∈ single then
    if property.kind ∈ seen.map kind then reject (.duplicateProperty property.kind.name)
    else return property
  else reject .unexpectedProperty

/-- The block of properties of a packet, in the order of the wire. -/
def decodeAll [UnicodeGeneralCategory] (single repeated : List PropertyKind) :
    Decoding (List Property) := do
  let remainingLength ← scan (required decodeRemainingLength)
  let src ← Decoder.input
  if src.length < remainingLength then reject .incompletePacket
  else
    let block ← splitTo remainingLength
    Decoder.nested (Decoder.collect .diverge (decodeNext single repeated)) block

/-- The block of properties of a packet. Its length is counted before it is put. -/
def encodeAll (properties : List Property) : Encoding :=
  let block : Encoding := .forEach properties encode
  match block.run ({} : ByteCounter true) with
  | .error fault => .fail fault
  | .ok counter => encodeRemainingLength counter.count ++ block

end Property

/-- The properties of one kind that a packet puts into its block. -/
structure Slot where
  kind : PropertyKind
  properties : List Property

def encodeProperties (slots : List Slot) : Encoding :=
  Property.encodeAll (slots.flatMap Slot.properties)

/-- What a packet binds to a property: how its value is read from the property, and the
property that carries a value. -/
structure Binding (α : Type) where
  kind : PropertyKind
  property : α → Property
  read : Property → Option α
  read_property : ∀ value, read (property value) = some value := by intro value; rfl
  property_of_read : ∀ source value, read source = some value → source = property value := by
    intro source value found; cases source <;> cases found; rfl
  kind_property : ∀ value, (property value).kind = kind := by intro value; rfl

namespace Binding

/-- The value of a property that stands at most once. -/
def value {α : Type} (binding : Binding α) (properties : List Property) : Option α :=
  properties.findSome? binding.read

/-- The values of a property that may be repeated. -/
def values {α : Type} (binding : Binding α) (properties : List Property) : List α :=
  properties.filterMap binding.read

/-- A property that is not put when it has no value. -/
def optional {α : Type} (binding : Binding α) (value : Option α) : Slot :=
  ⟨binding.kind, (value.map binding.property).toList⟩

/-- A property that always has a value, which may be its default. -/
def once {α : Type} (binding : Binding α) (value : α) : Slot :=
  ⟨binding.kind, [binding.property value]⟩

def repeated {α : Type} (binding : Binding α) (values : List α) : Slot :=
  ⟨binding.kind, values.map binding.property⟩

def assignedClientIdentifier : Binding ByteStr where
  kind := .assignedClientIdentifier
  property := .assignedClientIdentifier
  read
    | .assignedClientIdentifier value => some value
    | _ => none

def authenticationData : Binding BinaryData where
  kind := .authenticationData
  property := .authenticationData
  read
    | .authenticationData value => some value
    | _ => none

def authenticationMethod : Binding ByteStr where
  kind := .authenticationMethod
  property := .authenticationMethod
  read
    | .authenticationMethod value => some value
    | _ => none

def contentType : Binding ByteStr where
  kind := .contentType
  property := .contentType
  read
    | .contentType value => some value
    | _ => none

def correlationData : Binding BinaryData where
  kind := .correlationData
  property := .correlationData
  read
    | .correlationData value => some value
    | _ => none

def maximumPacketSize : Binding NonZeroU32 where
  kind := .maximumPacketSize
  property := .maximumPacketSize
  read
    | .maximumPacketSize value => some value
    | _ => none

def maximumQoS : Binding QoS where
  kind := .maximumQoS
  property := .maximumQoS
  read
    | .maximumQoS value => some value
    | _ => none

def messageExpiryInterval : Binding UInt32 where
  kind := .messageExpiryInterval
  property := .messageExpiryInterval
  read
    | .messageExpiryInterval value => some value
    | _ => none

def payloadIsUtf8 : Binding Bool where
  kind := .payloadIsUtf8
  property := .payloadIsUtf8
  read
    | .payloadIsUtf8 value => some value
    | _ => none

def reasonString : Binding ByteStr where
  kind := .reasonString
  property := .reasonString
  read
    | .reasonString value => some value
    | _ => none

def receiveMaximum : Binding NonZeroU16 where
  kind := .receiveMaximum
  property := .receiveMaximum
  read
    | .receiveMaximum value => some value
    | _ => none

def requestProblemInformation : Binding Bool where
  kind := .requestProblemInformation
  property := .requestProblemInformation
  read
    | .requestProblemInformation value => some value
    | _ => none

def requestResponseInformation : Binding Bool where
  kind := .requestResponseInformation
  property := .requestResponseInformation
  read
    | .requestResponseInformation value => some value
    | _ => none

def responseInformation : Binding ByteStr where
  kind := .responseInformation
  property := .responseInformation
  read
    | .responseInformation value => some value
    | _ => none

def responseTopic : Binding Topic where
  kind := .responseTopic
  property := .responseTopic
  read
    | .responseTopic value => some value
    | _ => none

def retainAvailable : Binding Bool where
  kind := .retainAvailable
  property := .retainAvailable
  read
    | .retainAvailable value => some value
    | _ => none

def serverKeepAlive : Binding KeepAlive where
  kind := .serverKeepAlive
  property := .serverKeepAlive
  read
    | .serverKeepAlive value => some value
    | _ => none

def serverReference : Binding ByteStr where
  kind := .serverReference
  property := .serverReference
  read
    | .serverReference value => some value
    | _ => none

def sessionExpiryInterval : Binding SessionExpiryInterval where
  kind := .sessionExpiryInterval
  property := .sessionExpiryInterval
  read
    | .sessionExpiryInterval value => some value
    | _ => none

def sharedSubscriptionAvailable : Binding Bool where
  kind := .sharedSubscriptionAvailable
  property := .sharedSubscriptionAvailable
  read
    | .sharedSubscriptionAvailable value => some value
    | _ => none

def subscriptionIdentifier : Binding NonZeroU32 where
  kind := .subscriptionIdentifier
  property := .subscriptionIdentifier
  read
    | .subscriptionIdentifier value => some value
    | _ => none

def subscriptionIdentifiersAvailable : Binding Bool where
  kind := .subscriptionIdentifiersAvailable
  property := .subscriptionIdentifiersAvailable
  read
    | .subscriptionIdentifiersAvailable value => some value
    | _ => none

def topicAlias : Binding NonZeroU16 where
  kind := .topicAlias
  property := .topicAlias
  read
    | .topicAlias value => some value
    | _ => none

def topicAliasMaximum : Binding UInt16 where
  kind := .topicAliasMaximum
  property := .topicAliasMaximum
  read
    | .topicAliasMaximum value => some value
    | _ => none

def userProperty : Binding (ByteStr × ByteStr) where
  kind := .userProperty
  property pair := .userProperty pair.1 pair.2
  read
    | .userProperty name value => some (name, value)
    | _ => none

def wildcardSubscriptionAvailable : Binding Bool where
  kind := .wildcardSubscriptionAvailable
  property := .wildcardSubscriptionAvailable
  read
    | .wildcardSubscriptionAvailable value => some value
    | _ => none

def willDelayInterval : Binding UInt32 where
  kind := .willDelayInterval
  property := .willDelayInterval
  read
    | .willDelayInterval value => some value
    | _ => none

end Binding

namespace Authentication

def of (method : Option ByteStr) (data : Option BinaryData) : Decoding (Option Authentication) :=
  match method, data with
  | some method, data => return some ⟨method, data⟩
  | none, some _ => reject (.missingRequiredProperty "authentication method")
  | none, none => return none

def intoParts : Option Authentication → Option ByteStr × Option BinaryData
  | some authentication => (some authentication.method, authentication.data)
  | none => (none, none)

end Authentication

end MqttClient.Proto
