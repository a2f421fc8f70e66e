import MqttClient.Api.Text
import MqttClient.Client.Connection

/-! The packets and properties that the application hands to the client, and their
conversion to the types of the codec. Where a conversion panics there is no value. -/

namespace MqttClient.Proto

/-- `From<&[u8]>`, which panics on data whose length does not fit into sixteen bits. -/
def BinaryData.ofSlice (bytes : Bytes) : Option BinaryData :=
  if bytes.length < 65536 then some ⟨u16ToBeBytes (.ofNat bytes.length) ++ bytes⟩ else none

/-- `From<&str>` -/
def ByteStr.ofStr (text : String) : Option ByteStr :=
  (BinaryData.ofSlice (Api.asBytes text)).map ByteStr.mk

/-- `Topic::new` on the text of a string. -/
def Topic.check [UnicodeGeneralCategory] (text : Bytes) : Except Fault Unit := do
  if text.isEmpty then .error (.error .emptyTopic)
  else if 65535 < text.length then
    .error (.error (.invalidByteStr "longer than 65,535 bytes"))
  else
    validateMqttString text
    if text.any fun c => [multiLevelMatch, singleLevelMatch].contains c then
      .error (.error (.invalidTopic text))
    else .ok ()

/-- `Filter::new` on the text of a string. -/
def Filter.check [UnicodeGeneralCategory] (text : Bytes) : Except Fault FilterKind := do
  if text.isEmpty then .error (.error .emptyFilter)
  else if 65535 < text.length then
    .error (.error (.invalidByteStr "longer than 65,535 bytes"))
  else
    validateMqttString text
    let (kind, filter) ← classifyNew text
    if filter.isEmpty then .error (.error .emptyFilter)
    else
      parse filter .separator filter
      .ok kind

end MqttClient.Proto

namespace MqttClient.Api

open Proto Client

/-- A string that is the name of a topic. -/
structure TopicName [UnicodeGeneralCategory] where
  text : String
  valid : Topic.check (asBytes text) = .ok ()

/-- A string that is a topic filter, with its kind. -/
structure TopicFilter [UnicodeGeneralCategory] where
  text : String
  kind : FilterKind
  valid : Filter.check (asBytes text) = .ok kind

inductive PayloadFormatIndicator where
  | unspecified
  | utf8
  deriving DecidableEq, Repr

structure AuthenticationInfo where
  method : String
  data : Option Bytes

structure AuthProperties where
  reasonString : Option String := none
  userProperties : List (String × String) := []

structure Auth where
  reason : AuthenticateReasonCode
  authenticationInfo : Option AuthenticationInfo
  properties : AuthProperties

structure PubAckProperties where
  reasonString : Option String := none
  userProperties : List (String × String) := []

structure SubscribeProperties where
  subscriptionIdentifier : Option NonZeroU32 := none
  userProperties : List (String × String) := []

structure UnsubscribeProperties where
  userProperties : List (String × String) := []

structure DisconnectProperties where
  sessionExpiryInterval : Option SessionExpiryInterval := none
  reasonString : Option String := none
  userProperties : List (String × String) := []
  serverReference : Option String := none

structure ConnectProperties where
  sessionExpiryInterval : SessionExpiryInterval := .duration 0
  receiveMaximum : NonZeroU16 := .max
  maximumPacketSize : NonZeroU32 := .max
  topicAliasMaximum : UInt16 := 0
  requestResponseInformation : Bool := false
  requestProblemInformation : Bool := true
  userProperties : List (String × String) := []

structure RetainOptions where
  retainAsPublished : Bool := true
  retainHandling : RetainHandling := .send

inductive PubRejectReason where
  | unspecifiedError
  | implementationSpecificError
  | notAuthorized
  | topicNameInvalid
  | packetIdentifierInUse
  | quotaExceeded
  | payloadFormatInvalid
  deriving DecidableEq, Repr

def mapUserPropertiesToByteStr (properties : List (String × String)) : Option UserProperties :=
  properties.mapM fun (name, value) => do
    return (← ByteStr.ofStr name, ← ByteStr.ofStr value)

def PubRejectReason.into : PubRejectReason → PubAckReasonCode
  | .unspecifiedError => .unspecifiedError
  | .implementationSpecificError => .implementationSpecificError
  | .notAuthorized => .notAuthorized
  | .topicNameInvalid => .topicNameInvalid
  | .packetIdentifierInUse => .packetIdentifierInUse
  | .quotaExceeded => .quotaExceeded
  | .payloadFormatInvalid => .payloadFormatInvalid

def AuthenticationInfo.into (info : AuthenticationInfo) : Option Authentication := do
  return ⟨← ByteStr.ofStr info.method, ← info.data.mapM BinaryData.ofSlice⟩

def Auth.into (auth : Auth) : Option Proto.Auth := do
  return {
    reasonCode := auth.reason
    authentication := ← auth.authenticationInfo.mapM AuthenticationInfo.into
    reasonString := ← auth.properties.reasonString.mapM ByteStr.ofStr
    userProperties := ← mapUserPropertiesToByteStr auth.properties.userProperties }

def PubAckProperties.into (properties : PubAckProperties) : Option PubAckOtherProperties := do
  return {
    reasonString := ← properties.reasonString.mapM ByteStr.ofStr
    userProperties := ← mapUserPropertiesToByteStr properties.userProperties }

def SubscribeProperties.into (properties : SubscribeProperties) :
    Option SubscribeOtherProperties := do
  return {
    subscriptionIdentifier := properties.subscriptionIdentifier
    userProperties := ← mapUserPropertiesToByteStr properties.userProperties }

def UnsubscribeProperties.into (properties : UnsubscribeProperties) :
    Option UnsubscribeOtherProperties := do
  return { userProperties := ← mapUserPropertiesToByteStr properties.userProperties }

def DisconnectProperties.into (properties : DisconnectProperties) :
    Option DisconnectOtherProperties := do
  return {
    sessionExpiryInterval := properties.sessionExpiryInterval
    reasonString := ← properties.reasonString.mapM ByteStr.ofStr
    userProperties := ← mapUserPropertiesToByteStr properties.userProperties
    serverReference := ← properties.serverReference.mapM ByteStr.ofStr }

def ConnectProperties.into (properties : ConnectProperties) : Option ConnectOtherProperties := do
  return {
    sessionExpiryInterval := properties.sessionExpiryInterval
    receiveMaximum := properties.receiveMaximum
    maximumPacketSize := properties.maximumPacketSize
    topicAliasMaximum := properties.topicAliasMaximum
    requestResponseInformation := properties.requestResponseInformation
    requestProblemInformation := properties.requestProblemInformation
    userProperties := ← mapUserPropertiesToByteStr properties.userProperties
    authentication := none }

section

variable [UnicodeGeneralCategory]

structure PublishProperties where
  payloadFormatIndicator : PayloadFormatIndicator := .unspecified
  messageExpiryInterval : Option UInt32 := none
  topicAlias : Option NonZeroU16 := none
  responseTopic : Option TopicName := none
  correlationData : Option Bytes := none
  userProperties : List (String × String) := []
  subscriptionIdentifiers : List NonZeroU32 := []
  contentType : Option String := none

structure WillProperties where
  delayInterval : UInt32
  payloadFormatIndicator : PayloadFormatIndicator
  messageExpiryInterval : Option UInt32
  contentType : Option String
  responseTopic : Option TopicName
  correlationData : Option Bytes
  userProperties : List (String × String)

structure Will where
  topicName : TopicName
  qos : QoS
  retain : Bool
  payload : Bytes
  properties : WillProperties

def TopicName.into (name : TopicName) : Option Topic := (ByteStr.ofStr name.text).map Topic.mk

def TopicFilter.into (filter : TopicFilter) : Option Filter :=
  (ByteStr.ofStr filter.text).map fun inner => ⟨inner, filter.kind⟩

def PublishProperties.into (properties : PublishProperties) : Option PublishOtherProperties := do
  return {
    payloadIsUtf8 := properties.payloadFormatIndicator = .utf8
    messageExpiryInterval := properties.messageExpiryInterval
    topicAlias := properties.topicAlias
    responseTopic := ← properties.responseTopic.mapM TopicName.into
    correlationData := ← properties.correlationData.mapM BinaryData.ofSlice
    userProperties := ← mapUserPropertiesToByteStr properties.userProperties
    subscriptionIdentifiers := properties.subscriptionIdentifiers
    contentType := ← properties.contentType.mapM ByteStr.ofStr }

def WillProperties.into (properties : WillProperties) : Option PublicationOtherProperties := do
  return {
    payloadIsUtf8 := properties.payloadFormatIndicator = .utf8
    messageExpiryInterval := properties.messageExpiryInterval
    responseTopic := ← properties.responseTopic.mapM TopicName.into
    correlationData := ← properties.correlationData.mapM BinaryData.ofSlice
    userProperties := ← mapUserPropertiesToByteStr properties.userProperties
    contentType := ← properties.contentType.mapM ByteStr.ofStr }

def Will.into (will : Will) : Option (Publication × UInt32) := do
  let publication : Publication := {
    topicName := ← will.topicName.into
    qos := will.qos
    retain := will.retain
    payload := will.payload
    otherProperties := ← will.properties.into }
  return (publication, will.properties.delayInterval)

/-- The requests of a `Client` that carry a packet. -/
inductive Request where
  | publishQoS0 (topicName : TopicName) (payload : Bytes) (retain : Bool)
      (properties : PublishProperties)
  | publishQoS1 (topicName : TopicName) (payload : Bytes) (retain : Bool)
      (properties : PublishProperties)
  | subscribe (topicFilter : TopicFilter) (maxQoS : QoS) (noLocal : Bool)
      (retainOptions : RetainOptions) (properties : SubscribeProperties)
  | unsubscribe (topicFilter : TopicFilter) (properties : UnsubscribeProperties)

/-- What an accepted request submits to the session. -/
def Request.event : Request → Option AppEvent
  | .publishQoS0 topicName payload retain properties => do
    return .publishQoS0 (← topicName.into) payload retain (← properties.into)
  | .publishQoS1 topicName payload retain properties => do
    return .publishQoS1 (← topicName.into) payload retain (← properties.into)
  | .subscribe topicFilter maxQoS noLocal retainOptions properties =>
    if maxQoS = .exactlyOnce then none
    else do
      let options : SubscribeOptions :=
        ⟨maxQoS, ⟨noLocal, retainOptions.retainAsPublished, retainOptions.retainHandling⟩⟩
      return .subscribe (← topicFilter.into) options (← properties.into)
  | .unsubscribe topicFilter properties => do
    return .unsubscribe (← topicFilter.into) (← properties.into)

/-- The arguments of a connection attempt that go into its CONNECT. -/
structure ConnectArguments where
  clientId : Option String
  cleanStart : Bool
  keepAlive : KeepAlive
  will : Option Will
  username : Option String
  password : Option Bytes
  properties : ConnectProperties
  authenticationInfo : Option AuthenticationInfo

def ConnectArguments.mqttConnect (arguments : ConnectArguments) : Option Connect := do
  let properties ← arguments.properties.into
  let authentication ← arguments.authenticationInfo.mapM AuthenticationInfo.into
  return {
    username := ← arguments.username.mapM ByteStr.ofStr
    password := ← arguments.password.mapM BinaryData.ofSlice
    will := ← arguments.will.mapM Will.into
    clientId := ← arguments.clientId.mapM ByteStr.ofStr
    cleanStart := arguments.cleanStart
    keepAlive := arguments.keepAlive
    otherProperties := { properties with authentication } }

end

end MqttClient.Api
