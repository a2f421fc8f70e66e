import MqttClient.Proto.Property

/-! The codec of the packets that open, authenticate and close a connection. -/

namespace MqttClient.Proto

open Lib Decoding

namespace Decoding

/-- A code of an enumeration. -/
def tryInto (α : Type) [U8Code α] (code : UInt8) : Decoding α :=
  Decoder.ofExcept ((U8Code.tryFrom α code).mapError .error)

/-- One byte, or nothing at the end of the input. -/
def tryGetU8OrEnd : Decoding (Option UInt8) := fun src =>
  match tryGetU8 src with
  | .ok (byte, rest) => .ok (some byte, rest)
  | .error (.error .incompletePacket) => .ok (none, src)
  | .error fault => .error fault

end Decoding

open Encoding

namespace Auth

def packetType : UInt8 := 0xF0

def decode [UnicodeGeneralCategory] (flags : UInt8) (version : ProtocolVersion) : Decoding Auth :=
  match version with
  | .v3 => do
    let src ← Decoder.input
    reject (.unrecognizedPacket packetType flags src.length)
  | .v5 => do
    match ← tryGetU8OrEnd with
    | some reasonCode =>
      let reasonCode ← tryInto AuthenticateReasonCode reasonCode
      let properties ← Property.decodeAll
        [.authenticationMethod, .authenticationData, .reasonString] [.userProperty]
      let authentication ← Authentication.of
        (Binding.authenticationMethod.value properties)
        (Binding.authenticationData.value properties)
      return {
        reasonCode := reasonCode
        authentication := authentication
        reasonString := Binding.reasonString.value properties
        userProperties := Binding.userProperty.values properties }
    | none => return ⟨.success, none, none, []⟩

def slots (packet : Auth) : List Slot :=
  let (method, data) := Authentication.intoParts packet.authentication
  [Binding.authenticationMethod.optional method, Binding.authenticationData.optional data,
    Binding.reasonString.optional packet.reasonString,
    Binding.userProperty.repeated packet.userProperties]

def encode (packet : Auth) : ProtocolVersion → Encoding
  | .v3 => .fail .panic
  | .v5 => tryPutU8 (U8Code.toU8 packet.reasonCode) ++ encodeProperties packet.slots

end Auth

namespace ConnectReasonCode

def tryFrom (code : UInt8) (sessionPresent : Bool) (version : ProtocolVersion) :
    Decoding ConnectReasonCode :=
  match version, code with
  | _, 0x00 => return .success sessionPresent
  | .v3, 0x01 => return .refused .unsupportedProtocolVersion
  | .v3, 0x02 => return .refused .clientIdentifierNotValid
  | .v3, 0x03 => return .refused .serverUnavailable
  | .v3, 0x04 => return .refused .badUserNameOrPassword
  | .v3, 0x05 => return .refused .notAuthorized
  | .v3, code => reject (.unrecognizedConnectReturnCode code)
  | .v5, code => return .refused (← tryInto ConnectionRefusedReason code)

def toU8 : ConnectReasonCode → ProtocolVersion → UInt8
  | .success _, _ => 0x00
  | .refused .unsupportedProtocolVersion, .v3 => 0x01
  | .refused .clientIdentifierNotValid, .v3 => 0x02
  | .refused .badUserNameOrPassword, .v3 => 0x04
  | .refused .notAuthorized, .v3 => 0x05
  | .refused _, .v3 => 0x03
  | .refused reason, .v5 => U8Code.toU8 reason

end ConnectReasonCode

namespace ConnAckOtherProperties

def decode [UnicodeGeneralCategory] : Decoding ConnAckOtherProperties := do
  let properties ← Property.decodeAll
    [.sessionExpiryInterval, .receiveMaximum, .maximumQoS, .retainAvailable, .maximumPacketSize,
      .assignedClientIdentifier, .topicAliasMaximum, .reasonString,
      .wildcardSubscriptionAvailable, .sharedSubscriptionAvailable,
      .subscriptionIdentifiersAvailable, .serverKeepAlive, .responseInformation,
      .serverReference, .authenticationMethod, .authenticationData]
    [.userProperty]
  let authentication ← Authentication.of
    (Binding.authenticationMethod.value properties)
    (Binding.authenticationData.value properties)
  return {
    sessionExpiryInterval := Binding.sessionExpiryInterval.value properties
    receiveMaximum := (Binding.receiveMaximum.value properties).getD .max
    maximumQoS := (Binding.maximumQoS.value properties).getD .exactlyOnce
    retainAvailable := (Binding.retainAvailable.value properties).getD true
    maximumPacketSize := (Binding.maximumPacketSize.value properties).getD .max
    assignedClientId := Binding.assignedClientIdentifier.value properties
    topicAliasMaximum := (Binding.topicAliasMaximum.value properties).getD 0
    reasonString := Binding.reasonString.value properties
    userProperties := Binding.userProperty.values properties
    wildcardSubscriptionAvailable :=
      (Binding.wildcardSubscriptionAvailable.value properties).getD true
    sharedSubscriptionAvailable := (Binding.sharedSubscriptionAvailable.value properties).getD true
    subscriptionIdentifiersAvailable :=
      (Binding.subscriptionIdentifiersAvailable.value properties).getD true
    serverKeepAlive := Binding.serverKeepAlive.value properties
    responseInformation := Binding.responseInformation.value properties
    serverReference := Binding.serverReference.value properties
    authentication := authentication }

def slots (other : ConnAckOtherProperties) : List Slot :=
  let (method, data) := Authentication.intoParts other.authentication
  [Binding.sessionExpiryInterval.optional other.sessionExpiryInterval,
    Binding.receiveMaximum.once other.receiveMaximum, Binding.maximumQoS.once other.maximumQoS,
    Binding.retainAvailable.once other.retainAvailable,
    Binding.maximumPacketSize.once other.maximumPacketSize,
    Binding.assignedClientIdentifier.optional other.assignedClientId,
    Binding.topicAliasMaximum.once other.topicAliasMaximum,
    Binding.reasonString.optional other.reasonString,
    Binding.userProperty.repeated other.userProperties,
    Binding.wildcardSubscriptionAvailable.once other.wildcardSubscriptionAvailable,
    Binding.sharedSubscriptionAvailable.once other.sharedSubscriptionAvailable,
    Binding.subscriptionIdentifiersAvailable.once other.subscriptionIdentifiersAvailable,
    Binding.serverKeepAlive.optional other.serverKeepAlive,
    Binding.responseInformation.optional other.responseInformation,
    Binding.serverReference.optional other.serverReference,
    Binding.authenticationMethod.optional method, Binding.authenticationData.optional data]

end ConnAckOtherProperties

namespace ConnAck

def packetType : UInt8 := 0x20

def decode [UnicodeGeneralCategory] (version : ProtocolVersion) : Decoding ConnAck := do
  let connackFlags ← tryGetU8
  let sessionPresent ← (match connackFlags with
    | 0x00 => return false
    | 0x01 => return true
    | connackFlags => reject (.unrecognizedConnAckFlags connackFlags) : Decoding Bool)
  let reasonCode ← ConnectReasonCode.tryFrom (← tryGetU8) sessionPresent version
  match version with
  | .v3 => return ⟨reasonCode, {}⟩
  | .v5 => return ⟨reasonCode, ← ConnAckOtherProperties.decode⟩

def sessionPresent (packet : ConnAck) : Bool :=
  match packet.reasonCode with
  | .success sessionPresent => sessionPresent
  | .refused _ => false

def encode (packet : ConnAck) (version : ProtocolVersion) : Encoding :=
  tryPutU8 (if packet.sessionPresent then 0x01 else 0x00) ++
    tryPutU8 (packet.reasonCode.toU8 version) ++
    if version.isV5 then encodeProperties packet.otherProperties.slots else .skip

end ConnAck

namespace Connect

def packetType : UInt8 := 0x10

def flagsReserved : UInt8 := 0x01
def flagsCleanSession : UInt8 := 0x02
def flagsWill : UInt8 := 0x04
def flagsWillQoS : UInt8 := 0x18
def flagsWillRetain : UInt8 := 0x20
def flagsPassword : UInt8 := 0x40
def flagsUsername : UInt8 := 0x80

/-- The bytes of `MQTT`. -/
def protocolNameStr : Bytes := [0x4D, 0x51, 0x54, 0x54]

/-- The protocol name with its length. -/
def protocolName : Bytes := [0x00, 0x04] ++ protocolNameStr

def decodeStart [UnicodeGeneralCategory] (flags : UInt8) : Decoding ProtocolVersion := do
  if flags ≠ 0 then
    let src ← Decoder.input
    reject (.unrecognizedPacket 0x10 flags src.length)
  else
    let name ← required ByteStr.decode
    if name.asBytes ≠ protocolNameStr then
      reject (.unrecognizedProtocolName name.asBytes)
    else
      match ← tryGetU8 with
      | 0x04 => return .v3
      | 0x05 => return .v5
      | version => reject (.unrecognizedProtocolVersion version)

def decodeClientId [UnicodeGeneralCategory] : Decoding (Option ByteStr) := do
  let clientId ← required ByteStr.decode
  return if clientId.isEmpty then none else some clientId

def decodeWillQoS (connectFlags : UInt8) : Decoding QoS :=
  match connectFlags &&& flagsWillQoS with
  | 0x00 => return .atMostOnce
  | 0x08 => return .atLeastOnce
  | 0x10 => return .exactlyOnce
  | qos => reject (.unrecognizedQoS (qos >>> 3))

/-- The payload of a will, without its length. -/
def decodeWillPayload : Decoding Bytes := do
  let payload ← required BinaryData.decode
  Decoder.ofExcept (sliceFrom payload.shared 2)

/-- The will of a CONNECT whose properties, with the delay, `properties` decodes. -/
def decodeWill [UnicodeGeneralCategory] (connectFlags : UInt8)
    (properties : Decoding (PublicationOtherProperties × UInt32)) :
    Decoding (Option (Publication × UInt32)) :=
  if connectFlags &&& flagsWill = 0 then
    if connectFlags &&& (flagsWillQoS ||| flagsWillRetain) ≠ 0 then
      reject .willPropertiesFlagsSetButNotWillFlag
    else return none
  else do
    let (otherProperties, willDelayInterval) ← properties
    let topicName ← required Topic.decode
    let qos ← decodeWillQoS connectFlags
    let retain := connectFlags &&& flagsWillRetain != 0
    let payload ← decodeWillPayload
    return some (⟨topicName, qos, retain, payload, otherProperties⟩, willDelayInterval)

def decodeUsername [UnicodeGeneralCategory] (connectFlags : UInt8) : Decoding (Option ByteStr) :=
  if connectFlags &&& flagsUsername = 0 then return none
  else return some (← required ByteStr.decode)

def decodePassword (connectFlags : UInt8) : Decoding (Option BinaryData) :=
  if connectFlags &&& flagsPassword = 0 then return none
  else return some (← required BinaryData.decode)

def decodeRestV3 [UnicodeGeneralCategory] : Decoding Connect := do
  let connectFlags ← tryGetU8
  if connectFlags &&& flagsReserved ≠ 0 then reject .connectReservedSet
  else if connectFlags &&& (flagsUsername ||| flagsPassword) = 0x40 then
    reject .connectPasswordFlagSetButNotUsernameFlag
  else
    let keepAlive := KeepAlive.ofU16 (← tryGetU16Be)
    let clientId ← decodeClientId
    let cleanStart := connectFlags &&& flagsCleanSession != 0
    if clientId.isNone && !cleanStart then
      reject .connectZeroLengthIdWithExistingSession
    else
      let will ← decodeWill connectFlags (return ({}, 0))
      let username ← decodeUsername connectFlags
      let password ← decodePassword connectFlags
      return {
        username, password, will, clientId, cleanStart, keepAlive
        otherProperties :=
          { sessionExpiryInterval := if cleanStart then .duration 0 else .infinite } }

def decodeProperties [UnicodeGeneralCategory] : Decoding (List Property) :=
  Property.decodeAll
    [.sessionExpiryInterval, .receiveMaximum, .maximumPacketSize, .topicAliasMaximum,
      .requestResponseInformation, .requestProblemInformation, .authenticationMethod,
      .authenticationData]
    [.userProperty]

/-- The properties of the packet, which are put together after all fields have been read. -/
def otherPropertiesOf (properties : List Property) : Decoding ConnectOtherProperties := do
  let authentication ← Authentication.of
    (Binding.authenticationMethod.value properties)
    (Binding.authenticationData.value properties)
  return {
    sessionExpiryInterval := (Binding.sessionExpiryInterval.value properties).getD
        (.duration 0)
    receiveMaximum := (Binding.receiveMaximum.value properties).getD .max
    maximumPacketSize := (Binding.maximumPacketSize.value properties).getD .max
    topicAliasMaximum := (Binding.topicAliasMaximum.value properties).getD 0
    requestResponseInformation := (Binding.requestResponseInformation.value properties).getD false
    requestProblemInformation := (Binding.requestProblemInformation.value properties).getD true
    userProperties := Binding.userProperty.values properties
    authentication := authentication }

def decodeWillProperties [UnicodeGeneralCategory] :
    Decoding (PublicationOtherProperties × UInt32) := do
  let properties ← Property.decodeAll
    [.willDelayInterval, .payloadIsUtf8, .messageExpiryInterval, .contentType, .responseTopic,
      .correlationData]
    [.userProperty]
  return ({
    payloadIsUtf8 := (Binding.payloadIsUtf8.value properties).getD false
    messageExpiryInterval := Binding.messageExpiryInterval.value properties
    responseTopic := Binding.responseTopic.value properties
    correlationData := Binding.correlationData.value properties
    userProperties := Binding.userProperty.values properties
    contentType := Binding.contentType.value properties },
    (Binding.willDelayInterval.value properties).getD 0)

def decodeRestV5 [UnicodeGeneralCategory] : Decoding Connect := do
  let connectFlags ← tryGetU8
  if connectFlags &&& flagsReserved ≠ 0 then reject .connectReservedSet
  else
    let keepAlive := KeepAlive.ofU16 (← tryGetU16Be)
    let properties ← decodeProperties
    let clientId ← decodeClientId
    let cleanStart := connectFlags &&& flagsCleanSession != 0
    let will ← decodeWill connectFlags decodeWillProperties
    let username ← decodeUsername connectFlags
    let password ← decodePassword connectFlags
    let otherProperties ← otherPropertiesOf properties
    return { username, password, will, clientId, cleanStart, keepAlive, otherProperties }

def decode [UnicodeGeneralCategory] (flags : UInt8) (version : ProtocolVersion) :
    Decoding Connect := do
  let actualVersion ← decodeStart flags
  if actualVersion ≠ version then
    reject (.unrecognizedProtocolVersion actualVersion.toU8)
  else
    match version with
    | .v3 => decodeRestV3
    | .v5 => decodeRestV5

/-- The flags of a will: its presence, retain and QoS. -/
def willFlags : Option (Publication × UInt32) → UInt8
  | some (will, _) =>
    flagsWill ||| (if will.retain then flagsWillRetain else 0) ||| (U8Code.toU8 will.qos <<< 3)
  | none => 0

def connectFlags (packet : Connect) : UInt8 :=
  (if packet.username.isSome then flagsUsername else 0) |||
    (if packet.password.isSome then flagsPassword else 0) ||| willFlags packet.will |||
    (if packet.cleanStart then flagsCleanSession else 0)

/-- An interval of zero is the default, which is left out. -/
def sessionExpiryInterval (interval : SessionExpiryInterval) : Slot :=
  ⟨.sessionExpiryInterval, [.connectSessionExpiryInterval interval]⟩

def slots (other : ConnectOtherProperties) : List Slot :=
  let (method, data) := Authentication.intoParts other.authentication
  [sessionExpiryInterval other.sessionExpiryInterval,
    Binding.receiveMaximum.once other.receiveMaximum,
    Binding.maximumPacketSize.once other.maximumPacketSize,
    Binding.topicAliasMaximum.once other.topicAliasMaximum,
    Binding.requestResponseInformation.once other.requestResponseInformation,
    Binding.requestProblemInformation.once other.requestProblemInformation,
    Binding.userProperty.repeated other.userProperties,
    Binding.authenticationMethod.optional method, Binding.authenticationData.optional data]

def willSlots (other : PublicationOtherProperties) (willDelayInterval : UInt32) : List Slot :=
  [Binding.willDelayInterval.once willDelayInterval,
    Binding.payloadIsUtf8.once other.payloadIsUtf8,
    Binding.messageExpiryInterval.optional other.messageExpiryInterval,
    Binding.contentType.optional other.contentType,
    Binding.responseTopic.optional other.responseTopic,
    Binding.correlationData.optional other.correlationData,
    Binding.userProperty.repeated other.userProperties]

def encodeWill (version : ProtocolVersion) : Option (Publication × UInt32) → Encoding
  | none => .skip
  | some (will, willDelayInterval) =>
    (if version.isV5 then encodeProperties (willSlots will.otherProperties willDelayInterval)
        else .skip) ++
      will.topicName.encode ++
      (if will.payload.length < 65536 then tryPutU16Be (.ofNat will.payload.length)
        else refuse (.willTooLarge will.payload.length)) ++
      putShared will.payload

def encodeClientId : Option ByteStr → Encoding
  | some id => id.encode
  | none => tryPutSlice ByteStr.empty

def encodeUsername : Option ByteStr → Encoding
  | some username => username.encode
  | none => .skip

def encodePassword : Option BinaryData → Encoding
  | some password => password.encode
  | none => .skip

/-- What follows the version of the protocol. -/
def encodeRest (packet : Connect) (version : ProtocolVersion) : Encoding :=
  tryPutU8 packet.connectFlags ++ tryPutU16Be packet.keepAlive.toU16 ++
    (if version.isV5 then encodeProperties (slots packet.otherProperties) else .skip) ++
    encodeClientId packet.clientId ++ encodeWill version packet.will ++
    encodeUsername packet.username ++ encodePassword packet.password

def encode (packet : Connect) (version : ProtocolVersion) : Encoding :=
  tryPutSlice protocolName ++ tryPutU8 version.toU8 ++
    (match version, packet.username, packet.password with
      | .v3, none, some _ => refuse .connectPasswordWithoutUsername
      | _, _, _ => .skip) ++
    packet.encodeRest version

end Connect

namespace Disconnect

def packetType : UInt8 := 0xE0

def decodeOtherProperties [UnicodeGeneralCategory] : Decoding DisconnectOtherProperties := do
  let properties ← Property.decodeAll
    [.sessionExpiryInterval, .reasonString, .serverReference] [.userProperty]
  return {
    sessionExpiryInterval := Binding.sessionExpiryInterval.value properties
    reasonString := Binding.reasonString.value properties
    userProperties := Binding.userProperty.values properties
    serverReference := Binding.serverReference.value properties }

def decode [UnicodeGeneralCategory] (version : ProtocolVersion) : Decoding Disconnect :=
  match version with
  | .v3 => return ⟨.normal, {}⟩
  | .v5 => do
    match ← tryGetU8OrEnd with
    | some reasonCode =>
      let reasonCode ← tryInto DisconnectReasonCode reasonCode
      -- A client may omit the length of a block without properties.
      if ← Decoder.isEmpty then return ⟨reasonCode, {}⟩
      else return ⟨reasonCode, ← decodeOtherProperties⟩
    | none => return ⟨.normal, {}⟩

def slots (other : DisconnectOtherProperties) : List Slot :=
  [Binding.sessionExpiryInterval.optional other.sessionExpiryInterval,
    Binding.reasonString.optional other.reasonString,
    Binding.userProperty.repeated other.userProperties,
    Binding.serverReference.optional other.serverReference]

/-- Whether any property is set. -/
def hasProperties (other : DisconnectOtherProperties) : Bool :=
  other.sessionExpiryInterval.isSome || other.reasonString.isSome ||
    !other.userProperties.isEmpty || other.serverReference.isSome

def encode (packet : Disconnect) (version : ProtocolVersion) : Encoding :=
  if version.isV5 then
    if packet.reasonCode ≠ .normal ∨ hasProperties packet.otherProperties then
      tryPutU8 (U8Code.toU8 packet.reasonCode) ++
        if hasProperties packet.otherProperties then
          encodeProperties (slots packet.otherProperties)
        else .skip
    else .skip
  else .skip

end Disconnect

end MqttClient.Proto
