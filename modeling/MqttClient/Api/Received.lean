import MqttClient.Api.Readable

/-! The packets that the client hands to the application, and their conversion from the types
of the codec. Strings are taken for UTF-8 without a check and topics are not validated again;
where a text is not what it is taken for, there is no value. -/

namespace MqttClient.Proto

/-- `AsRef<str>`, whose bytes are not checked to be UTF-8. -/
def ByteStr.asStr (text : ByteStr) : Option String := (fromUtf8 text.asBytes).map String.ofList

end MqttClient.Proto

namespace MqttClient.Api

open Lib Proto Client Io

structure DeliveryInfo where
  dup : Bool
  packetIdentifier : PacketIdentifier
  deriving DecidableEq

inductive DeliveryQoS where
  | atMostOnce
  | atLeastOnce (info : DeliveryInfo)
  | exactlyOnce (info : DeliveryInfo)
  deriving DecidableEq

/-- The reasons of the application are those of the codec under the same names; the success of
a CONNACK is one of them. -/
inductive ConnAckReason where
  | success
  | refused (reason : ConnectionRefusedReason)
  deriving DecidableEq

abbrev SubAckProperties := PubAckProperties

abbrev UnsubAckProperties := PubAckProperties

structure PubAck where
  packetIdentifier : PacketIdentifier
  reason : PubAckReasonCode
  properties : PubAckProperties

structure SubAck where
  packetIdentifier : PacketIdentifier
  reasons : List SubscribeReasonCode
  properties : SubAckProperties

structure UnsubAck where
  packetIdentifier : PacketIdentifier
  reasons : List UnsubAckReasonCode
  properties : UnsubAckProperties

structure Disconnect where
  reason : DisconnectReasonCode
  properties : DisconnectProperties

structure ConnAckProperties where
  sessionExpiryInterval : Option SessionExpiryInterval := none
  receiveMaximum : NonZeroU16 := .max
  maximumQoS : QoS := .exactlyOnce
  retainAvailable : Bool := true
  maximumPacketSize : NonZeroU32 := .max
  assignedClientIdentifier : Option String := none
  topicAliasMaximum : UInt16 := 0
  reasonString : Option String := none
  userProperties : List (String × String) := []
  wildcardSubscriptionAvailable : Bool := true
  subscriptionIdentifiersAvailable : Bool := true
  sharedSubscriptionAvailable : Bool := true
  serverKeepAlive : Option Proto.KeepAlive := none
  responseInformation : Option String := none
  serverReference : Option String := none

structure ConnAck where
  sessionPresent : Bool
  reason : ConnAckReason
  properties : ConnAckProperties

/-- `to_string` on names and values. -/
def userPropertiesToString (properties : UserProperties) : Option (List (String × String)) :=
  properties.mapM fun (name, value) => do return (← name.asStr, ← value.asStr)

def DeliveryQoS.ofProto : PacketIdentifierDupQoS → DeliveryQoS
  | .atMostOnce => .atMostOnce
  | .atLeastOnce packetIdentifier dup => .atLeastOnce ⟨dup, packetIdentifier⟩
  | .exactlyOnce packetIdentifier dup => .exactlyOnce ⟨dup, packetIdentifier⟩

def DeliveryQoS.into : DeliveryQoS → PacketIdentifierDupQoS
  | .atMostOnce => .atMostOnce
  | .atLeastOnce info => .atLeastOnce info.packetIdentifier info.dup
  | .exactlyOnce info => .exactlyOnce info.packetIdentifier info.dup

def AuthenticationInfo.ofProto (authentication : Authentication) : Option AuthenticationInfo := do
  return ⟨← authentication.method.asStr, authentication.data.map BinaryData.asBytes⟩

def Auth.ofProto (auth : Proto.Auth) : Option Auth := do
  return {
    reason := auth.reasonCode
    authenticationInfo := ← auth.authentication.mapM AuthenticationInfo.ofProto
    properties := {
      reasonString := ← auth.reasonString.mapM ByteStr.asStr
      userProperties := ← userPropertiesToString auth.userProperties } }

def PubAckProperties.ofProto (other : PubAckOtherProperties) : Option PubAckProperties := do
  return {
    reasonString := ← other.reasonString.mapM ByteStr.asStr
    userProperties := ← userPropertiesToString other.userProperties }

def SubAckProperties.ofProto : SubAckOtherProperties → Option SubAckProperties :=
  PubAckProperties.ofProto

def UnsubAckProperties.ofProto : UnsubAckOtherProperties → Option UnsubAckProperties :=
  PubAckProperties.ofProto

def PubAck.ofProto (packet : Proto.PubAck) : Option PubAck := do
  return ⟨packet.packetIdentifier, packet.reasonCode,
    ← PubAckProperties.ofProto packet.otherProperties⟩

def SubAck.ofProto (packet : Proto.SubAck) : Option SubAck := do
  return ⟨packet.packetIdentifier, packet.reasonCodes,
    ← SubAckProperties.ofProto packet.otherProperties⟩

def UnsubAck.ofProto (packet : Proto.UnsubAck) : Option UnsubAck := do
  return ⟨packet.packetIdentifier, packet.reasonCodes,
    ← UnsubAckProperties.ofProto packet.otherProperties⟩

def DisconnectProperties.ofProto (other : DisconnectOtherProperties) :
    Option DisconnectProperties := do
  return {
    sessionExpiryInterval := other.sessionExpiryInterval
    reasonString := ← other.reasonString.mapM ByteStr.asStr
    userProperties := ← userPropertiesToString other.userProperties
    serverReference := ← other.serverReference.mapM ByteStr.asStr }

def Disconnect.ofProto (packet : Proto.Disconnect) : Option Disconnect := do
  return ⟨packet.reasonCode, ← DisconnectProperties.ofProto packet.otherProperties⟩

/-- The authentication of a CONNACK is not handed over with its properties. -/
def ConnAckProperties.ofProto (other : ConnAckOtherProperties) : Option ConnAckProperties := do
  return {
    sessionExpiryInterval := other.sessionExpiryInterval
    receiveMaximum := other.receiveMaximum
    maximumQoS := other.maximumQoS
    retainAvailable := other.retainAvailable
    maximumPacketSize := other.maximumPacketSize
    assignedClientIdentifier := ← other.assignedClientId.mapM ByteStr.asStr
    topicAliasMaximum := other.topicAliasMaximum
    reasonString := ← other.reasonString.mapM ByteStr.asStr
    userProperties := ← userPropertiesToString other.userProperties
    wildcardSubscriptionAvailable := other.wildcardSubscriptionAvailable
    subscriptionIdentifiersAvailable := other.subscriptionIdentifiersAvailable
    sharedSubscriptionAvailable := other.sharedSubscriptionAvailable
    serverKeepAlive := other.serverKeepAlive
    responseInformation := ← other.responseInformation.mapM ByteStr.asStr
    serverReference := ← other.serverReference.mapM ByteStr.asStr }

def ConnAckProperties.into (properties : ConnAckProperties) : Option ConnAckOtherProperties := do
  return {
    sessionExpiryInterval := properties.sessionExpiryInterval
    receiveMaximum := properties.receiveMaximum
    maximumQoS := properties.maximumQoS
    retainAvailable := properties.retainAvailable
    maximumPacketSize := properties.maximumPacketSize
    assignedClientId := ← properties.assignedClientIdentifier.mapM ByteStr.ofStr
    topicAliasMaximum := properties.topicAliasMaximum
    reasonString := ← properties.reasonString.mapM ByteStr.ofStr
    userProperties := ← mapUserPropertiesToByteStr properties.userProperties
    wildcardSubscriptionAvailable := properties.wildcardSubscriptionAvailable
    subscriptionIdentifiersAvailable := properties.subscriptionIdentifiersAvailable
    sharedSubscriptionAvailable := properties.sharedSubscriptionAvailable
    serverKeepAlive := properties.serverKeepAlive
    responseInformation := ← properties.responseInformation.mapM ByteStr.ofStr
    serverReference := ← properties.serverReference.mapM ByteStr.ofStr
    authentication := none }

def ConnAck.ofProto (packet : Proto.ConnAck) : Option ConnAck := do
  let (reason, sessionPresent) : ConnAckReason × Bool :=
    match packet.reasonCode with
    | .success sessionPresent => (.success, sessionPresent)
    | .refused reason => (.refused reason, false)
  return ⟨sessionPresent, reason, ← ConnAckProperties.ofProto packet.otherProperties⟩

section

variable [UnicodeGeneralCategory]

structure Publish where
  payload : Bytes
  qos : DeliveryQoS
  retain : Bool
  topicName : TopicName
  properties : PublishProperties

/-- The text of a topic that was validated when it was made. -/
def TopicName.ofProto (topic : Topic) : Option TopicName := do
  let text ← topic.inner.asStr
  if valid : Topic.check (asBytes text) = .ok () then some ⟨text, valid⟩ else none

def PublishProperties.ofProto (other : PublishOtherProperties) : Option PublishProperties := do
  return {
    payloadFormatIndicator := if other.payloadIsUtf8 then .utf8 else .unspecified
    messageExpiryInterval := other.messageExpiryInterval
    topicAlias := other.topicAlias
    responseTopic := ← other.responseTopic.mapM TopicName.ofProto
    correlationData := other.correlationData.map BinaryData.asBytes
    userProperties := ← userPropertiesToString other.userProperties
    subscriptionIdentifiers := other.subscriptionIdentifiers
    contentType := ← other.contentType.mapM ByteStr.asStr }

def Publish.ofProto (packet : Proto.Publish) : Option Publish := do
  return {
    payload := packet.payload
    qos := .ofProto packet.packetIdentifierDupQoS
    retain := packet.retain
    topicName := ← TopicName.ofProto packet.topicName
    properties := ← PublishProperties.ofProto packet.otherProperties }

end

end MqttClient.Api

/-! ### Texts and data -/

namespace MqttClient.Proto

theorem BinaryData.ofSlice_asBytes {data : BinaryData} (formed : data.WellFormed) :
    ofSlice data.asBytes = some data := by
  have short : data.asBytes.length < 65536 := Nat.lt_succ_of_le formed.1
  rw [ofSlice, if_pos short, ← formed.2]

/-- A string is handed over as it was given. -/
theorem ByteStr.asStr_ofStr {text : String} {wire : ByteStr} (converted : ofStr text = some wire) :
    wire.asStr = some text := by
  have bytes : wire.asBytes = utf8 text.toList :=
    (ofStr_spec converted).1.trans (Api.asBytes_eq text)
  rw [asStr, (fromUtf8_iff _ _).mpr bytes]
  simp

/-- A text that was validated is UTF-8, and its string is that of the wire. -/
theorem ByteStr.asStr_source [UnicodeGeneralCategory] {wire : ByteStr} (formed : wire.WellFormed) :
    ∃ text, wire.asStr = some text ∧ ofStr text = some wire := by
  obtain ⟨chars, bytes⟩ := validateLoop_utf8 formed.2
  have same : Api.asBytes (String.ofList chars) = wire.asBytes := by
    rw [Api.asBytes_eq, String.toList_ofList, bytes]
    rfl
  refine ⟨String.ofList chars, ?_, ?_⟩
  · rw [asStr, (fromUtf8_iff _ _).mpr bytes]
    rfl
  · have data : BinaryData.ofSlice wire.asBytes = some wire.data :=
      BinaryData.ofSlice_asBytes formed.1
    rw [ofStr, same, data]
    rfl

end MqttClient.Proto

namespace MqttClient.Api

open Lib Proto Client Io

theorem userProperties_back {properties : List (String × String)} {wire : UserProperties}
    (converted : mapUserPropertiesToByteStr properties = some wire) :
    userPropertiesToString wire = some properties := by
  refine mapM_back (fun pair result found => ?_) converted
  simp only [Option.bind_eq_bind, Option.bind_eq_some_iff, Option.pure_def, Option.some.injEq]
    at found
  obtain ⟨name, named, value, valued, rfl⟩ := found
  simp [ByteStr.asStr_ofStr named, ByteStr.asStr_ofStr valued]

theorem text_back {value : Option String} {wire : Option ByteStr}
    (converted : value.mapM ByteStr.ofStr = some wire) : wire.mapM ByteStr.asStr = some value :=
  optional_back (fun _ _ found => ByteStr.asStr_ofStr found) converted

theorem data_back {value : Option Bytes} {wire : Option BinaryData}
    (converted : value.mapM BinaryData.ofSlice = some wire) :
    wire.map BinaryData.asBytes = value := by
  rcases optional_some.mp converted with ⟨rfl, rfl⟩ | ⟨held, data, rfl, rfl, found⟩
  · rfl
  · exact congrArg some (BinaryData.ofSlice_spec found).1

section

variable [UnicodeGeneralCategory]

theorem userProperties_source {wire : UserProperties}
    (formed : ∀ pair ∈ wire, pair.1.WellFormed ∧ pair.2.WellFormed) :
    ∃ properties, userPropertiesToString wire = some properties ∧
      mapUserPropertiesToByteStr properties = some wire := by
  refine mapM_source (fun pair formed => ?_) formed
  obtain ⟨name, named, first⟩ := ByteStr.asStr_source formed.1
  obtain ⟨value, valued, last⟩ := ByteStr.asStr_source formed.2
  exact ⟨(name, value), by simp [named, valued], by simp [first, last]⟩

theorem text_source {wire : Option ByteStr} (formed : ∀ held ∈ wire, held.WellFormed) :
    ∃ value, wire.mapM ByteStr.asStr = some value ∧ value.mapM ByteStr.ofStr = some wire :=
  optional_source (fun _ formed => ByteStr.asStr_source formed) formed

omit [UnicodeGeneralCategory] in
theorem data_source {wire : Option BinaryData} (formed : ∀ held ∈ wire, held.WellFormed) :
    (wire.map BinaryData.asBytes).mapM BinaryData.ofSlice = some wire := by
  cases wire with
  | none => rfl
  | some data => simp [BinaryData.ofSlice_asBytes (formed data rfl)]

theorem TopicName.ofProto_into {name : TopicName} {topic : Topic}
    (converted : name.into = some topic) : TopicName.ofProto topic = some name := by
  obtain ⟨inner, text, rfl⟩ := Option.map_eq_some_iff.mp converted
  have valid := name.valid
  simp [ofProto, ByteStr.asStr_ofStr text, valid]

theorem TopicName.ofProto_source {topic : Topic} (formed : topic.WellFormed) :
    ∃ name, TopicName.ofProto topic = some name ∧ name.into = some topic := by
  obtain ⟨text, named, back⟩ := ByteStr.asStr_source formed.1
  have content : asBytes text = topic.inner.asBytes := (ByteStr.ofStr_spec back).1.symm
  have valid : Topic.check (asBytes text) = .ok () := by
    have made := formed.2
    rw [Topic.new_eq_check formed.1.1, ← content] at made
    cases checked : Topic.check (asBytes text) with
    | ok _ => rfl
    | error fault => simp [checked, Except.map] at made
  exact ⟨⟨text, valid⟩, by simp [ofProto, named, valid], by simp [into, back]⟩

end

/-! ### What was sent is handed over -/

theorem AuthenticationInfo.ofProto_into {info : AuthenticationInfo} {wire : Authentication}
    (converted : info.into = some wire) : AuthenticationInfo.ofProto wire = some info := by
  simp only [into, Option.bind_eq_bind, Option.bind_eq_some_iff, Option.pure_def,
    Option.some.injEq] at converted
  obtain ⟨method, methodFound, data, dataFound, rfl⟩ := converted
  simp [ofProto, ByteStr.asStr_ofStr methodFound, data_back dataFound]

theorem Auth.ofProto_into {auth : Auth} {wire : Proto.Auth} (converted : auth.into = some wire) :
    Auth.ofProto wire = some auth := by
  simp only [into, Option.bind_eq_bind, Option.bind_eq_some_iff, Option.pure_def,
    Option.some.injEq] at converted
  obtain ⟨info, infoFound, reason, reasonFound, users, usersFound, rfl⟩ := converted
  have given := optional_back (fun _ _ found => AuthenticationInfo.ofProto_into found) infoFound
  simp [ofProto, given, text_back reasonFound, userProperties_back usersFound]

theorem PubAckProperties.ofProto_into {properties : PubAckProperties}
    {wire : PubAckOtherProperties} (converted : properties.into = some wire) :
    PubAckProperties.ofProto wire = some properties := by
  simp only [into, Option.bind_eq_bind, Option.bind_eq_some_iff, Option.pure_def,
    Option.some.injEq] at converted
  obtain ⟨reason, reasonFound, users, usersFound, rfl⟩ := converted
  simp [ofProto, text_back reasonFound, userProperties_back usersFound]

/-- The interval that a DISCONNECT is read with. -/
def DisconnectProperties.normalize (properties : DisconnectProperties) : DisconnectProperties :=
  { properties with
    sessionExpiryInterval := properties.sessionExpiryInterval.map .normalize }

theorem DisconnectProperties.ofProto_into {properties : DisconnectProperties}
    {wire : DisconnectOtherProperties} (converted : properties.into = some wire) :
    DisconnectProperties.ofProto wire.normalize = some properties.normalize := by
  simp only [into, Option.bind_eq_bind, Option.bind_eq_some_iff, Option.pure_def,
    Option.some.injEq] at converted
  obtain ⟨reason, reasonFound, users, usersFound, server, serverFound, rfl⟩ := converted
  simp [ofProto, DisconnectOtherProperties.normalize, normalize, text_back reasonFound,
    userProperties_back usersFound, text_back serverFound]

section

variable [UnicodeGeneralCategory]

theorem PublishProperties.ofProto_into {properties : PublishProperties}
    {wire : PublishOtherProperties} (converted : properties.into = some wire) :
    PublishProperties.ofProto wire = some properties := by
  simp only [into, Option.bind_eq_bind, Option.bind_eq_some_iff, Option.pure_def,
    Option.some.injEq] at converted
  obtain ⟨topic, topicFound, data, dataFound, users, usersFound, text, textFound, rfl⟩ := converted
  have topics := optional_back (fun _ _ found => TopicName.ofProto_into found) topicFound
  have indicator : (if (decide (properties.payloadFormatIndicator = .utf8)) = true then
      PayloadFormatIndicator.utf8 else .unspecified) = properties.payloadFormatIndicator := by
    cases properties.payloadFormatIndicator <;> rfl
  simp only [ofProto, topics, data_back dataFound, userProperties_back usersFound,
    text_back textFound, indicator]
  rfl

theorem Publish.ofProto_into {name : TopicName} {properties : PublishProperties} {topic : Topic}
    {other : PublishOtherProperties} (named : name.into = some topic)
    (converted : properties.into = some other) (dupQoS : PacketIdentifierDupQoS) (retain : Bool)
    (payload : Bytes) :
    Publish.ofProto ⟨topic, dupQoS, retain, payload, other⟩ =
      some ⟨payload, .ofProto dupQoS, retain, name, properties⟩ := by
  simp [ofProto, TopicName.ofProto_into named, PublishProperties.ofProto_into converted]

end

/-! ### What is handed over was read -/

section

variable [UnicodeGeneralCategory]

theorem AuthenticationInfo.ofProto_source {value : Option Authentication}
    (method : ∀ held ∈ (Authentication.intoParts value).1, held.WellFormed)
    (data : ∀ held ∈ (Authentication.intoParts value).2, held.WellFormed) :
    ∃ info, value.mapM AuthenticationInfo.ofProto = some info ∧
      info.mapM AuthenticationInfo.into = some value := by
  have source : ∀ held : Authentication,
      (held.method.WellFormed ∧ ∀ bytes ∈ held.data, bytes.WellFormed) →
      ∃ info, AuthenticationInfo.ofProto held = some info ∧ info.into = some held := by
    intro held formed
    obtain ⟨text, named, back⟩ := ByteStr.asStr_source formed.1
    exact ⟨⟨text, held.data.map BinaryData.asBytes⟩, by simp [ofProto, named],
      by simp [into, back, data_source formed.2]⟩
  refine optional_source source fun held same => ?_
  obtain rfl := Option.mem_def.mp same
  exact ⟨method _ rfl, data⟩

theorem Auth.ofProto_source {wire : Proto.Auth} (formed : wire.WellFormed .v5) :
    ∃ auth, Auth.ofProto wire = some auth ∧ auth.into = some wire := by
  simp only [Proto.Auth.WellFormed, Proto.Auth.slots, List.forall_mem_cons, List.not_mem_nil,
    false_imp_iff, implies_true, and_true, Binding.wellFormed_optional,
    Binding.wellFormed_repeated, Binding.authenticationMethod, Binding.authenticationData,
    Binding.reasonString, Binding.userProperty, Property.WellFormed] at formed
  obtain ⟨method, data, reason, users⟩ := formed
  obtain ⟨info, infoFound, infoBack⟩ := AuthenticationInfo.ofProto_source method data
  obtain ⟨text, textFound, textBack⟩ := text_source reason
  obtain ⟨properties, usersFound, usersBack⟩ := userProperties_source users
  exact ⟨⟨wire.reasonCode, info, ⟨text, properties⟩⟩,
    by simp [ofProto, infoFound, textFound, usersFound],
    by simp [into, infoBack, textBack, usersBack]⟩

theorem PubAckProperties.ofProto_source {wire : AckOtherProperties}
    (formed : ∀ slot ∈ wire.slots, slot.WellFormed) :
    ∃ properties, PubAckProperties.ofProto wire = some properties ∧
      properties.into = some wire := by
  simp only [AckOtherProperties.slots, List.forall_mem_cons, List.not_mem_nil, false_imp_iff,
    implies_true, and_true, Binding.wellFormed_optional, Binding.wellFormed_repeated,
    Binding.reasonString, Binding.userProperty, Property.WellFormed] at formed
  obtain ⟨text, textFound, textBack⟩ := text_source formed.1
  obtain ⟨properties, usersFound, usersBack⟩ := userProperties_source formed.2
  exact ⟨⟨text, properties⟩, by simp [ofProto, textFound, usersFound],
    by simp [into, textBack, usersBack]⟩

theorem DisconnectProperties.ofProto_source {wire : DisconnectOtherProperties}
    (formed : ∀ slot ∈ Disconnect.slots wire, slot.WellFormed) :
    ∃ properties, DisconnectProperties.ofProto wire = some properties ∧
      properties.into = some wire := by
  simp only [Proto.Disconnect.slots, List.forall_mem_cons, List.not_mem_nil, false_imp_iff,
    implies_true, and_true, Binding.wellFormed_optional, Binding.wellFormed_repeated,
    Binding.reasonString, Binding.serverReference, Binding.userProperty, Property.WellFormed]
    at formed
  obtain ⟨-, reason, users, server⟩ := formed
  obtain ⟨text, textFound, textBack⟩ := text_source reason
  obtain ⟨properties, usersFound, usersBack⟩ := userProperties_source users
  obtain ⟨other, otherFound, otherBack⟩ := text_source server
  exact ⟨⟨wire.sessionExpiryInterval, text, properties, other⟩,
    by simp [ofProto, textFound, usersFound, otherFound],
    by simp [into, textBack, usersBack, otherBack]⟩

theorem PublishProperties.ofProto_source {wire : PublishOtherProperties}
    (formed : ∀ slot ∈ Proto.Publish.slots wire, slot.WellFormed) :
    ∃ properties, PublishProperties.ofProto wire = some properties ∧
      properties.into = some wire := by
  simp only [Proto.Publish.slots, List.forall_mem_cons, List.not_mem_nil, false_imp_iff,
    implies_true, and_true, Binding.wellFormed_optional, Binding.wellFormed_repeated,
    Binding.responseTopic, Binding.correlationData, Binding.contentType, Binding.userProperty,
    Property.WellFormed] at formed
  obtain ⟨-, -, -, topic, data, users, -, content⟩ := formed
  obtain ⟨name, topicFound, topicBack⟩ :=
    optional_source (fun _ formed => TopicName.ofProto_source formed) topic
  obtain ⟨properties, usersFound, usersBack⟩ := userProperties_source users
  obtain ⟨text, textFound, textBack⟩ := text_source content
  have indicator : decide ((if wire.payloadIsUtf8 = true then PayloadFormatIndicator.utf8
      else .unspecified) = .utf8) = wire.payloadIsUtf8 := by
    cases wire.payloadIsUtf8 <;> rfl
  refine ⟨⟨if wire.payloadIsUtf8 then .utf8 else .unspecified, wire.messageExpiryInterval,
    wire.topicAlias, name, wire.correlationData.map BinaryData.asBytes, properties,
    wire.subscriptionIdentifiers, text⟩, ?_, ?_⟩
  · simp only [ofProto, topicFound, usersFound, textFound]
    rfl
  · simp only [into, topicBack, data_source data, usersBack, textBack, indicator]
    rfl

theorem ConnAckProperties.ofProto_source {wire : ConnAckOtherProperties}
    (formed : ∀ slot ∈ wire.slots, slot.WellFormed) :
    ∃ properties, ConnAckProperties.ofProto wire = some properties ∧
      properties.into = some { wire with authentication := none } := by
  simp only [ConnAckOtherProperties.slots, List.forall_mem_cons, List.not_mem_nil, false_imp_iff,
    implies_true, and_true, Binding.wellFormed_optional, Binding.wellFormed_repeated,
    Binding.assignedClientIdentifier, Binding.reasonString, Binding.responseInformation,
    Binding.serverReference, Binding.userProperty, Property.WellFormed] at formed
  obtain ⟨-, -, -, -, -, client, -, reason, users, -, -, -, -, response, server, -⟩ := formed
  obtain ⟨clientText, clientFound, clientBack⟩ := text_source client
  obtain ⟨reasonText, reasonFound, reasonBack⟩ := text_source reason
  obtain ⟨properties, usersFound, usersBack⟩ := userProperties_source users
  obtain ⟨responseText, responseFound, responseBack⟩ := text_source response
  obtain ⟨serverText, serverFound, serverBack⟩ := text_source server
  refine ⟨{
    sessionExpiryInterval := wire.sessionExpiryInterval
    receiveMaximum := wire.receiveMaximum
    maximumQoS := wire.maximumQoS
    retainAvailable := wire.retainAvailable
    maximumPacketSize := wire.maximumPacketSize
    assignedClientIdentifier := clientText
    topicAliasMaximum := wire.topicAliasMaximum
    reasonString := reasonText
    userProperties := properties
    wildcardSubscriptionAvailable := wire.wildcardSubscriptionAvailable
    subscriptionIdentifiersAvailable := wire.subscriptionIdentifiersAvailable
    sharedSubscriptionAvailable := wire.sharedSubscriptionAvailable
    serverKeepAlive := wire.serverKeepAlive
    responseInformation := responseText
    serverReference := serverText }, ?_, ?_⟩
  · simp only [ofProto, clientFound, reasonFound, usersFound, responseFound, serverFound]
    rfl
  · simp only [into, clientBack, reasonBack, usersBack, responseBack, serverBack]
    rfl

end

/-! ### Packets -/

section

variable [UnicodeGeneralCategory]

/-- A packet of the server as the application sees it. -/
inductive Received where
  | connAck (packet : ConnAck)
  | publish (packet : Publish)
  | pubAck (packet : PubAck)
  | subAck (packet : SubAck)
  | unsubAck (packet : UnsubAck)
  | auth (packet : Auth)
  | disconnect (packet : Disconnect)

namespace Received

/-- The value for a packet of the kinds that are handed over. There is none if a text is not
UTF-8 or a topic not valid. -/
def ofPacket : Packet → Option Received
  | .connAck packet => (ConnAck.ofProto packet).map connAck
  | .publish packet => (Publish.ofProto packet).map publish
  | .pubAck packet => (PubAck.ofProto packet).map pubAck
  | .subAck packet => (SubAck.ofProto packet).map subAck
  | .unsubAck packet => (UnsubAck.ofProto packet).map unsubAck
  | .auth packet => (Auth.ofProto packet).map auth
  | .disconnect packet => (Disconnect.ofProto packet).map disconnect
  | _ => none

/-- The packet with this content. -/
def packet : Received → Option Packet
  | .connAck packet => packet.properties.into.map fun other =>
    .connAck ⟨match packet.reason with
      | .success => .success packet.sessionPresent
      | .refused reason => .refused reason, other⟩
  | .publish packet => do
    return .publish ⟨← packet.topicName.into, packet.qos.into, packet.retain, packet.payload,
      ← packet.properties.into⟩
  | .pubAck packet => packet.properties.into.map fun other =>
    .pubAck ⟨packet.packetIdentifier, packet.reason, other⟩
  | .subAck packet => packet.properties.into.map fun other =>
    .subAck ⟨packet.packetIdentifier, packet.reasons, other⟩
  | .unsubAck packet => packet.properties.into.map fun other =>
    .unsubAck ⟨packet.packetIdentifier, packet.reasons, other⟩
  | .auth packet => packet.into.map .auth
  | .disconnect packet => packet.properties.into.map fun other =>
    .disconnect ⟨packet.reason, other⟩

end Received

/-- The packets that are handed over. -/
def handed : Packet → Bool
  | .connAck _ | .publish _ | .pubAck _ | .subAck _ | .unsubAck _ | .auth _ | .disconnect _ => true
  | _ => false

/-- The packet without the authentication of a CONNACK. -/
def shown : Packet → Packet
  | .connAck packet =>
    .connAck ⟨packet.reasonCode, { packet.otherProperties with authentication := none }⟩
  | packet => packet

/-- A packet that is read is handed over with all its content. Every text that is taken for
UTF-8 is UTF-8, and every topic is valid. -/
theorem received_exact (src : Bytes) (packet : Packet)
    (read : Packet.decodeFull src .v5 = .ok packet) (kind : handed packet = true) :
    ∃ value, Received.ofPacket packet = some value ∧ value.packet = some (shown packet) := by
  have formed := (Packet.wellFormed_of_decodeFull read).1
  cases packet with
  | connAck packet =>
    obtain ⟨reasonCode, other⟩ := packet
    obtain ⟨properties, found, back⟩ := ConnAckProperties.ofProto_source formed.2
    cases reasonCode with
    | success sessionPresent =>
      exact ⟨.connAck ⟨sessionPresent, .success, properties⟩,
        by simp [Received.ofPacket, ConnAck.ofProto, found],
        by simp [Received.packet, back, shown]⟩
    | refused reason =>
      exact ⟨.connAck ⟨false, .refused reason, properties⟩,
        by simp [Received.ofPacket, ConnAck.ofProto, found],
        by simp [Received.packet, back, shown]⟩
  | publish packet =>
    obtain ⟨topic, dupQoS, retain, payload, other⟩ := packet
    obtain ⟨name, nameFound, nameBack⟩ := TopicName.ofProto_source formed.topicName
    obtain ⟨properties, found, back⟩ := PublishProperties.ofProto_source formed.properties
    have qos : (DeliveryQoS.ofProto dupQoS).into = dupQoS := by cases dupQoS <;> rfl
    simp only at nameFound found
    exact ⟨.publish ⟨payload, .ofProto dupQoS, retain, name, properties⟩,
      by simp [Received.ofPacket, Publish.ofProto, nameFound, found],
      by simp [Received.packet, nameBack, back, qos, shown]⟩
  | pubAck packet =>
    obtain ⟨properties, found, back⟩ := PubAckProperties.ofProto_source formed
    exact ⟨.pubAck ⟨packet.packetIdentifier, packet.reasonCode, properties⟩,
      by simp [Received.ofPacket, PubAck.ofProto, found],
      by simp [Received.packet, back, shown]⟩
  | subAck packet =>
    obtain ⟨properties, found, back⟩ := PubAckProperties.ofProto_source formed.properties
    exact ⟨.subAck ⟨packet.packetIdentifier, packet.reasonCodes, properties⟩,
      by simp [Received.ofPacket, SubAck.ofProto, SubAckProperties.ofProto, found],
      by simp [Received.packet, back, shown]⟩
  | unsubAck packet =>
    obtain ⟨properties, found, back⟩ := PubAckProperties.ofProto_source formed.2
    exact ⟨.unsubAck ⟨packet.packetIdentifier, packet.reasonCodes, properties⟩,
      by simp [Received.ofPacket, UnsubAck.ofProto, UnsubAckProperties.ofProto, found],
      by simp [Received.packet, back, shown]⟩
  | auth packet =>
    obtain ⟨auth, found, back⟩ := Auth.ofProto_source formed
    exact ⟨.auth auth, by simp [Received.ofPacket, found], by simp [Received.packet, back, shown]⟩
  | disconnect packet =>
    obtain ⟨properties, found, back⟩ := DisconnectProperties.ofProto_source formed
    exact ⟨.disconnect ⟨packet.reasonCode, properties⟩,
      by simp [Received.ofPacket, Disconnect.ofProto, found],
      by simp [Received.packet, back, shown]⟩
  | _ => cases kind

/-- What the receiver of a submission is to be handed. -/
def Submission.meant : Submission → Option Received
  | .request (.publishQoS0 topicName payload retain properties) _ _ =>
    some (.publish ⟨payload, .atMostOnce, retain, topicName, properties⟩)
  | .request (.publishQoS1 topicName payload retain properties) pkid dup =>
    some (.publish ⟨payload, .atLeastOnce ⟨dup, pkid⟩, retain, topicName, properties⟩)
  | .accept pkid properties => some (.pubAck ⟨pkid, .success, properties⟩)
  | .reject pkid reason properties => some (.pubAck ⟨pkid, reason.into, properties⟩)
  | .auth content => some (.auth content)
  | .disconnect properties => some (.disconnect ⟨.normal, properties.normalize⟩)
  | _ => none

/-- The packet of a submission is converted to what was submitted. -/
theorem Submission.ofPacket_meant {submission : Submission} {packet : Packet} {value : Received}
    (built : submission.packet = some packet) (meant : submission.meant = some value) :
    Received.ofPacket packet.normalize = some value := by
  cases submission with
  | request content pkid dup =>
    cases content with
    | publishQoS0 topicName payload retain properties =>
      simp only [Submission.packet, Request.packet, Request.event, Option.bind_eq_bind,
        Option.pure_def, Option.bind_assoc, Option.bind_some, Option.bind_eq_some_iff,
        Option.some.injEq] at built
      obtain ⟨topic, named, other, converted, rfl⟩ := built
      cases meant
      exact congrArg (Option.map Received.publish) (Publish.ofProto_into named converted _ _ _)
    | publishQoS1 topicName payload retain properties =>
      simp only [Submission.packet, Request.packet, Request.event, Option.bind_eq_bind,
        Option.pure_def, Option.bind_assoc, Option.bind_some, Option.bind_eq_some_iff,
        Option.some.injEq] at built
      obtain ⟨topic, named, other, converted, rfl⟩ := built
      cases meant
      exact congrArg (Option.map Received.publish) (Publish.ofProto_into named converted _ _ _)
    | _ => cases meant
  | accept pkid properties =>
    obtain ⟨other, converted, rfl⟩ := Option.map_eq_some_iff.mp built
    cases meant
    simp [Packet.normalize, Received.ofPacket, PubAck.ofProto,
      PubAckProperties.ofProto_into converted]
  | reject pkid reason properties =>
    obtain ⟨other, converted, rfl⟩ := Option.map_eq_some_iff.mp built
    cases meant
    simp [Packet.normalize, Received.ofPacket, PubAck.ofProto,
      PubAckProperties.ofProto_into converted]
  | auth content =>
    obtain ⟨wire, converted, rfl⟩ := Option.map_eq_some_iff.mp built
    cases meant
    simp [Packet.normalize, Received.ofPacket, Auth.ofProto_into converted]
  | connect arguments => cases meant
  | disconnect properties =>
    obtain ⟨other, converted, rfl⟩ := Option.map_eq_some_iff.mp built
    cases meant
    simp [Packet.normalize, Proto.Disconnect.normalize, Received.ofPacket, Disconnect.ofProto,
      DisconnectProperties.ofProto_into converted]

/-- What an application sends with clean texts is what an application at the other end is
handed, whether it is a message, an acknowledgement, an AUTH or a DISCONNECT. -/
theorem received_as_sent (submission : Submission) (packet : Packet) (value : Received)
    (built : submission.packet = some packet) (documented : submission.documented)
    (encoded : encodes packet .v5 = true) (clean : submission.Clean)
    (meant : submission.meant = some value) :
    ∃ decoded, Packet.decodeFull (code packet .v5) .v5 = .ok decoded ∧
      Received.ofPacket decoded = some value := by
  obtain ⟨decoded, read, same⟩ := (readBack_iff built documented encoded).mpr clean
  have formed := (Packet.wellFormed_of_decodeFull read).1
  rw [Packet.normalize_of_wellFormed formed] at same
  exact ⟨decoded, read, same ▸ Submission.ofPacket_meant built meant⟩

end

/-- A PUBLISH with QoS 1 on the topic `a`, with a content type. -/
def notice : Bytes := [0x32, 11, 0, 1, 0x61, 0, 1, 4, 3, 0, 1, 0x62, 0x21]

theorem received_exact_notice :
    letI := asciiCategory
    ∃ packet value, Packet.decodeFull notice .v5 = .ok packet ∧
      Received.ofPacket packet = some value ∧ value.packet = some packet := by
  let := asciiCategory
  have read : Packet.decodeFull notice .v5 = .ok (.publish ⟨⟨⟨⟨[0, 1, 0x61]⟩⟩⟩,
      .atLeastOnce .one false, false, [0x21], { contentType := some ⟨⟨[0, 1, 0x62]⟩⟩ }⟩) := by
    decide +kernel
  obtain ⟨value, found, back⟩ := received_exact notice _ read rfl
  exact ⟨_, value, read, found, back⟩

theorem received_as_sent_farewell :
    letI := asciiCategory
    ∃ packet decoded, farewell.packet = some packet ∧
      Packet.decodeFull (code packet .v5) .v5 = .ok decoded ∧
      Received.ofPacket decoded = some (.disconnect
        ⟨.normal, { sessionExpiryInterval := some .infinite, reasonString := some "bye" }⟩) := by
  let := asciiCategory
  have built : farewell.packet = some (.disconnect ⟨.normal,
      { sessionExpiryInterval := some (.duration 4294967295)
        reasonString := some ⟨⟨[0, 3, 0x62, 0x79, 0x65]⟩⟩ }⟩) := by
    decide +kernel
  have clean : farewell.Clean := by
    intro field member
    obtain rfl : field = .text "bye" := List.mem_singleton.mp member
    exact (validateMqttString_iff "bye").mp (by decide +kernel)
  obtain ⟨decoded, read, handed⟩ :=
    received_as_sent farewell _ _ built trivial (by decide +kernel) clean rfl
  exact ⟨_, decoded, built, read, handed⟩

end MqttClient.Api
