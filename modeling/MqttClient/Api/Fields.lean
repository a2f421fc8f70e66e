import MqttClient.Lib.Traverse
import MqttClient.Proto.Normalize
import MqttClient.Api.Conversion

/-! The texts and the data that an application puts into a packet. Their lengths decide
whether the conversion to the types of the codec panics, and their characters whether what is
converted can be read back. -/

namespace MqttClient.Proto

variable [UnicodeGeneralCategory] {α : Type} (binding : Binding α)

namespace Binding

@[simp] theorem wellFormed_optional (value : Option α) :
    (binding.optional value).WellFormed ↔ ∀ held ∈ value, (binding.property held).WellFormed := by
  cases value <;> simp [optional, Slot.WellFormed]

@[simp] theorem wellFormed_once (value : α) :
    (binding.once value).WellFormed ↔ (binding.property value).WellFormed := by
  simp [once, Slot.WellFormed]

@[simp] theorem wellFormed_repeated (values : List α) :
    (binding.repeated values).WellFormed ↔
      ∀ value ∈ values, (binding.property value).WellFormed := by
  simp [repeated, Slot.WellFormed]

end Binding

end MqttClient.Proto

namespace MqttClient.Api

open Lib Proto

/-- A value of an application that the wire carries behind a length of two bytes. Topics are
checked when they are made, and a payload has no such length. -/
inductive Field where
  | text (content : String)
  | data (bytes : Bytes)

namespace Field

def length : Field → Nat
  | .text content => (asBytes content).length
  | .data bytes => bytes.length

/-- The length of the field fits into two bytes. -/
def Short (field : Field) : Prop := field.length ≤ 65535

/-- The field has only characters that the protocol allows. -/
def Clean [UnicodeGeneralCategory] : Field → Prop
  | .text content => ∀ c ∈ content.toList, Allowed c
  | .data _ => True

@[simp] theorem short_text (content : String) :
    (Field.text content).Short ↔ (ByteStr.ofStr content).isSome = true :=
  (ByteStr.isSome_ofStr content).symm

@[simp] theorem short_data (bytes : Bytes) :
    (Field.data bytes).Short ↔ (BinaryData.ofSlice bytes).isSome = true :=
  (BinaryData.isSome_ofSlice bytes).symm

@[simp] theorem clean_data [UnicodeGeneralCategory] (bytes : Bytes) : (Field.data bytes).Clean :=
  trivial

end Field

def userFields (properties : List (String × String)) : List Field :=
  properties.flatMap fun (name, value) => [.text name, .text value]

def AuthenticationInfo.fields (info : AuthenticationInfo) : List Field :=
  .text info.method :: info.data.toList.map .data

def Auth.fields (auth : Auth) : List Field :=
  auth.authenticationInfo.toList.flatMap AuthenticationInfo.fields ++
    auth.properties.reasonString.toList.map .text ++ userFields auth.properties.userProperties

def PubAckProperties.fields (properties : PubAckProperties) : List Field :=
  properties.reasonString.toList.map .text ++ userFields properties.userProperties

def DisconnectProperties.fields (properties : DisconnectProperties) : List Field :=
  properties.reasonString.toList.map .text ++ userFields properties.userProperties ++
    properties.serverReference.toList.map .text

section

variable [UnicodeGeneralCategory]

def PublishProperties.fields (properties : PublishProperties) : List Field :=
  properties.correlationData.toList.map .data ++ userFields properties.userProperties ++
    properties.contentType.toList.map .text

def WillProperties.fields (properties : WillProperties) : List Field :=
  properties.correlationData.toList.map .data ++ userFields properties.userProperties ++
    properties.contentType.toList.map .text

def Request.fields : Request → List Field
  | .publishQoS0 _ _ _ properties => properties.fields
  | .publishQoS1 _ _ _ properties => properties.fields
  | .subscribe _ _ _ _ properties => userFields properties.userProperties
  | .unsubscribe _ properties => userFields properties.userProperties

/-- Subscriptions with QoS 2 are documented to panic. -/
def Request.supported : Request → Prop
  | .subscribe _ maxQoS _ _ _ => maxQoS ≠ .exactlyOnce
  | _ => True

def ConnectArguments.fields (arguments : ConnectArguments) : List Field :=
  arguments.clientId.toList.map .text ++ arguments.username.toList.map .text ++
    arguments.password.toList.map .data ++
    arguments.will.toList.flatMap (fun will => will.properties.fields) ++
    userFields arguments.properties.userProperties ++
    arguments.authenticationInfo.toList.flatMap AuthenticationInfo.fields

end

section

variable {property : Field → Prop}

@[simp] theorem forall_userFields (properties : List (String × String)) :
    (∀ field ∈ userFields properties, property field) ↔
      ∀ pair ∈ properties, property (.text pair.1) ∧ property (.text pair.2) := by
  simp only [userFields, List.forall_mem_flatMap, List.forall_mem_cons, List.not_mem_nil,
    false_imp_iff, implies_true, and_true]

@[simp] theorem forall_held {α : Type} (value : Option α) (make : α → Field) :
    (∀ field ∈ value.toList.map make, property field) ↔ ∀ held ∈ value, property (make held) := by
  cases value <;> simp

@[simp] theorem forall_fields {α : Type} (value : Option α) (fields : α → List Field) :
    (∀ field ∈ value.toList.flatMap fields, property field) ↔
      ∀ held ∈ value, ∀ field ∈ fields held, property field := by
  cases value <;> simp

end

/-! When a conversion panics. -/

theorem isSome_userProperties (properties : List (String × String)) :
    (mapUserPropertiesToByteStr properties).isSome = true ↔
      ∀ field ∈ userFields properties, field.Short := by
  rw [mapUserPropertiesToByteStr, isSome_mapM, forall_userFields]
  refine forall₂_congr fun pair _ => ?_
  simp only [Option.bind_eq_bind, Option.pure_def, isSome_bind, Option.isSome_some, and_true,
    exists_and_right, ← Option.isSome_iff_exists, Field.short_text]

theorem AuthenticationInfo.isSome_into (info : AuthenticationInfo) :
    info.into.isSome = true ↔ ∀ field ∈ info.fields, field.Short := by
  simp only [AuthenticationInfo.into, Option.bind_eq_bind, Option.pure_def, isSome_bind,
    Option.isSome_some, and_true, exists_and_right, ← Option.isSome_iff_exists, isSome_optional,
    AuthenticationInfo.fields, List.forall_mem_cons, forall_held, Field.short_text,
    Field.short_data]

theorem Auth.isSome_into (auth : Auth) :
    auth.into.isSome = true ↔ ∀ field ∈ auth.fields, field.Short := by
  simp only [Auth.into, Option.bind_eq_bind, Option.pure_def, isSome_bind, Option.isSome_some,
    and_true, exists_and_right, ← Option.isSome_iff_exists, isSome_optional,
    AuthenticationInfo.isSome_into, isSome_userProperties, Auth.fields, List.forall_mem_append,
    forall_held, forall_fields, Field.short_text, and_assoc]

theorem PubAckProperties.isSome_into (properties : PubAckProperties) :
    properties.into.isSome = true ↔ ∀ field ∈ properties.fields, field.Short := by
  simp only [PubAckProperties.into, Option.bind_eq_bind, Option.pure_def, isSome_bind,
    Option.isSome_some, and_true, exists_and_right, ← Option.isSome_iff_exists, isSome_optional,
    isSome_userProperties, PubAckProperties.fields, List.forall_mem_append, forall_held,
    Field.short_text]

theorem DisconnectProperties.isSome_into (properties : DisconnectProperties) :
    properties.into.isSome = true ↔ ∀ field ∈ properties.fields, field.Short := by
  simp only [DisconnectProperties.into, Option.bind_eq_bind, Option.pure_def, isSome_bind,
    Option.isSome_some, and_true, exists_and_right, ← Option.isSome_iff_exists, isSome_optional,
    isSome_userProperties, DisconnectProperties.fields, List.forall_mem_append, forall_held,
    Field.short_text, and_assoc]

section

variable [UnicodeGeneralCategory]

theorem TopicName.isSome_into (name : TopicName) : name.into.isSome = true := by
  obtain ⟨topic, converted, -⟩ := name.into_some
  rw [converted]
  rfl

theorem TopicFilter.isSome_into (filter : TopicFilter) : filter.into.isSome = true := by
  obtain ⟨wire, converted, -⟩ := filter.into_some
  rw [converted]
  rfl

theorem PublishProperties.isSome_into (properties : PublishProperties) :
    properties.into.isSome = true ↔ ∀ field ∈ properties.fields, field.Short := by
  simp only [PublishProperties.into, Option.bind_eq_bind, Option.pure_def, isSome_bind,
    Option.isSome_some, and_true, exists_and_right, ← Option.isSome_iff_exists, isSome_optional,
    isSome_userProperties, TopicName.isSome_into, implies_true, true_and, PublishProperties.fields,
    List.forall_mem_append, forall_held, Field.short_text, Field.short_data, and_assoc]

theorem WillProperties.isSome_into (properties : WillProperties) :
    properties.into.isSome = true ↔ ∀ field ∈ properties.fields, field.Short := by
  simp only [WillProperties.into, Option.bind_eq_bind, Option.pure_def, isSome_bind,
    Option.isSome_some, and_true, exists_and_right, ← Option.isSome_iff_exists, isSome_optional,
    isSome_userProperties, TopicName.isSome_into, implies_true, true_and, WillProperties.fields,
    List.forall_mem_append, forall_held, Field.short_text, Field.short_data, and_assoc]

theorem Will.isSome_into (will : Will) :
    will.into.isSome = true ↔ ∀ field ∈ will.properties.fields, field.Short := by
  simp only [Will.into, Option.bind_eq_bind, Option.pure_def, isSome_bind, Option.isSome_some,
    and_true, exists_and_right, ← Option.isSome_iff_exists, TopicName.isSome_into, true_and,
    WillProperties.isSome_into]

theorem ConnectArguments.isSome_mqttConnect (arguments : ConnectArguments) :
    arguments.mqttConnect.isSome = true ↔ ∀ field ∈ arguments.fields, field.Short := by
  simp only [ConnectArguments.mqttConnect, ConnectProperties.into, Option.bind_eq_bind,
    Option.pure_def, Option.bind_assoc, Option.bind_some, isSome_bind, Option.isSome_some,
    and_true, exists_and_right, ← Option.isSome_iff_exists, isSome_optional,
    isSome_userProperties, AuthenticationInfo.isSome_into, Will.isSome_into,
    ConnectArguments.fields, List.forall_mem_append, forall_held, forall_fields,
    Field.short_text, Field.short_data]
  tauto

/-- A subscription with QoS 2 is not supported, and panics. -/
theorem Request.isSome_event (request : Request) :
    request.event.isSome = true ↔
      request.supported ∧ ∀ field ∈ request.fields, field.Short := by
  cases request with
  | publishQoS0 topicName payload retain properties =>
    simp only [Request.event, Option.bind_eq_bind, Option.pure_def, isSome_bind,
      Option.isSome_some, and_true, exists_and_right, ← Option.isSome_iff_exists,
      TopicName.isSome_into, PublishProperties.isSome_into, true_and, Request.supported,
      Request.fields]
  | publishQoS1 topicName payload retain properties =>
    simp only [Request.event, Option.bind_eq_bind, Option.pure_def, isSome_bind,
      Option.isSome_some, and_true, exists_and_right, ← Option.isSome_iff_exists,
      TopicName.isSome_into, PublishProperties.isSome_into, true_and, Request.supported,
      Request.fields]
  | subscribe topicFilter maxQoS noLocal retainOptions properties =>
    by_cases supported : maxQoS = .exactlyOnce
    · simp [Request.event, Request.supported, supported]
    · simp only [Request.event, supported, if_false, SubscribeProperties.into,
        Option.bind_eq_bind, Option.pure_def, Option.bind_assoc, Option.bind_some, isSome_bind,
        Option.isSome_some, and_true, exists_and_right, ← Option.isSome_iff_exists,
        TopicFilter.isSome_into, isSome_userProperties, true_and, Request.supported, ne_eq,
        not_false_eq_true, Request.fields]
  | unsubscribe topicFilter properties =>
    simp only [Request.event, UnsubscribeProperties.into, Option.bind_eq_bind, Option.pure_def,
      Option.bind_assoc, Option.bind_some, isSome_bind, Option.isSome_some, and_true,
      exists_and_right, ← Option.isSome_iff_exists, TopicFilter.isSome_into,
      isSome_userProperties, true_and, Request.supported, Request.fields]

/-! When what is converted can be read back. -/

theorem TopicName.wellFormed_into {name : TopicName} {topic : Topic}
    (converted : name.into = some topic) : topic.WellFormed := by
  obtain ⟨found, same, formed, -⟩ := name.into_some
  obtain rfl := Option.some.inj (same.symm.trans converted)
  exact formed

theorem TopicFilter.wellFormed_into {filter : TopicFilter} {wire : Filter}
    (converted : filter.into = some wire) : wire.WellFormed ∧ wire.kind = filter.kind := by
  obtain ⟨found, same, formed, kind, -⟩ := filter.into_some
  obtain rfl := Option.some.inj (same.symm.trans converted)
  exact ⟨formed, kind⟩

theorem wellFormed_userProperties {properties : List (String × String)} {wire : UserProperties}
    (converted : mapUserPropertiesToByteStr properties = some wire) :
    (Binding.userProperty.repeated wire).WellFormed ↔
      ∀ field ∈ userFields properties, field.Clean := by
  rw [Binding.wellFormed_repeated, forall_userFields]
  refine forall_of_forall₂ (forall₂_of_mapM converted) fun pair result found => ?_
  simp only [Option.bind_eq_bind, Option.bind_eq_some_iff, Option.pure_def, Option.some.injEq]
    at found
  obtain ⟨name, named, value, valued, rfl⟩ := found
  exact and_congr (ByteStr.wellFormed_ofStr named) (ByteStr.wellFormed_ofStr valued)

theorem wellFormed_text {value : Option String} {wire : Option ByteStr}
    (converted : value.mapM ByteStr.ofStr = some wire) :
    (∀ held ∈ wire, held.WellFormed) ↔ ∀ held ∈ value, (Field.text held).Clean :=
  forall_of_optional converted fun _ _ found => ByteStr.wellFormed_ofStr found

omit [UnicodeGeneralCategory] in
theorem wellFormed_data {value : Option Bytes} {wire : Option BinaryData}
    (converted : value.mapM BinaryData.ofSlice = some wire) : ∀ held ∈ wire, held.WellFormed :=
  forall_converted converted fun _ _ found => (BinaryData.ofSlice_spec found).2.1

theorem wellFormed_topic {value : Option TopicName} {wire : Option Topic}
    (converted : value.mapM TopicName.into = some wire) : ∀ held ∈ wire, held.WellFormed :=
  forall_converted converted fun _ _ found => TopicName.wellFormed_into found

/-- The parts of an authentication, as properties. -/
theorem wellFormed_authentication {value : Option AuthenticationInfo}
    {wire : Option Authentication} (converted : value.mapM AuthenticationInfo.into = some wire) :
    ((∀ method ∈ (Authentication.intoParts wire).1, method.WellFormed) ∧
        ∀ data ∈ (Authentication.intoParts wire).2, data.WellFormed) ↔
      ∀ info ∈ value, ∀ field ∈ info.fields, field.Clean := by
  rcases optional_some.mp converted with ⟨rfl, rfl⟩ | ⟨info, authentication, rfl, rfl, found⟩
  · simp [Authentication.intoParts]
  · simp only [AuthenticationInfo.into, Option.bind_eq_bind, Option.bind_eq_some_iff,
      Option.pure_def, Option.some.injEq] at found
    obtain ⟨method, named, data, given, rfl⟩ := found
    have text : method.WellFormed ↔ (Field.text info.method).Clean :=
      ByteStr.wellFormed_ofStr named
    have formed := wellFormed_data given
    simp only [Authentication.intoParts, Option.mem_some_iff, forall_eq', AuthenticationInfo.fields,
      List.forall_mem_cons, forall_held, text]
    refine and_congr_right fun _ => ?_
    exact ⟨fun _ _ _ => trivial, fun _ => formed⟩

theorem Auth.wellFormed_into {auth : Auth} {wire : Proto.Auth} (converted : auth.into = some wire) :
    wire.WellFormed .v5 ↔ ∀ field ∈ auth.fields, field.Clean := by
  simp only [Auth.into, Option.bind_eq_bind, Option.bind_eq_some_iff, Option.pure_def,
    Option.some.injEq] at converted
  obtain ⟨info, infoFound, reason, reasonFound, users, usersFound, rfl⟩ := converted
  have authentication := wellFormed_authentication infoFound
  simp only [Proto.Auth.WellFormed, Proto.Auth.slots, List.forall_mem_cons, List.not_mem_nil,
    false_imp_iff, implies_true, and_true, Binding.wellFormed_optional,
    Binding.authenticationMethod, Binding.authenticationData, Binding.reasonString,
    Property.WellFormed, wellFormed_text reasonFound, wellFormed_userProperties usersFound]
  simp only [Auth.fields, List.forall_mem_append, forall_held, forall_fields, ← authentication,
    and_assoc]

theorem PubAckProperties.wellFormed_into {properties : PubAckProperties}
    {other : PubAckOtherProperties} (converted : properties.into = some other) :
    (∀ slot ∈ other.slots, slot.WellFormed) ↔ ∀ field ∈ properties.fields, field.Clean := by
  simp only [PubAckProperties.into, Option.bind_eq_bind, Option.bind_eq_some_iff, Option.pure_def,
    Option.some.injEq] at converted
  obtain ⟨reason, reasonFound, users, usersFound, rfl⟩ := converted
  simp only [AckOtherProperties.slots, List.forall_mem_cons, List.not_mem_nil, false_imp_iff,
    implies_true, and_true, Binding.wellFormed_optional, Binding.reasonString, Property.WellFormed,
    wellFormed_text reasonFound, wellFormed_userProperties usersFound, PubAckProperties.fields,
    List.forall_mem_append, forall_held]

theorem DisconnectProperties.wellFormed_into {properties : DisconnectProperties}
    {other : DisconnectOtherProperties} (converted : properties.into = some other) :
    (∀ slot ∈ Disconnect.slots other.normalize, slot.WellFormed) ↔
      ∀ field ∈ properties.fields, field.Clean := by
  simp only [DisconnectProperties.into, Option.bind_eq_bind, Option.bind_eq_some_iff,
    Option.pure_def, Option.some.injEq] at converted
  obtain ⟨reason, reasonFound, users, usersFound, server, serverFound, rfl⟩ := converted
  have interval : ∀ interval ∈ properties.sessionExpiryInterval.map .normalize,
      SessionExpiryInterval.WellFormed interval := by
    intro interval held
    obtain ⟨given, -, rfl⟩ := Option.map_eq_some_iff.mp held
    exact given.normalize_wellFormed
  simp only [Disconnect.slots, DisconnectOtherProperties.normalize, List.forall_mem_cons,
    List.not_mem_nil, false_imp_iff, implies_true, and_true, Binding.wellFormed_optional,
    Binding.sessionExpiryInterval, Binding.reasonString, Binding.serverReference,
    Property.WellFormed, wellFormed_text reasonFound, wellFormed_text serverFound,
    wellFormed_userProperties usersFound, and_iff_right interval]
  simp only [DisconnectProperties.fields, List.forall_mem_append, forall_held, and_assoc]

theorem PublishProperties.wellFormed_into {properties : PublishProperties}
    {other : PublishOtherProperties} (converted : properties.into = some other)
    (client : properties.subscriptionIdentifiers = []) :
    (∀ slot ∈ Publish.slots other, slot.WellFormed) ↔
      ∀ field ∈ properties.fields, field.Clean := by
  simp only [PublishProperties.into, Option.bind_eq_bind, Option.bind_eq_some_iff,
    Option.pure_def, Option.some.injEq] at converted
  obtain ⟨topic, topicFound, data, dataFound, users, usersFound, text, textFound, rfl⟩ := converted
  simp only [Publish.slots, List.forall_mem_cons, List.not_mem_nil, false_imp_iff, implies_true,
    and_true, true_and, Binding.wellFormed_once, Binding.wellFormed_optional,
    Binding.payloadIsUtf8, Binding.messageExpiryInterval, Binding.topicAlias,
    Binding.responseTopic, Binding.correlationData, Binding.contentType, Property.WellFormed,
    and_iff_right (wellFormed_topic topicFound), and_iff_right (wellFormed_data dataFound),
    wellFormed_text textFound, wellFormed_userProperties usersFound, client,
    Binding.wellFormed_repeated]
  simp only [PublishProperties.fields, List.forall_mem_append, forall_held, Field.clean_data,
    implies_true, true_and]

theorem WillProperties.wellFormed_into {properties : WillProperties}
    {other : PublicationOtherProperties} (converted : properties.into = some other)
    (delayInterval : UInt32) :
    (∀ slot ∈ Connect.willSlots other delayInterval, slot.WellFormed) ↔
      ∀ field ∈ properties.fields, field.Clean := by
  simp only [WillProperties.into, Option.bind_eq_bind, Option.bind_eq_some_iff,
    Option.pure_def, Option.some.injEq] at converted
  obtain ⟨topic, topicFound, data, dataFound, users, usersFound, text, textFound, rfl⟩ := converted
  simp only [Connect.willSlots, List.forall_mem_cons, List.not_mem_nil, false_imp_iff,
    implies_true, and_true, true_and, Binding.wellFormed_once, Binding.wellFormed_optional,
    Binding.willDelayInterval, Binding.payloadIsUtf8, Binding.messageExpiryInterval,
    Binding.responseTopic, Binding.correlationData, Binding.contentType, Property.WellFormed,
    and_iff_right (wellFormed_topic topicFound), and_iff_right (wellFormed_data dataFound),
    wellFormed_text textFound, wellFormed_userProperties usersFound]
  simp only [WillProperties.fields, List.forall_mem_append, forall_held, Field.clean_data,
    implies_true, true_and, and_comm]

/-- A will is read back if its payload fits into two bytes of length. -/
theorem Will.wellFormed_into {will : Will} {wire : Publication × UInt32}
    (converted : will.into = some wire) (fits : wire.1.payload.length ≤ 65535) :
    Connect.WillFormed .v5 wire ↔ ∀ field ∈ will.properties.fields, field.Clean := by
  simp only [Will.into, Option.bind_eq_bind, Option.bind_eq_some_iff, Option.pure_def,
    Option.some.injEq] at converted
  obtain ⟨topic, topicFound, other, otherFound, rfl⟩ := converted
  rw [← WillProperties.wellFormed_into otherFound will.properties.delayInterval]
  constructor
  · exact fun formed => formed.properties
  · exact fun properties => ⟨TopicName.wellFormed_into topicFound, fits, properties⟩

end

end MqttClient.Api
