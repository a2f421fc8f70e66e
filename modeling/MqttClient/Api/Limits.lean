import MqttClient.Lib.Traverse
import MqttClient.Proto.Encodable
import MqttClient.Io.Writer
import MqttClient.Client.Provenance
import MqttClient.Api.Conversion

/-! The requests whose packets can be encoded. Nothing checks them before they are accepted,
and a PUBLISH that the encoder refuses stays in flight. -/

namespace MqttClient.Proto

open Lib

namespace Binding

variable {α : Type} (binding : Binding α)

theorem weight_optional (value : Option α) : Property.weight (binding.optional value).properties =
    value.elim 0 fun held => (binding.property held).encode.size := by
  cases value <;> simp [optional, Property.weight]

theorem weight_once (value : α) :
    Property.weight (binding.once value).properties = (binding.property value).encode.size := by
  simp [once, Property.weight]

theorem weight_repeated (values : List α) : Property.weight (binding.repeated values).properties =
    (values.map fun value => (binding.property value).encode.size).sum := by
  simp [repeated, Property.weight, Function.comp_def]

end Binding

theorem weight_slots (slots : List Slot) : Property.weight (slots.flatMap Slot.properties) =
    (slots.map fun slot => Property.weight slot.properties).sum := by
  induction slots with
  | nil => rfl
  | cons head tail ih => simp [Property.weight_append, ih]

end MqttClient.Proto

namespace MqttClient.Api

open Lib Proto Client

/-- The bytes of a string on the wire. -/
def textLength (text : String) : Nat := 2 + (asBytes text).length

/-- The bytes of user properties on the wire. -/
def userPropertiesLength (properties : List (String × String)) : Nat :=
  (properties.map fun (name, value) => 1 + textLength name + textLength value).sum

def SubscribeProperties.length (properties : SubscribeProperties) : Nat :=
  (properties.subscriptionIdentifier.elim 0 fun identifier =>
      1 + varintLength identifier.get.toNat) +
    userPropertiesLength properties.userProperties

theorem userProperty_size {name value : String} {wire : ByteStr × ByteStr}
    (converted : (do return (← ByteStr.ofStr name, ← ByteStr.ofStr value) : Option _) = some wire) :
    (Binding.userProperty.property wire).encode.size = 1 + textLength name + textLength value := by
  simp only [Option.bind_eq_bind, Option.bind_eq_some_iff, Option.pure_def, Option.some.injEq]
    at converted
  obtain ⟨first, named, second, valued, rfl⟩ := converted
  have nameLength := (ByteStr.ofStr_spec named).2.2
  have valueLength := (ByteStr.ofStr_spec valued).2.2
  simp only [Binding.userProperty, Property.encode, Encoder.size_append, size_u8,
    ByteStr.size_encode, nameLength, valueLength, textLength]

theorem weight_userProperties {properties : List (String × String)} {wire : UserProperties}
    (converted : mapUserPropertiesToByteStr properties = some wire) :
    Property.weight (Binding.userProperty.repeated wire).properties =
      userPropertiesLength properties := by
  rw [Binding.weight_repeated]
  exact sum_of_forall₂ (forall₂_of_mapM converted) fun _ _ found => userProperty_size found

theorem SubscribeProperties.weight {properties : SubscribeProperties}
    {other : SubscribeOtherProperties} (converted : properties.into = some other)
    (small : ∀ identifier, properties.subscriptionIdentifier = some identifier →
      identifier.get.toNat ≤ varintMax) :
    Property.weight (other.slots.flatMap Slot.properties) = properties.length := by
  simp only [SubscribeProperties.into, Option.bind_eq_bind, Option.bind_eq_some_iff,
    Option.pure_def, Option.some.injEq] at converted
  obtain ⟨users, usersFound, rfl⟩ := converted
  rw [weight_slots]
  simp only [SubscribeOtherProperties.slots, List.map_cons, List.map_nil, List.sum_cons,
    List.sum_nil, Binding.weight_optional, weight_userProperties usersFound,
    Binding.subscriptionIdentifier, Property.encode, Encoder.size_append, size_u8,
    SubscribeProperties.length, Nat.add_zero]
  cases held : properties.subscriptionIdentifier with
  | none => rfl
  | some identifier => simp [size_varint (small identifier held)]

theorem UnsubscribeProperties.weight {properties : UnsubscribeProperties}
    {other : UnsubscribeOtherProperties} (converted : properties.into = some other) :
    Property.weight ([Binding.userProperty.repeated other.userProperties].flatMap Slot.properties) =
      userPropertiesLength properties.userProperties := by
  simp only [UnsubscribeProperties.into, Option.bind_eq_bind, Option.bind_eq_some_iff,
    Option.pure_def, Option.some.injEq] at converted
  obtain ⟨users, usersFound, rfl⟩ := converted
  simp only [List.flatMap_cons, List.flatMap_nil, List.append_nil, weight_userProperties usersFound]

theorem encodable_userProperties (properties : UserProperties) :
    ∀ property ∈ (Binding.userProperty.repeated properties).properties, property.Encodable := by
  intro property member
  obtain ⟨held, -, rfl⟩ := List.mem_map.mp member
  trivial

/-- A subscription identifier is the one property of a SUBSCRIBE that can be too large. -/
theorem SubscribeProperties.encodable_iff {properties : SubscribeProperties}
    {other : SubscribeOtherProperties} (converted : properties.into = some other) :
    (∀ property ∈ other.slots.flatMap Slot.properties, property.Encodable) ↔
      ∀ identifier, properties.subscriptionIdentifier = some identifier →
        identifier.get.toNat ≤ varintMax := by
  simp only [SubscribeProperties.into, Option.bind_eq_bind, Option.bind_eq_some_iff,
    Option.pure_def, Option.some.injEq] at converted
  obtain ⟨users, -, rfl⟩ := converted
  simp only [SubscribeOtherProperties.slots, List.flatMap_cons, List.flatMap_nil, List.append_nil,
    List.mem_append, or_imp, forall_and, and_iff_left (encodable_userProperties users)]
  cases properties.subscriptionIdentifier with
  | none => simp [Binding.optional]
  | some identifier => simp [Binding.optional, Binding.subscriptionIdentifier, Property.Encodable]

section

variable [UnicodeGeneralCategory]

def PublishProperties.length (properties : PublishProperties) : Nat :=
  (if properties.payloadFormatIndicator = .utf8 then 2 else 0) +
    (properties.messageExpiryInterval.elim 0 fun _ => 1 + 4) +
    (properties.topicAlias.elim 0 fun _ => 1 + 2) +
    (properties.responseTopic.elim 0 fun name => 1 + textLength name.text) +
    (properties.correlationData.elim 0 fun data => 1 + (2 + data.length)) +
    userPropertiesLength properties.userProperties +
    (properties.contentType.elim 0 fun text => 1 + textLength text)

/-- The remaining length of the packet that a request becomes. -/
def Request.remainingLength : Request → Nat
  | .publishQoS0 topicName payload _ properties =>
    textLength topicName.text + blockLength properties.length + payload.length
  | .publishQoS1 topicName payload _ properties =>
    textLength topicName.text + 2 + blockLength properties.length + payload.length
  | .subscribe topicFilter _ _ _ properties =>
    2 + blockLength properties.length + (textLength topicFilter.text + 1)
  | .unsubscribe topicFilter properties =>
    2 + blockLength (userPropertiesLength properties.userProperties) + textLength topicFilter.text

/-- The packet of the request is within the limits of the wire format. -/
def Request.Fits (request : Request) : Prop :=
  request.remainingLength ≤ varintMax ∧
    match request with
    | .subscribe _ _ _ _ properties => ∀ identifier, properties.subscriptionIdentifier = some identifier →
      identifier.get.toNat ≤ varintMax
    | _ => True

/-- An application leaves the subscription identifiers of a PUBLISH to the server. -/
def Request.documented : Request → Prop
  | .publishQoS0 _ _ _ properties => properties.subscriptionIdentifiers = []
  | .publishQoS1 _ _ _ properties => properties.subscriptionIdentifiers = []
  | _ => True

theorem TopicName.into_length {name : TopicName} {topic : Topic} (converted : name.into = some topic) :
    topic.inner.data.shared.length = textLength name.text := by
  obtain ⟨found, same, -, length⟩ := name.into_some
  obtain rfl := Option.some.inj (same.symm.trans converted)
  exact length

theorem TopicFilter.into_length {filter : TopicFilter} {wire : Filter}
    (converted : filter.into = some wire) :
    wire.inner.data.shared.length = textLength filter.text := by
  obtain ⟨found, same, -, -, length⟩ := filter.into_some
  obtain rfl := Option.some.inj (same.symm.trans converted)
  exact length

theorem PublishProperties.weight {properties : PublishProperties} {other : PublishOtherProperties}
    (converted : properties.into = some other)
    (client : properties.subscriptionIdentifiers = []) :
    Property.weight ((Publish.slots other).flatMap Slot.properties) = properties.length := by
  simp only [PublishProperties.into, Option.bind_eq_bind, Option.bind_eq_some_iff,
    Option.pure_def, Option.some.injEq] at converted
  obtain ⟨topic, topicFound, data, dataFound, users, usersFound, text, textFound, rfl⟩ := converted
  have topicLength : topic.elim 0 (fun topic => (Property.responseTopic topic).encode.size) =
      properties.responseTopic.elim 0 fun name => 1 + textLength name.text :=
    elim_of_optional topicFound fun name topic found => by
      simp [Property.encode, TopicName.into_length found]
  have dataLength : data.elim 0 (fun data => (Property.correlationData data).encode.size) =
      properties.correlationData.elim 0 fun data => 1 + (2 + data.length) :=
    elim_of_optional dataFound fun bytes data found => by
      simp [Property.encode, (BinaryData.ofSlice_spec found).2.2]
  have contentLength : text.elim 0 (fun text => (Property.contentType text).encode.size) =
      properties.contentType.elim 0 fun text => 1 + textLength text :=
    elim_of_optional textFound fun text wire found => by
      simp [Property.encode, (ByteStr.ofStr_spec found).2.2, textLength]
  have flag : (Property.payloadIsUtf8 (properties.payloadFormatIndicator = .utf8)).encode.size =
      if properties.payloadFormatIndicator = .utf8 then 2 else 0 := by
    by_cases utf8 : properties.payloadFormatIndicator = .utf8 <;> simp [Property.encode, utf8]
  rw [weight_slots]
  simp only [Publish.slots, List.map_cons, List.map_nil, List.sum_cons, List.sum_nil, client,
    Binding.weight_once, Binding.weight_optional, weight_userProperties usersFound]
  simp only [Binding.payloadIsUtf8, Binding.messageExpiryInterval, Binding.topicAlias,
    Binding.responseTopic, Binding.correlationData, Binding.contentType, flag, topicLength,
    dataLength, contentLength, Binding.weight_repeated, List.map_nil, List.sum_nil]
  simp only [Property.encode, Encoder.size_append, size_u8, size_u32, size_u16,
    PublishProperties.length]
  omega

/-- No property of a PUBLISH of a client is too large for the wire. -/
theorem PublishProperties.encodable {properties : PublishProperties}
    {other : PublishOtherProperties} (converted : properties.into = some other)
    (client : properties.subscriptionIdentifiers = []) :
    ∀ property ∈ (Publish.slots other).flatMap Slot.properties, property.Encodable := by
  have same : other.subscriptionIdentifiers = [] := by
    simp only [PublishProperties.into, Option.bind_eq_bind, Option.bind_eq_some_iff,
      Option.pure_def, Option.some.injEq] at converted
    obtain ⟨_, _, _, _, _, _, _, _, rfl⟩ := converted
    exact client
  intro property member
  simp only [Publish.slots, same, Binding.once, Binding.optional, Binding.repeated,
    List.flatMap_cons, List.flatMap_nil, List.mem_append, List.mem_singleton, Option.mem_toList,
    Option.map_eq_some_iff, List.mem_map, List.map_nil, List.not_mem_nil, or_false, false_or]
    at member
  rcases member with rfl | ⟨_, _, rfl⟩ | ⟨_, _, rfl⟩ | ⟨_, _, rfl⟩ | ⟨_, _, rfl⟩ | ⟨_, _, rfl⟩ |
    ⟨_, _, rfl⟩ <;> trivial

/-- The packet of a PUBLISH can be encoded exactly if its remaining length fits. -/
theorem encode_publish_iff {topicName : TopicName} {topic : Topic} {properties : PublishProperties}
    {other : PublishOtherProperties} (named : topicName.into = some topic)
    (converted : properties.into = some other) (client : properties.subscriptionIdentifiers = [])
    (dupQoS : PacketIdentifierDupQoS) (retain : Bool) (payload : Bytes) :
    ((Packet.publish ⟨topic, dupQoS, retain, payload, other⟩).encode .v5).Succeeds ↔
      textLength topicName.text + (Publish.encodePacketIdentifier dupQoS).size +
        blockLength properties.length + payload.length ≤ varintMax := by
  have header : (topic.encode ++ Publish.encodePacketIdentifier dupQoS).Succeeds := by
    cases dupQoS <;> simp [Publish.encodePacketIdentifier]
  rw [Packet.succeeds_encode_block rfl header (succeeds_putShared payload),
    PublishProperties.weight converted client, Encoder.size_append, Topic.size_encode,
    TopicName.into_length named, size_shared]
  exact and_iff_right (PublishProperties.encodable converted client)

theorem encode_subscribe_iff {topicFilter : TopicFilter} {filter : Filter}
    {properties : SubscribeProperties} {other : SubscribeOtherProperties}
    (named : topicFilter.into = some filter) (converted : properties.into = some other)
    (pkid : PacketIdentifier) (options : SubscribeOptions) :
    ((Packet.subscribe ⟨pkid, [⟨filter, options⟩], other⟩).encode .v5).Succeeds ↔
      (∀ identifier, properties.subscriptionIdentifier = some identifier →
        identifier.get.toNat ≤ varintMax) ∧
        2 + blockLength properties.length + (textLength topicFilter.text + 1) ≤ varintMax := by
  have body : (Packet.subscribe ⟨pkid, [⟨filter, options⟩], other⟩).encodeBody .v5 =
      Encoding.tryPutU16Be pkid.get ++ encodeProperties other.slots ++
        (filter.encode ++ options.encode .v5) := by
    simp [Packet.encodeBody, Subscribe.encode, SubscribeOtherProperties.encode,
      ProtocolVersion.isV5, SubscribeTo.encode]
  have last : (filter.encode ++ options.encode .v5).Succeeds := by
    simp [SubscribeOptions.encode]
  rw [Packet.succeeds_encode_block body (succeeds_u16 pkid.get) last,
    SubscribeProperties.encodable_iff converted]
  refine and_congr_right fun small => ?_
  rw [SubscribeProperties.weight converted small, size_u16, Encoder.size_append,
    Filter.size_encode, TopicFilter.into_length named, SubscribeOptions.encode, size_u8]

theorem encode_unsubscribe_iff {topicFilter : TopicFilter} {filter : Filter}
    {properties : UnsubscribeProperties} {other : UnsubscribeOtherProperties}
    (named : topicFilter.into = some filter) (converted : properties.into = some other)
    (pkid : PacketIdentifier) :
    ((Packet.unsubscribe ⟨pkid, [filter], other⟩).encode .v5).Succeeds ↔
      2 + blockLength (userPropertiesLength properties.userProperties) +
        textLength topicFilter.text ≤ varintMax := by
  have body : (Packet.unsubscribe ⟨pkid, [filter], other⟩).encodeBody .v5 =
      Encoding.tryPutU16Be pkid.get ++
        encodeProperties [Binding.userProperty.repeated other.userProperties] ++ filter.encode := by
    simp [Packet.encodeBody, Unsubscribe.encode, ProtocolVersion.isV5]
  rw [Packet.succeeds_encode_block body (succeeds_u16 pkid.get) filter.succeeds_encode,
    UnsubscribeProperties.weight converted, size_u16, Filter.size_encode,
    TopicFilter.into_length named]
  refine and_iff_right ?_
  simpa using encodable_userProperties other.userProperties

/-- The packet of an accepted request can be encoded exactly if it fits. -/
theorem Request.encode_iff {request : Request} {event : AppEvent} {packet : Packet}
    (accepted : request.event = some event) (client : request.documented)
    (built : event.Builds packet) : (packet.encode .v5).Succeeds ↔ request.Fits := by
  cases request with
  | publishQoS0 topicName payload retain properties =>
    simp only [Request.event, Option.bind_eq_bind, Option.bind_eq_some_iff, Option.pure_def,
      Option.some.injEq] at accepted
    obtain ⟨topic, named, other, converted, rfl⟩ := accepted
    cases built
    rw [encode_publish_iff named converted client]
    simp [Fits, remainingLength, Publish.encodePacketIdentifier]
  | publishQoS1 topicName payload retain properties =>
    simp only [Request.event, Option.bind_eq_bind, Option.bind_eq_some_iff, Option.pure_def,
      Option.some.injEq] at accepted
    obtain ⟨topic, named, other, converted, rfl⟩ := accepted
    cases built
    rw [encode_publish_iff named converted client]
    simp [Fits, remainingLength, Publish.encodePacketIdentifier]
  | subscribe topicFilter maxQoS noLocal retainOptions properties =>
    simp only [Request.event] at accepted
    split at accepted
    · cases accepted
    · simp only [Option.bind_eq_bind, Option.bind_eq_some_iff, Option.pure_def,
        Option.some.injEq] at accepted
      obtain ⟨filter, named, other, converted, rfl⟩ := accepted
      cases built with
      | subscribe _ _ _ pkid =>
        rw [encode_subscribe_iff named converted]
        exact and_comm
  | unsubscribe topicFilter properties =>
    simp only [Request.event, Option.bind_eq_bind, Option.bind_eq_some_iff, Option.pure_def,
      Option.some.injEq] at accepted
    obtain ⟨filter, named, other, converted, rfl⟩ := accepted
    cases built with
    | unsubscribe _ _ pkid =>
      rw [encode_unsubscribe_iff named converted]
      simp [Fits, remainingLength]

end

open Io

/-- No writer reports that the packet cannot be encoded. -/
def NeverRefused (packet : Packet) : Prop :=
  ∀ (A : Type) [LawfulBytesAccumulator A] (writer : Writer A) (sent : Bytes),
    writer.Tracks sent → ∀ fault, (writer.write packet .v5).2 ≠ .error (.encode fault)

theorem encodes_iff (packet : Packet) (version : ProtocolVersion) :
    encodes packet version = true ↔ (packet.encode version).Succeeds :=
  Encoder.run_isOk_iff byteCounter_accepts _ _

theorem neverRefused_iff (packet : Packet) :
    NeverRefused packet ↔ (packet.encode .v5).Succeeds := by
  rw [← encodes_iff]
  constructor
  · intro never
    by_contra refused
    have fails : ((packet.encode .v5).run ({} : ByteCounter false)).isOk = false :=
      Bool.eq_false_iff.mpr refused
    cases counted : (packet.encode .v5).run ({} : ByteCounter false) with
    | ok counter => simp [counted, Except.isOk, Except.toBool] at fails
    | error fault =>
      have fresh : heapIovecs.Fresh := ⟨{}, rfl, rfl⟩
      refine never _ { buf := heapIovecs } [] fresh.valid fault ?_
      have accepts : BytesAccumulator.canAcceptMore heapIovecs = true := rfl
      simp only [Writer.write, accepts, if_true, Writer.encode, counted]
  · intro encoded A _ writer sent tracks fault refused
    have written := Writer.write_spec tracks packet .v5
    generalize writer.write packet .v5 = result at written refused
    cases written with
    | ok _ _ => cases refused
    | refused _ failed => exact Bool.false_ne_true (failed.symm.trans encoded)
    | starved _ _ => cases refused
    | interrupted _ _ cause =>
      cases refused
      simp [WritableStream.Interrupts] at cause

/-- A QoS 1 PUBLISH that is sent, stays in flight when its connection ends, and is sent again
when the server resumes the session. -/
def resumedCalls (event : AppEvent) : List Event :=
  [.app event, .connack ⟨.success false, {}⟩ .infinite none .infinite, .poll [{}],
    .disconnected .transport, .connack ⟨.success true, {}⟩ .infinite none .infinite, .poll [{}]]

theorem resumed_run (topicName : Topic) (payload : Bytes) (retain : Bool)
    (otherProperties : PublishOtherProperties) : ∃ world,
    World.run (.new .one) (resumedCalls (.publishQoS1 topicName payload retain otherProperties)) =
      .ok world ∧
    world.emissions.map (fun emission => (emission.connection, emission.outgoing.packet)) =
      [(1, .publish ⟨topicName, .atLeastOnce .one false, retain, payload, otherProperties⟩),
        (2, .publish ⟨topicName, .atLeastOnce .one true, retain, payload, otherProperties⟩)] ∧
    world.session.inflight.publishQoS1.values =
      [(⟨topicName, .atLeastOnce .one false, retain, payload, otherProperties⟩, 0)] :=
  ⟨_, rfl, rfl, rfl⟩

/-- The topic name `a`. -/
def topicA : @TopicName asciiCategory :=
  letI := asciiCategory
  ⟨"a", by decide +kernel⟩

/-- A QoS 1 PUBLISH on topic `a` without properties. -/
def publishA (payload : Bytes) : @Request asciiCategory :=
  letI := asciiCategory
  .publishQoS1 topicA payload false {}

/-- The packet of a message on topic `a`. -/
def packetA (payload : Bytes) (dup : Bool) : Packet :=
  .publish ⟨⟨⟨⟨[0, 1, 0x61]⟩⟩⟩, .atLeastOnce .one dup, false, payload, {}⟩

theorem publishA_event (payload : Bytes) :
    letI := asciiCategory
    (publishA payload).event = some (.publishQoS1 ⟨⟨⟨[0, 1, 0x61]⟩⟩⟩ payload false {}) := by
  let := asciiCategory
  have named : topicA.into = some ⟨⟨⟨[0, 1, 0x61]⟩⟩⟩ := by decide +kernel
  have converted : PublishProperties.into {} = some {} := by decide +kernel
  simp only [publishA, Request.event, named, converted]
  rfl

theorem publishA_fits_iff (payload : Bytes) :
    letI := asciiCategory
    (publishA payload).Fits ↔ payload.length ≤ 268435449 := by
  let := asciiCategory
  have text : textLength "a" = 3 := by decide +kernel
  have block : blockLength (PublishProperties.length {}) = 1 := by decide +kernel
  simp only [Request.Fits, publishA, Request.remainingLength, topicA, text, block, varintMax,
    and_true]
  omega

/-- An accepted request becomes a packet that no writer refuses exactly if it fits. In a run
whose requests fit, no writer refuses what the session sends, and what is in flight can be sent
again. -/
theorem accepted_neverRefused [UnicodeGeneralCategory] :
    (∀ (request : Request) (event : AppEvent) (packet : Packet), request.event = some event →
      request.documented → event.Builds packet → (NeverRefused packet ↔ request.Fits)) ∧
    ∀ (maxPkid : PacketIdentifier) (calls : List Event) (world : World),
      World.run (.new maxPkid) calls = .ok world →
      (∀ event, .app event ∈ calls → event.isRequest = true →
        ∃ request : Request, request.event = some event ∧ request.documented ∧ request.Fits) →
      (∀ emission ∈ world.emissions, Packet.isRequest emission.outgoing.packet = true →
        NeverRefused emission.outgoing.packet) ∧
      ∀ entry ∈ world.session.inflight.publishQoS1.values,
        NeverRefused (.publish (Publish.setDup entry.1)) := by
  refine ⟨fun request event packet accepted client built =>
    (neverRefused_iff packet).trans (Request.encode_iff accepted client built), ?_⟩
  intro maxPkid calls world ran fitting
  obtain ⟨holds, sent⟩ := holds_run ran fun event submitted packet built => by
    obtain ⟨request, accepted, client, fits⟩ := fitting event submitted built.isRequest
    exact (neverRefused_iff packet).mpr ((Request.encode_iff accepted client built).mpr fits)
  exact ⟨sent, fun entry member => (holds.inflight entry member).2⟩

/-- A short message is sent, and sent again. -/
theorem accepted_neverRefused_short :
    let := asciiCategory
    (publishA [0x68]).Fits ∧ NeverRefused (packetA [0x68] false) ∧
      ∃ world, World.run (.new .one)
          (resumedCalls (.publishQoS1 ⟨⟨⟨[0, 1, 0x61]⟩⟩⟩ [0x68] false {})) = .ok world ∧
        world.emissions.length = 2 ∧
        ∀ emission ∈ world.emissions, Packet.isRequest emission.outgoing.packet = true →
          NeverRefused emission.outgoing.packet := by
  let := asciiCategory
  have accepted := publishA_event [0x68]
  have fits : (publishA [0x68]).Fits := (publishA_fits_iff [0x68]).mpr (by decide)
  obtain ⟨world, ran, sent, -⟩ := resumed_run ⟨⟨⟨[0, 1, 0x61]⟩⟩⟩ [0x68] false {}
  refine ⟨fits, ?_, world, ran, by simpa using congrArg List.length sent, ?_⟩
  · exact (accepted_neverRefused.1 _ _ _ accepted rfl (.publishQoS1 _ _ _ _ .one false)).mpr fits
  · refine (accepted_neverRefused.2 .one _ world ran ?_).1
    intro event member _
    simp only [resumedCalls, List.mem_cons, Event.app.injEq, reduceCtorEq, List.not_mem_nil,
      or_false] at member
    subst member
    exact ⟨publishA [0x68], accepted, rfl, fits⟩

/-- A PUBLISH that is too large is accepted and stays in flight. No writer sends it, on this
connection or on the one that resumes the session. -/
def Poisons (payload : Bytes) : Prop :=
  letI := asciiCategory
  ∃ event world, (publishA payload).event = some event ∧ (publishA payload).documented ∧
    World.run (.new .one) (resumedCalls event) = .ok world ∧
    world.emissions.map (fun emission => (emission.connection, emission.outgoing.packet)) =
      [(1, packetA payload false), (2, packetA payload true)] ∧
    (∀ dup, ¬ NeverRefused (packetA payload dup)) ∧
    ∃ entry ∈ world.session.inflight.publishQoS1.values,
      Packet.publish (Publish.setDup entry.1) = packetA payload true

theorem poisons_of_large {payload : Bytes} (large : 268435449 < payload.length) :
    Poisons payload := by
  let := asciiCategory
  have accepted := publishA_event payload
  have refused : ∀ dup, ¬ NeverRefused (packetA payload dup) := by
    intro dup never
    have fits := (Request.encode_iff accepted rfl (.publishQoS1 _ _ _ _ .one dup)).mp
      ((neverRefused_iff _).mp never)
    have small := (publishA_fits_iff payload).mp fits
    omega
  obtain ⟨world, ran, sent, held⟩ := resumed_run ⟨⟨⟨[0, 1, 0x61]⟩⟩⟩ payload false {}
  refine ⟨_, world, accepted, rfl, ran, sent, refused, ?_⟩
  rw [held]
  exact ⟨_, List.mem_singleton_self _, rfl⟩

/-- A payload of 256 MiB. -/
theorem poisons_replicate : Poisons (List.replicate 268435456 0) :=
  poisons_of_large (by rw [List.length_replicate]; decide)

end MqttClient.Api
