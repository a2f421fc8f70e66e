import MqttClient.Io.Writer
import MqttClient.Client.Provenance
import MqttClient.Api.Limits
import MqttClient.Api.Fields

/-! Whether the packets of an application can be read by the decoder of this crate. Topics and
filters are checked when they are made; every other text and all data go to the wire as they
are. -/

namespace MqttClient.Api

open Lib Proto Client Io

section

variable [UnicodeGeneralCategory]

/-- What an application hands over for a packet that the client sends, with the packet
identifier that the session assigns. -/
inductive Submission where
  | request (content : Request) (pkid : PacketIdentifier) (dup : Bool)
  | accept (pkid : PacketIdentifier) (properties : PubAckProperties)
  | reject (pkid : PacketIdentifier) (reason : PubRejectReason) (properties : PubAckProperties)
  | auth (content : Auth)
  | connect (arguments : ConnectArguments)
  | disconnect (properties : DisconnectProperties)

/-- The packet of a request. -/
def Request.packet (request : Request) (pkid : PacketIdentifier) (dup : Bool) : Option Packet :=
  request.event.bind fun
    | .publishQoS0 topicName payload retain otherProperties =>
      some (.publish ⟨topicName, .atMostOnce, retain, payload, otherProperties⟩)
    | .publishQoS1 topicName payload retain otherProperties =>
      some (.publish ⟨topicName, .atLeastOnce pkid dup, retain, payload, otherProperties⟩)
    | .subscribe topicFilter options otherProperties =>
      some (.subscribe ⟨pkid, [⟨topicFilter, options⟩], otherProperties⟩)
    | .unsubscribe topicFilter otherProperties =>
      some (.unsubscribe ⟨pkid, [topicFilter], otherProperties⟩)
    | _ => none

def TopicFilter.isShared (filter : TopicFilter) : Bool :=
  match filter.kind with
  | .shared _ => true
  | _ => false

namespace Submission

/-- The packet on the wire. There is none if a conversion panics. -/
def packet : Submission → Option Packet
  | .request content pkid dup => content.packet pkid dup
  | .accept pkid properties => properties.into.map fun other => .pubAck ⟨pkid, .success, other⟩
  | .reject pkid reason properties =>
    properties.into.map fun other => .pubAck ⟨pkid, reason.into, other⟩
  | .auth content => content.into.map .auth
  | .connect arguments => arguments.mqttConnect.map .connect
  | .disconnect properties => properties.into.map fun other => .disconnect ⟨.normal, other⟩

def fields : Submission → List Field
  | .request content _ _ => content.fields
  | .accept _ properties => properties.fields
  | .reject _ _ properties => properties.fields
  | .auth content => content.fields
  | .connect arguments => arguments.fields
  | .disconnect properties => properties.fields

/-- The limitations that are documented are kept: no subscription identifiers in a PUBLISH,
and no `no_local` for a shared subscription. -/
def documented : Submission → Prop
  | .request (.subscribe topicFilter _ noLocal _ _) _ _ =>
    topicFilter.isShared = true → noLocal = false
  | .request content _ _ => content.documented
  | _ => True

def supported : Submission → Prop
  | .request content _ _ => content.supported
  | _ => True

/-- The fields are short enough for their lengths. -/
def Short (submission : Submission) : Prop :=
  submission.supported ∧ ∀ field ∈ submission.fields, field.Short

def Clean (submission : Submission) : Prop := ∀ field ∈ submission.fields, field.Clean

end Submission

theorem Request.isSome_packet (request : Request) (pkid : PacketIdentifier) (dup : Bool) :
    (request.packet pkid dup).isSome = request.event.isSome := by
  cases request with
  | publishQoS0 topicName payload retain properties =>
    simp only [Request.packet, Request.event, Option.bind_eq_bind, Option.pure_def,
      Option.bind_assoc, Option.bind_some, Option.isSome_bind, Option.isSome_some]
  | publishQoS1 topicName payload retain properties =>
    simp only [Request.packet, Request.event, Option.bind_eq_bind, Option.pure_def,
      Option.bind_assoc, Option.bind_some, Option.isSome_bind, Option.isSome_some]
  | subscribe topicFilter maxQoS noLocal retainOptions properties =>
    simp only [Request.packet, Request.event]
    split
    · rfl
    · simp only [Option.bind_eq_bind, Option.pure_def, Option.bind_assoc, Option.bind_some,
        Option.isSome_bind, Option.isSome_some]
  | unsubscribe topicFilter properties =>
    simp only [Request.packet, Request.event, Option.bind_eq_bind, Option.pure_def,
      Option.bind_assoc, Option.bind_some, Option.isSome_bind, Option.isSome_some]

/-- A conversion panics exactly if a field is too long. -/
theorem Submission.isSome_packet (submission : Submission) :
    submission.packet.isSome = true ↔ submission.Short := by
  cases submission with
  | request content pkid dup =>
    exact (iff_of_eq (congrArg (· = true) (content.isSome_packet pkid dup))).trans
      content.isSome_event
  | accept pkid properties =>
    simpa [packet, Short, supported, fields] using properties.isSome_into
  | reject pkid reason properties =>
    simpa [packet, Short, supported, fields] using properties.isSome_into
  | auth content => simpa [packet, Short, supported, fields] using content.isSome_into
  | connect arguments => simpa [packet, Short, supported, fields] using arguments.isSome_mqttConnect
  | disconnect properties => simpa [packet, Short, supported, fields] using properties.isSome_into

/-- An empty identifier is read back as none. -/
theorem wellFormed_clientId {value : Option String} {wire : Option ByteStr}
    (converted : value.mapM ByteStr.ofStr = some wire) :
    (∀ id, wire.filter (fun id => !id.isEmpty) = some id → id.WellFormed ∧ id.isEmpty = false) ↔
      ∀ held ∈ value, (Field.text held).Clean := by
  rw [← wellFormed_text converted]
  cases wire with
  | none => simp
  | some id =>
    by_cases empty : id.isEmpty = true
    · obtain ⟨⟨shared⟩⟩ := id
      obtain rfl : shared = ByteStr.empty := by
        simpa [ByteStr.isEmpty, BinaryData.isEmpty, ByteStr.empty] using empty
      simp [Option.filter, empty, Connect.empty_wellFormed]
    · simp [Option.filter, empty]

theorem wellFormed_will {value : Option Will} {wire : Option (Publication × UInt32)}
    (converted : value.mapM Will.into = some wire)
    (fits : ∀ will ∈ wire, will.1.payload.length ≤ 65535) :
    (∀ will, wire = some will → Connect.WillFormed .v5 will) ↔
      ∀ held ∈ value, ∀ field ∈ held.properties.fields, field.Clean := by
  rcases optional_some.mp converted with ⟨rfl, rfl⟩ | ⟨held, will, rfl, rfl, found⟩
  · simp
  · have formed := Will.wellFormed_into found (fits will rfl)
    simpa using formed

theorem wellFormed_connectProperties {properties : ConnectProperties}
    {value : Option AuthenticationInfo} {users : UserProperties}
    {authentication : Option Authentication}
    (usersFound : mapUserPropertiesToByteStr properties.userProperties = some users)
    (infoFound : value.mapM AuthenticationInfo.into = some authentication) :
    (∀ slot ∈ Connect.slots {
        sessionExpiryInterval := properties.sessionExpiryInterval.normalize
        receiveMaximum := properties.receiveMaximum
        maximumPacketSize := properties.maximumPacketSize
        topicAliasMaximum := properties.topicAliasMaximum
        requestResponseInformation := properties.requestResponseInformation
        requestProblemInformation := properties.requestProblemInformation
        userProperties := users
        authentication := authentication }, slot.WellFormed) ↔
      (∀ field ∈ userFields properties.userProperties, field.Clean) ∧
        ∀ info ∈ value, ∀ field ∈ info.fields, field.Clean := by
  have interval : (Connect.sessionExpiryInterval
      properties.sessionExpiryInterval.normalize).WellFormed := by
    simpa [Connect.sessionExpiryInterval, Slot.WellFormed, Property.WellFormed] using
      properties.sessionExpiryInterval.normalize_wellFormed
  rw [← wellFormed_authentication infoFound]
  simp only [Connect.slots, List.forall_mem_cons, List.not_mem_nil, false_imp_iff, implies_true,
    and_true, true_and, interval, Binding.wellFormed_once, Binding.wellFormed_optional,
    Binding.receiveMaximum, Binding.maximumPacketSize, Binding.topicAliasMaximum,
    Binding.requestResponseInformation, Binding.requestProblemInformation,
    Binding.authenticationMethod, Binding.authenticationData, Property.WellFormed,
    wellFormed_userProperties usersFound]

theorem ConnectArguments.wellFormed_mqttConnect {arguments : ConnectArguments} {packet : Connect}
    (converted : arguments.mqttConnect = some packet)
    (fits : ∀ will ∈ packet.will, will.1.payload.length ≤ 65535) :
    packet.normalize.WellFormed .v5 ↔ ∀ field ∈ arguments.fields, field.Clean := by
  simp only [ConnectArguments.mqttConnect, ConnectProperties.into, Option.bind_eq_bind,
    Option.pure_def, Option.bind_assoc, Option.bind_some, Option.bind_eq_some_iff,
    Option.some.injEq] at converted
  obtain ⟨users, usersFound, info, infoFound, username, usernameFound, password, passwordFound,
    will, willFound, clientId, clientIdFound, rfl⟩ := converted
  have texts := wellFormed_text usernameFound
  have data := wellFormed_data passwordFound
  have identifier := wellFormed_clientId clientIdFound
  have wills := wellFormed_will willFound fits
  have properties := wellFormed_connectProperties usersFound infoFound
  simp only [ConnectArguments.fields, List.forall_mem_append, forall_held, forall_fields,
    Field.clean_data, implies_true, and_true]
  constructor
  · rintro ⟨username, -, will, clientId, other⟩
    obtain ⟨users, info⟩ := properties.mp other
    exact ⟨⟨⟨⟨identifier.mp clientId, texts.mp username⟩, wills.mp will⟩, users⟩, info⟩
  · rintro ⟨⟨⟨⟨clientId, username⟩, will⟩, users⟩, info⟩
    exact ⟨texts.mpr username, data, wills.mpr will, identifier.mpr clientId,
      properties.mpr ⟨users, info⟩⟩

theorem wellFormed_publish {topicName : TopicName} {topic : Topic}
    {properties : PublishProperties} {other : PublishOtherProperties}
    (named : topicName.into = some topic) (converted : properties.into = some other)
    (client : properties.subscriptionIdentifiers = []) (dupQoS : PacketIdentifierDupQoS)
    (retain : Bool) (payload : Bytes) :
    Publish.WellFormed ⟨topic, dupQoS, retain, payload, other⟩ .v5 ↔
      ∀ field ∈ properties.fields, field.Clean := by
  rw [← PublishProperties.wellFormed_into converted client]
  constructor
  · exact fun formed => formed.properties
  · exact fun slots => ⟨TopicName.wellFormed_into named, slots⟩

theorem wellFormed_subscribe {topicFilter : TopicFilter} {filter : Filter}
    {properties : SubscribeProperties} {other : SubscribeOtherProperties}
    (named : topicFilter.into = some filter) (converted : properties.into = some other)
    (small : ∀ identifier, properties.subscriptionIdentifier = some identifier →
      identifier.get.toNat ≤ varintMax) (pkid : PacketIdentifier) {options : SubscribeOptions}
    (noLocal : topicFilter.isShared = true → options.otherProperties.noLocal = false) :
    Subscribe.WellFormed ⟨pkid, [⟨filter, options⟩], other⟩ .v5 ↔
      ∀ field ∈ userFields properties.userProperties, field.Clean := by
  simp only [SubscribeProperties.into, Option.bind_eq_bind, Option.bind_eq_some_iff,
    Option.pure_def, Option.some.injEq] at converted
  obtain ⟨users, usersFound, rfl⟩ := converted
  obtain ⟨formed, kind⟩ := TopicFilter.wellFormed_into named
  have shared : filter.isShared = topicFilter.isShared := by
    cases held : topicFilter.kind <;> simp [Filter.isShared, TopicFilter.isShared, kind, held]
  have identifier : (Binding.subscriptionIdentifier.optional
      properties.subscriptionIdentifier).WellFormed :=
    (Binding.wellFormed_optional _ _).mpr small
  rw [← wellFormed_userProperties usersFound]
  constructor
  · intro formed
    exact formed.properties _ (by simp [SubscribeOtherProperties.slots])
  · intro users
    refine ⟨by simp, ?_, ?_⟩
    · intro subscribeTo member
      obtain rfl := List.mem_singleton.mp member
      exact ⟨formed, trivial, fun held => noLocal (shared ▸ held)⟩
    · intro slot member
      simp only [SubscribeOtherProperties.slots, List.mem_cons, List.not_mem_nil, or_false]
        at member
      rcases member with rfl | rfl
      · exact identifier
      · exact users

theorem wellFormed_unsubscribe {topicFilter : TopicFilter} {filter : Filter}
    {properties : UnsubscribeProperties} {other : UnsubscribeOtherProperties}
    (named : topicFilter.into = some filter) (converted : properties.into = some other)
    (pkid : PacketIdentifier) :
    Unsubscribe.WellFormed ⟨pkid, [filter], other⟩ .v5 ↔
      ∀ field ∈ userFields properties.userProperties, field.Clean := by
  simp only [UnsubscribeProperties.into, Option.bind_eq_bind, Option.bind_eq_some_iff,
    Option.pure_def, Option.some.injEq] at converted
  obtain ⟨users, usersFound, rfl⟩ := converted
  rw [← wellFormed_userProperties usersFound]
  constructor
  · exact fun formed => formed.properties _ (List.mem_singleton_self _)
  · intro users
    refine ⟨by simp, ?_, ?_⟩
    · intro subscribed member
      obtain rfl := List.mem_singleton.mp member
      exact (TopicFilter.wellFormed_into named).1
    · intro slot member
      obtain rfl := List.mem_singleton.mp member
      exact users

omit [UnicodeGeneralCategory] in
/-- The encoder refuses a will whose payload is too long for its length. -/
theorem will_fits {packet : Connect} (succeeds : ((Packet.connect packet).encode .v5).Succeeds) :
    ∀ will ∈ packet.will, will.1.payload.length ≤ 65535 := by
  intro will held
  by_contra long
  have body := ((Packet.succeeds_encode _ _).mp succeeds).1
  have large : ¬ will.1.payload.length < 65536 := by omega
  obtain ⟨publication, delay⟩ := will
  simp [Packet.encodeBody, Connect.encode, Connect.encodeRest, Connect.encodeWill,
    Option.mem_def.mp held, large, Encoding.refuse] at body

theorem Request.wellFormed_packet {request : Request} {pkid : PacketIdentifier} {dup : Bool}
    {packet : Packet} (built : request.packet pkid dup = some packet)
    (documented : (Submission.request request pkid dup).documented)
    (succeeds : (packet.encode .v5).Succeeds) :
    packet.normalize.WellFormed .v5 ↔ ∀ field ∈ request.fields, field.Clean := by
  cases request with
  | publishQoS0 topicName payload retain properties =>
    simp only [Request.packet, Request.event, Option.bind_eq_bind, Option.pure_def,
      Option.bind_assoc, Option.bind_some, Option.bind_eq_some_iff, Option.some.injEq] at built
    obtain ⟨topic, named, other, converted, rfl⟩ := built
    exact wellFormed_publish named converted documented _ retain payload
  | publishQoS1 topicName payload retain properties =>
    simp only [Request.packet, Request.event, Option.bind_eq_bind, Option.pure_def,
      Option.bind_assoc, Option.bind_some, Option.bind_eq_some_iff, Option.some.injEq] at built
    obtain ⟨topic, named, other, converted, rfl⟩ := built
    exact wellFormed_publish named converted documented _ retain payload
  | subscribe topicFilter maxQoS noLocal retainOptions properties =>
    simp only [Request.packet, Request.event] at built
    split at built
    · cases built
    · simp only [Option.bind_eq_bind, Option.pure_def, Option.bind_assoc, Option.bind_some,
        Option.bind_eq_some_iff, Option.some.injEq] at built
      obtain ⟨filter, named, other, converted, rfl⟩ := built
      have small := ((encode_subscribe_iff named converted pkid _).mp succeeds).1
      exact wellFormed_subscribe named converted small pkid documented
  | unsubscribe topicFilter properties =>
    simp only [Request.packet, Request.event, Option.bind_eq_bind, Option.pure_def,
      Option.bind_assoc, Option.bind_some, Option.bind_eq_some_iff, Option.some.injEq] at built
    obtain ⟨filter, named, other, converted, rfl⟩ := built
    exact wellFormed_unsubscribe named converted pkid

/-- A packet that can be encoded is well formed in its one spelling exactly if its texts are
clean. -/
theorem Submission.wellFormed_packet {submission : Submission} {packet : Packet}
    (built : submission.packet = some packet) (documented : submission.documented)
    (succeeds : (packet.encode .v5).Succeeds) :
    packet.normalize.WellFormed .v5 ↔ submission.Clean := by
  cases submission with
  | request content pkid dup => exact Request.wellFormed_packet built documented succeeds
  | accept pkid properties =>
    obtain ⟨other, converted, rfl⟩ := Option.map_eq_some_iff.mp built
    exact PubAckProperties.wellFormed_into converted
  | reject pkid reason properties =>
    obtain ⟨other, converted, rfl⟩ := Option.map_eq_some_iff.mp built
    exact PubAckProperties.wellFormed_into converted
  | auth content =>
    obtain ⟨wire, converted, rfl⟩ := Option.map_eq_some_iff.mp built
    exact Auth.wellFormed_into converted
  | connect arguments =>
    obtain ⟨wire, converted, rfl⟩ := Option.map_eq_some_iff.mp built
    exact ConnectArguments.wellFormed_mqttConnect converted (will_fits succeeds)
  | disconnect properties =>
    obtain ⟨other, converted, rfl⟩ := Option.map_eq_some_iff.mp built
    exact DisconnectProperties.wellFormed_into converted

/-- The decoder reads the packet from its own bytes, up to the two spellings. -/
def ReadBack (packet : Packet) : Prop :=
  ∃ decoded, Packet.decodeFull (code packet .v5) .v5 = .ok decoded ∧
    decoded.normalize = packet.normalize

theorem readBack_iff {submission : Submission} {packet : Packet}
    (built : submission.packet = some packet) (documented : submission.documented)
    (encoded : encodes packet .v5 = true) : ReadBack packet ↔ submission.Clean := by
  have succeeds := (encodes_iff packet .v5).mp encoded
  exact (Packet.decodeFull_iff succeeds).trans
    (Submission.wellFormed_packet built documented succeeds)

/-- The conversion of a packet panics exactly if a field is too long, and a packet that can be
encoded is read back exactly if its texts are clean. -/
theorem submission_readable (submission : Submission) (documented : submission.documented) :
    (submission.packet.isSome = true ↔ submission.Short) ∧
      ∀ packet, submission.packet = some packet → encodes packet .v5 = true →
        (ReadBack packet ↔ submission.Clean) :=
  ⟨submission.isSome_packet, fun _ built encoded => readBack_iff built documented encoded⟩

end

/-- A DISCONNECT whose session never expires, in the spelling that is not read back. -/
def farewell : @Submission asciiCategory :=
  letI := asciiCategory
  .disconnect { sessionExpiryInterval := some (.duration 4294967295), reasonString := some "bye" }

theorem submission_readable_farewell :
    letI := asciiCategory
    farewell.Short ∧ farewell.Clean ∧ ∃ packet, farewell.packet = some packet ∧ ReadBack packet := by
  let := asciiCategory
  have built : farewell.packet = some (.disconnect ⟨.normal,
      { sessionExpiryInterval := some (.duration 4294967295)
        reasonString := some ⟨⟨[0, 3, 0x62, 0x79, 0x65]⟩⟩ }⟩) := by
    decide +kernel
  obtain ⟨converts, reads⟩ := submission_readable farewell trivial
  have clean : farewell.Clean := by
    intro field member
    obtain rfl : field = .text "bye" := List.mem_singleton.mp member
    exact (validateMqttString_iff "bye").mp (by decide +kernel)
  exact ⟨converts.mp (by rw [built]; rfl), clean, _, built,
    (reads _ built (by decide +kernel)).mpr clean⟩

/-- A PUBLISH with this content type. -/
def typed (contentType : String) : @Submission asciiCategory :=
  letI := asciiCategory
  .request (.publishQoS0 topicA [] false { contentType := some contentType }) .one false

theorem asBytes_replicate (count : Nat) :
    (asBytes (String.ofList (List.replicate count 'a'))).length = count := by
  have one : String.utf8EncodeChar 'a' = [0x61] := by decide +kernel
  rw [asBytes_eq, String.toList_ofList, List.flatMap_replicate, one]
  simp

/-- A content type with U+0000 is sent and not read back, and one of 65,536 bytes panics. -/
theorem not_readable_typed :
    letI := asciiCategory
    ((typed "\x00").documented ∧ ∃ packet, (typed "\x00").packet = some packet ∧
      encodes packet .v5 = true ∧ ¬ ReadBack packet) ∧
    (typed (String.ofList (List.replicate 65536 'a'))).documented ∧
      (typed (String.ofList (List.replicate 65536 'a'))).packet = none := by
  let := asciiCategory
  have built : (typed "\x00").packet = some (.publish ⟨⟨⟨⟨[0, 1, 0x61]⟩⟩⟩, .atMostOnce, false, [],
      { contentType := some ⟨⟨[0, 1, 0]⟩⟩ }⟩) := by
    decide +kernel
  have encoded : encodes (.publish ⟨⟨⟨⟨[0, 1, 0x61]⟩⟩⟩, .atMostOnce, false, [],
      { contentType := some ⟨⟨[0, 1, 0]⟩⟩ }⟩) .v5 = true := by
    decide +kernel
  refine ⟨⟨rfl, _, built, encoded, ?_⟩, rfl, ?_⟩
  · intro read
    have clean := (readBack_iff built rfl encoded).mp read
    have nul := clean (.text "\x00") (List.mem_singleton_self _) '\x00' (by decide)
    exact nul.1 rfl
  · rw [← Option.not_isSome_iff_eq_none, Submission.isSome_packet]
    rintro ⟨-, short⟩
    have length := short (.text _) (List.mem_singleton_self _)
    rw [Field.Short, Field.length, asBytes_replicate] at length
    omega

end MqttClient.Api
