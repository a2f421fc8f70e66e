import MqttClient.Proto.PropertyOrder

/-! Where the blocks of properties stand in the packets of version 5, and what a packet is
decoded as when its block is put into another order. -/

namespace MqttClient.Proto

open Lib Decoding CodedProperty

/-- Bytes behind their length of two bytes. -/
def IsField (code : Bytes) : Prop :=
  ∃ high low content, code = high :: low :: content ∧
    content.length = (u16FromBeBytes high low).toNat

theorem settles_u8 (byte : UInt8) : tryGetU8.Settles [byte] := ⟨.ok byte, fun _ => rfl⟩

theorem settles_u16 (high low : UInt8) : tryGetU16Be.Settles [high, low] :=
  ⟨.ok (u16FromBeBytes high low), fun _ => rfl⟩

theorem settles_packetIdentifier (high low : UInt8) :
    tryGetPacketIdentifier.Settles [high, low] := by
  refine (settles_u16 high low).finish fun n => ?_
  cases PacketIdentifier.new n with
  | some identifier => exact .pure identifier
  | none => exact .fail _ _

theorem settles_tryInto (R : Type) [U8Code R] (code : UInt8) : (tryInto R code).Settles [] :=
  .ofExcept _

theorem settles_required {α : Type} {decoder : Decoding (Option α)} {code : Bytes}
    (settled : decoder.Settles code) : (required decoder).Settles code := by
  refine settled.finish fun outcome => ?_
  cases outcome with
  | some value => exact .pure value
  | none => exact .fail _ _

theorem BinaryData.reads_field {code : Bytes} (field : IsField code) :
    BinaryData.decode.Reads code (some ⟨code⟩) := by
  obtain ⟨high, low, content, rfl, length⟩ := field
  intro rest
  rw [List.cons_append, List.cons_append, decode_cons, if_neg (by simp [← length]), ← length,
    List.take_left, List.drop_left]

theorem remainingLength_ne_nil {code : Bytes} {length : Nat}
    (reads : decodeRemainingLength.Reads code (some length)) (block rest : Bytes) :
    code ++ block ++ rest ≠ [] := by
  intro empty
  have read := reads (block ++ rest)
  rw [← List.append_assoc, empty] at read
  cases read

section

variable [UnicodeGeneralCategory]

theorem ByteStr.settles_field {code : Bytes} (field : IsField code) :
    ByteStr.decode.Settles code := by
  refine (BinaryData.reads_field field).settles.finish fun outcome => ?_
  cases outcome with
  | none => exact .pure none
  | some data =>
    refine (Decoder.Settles.ofExcept _).finish fun text => ?_
    exact (Decoder.Settles.ofExcept _).finish fun _ => .pure _

theorem Topic.settles_field {code : Bytes} (field : IsField code) : Topic.decode.Settles code := by
  refine (ByteStr.settles_field field).finish fun outcome => ?_
  cases outcome with
  | none => exact .pure none
  | some text => exact (Decoder.Settles.ofExcept _).finish fun _ => .pure _

/-- The packets of version 5 that carry a block of properties. A CONNECT may carry a second
one, for its will. -/
inductive PropertyOwner where
  | auth
  | connAck
  | connect
  | will
  | disconnect
  | pubAck
  | pubRec
  | pubRel
  | pubComp
  | publish
  | subAck
  | subscribe
  | unsubAck
  | unsubscribe
  deriving DecidableEq, Repr

namespace PropertyOwner

def packetType : PropertyOwner → UInt8
  | .auth => Auth.packetType
  | .connAck => ConnAck.packetType
  | .connect | .will => Connect.packetType
  | .disconnect => Disconnect.packetType
  | .pubAck => PubAck.packetType
  | .pubRec => PubRec.packetType
  | .pubRel => PubRel.packetType
  | .pubComp => PubComp.packetType
  | .publish => Publish.packetType
  | .subAck => SubAck.packetType
  | .subscribe => Subscribe.packetType
  | .unsubAck => UnsubAck.packetType
  | .unsubscribe => Unsubscribe.packetType

/-- The kinds of property that may stand once. -/
def single : PropertyOwner → List PropertyKind
  | .auth => [.authenticationMethod, .authenticationData, .reasonString]
  | .connAck =>
    [.sessionExpiryInterval, .receiveMaximum, .maximumQoS, .retainAvailable, .maximumPacketSize,
      .assignedClientIdentifier, .topicAliasMaximum, .reasonString,
      .wildcardSubscriptionAvailable, .sharedSubscriptionAvailable,
      .subscriptionIdentifiersAvailable, .serverKeepAlive, .responseInformation,
      .serverReference, .authenticationMethod, .authenticationData]
  | .connect =>
    [.sessionExpiryInterval, .receiveMaximum, .maximumPacketSize, .topicAliasMaximum,
      .requestResponseInformation, .requestProblemInformation, .authenticationMethod,
      .authenticationData]
  | .will =>
    [.willDelayInterval, .payloadIsUtf8, .messageExpiryInterval, .contentType, .responseTopic,
      .correlationData]
  | .disconnect => [.sessionExpiryInterval, .reasonString, .serverReference]
  | .pubAck | .pubRec | .pubRel | .pubComp | .subAck | .unsubAck => [.reasonString]
  | .publish =>
    [.payloadIsUtf8, .messageExpiryInterval, .topicAlias, .responseTopic, .correlationData,
      .contentType]
  | .subscribe => [.subscriptionIdentifier]
  | .unsubscribe => []

/-- The kinds of property that may be repeated. -/
def repeated : PropertyOwner → List PropertyKind
  | .publish => [.userProperty, .subscriptionIdentifier]
  | _ => [.userProperty]

/-- How the packet decodes its block. -/
def decode : PropertyOwner → Decoding Unit
  | .auth => do
    let properties ← Property.decodeAll
      [.authenticationMethod, .authenticationData, .reasonString] [.userProperty]
    let _ ← Authentication.of
      (Binding.authenticationMethod.value properties)
      (Binding.authenticationData.value properties)
    return ()
  | .connAck => do
    let _ ← ConnAckOtherProperties.decode
    return ()
  | .connect => do
    let _ ← Connect.decodeProperties >>= Connect.otherPropertiesOf
    return ()
  | .will => do
    let _ ← Connect.decodeWillProperties
    return ()
  | .disconnect => do
    let _ ← Disconnect.decodeOtherProperties
    return ()
  | .pubAck | .pubRec | .pubRel | .pubComp | .subAck | .unsubAck => do
    let _ ← AckOtherProperties.decode
    return ()
  | .publish => do
    let _ ← Publish.decodeOtherProperties
    return ()
  | .subscribe => do
    let _ ← SubscribeOtherProperties.decode .v5
    return ()
  | .unsubscribe => do
    let _ ← Property.decodeAll [] [.userProperty]
    return ()

/-- The fields of a body between the fixed header, with these flags, and the block. -/
def Leads (owner : PropertyOwner) (flags : UInt8) (leading : Bytes) : Prop :=
  match owner with
  | .auth | .disconnect => leading.length = 1
  | .connAck => leading.length = 2
  | .connect =>
    ∃ name version connectFlags high low, IsField name ∧
      leading = name ++ [version] ++ [connectFlags, high, low]
  | .will =>
    ∃ name version connectFlags high low length block clientId, IsField name ∧
      connectFlags &&& Connect.flagsWill ≠ 0 ∧
      decodeRemainingLength.Reads length (some block.length) ∧ IsField clientId ∧
      leading = name ++ [version] ++ ([connectFlags, high, low] ++ (length ++ block ++ clientId))
  | .pubAck | .pubRec | .pubRel | .pubComp => leading.length = 3
  | .publish =>
    ∃ topic identifier, IsField topic ∧
      identifier.length = (if flags &&& 0x06 = 0 then 0 else 2) ∧ leading = topic ++ identifier
  | .subAck | .subscribe | .unsubAck | .unsubscribe => leading.length = 2

end PropertyOwner

namespace Connect

theorem settles_start {name : Bytes} (field : IsField name) (version : UInt8) :
    (decodeStart 0).Settles (name ++ [version]) := by
  unfold decodeStart
  rw [if_neg (by simp)]
  refine (settles_required (ByteStr.settles_field field)).bind fun found => ?_
  split
  · exact .fail _ _
  · refine (settles_u8 version).finish fun byte => ?_
    split
    · exact .pure _
    · exact .pure _
    · exact .fail _ _

theorem settles_clientId {clientId : Bytes} (field : IsField clientId) :
    decodeClientId.Settles clientId :=
  (settles_required (ByteStr.settles_field field)).finish fun _ => .pure _

end Connect

omit [UnicodeGeneralCategory] in
theorem Publish.settles_packetIdentifierDupQoS {flags : UInt8} {identifier : Bytes}
    (length : identifier.length = if flags &&& 0x06 = 0 then 0 else 2) :
    (decodePacketIdentifierDupQoS flags).Settles identifier := by
  have shifted : (flags &&& 0x06) >>> 1 = 0 ↔ flags &&& 0x06 = 0 := by
    have each : ∀ n : Fin 256, (UInt8.ofFin n &&& 0x06) >>> 1 = 0 ↔ UInt8.ofFin n &&& 0x06 = 0 := by
      decide +kernel
    exact each flags.toFin
  unfold decodePacketIdentifierDupQoS
  simp only
  split
  · rename_i none
    rw [if_pos (shifted.mp none), List.length_eq_zero_iff] at length
    subst length
    split
    · exact .fail _ _
    · exact .pure _
  · rename_i once
    rw [if_neg (fun zero => absurd (once ▸ shifted.mpr zero) (by decide)),
      List.length_eq_two] at length
    obtain ⟨high, low, rfl⟩ := length
    exact (settles_packetIdentifier high low).finish fun _ => .pure _
  · rename_i twice
    rw [if_neg (fun zero => absurd (twice ▸ shifted.mpr zero) (by decide)),
      List.length_eq_two] at length
    obtain ⟨high, low, rfl⟩ := length
    exact (settles_packetIdentifier high low).finish fun _ => .pure _
  · exact .fail _ _

section Orders

variable {length : Bytes} {properties reordered : List CodedProperty}
  (counted : decodeRemainingLength.Reads length (some (bytes properties).length))
  (same : Reordered properties reordered) (rest : Bytes)

omit [UnicodeGeneralCategory] in
theorem userProperty_ordered : ∀ kind ∈ [PropertyKind.userProperty],
    kind = .userProperty ∨ kind = .subscriptionIdentifier := by
  simp

include counted same

theorem ConnAckOtherProperties.alike :
    ConnAckOtherProperties.decode.Alike (length ++ bytes properties ++ rest)
      (length ++ bytes reordered ++ rest) := by
  refine same.alike_all counted userProperty_ordered ?_ rest
  intro first second agree
  simp only [Binding.value_eq, agree _ _]

theorem Connect.alike_willProperties :
    Connect.decodeWillProperties.Alike (length ++ bytes properties ++ rest)
      (length ++ bytes reordered ++ rest) := by
  refine same.alike_all counted userProperty_ordered ?_ rest
  intro first second agree
  simp only [Binding.value_eq, agree _ _]

theorem Disconnect.alike_otherProperties :
    Disconnect.decodeOtherProperties.Alike (length ++ bytes properties ++ rest)
      (length ++ bytes reordered ++ rest) := by
  refine same.alike_all counted userProperty_ordered ?_ rest
  intro first second agree
  simp only [Binding.value_eq, agree _ _]

theorem AckOtherProperties.alike :
    AckOtherProperties.decode.Alike (length ++ bytes properties ++ rest)
      (length ++ bytes reordered ++ rest) := by
  refine same.alike_all counted userProperty_ordered ?_ rest
  intro first second agree
  simp only [Binding.value_eq, agree _ _]

theorem Publish.alike_otherProperties :
    Publish.decodeOtherProperties.Alike (length ++ bytes properties ++ rest)
      (length ++ bytes reordered ++ rest) := by
  refine same.alike_all counted (by simp) ?_ rest
  intro first second agree
  simp only [Binding.value_eq, agree _ _]

theorem SubscribeOtherProperties.alike :
    (SubscribeOtherProperties.decode .v5).Alike (length ++ bytes properties ++ rest)
      (length ++ bytes reordered ++ rest) := by
  refine same.alike_all counted userProperty_ordered ?_ rest
  intro first second agree
  simp only [Binding.value_eq, agree _ _]

theorem Auth.alike (reasonCode : UInt8) :
    (Auth.decode 0 .v5).Alike ([reasonCode] ++ (length ++ bytes properties ++ rest))
      ([reasonCode] ++ (length ++ bytes reordered ++ rest)) := by
  have read : tryGetU8OrEnd.Reads [reasonCode] (some reasonCode) := fun _ => rfl
  refine .read read ?_
  refine Decoder.Alike.behind (settles_tryInto AuthenticateReasonCode reasonCode) fun code => ?_
  refine same.alike_all counted userProperty_ordered ?_ rest
  intro first second agree
  simp only [Binding.value_eq, agree _ _]

theorem ConnAck.alike (flags reasonCode : UInt8) :
    (ConnAck.decode .v5).Alike ([flags, reasonCode] ++ (length ++ bytes properties ++ rest))
      ([flags, reasonCode] ++ (length ++ bytes reordered ++ rest)) := by
  refine Decoder.Alike.behind (settles_u8 flags) fun flags => ?_
  refine Decoder.Alike.behind (?sessionPresent : Decoder.Settles _ []) fun present => ?_
  case sessionPresent =>
    split
    · exact .pure _
    · exact .pure _
    · exact .fail _ _
  refine Decoder.Alike.behind (settles_u8 reasonCode) fun reasonCode => ?_
  have code : (ConnectReasonCode.tryFrom reasonCode present .v5).Settles [] := by
    unfold ConnectReasonCode.tryFrom
    split
    case h_1 => exact .pure _
    case h_8 => exact (settles_tryInto _ _).finish fun _ => .pure _
    all_goals contradiction
  refine Decoder.Alike.behind code fun code => ?_
  exact (ConnAckOtherProperties.alike counted same rest).bind

theorem Connect.alike {name : Bytes} (field : IsField name)
    (version connectFlags high low : UInt8) :
    (Connect.decode 0 .v5).Alike
      (name ++ [version] ++ ([connectFlags] ++ ([high, low] ++
        (length ++ bytes properties ++ rest))))
      (name ++ [version] ++ ([connectFlags] ++ ([high, low] ++
        (length ++ bytes reordered ++ rest)))) := by
  refine .behind (settles_start field version) fun actual => ?_
  split
  · exact .fail
  · refine .behind (settles_u8 connectFlags) fun connectFlags => ?_
    split
    · exact .fail
    · refine .behind (settles_u16 high low) fun keepAlive => ?_
      refine same.alike_all counted userProperty_ordered ?_ rest
      intro first second agree
      simp only [otherPropertiesOf, Binding.value_eq, agree _ _]

/-- Another order of the properties of the will, behind those of the packet itself. -/
theorem Connect.alike_will {name header block clientId : Bytes} (field : IsField name)
    (version connectFlags high low : UInt8) (will : connectFlags &&& Connect.flagsWill ≠ 0)
    (first : decodeRemainingLength.Reads header (some block.length)) (id : IsField clientId) :
    (Connect.decode 0 .v5).Alike
      (name ++ [version] ++ ([connectFlags] ++ ([high, low] ++ (header ++ block ++ (clientId ++
        (length ++ bytes properties ++ rest))))))
      (name ++ [version] ++ ([connectFlags] ++ ([high, low] ++ (header ++ block ++ (clientId ++
        (length ++ bytes reordered ++ rest)))))) := by
  have flags : tryGetU8.Reads [connectFlags] connectFlags := fun _ => rfl
  refine .behind (settles_start field version) fun actual => ?_
  split
  · exact .fail
  · refine .read flags ?_
    split
    · exact .fail
    · refine .behind (settles_u16 high low) fun keepAlive => ?_
      refine .behind (Property.settles_all first) fun other => ?_
      refine .behind (settles_clientId id) fun clientId => ?_
      refine Decoder.Alike.bind ?_
      rw [decodeWill, if_neg will]
      exact (Connect.alike_willProperties counted same rest).bind

theorem Disconnect.alike (reasonCode : UInt8) :
    (Disconnect.decode .v5).Alike ([reasonCode] ++ (length ++ bytes properties ++ rest))
      ([reasonCode] ++ (length ++ bytes reordered ++ rest)) := by
  have read : tryGetU8OrEnd.Reads [reasonCode] (some reasonCode) := fun _ => rfl
  refine .read read ?_
  refine Decoder.Alike.behind (settles_tryInto DisconnectReasonCode reasonCode) fun code => ?_
  refine .bindIsEmpty (remainingLength_ne_nil counted _ _) (remainingLength_ne_nil counted _ _) ?_
  exact (Disconnect.alike_otherProperties counted same rest).bind

theorem alike_ack {R α : Type} [U8Code R] (success : R)
    (packet : PacketIdentifier → R → AckOtherProperties → α) (high low reasonCode : UInt8) :
    (decodeAck success packet .v5).Alike
      ([high, low] ++ ([reasonCode] ++ (length ++ bytes properties ++ rest)))
      ([high, low] ++ ([reasonCode] ++ (length ++ bytes reordered ++ rest))) := by
  have read : tryGetU8OrEnd.Reads [reasonCode] (some reasonCode) := fun _ => rfl
  refine .behind (settles_packetIdentifier high low) fun packetIdentifier => ?_
  refine .read read ?_
  refine Decoder.Alike.behind (settles_tryInto R reasonCode) fun code => ?_
  refine .bindIsEmpty (remainingLength_ne_nil counted _ _) (remainingLength_ne_nil counted _ _) ?_
  exact (AckOtherProperties.alike counted same rest).bind

theorem Publish.alike {flags : UInt8} {topic identifier : Bytes} (field : IsField topic)
    (fits : identifier.length = if flags &&& 0x06 = 0 then 0 else 2) :
    (Publish.decode flags .v5).Alike
      (topic ++ (identifier ++ (length ++ bytes properties ++ rest)))
      (topic ++ (identifier ++ (length ++ bytes reordered ++ rest))) := by
  refine .behind (settles_required (Topic.settles_field field)) fun topicName => ?_
  refine .behind (settles_packetIdentifierDupQoS fits) fun packetIdentifierDupQoS => ?_
  exact (Publish.alike_otherProperties counted same rest).bind

theorem SubAck.alike (high low : UInt8) :
    (SubAck.decode .v5).Alike ([high, low] ++ (length ++ bytes properties ++ rest))
      ([high, low] ++ (length ++ bytes reordered ++ rest)) := by
  refine .behind (settles_packetIdentifier high low) fun packetIdentifier => ?_
  exact (AckOtherProperties.alike counted same rest).bind

theorem UnsubAck.alike (high low : UInt8) :
    (UnsubAck.decode .v5).Alike ([high, low] ++ (length ++ bytes properties ++ rest))
      ([high, low] ++ (length ++ bytes reordered ++ rest)) := by
  refine .behind (settles_packetIdentifier high low) fun packetIdentifier => ?_
  exact (AckOtherProperties.alike counted same rest).bind

theorem Subscribe.alike (high low : UInt8) :
    (Subscribe.decode .v5).Alike ([high, low] ++ (length ++ bytes properties ++ rest))
      ([high, low] ++ (length ++ bytes reordered ++ rest)) := by
  refine .behind (settles_packetIdentifier high low) fun packetIdentifier => ?_
  exact (SubscribeOtherProperties.alike counted same rest).bind

theorem Unsubscribe.alike (high low : UInt8) :
    (Unsubscribe.decode .v5).Alike ([high, low] ++ (length ++ bytes properties ++ rest))
      ([high, low] ++ (length ++ bytes reordered ++ rest)) := by
  refine .behind (settles_packetIdentifier high low) fun packetIdentifier => ?_
  refine Decoder.Alike.bind (same.alike_all counted userProperty_ordered ?_ rest)
  intro first second agree
  simp only [agree _ _]

omit counted same in
/-- The flags of the header are fixed but for PUBLISH. -/
theorem Packet.decodeBody_flags (packetType flags : UInt8) (version : ProtocolVersion) :
    packetType = 0x30 ∨ (flags = if packetType ∈ [0x60, 0x80, 0xA0] then 0x02 else 0x00) ∨
      ∀ src, ∃ fault, decodeBody packetType flags version src = .error fault := by
  by_cases publish : packetType = 0x30
  · exact .inl publish
  · by_cases fixed : flags = if packetType ∈ [0x60, 0x80, 0xA0] then 0x02 else 0x00
    · exact .inr (.inl fixed)
    · refine .inr (.inr fun src => ?_)
      unfold decodeBody
      split
      case h_9 => exact absurd rfl publish
      case h_16 => exact ⟨_, rfl⟩
      all_goals exact absurd rfl fixed

/-- Another order of the properties of a packet, wherever its block stands. -/
theorem PropertyOwner.alike_body (owner : PropertyOwner) {flags : UInt8} {leading : Bytes}
    (leads : owner.Leads flags leading) :
    (Packet.decodeBody owner.packetType flags .v5).Alike
      (leading ++ (length ++ bytes properties ++ rest))
      (leading ++ (length ++ bytes reordered ++ rest)) := by
  rcases Packet.decodeBody_flags owner.packetType flags .v5 with typed | fixed | refused
  · cases owner with
    | publish =>
      obtain ⟨topic, identifier, field, fits, rfl⟩ := leads
      rw [List.append_assoc topic, List.append_assoc topic]
      exact (Publish.alike counted same rest field fits).bind
    | _ => exact absurd typed (by decide)
  · cases owner with
    | auth =>
      obtain ⟨reasonCode, rfl⟩ := List.length_eq_one_iff.mp leads
      subst fixed
      exact (Auth.alike counted same rest reasonCode).bind
    | connAck =>
      obtain ⟨connackFlags, reasonCode, rfl⟩ := List.length_eq_two.mp leads
      subst fixed
      exact (ConnAck.alike counted same rest connackFlags reasonCode).bind
    | connect =>
      obtain ⟨name, version, connectFlags, high, low, field, rfl⟩ := leads
      subst fixed
      rw [List.append_assoc (name ++ [version]), List.append_assoc (name ++ [version])]
      exact (Connect.alike counted same rest field version connectFlags high low).bind
    | will =>
      obtain ⟨name, version, connectFlags, high, low, header, block, clientId, field, will, first,
        id, rfl⟩ := leads
      subst fixed
      simp only [List.append_assoc (name ++ [version]), List.append_assoc [connectFlags, high, low],
        List.append_assoc (header ++ block)]
      exact (Connect.alike_will counted same rest field version connectFlags high low will first
        id).bind
    | disconnect =>
      obtain ⟨reasonCode, rfl⟩ := List.length_eq_one_iff.mp leads
      subst fixed
      exact (Disconnect.alike counted same rest reasonCode).bind
    | pubAck =>
      obtain ⟨high, low, reasonCode, rfl⟩ := List.length_eq_three.mp leads
      subst fixed
      exact (alike_ack counted same rest _ _ high low reasonCode).bind
    | pubRec =>
      obtain ⟨high, low, reasonCode, rfl⟩ := List.length_eq_three.mp leads
      subst fixed
      exact (alike_ack counted same rest _ _ high low reasonCode).bind
    | pubRel =>
      obtain ⟨high, low, reasonCode, rfl⟩ := List.length_eq_three.mp leads
      subst fixed
      exact (alike_ack counted same rest _ _ high low reasonCode).bind
    | pubComp =>
      obtain ⟨high, low, reasonCode, rfl⟩ := List.length_eq_three.mp leads
      subst fixed
      exact (alike_ack counted same rest _ _ high low reasonCode).bind
    | publish =>
      obtain ⟨topic, identifier, field, fits, rfl⟩ := leads
      rw [List.append_assoc topic, List.append_assoc topic]
      exact (Publish.alike counted same rest field fits).bind
    | subAck =>
      obtain ⟨high, low, rfl⟩ := List.length_eq_two.mp leads
      subst fixed
      exact (SubAck.alike counted same rest high low).bind
    | subscribe =>
      obtain ⟨high, low, rfl⟩ := List.length_eq_two.mp leads
      subst fixed
      exact (Subscribe.alike counted same rest high low).bind
    | unsubAck =>
      obtain ⟨high, low, rfl⟩ := List.length_eq_two.mp leads
      subst fixed
      exact (UnsubAck.alike counted same rest high low).bind
    | unsubscribe =>
      obtain ⟨high, low, rfl⟩ := List.length_eq_two.mp leads
      subst fixed
      exact (Unsubscribe.alike counted same rest high low).bind
  · obtain ⟨fault, failed⟩ := refused (leading ++ (length ++ bytes properties ++ rest))
    obtain ⟨other, otherFailed⟩ := refused (leading ++ (length ++ bytes reordered ++ rest))
    rw [Decoder.Alike, failed, otherFailed]
    rfl

omit same in
/-- A block of properties is refused only for what stands in it. -/
theorem PropertyOwner.refused (owner : PropertyOwner) {fault : Fault}
    (failed : owner.decode (length ++ bytes properties ++ rest) = .error fault) :
    Misplaced owner.single owner.repeated properties ∨ DataAlone properties := by
  have inner {α : Type} {decoder : Decoding α} {src : Bytes}
      (failed : (decoder >>= fun _ => pure ()) src = .error fault) :
      ∃ inside, decoder src = .error inside := by
    rw [Decoder.bind_apply] at failed
    cases ran : decoder src with
    | error inside => exact ⟨inside, rfl⟩
    | ok outcome =>
      rw [ran] at failed
      cases failed
  cases owner with
  | auth =>
    exact (refused_of_authentication counted failed).imp misplaced_of_refused id
  | connAck =>
    obtain ⟨_, inside⟩ := inner failed
    exact (refused_of_authentication counted inside).imp misplaced_of_refused id
  | connect =>
    obtain ⟨_, inside⟩ := inner failed
    exact (refused_of_authentication counted inside).imp misplaced_of_refused id
  | unsubscribe => exact .inl (misplaced_of_refused (refused_of_all counted failed))
  | _ =>
    obtain ⟨_, inside⟩ := inner failed
    exact .inl (misplaced_of_refused (refused_of_all counted inside))

end Orders

/-- The bytes of a packet around a block of its properties. -/
structure BlockPlace where
  firstByte : UInt8
  remainingLength : Bytes
  leading : Bytes
  length : Bytes
  trailing : Bytes

namespace BlockPlace

def fill (place : BlockPlace) (properties : List CodedProperty) : Bytes :=
  place.firstByte :: place.remainingLength ++
    (place.leading ++ (place.length ++ bytes properties ++ place.trailing))

/-- The properties are the block of the owner, in a packet of its kind. -/
structure Holds (place : BlockPlace) (owner : PropertyOwner) (properties : List CodedProperty) :
    Prop where
  packetType : place.firstByte &&& 0xF0 = owner.packetType
  remainingLength :
    ∃ length, decodeRemainingLength.Reads place.remainingLength (some length)
  leading : owner.Leads (place.firstByte &&& 0x0F) place.leading
  length : decodeRemainingLength.Reads place.length (some (bytes properties).length)

theorem alike_fullAt {place : BlockPlace} {owner : PropertyOwner}
    {properties reordered : List CodedProperty} (holds : place.Holds owner properties)
    (same : Reordered properties reordered) :
    (Packet.decodeFullAt .v5).Alike (place.fill properties) (place.fill reordered) := by
  obtain ⟨length, header⟩ := holds.remainingLength
  have read : (scan (required decodeFixedHeader)).Reads
      (place.firstByte :: place.remainingLength) (place.firstByte, length) :=
    reads_scan ((Packet.reads_fixedHeader place.firstByte header).finish (.pure _))
  refine .read read ?_
  have body := owner.alike_body holds.length same place.trailing holds.leading
  have size : (place.leading ++ (place.length ++ bytes reordered ++ place.trailing)).length =
      (place.leading ++ (place.length ++ bytes properties ++ place.trailing)).length := by
    simp only [List.length_append, same.length_eq]
  rw [← holds.packetType] at body
  simp only [Decoder.Alike, Decoder.bind_apply, Decoder.input, size]
  split
  · rfl
  · split
    · rfl
    · exact body.bind

end BlockPlace

/-- Another order of the properties of a block, wherever in a packet it stands, gives the
same packet, or an error again. A block is refused only for a kind that the packet does not
have, for one twice that it has once, or for authentication data without a method. -/
theorem Packet.decodeFull_reordered (owner : PropertyOwner) (place : BlockPlace)
    (properties reordered : List CodedProperty) (holds : place.Holds owner properties)
    (same : Reordered properties reordered) :
    (∀ packet, Packet.decodeFull (place.fill properties) .v5 = .ok packet →
        Packet.decodeFull (place.fill reordered) .v5 = .ok packet) ∧
      (∀ error, Packet.decodeFull (place.fill properties) .v5 = .error (.error error) →
        ∃ other, Packet.decodeFull (place.fill reordered) .v5 = .error (.error other)) ∧
      ∀ fault, owner.decode (place.length ++ bytes properties ++ place.trailing) = .error fault →
        (∃ kind ∈ kinds properties, kind ∉ owner.single ∧ kind ∉ owner.repeated) ∨
          (∃ kind ∈ owner.single, 1 < (kinds properties).count kind) ∨
          (.authenticationData ∈ kinds properties ∧ .authenticationMethod ∉ kinds properties) := by
  have alike : (Packet.decodeFull (place.fill properties) .v5).toOption =
      (Packet.decodeFull (place.fill reordered) .v5).toOption :=
    (BlockPlace.alike_fullAt holds same).map_fst
  refine ⟨?_, ?_, fun fault failed => ?_⟩
  · intro packet decoded
    cases outcome : Packet.decodeFull (place.fill reordered) .v5 with
    | ok other =>
      rw [decoded, outcome] at alike
      cases alike
      rfl
    | error fault =>
      rw [decoded, outcome] at alike
      cases alike
  · intro error failed
    cases outcome : Packet.decodeFull (place.fill reordered) .v5 with
    | ok packet =>
      rw [failed, outcome] at alike
      cases alike
    | error fault =>
      obtain ⟨other, rfl⟩ := (sound_decodeFull .v5 (place.fill reordered)).isError outcome
      exact ⟨other, rfl⟩
  · exact or_assoc.mp (owner.refused holds.length place.trailing failed)

end

/-- The limits of a CONNACK in one order and in the other. -/
theorem Packet.decodeFull_reordered_limits :
    letI := asciiCategory
    Packet.decodeFull [0x20, 9, 0, 0, 6, 0x21, 0, 5, 0x22, 0, 7] .v5 =
        .ok (.connAck ⟨.success false,
          { receiveMaximum := ⟨5, by decide⟩, topicAliasMaximum := 7 }⟩) ∧
      Packet.decodeFull [0x20, 9, 0, 0, 6, 0x22, 0, 7, 0x21, 0, 5] .v5 =
        .ok (.connAck ⟨.success false,
          { receiveMaximum := ⟨5, by decide⟩, topicAliasMaximum := 7 }⟩) := by
  let := asciiCategory
  let receiveMaximum : CodedProperty :=
    ⟨[0x21, 0, 5], .receiveMaximum ⟨5, by decide⟩, fun _ => rfl⟩
  let topicAliasMaximum : CodedProperty := ⟨[0x22, 0, 7], .topicAliasMaximum 7, fun _ => rfl⟩
  have first : Packet.decodeFull [0x20, 9, 0, 0, 6, 0x21, 0, 5, 0x22, 0, 7] .v5 =
      .ok (.connAck ⟨.success false,
        { receiveMaximum := ⟨5, by decide⟩, topicAliasMaximum := 7 }⟩) := by
    decide +kernel
  have six : decodeRemainingLength.Reads [6] (some 6) := fun _ => rfl
  refine ⟨first, ?_⟩
  exact (Packet.decodeFull_reordered .connAck ⟨0x20, [9], [0, 0], [6], []⟩
    [receiveMaximum, topicAliasMaximum] [topicAliasMaximum, receiveMaximum]
    ⟨by decide, ⟨9, fun _ => rfl⟩, rfl, six⟩ ⟨.swap _ _ _, rfl, rfl⟩).1 _ first

end MqttClient.Proto
