import MqttClient.Proto.PrimitiveSpec
import MqttClient.Proto.Property

/-! Blocks of properties: what a packet puts into its block is what it reads from it, and
what it read is put again into no more bytes. -/

namespace MqttClient.Proto

open Lib Decoding Encoding

/-- An interval whose number is not the one that stands for no expiry. -/
def SessionExpiryInterval.WellFormed (interval : SessionExpiryInterval) : Prop :=
  interval ≠ .duration 4294967295

theorem SessionExpiryInterval.ofU32_toU32 {interval : SessionExpiryInterval}
    (formed : interval.WellFormed) : ofU32 interval.toU32 = interval := by
  cases interval with
  | infinite => rfl
  | duration seconds =>
    have other : seconds ≠ 4294967295 := fun same => formed (same ▸ rfl)
    simp [ofU32, toU32, other]

theorem SessionExpiryInterval.ofU32_wellFormed (value : UInt32) : (ofU32 value).WellFormed := by
  unfold ofU32 WellFormed
  split
  · simp
  · rename_i other
    simpa using other

theorem SessionExpiryInterval.toU32_ofU32 (value : UInt32) : (ofU32 value).toU32 = value := by
  unfold ofU32
  split
  · rename_i same
    exact same.symm
  · rfl

theorem KeepAlive.ofU16_toU16 (keepAlive : KeepAlive) : ofU16 keepAlive.toU16 = keepAlive := by
  cases keepAlive with
  | infinite => rfl
  | duration seconds => simp [ofU16, toU16, NonZeroU16.new, seconds.nonzero]

theorem NonZeroU16.new_get (value : NonZeroU16) : new value.get = some value := by
  simp [new, value.nonzero]

theorem NonZeroU32.new_get (value : NonZeroU32) : new value.get = some value := by
  simp [new, value.nonzero]

theorem NonZeroU32.get_of_new {raw : UInt32} {value : NonZeroU32} (created : new raw = some value) :
    value.get = raw := by
  unfold new at created
  split at created
  · cases created
    rfl
  · cases created

namespace Property

/-- A property as it stands on the wire, if it is put at all. -/
def onWire : Property → List Property
  | .assignedClientIdentifier clientId => [.assignedClientIdentifier clientId]
  | .authenticationData data => [.authenticationData data]
  | .authenticationMethod method => [.authenticationMethod method]
  | .connectSessionExpiryInterval interval =>
    if 0 < interval.toU32 then [.sessionExpiryInterval interval] else []
  | .contentType text => [.contentType text]
  | .correlationData data => [.correlationData data]
  | .maximumPacketSize value => if value.get < 4294967295 then [.maximumPacketSize value] else []
  | .maximumQoS qos => if qos ≠ .exactlyOnce then [.maximumQoS qos] else []
  | .messageExpiryInterval interval => [.messageExpiryInterval interval]
  | .payloadIsUtf8 isUtf8 => if isUtf8 then [.payloadIsUtf8 isUtf8] else []
  | .reasonString reason => [.reasonString reason]
  | .receiveMaximum value => if value.get < 65535 then [.receiveMaximum value] else []
  | .requestProblemInformation requested =>
    if !requested then [.requestProblemInformation requested] else []
  | .requestResponseInformation requested =>
    if requested then [.requestResponseInformation requested] else []
  | .responseInformation information => [.responseInformation information]
  | .responseTopic topic => [.responseTopic topic]
  | .retainAvailable available => if !available then [.retainAvailable available] else []
  | .serverKeepAlive keepAlive => [.serverKeepAlive keepAlive]
  | .serverReference reference => [.serverReference reference]
  | .sessionExpiryInterval interval => [.sessionExpiryInterval interval]
  | .sharedSubscriptionAvailable available =>
    if !available then [.sharedSubscriptionAvailable available] else []
  | .subscriptionIdentifier identifier => [.subscriptionIdentifier identifier]
  | .subscriptionIdentifiersAvailable available =>
    if !available then [.subscriptionIdentifiersAvailable available] else []
  | .topicAlias value => [.topicAlias value]
  | .topicAliasMaximum value => if 0 < value then [.topicAliasMaximum value] else []
  | .userProperty name value => [.userProperty name value]
  | .wildcardSubscriptionAvailable available =>
    if !available then [.wildcardSubscriptionAvailable available] else []
  | .willDelayInterval interval => if 0 < interval then [.willDelayInterval interval] else []

section

variable [UnicodeGeneralCategory]

/-- The texts, data and numbers of a property are ones the wire can carry. -/
def WellFormed : Property → Prop
  | .assignedClientIdentifier text => text.WellFormed
  | .authenticationData data => data.WellFormed
  | .authenticationMethod text => text.WellFormed
  | .connectSessionExpiryInterval interval => interval.WellFormed
  | .contentType text => text.WellFormed
  | .correlationData data => data.WellFormed
  | .reasonString text => text.WellFormed
  | .responseInformation text => text.WellFormed
  | .responseTopic topic => topic.WellFormed
  | .serverReference text => text.WellFormed
  | .sessionExpiryInterval interval => interval.WellFormed
  | .subscriptionIdentifier identifier => identifier.get.toNat ≤ 268435455
  | .userProperty name value => name.WellFormed ∧ value.WellFormed
  | _ => True

end

theorem encode_onWire (property : Property) :
    property.encode = Encoder.forEach property.onWire encode := by
  cases property with
  | connectSessionExpiryInterval interval =>
    simp only [encode, onWire]
    split <;> simp [encode]
  | maximumPacketSize value =>
    simp only [encode, onWire]
    split
    · rename_i below
      simp [encode, below]
    · rfl
  | maximumQoS qos => cases qos <;> simp [encode, onWire]
  | payloadIsUtf8 isUtf8 => cases isUtf8 <;> simp [encode, onWire]
  | receiveMaximum value =>
    simp only [encode, onWire]
    split
    · rename_i below
      simp [encode, below]
    · rfl
  | requestProblemInformation requested => cases requested <;> simp [encode, onWire]
  | requestResponseInformation requested => cases requested <;> simp [encode, onWire]
  | retainAvailable available => cases available <;> simp [encode, onWire]
  | sharedSubscriptionAvailable available => cases available <;> simp [encode, onWire]
  | subscriptionIdentifiersAvailable available => cases available <;> simp [encode, onWire]
  | topicAliasMaximum value =>
    simp only [encode, onWire]
    split
    · rename_i above
      simp [encode, above]
    · rfl
  | wildcardSubscriptionAvailable available => cases available <;> simp [encode, onWire]
  | willDelayInterval interval =>
    simp only [encode, onWire]
    split
    · rename_i above
      simp [encode, above]
    · rfl
  | _ => simp [onWire]

/-- An identifier and a value that is read back behind it. -/
theorem roundTrips_value [UnicodeGeneralCategory] {identifier : UInt8} {value : Encoding}
    {property : Property} (trips : RoundTrips value (decodeValue identifier) property) :
    RoundTrips (tryPutU8 identifier ++ value) Property.decode property :=
  (roundTrips_u8 identifier).append trips

theorem roundTrips_bool {unrecognized : UInt8 → DecodeError} (flag : Bool) :
    RoundTrips (tryPutU8 (if flag then 0x01 else 0x00)) (decodeBool unrecognized) flag := by
  cases flag
  · exact (roundTrips_u8 0x00).finish (.pure _)
  · exact (roundTrips_u8 0x01).finish (.pure _)

theorem roundTrips_nonZeroU16 {invalid : UInt16 → DecodeError} (value : NonZeroU16) :
    RoundTrips (tryPutU16Be value.get) (decodeNonZeroU16 invalid) value := by
  refine (roundTrips_u16 value.get).finish ?_
  simpa [NonZeroU16.new_get] using Decoder.Reads.pure value

theorem roundTrips_subscriptionIdentifier {identifier : NonZeroU32}
    (small : identifier.get.toNat ≤ 268435455) :
    RoundTrips (encodeVarint identifier.get) decodeSubscriptionIdentifier identifier := by
  have trips := roundTrips_required (roundTrips_varint identifier.get (by omega))
  refine roundTrips_scan (trips.finish ?_)
  simpa [NonZeroU32.new_get] using Decoder.Reads.pure identifier

variable [UnicodeGeneralCategory]

theorem roundTrips_str {text : ByteStr} (formed : text.WellFormed) :
    RoundTrips text.encode (required ByteStr.decode) text :=
  roundTrips_required (ByteStr.roundTrips formed)

omit [UnicodeGeneralCategory] in
theorem roundTrips_data {data : BinaryData} (formed : data.WellFormed) :
    RoundTrips data.encode (required BinaryData.decode) data :=
  roundTrips_required (BinaryData.roundTrips formed)

/-- A property that stands on the wire is read back. -/
theorem roundTrips {property : Property} (formed : property.WellFormed)
    (shown : property.onWire = [property]) :
    RoundTrips property.encode Property.decode property := by
  cases property with
  | assignedClientIdentifier text =>
    exact roundTrips_value ((roundTrips_str formed).finish (.pure _))
  | authenticationData data => exact roundTrips_value ((roundTrips_data formed).finish (.pure _))
  | authenticationMethod text => exact roundTrips_value ((roundTrips_str formed).finish (.pure _))
  | connectSessionExpiryInterval interval =>
    simp only [onWire] at shown
    split at shown <;> simp at shown
  | contentType text => exact roundTrips_value ((roundTrips_str formed).finish (.pure _))
  | correlationData data => exact roundTrips_value ((roundTrips_data formed).finish (.pure _))
  | maximumPacketSize value =>
    simp only [onWire] at shown
    split at shown
    · rename_i below
      rw [encode, if_pos below]
      refine roundTrips_value ((roundTrips_u32 value.get).finish ?_)
      simpa [NonZeroU32.new_get] using Decoder.Reads.pure (Property.maximumPacketSize value)
    · cases shown
  | maximumQoS qos =>
    cases qos with
    | atMostOnce => exact roundTrips_value ((roundTrips_u8 0x00).finish (.pure _))
    | atLeastOnce => exact roundTrips_value ((roundTrips_u8 0x01).finish (.pure _))
    | exactlyOnce => cases shown
  | messageExpiryInterval interval =>
    exact roundTrips_value ((roundTrips_u32 interval).finish (.pure _))
  | payloadIsUtf8 isUtf8 =>
    cases isUtf8 with
    | false => cases shown
    | true => exact roundTrips_value ((roundTrips_bool true).finish (.pure _))
  | reasonString text => exact roundTrips_value ((roundTrips_str formed).finish (.pure _))
  | receiveMaximum value =>
    simp only [onWire] at shown
    split at shown
    · rename_i below
      rw [encode, if_pos below]
      exact roundTrips_value ((roundTrips_nonZeroU16 value).finish (.pure _))
    · cases shown
  | requestProblemInformation requested =>
    cases requested with
    | false => exact roundTrips_value ((roundTrips_bool false).finish (.pure _))
    | true => cases shown
  | requestResponseInformation requested =>
    cases requested with
    | false => cases shown
    | true => exact roundTrips_value ((roundTrips_bool true).finish (.pure _))
  | responseInformation text => exact roundTrips_value ((roundTrips_str formed).finish (.pure _))
  | responseTopic topic =>
    exact roundTrips_value ((roundTrips_required (Topic.roundTrips formed)).finish (.pure _))
  | retainAvailable available =>
    cases available with
    | false => exact roundTrips_value ((roundTrips_bool false).finish (.pure _))
    | true => cases shown
  | serverKeepAlive keepAlive =>
    refine roundTrips_value ((roundTrips_u16 keepAlive.toU16).finish ?_)
    rw [KeepAlive.ofU16_toU16]
    exact .pure _
  | serverReference text => exact roundTrips_value ((roundTrips_str formed).finish (.pure _))
  | sessionExpiryInterval interval =>
    refine roundTrips_value ((roundTrips_u32 interval.toU32).finish ?_)
    rw [SessionExpiryInterval.ofU32_toU32 formed]
    exact .pure _
  | sharedSubscriptionAvailable available =>
    cases available with
    | false => exact roundTrips_value ((roundTrips_bool false).finish (.pure _))
    | true => cases shown
  | subscriptionIdentifier identifier =>
    exact roundTrips_value ((roundTrips_subscriptionIdentifier formed).finish (.pure _))
  | subscriptionIdentifiersAvailable available =>
    cases available with
    | false => exact roundTrips_value ((roundTrips_bool false).finish (.pure _))
    | true => cases shown
  | topicAlias value => exact roundTrips_value ((roundTrips_nonZeroU16 value).finish (.pure _))
  | topicAliasMaximum value =>
    simp only [onWire] at shown
    split at shown
    · rename_i above
      rw [encode, if_pos above]
      exact roundTrips_value ((roundTrips_u16 value).finish (.pure _))
    · cases shown
  | userProperty name value =>
    rw [encode, Encoder.append_assoc]
    refine roundTrips_value ((roundTrips_str formed.1).append ?_)
    exact (roundTrips_str formed.2).finish (.pure _)
  | wildcardSubscriptionAvailable available =>
    cases available with
    | false => exact roundTrips_value ((roundTrips_bool false).finish (.pure _))
    | true => cases shown
  | willDelayInterval interval =>
    simp only [onWire] at shown
    split at shown
    · rename_i above
      rw [encode, if_pos above]
      exact roundTrips_value ((roundTrips_u32 interval).finish (.pure _))
    · cases shown

omit [UnicodeGeneralCategory] in
theorem ensures_bool {unrecognized : UInt8 → DecodeError} :
    (decodeBool unrecognized).Ensures fun _ used => used = 1 := by
  refine ensures_u8.bind fun byte used one => ?_
  split
  · exact .pure one
  · exact .pure one
  · exact .fail

omit [UnicodeGeneralCategory] in
theorem ensures_nonZeroU16 {invalid : UInt16 → DecodeError} :
    (decodeNonZeroU16 invalid).Ensures fun _ used => used = 2 := by
  refine ensures_u16.bind fun raw used two => ?_
  split
  · exact .pure two
  · exact .fail

omit [UnicodeGeneralCategory] in
theorem ensures_subscriptionIdentifier : decodeSubscriptionIdentifier.Ensures fun identifier used =>
    identifier.get.toNat ≤ 268435455 ∧ (encodeVarint identifier.get).size ≤ used := by
  refine ensures_scan ((ensures_required ensures_varint).bind fun varint used holds => ?_)
  obtain ⟨positive, few, fits⟩ := holds
  cases created : NonZeroU32.new varint with
  | none => exact .fail
  | some identifier =>
    refine .pure ?_
    rw [NonZeroU32.get_of_new created]
    have power : 128 ^ used ≤ 128 ^ 4 := Nat.pow_le_pow_right (by decide) few
    exact ⟨by omega, size_varintLoop_le varint varint 4 used positive fits⟩

/-- A value read from some bytes is carried by a property of no more bytes. -/
theorem ensures_value (identifier : UInt8) : (decodeValue identifier).Ensures fun property more =>
    property.WellFormed ∧ property.encode.size ≤ 1 + more := by
  have text : (required ByteStr.decode).Ensures fun text used =>
      text.WellFormed ∧ text.data.shared.length = used := ensures_required ByteStr.ensures
  have data : (required BinaryData.decode).Ensures fun data used =>
      data.WellFormed ∧ data.shared.length = used := ensures_required BinaryData.ensures
  have topic : (required Topic.decode).Ensures fun topic used =>
      topic.WellFormed ∧ topic.inner.data.shared.length = used := ensures_required Topic.ensures
  unfold decodeValue
  split
  · refine ensures_bool.bind fun flag used one => .pure ⟨trivial, ?_⟩
    cases flag <;> simp [encode, one]
  · exact ensures_u32.bind fun _ used four => .pure ⟨trivial, by simp [encode, four]⟩
  · exact text.bind fun _ used holds => .pure ⟨holds.1, by simp [encode, holds.2]⟩
  · exact topic.bind fun _ used holds => .pure ⟨holds.1, by simp [encode, holds.2]⟩
  · exact data.bind fun _ used holds => .pure ⟨holds.1, by simp [encode, holds.2]⟩
  · exact ensures_subscriptionIdentifier.bind fun _ used holds =>
      .pure ⟨holds.1, by simpa [encode] using holds.2⟩
  · refine ensures_u32.bind fun raw used four => .pure ⟨?_, by simp [encode, four]⟩
    exact SessionExpiryInterval.ofU32_wellFormed raw
  · exact text.bind fun _ used holds => .pure ⟨holds.1, by simp [encode, holds.2]⟩
  · exact ensures_u16.bind fun _ used two => .pure ⟨trivial, by simp [encode, two]⟩
  · exact text.bind fun _ used holds => .pure ⟨holds.1, by simp [encode, holds.2]⟩
  · exact data.bind fun _ used holds => .pure ⟨holds.1, by simp [encode, holds.2]⟩
  · refine ensures_bool.bind fun flag used one => .pure ⟨trivial, ?_⟩
    cases flag <;> simp [encode, one]
  · refine ensures_u32.bind fun interval used four => .pure ⟨trivial, ?_⟩
    simp only [encode]
    split <;> simp [four]
  · refine ensures_bool.bind fun flag used one => .pure ⟨trivial, ?_⟩
    cases flag <;> simp [encode, one]
  · exact text.bind fun _ used holds => .pure ⟨holds.1, by simp [encode, holds.2]⟩
  · exact text.bind fun _ used holds => .pure ⟨holds.1, by simp [encode, holds.2]⟩
  · exact text.bind fun _ used holds => .pure ⟨holds.1, by simp [encode, holds.2]⟩
  · refine ensures_nonZeroU16.bind fun value used two => .pure ⟨trivial, ?_⟩
    simp only [encode]
    split <;> simp [two]
  · refine ensures_u16.bind fun value used two => .pure ⟨trivial, ?_⟩
    simp only [encode]
    split <;> simp [two]
  · exact ensures_nonZeroU16.bind fun _ used two => .pure ⟨trivial, by simp [encode, two]⟩
  · refine ensures_u8.bind fun byte used one => ?_
    split
    · exact .pure ⟨trivial, by simp [encode, one]⟩
    · exact .pure ⟨trivial, by simp [encode, one]⟩
    · exact .fail
  · refine ensures_bool.bind fun flag used one => .pure ⟨trivial, ?_⟩
    cases flag <;> simp [encode, one]
  · refine text.bind fun name used first => text.bind fun value more second => .pure ⟨?_, ?_⟩
    · exact ⟨first.1, second.1⟩
    · simp [encode, first.2, second.2, Nat.add_assoc]
  · refine ensures_u32.bind fun raw used four => ?_
    split
    · refine .pure ⟨trivial, ?_⟩
      simp only [encode]
      split <;> simp [four]
    · exact .fail
  · refine ensures_bool.bind fun flag used one => .pure ⟨trivial, ?_⟩
    cases flag <;> simp [encode, one]
  · refine ensures_bool.bind fun flag used one => .pure ⟨trivial, ?_⟩
    cases flag <;> simp [encode, one]
  · refine ensures_bool.bind fun flag used one => .pure ⟨trivial, ?_⟩
    cases flag <;> simp [encode, one]
  · exact .fail

theorem ensures : Property.decode.Ensures fun property used =>
    property.WellFormed ∧ property.encode.size ≤ used :=
  ensures_u8.bind fun identifier used one => (ensures_value identifier).mono
    fun property more holds => ⟨holds.1, by have := holds.2; omega⟩

end Property

end MqttClient.Proto
