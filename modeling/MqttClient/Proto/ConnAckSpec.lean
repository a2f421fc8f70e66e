import MqttClient.Proto.ConnectCodec
import MqttClient.Proto.PropertyBlock

/-! The packets that accept, authenticate and close a connection: a well-formed packet is
read back, and what is read is well formed and put again into no more bytes. -/

namespace MqttClient.Proto

open Lib Decoding Encoding

namespace Decoding

theorem reads_tryInto {R : Type} [U8Code R] (code : R) :
    (tryInto R (U8Code.toU8 code)).Reads [] code :=
  .ofExcept (by simp [Except.mapError])

theorem roundTrips_u8OrEnd (n : UInt8) : RoundTrips (tryPutU8 n) tryGetU8OrEnd (some n) :=
  (Encoder.Emits.slice [n] _).roundTrips fun _ => rfl

theorem ensures_u8OrEnd : tryGetU8OrEnd.Ensures fun outcome used =>
    outcome = none ∧ used = 0 ∨ ∃ byte, outcome = some byte ∧ used = 1 := by
  intro src outcome rest decoded
  cases src with
  | nil =>
    cases decoded
    exact ⟨0, rfl, .inl ⟨rfl, rfl⟩⟩
  | cons byte tail =>
    cases decoded
    exact ⟨1, by simp [Nat.add_comm], .inr ⟨byte, rfl, rfl⟩⟩

theorem ensures_tryInto {R : Type} [U8Code R] (code : UInt8) :
    (tryInto R code).Ensures fun _ used => used = 0 := by
  unfold tryInto
  cases (U8Code.tryFrom R code).mapError Fault.error with
  | ok value => exact .pure rfl
  | error fault => exact .fail

end Decoding

namespace Auth

theorem layout (packet : Auth) :
    Layout [.authenticationMethod, .authenticationData, .reasonString] [.userProperty]
      packet.slots where
  distinct := (by decide : List.Nodup [PropertyKind.authenticationMethod, .authenticationData,
    .reasonString, .userProperty])
  fits := by simp (disch := decide) [slots, Slot.fits_optional, Slot.fits_repeated]

variable [UnicodeGeneralCategory]

/-- Version 3 has no such packet. -/
def WellFormed (packet : Auth) : ProtocolVersion → Prop
  | .v3 => False
  | .v5 => ∀ slot ∈ packet.slots, slot.WellFormed

theorem roundTrips {packet : Auth} {version : ProtocolVersion}
    (formed : packet.WellFormed version) (small : (packet.encode version).size ≤ 268435455) :
    RoundTrips (packet.encode version) (Auth.decode 0 version) packet := by
  cases version with
  | v3 => exact formed.elim
  | v5 =>
    have layout := packet.layout
    simp only [encode, Encoder.size_append] at small
    refine (roundTrips_u8OrEnd _).append (.pass (reads_tryInto packet.reasonCode) ?_)
    refine (layout.roundTrips formed (by omega)).finish ?_
    have method : Binding.authenticationMethod.value (wire packet.slots) =
        (Authentication.intoParts packet.authentication).1 :=
      layout.value_optional (by simp [slots]) fun _ => rfl
    have data : Binding.authenticationData.value (wire packet.slots) =
        (Authentication.intoParts packet.authentication).2 :=
      layout.value_optional (by simp [slots]) fun _ => rfl
    have reasonString : Binding.reasonString.value (wire packet.slots) =
        packet.reasonString :=
      layout.value_optional (by simp [slots]) fun _ => rfl
    have userProperties : Binding.userProperty.values (wire packet.slots) =
        packet.userProperties :=
      layout.values_repeated (by simp [slots]) fun _ => rfl
    simp only [method, data, reasonString, userProperties]
    exact (Authentication.reads_of packet.authentication).finish (.pure packet)

/-- An empty body is put as a reason code and an empty block. -/
theorem ensures (version : ProtocolVersion) : (Auth.decode 0 version).Ensures fun packet used =>
    packet.WellFormed version ∧ (packet.encode version).size ≤ max used 2 := by
  cases version with
  | v3 => exact .bindInput fun _ => .fail
  | v5 =>
    refine ensures_u8OrEnd.bind fun outcome used read => ?_
    rcases read with ⟨rfl, rfl⟩ | ⟨reasonCode, rfl, rfl⟩
    · refine .pure ⟨?_, ?_⟩
      · simp [WellFormed, slots, Slot.WellFormed, Binding.optional, Binding.repeated, Authentication.intoParts]
      · decide
    · refine (ensures_tryInto reasonCode).bind fun reasonCode none zero => ?_
      refine Property.ensures_all.bind fun properties block read => ?_
      refine (Authentication.ensures_of _ _).bind fun authentication more same => .pure ?_
      obtain ⟨same, rfl⟩ := same
      have fits : (∀ slot ∈ slots ⟨reasonCode, authentication,
          Binding.reasonString.value properties, Binding.userProperty.values properties⟩,
          slot.WellFormed) ∧ _ := Slot.drawn_fits read (layout _).distinct (by
        simp [slots, same, Slot.drawn_optional read.formed, Slot.drawn_repeated read.formed])
      refine ⟨fits.1, ?_⟩
      have size := fits.2
      simp only [encode, Encoder.size_append, size_u8]
      omega

end Auth

namespace ConnectReasonCode

/-- Version 3 has return codes for five refusals. -/
def WellFormed : ConnectReasonCode → ProtocolVersion → Prop
  | .success _, _ => True
  | .refused reason, .v3 => reason ∈ [.unsupportedProtocolVersion, .clientIdentifierNotValid,
      .serverUnavailable, .badUserNameOrPassword, .notAuthorized]
  | .refused _, .v5 => True

theorem reads_tryFrom {reasonCode : ConnectReasonCode} {version : ProtocolVersion}
    (formed : reasonCode.WellFormed version) {sessionPresent : Bool}
    (same : ∀ present, reasonCode = .success present → present = sessionPresent) :
    (tryFrom (reasonCode.toU8 version) sessionPresent version).Reads [] reasonCode := by
  cases reasonCode with
  | success present =>
    obtain rfl := same present rfl
    cases version <;> exact .pure _
  | refused reason =>
    cases version with
    | v3 =>
      simp only [WellFormed, List.mem_cons, List.not_mem_nil, or_false] at formed
      rcases formed with rfl | rfl | rfl | rfl | rfl <;> exact .pure _
    | v5 => cases reason <;> exact (reads_tryInto _).finish (.pure _)

theorem ensures_tryFrom (code : UInt8) (sessionPresent : Bool) (version : ProtocolVersion) :
    (tryFrom code sessionPresent version).Ensures fun reasonCode used =>
      used = 0 ∧ reasonCode.WellFormed version := by
  unfold tryFrom
  split
  · exact .pure ⟨rfl, trivial⟩
  · exact .pure ⟨rfl, by simp [WellFormed]⟩
  · exact .pure ⟨rfl, by simp [WellFormed]⟩
  · exact .pure ⟨rfl, by simp [WellFormed]⟩
  · exact .pure ⟨rfl, by simp [WellFormed]⟩
  · exact .pure ⟨rfl, by simp [WellFormed]⟩
  · exact .fail
  · exact (ensures_tryInto _).bind fun reason used none => .pure ⟨none, trivial⟩

end ConnectReasonCode

namespace ConnAckOtherProperties

theorem layout (other : ConnAckOtherProperties) :
    Layout
      [.sessionExpiryInterval, .receiveMaximum, .maximumQoS, .retainAvailable, .maximumPacketSize,
        .assignedClientIdentifier, .topicAliasMaximum, .reasonString,
        .wildcardSubscriptionAvailable, .sharedSubscriptionAvailable,
        .subscriptionIdentifiersAvailable, .serverKeepAlive, .responseInformation,
        .serverReference, .authenticationMethod, .authenticationData]
      [.userProperty] other.slots where
  distinct := (by decide : List.Nodup [PropertyKind.sessionExpiryInterval, .receiveMaximum,
    .maximumQoS, .retainAvailable, .maximumPacketSize, .assignedClientIdentifier,
    .topicAliasMaximum, .reasonString, .userProperty, .wildcardSubscriptionAvailable,
    .sharedSubscriptionAvailable, .subscriptionIdentifiersAvailable, .serverKeepAlive,
    .responseInformation, .serverReference, .authenticationMethod, .authenticationData])
  fits := by
    simp (disch := decide) [slots, Slot.fits_optional, Slot.fits_once, Slot.fits_repeated]

variable [UnicodeGeneralCategory]

theorem roundTrips {other : ConnAckOtherProperties} (formed : ∀ slot ∈ other.slots, slot.WellFormed)
    (small : (encodeProperties other.slots).size ≤ 268435455) :
    RoundTrips (encodeProperties other.slots) ConnAckOtherProperties.decode other := by
  have layout := other.layout
  refine (layout.roundTrips formed small).finish ?_
  have sessionExpiryInterval : Binding.sessionExpiryInterval.value (wire other.slots) =
      other.sessionExpiryInterval :=
    layout.value_optional (by simp [slots]) fun _ => rfl
  have receiveMaximum : (Binding.receiveMaximum.value (wire other.slots)).getD .max =
      other.receiveMaximum :=
    layout.value_once (by simp [slots]) Binding.omits_receiveMaximum
  have maximumQoS : (Binding.maximumQoS.value (wire other.slots)).getD .exactlyOnce =
      other.maximumQoS :=
    layout.value_once (by simp [slots]) Binding.omits_maximumQoS
  have retainAvailable : (Binding.retainAvailable.value (wire other.slots)).getD true =
      other.retainAvailable :=
    layout.value_once (by simp [slots]) (Binding.omits_flag rfl rfl)
  have maximumPacketSize : (Binding.maximumPacketSize.value (wire other.slots)).getD .max =
      other.maximumPacketSize :=
    layout.value_once (by simp [slots]) Binding.omits_maximumPacketSize
  have assignedClientId : Binding.assignedClientIdentifier.value (wire other.slots) =
      other.assignedClientId :=
    layout.value_optional (by simp [slots]) fun _ => rfl
  have topicAliasMaximum : (Binding.topicAliasMaximum.value (wire other.slots)).getD 0 =
      other.topicAliasMaximum :=
    layout.value_once (by simp [slots]) Binding.omits_topicAliasMaximum
  have reasonString : Binding.reasonString.value (wire other.slots) = other.reasonString :=
    layout.value_optional (by simp [slots]) fun _ => rfl
  have userProperties : Binding.userProperty.values (wire other.slots) = other.userProperties :=
    layout.values_repeated (by simp [slots]) fun _ => rfl
  have wildcardSubscriptionAvailable :
      (Binding.wildcardSubscriptionAvailable.value (wire other.slots)).getD true =
        other.wildcardSubscriptionAvailable :=
    layout.value_once (by simp [slots]) (Binding.omits_flag rfl rfl)
  have sharedSubscriptionAvailable :
      (Binding.sharedSubscriptionAvailable.value (wire other.slots)).getD true =
        other.sharedSubscriptionAvailable :=
    layout.value_once (by simp [slots]) (Binding.omits_flag rfl rfl)
  have subscriptionIdentifiersAvailable :
      (Binding.subscriptionIdentifiersAvailable.value (wire other.slots)).getD true =
        other.subscriptionIdentifiersAvailable :=
    layout.value_once (by simp [slots]) (Binding.omits_flag rfl rfl)
  have serverKeepAlive : Binding.serverKeepAlive.value (wire other.slots) =
      other.serverKeepAlive :=
    layout.value_optional (by simp [slots]) fun _ => rfl
  have responseInformation : Binding.responseInformation.value (wire other.slots) =
      other.responseInformation :=
    layout.value_optional (by simp [slots]) fun _ => rfl
  have serverReference : Binding.serverReference.value (wire other.slots) =
      other.serverReference :=
    layout.value_optional (by simp [slots]) fun _ => rfl
  have method : Binding.authenticationMethod.value (wire other.slots) =
      (Authentication.intoParts other.authentication).1 :=
    layout.value_optional (by simp [slots]) fun _ => rfl
  have data : Binding.authenticationData.value (wire other.slots) =
      (Authentication.intoParts other.authentication).2 :=
    layout.value_optional (by simp [slots]) fun _ => rfl
  simp only [sessionExpiryInterval, receiveMaximum, maximumQoS, retainAvailable,
    maximumPacketSize, assignedClientId, topicAliasMaximum, reasonString, userProperties,
    wildcardSubscriptionAvailable, sharedSubscriptionAvailable, subscriptionIdentifiersAvailable,
    serverKeepAlive, responseInformation, serverReference, method, data]
  exact (Authentication.reads_of other.authentication).finish (.pure other)

theorem ensures : ConnAckOtherProperties.decode.Ensures fun other used =>
    (∀ slot ∈ other.slots, slot.WellFormed) ∧ (encodeProperties other.slots).size ≤ used := by
  refine Property.ensures_all.bind fun properties block read => ?_
  refine (Authentication.ensures_of _ _).bind fun authentication none same => ?_
  obtain ⟨same, rfl⟩ := same
  refine .pure (Slot.drawn_fits read (layout _).distinct ?_)
  simp only [slots, same, List.forall_mem_cons, List.not_mem_nil, false_implies, implies_true,
    Slot.drawn_optional read.formed, Slot.drawn_repeated read.formed, true_and, and_true]
  and_intros
  all_goals exact Slot.drawn_once read.formed trivial rfl

end ConnAckOtherProperties

namespace ConnAck

variable [UnicodeGeneralCategory]

def WellFormed (packet : ConnAck) (version : ProtocolVersion) : Prop :=
  packet.reasonCode.WellFormed version ∧
    match version with
    | .v3 => packet.otherProperties = {}
    | .v5 => ∀ slot ∈ packet.otherProperties.slots, slot.WellFormed

omit [UnicodeGeneralCategory] in
theorem reads_sessionPresent (sessionPresent : Bool) :
    (match (if sessionPresent then 0x01 else 0x00 : UInt8) with
      | 0x00 => return false
      | 0x01 => return true
      | connackFlags => reject (.unrecognizedConnAckFlags connackFlags) : Decoding Bool).Reads []
      sessionPresent := by
  cases sessionPresent <;> exact .pure _

theorem roundTrips {packet : ConnAck} {version : ProtocolVersion}
    (formed : packet.WellFormed version) (small : (packet.encode version).size ≤ 268435455) :
    RoundTrips (packet.encode version) (ConnAck.decode version) packet := by
  simp only [encode, Encoder.append_assoc, Encoder.size_append] at small ⊢
  refine (roundTrips_u8 _).append (.pass (reads_sessionPresent packet.sessionPresent) ?_)
  refine (roundTrips_u8 _).append (.pass (ConnectReasonCode.reads_tryFrom formed.1 ?_) ?_)
  · intro present same
    simp [sessionPresent, same]
  · cases version with
    | v3 =>
      have other : packet.otherProperties = {} := formed.2
      obtain ⟨reasonCode, otherProperties⟩ := packet
      subst other
      exact .skip (.pure _)
    | v5 =>
      have block : (encodeProperties packet.otherProperties.slots).size ≤ 268435455 := by
        simp only [ProtocolVersion.isV5, if_true] at small
        omega
      exact (ConnAckOtherProperties.roundTrips formed.2 block).finish (.pure packet)

theorem ensures (version : ProtocolVersion) : (ConnAck.decode version).Ensures fun packet used =>
    packet.WellFormed version ∧ (packet.encode version).size ≤ used := by
  refine ensures_u8.bind fun connackFlags first one => ?_
  have flag : (match connackFlags with
      | 0x00 => return false
      | 0x01 => return true
      | connackFlags => reject (.unrecognizedConnAckFlags connackFlags) : Decoding Bool).Ensures
      fun _ used => used = 0 := by
    split
    · exact .pure rfl
    · exact .pure rfl
    · exact .fail
  refine flag.bind fun sessionPresent none zero => ?_
  refine ensures_u8.bind fun code second also => ?_
  refine (ConnectReasonCode.ensures_tryFrom code sessionPresent version).bind
    fun reasonCode used read => ?_
  cases version with
  | v3 => exact .pure ⟨⟨read.2, rfl⟩, by simp [encode, ProtocolVersion.isV5]; omega⟩
  | v5 =>
    refine ConnAckOtherProperties.ensures.bind fun other block holds => .pure ⟨⟨read.2, holds.1⟩, ?_⟩
    simp only [encode, Encoder.size_append, size_u8, ProtocolVersion.isV5, if_true]
    have size := holds.2
    omega

end ConnAck

namespace Disconnect

theorem layout (other : DisconnectOtherProperties) :
    Layout [.sessionExpiryInterval, .reasonString, .serverReference] [.userProperty]
      (slots other) where
  distinct := (by decide : List.Nodup [PropertyKind.sessionExpiryInterval, .reasonString,
    .userProperty, .serverReference])
  fits := by simp (disch := decide) [slots, Slot.fits_optional, Slot.fits_repeated]

theorem eq_default {other : DisconnectOtherProperties} (none : hasProperties other = false) :
    other = {} := by
  obtain ⟨sessionExpiryInterval, reasonString, userProperties, serverReference⟩ := other
  simp_all [hasProperties]

variable [UnicodeGeneralCategory]

omit [UnicodeGeneralCategory] in
theorem size_encode (reasonCode : DisconnectReasonCode) (other : DisconnectOtherProperties) :
    (encode ⟨reasonCode, other⟩ .v5).size ≤
      1 + if hasProperties other then (encodeProperties (slots other)).size else 0 := by
  simp only [encode, ProtocolVersion.isV5, if_true]
  split
  · rw [Encoder.size_append, size_u8]
    split <;> simp
  · exact Nat.zero_le _

/-- Version 3 has only the bare packet. -/
def WellFormed (packet : Disconnect) : ProtocolVersion → Prop
  | .v3 => packet = ⟨.normal, {}⟩
  | .v5 => ∀ slot ∈ slots packet.otherProperties, slot.WellFormed

theorem roundTrips_otherProperties {other : DisconnectOtherProperties}
    (formed : ∀ slot ∈ slots other, slot.WellFormed)
    (small : (encodeProperties (slots other)).size ≤ 268435455) :
    RoundTrips (encodeProperties (slots other)) decodeOtherProperties other := by
  have layout := layout other
  refine (layout.roundTrips formed small).finish ?_
  have sessionExpiryInterval : Binding.sessionExpiryInterval.value (wire (slots other)) =
      other.sessionExpiryInterval :=
    layout.value_optional (by simp [slots]) fun _ => rfl
  have reasonString : Binding.reasonString.value (wire (slots other)) = other.reasonString :=
    layout.value_optional (by simp [slots]) fun _ => rfl
  have userProperties : Binding.userProperty.values (wire (slots other)) =
      other.userProperties :=
    layout.values_repeated (by simp [slots]) fun _ => rfl
  have serverReference : Binding.serverReference.value (wire (slots other)) =
      other.serverReference :=
    layout.value_optional (by simp [slots]) fun _ => rfl
  simp only [sessionExpiryInterval, reasonString, userProperties, serverReference]
  exact .pure other

theorem ensures_otherProperties : decodeOtherProperties.Ensures fun other used =>
    (∀ slot ∈ slots other, slot.WellFormed) ∧ (encodeProperties (slots other)).size ≤ used := by
  refine Property.ensures_all.bind fun properties block read => .pure ?_
  refine Slot.drawn_fits read (layout _).distinct ?_
  simp [slots, Slot.drawn_optional read.formed, Slot.drawn_repeated read.formed]

theorem roundTrips {packet : Disconnect} {version : ProtocolVersion}
    (formed : packet.WellFormed version) (small : (packet.encode version).size ≤ 268435455) :
    RoundTripsAll (packet.encode version) (Disconnect.decode version) packet := by
  cases version with
  | v3 =>
    cases formed
    exact (RoundTrips.skip (.pure _)).all
  | v5 =>
    obtain ⟨reasonCode, other⟩ := packet
    cases present : hasProperties other with
    | true =>
      simp only [encode, ProtocolVersion.isV5, if_true, present, or_true, Encoder.size_append] at small ⊢
      have block : (encodeProperties (slots other)).size ≤ 268435455 := by omega
      refine RoundTrips.all ((roundTrips_u8OrEnd _).append (.pass (reads_tryInto reasonCode) ?_))
      refine .bindIsEmpty ((layout other).items_ne_nil formed block) ?_
      exact (roundTrips_otherProperties formed block).finish (.pure _)
    | false =>
      obtain rfl := eq_default present
      by_cases normal : reasonCode = .normal
      · subst normal
        exact .atEnd rfl
      · have encoded : encode ⟨reasonCode, {}⟩ .v5 = tryPutU8 (U8Code.toU8 reasonCode) ++ .skip := by
          simp only [encode, ProtocolVersion.isV5, if_true, present, ne_eq, normal,
            not_false_eq_true, true_or]
          rfl
        rw [encoded]
        exact (roundTrips_u8OrEnd _).appendAll (.pass (reads_tryInto reasonCode) (.atEnd rfl))

theorem ensures (version : ProtocolVersion) : (Disconnect.decode version).Ensures fun packet used =>
    packet.WellFormed version ∧ (packet.encode version).size ≤ used := by
  cases version with
  | v3 => exact .pure ⟨rfl, Nat.le_refl 0⟩
  | v5 =>
    have bare : ∀ slot ∈ slots {}, slot.WellFormed := by
      simp [slots, Slot.WellFormed, Binding.optional, Binding.repeated]
    refine ensures_u8OrEnd.bind fun outcome used read => ?_
    rcases read with ⟨rfl, rfl⟩ | ⟨code, rfl, rfl⟩
    · exact .pure ⟨bare, Nat.le_refl 0⟩
    · refine (ensures_tryInto code).bind fun reasonCode none zero => ?_
      refine .bindIsEmpty fun empty => ?_
      split
      · refine .pure ⟨bare, ?_⟩
        have size := size_encode reasonCode {}
        rw [if_neg (by decide)] at size
        omega
      · refine ensures_otherProperties.bind fun other block holds => .pure ⟨holds.1, ?_⟩
        have size := size_encode reasonCode other
        have fits := holds.2
        split at size <;> omega

end Disconnect

end MqttClient.Proto
