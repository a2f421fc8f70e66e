import MqttClient.Proto.PublishSpec
import MqttClient.Proto.SubscribeCodec

/-! SUBSCRIBE, UNSUBSCRIBE and their acknowledgements: a well-formed packet is read back,
and what is read is well formed and put again into no more bytes. -/

namespace MqttClient.Proto

open Lib Decoding Encoding

section ReasonCodes

variable {R : Type} {tryFrom : UInt8 → Except Fault R} {toU8 : R → UInt8}

theorem emits_reasonCodes (reasonCodes : List R) :
    (Encoder.forEach reasonCodes fun reasonCode => tryPutU8 (toU8 reasonCode)).Emits
      (reasonCodes.map toU8) := by
  have emits : (Encoder.forEach reasonCodes fun reasonCode => tryPutU8 (toU8 reasonCode)).Emits
      (reasonCodes.flatMap fun reasonCode => [toU8 reasonCode]) :=
    .forEach fun reasonCode _ => .slice [toU8 reasonCode] _
  rwa [← List.map_eq_flatMap] at emits

theorem mapM_reasonCodes {reasonCodes : List R}
    (reads : ∀ reasonCode ∈ reasonCodes, tryFrom (toU8 reasonCode) = .ok reasonCode) :
    (reasonCodes.map toU8).mapM tryFrom = .ok reasonCodes := by
  induction reasonCodes with
  | nil => rfl
  | cons head tail ih =>
    rw [List.map_cons, List.mapM_cons, reads head List.mem_cons_self,
      ih fun reasonCode member => reads reasonCode (List.mem_cons_of_mem _ member)]
    rfl

theorem roundTrips_reasonCodes {reasonCodes : List R} (nonempty : reasonCodes ≠ [])
    (reads : ∀ reasonCode ∈ reasonCodes, tryFrom (toU8 reasonCode) = .ok reasonCode) :
    RoundTripsAll (Encoder.forEach reasonCodes fun reasonCode => tryPutU8 (toU8 reasonCode))
      (decodeReasonCodes tryFrom) reasonCodes := by
  refine (emits_reasonCodes reasonCodes).roundTripsAll ?_
  have mapped := mapM_reasonCodes reads
  simp only [Decoder.ReadsAll, decodeReasonCodes, Decoder.bind_apply, Decoder.input, mapped,
    Decoder.ofExcept, Decoder.pure_apply, drain]
  simp [nonempty, Decoder.pure_apply]

theorem mapM_ok {codes : Bytes} {reasonCodes : List R}
    (mapped : codes.mapM tryFrom = .ok reasonCodes) :
    reasonCodes.length = codes.length ∧
      ∀ reasonCode ∈ reasonCodes, ∃ code, tryFrom code = .ok reasonCode := by
  induction codes generalizing reasonCodes with
  | nil =>
    cases mapped
    exact ⟨rfl, by simp⟩
  | cons head tail ih =>
    rw [List.mapM_cons] at mapped
    cases first : tryFrom head with
    | error fault => simp [first, bind, Except.bind] at mapped
    | ok reasonCode =>
      cases others : tail.mapM tryFrom with
      | error fault => simp [first, others, bind, Except.bind] at mapped
      | ok rest =>
        simp only [first, others, bind, Except.bind, pure, Except.pure, Except.ok.injEq] at mapped
        subst mapped
        obtain ⟨length, origins⟩ := ih others
        refine ⟨by simp [length], fun found member => ?_⟩
        rcases List.mem_cons.mp member with rfl | later
        · exact ⟨head, first⟩
        · exact origins found later

theorem ensures_drain (index : Nat) : (drain index).Ensures fun _ used => used = index := by
  intro src value rest decoded
  simp only [drain] at decoded
  split at decoded
  · cases decoded
    exact ⟨index, by simp; omega, rfl⟩
  · cases decoded

theorem ensures_reasonCodes : (decodeReasonCodes tryFrom).Ensures fun reasonCodes used =>
    reasonCodes ≠ [] ∧ reasonCodes.length = used ∧
      ∀ reasonCode ∈ reasonCodes, ∃ code, tryFrom code = .ok reasonCode := by
  refine .bindInput fun src => .bindExcept fun reasonCodes mapped => ?_
  obtain ⟨-, origins⟩ := mapM_ok mapped
  refine (ensures_drain reasonCodes.length).bind fun _ used length => ?_
  split
  · exact .fail
  · rename_i nonempty
    exact .pure ⟨by simpa using nonempty, by omega, origins⟩

theorem size_reasonCodes (reasonCodes : List R) :
    (Encoder.forEach reasonCodes fun reasonCode => tryPutU8 (toU8 reasonCode)).size =
      reasonCodes.length := by
  simp [Encoder.size_forEach]

end ReasonCodes

namespace SubscribeReasonCode

/-- Version 3 has return codes for the grants and for one failure. -/
def WellFormed (reasonCode : SubscribeReasonCode) : ProtocolVersion → Prop
  | .v3 => reasonCode ∈ [.grantedQoS0, .grantedQoS1, .grantedQoS2, .unspecifiedError]
  | .v5 => True

theorem tryFrom_toU8 {reasonCode : SubscribeReasonCode} {version : ProtocolVersion}
    (formed : reasonCode.WellFormed version) :
    tryFrom version (reasonCode.toU8 version) = .ok reasonCode := by
  cases version with
  | v3 =>
    simp only [WellFormed, List.mem_cons, List.not_mem_nil, or_false] at formed
    rcases formed with rfl | rfl | rfl | rfl <;> rfl
  | v5 => simp [tryFrom, toU8, Except.mapError]

theorem wellFormed_of_tryFrom {version : ProtocolVersion} {code : UInt8}
    {reasonCode : SubscribeReasonCode} (read : tryFrom version code = .ok reasonCode) :
    reasonCode.WellFormed version := by
  cases version with
  | v5 => trivial
  | v3 =>
    simp only [tryFrom] at read
    split at read
    all_goals first | contradiction | cases read
    all_goals simp [WellFormed]

end SubscribeReasonCode

namespace SubAck

variable [UnicodeGeneralCategory]

structure WellFormed (packet : SubAck) (version : ProtocolVersion) : Prop where
  nonempty : packet.reasonCodes ≠ []
  reasonCodes : ∀ reasonCode ∈ packet.reasonCodes, reasonCode.WellFormed version
  properties :
    match version with
    | .v3 => packet.otherProperties = {}
    | .v5 => ∀ slot ∈ packet.otherProperties.slots, slot.WellFormed

theorem roundTrips {packet : SubAck} {version : ProtocolVersion}
    (formed : packet.WellFormed version) (small : (packet.encode version).size ≤ 268435455) :
    RoundTripsAll (packet.encode version) (SubAck.decode version) packet := by
  have codes : RoundTripsAll _ (decodeReasonCodes (SubscribeReasonCode.tryFrom version))
      packet.reasonCodes :=
    roundTrips_reasonCodes formed.nonempty fun reasonCode member =>
      SubscribeReasonCode.tryFrom_toU8 (formed.reasonCodes reasonCode member)
  simp only [encode, Encoder.append_assoc, Encoder.size_append] at small ⊢
  refine (roundTrips_packetIdentifier packet.packetIdentifier).appendAll ?_
  cases version with
  | v3 =>
    refine .pass (.pure ({} : AckOtherProperties)) (codes.finish ?_)
    rw [← show packet.otherProperties = {} from formed.properties]
    exact .pure packet
  | v5 =>
    simp only [ProtocolVersion.isV5, if_true] at small ⊢
    refine (AckOtherProperties.roundTrips formed.properties (by omega)).appendAll ?_
    exact codes.finish (.pure packet)

theorem ensures (version : ProtocolVersion) : (SubAck.decode version).Ensures fun packet used =>
    packet.WellFormed version ∧ (packet.encode version).size ≤ used := by
  refine ensures_packetIdentifier.bind fun packetIdentifier a two => ?_
  have codes : (decodeReasonCodes (SubscribeReasonCode.tryFrom version)).Ensures
      fun reasonCodes used => reasonCodes ≠ [] ∧ reasonCodes.length = used ∧
        ∀ reasonCode ∈ reasonCodes, reasonCode.WellFormed version :=
    ensures_reasonCodes.mono fun reasonCodes used holds =>
      ⟨holds.1, holds.2.1, fun reasonCode member =>
        (holds.2.2 reasonCode member).elim fun _ => SubscribeReasonCode.wellFormed_of_tryFrom⟩
  cases version with
  | v3 =>
    have none : (pure {} : Decoding AckOtherProperties).Ensures fun other used =>
        other = {} ∧ used = 0 := .pure ⟨rfl, rfl⟩
    refine none.bind fun other b bare => ?_
    refine codes.bind fun reasonCodes c holds => .pure ⟨⟨holds.1, holds.2.2, bare.1⟩, ?_⟩
    have length := holds.2.1
    simp only [encode, Encoder.size_append, size_u16, ProtocolVersion.isV5, Bool.false_eq_true,
      if_false, Encoder.size_skip, size_reasonCodes]
    omega
  | v5 =>
    refine AckOtherProperties.ensures.bind fun other b block => ?_
    refine codes.bind fun reasonCodes c holds => .pure ⟨⟨holds.1, holds.2.2, block.1⟩, ?_⟩
    have length := holds.2.1
    have size := block.2
    simp only [encode, Encoder.size_append, size_u16, ProtocolVersion.isV5, if_true,
      size_reasonCodes]
    omega

end SubAck

namespace UnsubAck

variable [UnicodeGeneralCategory]

/-- In version 3 the packet has neither reason codes nor properties. -/
def WellFormed (packet : UnsubAck) : ProtocolVersion → Prop
  | .v3 => packet.reasonCodes = [] ∧ packet.otherProperties = {}
  | .v5 => packet.reasonCodes ≠ [] ∧ ∀ slot ∈ packet.otherProperties.slots, slot.WellFormed

theorem roundTrips {packet : UnsubAck} {version : ProtocolVersion}
    (formed : packet.WellFormed version) (small : (packet.encode version).size ≤ 268435455) :
    RoundTripsAll (packet.encode version) (UnsubAck.decode version) packet := by
  simp only [encode, Encoder.size_append] at small
  refine (roundTrips_packetIdentifier packet.packetIdentifier).appendAll ?_
  cases version with
  | v3 =>
    obtain ⟨packetIdentifier, reasonCodes, other⟩ := packet
    obtain ⟨rfl, rfl⟩ := formed
    exact (RoundTrips.skip (.pure _)).all
  | v5 =>
    simp only [Encoder.size_append] at small
    refine (AckOtherProperties.roundTrips formed.2 (by omega)).appendAll ?_
    have codes : RoundTripsAll
        (Encoder.forEach packet.reasonCodes fun reasonCode => tryPutU8 (U8Code.toU8 reasonCode))
        (decodeReasonCodes fun code => (U8Code.tryFrom UnsubAckReasonCode code).mapError .error)
        packet.reasonCodes :=
      roundTrips_reasonCodes formed.1 fun reasonCode _ => by simp [Except.mapError]
    exact codes.finish (.pure packet)

theorem ensures (version : ProtocolVersion) : (UnsubAck.decode version).Ensures fun packet used =>
    packet.WellFormed version ∧ (packet.encode version).size ≤ used := by
  refine ensures_packetIdentifier.bind fun packetIdentifier a two => ?_
  cases version with
  | v3 => exact .pure ⟨⟨rfl, rfl⟩, by simp [encode, two]⟩
  | v5 =>
    refine AckOtherProperties.ensures.bind fun other b block => ?_
    refine ensures_reasonCodes.bind fun reasonCodes c holds => .pure ⟨⟨holds.1, block.1⟩, ?_⟩
    have length := holds.2.1
    have size := block.2
    simp only [encode, Encoder.size_append, size_u16, size_reasonCodes]
    omega

end UnsubAck

section Topics

variable {α : Type} {item : Decoding α} {encode : α → Encoding}

/-- Items that are read one by one are read as a list. -/
theorem roundTrips_topics {topics : List α} (nonempty : topics ≠ [])
    (trips : ∀ topic ∈ topics, RoundTrips (encode topic) item topic)
    (consumes : ∀ topic rest, item [] ≠ .ok (topic, rest)) :
    RoundTripsAll (Encoder.forEach topics encode) (decodeTopics item) topics := by
  have emits : (Encoder.forEach topics encode).Emits
      (topics.flatMap fun topic => (encode topic).items) :=
    .forEach fun topic member => (trips topic member).emits
  have collected : (Decoder.collect .diverge fun _ => item).ReadsAll
      (topics.flatMap fun topic => (encode topic).items) topics := by
    refine Decoder.collect_readsAll topics fun before topic after split => ?_
    have member : topic ∈ topics := by simp [split]
    refine ⟨fun empty => ?_, (trips topic member).2⟩
    have read := (trips topic member).2 []
    rw [empty] at read
    exact consumes topic [] read
  refine (emits.roundTripsAll collected).finish ?_
  rw [if_neg (by simpa using nonempty)]
  exact .pure topics

theorem ensures_topics {formed : α → Prop}
    (ensured : item.Ensures fun topic used => formed topic ∧ (encode topic).size ≤ used) :
    (decodeTopics item).Ensures fun topics used =>
      topics ≠ [] ∧ (∀ topic ∈ topics, formed topic) ∧
        (Encoder.forEach topics encode).size ≤ used := by
  have collected : (Decoder.collect .diverge fun _ => item).Ensures fun topics used =>
      (∀ topic ∈ topics, formed topic) ∧ (Encoder.forEach topics encode).size ≤ used := by
    refine Decoder.collect_ensures ⟨by simp, Nat.le_refl 0⟩ fun seen used holds => ?_
    refine ensured.mono fun topic more next => ⟨?_, ?_⟩
    · intro other member
      rcases List.mem_append.mp member with earlier | last
      · exact holds.1 other earlier
      · exact List.mem_singleton.mp last ▸ next.1
    · rw [Encoder.forEach_append, Encoder.size_append]
      simpa using Nat.add_le_add holds.2 next.2
  refine collected.bind fun topics used holds => ?_
  split
  · exact .fail
  · rename_i nonempty
    exact .pure ⟨by simpa using nonempty, holds⟩

end Topics

namespace SubscribeOptions

/-- In version 3 there is only the QoS. -/
def WellFormed (options : SubscribeOptions) : ProtocolVersion → Prop
  | .v3 => options.otherProperties = {}
  | .v5 => True

theorem options_bits (qos : QoS) (noLocal retainAsPublished : Bool) (handling : RetainHandling) :
    let options := U8Code.toU8 qos ||| (if noLocal then 0x04 else 0x00 : UInt8) |||
      (if retainAsPublished then 0x08 else 0x00 : UInt8) ||| (U8Code.toU8 handling <<< 4)
    options &&& 0x03 = U8Code.toU8 qos ∧ (options &&& 0x04 != 0) = noLocal ∧
      (options &&& 0x08 != 0) = retainAsPublished ∧
      (options &&& 0x30) >>> 4 = U8Code.toU8 handling ∧ options &&& 0xC0 = 0 := by
  cases qos <;> cases handling <;> revert noLocal retainAsPublished <;> decide

theorem roundTrips {options : SubscribeOptions} {version : ProtocolVersion}
    (formed : options.WellFormed version) :
    RoundTrips (options.encode version) (SubscribeOptions.decode version) options := by
  obtain ⟨maximumQoS, noLocal, retainAsPublished, retainHandling⟩ := options
  cases version with
  | v3 =>
    cases formed
    cases maximumQoS <;> exact (roundTrips_u8 _).finish (.pure _)
  | v5 =>
    obtain ⟨qos, exclude, published, handling, reserved⟩ :=
      options_bits maximumQoS noLocal retainAsPublished retainHandling
    refine (roundTrips_u8 _).finish ?_
    simp only [toU8, qos, exclude, published, handling, reserved]
    refine (reads_tryInto maximumQoS).finish ((reads_tryInto retainHandling).finish ?_)
    rw [if_neg (by simp)]
    exact .pure _

theorem ensures (version : ProtocolVersion) :
    (SubscribeOptions.decode version).Ensures fun options used =>
      options.WellFormed version ∧ used = 1 := by
  cases version with
  | v3 =>
    refine ensures_u8.bind fun byte used one => ?_
    split
    · exact .pure ⟨rfl, one⟩
    · exact .pure ⟨rfl, one⟩
    · exact .pure ⟨rfl, one⟩
    · exact .fail
  | v5 =>
    refine ensures_u8.bind fun byte used one => ?_
    refine (ensures_tryInto _).bind fun maximumQoS a none => ?_
    refine (ensures_tryInto _).bind fun retainHandling b nothing => ?_
    split
    · exact .fail
    · exact .pure ⟨trivial, by omega⟩

end SubscribeOptions

namespace SubscribeTo

variable [UnicodeGeneralCategory]

structure WellFormed (subscribeTo : SubscribeTo) (version : ProtocolVersion) : Prop where
  topicFilter : subscribeTo.topicFilter.WellFormed
  options : subscribeTo.options.WellFormed version
  noLocal : subscribeTo.topicFilter.isShared = true →
    subscribeTo.options.otherProperties.noLocal = false

theorem roundTrips {subscribeTo : SubscribeTo} {version : ProtocolVersion}
    (formed : subscribeTo.WellFormed version) :
    RoundTrips (subscribeTo.encode version) (SubscribeTo.decode version) subscribeTo := by
  refine (roundTrips_required (Filter.roundTrips formed.topicFilter)).append ?_
  refine (SubscribeOptions.roundTrips formed.options).finish ?_
  rw [if_neg]
  · exact .pure subscribeTo
  · rw [Bool.and_eq_true]
    rintro ⟨shared, set⟩
    rw [formed.noLocal shared] at set
    cases set

theorem ensures (version : ProtocolVersion) :
    (SubscribeTo.decode version).Ensures fun subscribeTo used =>
      subscribeTo.WellFormed version ∧ (subscribeTo.encode version).size ≤ used := by
  refine (ensures_required Filter.ensures).bind fun topicFilter a filter => ?_
  refine (SubscribeOptions.ensures version).bind fun options b holds => ?_
  split
  · exact .fail
  · rename_i allowed
    refine .pure ⟨⟨filter.1, holds.1, fun shared => ?_⟩, ?_⟩
    · simpa [show topicFilter.isShared = true from shared] using allowed
    · have length := filter.2
      simp only [encode, SubscribeOptions.encode, Encoder.size_append, Filter.size_encode, size_u8]
      omega

end SubscribeTo

namespace SubscribeOtherProperties

theorem layout (other : SubscribeOtherProperties) :
    Layout [.subscriptionIdentifier] [.userProperty] other.slots where
  distinct := (by decide : List.Nodup [PropertyKind.subscriptionIdentifier, .userProperty])
  fits := by simp (disch := decide) [slots, Slot.fits_optional, Slot.fits_repeated]

variable [UnicodeGeneralCategory]

def WellFormed (other : SubscribeOtherProperties) : ProtocolVersion → Prop
  | .v3 => other = {}
  | .v5 => ∀ slot ∈ other.slots, slot.WellFormed

theorem roundTrips {other : SubscribeOtherProperties} {version : ProtocolVersion}
    (formed : other.WellFormed version) (small : (other.encode version).size ≤ 268435455) :
    RoundTrips (other.encode version) (SubscribeOtherProperties.decode version) other := by
  cases version with
  | v3 =>
    cases formed
    exact .skip (.pure _)
  | v5 =>
    have layout := other.layout
    refine (layout.roundTrips formed small).finish ?_
    have subscriptionIdentifier : Binding.subscriptionIdentifier.value (wire other.slots) =
        other.subscriptionIdentifier :=
      layout.value_optional (by simp [slots]) fun _ => rfl
    have userProperties : Binding.userProperty.values (wire other.slots) =
        other.userProperties :=
      layout.values_repeated (by simp [slots]) fun _ => rfl
    simp only [subscriptionIdentifier, userProperties]
    exact .pure other

theorem ensures (version : ProtocolVersion) :
    (SubscribeOtherProperties.decode version).Ensures fun other used =>
      other.WellFormed version ∧ (other.encode version).size ≤ used := by
  cases version with
  | v3 => exact .pure ⟨rfl, Nat.le_refl 0⟩
  | v5 =>
    refine Property.ensures_all.bind fun properties block read => .pure ?_
    refine Slot.drawn_fits read (layout _).distinct ?_
    simp [slots, Slot.drawn_optional read.formed, Slot.drawn_repeated read.formed]

end SubscribeOtherProperties

namespace Subscribe

variable [UnicodeGeneralCategory]

structure WellFormed (packet : Subscribe) (version : ProtocolVersion) : Prop where
  nonempty : packet.subscribeTo ≠ []
  subscribeTo : ∀ subscribeTo ∈ packet.subscribeTo, subscribeTo.WellFormed version
  properties : packet.otherProperties.WellFormed version

theorem roundTrips {packet : Subscribe} {version : ProtocolVersion}
    (formed : packet.WellFormed version) (small : (packet.encode version).size ≤ 268435455) :
    RoundTripsAll (packet.encode version) (Subscribe.decode version) packet := by
  have some : packet.subscribeTo.isEmpty = false := by simpa using formed.nonempty
  simp only [encode, some, Bool.false_eq_true, if_false, Encoder.append_skip, Encoder.append_assoc,
    Encoder.size_append] at small ⊢
  refine (roundTrips_packetIdentifier packet.packetIdentifier).appendAll ?_
  refine (SubscribeOtherProperties.roundTrips formed.properties (by omega)).appendAll ?_
  have topics : RoundTripsAll
      (Encoder.forEach packet.subscribeTo fun subscribeTo => subscribeTo.encode version)
      (decodeTopics (SubscribeTo.decode version)) packet.subscribeTo := by
    refine roundTrips_topics formed.nonempty
      (fun subscribeTo member => SubscribeTo.roundTrips (formed.subscribeTo subscribeTo member)) ?_
    intro subscribeTo rest read
    cases read
  exact topics.finish (.pure packet)

theorem ensures (version : ProtocolVersion) : (Subscribe.decode version).Ensures fun packet used =>
    packet.WellFormed version ∧ (packet.encode version).size ≤ used := by
  refine ensures_packetIdentifier.bind fun packetIdentifier a two => ?_
  refine (SubscribeOtherProperties.ensures version).bind fun other b block => ?_
  refine (ensures_topics (SubscribeTo.ensures version)).bind fun subscribeTo c topics => ?_
  refine .pure ⟨⟨topics.1, topics.2.1, block.1⟩, ?_⟩
  have sizes := And.intro block.2 topics.2.2
  simp only [encode, Encoder.size_append, size_u16]
  split
  · simp only [refuse, Encoder.size_fail]
    omega
  · simp only [Encoder.size_skip]
    omega

end Subscribe

namespace Unsubscribe

theorem layout (userProperties : UserProperties) :
    Layout [] [.userProperty] [Binding.userProperty.repeated userProperties] where
  distinct := (by decide : List.Nodup [PropertyKind.userProperty])
  fits := by simp (disch := decide) [Slot.fits_repeated]

variable [UnicodeGeneralCategory]

structure WellFormed (packet : Unsubscribe) (version : ProtocolVersion) : Prop where
  nonempty : packet.unsubscribeFrom ≠ []
  unsubscribeFrom : ∀ filter ∈ packet.unsubscribeFrom, filter.WellFormed
  properties :
    match version with
    | .v3 => packet.otherProperties = {}
    | .v5 => ∀ slot ∈ [Binding.userProperty.repeated packet.otherProperties.userProperties],
        slot.WellFormed

theorem roundTrips {packet : Unsubscribe} {version : ProtocolVersion}
    (formed : packet.WellFormed version) (small : (packet.encode version).size ≤ 268435455) :
    RoundTripsAll (packet.encode version) (Unsubscribe.decode version) packet := by
  have some : packet.unsubscribeFrom.isEmpty = false := by simpa using formed.nonempty
  simp only [encode, some, Bool.false_eq_true, if_false, Encoder.append_skip, Encoder.append_assoc,
    Encoder.size_append] at small ⊢
  refine (roundTrips_packetIdentifier packet.packetIdentifier).appendAll ?_
  have topics : RoundTripsAll (Encoder.forEach packet.unsubscribeFrom Filter.encode)
      (decodeTopics (required Filter.decode)) packet.unsubscribeFrom := by
    refine roundTrips_topics formed.nonempty (fun filter member =>
      roundTrips_required (Filter.roundTrips (formed.unsubscribeFrom filter member))) ?_
    intro filter rest read
    cases read
  cases version with
  | v3 =>
    refine .pass (.pure ({} : UnsubscribeOtherProperties)) (topics.finish ?_)
    rw [← show packet.otherProperties = {} from formed.properties]
    exact .pure packet
  | v5 =>
    have layout := layout packet.otherProperties.userProperties
    simp only [ProtocolVersion.isV5, if_true] at small ⊢
    have userProperties : Binding.userProperty.values
        (wire [Binding.userProperty.repeated packet.otherProperties.userProperties]) =
        packet.otherProperties.userProperties :=
      layout.values_repeated (by simp) fun _ => rfl
    refine ((layout.roundTrips formed.properties (by omega)).finish ?_).appendAll
      (topics.finish (.pure packet))
    rw [userProperties]
    exact .pure _

theorem ensures (version : ProtocolVersion) :
    (Unsubscribe.decode version).Ensures fun packet used =>
      packet.WellFormed version ∧ (packet.encode version).size ≤ used := by
  refine ensures_packetIdentifier.bind fun packetIdentifier a two => ?_
  have filters : (required Filter.decode).Ensures fun filter used =>
      filter.WellFormed ∧ filter.encode.size ≤ used :=
    (ensures_required Filter.ensures).mono fun filter used holds =>
      ⟨holds.1, by rw [Filter.size_encode, holds.2]⟩
  cases version with
  | v3 =>
    have none : (pure {} : Decoding UnsubscribeOtherProperties).Ensures fun other used =>
        other = {} ∧ used = 0 := .pure ⟨rfl, rfl⟩
    refine none.bind fun other b bare => ?_
    refine (ensures_topics filters).bind fun unsubscribeFrom c topics => ?_
    refine .pure ⟨⟨topics.1, topics.2.1, bare.1⟩, ?_⟩
    have sizes := topics.2.2
    simp only [encode, Encoder.size_append, size_u16, ProtocolVersion.isV5, Bool.false_eq_true,
      if_false, Encoder.size_skip]
    split
    · simp only [refuse, Encoder.size_fail]
      omega
    · simp only [Encoder.size_skip]
      omega
  | v5 =>
    have block : (do
        let properties ← Property.decodeAll [] [.userProperty]
        return ⟨Binding.userProperty.values properties⟩ :
          Decoding UnsubscribeOtherProperties).Ensures fun other used =>
        (∀ slot ∈ [Binding.userProperty.repeated other.userProperties], slot.WellFormed) ∧
          (encodeProperties [Binding.userProperty.repeated other.userProperties]).size ≤ used := by
      refine Property.ensures_all.bind fun properties block read => .pure ?_
      refine Slot.drawn_fits read (layout _).distinct ?_
      simp [Slot.drawn_repeated read.formed]
    refine block.bind fun other b properties => ?_
    refine (ensures_topics filters).bind fun unsubscribeFrom c topics => ?_
    refine .pure ⟨⟨topics.1, topics.2.1, properties.1⟩, ?_⟩
    have sizes := And.intro properties.2 topics.2.2
    simp only [encode, Encoder.size_append, size_u16, ProtocolVersion.isV5, if_true]
    split
    · simp only [refuse, Encoder.size_fail]
      omega
    · simp only [Encoder.size_skip]
      omega

end Unsubscribe

end MqttClient.Proto
