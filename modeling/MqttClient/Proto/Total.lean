import MqttClient.Proto.Matching
import MqttClient.Proto.Utf8

/-! Decoding ends for every input, with a packet or with an error. -/

namespace MqttClient.Proto

open Lib Decoding

/-- A panic, or a loop without end. -/
def Fault.Fatal : Fault → Prop
  | .error _ => False
  | .panic => True
  | .diverge => True

/-- The outcome is a value or an error. -/
def Sound {α : Type} (outcome : Except Fault α) : Prop :=
  ∀ fault, outcome = .error fault → ¬ fault.Fatal

/-- Every input has a sound outcome. -/
abbrev Decoding.Total {α : Type} (decoder : Decoding α) : Prop := decoder.Avoids Fault.Fatal

theorem Sound.ok {α : Type} (value : α) : Sound (.ok value) := by
  intro fault failed
  cases failed

theorem Sound.error {α : Type} (error : DecodeError) : Sound (.error (.error error) : Except Fault α) := by
  intro fault failed
  cases failed
  exact id

theorem Sound.isError {α : Type} {outcome : Except Fault α} (sound : Sound outcome) {fault : Fault}
    (failed : outcome = .error fault) : ∃ error, fault = .error error := by
  have fine := sound fault failed
  cases fault with
  | error error => exact ⟨error, rfl⟩
  | panic => exact absurd trivial fine
  | diverge => exact absurd trivial fine

theorem Sound.bind {α β : Type} {outcome : Except Fault α} {next : α → Except Fault β}
    (first : Sound outcome) (last : ∀ value, outcome = .ok value → Sound (next value)) :
    Sound (outcome >>= next) := by
  cases outcome with
  | error fault =>
    intro other failed
    cases failed
    exact first _ rfl
  | ok value => exact last value rfl

theorem total_reject {α : Type} (error : DecodeError) : (reject error : Decoding α).Total :=
  .fail id

theorem total_u8 : tryGetU8.Total := by
  intro src fault failed
  cases src <;> cases failed
  exact id

theorem total_u16 : tryGetU16Be.Total := by
  intro src fault failed
  match src, failed with
  | [], failed => cases failed; exact id
  | [_], failed => cases failed; exact id

theorem total_u32 : tryGetU32Be.Total := by
  intro src fault failed
  match src, failed with
  | [], failed => cases failed; exact id
  | [_], failed => cases failed; exact id
  | [_, _], failed => cases failed; exact id
  | [_, _, _], failed => cases failed; exact id

theorem total_packetIdentifier : tryGetPacketIdentifier.Total := by
  refine total_u16.bind fun n => ?_
  cases PacketIdentifier.new n with
  | some identifier => exact .pure _
  | none => exact total_reject _

theorem total_required {α : Type} {decoder : Decoding (Option α)} (total : decoder.Total) :
    (required decoder).Total := by
  refine total.bind fun outcome => ?_
  cases outcome with
  | some value => exact .pure _
  | none => exact total_reject _

/-- What a decoder takes of a view can be drained. -/
theorem total_scan {α : Type} {decoder : Decoding α} {post : α → Nat → Prop}
    (total : decoder.Total) (ensured : decoder.Ensures post) : (scan decoder).Total := by
  intro src fault failed
  simp only [scan] at failed
  cases ran : decoder src with
  | error other =>
    simp only [ran] at failed
    cases failed
    exact total src _ ran
  | ok outcome =>
    obtain ⟨value, rest⟩ := outcome
    obtain ⟨used, length, -⟩ := ensured src value rest ran
    simp [ran, show rest.length ≤ src.length by omega] at failed

/-- No shift reaches 32 bits, for the loop ends after four bytes. -/
theorem total_varintLoop (result : UInt32) (read : Nat) (few : read < 4) :
    (decodeVarintLoop result read).Total := by
  intro src
  induction src generalizing result read with
  | nil =>
    intro fault failed
    cases failed
  | cons byte rest ih =>
    intro fault failed
    have shift : read * 7 < 32 := by omega
    simp only [decodeVarintLoop, shiftLeftU32, shift, if_true, bind, Except.bind] at failed
    split at failed
    · cases failed
    · split at failed
      · cases failed
        exact id
      · rename_i more
        refine ih _ (read + 1) ?_ fault failed
        simp only [defaultRemainingLengthFieldMaxLength] at more
        omega

theorem total_varint : decodeVarint.Total := total_varintLoop 0 0 (by decide)

theorem total_remainingLength : decodeRemainingLength.Total :=
  total_varint.bind fun _ => .pure _

theorem total_fixedHeader : decodeFixedHeader.Total := by
  intro src fault failed
  cases src with
  | nil => cases failed
  | cons byte rest =>
    rw [decodeFixedHeader_cons] at failed
    exact total_remainingLength.bind (fun _ => .pure _) rest fault failed

theorem BinaryData.total_decode : BinaryData.decode.Total := by
  intro src fault failed
  match src, failed with
  | [], failed => cases failed
  | [_], failed => cases failed
  | high :: low :: tail, failed =>
    rw [BinaryData.decode_cons] at failed
    split at failed <;> cases failed

section

variable [UnicodeGeneralCategory]

/-- Every character is a part of the text, and uses some of it. -/
theorem sound_validateLoop (fuel : Nat) {text : Bytes} (enough : text.length ≤ fuel) :
    Sound (validateLoop fuel text) := by
  induction fuel generalizing text with
  | zero =>
    rw [List.length_eq_zero_iff.mp (Nat.le_zero.mp enough)]
    exact .ok ()
  | succ fuel ih =>
    cases text with
    | nil => exact .ok ()
    | cons byte rest =>
      simp only [validateLoop, List.isEmpty_cons, Bool.false_eq_true, if_false]
      cases found : decodeUtf8 (byte :: rest) with
      | none => exact .error _
      | some decoded =>
        obtain ⟨c, length⟩ := decoded
        obtain ⟨later, same, rfl⟩ := decodeUtf8_sound found
        have some : 0 < (String.utf8EncodeChar c).length :=
          List.length_pos_of_ne_nil String.utf8EncodeChar_ne_nil
        rw [same, List.length_append] at enough
        simp only
        split
        · exact .error _
        · split
          · exact .error _
          · split
            · exact .error _
            · rw [same]
              simp only [sliceFrom, List.length_append, Nat.le_add_right, if_true, List.drop_left]
              exact ih (by omega)

theorem sound_validateMqttString (text : Bytes) : Sound (validateMqttString text) :=
  sound_validateLoop _ (Nat.le_refl _)

theorem Topic.sound_new {text : ByteStr} (formed : text.WellFormed) : Sound (Topic.new text) := by
  rw [Topic.new, ByteStr.tryAsStr, formed.1.tryAsBytes]
  refine Sound.bind (.ok _) fun bytes _ => ?_
  split
  · exact .error _
  · split
    · exact .error _
    · refine (sound_validateMqttString bytes).bind fun _ _ => ?_
      split
      · exact .error _
      · exact .ok _

namespace Filter

omit [UnicodeGeneralCategory] in
theorem sound_parse (filter : Bytes) (state : ParseState) (text : Bytes) :
    Sound (parse filter state text) := by
  induction text generalizing state with
  | nil => exact .ok ()
  | cons c rest ih =>
    cases state with
    | multiple => exact .error _
    | separator =>
      simp only [parse]
      split
      · exact ih _
      · split
        · exact ih _
        · split <;> exact ih _
    | literal =>
      simp only [parse]
      split
      · exact ih _
      · split
        · exact .error _
        · exact ih _
    | single =>
      simp only [parse]
      split
      · exact ih _
      · exact .error _

omit [UnicodeGeneralCategory] in
theorem sound_groupNameEnd (inner : Bytes) (index : Nat) (slice : Bytes) :
    Sound (groupNameEnd inner index slice) := by
  induction slice generalizing index with
  | nil => exact .ok _
  | cons c rest ih =>
    simp only [groupNameEnd]
    split
    · exact .error _
    · split
      · exact .ok _
      · exact ih _

omit [UnicodeGeneralCategory] in
/-- A filter of a group starts behind a separator, which is a character. -/
theorem sound_classifyNew {chars : List Char} (present : utf8 chars ≠ []) :
    Sound (classifyNew (utf8 chars)) := by
  unfold classifyNew
  obtain ⟨first, rest, split⟩ := List.exists_cons_of_ne_nil present
  rw [split, List.head?_cons, ← split]
  simp only
  split
  · split
    · rename_i starts
      obtain ⟨slice, same⟩ := List.isPrefixOf_iff_prefix.mp starts
      rw [← same, List.drop_left]
      refine (sound_groupNameEnd _ _ _).bind fun outcome ended => ?_
      match outcome, ended with
      | none, _ => exact .error _
      | some 0, _ => exact .error _
      | some (index + 1), ended =>
        obtain ⟨group, tail, rfl, length, -⟩ := groupNameEnd_some ended
        rw [Nat.zero_add] at length
        have cut : utf8 chars = (sharedSubscriptionPrefix ++ group) ++ Proto.separator :: tail := by
          rw [List.append_assoc, same]
        obtain ⟨before, c, after, rfl, single, front, rfl⟩ := utf8_split cut (by decide)
        have sliced := strFrom_utf8 (sharedSubscriptionPrefix ++ group ++ [Proto.separator]) after
        have size : (sharedSubscriptionPrefix ++ group ++ [Proto.separator]).length =
            sharedSubscriptionPrefix.length + (index + 1) + 1 := by
          simp only [List.length_append, List.length_singleton, length]
        have whole : sharedSubscriptionPrefix ++ (group ++ Proto.separator :: utf8 after) =
            sharedSubscriptionPrefix ++ group ++ [Proto.separator] ++ utf8 after := by
          simp
        rw [size] at sliced
        simp only [whole, sliced]
        refine Sound.bind (.ok _) fun filter _ => ?_
        split
        · exact .error _
        · exact .ok _
    · exact .ok _
  · exact .ok _

theorem sound_new {text : ByteStr} (formed : text.WellFormed) : Sound (Filter.new text) := by
  rw [Filter.new, ByteStr.tryAsStr, formed.1.tryAsBytes]
  refine Sound.bind (.ok _) fun bytes _ => ?_
  split
  · exact .error _
  · rename_i present
    split
    · exact .error _
    · refine (sound_validateMqttString bytes).bind fun _ valid => ?_
      obtain ⟨chars, rfl⟩ := validateLoop_utf8 valid
      refine (sound_classifyNew (by simpa using present)).bind fun classified _ => ?_
      obtain ⟨kind, pattern⟩ := classified
      simp only
      split
      · exact .error _
      · exact (sound_parse _ _ _).bind fun _ _ => .ok _

end Filter

theorem ByteStr.total_decode : ByteStr.decode.Total := by
  refine BinaryData.total_decode.bindEnsured BinaryData.ensures fun outcome used holds => ?_
  cases outcome with
  | none => exact .pure _
  | some data =>
    have bytes : Sound data.tryAsBytes := by
      rw [(holds data rfl).1.tryAsBytes]
      exact .ok _
    refine (Decoder.Avoids.ofExcept bytes).bind fun bytes => ?_
    exact (Decoder.Avoids.ofExcept (sound_validateMqttString bytes)).bind fun _ => .pure _

theorem Topic.total_decode : Topic.decode.Total := by
  refine ByteStr.total_decode.bindEnsured ByteStr.ensures fun outcome used holds => ?_
  cases outcome with
  | none => exact .pure _
  | some text =>
    exact (Decoder.Avoids.ofExcept (Topic.sound_new (holds text rfl).1)).bind fun _ => .pure _

theorem Filter.total_decode : Filter.decode.Total := by
  refine ByteStr.total_decode.bindEnsured ByteStr.ensures fun outcome used holds => ?_
  cases outcome with
  | none => exact .pure _
  | some text =>
    exact (Decoder.Avoids.ofExcept (Filter.sound_new (holds text rfl).1)).bind fun _ => .pure _

namespace Property

omit [UnicodeGeneralCategory] in
theorem total_bool {unrecognized : UInt8 → DecodeError} : (decodeBool unrecognized).Total := by
  refine total_u8.bind fun byte => ?_
  split
  · exact .pure _
  · exact .pure _
  · exact total_reject _

omit [UnicodeGeneralCategory] in
theorem total_nonZeroU16 {invalid : UInt16 → DecodeError} : (decodeNonZeroU16 invalid).Total := by
  refine total_u16.bind fun raw => ?_
  split
  · exact .pure _
  · exact total_reject _

omit [UnicodeGeneralCategory] in
theorem total_subscriptionIdentifier : decodeSubscriptionIdentifier.Total := by
  refine total_scan ((total_required total_varint).bind fun varint => ?_)
    ((ensures_required ensures_varint).bind fun varint used holds => ?_ :
      Decoder.Ensures _ fun _ _ => True)
  · split
    · exact .pure _
    · exact total_reject _
  · split
    · exact .pure trivial
    · exact .fail

theorem total_value (identifier : UInt8) : (decodeValue identifier).Total := by
  have text := total_required ByteStr.total_decode
  have data := total_required BinaryData.total_decode
  have topic := total_required Topic.total_decode
  unfold decodeValue
  split
  case h_23 => exact text.bind fun _ => text.bind fun _ => .pure _
  case h_21 =>
    refine total_u8.bind fun byte => ?_
    split
    · exact .pure _
    · exact .pure _
    · exact total_reject _
  case h_24 =>
    refine total_u32.bind fun raw => ?_
    split
    · exact .pure _
    · exact total_reject _
  case h_28 => exact total_reject _
  all_goals
    first
    | exact total_bool.bind fun _ => .pure _
    | exact total_u32.bind fun _ => .pure _
    | exact total_u16.bind fun _ => .pure _
    | exact total_nonZeroU16.bind fun _ => .pure _
    | exact total_subscriptionIdentifier.bind fun _ => .pure _
    | exact text.bind fun _ => .pure _
    | exact data.bind fun _ => .pure _
    | exact topic.bind fun _ => .pure _

theorem total_decode : Property.decode.Total := total_u8.bind total_value

theorem total_next (single repeated : List PropertyKind) (seen : List Property) :
    (decodeNext single repeated seen).Total := by
  refine total_decode.bind fun property => ?_
  split
  · exact .pure _
  · split
    · split
      · exact total_reject _
      · exact .pure _
    · exact total_reject _

/-- A property uses its identifier at least. -/
theorem uses_next (single repeated : List PropertyKind) (seen : List Property) :
    (decodeNext single repeated seen).Ensures fun _ used => 0 < used := by
  have uses : Property.decode.Ensures fun _ used => 0 < used :=
    ensures_u8.bind fun identifier used one => (ensures_value identifier).mono
      fun _ _ _ => by omega
  refine uses.bind fun property used positive => ?_
  split
  · exact .pure positive
  · split
    · split
      · exact .fail
      · exact .pure positive
    · exact .fail

/-- The block is split off behind a check that it is there. -/
theorem total_all (single repeated : List PropertyKind) : (decodeAll single repeated).Total := by
  refine (total_scan (total_required total_remainingLength)
    (ensures_required ensures_remainingLength)).bind fun length => ?_
  intro src fault failed
  rw [Decoder.bind_apply] at failed
  simp only [Decoder.input] at failed
  by_cases short : src.length < length
  · rw [if_pos short] at failed
    exact total_reject _ _ _ failed
  · rw [if_neg short, Decoder.bind_apply, splitTo, if_pos (Nat.le_of_not_lt short)] at failed
    exact (Decoder.Avoids.collect (total_next single repeated) (uses_next single repeated)).nested
      _ _ _ failed

end Property

omit [UnicodeGeneralCategory] in
theorem Authentication.total_of (method : Option ByteStr) (data : Option BinaryData) :
    (Authentication.of method data).Total := by
  unfold Authentication.of
  split
  · exact .pure _
  · exact total_reject _
  · exact .pure _

omit [UnicodeGeneralCategory] in
theorem sound_tryFrom (R : Type) [U8Code R] (code : UInt8) :
    Sound ((U8Code.tryFrom R code).mapError .error) := by
  cases U8Code.tryFrom R code with
  | error error => exact .error _
  | ok value => exact .ok _

omit [UnicodeGeneralCategory] in
theorem total_tryInto (R : Type) [U8Code R] (code : UInt8) : (tryInto R code).Total :=
  .ofExcept (sound_tryFrom R code)

omit [UnicodeGeneralCategory] in
theorem total_u8OrEnd : tryGetU8OrEnd.Total := by
  intro src fault failed
  cases src <;> cases failed

theorem Auth.total_decode (flags : UInt8) (version : ProtocolVersion) :
    (Auth.decode flags version).Total := by
  cases version with
  | v3 => exact .bindInput fun _ => total_reject _
  | v5 =>
    refine total_u8OrEnd.bind fun outcome => ?_
    cases outcome with
    | none => exact .pure _
    | some reasonCode =>
      refine (total_tryInto _ _).bind fun _ => (Property.total_all _ _).bind fun _ => ?_
      exact (Authentication.total_of _ _).bind fun _ => .pure _

omit [UnicodeGeneralCategory] in
theorem ConnectReasonCode.total_tryFrom (code : UInt8) (sessionPresent : Bool)
    (version : ProtocolVersion) : (ConnectReasonCode.tryFrom code sessionPresent version).Total := by
  unfold ConnectReasonCode.tryFrom
  split
  case h_7 => exact total_reject _
  case h_8 => exact (total_tryInto _ _).bind fun _ => .pure _
  all_goals exact .pure _

theorem ConnAckOtherProperties.total_decode : ConnAckOtherProperties.decode.Total :=
  (Property.total_all _ _).bind fun _ => (Authentication.total_of _ _).bind fun _ => .pure _

theorem ConnAck.total_decode (version : ProtocolVersion) : (ConnAck.decode version).Total := by
  refine total_u8.bind fun flags => ?_
  refine Decoder.Avoids.bind ?present fun _ => total_u8.bind fun _ => ?_
  case present =>
    split
    · exact .pure _
    · exact .pure _
    · exact total_reject _
  refine (ConnectReasonCode.total_tryFrom _ _ _).bind fun _ => ?_
  cases version with
  | v3 => exact .pure _
  | v5 => exact ConnAckOtherProperties.total_decode.bind fun _ => .pure _

namespace Connect

theorem total_start (flags : UInt8) : (decodeStart flags).Total := by
  unfold decodeStart
  split
  · exact .bindInput fun _ => total_reject _
  · refine (total_required ByteStr.total_decode).bind fun name => ?_
    split
    · exact total_reject _
    · refine total_u8.bind fun version => ?_
      split
      · exact .pure _
      · exact .pure _
      · exact total_reject _

theorem total_clientId : decodeClientId.Total :=
  (total_required ByteStr.total_decode).bind fun _ => .pure _

omit [UnicodeGeneralCategory] in
theorem total_willQoS (connectFlags : UInt8) : (decodeWillQoS connectFlags).Total := by
  unfold decodeWillQoS
  split
  · exact .pure _
  · exact .pure _
  · exact .pure _
  · exact total_reject _

omit [UnicodeGeneralCategory] in
/-- Binary data always holds its length. -/
theorem total_willPayload : decodeWillPayload.Total := by
  refine (total_required BinaryData.total_decode).bindEnsured
    (ensures_required BinaryData.ensures) fun payload used holds => .ofExcept ?_
  have length := holds.1.length
  rw [sliceFrom, if_pos (by omega)]
  exact Sound.ok _

theorem total_will (connectFlags : UInt8)
    {properties : Decoding (PublicationOtherProperties × UInt32)} (total : properties.Total) :
    (decodeWill connectFlags properties).Total := by
  unfold decodeWill
  split
  · split
    · exact total_reject _
    · exact .pure _
  · refine total.bind fun _ => (total_required Topic.total_decode).bind fun _ => ?_
    exact (total_willQoS _).bind fun _ => total_willPayload.bind fun _ => .pure _

theorem total_username (connectFlags : UInt8) : (decodeUsername connectFlags).Total := by
  unfold decodeUsername
  split
  · exact .pure _
  · exact (total_required ByteStr.total_decode).bind fun _ => .pure _

omit [UnicodeGeneralCategory] in
theorem total_password (connectFlags : UInt8) : (decodePassword connectFlags).Total := by
  unfold decodePassword
  split
  · exact .pure _
  · exact (total_required BinaryData.total_decode).bind fun _ => .pure _

theorem total_restV3 : decodeRestV3.Total := by
  refine total_u8.bind fun connectFlags => ?_
  split
  · exact total_reject _
  · split
    · exact total_reject _
    · refine total_u16.bind fun _ => total_clientId.bind fun clientId => ?_
      simp only
      split
      · exact total_reject _
      · refine (total_will _ (.pure _)).bind fun _ => (total_username _).bind fun _ => ?_
        exact (total_password _).bind fun _ => .pure _

omit [UnicodeGeneralCategory] in
theorem total_otherProperties (properties : List Property) :
    (otherPropertiesOf properties).Total :=
  (Authentication.total_of _ _).bind fun _ => .pure _

theorem total_willProperties : decodeWillProperties.Total :=
  (Property.total_all _ _).bind fun _ => .pure _

theorem total_restV5 : decodeRestV5.Total := by
  refine total_u8.bind fun connectFlags => ?_
  split
  · exact total_reject _
  · refine total_u16.bind fun _ => (Property.total_all _ _).bind fun _ => ?_
    refine total_clientId.bind fun _ => (total_will _ total_willProperties).bind fun _ => ?_
    refine (total_username _).bind fun _ => (total_password _).bind fun _ => ?_
    exact (total_otherProperties _).bind fun _ => .pure _

theorem total_decode (flags : UInt8) (version : ProtocolVersion) :
    (Connect.decode flags version).Total := by
  refine (total_start flags).bind fun actualVersion => ?_
  split
  · exact total_reject _
  · cases version with
    | v3 => exact total_restV3
    | v5 => exact total_restV5

end Connect

theorem Disconnect.total_decode (version : ProtocolVersion) : (Disconnect.decode version).Total := by
  cases version with
  | v3 => exact .pure _
  | v5 =>
    refine total_u8OrEnd.bind fun outcome => ?_
    cases outcome with
    | none => exact .pure _
    | some reasonCode =>
      refine (total_tryInto _ _).bind fun _ => .bindIsEmpty fun empty => ?_
      split
      · exact .pure _
      · exact ((Property.total_all _ _).bind fun _ => .pure _ :
          Disconnect.decodeOtherProperties.Total).bind fun _ => .pure _

theorem AckOtherProperties.total_decode : AckOtherProperties.decode.Total :=
  (Property.total_all _ _).bind fun _ => .pure _

theorem total_ack {R α : Type} [U8Code R] (success : R)
    (packet : PacketIdentifier → R → AckOtherProperties → α) (version : ProtocolVersion) :
    (decodeAck success packet version).Total := by
  refine total_packetIdentifier.bind fun packetIdentifier => ?_
  cases version with
  | v3 => exact .pure _
  | v5 =>
    refine total_u8OrEnd.bind fun outcome => ?_
    cases outcome with
    | none => exact .pure _
    | some reasonCode =>
      refine (total_tryInto _ _).bind fun _ => .bindIsEmpty fun empty => ?_
      split
      · exact .pure _
      · exact AckOtherProperties.total_decode.bind fun _ => .pure _

namespace Publish

omit [UnicodeGeneralCategory] in
theorem total_packetIdentifierDupQoS (flags : UInt8) :
    (decodePacketIdentifierDupQoS flags).Total := by
  unfold decodePacketIdentifierDupQoS
  simp only
  split
  · split
    · exact total_reject _
    · exact .pure _
  · exact total_packetIdentifier.bind fun _ => .pure _
  · exact total_packetIdentifier.bind fun _ => .pure _
  · exact total_reject _

omit [UnicodeGeneralCategory] in
theorem total_payload : decodePayload.Total := by
  intro src fault failed
  simp [decodePayload, Decoder.bind_apply, Decoder.input, splitTo] at failed

theorem total_decode (flags : UInt8) (version : ProtocolVersion) :
    (Publish.decode flags version).Total := by
  refine (total_required Topic.total_decode).bind fun _ => ?_
  refine (total_packetIdentifierDupQoS flags).bind fun _ => ?_
  cases version with
  | v3 => exact total_payload.bind fun _ => .pure _
  | v5 =>
    refine ((Property.total_all _ _).bind fun _ => .pure _ :
      decodeOtherProperties.Total).bind fun _ => ?_
    exact total_payload.bind fun _ => .pure _

end Publish

omit [UnicodeGeneralCategory] in
theorem sound_mapM {R : Type} {tryFrom : UInt8 → Except Fault R}
    (sound : ∀ code, Sound (tryFrom code)) (src : Bytes) : Sound (src.mapM tryFrom) := by
  induction src with
  | nil => exact .ok _
  | cons head rest ih =>
    rw [List.mapM_cons]
    exact (sound head).bind fun _ _ => ih.bind fun _ _ => .ok _

omit [UnicodeGeneralCategory] in
/-- There are as many reason codes as there are bytes to drain. -/
theorem total_reasonCodes {R : Type} {tryFrom : UInt8 → Except Fault R}
    (sound : ∀ code, Sound (tryFrom code)) : (decodeReasonCodes tryFrom).Total := by
  intro src fault failed
  simp only [decodeReasonCodes, Decoder.bind_apply, Decoder.input] at failed
  cases mapped : src.mapM tryFrom with
  | error other =>
    rw [mapped] at failed
    cases failed
    exact sound_mapM sound src _ mapped
  | ok reasonCodes =>
    simp only [mapped, Decoder.ofExcept, Decoder.pure_apply, drain, (mapM_ok mapped).1,
      Nat.le_refl, if_true] at failed
    split at failed
    · exact total_reject _ _ _ failed
    · exact Decoder.Avoids.pure _ _ _ failed

omit [UnicodeGeneralCategory] in
theorem SubscribeReasonCode.sound_tryFrom (version : ProtocolVersion) (code : UInt8) :
    Sound (SubscribeReasonCode.tryFrom version code) := by
  unfold SubscribeReasonCode.tryFrom
  split
  case h_5 => exact .error _
  case h_6 => exact Proto.sound_tryFrom _ _
  all_goals exact .ok _

theorem SubAck.total_decode (version : ProtocolVersion) : (SubAck.decode version).Total := by
  refine total_packetIdentifier.bind fun _ => ?_
  refine Decoder.Avoids.bind ?properties fun _ => ?_
  case properties =>
    cases version with
    | v3 => exact .pure _
    | v5 => exact AckOtherProperties.total_decode
  exact (total_reasonCodes (SubscribeReasonCode.sound_tryFrom version)).bind fun _ => .pure _

theorem UnsubAck.total_decode (version : ProtocolVersion) : (UnsubAck.decode version).Total := by
  refine total_packetIdentifier.bind fun _ => ?_
  cases version with
  | v3 => exact .pure _
  | v5 =>
    refine AckOtherProperties.total_decode.bind fun _ => ?_
    exact (total_reasonCodes (sound_tryFrom UnsubAckReasonCode)).bind fun _ => .pure _

omit [UnicodeGeneralCategory] in
theorem total_topics {α : Type} {item : Decoding α} (total : item.Total)
    (uses : item.Ensures fun _ used => 0 < used) : (decodeTopics item).Total := by
  refine (Decoder.Avoids.collect (fun _ => total) fun _ => uses).bind fun topics => ?_
  split
  · exact total_reject _
  · exact .pure _

omit [UnicodeGeneralCategory] in
theorem SubscribeOptions.total_decode (version : ProtocolVersion) :
    (SubscribeOptions.decode version).Total := by
  cases version with
  | v3 =>
    refine total_u8.bind fun byte => ?_
    split
    · exact .pure _
    · exact .pure _
    · exact .pure _
    · exact total_reject _
  | v5 =>
    refine total_u8.bind fun byte => (total_tryInto _ _).bind fun _ => ?_
    refine (total_tryInto _ _).bind fun _ => ?_
    split
    · exact total_reject _
    · exact .pure _

/-- A filter holds its length at least. -/
theorem Filter.uses_decode : (required Filter.decode).Ensures fun _ used => 0 < used := by
  refine (ensures_required Filter.ensures).mono fun filter used holds => ?_
  have length := holds.1.1.1.length
  omega

theorem SubscribeTo.total_decode (version : ProtocolVersion) :
    (SubscribeTo.decode version).Total := by
  refine (total_required Filter.total_decode).bind fun _ => ?_
  refine (SubscribeOptions.total_decode version).bind fun _ => ?_
  split
  · exact total_reject _
  · exact .pure _

theorem SubscribeTo.uses_decode (version : ProtocolVersion) :
    (SubscribeTo.decode version).Ensures fun _ used => 0 < used := by
  refine Filter.uses_decode.bind fun _ used positive => ?_
  refine (SubscribeOptions.ensures version).bind fun _ more _ => ?_
  split
  · exact .fail
  · exact .pure (by omega)

theorem SubscribeOtherProperties.total_decode (version : ProtocolVersion) :
    (SubscribeOtherProperties.decode version).Total := by
  cases version with
  | v3 => exact .pure _
  | v5 => exact (Property.total_all _ _).bind fun _ => .pure _

theorem Subscribe.total_decode (version : ProtocolVersion) : (Subscribe.decode version).Total := by
  refine total_packetIdentifier.bind fun _ => ?_
  refine (SubscribeOtherProperties.total_decode version).bind fun _ => ?_
  exact (total_topics (SubscribeTo.total_decode version)
    (SubscribeTo.uses_decode version)).bind fun _ => .pure _

theorem Unsubscribe.total_decode (version : ProtocolVersion) :
    (Unsubscribe.decode version).Total := by
  refine total_packetIdentifier.bind fun _ => ?_
  refine Decoder.Avoids.bind ?properties fun _ => ?_
  case properties =>
    cases version with
    | v3 => exact .pure _
    | v5 => exact (Property.total_all _ _).bind fun _ => .pure _
  exact (total_topics (total_required Filter.total_decode) Filter.uses_decode).bind
    fun _ => .pure _

namespace Packet

theorem total_body (packetType flags : UInt8) (version : ProtocolVersion) :
    (decodeBody packetType flags version).Total := by
  unfold decodeBody
  split
  · exact (Auth.total_decode _ version).bind fun _ => .pure _
  · exact (ConnAck.total_decode version).bind fun _ => .pure _
  · exact (Connect.total_decode _ version).bind fun _ => .pure _
  · exact (Disconnect.total_decode version).bind fun _ => .pure _
  · exact .pure _
  · exact .pure _
  · exact (total_ack _ _ version).bind fun _ => .pure _
  · exact (total_ack _ _ version).bind fun _ => .pure _
  · exact (Publish.total_decode _ version).bind fun _ => .pure _
  · exact (total_ack _ _ version).bind fun _ => .pure _
  · exact (total_ack _ _ version).bind fun _ => .pure _
  · exact (SubAck.total_decode version).bind fun _ => .pure _
  · exact (Subscribe.total_decode version).bind fun _ => .pure _
  · exact (UnsubAck.total_decode version).bind fun _ => .pure _
  · exact (Unsubscribe.total_decode version).bind fun _ => .pure _
  · exact .bindInput fun _ => total_reject _

theorem total_decode (firstByte : UInt8) (version : ProtocolVersion) :
    (Packet.decode firstByte version).Total := by
  refine (total_body _ _ version).bind fun packet => .bindIsEmpty fun empty => ?_
  split
  · exact .pure _
  · exact total_reject _

theorem total_fullAt (version : ProtocolVersion) : (decodeFullAt version).Total := by
  refine (total_scan (total_required total_fixedHeader)
    (ensures_required ensures_fixedHeader)).bind fun header => .bindInput fun src => ?_
  split
  · exact total_reject _
  · split
    · exact total_reject _
    · exact total_decode _ version

/-- A packet is only returned from a body of which nothing is left. -/
theorem rest_of_decode {firstByte : UInt8} {version : ProtocolVersion} {src rest : Bytes}
    {packet : Packet} (decoded : Packet.decode firstByte version src = .ok (packet, rest)) :
    rest = [] := by
  rw [Packet.decode, Decoder.bind_apply] at decoded
  split at decoded
  · rename_i body left ran
    cases left with
    | nil =>
      cases decoded
      rfl
    | cons byte later => cases decoded
  · cases decoded

theorem rest_of_fullAt {version : ProtocolVersion} {src rest : Bytes} {packet : Packet}
    (decoded : decodeFullAt version src = .ok (packet, rest)) : rest = [] := by
  rw [decodeFullAt, Decoder.bind_apply] at decoded
  split at decoded
  · rename_i header left ran
    obtain ⟨firstByte, remainingLength⟩ := header
    simp only [Decoder.bind_apply, Decoder.input] at decoded
    split at decoded
    · cases decoded
    · split at decoded
      · cases decoded
      · exact rest_of_decode decoded
  · cases decoded

theorem sound_decodeFull (version : ProtocolVersion) (src : Bytes) :
    Sound (decodeFull src version) := by
  unfold decodeFull
  cases ran : decodeFullAt version src with
  | ok outcome => exact .ok _
  | error fault =>
    intro other failed
    cases failed
    exact total_fullAt version src _ ran

/-- Whatever the bytes and the version, decoding ends with a packet that stands for all of
the bytes, or with an error. -/
theorem decodeFull_total (version : ProtocolVersion) (src : Bytes) :
    (∃ packet, decodeFull src version = .ok packet ∧
        decodeFullAt version src = .ok (packet, [])) ∨
      ∃ error, decodeFull src version = .error (.error error) := by
  cases full : decodeFull src version with
  | error fault =>
    obtain ⟨error, rfl⟩ := (sound_decodeFull version src).isError full
    exact .inr ⟨error, rfl⟩
  | ok packet =>
    unfold decodeFull at full
    cases ran : decodeFullAt version src with
    | error fault =>
      rw [ran] at full
      cases full
    | ok outcome =>
      rw [ran] at full
      cases full
      obtain ⟨packet, rest⟩ := outcome
      cases rest_of_fullAt ran
      exact .inl ⟨packet, rfl, rfl⟩

end Packet

end

end MqttClient.Proto
