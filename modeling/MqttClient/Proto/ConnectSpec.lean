import MqttClient.Proto.ConnAckSpec

/-! The CONNECT packet: a well-formed packet is read back, and what is read is well formed
and put again into no more bytes. -/

namespace MqttClient.Proto

open Lib Decoding Encoding

namespace Connect

/-- The flags by what they say: a username, a password, the QoS and retain flag of a will,
and a clean start. -/
def flagBits (username password : Bool) (will : Option (QoS × Bool)) (cleanStart : Bool) : UInt8 :=
  (if username then flagsUsername else 0) ||| (if password then flagsPassword else 0) |||
    (match will with
      | some (qos, retain) =>
        flagsWill ||| (if retain then flagsWillRetain else 0) ||| (U8Code.toU8 qos <<< 3)
      | none => 0) |||
    (if cleanStart then flagsCleanSession else 0)

theorem connectFlags_eq (packet : Connect) : packet.connectFlags =
    flagBits packet.username.isSome packet.password.isSome
      (packet.will.map fun will => (will.1.qos, will.1.retain)) packet.cleanStart := by
  unfold connectFlags flagBits
  cases packet.will <;> rfl

/-- What the decoder makes of the flags is what they were made of. -/
structure FlagsRead (flags : UInt8) (username password : Bool) (will : Option (QoS × Bool))
    (cleanStart : Bool) : Prop where
  reservedClear : flags &&& flagsReserved = 0
  usernameClear : flags &&& flagsUsername = 0 ↔ username = false
  passwordClear : flags &&& flagsPassword = 0 ↔ password = false
  passwordAlone : flags &&& (flagsUsername ||| flagsPassword) = 0x40 ↔
    username = false ∧ password = true
  cleanSession : (flags &&& flagsCleanSession != 0) = cleanStart
  willAbsent : will = none →
    flags &&& flagsWill = 0 ∧ flags &&& (flagsWillQoS ||| flagsWillRetain) = 0
  willPresent : ∀ qos retain, will = some (qos, retain) →
    flags &&& flagsWill ≠ 0 ∧ flags &&& flagsWillQoS = U8Code.toU8 qos <<< 3 ∧
      (flags &&& flagsWillRetain != 0) = retain

theorem flagsRead (username password : Bool) (will : Option (QoS × Bool)) (cleanStart : Bool) :
    FlagsRead (flagBits username password will cleanStart) username password will cleanStart := by
  obtain _ | ⟨qos, retain⟩ := will
  · constructor
    case willPresent => simp
    all_goals revert username password cleanStart; decide
  · constructor
    case willAbsent => simp
    case willPresent =>
      rintro _ _ ⟨⟩
      cases qos <;> revert username password cleanStart retain <;> decide
    all_goals cases qos <;> revert username password cleanStart retain <;> decide

theorem connectFlags_read (packet : Connect) :
    FlagsRead packet.connectFlags packet.username.isSome packet.password.isSome
      (packet.will.map fun will => (will.1.qos, will.1.retain)) packet.cleanStart := by
  rw [connectFlags_eq]
  exact flagsRead _ _ _ _

theorem onWire_sessionExpiryInterval (interval : SessionExpiryInterval) :
    (sessionExpiryInterval interval).onWire =
      if 0 < interval.toU32 then [.sessionExpiryInterval interval] else [] := by
  simp [Slot.onWire, sessionExpiryInterval, Property.onWire]

theorem fits_sessionExpiryInterval {single repeated : List PropertyKind}
    {interval : SessionExpiryInterval} (listed : .sessionExpiryInterval ∈ single) :
    (sessionExpiryInterval interval).Fits single repeated := by
  refine ⟨?_, .inr ⟨listed, ?_⟩⟩
  · intro property member
    rw [onWire_sessionExpiryInterval] at member
    split at member
    · rw [List.mem_singleton.mp member]
      rfl
    · cases member
  · rw [onWire_sessionExpiryInterval]
    split <;> simp

theorem layout (other : ConnectOtherProperties) :
    Layout
      [.sessionExpiryInterval, .receiveMaximum, .maximumPacketSize, .topicAliasMaximum,
        .requestResponseInformation, .requestProblemInformation, .authenticationMethod,
        .authenticationData]
      [.userProperty] (slots other) where
  distinct := (by decide : List.Nodup [PropertyKind.sessionExpiryInterval, .receiveMaximum,
    .maximumPacketSize, .topicAliasMaximum, .requestResponseInformation,
    .requestProblemInformation, .userProperty, .authenticationMethod, .authenticationData])
  fits := by
    simp (disch := decide) [slots, fits_sessionExpiryInterval, Slot.fits_optional,
      Slot.fits_once, Slot.fits_repeated]

/-- An interval that is left out is zero. -/
theorem sessionExpiryInterval_eq (other : ConnectOtherProperties) :
    (Binding.sessionExpiryInterval.value (wire (slots other))).getD (.duration 0) =
      other.sessionExpiryInterval := by
  have member : sessionExpiryInterval other.sessionExpiryInterval ∈ slots other := by simp [slots]
  rw [(layout other).value_eq member rfl, onWire_sessionExpiryInterval]
  split
  · rfl
  · rename_i zero
    cases interval : other.sessionExpiryInterval with
    | infinite => simp [interval, SessionExpiryInterval.toU32] at zero
    | duration seconds =>
      simp only [interval, SessionExpiryInterval.toU32, UInt32.not_lt, UInt32.le_zero_iff] at zero
      rw [zero]
      rfl

theorem willLayout (other : PublicationOtherProperties) (willDelayInterval : UInt32) :
    Layout
      [.willDelayInterval, .payloadIsUtf8, .messageExpiryInterval, .contentType, .responseTopic,
        .correlationData]
      [.userProperty] (willSlots other willDelayInterval) where
  distinct := (by decide : List.Nodup [PropertyKind.willDelayInterval, .payloadIsUtf8,
    .messageExpiryInterval, .contentType, .responseTopic, .correlationData, .userProperty])
  fits := by
    simp (disch := decide) [willSlots, Slot.fits_optional, Slot.fits_once, Slot.fits_repeated]

variable [UnicodeGeneralCategory]

omit [UnicodeGeneralCategory] in
theorem reads_otherProperties (other : ConnectOtherProperties) :
    (otherPropertiesOf (wire (slots other))).Reads [] other := by
  have layout := layout other
  have receiveMaximum : (Binding.receiveMaximum.value (wire (slots other))).getD .max =
      other.receiveMaximum :=
    layout.value_once (by simp [slots]) Binding.omits_receiveMaximum
  have maximumPacketSize : (Binding.maximumPacketSize.value (wire (slots other))).getD .max =
      other.maximumPacketSize :=
    layout.value_once (by simp [slots]) Binding.omits_maximumPacketSize
  have topicAliasMaximum : (Binding.topicAliasMaximum.value (wire (slots other))).getD 0 =
      other.topicAliasMaximum :=
    layout.value_once (by simp [slots]) Binding.omits_topicAliasMaximum
  have requestResponseInformation :
      (Binding.requestResponseInformation.value (wire (slots other))).getD false =
        other.requestResponseInformation :=
    layout.value_once (by simp [slots]) (Binding.omits_flag rfl rfl)
  have requestProblemInformation :
      (Binding.requestProblemInformation.value (wire (slots other))).getD true =
        other.requestProblemInformation :=
    layout.value_once (by simp [slots]) (Binding.omits_flag rfl rfl)
  have userProperties : Binding.userProperty.values (wire (slots other)) =
      other.userProperties :=
    layout.values_repeated (by simp [slots]) fun _ => rfl
  have method : Binding.authenticationMethod.value (wire (slots other)) =
      (Authentication.intoParts other.authentication).1 :=
    layout.value_optional (by simp [slots]) fun _ => rfl
  have data : Binding.authenticationData.value (wire (slots other)) =
      (Authentication.intoParts other.authentication).2 :=
    layout.value_optional (by simp [slots]) fun _ => rfl
  simp only [otherPropertiesOf, sessionExpiryInterval_eq, receiveMaximum, maximumPacketSize,
    topicAliasMaximum, requestResponseInformation, requestProblemInformation, userProperties,
    method, data]
  exact (Authentication.reads_of other.authentication).finish (.pure other)

/-- The interval of a CONNECT takes the bytes of the one that was read, or none. -/
theorem drawn_sessionExpiryInterval {properties : List Property}
    (formed : ∀ property ∈ properties, property.WellFormed) :
    (sessionExpiryInterval ((Binding.sessionExpiryInterval.value properties).getD
      (.duration 0))).Drawn properties := by
  cases found : Binding.sessionExpiryInterval.value properties with
  | none =>
    refine ⟨?_, Nat.zero_le _⟩
    simp [Slot.WellFormed, sessionExpiryInterval, Property.WellFormed,
      SessionExpiryInterval.WellFormed]
  | some interval =>
    have drawn : (Binding.sessionExpiryInterval.optional
        (Binding.sessionExpiryInterval.value properties)).Drawn properties :=
      Slot.drawn_optional formed
    rw [found] at drawn
    refine ⟨?_, Nat.le_trans ?_ drawn.light⟩
    · have valid := drawn.formed (.sessionExpiryInterval interval) (by
        simp [Binding.optional, Binding.sessionExpiryInterval])
      intro property member
      rw [List.mem_singleton.mp member]
      exact valid
    · have lighter : (Property.connectSessionExpiryInterval interval).encode.size ≤
          (Property.sessionExpiryInterval interval).encode.size := by
        simp only [Property.encode]
        split <;> simp
      simpa [Property.weight, sessionExpiryInterval, Binding.optional,
        Binding.sessionExpiryInterval] using lighter

theorem ensures_otherProperties {properties : List Property} {block : Nat}
    (read : Property.Read
      [.sessionExpiryInterval, .receiveMaximum, .maximumPacketSize, .topicAliasMaximum,
        .requestResponseInformation, .requestProblemInformation, .authenticationMethod,
        .authenticationData]
      [.userProperty] properties block) :
    (otherPropertiesOf properties).Ensures fun other used => used = 0 ∧
      (∀ slot ∈ slots other, slot.WellFormed) ∧
        (encodeProperties (slots other)).size ≤ block := by
  refine (Authentication.ensures_of _ _).bind fun authentication none same => ?_
  obtain ⟨same, rfl⟩ := same
  refine .pure ⟨rfl, Slot.drawn_fits read (layout _).distinct ?_⟩
  simp only [slots, same, List.forall_mem_cons, List.not_mem_nil, false_implies, implies_true,
    drawn_sessionExpiryInterval read.formed, Slot.drawn_optional read.formed,
    Slot.drawn_repeated read.formed, true_and, and_true]
  and_intros
  all_goals exact Slot.drawn_once read.formed trivial rfl

theorem roundTrips_willProperties {other : PublicationOtherProperties} {willDelayInterval : UInt32}
    (formed : ∀ slot ∈ willSlots other willDelayInterval, slot.WellFormed)
    (small : (encodeProperties (willSlots other willDelayInterval)).size ≤ 268435455) :
    RoundTrips (encodeProperties (willSlots other willDelayInterval)) decodeWillProperties
      (other, willDelayInterval) := by
  have layout := willLayout other willDelayInterval
  refine (layout.roundTrips formed small).finish ?_
  generalize slots : willSlots other willDelayInterval = chosen at layout
  have delay : (Binding.willDelayInterval.value (wire chosen)).getD 0 = willDelayInterval :=
    layout.value_once (by simp [← slots, willSlots]) Binding.omits_willDelayInterval
  have payloadIsUtf8 : (Binding.payloadIsUtf8.value (wire chosen)).getD false =
      other.payloadIsUtf8 :=
    layout.value_once (by simp [← slots, willSlots]) (Binding.omits_flag rfl rfl)
  have messageExpiryInterval : Binding.messageExpiryInterval.value (wire chosen) =
      other.messageExpiryInterval :=
    layout.value_optional (by simp [← slots, willSlots]) fun _ => rfl
  have contentType : Binding.contentType.value (wire chosen) = other.contentType :=
    layout.value_optional (by simp [← slots, willSlots]) fun _ => rfl
  have responseTopic : Binding.responseTopic.value (wire chosen) = other.responseTopic :=
    layout.value_optional (by simp [← slots, willSlots]) fun _ => rfl
  have correlationData : Binding.correlationData.value (wire chosen) = other.correlationData :=
    layout.value_optional (by simp [← slots, willSlots]) fun _ => rfl
  have userProperties : Binding.userProperty.values (wire chosen) = other.userProperties :=
    layout.values_repeated (by simp [← slots, willSlots]) fun _ => rfl
  simp only [delay, payloadIsUtf8, messageExpiryInterval, contentType, responseTopic,
    correlationData, userProperties]
  exact .pure _

theorem ensures_willProperties : decodeWillProperties.Ensures fun will used =>
    (∀ slot ∈ willSlots will.1 will.2, slot.WellFormed) ∧
      (encodeProperties (willSlots will.1 will.2)).size ≤ used := by
  refine Property.ensures_all.bind fun properties block read => .pure ?_
  refine Slot.drawn_fits read (willLayout _ _).distinct ?_
  simp only [willSlots, List.forall_mem_cons, List.not_mem_nil, false_implies, implies_true,
    Slot.drawn_optional read.formed, Slot.drawn_repeated read.formed, and_true]
  and_intros
  all_goals exact Slot.drawn_once read.formed trivial rfl

theorem validateLoop_capital {byte : UInt8} (low : 0x41 ≤ byte) (high : byte ≤ 0x5A)
    (rest : Bytes) (fuel : Nat) : validateLoop (fuel + 1) (byte :: rest) = validateLoop fuel rest := by
  have each : ∀ n : Fin 256, 0x41 ≤ UInt8.ofFin n → UInt8.ofFin n ≤ 0x5A →
      UInt8.ofFin n < 0x80 ∧ 'A' ≤ Char.ofNat n.val ∧ Char.ofNat n.val ≤ 'Z' ∧
        Char.ofNat n.val ≠ '\x00' := by
    decide +kernel
  obtain ⟨ascii, first, last, nonzero⟩ := each byte.toFin low high
  have decoded : decodeUtf8 (byte :: rest) = some (Char.ofNat byte.toNat, 1) := if_pos ascii
  have letter := UnicodeGeneralCategory.capital (Char.ofNat byte.toNat) first last
  have other : Char.ofNat byte.toNat ≠ '\x00' := nonzero
  simp only [validateLoop, decoded, if_neg other, letter]
  rfl

/-- The name of the protocol is a string of capitals. -/
theorem protocolName_wellFormed : ByteStr.WellFormed ⟨⟨protocolName⟩⟩ := by
  refine ⟨⟨by decide, by decide⟩, ?_⟩
  have name : validateLoop 4 [0x4D, 0x51, 0x54, 0x54] = .ok () := by
    iterate 4 rw [validateLoop_capital (by decide) (by decide)]
    rfl
  exact name

theorem empty_wellFormed : ByteStr.WellFormed ⟨⟨ByteStr.empty⟩⟩ :=
  ⟨⟨by decide, by decide⟩, rfl⟩

theorem roundTrips_start (version : ProtocolVersion) :
    RoundTrips (tryPutSlice protocolName ++ tryPutU8 version.toU8) (decodeStart 0) version := by
  have name : RoundTrips (tryPutSlice protocolName) (required ByteStr.decode)
      ⟨⟨protocolName⟩⟩ :=
    (Encoder.Emits.slice protocolName _).roundTrips (Property.roundTrips_str protocolName_wellFormed).2
  refine name.append ?_
  cases version <;> exact (roundTrips_u8 _).finish (.pure _)

/-- A string that is not empty, or the empty one for none. -/
theorem roundTrips_clientId {clientId : Option ByteStr}
    (formed : ∀ id, clientId = some id → id.WellFormed ∧ id.isEmpty = false) :
    RoundTrips (encodeClientId clientId) decodeClientId clientId := by
  cases clientId with
  | none =>
    have empty : RoundTrips (tryPutSlice ByteStr.empty) (required ByteStr.decode)
        ⟨⟨ByteStr.empty⟩⟩ :=
      (Encoder.Emits.slice ByteStr.empty _).roundTrips (Property.roundTrips_str empty_wellFormed).2
    exact empty.finish (.pure none)
  | some id =>
    obtain ⟨valid, nonempty⟩ := formed id rfl
    refine (Property.roundTrips_str valid).finish ?_
    simp only [nonempty]
    exact .pure (some id)

theorem roundTrips_username {flags : UInt8} {username : Option ByteStr}
    (clear : flags &&& flagsUsername = 0 ↔ username.isSome = false)
    (formed : ∀ text, username = some text → text.WellFormed) :
    RoundTrips (encodeUsername username) (decodeUsername flags) username := by
  cases username with
  | none =>
    rw [decodeUsername, if_pos (clear.mpr rfl)]
    exact .skip (.pure none)
  | some text =>
    rw [decodeUsername, if_neg fun zero => Bool.noConfusion (clear.mp zero)]
    exact (Property.roundTrips_str (formed text rfl)).finish (.pure _)

omit [UnicodeGeneralCategory] in
theorem roundTrips_password {flags : UInt8} {password : Option BinaryData}
    (clear : flags &&& flagsPassword = 0 ↔ password.isSome = false)
    (formed : ∀ data, password = some data → data.WellFormed) :
    RoundTrips (encodePassword password) (decodePassword flags) password := by
  cases password with
  | none =>
    rw [decodePassword, if_pos (clear.mpr rfl)]
    exact .skip (.pure none)
  | some data =>
    rw [decodePassword, if_neg fun zero => Bool.noConfusion (clear.mp zero)]
    exact (Property.roundTrips_data (formed data rfl)).finish (.pure _)

omit [UnicodeGeneralCategory] in
theorem roundTrips_willPayload {payload : Bytes} (small : payload.length ≤ 65535) :
    RoundTrips
      ((if payload.length < 65536 then tryPutU16Be (.ofNat payload.length)
        else refuse (.willTooLarge payload.length)) ++ putShared payload)
      decodeWillPayload payload := by
  generalize same : (⟨u16ToBeBytes (.ofNat payload.length) ++ payload⟩ : BinaryData) = data
  have formed : data.WellFormed := same ▸ ⟨small, rfl⟩
  have emits : (tryPutU16Be (.ofNat payload.length) ++ putShared payload).Emits data.shared :=
    same ▸ (Encoder.Emits.slice _ _).append (.shared payload)
  have read : (required BinaryData.decode).Reads data.shared data := by
    simpa [Encoder.items, BinaryData.encode, Encoder.put, Put.items] using
      (Property.roundTrips_data formed).2
  rw [if_pos (by omega)]
  refine (emits.roundTrips read).finish (.ofExcept ?_)
  simp [← same, sliceFrom, u16ToBeBytes]

omit [UnicodeGeneralCategory] in
theorem reads_willQoS {flags : UInt8} {qos : QoS}
    (bits : flags &&& flagsWillQoS = U8Code.toU8 qos <<< 3) :
    (decodeWillQoS flags).Reads [] qos := by
  rw [decodeWillQoS, bits]
  cases qos <;> exact .pure _

/-- A will that a packet can carry. In version 3 it has no properties. -/
structure WillFormed (version : ProtocolVersion) (will : Publication × UInt32) : Prop where
  topicName : will.1.topicName.WellFormed
  payload : will.1.payload.length ≤ 65535
  properties :
    match version with
    | .v3 => will.1.otherProperties = {} ∧ will.2 = 0
    | .v5 => ∀ slot ∈ willSlots will.1.otherProperties will.2, slot.WellFormed

/-- A packet that the wire can carry. Version 3 has no properties, no password without a
username, and no client without an identifier that resumes a session. -/
structure WellFormed (packet : Connect) (version : ProtocolVersion) : Prop where
  username : ∀ text, packet.username = some text → text.WellFormed
  password : ∀ data, packet.password = some data → data.WellFormed
  will : ∀ will, packet.will = some will → WillFormed version will
  clientId : ∀ id, packet.clientId = some id → id.WellFormed ∧ id.isEmpty = false
  properties :
    match version with
    | .v3 =>
      packet.otherProperties =
          { sessionExpiryInterval := if packet.cleanStart then .duration 0 else .infinite } ∧
        (packet.username = none → packet.password = none) ∧
        (packet.clientId = none → packet.cleanStart = true)
    | .v5 => ∀ slot ∈ slots packet.otherProperties, slot.WellFormed

theorem roundTrips_will {version : ProtocolVersion} {flags : UInt8}
    {properties : Decoding (PublicationOtherProperties × UInt32)}
    {will : Option (Publication × UInt32)} {username password cleanStart : Bool}
    (read : FlagsRead flags username password
      (will.map fun will => (will.1.qos, will.1.retain)) cleanStart)
    (formed : ∀ content, will = some content → WillFormed version content)
    (trips : ∀ content delay, will = some (content, delay) →
      RoundTrips
        (if version.isV5 then encodeProperties (willSlots content.otherProperties delay) else .skip)
        properties (content.otherProperties, delay)) :
    RoundTrips (encodeWill version will) (decodeWill flags properties) will := by
  obtain _ | ⟨content, delay⟩ := will
  · obtain ⟨absent, clear⟩ := read.willAbsent rfl
    rw [decodeWill, if_pos absent, if_neg (not_not.mpr clear)]
    exact .skip (.pure none)
  · obtain ⟨present, qos, retain⟩ := read.willPresent content.qos content.retain rfl
    have valid := formed _ rfl
    have topicName := roundTrips_required (Topic.roundTrips valid.topicName)
    rw [decodeWill, if_neg present, encodeWill, Encoder.append_assoc, Encoder.append_assoc]
    refine (trips content delay rfl).append (topicName.append (.pass (reads_willQoS qos) ?_))
    refine (roundTrips_willPayload valid.payload).finish ?_
    rw [retain]
    exact .pure _

theorem roundTrips_restV5 {packet : Connect} (formed : packet.WellFormed .v5)
    (small : (packet.encodeRest .v5).size ≤ 268435455) :
    RoundTrips (packet.encodeRest .v5) decodeRestV5 packet := by
  have read := packet.connectFlags_read
  simp only [encodeRest, Encoder.size_append, Encoder.append_assoc, ProtocolVersion.isV5,
    if_true] at small ⊢
  refine (roundTrips_u8 _).append ?_
  rw [if_neg (not_not.mpr read.reservedClear)]
  refine (roundTrips_u16 _).append ?_
  refine ((layout _).roundTrips formed.properties (by omega)).append ?_
  refine (roundTrips_clientId formed.clientId).append ?_
  refine (roundTrips_will read formed.will ?_).append ?_
  · intro content delay same
    refine roundTrips_willProperties (formed.will _ same).properties ?_
    simp only [same, encodeWill, Encoder.size_append, ProtocolVersion.isV5, if_true] at small
    omega
  refine (roundTrips_username read.usernameClear formed.username).append ?_
  refine (roundTrips_password read.passwordClear formed.password).finish ?_
  refine (reads_otherProperties packet.otherProperties).finish ?_
  rw [KeepAlive.ofU16_toU16, read.cleanSession]
  exact .pure packet

theorem roundTrips_restV3 {packet : Connect} (formed : packet.WellFormed .v3) :
    RoundTrips (packet.encodeRest .v3) decodeRestV3 packet := by
  have read := packet.connectFlags_read
  obtain ⟨other, credentials, resumed⟩ := formed.properties
  have named : ¬ (packet.username.isSome = false ∧ packet.password.isSome = true) := by
    rintro ⟨absent, present⟩
    simp [credentials (by simpa using absent)] at present
  simp only [encodeRest, Encoder.append_assoc, ProtocolVersion.isV5, Bool.false_eq_true, if_false,
    Encoder.skip_append]
  refine (roundTrips_u8 _).append ?_
  rw [if_neg (not_not.mpr read.reservedClear), if_neg (mt read.passwordAlone.mp named)]
  refine (roundTrips_u16 _).append ?_
  refine (roundTrips_clientId formed.clientId).append ?_
  rw [if_neg (by
    rw [read.cleanSession]
    cases absent : packet.clientId with
    | none => simp [resumed absent]
    | some id => simp)]
  refine (roundTrips_will read formed.will ?_).append ?_
  · intro content delay same
    obtain ⟨bare, zero⟩ : content.otherProperties = {} ∧ delay = 0 :=
      (formed.will _ same).properties
    rw [bare, zero]
    exact .skip (.pure _)
  refine (roundTrips_username read.usernameClear formed.username).append ?_
  refine (roundTrips_password read.passwordClear formed.password).finish ?_
  rw [KeepAlive.ofU16_toU16, read.cleanSession, ← other]
  exact .pure packet

theorem roundTrips {packet : Connect} {version : ProtocolVersion}
    (formed : packet.WellFormed version) (small : (packet.encode version).size ≤ 268435455) :
    RoundTrips (packet.encode version) (Connect.decode 0 version) packet := by
  have start := roundTrips_start version
  have allowed : packet.encode version =
      tryPutSlice protocolName ++ tryPutU8 version.toU8 ++ packet.encodeRest version := by
    unfold encode
    split
    · rename_i absent present
      rw [formed.properties.2.1 absent] at present
      cases present
    · rw [Encoder.append_skip]
  rw [allowed] at small ⊢
  rw [Encoder.size_append] at small
  refine start.append ?_
  cases version with
  | v3 => exact roundTrips_restV3 formed
  | v5 => exact roundTrips_restV5 formed (by omega)

theorem ensures_str : (required ByteStr.decode).Ensures fun text used =>
    text.WellFormed ∧ text.data.shared.length = used :=
  ensures_required ByteStr.ensures

theorem ensures_start : (decodeStart 0).Ensures fun _ used => used = 7 := by
  rw [decodeStart, if_neg (by decide)]
  refine ensures_str.bind fun name used holds => ?_
  split
  · exact .fail
  · rename_i same
    have length := holds.1.1.length
    rw [show name.data.asBytes = protocolNameStr from not_not.mp same, holds.2] at length
    refine ensures_u8.bind fun version one single => ?_
    have total : used + one = 7 := by
      rw [length, single]
      rfl
    split
    · exact .pure total
    · exact .pure total
    · exact .fail

theorem ensures_clientId : decodeClientId.Ensures fun clientId used =>
    (∀ id, clientId = some id → id.WellFormed ∧ id.isEmpty = false) ∧
      (encodeClientId clientId).size ≤ used := by
  refine ensures_str.bind fun id used holds => ?_
  obtain ⟨formed, rfl⟩ := holds
  cases empty : id.isEmpty with
  | true =>
    have length : id.data.shared = [0, 0] := by simpa [ByteStr.isEmpty, BinaryData.isEmpty] using empty
    exact .pure ⟨by simp, by simp [encodeClientId, length, ByteStr.empty]⟩
  | false =>
    refine .pure ⟨fun other same => ?_, by simp [encodeClientId]⟩
    cases same
    exact ⟨formed, empty⟩

theorem ensures_username (flags : UInt8) : (decodeUsername flags).Ensures fun username used =>
    (∀ text, username = some text → text.WellFormed) ∧ (encodeUsername username).size ≤ used ∧
      (username = none → flags &&& flagsUsername = 0) := by
  unfold decodeUsername
  split
  · rename_i clear
    exact .pure ⟨by simp, Nat.le_refl 0, fun _ => clear⟩
  · refine ensures_str.bind fun text used holds => .pure ⟨?_, ?_, by simp⟩
    · rintro _ ⟨⟩
      exact holds.1
    · simp [encodeUsername, holds.2]

omit [UnicodeGeneralCategory] in
theorem ensures_password (flags : UInt8) : (decodePassword flags).Ensures fun password used =>
    (∀ data, password = some data → data.WellFormed) ∧ (encodePassword password).size ≤ used ∧
      (password ≠ none → flags &&& flagsPassword ≠ 0) := by
  unfold decodePassword
  split
  · exact .pure ⟨by simp, Nat.le_refl 0, by simp⟩
  · rename_i set
    refine (ensures_required BinaryData.ensures).bind fun data used holds => .pure ⟨?_, ?_, fun _ => set⟩
    · rintro _ ⟨⟩
      exact holds.1
    · simp [encodePassword, holds.2]

omit [UnicodeGeneralCategory] in
theorem ensures_willQoS (flags : UInt8) : (decodeWillQoS flags).Ensures fun _ used => used = 0 := by
  unfold decodeWillQoS
  split
  · exact .pure rfl
  · exact .pure rfl
  · exact .pure rfl
  · exact .fail

omit [UnicodeGeneralCategory] in
theorem ensures_willPayload : decodeWillPayload.Ensures fun payload used =>
    payload.length ≤ 65535 ∧ 2 + payload.length = used := by
  refine (ensures_required BinaryData.ensures).bind fun data used holds => ?_
  obtain ⟨formed, length⟩ := holds
  rw [show sliceFrom data.shared 2 = .ok data.asBytes from formed.tryAsBytes]
  exact .pure ⟨formed.1, by rw [← length, formed.length]; omega⟩

theorem ensures_will (flags : UInt8) (version : ProtocolVersion)
    {properties : Decoding (PublicationOtherProperties × UInt32)}
    (ensured : properties.Ensures fun will used =>
      (match version with
        | .v3 => will.1 = {} ∧ will.2 = 0
        | .v5 => ∀ slot ∈ willSlots will.1 will.2, slot.WellFormed) ∧
        (if version.isV5 then encodeProperties (willSlots will.1 will.2)
          else Encoder.skip : Encoding).size ≤ used) :
    (decodeWill flags properties).Ensures fun will used =>
      (∀ content, will = some content → WillFormed version content) ∧
        (encodeWill version will).size ≤ used := by
  unfold decodeWill
  split
  · split
    · exact .fail
    · exact .pure ⟨by simp, Nat.le_refl 0⟩
  · refine ensured.bind fun will first block => ?_
    refine (ensures_required Topic.ensures).bind fun topicName second topic => ?_
    refine (ensures_willQoS flags).bind fun qos none zero => ?_
    refine ensures_willPayload.bind fun payload last tail => .pure ⟨?_, ?_⟩
    · rintro _ ⟨⟩
      exact ⟨topic.1, tail.1, block.1⟩
    · have length := topic.2
      have size := block.2
      have counted := tail.2
      simp only [encodeWill, Encoder.size_append, if_pos (by omega : payload.length < 65536),
        Topic.size_encode, size_u16, size_shared]
      omega

theorem ensures_restV5 : decodeRestV5.Ensures fun packet used =>
    packet.WellFormed .v5 ∧ (packet.encodeRest .v5).size ≤ used := by
  refine ensures_u8.bind fun flags a one => ?_
  split
  · exact .fail
  · refine ensures_u16.bind fun keepAlive b two => ?_
    refine Property.ensures_all.bind fun properties c block => ?_
    refine ensures_clientId.bind fun clientId d client => ?_
    refine (ensures_will flags .v5 ensures_willProperties).bind fun will e content => ?_
    refine (ensures_username flags).bind fun username f name => ?_
    refine (ensures_password flags).bind fun password g secret => ?_
    refine (ensures_otherProperties block).bind fun other h properties => .pure ⟨?_, ?_⟩
    · exact ⟨name.1, secret.1, content.1, client.1, properties.2.1⟩
    · have sizes := And.intro properties.2.2 (And.intro client.2
        (And.intro content.2 (And.intro name.2.1 secret.2.1)))
      simp only [encodeRest, Encoder.size_append, size_u8, size_u16, ProtocolVersion.isV5, if_true]
      omega

omit [UnicodeGeneralCategory] in
/-- Flags with a password that are not those of a password alone have a username. -/
theorem username_of_password {flags : UInt8}
    (mixed : flags &&& (flagsUsername ||| flagsPassword) ≠ 0x40)
    (password : flags &&& flagsPassword ≠ 0) : flags &&& flagsUsername ≠ 0 := by
  have each : ∀ n : Fin 256, UInt8.ofFin n &&& (flagsUsername ||| flagsPassword) ≠ 0x40 →
      UInt8.ofFin n &&& flagsPassword ≠ 0 → UInt8.ofFin n &&& flagsUsername ≠ 0 := by
    decide +kernel
  exact each flags.toFin mixed password

theorem ensures_restV3 : decodeRestV3.Ensures fun packet used =>
    packet.WellFormed .v3 ∧ (packet.encodeRest .v3).size ≤ used := by
  refine ensures_u8.bind fun flags a one => ?_
  split
  · exact .fail
  · split
    · exact .fail
    · rename_i mixed
      refine ensures_u16.bind fun keepAlive b two => ?_
      refine ensures_clientId.bind fun clientId c client => ?_
      dsimp only
      split
      · exact .fail
      · rename_i resumed
        have bare : (pure ({}, 0) : Decoding (PublicationOtherProperties × UInt32)).Ensures
            fun will used => (will.1 = {} ∧ will.2 = 0) ∧ (Encoder.skip : Encoding).size ≤ used :=
          .pure ⟨⟨rfl, rfl⟩, Nat.le_refl 0⟩
        refine (ensures_will flags .v3 bare).bind fun will d content => ?_
        refine (ensures_username flags).bind fun username e name => ?_
        refine (ensures_password flags).bind fun password f secret => .pure ⟨?_, ?_⟩
        · refine ⟨name.1, secret.1, content.1, client.1, rfl, fun absent => ?_, fun absent => ?_⟩
          · by_contra present
            exact username_of_password mixed (secret.2.2 present) (name.2.2 absent)
          · simpa [show clientId = none from absent] using resumed
        · have sizes := And.intro client.2 (And.intro content.2 (And.intro name.2.1 secret.2.1))
          simp only [encodeRest, Encoder.size_append, size_u8, size_u16, ProtocolVersion.isV5,
            Bool.false_eq_true, if_false, Encoder.size_skip]
          omega

theorem ensures (version : ProtocolVersion) : (Connect.decode 0 version).Ensures fun packet used =>
    packet.WellFormed version ∧ (packet.encode version).size ≤ used := by
  refine ensures_start.bind fun actual used seven => ?_
  split
  · exact .fail
  · have total : ∀ packet : Connect, (packet.encode version).size =
        7 + (packet.encodeRest version).size := by
      intro packet
      simp only [encode, Encoder.size_append, size_slice, size_u8]
      split <;> simp [refuse, protocolName, protocolNameStr]
    cases version with
    | v3 =>
      refine ensures_restV3.mono fun packet more holds => ⟨holds.1, ?_⟩
      have size := holds.2
      rw [total]
      omega
    | v5 =>
      refine ensures_restV5.mono fun packet more holds => ⟨holds.1, ?_⟩
      have size := holds.2
      rw [total]
      omega

end Connect

end MqttClient.Proto
