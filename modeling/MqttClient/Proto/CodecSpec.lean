import MqttClient.Proto.Codec
import MqttClient.Proto.SubscribeSpec

/-! Whole packets: a well-formed packet is encoded and decoded to itself, and so is every
packet that was decoded. -/

namespace MqttClient.Proto

open Lib Decoding Encoding

namespace Packet

section

variable [UnicodeGeneralCategory]

/-- A packet that the wire can carry in this version of the protocol. -/
def WellFormed (packet : Packet) (version : ProtocolVersion) : Prop :=
  match packet with
  | .auth packet => packet.WellFormed version
  | .connAck packet => packet.WellFormed version
  | .connect packet => packet.WellFormed version
  | .disconnect packet => packet.WellFormed version
  | .pingReq => True
  | .pingResp => True
  | .pubAck packet => packet.WellFormed version
  | .pubComp packet => packet.WellFormed version
  | .publish packet => packet.WellFormed version
  | .pubRec packet => packet.WellFormed version
  | .pubRel packet => packet.WellFormed version
  | .subAck packet => packet.WellFormed version
  | .subscribe packet => packet.WellFormed version
  | .unsubAck packet => packet.WellFormed version
  | .unsubscribe packet => packet.WellFormed version

theorem roundTrips_body {packet : Packet} {version : ProtocolVersion}
    (formed : packet.WellFormed version)
    (small : (packet.encodeBody version).size ≤ 268435455) :
    RoundTripsAll (packet.encodeBody version)
      (decodeBody packet.packetType packet.flags version) packet := by
  cases packet with
  | auth packet => exact (Auth.roundTrips formed small).all.finish (.pure _)
  | connAck packet => exact (ConnAck.roundTrips formed small).all.finish (.pure _)
  | connect packet => exact (Connect.roundTrips formed small).all.finish (.pure _)
  | disconnect packet => exact (Disconnect.roundTrips formed small).finish (.pure _)
  | pingReq => exact (RoundTrips.skip (.pure _)).all
  | pingResp => exact (RoundTrips.skip (.pure _)).all
  | pubAck packet => exact (PubAck.roundTrips formed small).finish (.pure _)
  | pubComp packet => exact (PubComp.roundTrips formed small).finish (.pure _)
  | publish packet => exact (Publish.roundTrips formed small).finish (.pure _)
  | pubRec packet => exact (PubRec.roundTrips formed small).finish (.pure _)
  | pubRel packet => exact (PubRel.roundTrips formed small).finish (.pure _)
  | subAck packet => exact (SubAck.roundTrips formed small).finish (.pure _)
  | subscribe packet => exact (Subscribe.roundTrips formed small).finish (.pure _)
  | unsubAck packet => exact (UnsubAck.roundTrips formed small).finish (.pure _)
  | unsubscribe packet => exact (Unsubscribe.roundTrips formed small).finish (.pure _)

theorem ensures_body (packetType flags : UInt8) (version : ProtocolVersion) :
    (decodeBody packetType flags version).Ensures fun packet used =>
      packet.WellFormed version ∧ (packet.encodeBody version).size ≤ max used 2 := by
  have body : ∀ {α : Type} {decoder : Decoding α} {make : α → Packet}
      {post : α → Nat → Prop}, decoder.Ensures post →
      (∀ value used, post value used → (make value).WellFormed version ∧
        ((make value).encodeBody version).size ≤ max used 2) →
      (decoder >>= fun value => pure (make value)).Ensures fun packet used =>
        packet.WellFormed version ∧ (packet.encodeBody version).size ≤ max used 2 :=
    fun ensured implied => ensured.bind fun value used holds => .pure (implied value used holds)
  unfold decodeBody
  split
  · exact body (Auth.ensures version) fun _ _ holds => holds
  · exact body (ConnAck.ensures version) fun _ _ holds => ⟨holds.1, le_max_of_le_left holds.2⟩
  · exact body (Connect.ensures version) fun _ _ holds => ⟨holds.1, le_max_of_le_left holds.2⟩
  · exact body (Disconnect.ensures version) fun _ _ holds => ⟨holds.1, le_max_of_le_left holds.2⟩
  · exact .pure ⟨trivial, Nat.zero_le _⟩
  · exact .pure ⟨trivial, Nat.zero_le _⟩
  · exact body (PubAck.ensures version) fun _ _ holds => ⟨holds.1, le_max_of_le_left holds.2⟩
  · exact body (PubComp.ensures version) fun _ _ holds => ⟨holds.1, le_max_of_le_left holds.2⟩
  · exact body (Publish.ensures _ version) fun _ _ holds => ⟨holds.1, le_max_of_le_left holds.2⟩
  · exact body (PubRec.ensures version) fun _ _ holds => ⟨holds.1, le_max_of_le_left holds.2⟩
  · exact body (PubRel.ensures version) fun _ _ holds => ⟨holds.1, le_max_of_le_left holds.2⟩
  · exact body (SubAck.ensures version) fun _ _ holds => ⟨holds.1, le_max_of_le_left holds.2⟩
  · exact body (Subscribe.ensures version) fun _ _ holds => ⟨holds.1, le_max_of_le_left holds.2⟩
  · exact body (UnsubAck.ensures version) fun _ _ holds => ⟨holds.1, le_max_of_le_left holds.2⟩
  · exact body (Unsubscribe.ensures version) fun _ _ holds => ⟨holds.1, le_max_of_le_left holds.2⟩
  · exact .bindInput fun _ => .fail

omit [UnicodeGeneralCategory] in
/-- The two halves of the first byte do not mix. -/
theorem firstByte_read (packet : Packet) :
    (packet.packetType ||| packet.flags) &&& 0xF0 = packet.packetType ∧
      (packet.packetType ||| packet.flags) &&& 0x0F = packet.flags := by
  cases packet with
  | publish packet =>
    simp only [packetType, flags, Publish.flags]
    generalize packet.retain = retain
    cases packet.packetIdentifierDupQoS with
    | atMostOnce =>
      revert retain
      decide
    | atLeastOnce packetIdentifier dup => cases dup <;> dsimp only <;> revert retain <;> decide
    | exactlyOnce packetIdentifier dup => cases dup <;> dsimp only <;> revert retain <;> decide
  | _ =>
    dsimp only [packetType, flags]
    decide

theorem readsAll_decode {packet : Packet} {version : ProtocolVersion}
    (formed : packet.WellFormed version)
    (small : (packet.encodeBody version).size ≤ 268435455) :
    (decode (packet.packetType ||| packet.flags) version).ReadsAll
      (packet.encodeBody version).items packet := by
  have body := (roundTrips_body formed small).2
  rw [Decoder.ReadsAll] at body ⊢
  rw [decode, packet.firstByte_read.1, packet.firstByte_read.2, Decoder.bind_apply, body]
  rfl

omit [UnicodeGeneralCategory] in
theorem reads_fixedHeader (firstByte : UInt8) {code : Bytes} {length : Nat}
    (remaining : decodeRemainingLength.Reads code (some length)) :
    decodeFixedHeader.Reads (firstByte :: code) (some (firstByte, length)) := by
  have read : (do return (← decodeRemainingLength).map (firstByte, ·) :
      Decoding (Option (UInt8 × Nat))).Reads code (some (firstByte, length)) :=
    remaining.finish (.pure _)
  intro rest
  rw [List.cons_append, decodeFixedHeader_cons]
  exact read rest

omit [UnicodeGeneralCategory] in
theorem roundTrips_fixedHeader (firstByte : UInt8) {length : Nat} (small : length < 268435456) :
    RoundTrips (tryPutU8 firstByte ++ encodeRemainingLength length) decodeFixedHeader
      (some (firstByte, length)) := by
  have remaining := roundTrips_remainingLength small
  have emits : (tryPutU8 firstByte ++ encodeRemainingLength length).Emits
      ([firstByte] ++ (encodeRemainingLength length).items) :=
    (Encoder.Emits.slice [firstByte] _).append remaining.emits
  exact emits.roundTrips (reads_fixedHeader firstByte remaining.2)

omit [UnicodeGeneralCategory] in
theorem ensures_fixedHeader : decodeFixedHeader.Ensures fun outcome _ =>
    ∀ header, outcome = some header → header.2 < 268435456 := by
  intro src outcome rest decoded
  cases src with
  | nil =>
    cases decoded
    exact ⟨0, rfl, by simp⟩
  | cons firstByte tail =>
    have after : (do return (← decodeRemainingLength).map (firstByte, ·) :
        Decoding (Option (UInt8 × Nat))).Ensures fun outcome _ =>
        ∀ header, outcome = some header → header.2 < 268435456 := by
      refine ensures_remainingLength.bind fun found used holds => ?_
      cases found with
      | none => exact .pure (by simp)
      | some length =>
        refine .pure fun header same => ?_
        cases same
        obtain ⟨-, few, below⟩ := holds length rfl
        have power : 128 ^ used ≤ 128 ^ 4 := Nat.pow_le_pow_right (by decide) few
        show length < 268435456
        omega
    rw [decodeFixedHeader_cons] at decoded
    obtain ⟨used, length, holds⟩ := after tail outcome rest decoded
    exact ⟨used + 1, by simp only [List.length_cons]; omega, holds⟩

/-- The counting pass succeeds for what is well formed, so the body stands behind its header. -/
theorem encode_eq {packet : Packet} {version : ProtocolVersion}
    (formed : packet.WellFormed version)
    (small : (packet.encodeBody version).size ≤ 268435455) :
    packet.encode version =
      tryPutU8 (packet.packetType ||| packet.flags) ++
        encodeRemainingLength (packet.encodeBody version).size ++ packet.encodeBody version ++
        .put .done := by
  have emits : (packet.encodeBody version).Emits (packet.encodeBody version).items :=
    ⟨(roundTrips_body formed small).1, rfl⟩
  simp only [encode, run_byteCounter emits 0, Nat.zero_add]
  rfl

theorem roundTrips {packet : Packet} {version : ProtocolVersion}
    (formed : packet.WellFormed version)
    (small : (packet.encodeBody version).size ≤ 268435455) :
    RoundTripsAll (packet.encode version) (decodeFullAt version) packet := by
  have below : (packet.encodeBody version).size < 268435456 := by omega
  have body := roundTrips_body formed small
  have header := roundTrips_scan (roundTrips_required
    (roundTrips_fixedHeader (packet.packetType ||| packet.flags) below))
  rw [encode_eq formed small, Encoder.append_assoc]
  refine header.appendAll ?_
  have emits : (packet.encodeBody version ++ .put .done).Emits (packet.encodeBody version).items := by
    have joined := Encoder.Emits.append ⟨body.1, rfl⟩ Encoder.Emits.done
    rwa [List.append_nil] at joined
  refine emits.roundTripsAll ?_
  have exact : ¬ (packet.encodeBody version).items.length < (packet.encodeBody version).size :=
    Nat.lt_irrefl _
  have nothing : ¬ (packet.encodeBody version).size < (packet.encodeBody version).items.length :=
    Nat.lt_irrefl _
  simp only [Decoder.ReadsAll, Decoder.bind_apply, Decoder.input, exact, nothing, if_false]
  exact readsAll_decode formed small

/-- What is decoded is a packet that the wire can carry. -/
theorem wellFormed_of_decodeFull {src : Bytes} {version : ProtocolVersion} {packet : Packet}
    (decoded : decodeFull src version = .ok packet) :
    packet.WellFormed version ∧ (packet.encodeBody version).size ≤ 268435455 := by
  have body : ∀ firstByte, (decode firstByte version).Ensures fun packet used =>
      packet.WellFormed version ∧ (packet.encodeBody version).size ≤ max used 2 := by
    intro firstByte
    refine (ensures_body _ _ version).bind fun packet used holds => .bindIsEmpty fun empty => ?_
    split
    · exact .pure holds
    · exact .fail
  cases full : decodeFullAt version src with
  | error fault => simp [decodeFull, full, Except.map] at decoded
  | ok outcome =>
    obtain ⟨found, left⟩ := outcome
    simp only [decodeFull, full, Except.map, Except.ok.injEq] at decoded
    subst decoded
    rw [decodeFullAt, Decoder.bind_apply] at full
    cases headed : scan (required decodeFixedHeader) src with
    | error fault => simp [headed] at full
    | ok parsed =>
      obtain ⟨⟨firstByte, length⟩, rest⟩ := parsed
      obtain ⟨-, -, below⟩ := ensures_scan (ensures_required ensures_fixedHeader) src _ _ headed
      simp only [headed, Decoder.bind_apply, Decoder.input] at full
      split at full
      · cases full
      · split at full
        · cases full
        · obtain ⟨used, total, formed, size⟩ := body firstByte rest found left full
          refine ⟨formed, ?_⟩
          simp only at below
          omega

/-- Put into any accumulator with room, the packet is the bytes that are decoded to it. -/
def Survives (packet : Packet) (version : ProtocolVersion) : Prop :=
  ∃ bytes,
    (∀ (A : Type) [LawfulAccumulator A UInt8] (dst : A),
      LawfulAccumulator.HasRoom dst (packet.encode version).room →
      ∃ next, (packet.encode version).run dst = .ok next ∧
        LawfulAccumulator.contents next = LawfulAccumulator.contents dst ++ bytes) ∧
    decodeFull bytes version = .ok packet

theorem survives {packet : Packet} {version : ProtocolVersion}
    (formed : packet.WellFormed version)
    (small : (packet.encodeBody version).size ≤ 268435455) : packet.Survives version := by
  obtain ⟨succeeds, read⟩ := roundTrips formed small
  have emits : (packet.encode version).Emits (packet.encode version).items := ⟨succeeds, rfl⟩
  refine ⟨(packet.encode version).items, fun A _ dst room => emits.run dst room, ?_⟩
  rw [Decoder.ReadsAll] at read
  simp [decodeFull, read, Except.map]

theorem decodeFull_encode_decodeFull {src : Bytes} {version : ProtocolVersion} {packet : Packet}
    (decoded : decodeFull src version = .ok packet) : packet.Survives version :=
  survives (wellFormed_of_decodeFull decoded).1 (wellFormed_of_decodeFull decoded).2

theorem decodeFull_encode {packet : Packet} (formed : packet.WellFormed .v5)
    (small : (packet.encodeBody .v5).size ≤ 268435455) : packet.Survives .v5 :=
  survives formed small

end

end Packet

/-- Categories that agree with Unicode on letters, digits, the space and the controls of
ASCII. -/
@[reducible] def asciiCategory : UnicodeGeneralCategory where
  generalCategory c :=
    if c.toNat < 0x20 then .control
    else if c.isUpper then .uppercaseLetter
    else if c.isLower then .lowercaseLetter
    else if c.isDigit then .decimalNumber
    else if c = ' ' then .spaceSeparator
    else .otherPunctuation
  capital c low high := by
    have first : 65 ≤ c.val := low
    have last : c.val ≤ 90 := high
    have upper : c.isUpper = true := decide_eq_true ⟨first, last⟩
    have printable : ¬ c.toNat < 0x20 := by
      have bound : 'A'.toNat ≤ c.toNat := low
      have code : 'A'.toNat = 65 := rfl
      omega
    rw [if_neg printable, if_pos upper]

namespace Packet

/-- A message on topic `a`, without properties. -/
def sampleMessage : Publish :=
  ⟨⟨⟨⟨[0x00, 0x01, 0x61]⟩⟩⟩, .atLeastOnce .one false, false, [0x68, 0x69], {}⟩

/-- The same message with the length of its body and of its properties in two bytes each. -/
theorem decodeFull_encode_decodeFull_padded :
    letI := asciiCategory
    decodeFull [0x32, 0x89, 0x00, 0x00, 0x01, 0x61, 0x00, 0x01, 0x80, 0x00, 0x68, 0x69] .v5 =
        .ok (.publish sampleMessage) ∧
      Packet.Survives (.publish sampleMessage) .v5 :=
  letI := asciiCategory
  have decoded : decodeFull [0x32, 0x89, 0x00, 0x00, 0x01, 0x61, 0x00, 0x01, 0x80, 0x00, 0x68,
      0x69] .v5 = .ok (.publish sampleMessage) := by decide +kernel
  ⟨decoded, decodeFull_encode_decodeFull decoded⟩

theorem decodeFull_encode_publish :
    letI := asciiCategory
    Packet.WellFormed (.publish sampleMessage) .v5 ∧
      Packet.Survives (.publish sampleMessage) .v5 := by
  let := asciiCategory
  have formed : Packet.WellFormed (.publish sampleMessage) .v5 := by
    refine ⟨⟨⟨⟨by decide, by decide⟩, by decide +kernel⟩, by decide +kernel⟩, ?_⟩
    simp [sampleMessage, Publish.slots, Slot.WellFormed, Binding.optional, Binding.once,
      Binding.repeated, Binding.payloadIsUtf8, Property.WellFormed]
  exact ⟨formed, decodeFull_encode formed (by decide +kernel)⟩

end Packet

end MqttClient.Proto
