import MqttClient.Proto.Encodable

/-! The encoder writes the shortest bytes that are decoded to a packet. Lengths take no more
bytes than they need, and what is left out is read as its default. Only an AUTH may be read
from fewer bytes than it is written with. -/

namespace MqttClient.Proto

open Lib Decoding Encoding

/-- A number below a power of 128 takes no more bytes than the exponent. -/
theorem varintLength_le {value count : Nat} (some : 0 < count) (below : value < 128 ^ count) :
    varintLength value ≤ count := by
  have counts : count = 1 ∨ count = 2 ∨ count = 3 ∨ 4 ≤ count := by omega
  unfold varintLength
  rcases counts with rfl | rfl | rfl | many
  all_goals repeat' split
  all_goals omega

theorem varintLength_mono {small large : Nat} (le : small ≤ large) :
    varintLength small ≤ varintLength large := by
  unfold varintLength
  repeat' split
  all_goals omega

namespace Packet

section

variable [UnicodeGeneralCategory]

/-- A body is not longer than the one it was read from, apart from that of an AUTH. -/
theorem shortens_body (packetType flags : UInt8) (version : ProtocolVersion) :
    (decodeBody packetType flags version).Ensures fun packet used =>
      (packet.encodeBody version).size ≤ used ∨
        (∃ auth, packet = .auth auth) ∧ (packet.encodeBody version).size ≤ max used 2 := by
  have body : ∀ {α : Type} {decoder : Decoding α} {make : α → Packet} {formed : α → Prop},
      (decoder.Ensures fun value used =>
        formed value ∧ ((make value).encodeBody version).size ≤ used) →
      (decoder >>= fun value => pure (make value)).Ensures fun packet used =>
        (packet.encodeBody version).size ≤ used ∨
          (∃ auth, packet = .auth auth) ∧ (packet.encodeBody version).size ≤ max used 2 :=
    fun ensured => ensured.bind fun value used holds => .pure (.inl holds.2)
  unfold decodeBody
  split
  · exact (Auth.ensures version).bind fun auth used holds => .pure (.inr ⟨⟨auth, rfl⟩, holds.2⟩)
  · exact body (ConnAck.ensures version)
  · exact body (Connect.ensures version)
  · exact body (Disconnect.ensures version)
  · exact .pure (.inl (Nat.zero_le _))
  · exact .pure (.inl (Nat.zero_le _))
  · exact body (PubAck.ensures version)
  · exact body (PubComp.ensures version)
  · exact body (Publish.ensures _ version)
  · exact body (PubRec.ensures version)
  · exact body (PubRel.ensures version)
  · exact body (SubAck.ensures version)
  · exact body (Subscribe.ensures version)
  · exact body (UnsubAck.ensures version)
  · exact body (Unsubscribe.ensures version)
  · exact .bindInput fun _ => .fail

omit [UnicodeGeneralCategory] in
/-- A fixed header takes a byte and those of its length. -/
theorem shortens_fixedHeader : decodeFixedHeader.Ensures fun outcome used =>
    ∀ header, outcome = some header → 1 + varintLength header.2 ≤ used := by
  intro src outcome rest decoded
  cases src with
  | nil =>
    cases decoded
    exact ⟨0, rfl, by simp⟩
  | cons firstByte tail =>
    have after : (do return (← decodeRemainingLength).map (firstByte, ·) :
        Decoding (Option (UInt8 × Nat))).Ensures fun outcome used =>
        ∀ header, outcome = some header → varintLength header.2 ≤ used := by
      refine ensures_remainingLength.bind fun found used holds => ?_
      cases found with
      | none => exact .pure (by simp)
      | some length =>
        refine .pure fun header same => ?_
        cases same
        obtain ⟨present, -, below⟩ := holds length rfl
        exact varintLength_le present below
    rw [decodeFixedHeader_cons] at decoded
    obtain ⟨used, length, holds⟩ := after tail outcome rest decoded
    refine ⟨used + 1, by simp only [List.length_cons]; omega, ?_⟩
    intro header same
    have fits := holds header same
    omega

/-- The size of an encoding is that of its body and of the header before it. -/
theorem size_encode {packet : Packet} {version : ProtocolVersion}
    (formed : packet.WellFormed version) (small : (packet.encodeBody version).size ≤ varintMax) :
    (packet.encode version).items.length =
      1 + varintLength (packet.encodeBody version).size + (packet.encodeBody version).size := by
  show (packet.encode version).size = _
  rw [encode_eq formed small]
  simp only [Encoder.size_append, size_u8, size_remainingLength small]
  rfl

/-- No bytes that are decoded to a packet are shorter than its encoding, apart from those of an
AUTH, which is written with four bytes or more. -/
theorem decodeFull_shortest {src : Bytes} {version : ProtocolVersion} {packet : Packet}
    (decoded : decodeFull src version = .ok packet) :
    decodeFull (packet.encode version).items version = .ok packet ∧
      ((packet.encode version).items.length ≤ src.length ∨
        (∃ auth, packet = .auth auth) ∧ (packet.encode version).items.length ≤ 4) := by
  obtain ⟨formed, small⟩ := wellFormed_of_decodeFull decoded
  have read := (roundTrips formed small).2
  rw [Decoder.ReadsAll] at read
  refine ⟨by simp [decodeFull, read, Except.map], ?_⟩
  rw [size_encode formed small]
  have body : ∀ firstByte, (decode firstByte version).Ensures fun packet used =>
      (packet.encodeBody version).size ≤ used ∨
        (∃ auth, packet = .auth auth) ∧ (packet.encodeBody version).size ≤ max used 2 := by
    intro firstByte
    refine (shortens_body _ _ version).bind fun packet used holds => .bindIsEmpty fun empty => ?_
    split
    · exact .pure holds
    · exact .fail
  cases full : decodeFullAt version src with
  | error fault => simp [decodeFull, full, Except.map] at decoded
  | ok outcome =>
    obtain ⟨found, left⟩ := outcome
    simp only [decodeFull, full, Except.map, Except.ok.injEq] at decoded
    subst decoded
    rw [decodeFullAt, Decoder.bind_apply] at full
    cases headed : scan (required decodeFixedHeader) src with
    | error fault => simp [headed] at full
    | ok parsed =>
      obtain ⟨⟨firstByte, length⟩, rest⟩ := parsed
      obtain ⟨before, total, header⟩ :=
        ensures_scan (ensures_required shortens_fixedHeader) src _ _ headed
      simp only [headed, Decoder.bind_apply, Decoder.input] at full
      split at full
      · cases full
      · split at full
        · cases full
        · obtain ⟨used, remaining, shorter⟩ := body firstByte rest found left full
          have exact : length = rest.length := by omega
          have fits : 1 + varintLength length ≤ before := header
          rcases shorter with shorter | ⟨auth, shorter⟩
          · have lengths :=
              varintLength_mono (show (found.encodeBody version).size ≤ length by omega)
            left
            omega
          · by_cases long : (found.encodeBody version).size ≤ length
            · have lengths := varintLength_mono long
              left
              omega
            · right
              have one := @varintLength_le (found.encodeBody version).size 1 (by decide) (by omega)
              exact ⟨auth, by omega⟩

end

/-- A PUBLISH with its lengths in two bytes each and a default that is spelled out. -/
theorem decodeFull_shortest_padded :
    letI := asciiCategory
    ∃ packet, decodeFull [0x30, 0x88, 0x00, 0x00, 0x01, 0x61, 0x82, 0x00, 0x01, 0x00, 0x68] .v5 =
        .ok packet ∧ (packet.encode .v5).items.length ≤ 11 := by
  let := asciiCategory
  have decoded : decodeFull [0x30, 0x88, 0x00, 0x00, 0x01, 0x61, 0x82, 0x00, 0x01, 0x00, 0x68]
      .v5 = .ok (.publish ⟨⟨⟨⟨[0, 1, 0x61]⟩⟩⟩, .atMostOnce, false, [0x68], {}⟩) := by
    decide +kernel
  rcases (decodeFull_shortest decoded).2 with shorter | ⟨⟨auth, other⟩, -⟩
  · exact ⟨_, decoded, shorter⟩
  · cases other

end Packet

end MqttClient.Proto
