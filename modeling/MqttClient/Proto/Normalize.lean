import MqttClient.Proto.Encodable

/-! Two spellings of the same packet. An empty client identifier is the same on the wire as
none, and an interval of 2³² - 1 seconds the same as an infinite one. -/

namespace MqttClient.Proto

open Lib Encoding

/-- The interval as it is read back. -/
def SessionExpiryInterval.normalize (interval : SessionExpiryInterval) : SessionExpiryInterval :=
  .ofU32 interval.toU32

@[simp] theorem SessionExpiryInterval.toU32_normalize (interval : SessionExpiryInterval) :
    interval.normalize.toU32 = interval.toU32 :=
  toU32_ofU32 _

theorem SessionExpiryInterval.normalize_wellFormed (interval : SessionExpiryInterval) :
    interval.normalize.WellFormed :=
  ofU32_wellFormed _

def ConnectOtherProperties.normalize (other : ConnectOtherProperties) : ConnectOtherProperties :=
  { other with sessionExpiryInterval := other.sessionExpiryInterval.normalize }

def Connect.normalize (packet : Connect) : Connect :=
  { packet with
    clientId := packet.clientId.filter fun id => !id.isEmpty
    otherProperties := packet.otherProperties.normalize }

def DisconnectOtherProperties.normalize (other : DisconnectOtherProperties) :
    DisconnectOtherProperties :=
  { other with sessionExpiryInterval := other.sessionExpiryInterval.map .normalize }

def Disconnect.normalize (packet : Disconnect) : Disconnect :=
  { packet with otherProperties := packet.otherProperties.normalize }

/-- The packet in the spelling in which it is read back. -/
def Packet.normalize : Packet → Packet
  | .connect packet => .connect packet.normalize
  | .disconnect packet => .disconnect packet.normalize
  | packet => packet

section

variable [UnicodeGeneralCategory]

theorem Connect.normalize_of_wellFormed {packet : Connect} (formed : packet.WellFormed .v5) :
    packet.normalize = packet := by
  have interval : packet.otherProperties.sessionExpiryInterval.WellFormed := by
    have slot := formed.properties (sessionExpiryInterval _) List.mem_cons_self
    exact slot _ (List.mem_singleton_self _)
  have clientId : packet.clientId.filter (fun id => !id.isEmpty) = packet.clientId := by
    cases held : packet.clientId with
    | none => rfl
    | some id => simp [Option.filter, (formed.clientId id held).2]
  rw [Connect.normalize, ConnectOtherProperties.normalize, clientId,
    SessionExpiryInterval.normalize, SessionExpiryInterval.ofU32_toU32 interval]

theorem Disconnect.normalize_of_wellFormed {packet : Disconnect} (formed : packet.WellFormed .v5) :
    packet.normalize = packet := by
  have interval : packet.otherProperties.sessionExpiryInterval.map .normalize =
      packet.otherProperties.sessionExpiryInterval := by
    have slot := formed (Binding.sessionExpiryInterval.optional _) List.mem_cons_self
    cases held : packet.otherProperties.sessionExpiryInterval with
    | none => rfl
    | some interval =>
      rw [held] at slot
      have formed : interval.WellFormed := slot _ (List.mem_singleton_self _)
      rw [Option.map_some, SessionExpiryInterval.normalize,
        SessionExpiryInterval.ofU32_toU32 formed]
  rw [Disconnect.normalize, DisconnectOtherProperties.normalize, interval]

theorem Packet.normalize_of_wellFormed {packet : Packet} (formed : packet.WellFormed .v5) :
    packet.normalize = packet := by
  cases packet with
  | connect packet => exact congrArg Packet.connect (Connect.normalize_of_wellFormed formed)
  | disconnect packet =>
    exact congrArg Packet.disconnect (Disconnect.normalize_of_wellFormed formed)
  | _ => rfl

end

theorem encodeAll_congr {first last : List Property}
    (same : (Encoder.forEach first Property.encode) = .forEach last Property.encode) :
    Property.encodeAll first = Property.encodeAll last := by
  rw [Property.encodeAll, Property.encodeAll, same]

theorem Connect.encodeProperties_normalize (other : ConnectOtherProperties) :
    encodeProperties (slots other.normalize) = encodeProperties (slots other) := by
  refine encodeAll_congr ?_
  simp only [slots, List.flatMap_cons, sessionExpiryInterval, List.cons_append, List.nil_append,
    Encoder.forEach_cons, Property.encode, ConnectOtherProperties.normalize,
    SessionExpiryInterval.toU32_normalize]

theorem Disconnect.encodeProperties_normalize (other : DisconnectOtherProperties) :
    encodeProperties (slots other.normalize) = encodeProperties (slots other) := by
  refine encodeAll_congr ?_
  cases held : other.sessionExpiryInterval with
  | none => simp [slots, DisconnectOtherProperties.normalize, held]
  | some interval =>
    simp only [slots, DisconnectOtherProperties.normalize, held, List.flatMap_cons,
      Binding.optional, Option.map_some, Option.toList_some, List.cons_append, List.nil_append,
      Encoder.forEach_cons, Property.encode, Binding.sessionExpiryInterval,
      SessionExpiryInterval.toU32_normalize]

/-- An empty identifier is put as the bytes of an empty string. -/
theorem Connect.sameCode_clientId (clientId : Option ByteStr) :
    Encoder.SameCode (encodeClientId (clientId.filter fun id => !id.isEmpty))
      (encodeClientId clientId) := by
  cases clientId with
  | none => exact .refl _
  | some id =>
    by_cases empty : id.isEmpty = true
    · have bytes : id.data.shared = [0, 0] := by simpa [ByteStr.isEmpty, BinaryData.isEmpty] using empty
      have none : (some id).filter (fun id => !id.isEmpty) = none := by simp [Option.filter, empty]
      rw [none]
      refine ⟨by simp [encodeClientId], ?_⟩
      show ByteStr.empty ++ [] = id.data.shared ++ []
      rw [bytes]
      rfl
    · have some : (some id).filter (fun id => !id.isEmpty) = some id := by simp [Option.filter, empty]
      rw [some]
      exact .refl _

theorem Connect.sameCode_normalize (packet : Connect) :
    Encoder.SameCode (packet.normalize.encode .v5) (packet.encode .v5) := by
  have properties : Encoder.SameCode (encodeProperties (slots packet.normalize.otherProperties))
      (encodeProperties (slots packet.otherProperties)) := by
    rw [normalize, encodeProperties_normalize]
    exact .refl _
  have rest : Encoder.SameCode (packet.normalize.encodeRest .v5) (packet.encodeRest .v5) :=
    ((((((Encoder.SameCode.refl (tryPutU8 _ ++ tryPutU16Be _)).append properties).append
      (sameCode_clientId packet.clientId)).append (.refl _)).append (.refl _)).append (.refl _))
  exact (Encoder.SameCode.refl _).append rest

theorem Disconnect.encode_normalize (packet : Disconnect) :
    packet.normalize.encode .v5 = packet.encode .v5 := by
  have present : hasProperties packet.otherProperties.normalize =
      hasProperties packet.otherProperties := by
    simp [hasProperties, DisconnectOtherProperties.normalize]
  simp only [encode, normalize, encodeProperties_normalize, present]

namespace Packet

theorem sameCode_body (packet : Packet) :
    Encoder.SameCode (packet.normalize.encodeBody .v5) (packet.encodeBody .v5) := by
  cases packet with
  | connect packet => exact packet.sameCode_normalize
  | disconnect packet =>
    show Encoder.SameCode (packet.normalize.encode .v5) (packet.encode .v5)
    rw [packet.encode_normalize]
    exact .refl _
  | _ => exact .refl _

theorem firstByte_normalize (packet : Packet) :
    packet.normalize.packetType ||| packet.normalize.flags =
      packet.packetType ||| packet.flags := by
  cases packet <;> rfl

/-- The wire does not tell the two spellings apart. -/
theorem items_normalize {packet : Packet} (succeeds : (packet.encode .v5).Succeeds) :
    (packet.normalize.encode .v5).items = (packet.encode .v5).items := by
  have same := packet.sameCode_body
  have body := ((succeeds_encode packet .v5).mp succeeds).1
  rw [encode_succeeds body, encode_succeeds (same.succeeds.mpr body), firstByte_normalize,
    same.size]
  exact (((Encoder.SameCode.refl _).append same).append (.refl _)).items

variable [UnicodeGeneralCategory]

/-- A packet that can be encoded is read back, in its one spelling, exactly if that is well
formed. -/
theorem decodeFull_iff {packet : Packet} (succeeds : (packet.encode .v5).Succeeds) :
    (∃ decoded, decodeFull (packet.encode .v5).items .v5 = .ok decoded ∧
        decoded.normalize = packet.normalize) ↔ packet.normalize.WellFormed .v5 := by
  constructor
  · rintro ⟨decoded, read, same⟩
    obtain ⟨formed, -⟩ := wellFormed_of_decodeFull read
    rw [← same, normalize_of_wellFormed formed]
    exact formed
  · intro formed
    have small : (packet.normalize.encodeBody .v5).size ≤ 268435455 := by
      rw [packet.sameCode_body.size]
      exact ((succeeds_encode packet .v5).mp succeeds).2
    have read := (roundTrips formed small).2
    rw [items_normalize succeeds, Decoder.ReadsAll] at read
    refine ⟨packet.normalize, by simp [decodeFull, read, Except.map], ?_⟩
    exact normalize_of_wellFormed formed

end Packet

end MqttClient.Proto
