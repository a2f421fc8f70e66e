import MqttClient.Proto.Encodable

/-! Variable byte integers in their shortest form, and the fixed header of a packet that has
arrived in part. -/

namespace MqttClient.Proto

open Lib Encoding

/-- The shortest bytes that are read as the integer. -/
structure IsCode (n : UInt32) (code : Bytes) : Prop where
  reads : ∀ rest, decodeVarint (code ++ rest) = .ok (some n, rest)
  shortest : ∀ other rest, decodeVarint (other ++ rest) = .ok (some n, rest) →
    code.length ≤ other.length

theorem isCode_encodeVarint {n : UInt32} (small : n.toNat < 2 ^ 28) :
    IsCode n (encodeVarint n).items := by
  constructor
  · exact (roundTrips_varint n (by simpa using small)).2
  · intro other rest decoded
    obtain ⟨used, length, holds⟩ := ensures_varint _ _ _ decoded
    obtain ⟨positive, -, fits⟩ := holds n rfl
    rw [List.length_append] at length
    calc (encodeVarint n).items.length
        ≤ used := size_varintLoop_le n n _ used positive fits
      _ = other.length := by omega

theorem room_varintLoop (original item : UInt32) (left : Nat) :
    (encodeVarintLoop original left item).room = (encodeVarintLoop original left item).size := by
  induction left generalizing item with
  | zero => rfl
  | succ left ih =>
    rw [encodeVarintLoop_succ]
    by_cases last : item.toNat < 128
    · rw [if_pos last]
      rfl
    · rw [if_neg last, Encoder.size_append, ← ih]
      rfl

/-- Putting a variable byte integer fails for want of room, or because it is too high. -/
theorem fault_varintLoop (original item : UInt32) (left : Nat) (put : Put UInt8 EncodeFault)
    (member : put ∈ (encodeVarintLoop original left item).puts) (fault : EncodeFault)
    (faulty : put.fault? = some fault) :
    fault = .error .insufficientBuffer ∨ fault = .error (.varintTooHigh original) := by
  induction left generalizing item with
  | zero =>
    obtain rfl := List.mem_singleton.mp member
    cases faulty
    exact .inr rfl
  | succ left ih =>
    rw [encodeVarintLoop_succ] at member
    by_cases last : item.toNat < 128
    · rw [if_pos last] at member
      obtain rfl := List.mem_singleton.mp member
      cases faulty
      exact .inl rfl
    · rw [if_neg last] at member
      rcases List.mem_append.mp member with here | later
      · obtain rfl := List.mem_singleton.mp here
        cases faulty
        exact .inl rfl
      · exact ih (item >>> 7) later

/-- The loop on the reader's cursor, which stays behind the last byte that was taken. -/
def decodeVarintLoopAt (result : UInt32) (numBytesRead : Nat) :
    Bytes → Except Fault (Option UInt32) × Bytes
  | [] => (.ok none, [])
  | encodedByte :: rest =>
    match shiftLeftU32 (encodedByte &&& 0x7F).toUInt32 (numBytesRead * 7) with
    | .error fault => (.error fault, rest)
    | .ok shifted =>
      let result := result ||| shifted
      if encodedByte &&& 0x80 = 0 then (.ok (some result), rest)
      else if numBytesRead + 1 = defaultRemainingLengthFieldMaxLength then
        (.error (.error .varintTooHigh), rest)
      else decodeVarintLoopAt result (numBytesRead + 1) rest

def decodeRemainingLengthAt (src : Bytes) : Except Fault (Option Nat) × Bytes :=
  let (varint, rest) := decodeVarintLoopAt 0 0 src
  (varint.map (Option.map UInt32.toNat), rest)

/-- `decodeFixedHeader` with the cursor that it leaves, also where it fails. -/
def decodeFixedHeaderAt : Bytes → Except Fault (Option (UInt8 × Nat)) × Bytes
  | [] => (.ok none, [])
  | firstByte :: rest =>
    let (remainingLength, rest) := decodeRemainingLengthAt rest
    (remainingLength.map (Option.map (firstByte, ·)), rest)

/-- How far the cursor was moved. -/
def fixedHeaderLen (src : Bytes) : Nat := src.length - (decodeFixedHeaderAt src).2.length

theorem decodeVarintLoop_at (result : UInt32) (read : Nat) (src : Bytes) :
    decodeVarintLoop result read src =
      (decodeVarintLoopAt result read src).1.map (·, (decodeVarintLoopAt result read src).2) := by
  induction src generalizing result read with
  | nil => rfl
  | cons byte rest ih =>
    rw [decodeVarintLoop, decodeVarintLoopAt]
    cases shiftLeftU32 (byte &&& 0x7F).toUInt32 (read * 7) with
    | error fault => rfl
    | ok shifted =>
      simp only [bind, Except.bind]
      by_cases last : byte &&& 0x80 = 0
      · rw [if_pos last, if_pos last]
        rfl
      · rw [if_neg last, if_neg last]
        by_cases limit : read + 1 = defaultRemainingLengthFieldMaxLength
        · rw [if_pos limit, if_pos limit]
          rfl
        · rw [if_neg limit, if_neg limit]
          exact ih _ _

/-- The two readings of a header agree. -/
theorem decodeFixedHeader_at (src : Bytes) :
    decodeFixedHeader src = (decodeFixedHeaderAt src).1.map (·, (decodeFixedHeaderAt src).2) := by
  cases src with
  | nil => rfl
  | cons firstByte src =>
    simp only [decodeFixedHeader, decodeFixedHeaderAt, decodeRemainingLength,
      decodeRemainingLengthAt, decodeVarint, Decoder.bind_apply, decodeVarintLoop_at]
    generalize decodeVarintLoopAt 0 0 src = outcome
    obtain ⟨varint, rest⟩ := outcome
    cases varint with
    | error fault => rfl
    | ok found => cases found <;> rfl

/-- Bytes behind an integer, or behind the last byte that it may have, are not looked at. -/
theorem decodeVarintLoopAt_append (result : UInt32) (read : Nat) (src more : Bytes)
    (settled : (decodeVarintLoopAt result read src).1 ≠ .ok none) :
    decodeVarintLoopAt result read (src ++ more) =
      ((decodeVarintLoopAt result read src).1, (decodeVarintLoopAt result read src).2 ++ more) := by
  induction src generalizing result read with
  | nil => exact absurd rfl settled
  | cons byte rest ih =>
    rw [List.cons_append]
    simp only [decodeVarintLoopAt] at settled ⊢
    cases shifted : shiftLeftU32 (byte &&& 0x7F).toUInt32 (read * 7) with
    | error fault => rfl
    | ok value =>
      simp only [shifted] at settled
      by_cases last : byte &&& 0x80 = 0
      · simp only [if_pos last]
      · simp only [if_neg last] at settled ⊢
        by_cases limit : read + 1 = defaultRemainingLengthFieldMaxLength
        · simp only [if_pos limit]
        · simp only [if_neg limit] at settled ⊢
          exact ih _ _ settled

/-- More bytes are awaited as long as all of them continue and the last may still follow. -/
theorem decodeVarintLoopAt_eq_none_iff {read : Nat} (few : read < 4) (result : UInt32)
    (src : Bytes) :
    (decodeVarintLoopAt result read src).1 = .ok none ↔
      read + src.length ≤ 3 ∧ ∀ byte ∈ src, byte &&& 0x80 ≠ 0 := by
  induction src generalizing result read with
  | nil =>
    refine iff_of_true rfl ⟨?_, by simp⟩
    exact Nat.le_of_lt_succ few
  | cons byte rest ih =>
    have shift : read * 7 < 32 := by omega
    have four : defaultRemainingLengthFieldMaxLength = 4 := rfl
    simp only [decodeVarintLoopAt, shiftLeftU32, if_pos shift, List.forall_mem_cons,
      List.length_cons]
    by_cases last : byte &&& 0x80 = 0
    · simp [last]
    · rw [if_neg last]
      by_cases limit : read + 1 = defaultRemainingLengthFieldMaxLength
      · rw [if_pos limit]
        refine iff_of_false (by simp) ?_
        rintro ⟨short, -⟩
        omega
      · rw [if_neg limit, ih (by omega)]
        constructor
        · rintro ⟨short, each⟩
          exact ⟨by omega, last, each⟩
        · rintro ⟨short, -, each⟩
          exact ⟨by omega, each⟩

/-- A header that is complete, or that can never be, is not changed by the bytes to come. -/
theorem decodeFixedHeaderAt_append {src : Bytes} (settled : (decodeFixedHeaderAt src).1 ≠ .ok none)
    (more : Bytes) :
    decodeFixedHeaderAt (src ++ more) =
      ((decodeFixedHeaderAt src).1, (decodeFixedHeaderAt src).2 ++ more) := by
  cases src with
  | nil => exact absurd rfl settled
  | cons firstByte src =>
    have inner : (decodeVarintLoopAt 0 0 src).1 ≠ .ok none := by
      intro none
      apply settled
      simp only [decodeFixedHeaderAt, decodeRemainingLengthAt, none]
      rfl
    simp only [List.cons_append, decodeFixedHeaderAt, decodeRemainingLengthAt,
      decodeVarintLoopAt_append 0 0 src more inner]

theorem decodeFixedHeaderAt_eq_none_iff (src : Bytes) :
    (decodeFixedHeaderAt src).1 = .ok none ↔
      src = [] ∨ ∃ firstByte rest, src = firstByte :: rest ∧ rest.length ≤ 3 ∧
        ∀ byte ∈ rest, byte &&& 0x80 ≠ 0 := by
  cases src with
  | nil => simp [decodeFixedHeaderAt]
  | cons firstByte src =>
    have inner := decodeVarintLoopAt_eq_none_iff (show 0 < 4 by decide) 0 src
    rw [Nat.zero_add] at inner
    have same : (decodeFixedHeaderAt (firstByte :: src)).1 = .ok none ↔
        (decodeVarintLoopAt 0 0 src).1 = .ok none := by
      simp only [decodeFixedHeaderAt, decodeRemainingLengthAt]
      cases (decodeVarintLoopAt 0 0 src).1 with
      | error fault => simp [Except.map]
      | ok found => cases found <;> simp [Except.map]
    rw [same, inner]
    constructor
    · rintro ⟨short, each⟩
      exact .inr ⟨firstByte, src, rfl, short, each⟩
    · rintro (empty | ⟨first, rest, split, short, each⟩)
      · cases empty
      · cases split
        exact ⟨short, each⟩

/-- An integer below `2 ^ 28` is put as its shortest code, which is read back in front of any
bytes, and a larger one is refused. A header that is complete or invalid stays so, at the same
length, however the bytes go on; it is awaited exactly while its last byte may still come. -/
theorem varint_header_exact :
    (∀ n : UInt32, n.toNat < 2 ^ 28 → ∃ code, IsCode n code ∧
      ∀ {A : Type} [LawfulAccumulator A UInt8] (dst : A),
        LawfulAccumulator.HasRoom dst code.length → ∃ next, (encodeVarint n).run dst = .ok next ∧
          LawfulAccumulator.contents next = LawfulAccumulator.contents dst ++ code) ∧
    (∀ n : UInt32, 2 ^ 28 ≤ n.toNat → ∀ {A : Type} [Accumulator A UInt8] (dst : A),
      ∃ error, (encodeVarint n).run dst = .error (.error error) ∧
        (error = .insufficientBuffer ∨ error = .varintTooHigh n)) ∧
    (∀ src, decodeFixedHeader src =
      (decodeFixedHeaderAt src).1.map (·, (decodeFixedHeaderAt src).2)) ∧
    (∀ src more, (decodeFixedHeaderAt src).1 ≠ .ok none →
      (decodeFixedHeaderAt (src ++ more)).1 = (decodeFixedHeaderAt src).1 ∧
        (decodeFixedHeaderAt (src ++ more)).2 = (decodeFixedHeaderAt src).2 ++ more ∧
        fixedHeaderLen (src ++ more) = fixedHeaderLen src) ∧
    ∀ src, (decodeFixedHeaderAt src).1 = .ok none ↔
      src = [] ∨ ∃ firstByte rest, src = firstByte :: rest ∧ rest.length ≤ 3 ∧
        ∀ byte ∈ rest, byte &&& 0x80 ≠ 0 := by
  refine ⟨?_, ?_, decodeFixedHeader_at, ?_, decodeFixedHeaderAt_eq_none_iff⟩
  · intro n small
    refine ⟨(encodeVarint n).items, isCode_encodeVarint small, ?_⟩
    intro A _ dst room
    have trips := roundTrips_varint n (by simpa using small)
    apply trips.emits.run
    rwa [encodeVarint, room_varintLoop]
  · intro n large A _ dst
    have fails : ¬ (encodeVarint n).Succeeds := by
      rw [succeeds_varint, varintMax]
      omega
    obtain ⟨put, member, fault, faulty, failed⟩ := Encoder.run_error fails dst
    have blame := fault_varintLoop n n defaultRemainingLengthFieldMaxLength put member fault faulty
    rcases blame with rfl | rfl
    · exact ⟨_, failed, .inl rfl⟩
    · exact ⟨_, failed, .inr rfl⟩
  · intro src more settled
    have same := decodeFixedHeaderAt_append settled more
    refine ⟨by rw [same], by rw [same], ?_⟩
    rw [fixedHeaderLen, fixedHeaderLen, same, List.length_append, List.length_append]
    exact Nat.add_sub_add_right _ _ _

end MqttClient.Proto
