import MqttClient.Io.Accumulator
import MqttClient.Lib.Framing
import MqttClient.Lib.Transition
import MqttClient.Proto.CodecSpec

/-! The reader: it cuts the stream into packets. A call of `read` may be dropped while it
waits for the stream. What has arrived by then stays in the buffer, and the next call starts
over from there. -/

namespace MqttClient.Io

open Lib Proto

structure RawPacket where
  firstByte : UInt8
  rest : Bytes
  deriving DecidableEq, Repr

inductive ReadError where
  | unexpectedEof
  /-- The stream failed. -/
  | stream
  | decode (fault : Fault)
  /-- The buffer pool is at capacity. -/
  | pool
  deriving DecidableEq, Repr

/-- What the stream answers to one read: one byte and up to some number of further ones, as
far as there are any and there is room for them, or a failure. -/
inductive Arrival where
  | ready (further : Nat)
  | fails
  deriving DecidableEq, Repr

structure ReadableStream where
  unread : Bytes

structure Reader (O : Type) where
  inner : ReadableStream
  buf : O

/-- How a call of `read` ends. It is dropped when it is not polled any more. -/
inductive ReadOutcome where
  | packet (raw : RawPacket)
  | error (error : ReadError)
  | dropped
  deriving DecidableEq, Repr

structure FixedHeader where
  fixedHeaderLen : Nat
  firstByte : UInt8
  remainingLength : Nat

def FixedHeader.total (header : FixedHeader) : Nat := header.fixedHeaderLen + header.remainingLength

namespace Reader

variable {O : Type} [Owned O]

def filled (reader : Reader O) : Bytes := Owned.filled reader.buf

/-- Read once into the unfilled region. -/
def fillBuf (reader : Reader O) (arrival : Arrival) : Reader O × Option ReadError :=
  let dst := Owned.unfilledMut reader.buf
  match arrival with
  | .fails => ({ reader with buf := dst }, some .stream)
  | .ready further =>
    let read := reader.inner.unread.take (min (further + 1) (Owned.unfilledLen dst))
    let reader : Reader O :=
      { inner := ⟨reader.inner.unread.drop read.length⟩, buf := Owned.fill dst read }
    (reader, if read.length = 0 then some .unexpectedEof else none)

def fixedHeader (reader : Reader O) : Except Fault (Option FixedHeader) :=
  match decodeFixedHeader reader.filled with
  | .error fault => .error fault
  | .ok (none, _) => .ok none
  | .ok (some (firstByte, remainingLength), rest) =>
    .ok (some ⟨reader.filled.length - rest.length, firstByte, remainingLength⟩)

/-- The loop that reads until there is a fixed header. -/
def headerLoop (reader : Reader O) (arrivals : List Arrival) :
    Reader O × List Arrival × Except ReadOutcome FixedHeader :=
  match reader.fixedHeader with
  | .error fault => (reader, arrivals, .error (.error (.decode fault)))
  | .ok (some header) => (reader, arrivals, .ok header)
  | .ok none =>
    match Owned.reserve reader.buf 5 with
    | none => (reader, arrivals, .error (.error .pool))
    | some buf =>
      match arrivals with
      | [] => ({ reader with buf }, [], .error .dropped)
      | arrival :: arrivals =>
        match fillBuf { reader with buf } arrival with
        | (reader, some error) => (reader, arrivals, .error (.error error))
        | (reader, none) => headerLoop reader arrivals

/-- The loop that reads until there is a packet of this length. -/
def bodyLoop (total : Nat) (reader : Reader O) (arrivals : List Arrival) :
    Reader O × Option ReadOutcome :=
  if reader.filled.length < total then
    match arrivals with
    | [] => (reader, some .dropped)
    | arrival :: arrivals =>
      match reader.fillBuf arrival with
      | (reader, some error) => (reader, some (.error error))
      | (reader, none) => bodyLoop total reader arrivals
  else (reader, none)

/-- Room for the bytes of the packet that are not in the buffer yet. -/
def reserveBody (reader : Reader O) (total : Nat) : Option O :=
  if reader.filled.length ≤ total then Owned.reserve reader.buf (total - reader.filled.length)
  else some reader.buf

def read (reader : Reader O) (arrivals : List Arrival) : Reader O × ReadOutcome :=
  match reader.headerLoop arrivals with
  | (reader, _, .error outcome) => (reader, outcome)
  | (reader, arrivals, .ok header) =>
    match reader.reserveBody header.total with
    | none => (reader, .error .pool)
    | some buf =>
      match bodyLoop header.total { reader with buf } arrivals with
      | (reader, some outcome) => (reader, outcome)
      | (reader, none) =>
        let (rest, buf) :=
          Owned.splitTo (Owned.drain reader.buf header.fixedHeaderLen) header.remainingLength
        ({ reader with buf }, .packet ⟨header.firstByte, Owned.filled rest⟩)

/-- The bytes that no packet has been made of yet. -/
def pending (reader : Reader O) : Bytes := reader.filled ++ reader.inner.unread

end Reader

/-- The length field: at most `left` bytes, the least significant seven bits first, where all
but the last have their high bit set. -/
def lengthField : Nat → Bytes → Frame UInt8 Nat
  | 0, _ => .invalid
  | _ + 1, [] => .incomplete
  | left + 1, byte :: src =>
    if byte.toNat < 128 then .complete byte.toNat src
    else
      match lengthField left src with
      | .complete high rest => .complete (byte.toNat - 128 + 128 * high) rest
      | .incomplete => .incomplete
      | .invalid => .invalid

/-- A packet on the wire: its first byte, its length and as many bytes. -/
def nextPacket : Bytes → Frame UInt8 RawPacket
  | [] => .incomplete
  | firstByte :: src =>
    match lengthField 4 src with
    | .complete length rest =>
      if length ≤ rest.length then .complete ⟨firstByte, rest.take length⟩ (rest.drop length)
      else .incomplete
    | .incomplete => .incomplete
    | .invalid => .invalid

theorem lengthField_complete {left length : Nat} {src rest : Bytes}
    (complete : lengthField left src = .complete length rest) :
    rest <:+ src ∧ rest.length < src.length ∧
      ∀ more, lengthField left (src ++ more) = .complete length (rest ++ more) := by
  induction left generalizing src length with
  | zero => cases complete
  | succ left ih =>
    cases src with
    | nil => cases complete
    | cons byte src =>
      simp only [lengthField] at complete
      by_cases last : byte.toNat < 128
      · simp only [last, if_true, Frame.complete.injEq] at complete
        obtain ⟨rfl, rfl⟩ := complete
        exact ⟨List.suffix_cons _ _, Nat.lt_succ_self _, fun more => by simp [lengthField, last]⟩
      · simp only [last, if_false] at complete
        cases field : lengthField left src with
        | incomplete => simp [field] at complete
        | invalid => simp [field] at complete
        | complete high other =>
          simp only [field, Frame.complete.injEq] at complete
          obtain ⟨rfl, rfl⟩ := complete
          obtain ⟨inside, shorter, appended⟩ := ih field
          refine ⟨inside.trans (List.suffix_cons _ _), Nat.lt_succ_of_lt shorter, fun more => ?_⟩
          simp [lengthField, last, appended more]

theorem lengthField_invalid {left : Nat} {src : Bytes} (invalid : lengthField left src = .invalid)
    (more : Bytes) : lengthField left (src ++ more) = .invalid := by
  induction left generalizing src with
  | zero => rfl
  | succ left ih =>
    cases src with
    | nil => cases invalid
    | cons byte src =>
      simp only [lengthField] at invalid
      by_cases last : byte.toNat < 128
      · simp [last] at invalid
      · simp only [last, if_false] at invalid
        cases field : lengthField left src with
        | incomplete => simp [field] at invalid
        | complete high rest => simp [field] at invalid
        | invalid => simp [lengthField, last, ih field]

/-- The reference framing. -/
def packetFramer : Framer UInt8 RawPacket where
  next := nextPacket
  shorter src raw rest complete := by
    cases src with
    | nil => cases complete
    | cons firstByte src =>
      simp only [nextPacket] at complete
      cases field : lengthField 4 src with
      | incomplete => simp [field] at complete
      | invalid => simp [field] at complete
      | complete length body =>
        have shorter := (lengthField_complete field).2.1
        simp only [field] at complete
        split at complete
        · cases complete
          simp only [List.length_drop, List.length_cons]
          omega
        · cases complete
  complete_append src raw rest more complete := by
    cases src with
    | nil => cases complete
    | cons firstByte src =>
      simp only [nextPacket] at complete
      cases field : lengthField 4 src with
      | incomplete => simp [field] at complete
      | invalid => simp [field] at complete
      | complete length body =>
        have appended := (lengthField_complete field).2.2 more
        simp only [field] at complete
        split at complete
        · rename_i fits
          cases complete
          have longer : length ≤ body.length + more.length := by omega
          simp [nextPacket, appended, longer, List.take_append_of_le_length fits,
            List.drop_append_of_le_length fits]
        · cases complete
  invalid_append src more invalid := by
    cases src with
    | nil => cases invalid
    | cons firstByte src =>
      simp only [nextPacket] at invalid
      cases field : lengthField 4 src with
      | incomplete => simp [field] at invalid
      | invalid => simp [nextPacket, lengthField_invalid field]
      | complete length body =>
        simp only [field] at invalid
        split at invalid <;> cases invalid

/-- The loop reads the length field of the reference. -/
theorem decodeVarintLoop_lengthField (src : Bytes) {result : UInt32} {read left : Nat}
    (all : left + read = 4) (positive : 0 < left) (below : result.toNat < 128 ^ read) :
    match lengthField left src with
    | .complete length rest => ∃ value : UInt32, value.toNat = result.toNat + length * 128 ^ read ∧
        decodeVarintLoop result read src = .ok (some value, rest)
    | .incomplete => decodeVarintLoop result read src = .ok (none, [])
    | .invalid => decodeVarintLoop result read src = .error (.error .varintTooHigh) := by
  induction src generalizing result read left with
  | nil =>
    obtain ⟨left, rfl⟩ := Nat.exists_eq_succ_of_ne_zero (Nat.ne_of_gt positive)
    rfl
  | cons byte src ih =>
    obtain ⟨left, rfl⟩ := Nat.exists_eq_succ_of_ne_zero (Nat.ne_of_gt positive)
    have few : read < 4 := by omega
    have digit := byte_low byte
    have value := varint_or result (byte &&& 0x7F).toUInt32 few below (by omega)
    rw [decodeVarintLoop_cons few]
    simp only [lengthField]
    by_cases last : byte.toNat < 128
    · simp only [last, if_true]
      refine ⟨_, ?_, rfl⟩
      rw [value, digit, Nat.mod_eq_of_lt last]
    · simp only [last, if_false]
      have low : (byte &&& 0x7F).toUInt32.toNat = byte.toNat - 128 := by
        have bound := byte.toNat_lt
        omega
      rw [low] at value
      cases left with
      | zero =>
        obtain rfl : read = 3 := by omega
        rfl
      | succ left =>
        have more : ¬ read + 1 = 4 := by omega
        simp only [more, if_false]
        have above : (result ||| (byte &&& 0x7F).toUInt32 <<< UInt32.ofNat (read * 7)).toNat <
            128 ^ (read + 1) := by
          have power : 128 ^ (read + 1) = 128 * 128 ^ read := by ring
          have small : byte.toNat - 128 ≤ 127 := by
            have bound := byte.toNat_lt
            omega
          have product := Nat.mul_le_mul_right (128 ^ read) small
          omega
        have rest := @ih _ (read + 1) (left + 1) (by omega) (Nat.succ_pos _) above
        cases field : lengthField (left + 1) src with
        | incomplete => simpa [field] using rest
        | invalid => simpa [field] using rest
        | complete high tail =>
          simp only [field] at rest ⊢
          obtain ⟨final, total, decoded⟩ := rest
          refine ⟨final, ?_, decoded⟩
          rw [total, value]
          ring

theorem decodeFixedHeader_lengthField (firstByte : UInt8) (src : Bytes) :
    decodeFixedHeader (firstByte :: src) =
      match lengthField 4 src with
      | .complete length rest => .ok (some (firstByte, length), rest)
      | .incomplete => .ok (none, [])
      | .invalid => .error (.error .varintTooHigh) := by
  have loop := @decodeVarintLoop_lengthField src 0 0 4 rfl (by decide) (by simp)
  cases field : lengthField 4 src with
  | incomplete =>
    simp only [field] at loop
    simp [decodeFixedHeader, decodeRemainingLength, decodeVarint, Decoder.bind_apply, loop,
      Decoder.pure_apply]
  | invalid =>
    simp only [field] at loop
    simp [decodeFixedHeader, decodeRemainingLength, decodeVarint, Decoder.bind_apply, loop]
  | complete length rest =>
    simp only [field] at loop
    obtain ⟨value, total, decoded⟩ := loop
    have same : value.toNat = length := by simpa using total
    simp [decodeFixedHeader, decodeRemainingLength, decodeVarint, Decoder.bind_apply, decoded,
      Decoder.pure_apply, same]

namespace Reader

variable {O : Type} [LawfulOwned O]

/-- What one read does, if there is room for a byte. -/
theorem fillBuf_spec {reader next : Reader O} {arrival : Arrival} {error : Option ReadError}
    (room : 0 < Owned.unfilledLen reader.buf) (ran : reader.fillBuf arrival = (next, error)) :
    next.pending = reader.pending ∧
      reader.filled.length + Owned.unfilledLen reader.buf ≤
        next.filled.length + Owned.unfilledLen next.buf ∧
      (error = none ∧ reader.filled <+: next.filled ∧
          next.inner.unread.length < reader.inner.unread.length ∨
        error = some .unexpectedEof ∧ next.inner.unread = [] ∧ next.filled = reader.filled ∨
        error = some .stream ∧ arrival = .fails) := by
  have same := LawfulOwned.filled_unfilledMut reader.buf
  have grown := LawfulOwned.unfilledLen_unfilledMut reader.buf
  cases arrival with
  | fails =>
    simp only [fillBuf, Prod.mk.injEq] at ran
    obtain ⟨rfl, rfl⟩ := ran
    refine ⟨by simp [pending, filled, same], ?_, .inr (.inr ⟨rfl, rfl⟩)⟩
    simp only [filled, same]
    omega
  | ready further =>
    simp only [fillBuf] at ran
    generalize taken : reader.inner.unread.take
      (min (further + 1) (Owned.unfilledLen (Owned.unfilledMut reader.buf))) = read at ran
    obtain ⟨rfl, rfl⟩ := Prod.mk.inj ran
    have fits : read.length ≤ Owned.unfilledLen (Owned.unfilledMut reader.buf) := by
      rw [← taken, List.length_take]
      omega
    have front : read <+: reader.inner.unread := taken ▸ List.take_prefix _ _
    have joined : read ++ reader.inner.unread.drop read.length = reader.inner.unread :=
      List.prefix_iff_eq_append.mp front
    have held := LawfulOwned.filled_fill _ _ fits
    have left := LawfulOwned.unfilledLen_fill _ _ fits
    refine ⟨?_, ?_, ?_⟩
    · simp only [pending, filled, held, same, List.append_assoc, joined]
    · simp only [filled, held, same, left, List.length_append]
      omega
    · by_cases nothing : read.length = 0
      · have none : read = [] := List.length_eq_zero_iff.mp nothing
        have ended : reader.inner.unread = [] := by
          rw [none] at taken
          rcases List.take_eq_nil_iff.mp taken with zero | ended
          · omega
          · exact ended
        refine .inr (.inl ⟨if_pos nothing, by simp [ended], ?_⟩)
        rw [filled, held, none, List.append_nil]
        exact same
      · refine .inl ⟨if_neg nothing, ⟨read, by simp [filled, held, same]⟩, ?_⟩
        have some := front.length_le
        simp only [List.length_drop]
        omega

/-- A fixed header in the buffer decides what the packet is, once it is all there. -/
theorem fixedHeader_spec {reader : Reader O} {header : FixedHeader}
    (found : reader.fixedHeader = .ok (some header)) {longer : Bytes}
    (begins : reader.filled <+: longer) :
    nextPacket longer =
      if header.total ≤ longer.length then
        .complete ⟨header.firstByte, (longer.drop header.fixedHeaderLen).take header.remainingLength⟩
          (longer.drop header.total)
      else .incomplete := by
  obtain ⟨more, rfl⟩ := begins
  simp only [fixedHeader] at found
  generalize reader.filled = filled at found
  cases filled with
  | nil => cases found
  | cons firstByte src =>
    rw [decodeFixedHeader_lengthField] at found
    cases field : lengthField 4 src with
    | incomplete => simp [field] at found
    | invalid => simp [field] at found
    | complete length rest =>
      simp only [field, Except.ok.injEq, Option.some.injEq] at found
      subst header
      obtain ⟨inside, shorter, appended⟩ := lengthField_complete field
      obtain ⟨bytes, rfl⟩ := inside
      have used : (firstByte :: (bytes ++ rest)).length - rest.length = bytes.length + 1 := by
        simp only [List.length_cons, List.length_append]
        omega
      have body : (firstByte :: (bytes ++ rest) ++ more).drop (bytes.length + 1) = rest ++ more := by
        simp
      have whole : (firstByte :: (bytes ++ rest) ++ more).length =
          bytes.length + 1 + (rest ++ more).length := by
        simp only [List.length_cons, List.length_append]
        omega
      simp only [FixedHeader.total, used, whole, Nat.add_le_add_iff_left, ← List.drop_drop, body]
      simp only [List.cons_append, nextPacket, appended]

theorem fixedHeader_none {reader : Reader O} (found : reader.fixedHeader = .ok none) :
    nextPacket reader.filled = .incomplete := by
  simp only [fixedHeader] at found
  generalize reader.filled = filled at found
  cases filled with
  | nil => rfl
  | cons firstByte src =>
    rw [decodeFixedHeader_lengthField] at found
    cases field : lengthField 4 src with
    | incomplete => simp [nextPacket, field]
    | invalid => simp [field] at found
    | complete length rest => simp [field] at found

theorem fixedHeader_error {reader : Reader O} {fault : Fault}
    (found : reader.fixedHeader = .error fault) :
    fault = .error .varintTooHigh ∧ nextPacket reader.filled = .invalid := by
  simp only [fixedHeader] at found
  generalize reader.filled = filled at found
  cases filled with
  | nil => cases found
  | cons firstByte src =>
    rw [decodeFixedHeader_lengthField] at found
    cases field : lengthField 4 src with
    | incomplete => simp [field] at found
    | invalid =>
      simp only [field, Except.error.injEq] at found
      exact ⟨found.symm, by simp [nextPacket, field]⟩
    | complete length rest => simp [field] at found

/-- A call that returns no packet leaves all bytes for the next one. It is dropped only if
the stream has brought a byte each time it was polled. -/
inductive Stops (reader : Reader O) (arrivals : List Arrival) : Reader O → ReadOutcome → Prop where
  | dropped {next : Reader O} (kept : next.pending = reader.pending)
    (few : arrivals.length + next.inner.unread.length ≤ reader.inner.unread.length) :
    Stops reader arrivals next .dropped
  | ended {next : Reader O} (kept : next.pending = reader.pending)
    (all : next.inner.unread = []) (incomplete : nextPacket reader.pending = .incomplete) :
    Stops reader arrivals next (.error .unexpectedEof)
  | invalid {next : Reader O} (kept : next.pending = reader.pending)
    (invalid : nextPacket reader.pending = .invalid) :
    Stops reader arrivals next (.error (.decode (.error .varintTooHigh)))
  | failed {next : Reader O} (kept : next.pending = reader.pending)
    (cause : .fails ∈ arrivals) : Stops reader arrivals next (.error .stream)
  | starved {next : Reader O} (kept : next.pending = reader.pending)
    (cause : ∃ (owned : O) (additional : Nat), Owned.reserve owned additional = none) :
    Stops reader arrivals next (.error .pool)

/-- A call that goes on after some arrivals stops as what is left of it does. -/
theorem Stops.after {reader middle next : Reader O} {outcome : ReadOutcome}
    {arrivals rest : List Arrival} (stops : Stops middle rest next outcome)
    (kept : middle.pending = reader.pending) (later : rest <:+ arrivals)
    (moved : arrivals.length + middle.inner.unread.length ≤
      rest.length + reader.inner.unread.length) : Stops reader arrivals next outcome := by
  cases stops with
  | dropped same few => exact .dropped (same.trans kept) (by omega)
  | ended same all incomplete => exact .ended (same.trans kept) all (kept ▸ incomplete)
  | invalid same invalid => exact .invalid (same.trans kept) (kept ▸ invalid)
  | failed same cause => exact .failed (same.trans kept) (later.subset cause)
  | starved same cause => exact .starved (same.trans kept) cause

/-- The first loop keeps all bytes, and ends with a fixed header or as the call does. -/
inductive Heads (reader : Reader O) (arrivals : List Arrival) :
    Reader O × List Arrival × Except ReadOutcome FixedHeader → Prop where
  | found {next : Reader O} {rest : List Arrival} {header : FixedHeader}
    (kept : next.pending = reader.pending) (parsed : next.fixedHeader = .ok (some header))
    (later : rest <:+ arrivals)
    (moved : arrivals.length + next.inner.unread.length ≤
      rest.length + reader.inner.unread.length) : Heads reader arrivals (next, rest, .ok header)
  | stopped {next : Reader O} {rest : List Arrival} {outcome : ReadOutcome}
    (stops : Stops reader arrivals next outcome) : Heads reader arrivals (next, rest, .error outcome)

theorem Heads.after {reader middle : Reader O} {arrivals rest : List Arrival}
    {result : Reader O × List Arrival × Except ReadOutcome FixedHeader}
    (heads : Heads middle rest result) (kept : middle.pending = reader.pending)
    (later : rest <:+ arrivals)
    (moved : arrivals.length + middle.inner.unread.length ≤
      rest.length + reader.inner.unread.length) : Heads reader arrivals result := by
  cases heads with
  | found same parsed last fewer =>
    exact .found (same.trans kept) parsed (last.trans later) (by omega)
  | stopped stops => exact .stopped (stops.after kept later moved)

theorem headerLoop_spec (reader : Reader O) (arrivals : List Arrival) :
    Heads reader arrivals (reader.headerLoop arrivals) := by
  induction arrivals generalizing reader with
  | nil =>
    rw [headerLoop]
    split
    · rename_i fault found
      obtain ⟨rfl, invalid⟩ := fixedHeader_error found
      exact .stopped (.invalid rfl (packetFramer.invalid_append _ _ invalid))
    · rename_i header found
      exact .found rfl found List.suffix_rfl (Nat.le_refl _)
    · split
      · rename_i reserved
        exact .stopped (.starved rfl ⟨_, _, reserved⟩)
      · rename_i buf reserved
        have same := (LawfulOwned.filled_reserve _ _ _ reserved).1
        exact .stopped (.dropped (by simp [pending, filled, same]) (by simp))
  | cons arrival arrivals ih =>
    rw [headerLoop]
    split
    · rename_i fault found
      obtain ⟨rfl, invalid⟩ := fixedHeader_error found
      exact .stopped (.invalid rfl (packetFramer.invalid_append _ _ invalid))
    · rename_i header found
      exact .found rfl found List.suffix_rfl (Nat.le_refl _)
    · rename_i found
      split
      · rename_i reserved
        exact .stopped (.starved rfl ⟨_, _, reserved⟩)
      · rename_i buf reserved
        obtain ⟨same, room⟩ := LawfulOwned.filled_reserve _ _ _ reserved
        have unmoved : (⟨reader.inner, buf⟩ : Reader O).pending = reader.pending := by
          simp [pending, filled, same]
        dsimp only
        generalize ran : fillBuf (⟨reader.inner, buf⟩ : Reader O) arrival = result
        obtain ⟨middle, error⟩ := result
        obtain ⟨kept, -, ends⟩ := fillBuf_spec (show 0 < Owned.unfilledLen buf by omega) ran
        have kept := kept.trans unmoved
        rcases ends with ⟨rfl, -, fewer⟩ | ⟨rfl, all, unchanged⟩ | ⟨rfl, rfl⟩
        · refine (ih middle).after kept (List.suffix_cons _ _) ?_
          simp only [List.length_cons] at fewer ⊢
          omega
        · refine .stopped (.ended kept all ?_)
          -- The stream is at its end, so the header is all that there is.
          have everything : reader.pending = reader.filled := by
            rw [← kept, pending, all, List.append_nil, unchanged]
            simp [filled, same]
          rw [everything]
          exact fixedHeader_none found
        · exact .stopped (.failed kept List.mem_cons_self)

/-- The second loop, where the fixed header is known and the packet fits into the buffer. -/
theorem bodyLoop_spec {total : Nat} (reader : Reader O) (arrivals : List Arrival)
    (room : total ≤ reader.filled.length + Owned.unfilledLen reader.buf)
    (waits : ∀ longer, reader.filled <+: longer → longer.length < total →
      nextPacket longer = .incomplete) :
    ∃ next outcome, bodyLoop total reader arrivals = (next, outcome) ∧
      (outcome = none ∧ next.pending = reader.pending ∧ reader.filled <+: next.filled ∧
          total ≤ next.filled.length ∨
        ∃ stop, outcome = some stop ∧ Stops reader arrivals next stop) := by
  induction arrivals generalizing reader with
  | nil =>
    rw [bodyLoop]
    by_cases short : reader.filled.length < total
    · rw [if_pos short]
      exact ⟨_, _, rfl, .inr ⟨_, rfl, .dropped rfl (by simp)⟩⟩
    · rw [if_neg short]
      exact ⟨_, _, rfl, .inl ⟨rfl, rfl, List.prefix_rfl, by omega⟩⟩
  | cons arrival arrivals ih =>
    rw [bodyLoop]
    by_cases short : reader.filled.length < total
    · rw [if_pos short]
      generalize ran : reader.fillBuf arrival = result
      obtain ⟨middle, error⟩ := result
      obtain ⟨kept, sum, ends⟩ := fillBuf_spec (show 0 < Owned.unfilledLen reader.buf by omega) ran
      rcases ends with ⟨rfl, grows, fewer⟩ | ⟨rfl, all, unchanged⟩ | ⟨rfl, rfl⟩
      · obtain ⟨next, outcome, loop, spec⟩ := ih middle (by omega)
          fun longer begins => waits longer (grows.trans begins)
        refine ⟨next, outcome, loop, ?_⟩
        rcases spec with ⟨done, same, begins, enough⟩ | ⟨stop, failed, stops⟩
        · exact .inl ⟨done, same.trans kept, grows.trans begins, enough⟩
        · refine .inr ⟨stop, failed, stops.after kept (List.suffix_cons _ _) ?_⟩
          simp only [List.length_cons]
          omega
      · refine ⟨_, _, rfl, .inr ⟨_, rfl, .ended kept all ?_⟩⟩
        have everything : reader.pending = reader.filled := by
          rw [← kept, pending, all, List.append_nil, unchanged]
        rw [everything]
        exact waits _ List.prefix_rfl short
      · exact ⟨_, _, rfl, .inr ⟨_, rfl, .failed kept List.mem_cons_self⟩⟩
    · rw [if_neg short]
      exact ⟨_, _, rfl, .inl ⟨rfl, rfl, List.prefix_rfl, by omega⟩⟩

theorem reserveBody_spec {reader : Reader O} {total : Nat} {buf : O}
    (reserved : reader.reserveBody total = some buf) :
    Owned.filled buf = reader.filled ∧ total ≤ reader.filled.length + Owned.unfilledLen buf := by
  unfold reserveBody at reserved
  split at reserved
  · obtain ⟨same, room⟩ := LawfulOwned.filled_reserve _ _ _ reserved
    exact ⟨same, by omega⟩
  · cases reserved
    exact ⟨rfl, by omega⟩

/-- A call returns the packet that comes next in the reference framing, or no packet. -/
inductive Reads (reader : Reader O) (arrivals : List Arrival) : Reader O × ReadOutcome → Prop where
  | packet {next : Reader O} {raw : RawPacket}
    (complete : nextPacket reader.pending = .complete raw next.pending) :
    Reads reader arrivals (next, .packet raw)
  | stopped {next : Reader O} {outcome : ReadOutcome}
    (stops : Stops reader arrivals next outcome) : Reads reader arrivals (next, outcome)

theorem read_spec (reader : Reader O) (arrivals : List Arrival) :
    Reads reader arrivals (reader.read arrivals) := by
  have heads := headerLoop_spec reader arrivals
  unfold read
  generalize reader.headerLoop arrivals = result at heads
  cases heads with
  | stopped stops => exact .stopped stops
  | @found middle rest header kept parsed later moved =>
    dsimp only
    cases reserved : middle.reserveBody header.total with
    | none =>
      refine .stopped (.starved kept ?_)
      unfold reserveBody at reserved
      split at reserved
      · exact ⟨_, _, reserved⟩
      · cases reserved
    | some buf =>
      obtain ⟨same, room⟩ := reserveBody_spec reserved
      have unmoved : (⟨middle.inner, buf⟩ : Reader O).pending = middle.pending := by
        simp only [pending, filled, same]
      have waits : ∀ longer, middle.filled <+: longer → longer.length < header.total →
          nextPacket longer = .incomplete := by
        intro longer begins short
        rw [fixedHeader_spec parsed begins, if_neg (by omega)]
      obtain ⟨last, outcome, loop, spec⟩ := bodyLoop_spec (⟨middle.inner, buf⟩ : Reader O) rest
        (by simpa only [filled, same] using room)
        (by simpa only [filled, same] using waits)
      simp only [loop]
      rcases spec with ⟨rfl, lastKept, begins, enough⟩ | ⟨stop, rfl, stops⟩
      · have begins : middle.filled <+: last.filled := by simpa only [filled, same] using begins
        refine .packet ?_
        have inside : header.fixedHeaderLen ≤ (Owned.filled last.buf).length := by
          have within : header.fixedHeaderLen ≤ header.total := Nat.le_add_right _ _
          exact within.trans enough
        have drained := LawfulOwned.filled_drain last.buf _ inside
        have body : header.remainingLength ≤
            (Owned.filled (Owned.drain last.buf header.fixedHeaderLen)).length := by
          rw [drained, List.length_drop]
          simp only [FixedHeader.total, filled] at enough
          omega
        obtain ⟨front, back⟩ := LawfulOwned.filled_splitTo _ _ body
        rw [← kept, ← unmoved, ← lastKept]
        refine (packetFramer.complete_append _ _ _ last.inner.unread
          ((fixedHeader_spec parsed begins).trans (if_pos enough))).trans ?_
        simp only [pending, filled, front, back, drained, List.drop_drop, FixedHeader.total]
      · exact .stopped (stops.after (unmoved.trans kept) later moved)

end Reader

/-- A reader in use, and the packets it has returned. -/
structure Reading (O : Type) where
  reader : Reader O
  packets : List RawPacket := []

namespace Reading

variable {O : Type}

def new (stream : Bytes) (buf : O) : Reading O := { reader := ⟨⟨stream⟩, buf⟩ }

/-- One call of `read`, which is polled until these arrivals are used up. If it has not
returned by then, it is dropped. -/
def step [Owned O] (reading : Reading O) (arrivals : List Arrival) :
    Except (Reading O × ReadError) (Reading O) :=
  match reading.reader.read arrivals with
  | (reader, .packet raw) => .ok { reader, packets := reading.packets ++ [raw] }
  | (reader, .dropped) => .ok { reading with reader }
  | (reader, .error error) => .error ({ reading with reader }, error)

variable [LawfulOwned O]

/-- The packets so far are the start of the stream, and all the rest of it is still there. -/
def Valid (stream : Bytes) (reading : Reading O) : Prop :=
  packetFramer.Takes stream reading.packets reading.reader.pending

theorem step_ok {stream : Bytes} {reading next : Reading O} {arrivals : List Arrival}
    (valid : reading.Valid stream) (stepped : reading.step arrivals = .ok next) :
    next.Valid stream := by
  have reads := reading.reader.read_spec arrivals
  simp only [step] at stepped
  generalize reading.reader.read arrivals = result at reads stepped
  cases reads with
  | packet complete =>
    cases stepped
    exact .snoc valid complete
  | stopped stops =>
    cases stops with
    | dropped kept _ =>
      cases stepped
      rw [Valid, kept]
      exact valid
    | _ => cases stepped

theorem exec_valid {stream : Bytes} {reading next : Reading O} {calls : List (List Arrival)}
    (valid : reading.Valid stream) (ran : Transition.exec step reading calls = .ok next) :
    next.Valid stream :=
  Transition.exec_always (Valid stream) valid (fun _ _ _ kept stepped => step_ok kept stepped) ran

/-- Why the reading of a stream has ended. -/
structure Ended (stream : Bytes) (reading : Reading O) (error : ReadError) : Prop where
  valid : reading.Valid stream
  eof : error = .unexpectedEof → reading.reader.inner.unread = [] ∧
    nextPacket reading.reader.pending = .incomplete
  invalid : ∀ fault, error = .decode fault → fault = .error .varintTooHigh ∧
    nextPacket reading.reader.pending = .invalid
  starved : error = .pool → ∃ (owned : O) (additional : Nat), Owned.reserve owned additional = none

theorem step_error {stream : Bytes} {reading next : Reading O} {error : ReadError}
    {arrivals : List Arrival} (valid : reading.Valid stream)
    (stepped : reading.step arrivals = .error (next, error)) :
    next.Ended stream error ∧ (error = .stream → .fails ∈ arrivals) := by
  have reads := reading.reader.read_spec arrivals
  simp only [step] at stepped
  generalize reading.reader.read arrivals = result at reads stepped
  cases reads with
  | packet complete => cases stepped
  | @stopped reader outcome stops =>
    have same : ∀ {reader : Reader O}, reader.pending = reading.reader.pending →
        Valid stream ⟨reader, reading.packets⟩ := by
      intro reader kept
      rw [Valid, kept]
      exact valid
    cases stops with
    | dropped => cases stepped
    | ended kept all incomplete =>
      cases stepped
      exact ⟨⟨same kept, fun _ => ⟨all, kept ▸ incomplete⟩, nofun, nofun⟩, nofun⟩
    | invalid kept invalid =>
      cases stepped
      refine ⟨⟨same kept, nofun, fun fault found => ?_, nofun⟩, nofun⟩
      cases found
      exact ⟨rfl, kept ▸ invalid⟩
    | failed kept cause =>
      cases stepped
      exact ⟨⟨same kept, nofun, nofun, nofun⟩, fun _ => cause⟩
    | starved kept cause =>
      cases stepped
      exact ⟨⟨same kept, nofun, nofun, fun _ => cause⟩, nofun⟩

/-- A call that is polled often enough, with a stream that does not fail, returns what comes
next in the reference framing. -/
theorem step_returns (roomy : ∀ (owned : O) (additional : Nat),
      Owned.reserve owned additional ≠ none)
    (reading : Reading O) {arrivals : List Arrival} (healthy : .fails ∉ arrivals)
    (enough : reading.reader.inner.unread.length < arrivals.length) :
    match nextPacket reading.reader.pending with
    | .complete raw rest => ∃ reader : Reader O, reader.pending = rest ∧
        reading.step arrivals = .ok ⟨reader, reading.packets ++ [raw]⟩
    | .incomplete => ∃ next, reading.step arrivals = .error (next, .unexpectedEof)
    | .invalid => ∃ next,
        reading.step arrivals = .error (next, .decode (.error .varintTooHigh)) := by
  have reads := reading.reader.read_spec arrivals
  simp only [step]
  generalize reading.reader.read arrivals = result at reads ⊢
  cases reads with
  | @packet next raw complete =>
    rw [complete]
    exact ⟨next, rfl, rfl⟩
  | stopped stops =>
    cases stops with
    | dropped _ few => omega
    | ended _ _ incomplete =>
      rw [incomplete]
      exact ⟨_, rfl⟩
    | invalid _ invalid =>
      rw [invalid]
      exact ⟨_, rfl⟩
    | failed _ cause => exact absurd cause healthy
    | starved _ cause =>
      obtain ⟨owned, additional, none⟩ := cause
      exact absurd none (roomy owned additional)

end Reading

/-- The fixed header of a whole packet is taken off its front. -/
theorem scan_fixedHeader (firstByte : UInt8) (src : Bytes) :
    Decoding.scan (Decoding.required decodeFixedHeader) (firstByte :: src) =
      match lengthField 4 src with
      | .complete length rest => .ok ((firstByte, length), rest)
      | .incomplete => .error (.error .incompletePacket)
      | .invalid => .error (.error .varintTooHigh) := by
  have header := decodeFixedHeader_lengthField firstByte src
  cases field : lengthField 4 src with
  | incomplete =>
    simp only [field] at header
    simp [Decoding.scan, Decoding.required, header, Decoder.bind_apply, Decoding.reject,
      Decoder.fail]
  | invalid =>
    simp only [field] at header
    simp [Decoding.scan, Decoding.required, header, Decoder.bind_apply]
  | complete length rest =>
    simp only [field] at header
    obtain ⟨inside, -, -⟩ := lengthField_complete field
    have longer : rest.length ≤ src.length + 1 := Nat.le_succ_of_le inside.length_le
    have left : (firstByte :: src).drop (src.length + 1 - rest.length) = rest := by
      obtain ⟨bytes, rfl⟩ := inside
      have used : (bytes ++ rest).length + 1 - rest.length = bytes.length + 1 := by
        rw [List.length_append]
        omega
      rw [used]
      simp
    simp [Decoding.scan, Decoding.required, header, Decoder.bind_apply, Decoder.pure_apply, longer,
      left]

/-- A packet decoded from all its bytes is one packet of the framing, with nothing left. -/
theorem decodeFull_iff [UnicodeGeneralCategory] (src : Bytes) (version : ProtocolVersion)
    (packet : Packet) :
    Packet.decodeFull src version = .ok packet ↔
      ∃ raw, nextPacket src = .complete raw [] ∧
        (Packet.decode raw.firstByte version raw.rest).map Prod.fst = .ok packet := by
  cases src with
  | nil => simp [Packet.decodeFull, Packet.decodeFullAt, Decoding.scan, Decoding.required,
      decodeFixedHeader, Decoder.bind_apply, Decoding.reject, Decoder.fail, nextPacket, Except.map]
  | cons firstByte src =>
    have header := scan_fixedHeader firstByte src
    rw [Packet.decodeFull, Packet.decodeFullAt, Decoder.bind_apply, header]
    cases field : lengthField 4 src with
    | incomplete => simp [nextPacket, field, Except.map]
    | invalid => simp [nextPacket, field, Except.map]
    | complete length rest =>
      simp only [nextPacket, field, Decoder.bind_apply, Decoder.input]
      rcases Nat.lt_trichotomy rest.length length with short | rfl | long
      · simp [short, Decoding.reject, Decoder.fail, Except.map, Nat.not_le_of_lt short]
      · simp
      · have more : rest.drop length ≠ [] := by
          rw [ne_eq, List.drop_eq_nil_iff]
          omega
        simp [long, Nat.lt_asymm long, Decoding.reject, Decoder.fail, Except.map,
          Nat.le_of_lt long, more]

section

variable {O : Type} [LawfulOwned O]

theorem Reading.valid_new (stream : Bytes) {buf : O} (empty : Owned.filled buf = []) :
    (Reading.new stream buf).Valid stream := by
  have all : (Reading.new stream buf).reader.pending = stream := by
    simp [Reading.new, Reader.pending, Reader.filled, empty]
  rw [Reading.Valid, all]
  exact .nil stream

theorem Reading.ended_of_exec {stream : Bytes} {buf : O} (empty : Owned.filled buf = [])
    {calls : List (List Arrival)} {reading : Reading O} {error : ReadError}
    (ran : Transition.exec Reading.step (.new stream buf) calls = .error (reading, error)) :
    reading.Ended stream error := by
  obtain ⟨early, arrivals, middle, first, last⟩ := Transition.exec_error ran
  exact (Reading.step_error (Reading.exec_valid (Reading.valid_new stream empty) first) last).1

/-- At the end of a stream the packets read are all of its framing, unless the stream or
the pool failed. -/
theorem Reading.Ended.framing {stream : Bytes} {reading : Reading O} {error : ReadError}
    (ended : reading.Ended stream error) (clean : error ≠ .stream ∧ error ≠ .pool) :
    packetFramer.framing stream = (reading.packets, reading.reader.pending) := by
  apply ended.valid.framing_eq
  intro raw rest complete
  cases error with
  | unexpectedEof =>
    have incomplete := (ended.eof rfl).2
    exact absurd (complete.symm.trans incomplete) nofun
  | decode fault =>
    have invalid := (ended.invalid fault rfl).2
    exact absurd (complete.symm.trans invalid) nofun
  | stream => exact absurd rfl clean.1
  | pool => exact absurd rfl clean.2

/-- However the stream arrives and wherever calls are dropped, the reader returns the
packets of the reference framing, and a packet is decoded from a byte string exactly if it is
decoded from the one packet that the reader finds there. -/
theorem read_framing [UnicodeGeneralCategory] (stream : Bytes) {buf : O}
    (empty : Owned.filled buf = []) (calls : List (List Arrival)) :
    (∀ reading, Transition.exec Reading.step (.new stream buf) calls = .ok reading →
      packetFramer.Takes stream reading.packets reading.reader.pending ∧
        reading.packets <+: (packetFramer.framing stream).1 ∧
        ∀ arrivals, .fails ∉ arrivals → reading.reader.inner.unread.length < arrivals.length →
          (∀ (owned : O) (additional : Nat), Owned.reserve owned additional ≠ none) →
          match nextPacket reading.reader.pending with
          | .complete raw rest => ∃ reader : Reader O, reader.pending = rest ∧
              reading.step arrivals = .ok ⟨reader, reading.packets ++ [raw]⟩
          | .incomplete => ∃ next, reading.step arrivals = .error (next, .unexpectedEof)
          | .invalid => ∃ next,
              reading.step arrivals = .error (next, .decode (.error .varintTooHigh))) ∧
      ∀ reading error,
        Transition.exec Reading.step (.new stream buf) calls = .error (reading, error) →
        packetFramer.Takes stream reading.packets reading.reader.pending ∧
          reading.packets <+: (packetFramer.framing stream).1 ∧
          (error = .unexpectedEof → reading.reader.inner.unread = [] ∧
            packetFramer.framing stream = (reading.packets, reading.reader.pending) ∧
            nextPacket reading.reader.pending = .incomplete) ∧
          (∀ fault, error = .decode fault → fault = .error .varintTooHigh ∧
            packetFramer.framing stream = (reading.packets, reading.reader.pending) ∧
            nextPacket reading.reader.pending = .invalid) ∧
          (error ≠ .stream ∧ error ≠ .pool → ∀ version packet,
            Packet.decodeFull stream version = .ok packet ↔
              ∃ raw, reading.packets = [raw] ∧ reading.reader.pending = [] ∧
                (Packet.decode raw.firstByte version raw.rest).map Prod.fst = .ok packet) := by
  constructor
  · intro reading ran
    have valid := Reading.exec_valid (Reading.valid_new stream empty) ran
    refine ⟨valid, valid.isPrefix, ?_⟩
    intro arrivals healthy enough roomy
    exact reading.step_returns roomy healthy enough
  · intro reading error ran
    have ended := Reading.ended_of_exec empty ran
    refine ⟨ended.valid, ended.valid.isPrefix, ?_, ?_, ?_⟩
    · rintro rfl
      obtain ⟨all, incomplete⟩ := ended.eof rfl
      exact ⟨all, ended.framing (by simp), incomplete⟩
    · rintro fault rfl
      obtain ⟨tooHigh, invalid⟩ := ended.invalid fault rfl
      exact ⟨tooHigh, ended.framing (by simp), invalid⟩
    · intro clean version packet
      have framed := ended.framing clean
      have single : ∀ raw, nextPacket stream = .complete raw [] ↔
          reading.packets = [raw] ∧ reading.reader.pending = [] := by
        intro raw
        rw [← Prod.mk.injEq, ← framed]
        exact (@Framer.framing_eq_singleton _ _ packetFramer stream raw).symm
      simp only [decodeFull_iff, single, and_assoc]

end

/-- A call that is dropped inside the fixed header, and one that finds the end. -/
def droppedThenEnded : List (List Arrival) := [[.ready 0], [.ready 5], [.ready 0]]

theorem read_framing_pingResp :
    (∃ reading, Transition.exec Reading.step (.new [0xD0, 0x00] ({} : BytesMut)) droppedThenEnded =
      .error (reading, .unexpectedEof) ∧ reading.packets = [⟨0xD0, []⟩]) ∧
      ∀ reading, Transition.exec Reading.step (.new [0xD0, 0x00] ({} : BytesMut)) droppedThenEnded =
        .error (reading, .unexpectedEof) →
        packetFramer.framing [0xD0, 0x00] = (reading.packets, reading.reader.pending) := by
  refine ⟨⟨⟨⟨⟨[]⟩, ⟨[], 5⟩⟩, [⟨0xD0, []⟩]⟩, rfl, rfl⟩, fun reading ran => ?_⟩
  have framing := (@read_framing BytesMut inferInstance asciiCategory [0xD0, 0x00] {} rfl
    droppedThenEnded).2 reading .unexpectedEof ran
  exact (framing.2.2.1 rfl).2.1

end MqttClient.Io
