import MqttClient.Io.Reader
import MqttClient.Io.Writer
import MqttClient.Proto.Lengths

/-! A writer and a reader at the two ends of a connection: what is written packet by packet
is read packet by packet, wherever the bytes are split and wherever the connection ends. -/

namespace MqttClient.Io

open Lib Proto

/-- A packet as the reader hands it on: its first byte and its body. -/
def raw (packet : Packet) (version : ProtocolVersion) : RawPacket :=
  ⟨packet.packetType ||| packet.flags, (packet.encodeBody version).items⟩

theorem succeeds_of_encodes {packet : Packet} {version : ProtocolVersion}
    (encoded : encodes packet version = true) : (packet.encode version).Succeeds := by
  unfold encodes at encoded
  cases counted : (packet.encode version).run ({} : ByteCounter false) with
  | error fault => simp [counted, Except.isOk, Except.toBool] at encoded
  | ok counter => exact (counts_room counted).1

/-- The encoding of a packet is one packet of the framing. -/
theorem nextPacket_code {packet : Packet} {version : ProtocolVersion}
    (encoded : encodes packet version = true) :
    nextPacket (code packet version) = .complete (raw packet version) [] := by
  obtain ⟨field, items, length⟩ := (Packet.exactLengths (succeeds_of_encodes encoded)).header
  have header := decodeFixedHeader_lengthField (packet.packetType ||| packet.flags)
    (field ++ (packet.encodeBody version).items)
  rw [decodeFixedHeader_cons, Decoder.bind_apply, length] at header
  simp only [Decoder.pure_apply, Option.map_some] at header
  rw [code, items, nextPacket]
  cases found : lengthField 4 (field ++ (packet.encodeBody version).items) with
  | incomplete => simp [found] at header
  | invalid => simp [found] at header
  | complete count rest =>
    simp only [found, Except.ok.injEq, Prod.mk.injEq, Option.some.injEq, true_and] at header
    obtain ⟨rfl, rfl⟩ := header
    simp [raw]

theorem encodeBody_small {packet : Packet} {version : ProtocolVersion}
    (encoded : encodes packet version = true) :
    (packet.encodeBody version).size ≤ 268435455 := by
  obtain ⟨field, items, length⟩ := (Packet.exactLengths (succeeds_of_encodes encoded)).header
  obtain ⟨used, -, holds⟩ := ensures_remainingLength _ _ _ (length [])
  obtain ⟨-, few, below⟩ := holds _ rfl
  have power : 128 ^ used ≤ 128 ^ 4 := Nat.pow_le_pow_right (by decide) few
  have bound : (packet.encodeBody version).size < 268435456 := Nat.lt_of_lt_of_le below power
  omega

/-- The packet handed on is decoded to the one written. -/
theorem decode_raw [UnicodeGeneralCategory] {packet : Packet} {version : ProtocolVersion}
    (encoded : encodes packet version = true) (formed : packet.WellFormed version) :
    (Packet.decode (raw packet version).firstByte version (raw packet version).rest).map Prod.fst =
      .ok packet := by
  have read := Packet.readsAll_decode formed (encodeBody_small encoded)
  rw [Decoder.ReadsAll] at read
  rw [raw, read]
  rfl

namespace Usage

/-- What is written can be encoded. -/
def Encoded {A : Type} (usage : Usage A) : Prop :=
  ∀ entry ∈ usage.written, encodes entry.1 entry.2 = true

section

variable {A : Type} [LawfulBytesAccumulator A]

theorem call_encoded {usage : Usage A} (valid : usage.Valid) (encoded : usage.Encoded)
    (use : Use) : (usage.call use).Encoded := by
  obtain ⟨call, answers⟩ := use
  have tracks : (⟨⟨usage.writer.inner.accepted, answers⟩, usage.writer.buf⟩ : Writer A).Tracks
      usage.code := ⟨valid.settled, valid.held⟩
  cases call with
  | flush => exact encoded
  | write packet version =>
    have written := Writer.write_spec tracks packet version
    simp only [Encoded, Usage.call]
    generalize Writer.write (_ : Writer A) packet version = result at written
    intro entry member
    split at member
    · rename_i returned
      rcases List.mem_append.mp member with old | new
      · exact encoded entry old
      · rw [List.mem_singleton.mp new]
        cases written with
        | ok _ possible => exact possible
        | refused _ _ => cases returned
        | starved _ _ => cases returned
        | interrupted _ _ cause =>
          have ended := cause.ended
          simp only at returned
          simp [returned, Outcome.ended] at ended
    · exact encoded entry member

theorem step_encoded {usage next : Usage A} {use : Use} (valid : usage.Valid)
    (encoded : usage.Encoded)
    (stepped : usage.step use = .ok next ∨ usage.step use = .error next) : next.Encoded := by
  have same : next = usage.call use := by
    simp only [step] at stepped
    split at stepped <;> simpa [eq_comm] using stepped
  exact same ▸ call_encoded valid encoded use

end

theorem Reached.encoded {O : Type} [LawfulOwned O] {buf : EitherAccumulator O} {uses : List Use}
    {usage : Usage (EitherAccumulator O)} (fresh : buf.Fresh)
    (reached : Usage.Reached buf uses usage) : usage.Encoded := by
  have completed : ∀ {uses : List Use} {usage : Usage (EitherAccumulator O)},
      Transition.exec Usage.step (.new buf) uses = .ok usage →
      usage.Valid ∧ usage.Encoded := by
    intro uses usage ran
    refine Transition.exec_always (fun usage => usage.Valid ∧ usage.Encoded)
      ⟨fresh.valid, by simp [Encoded, Usage.new]⟩ ?_ ran
    rintro usage use next ⟨valid, encoded⟩ stepped
    exact ⟨(Usage.step_ok valid stepped).1, step_encoded valid encoded (.inl stepped)⟩
  rcases reached with ran | ran
  · exact (completed ran).2
  · obtain ⟨early, use, middle, first, last⟩ := Transition.exec_error ran
    obtain ⟨valid, encoded⟩ := completed first
    exact step_encoded valid encoded (.inr last)

/-- The packets written, as a reader hands them on. -/
def raws {A : Type} (usage : Usage A) : List RawPacket :=
  usage.written.map fun entry => raw entry.1 entry.2

/-- The last call was a flush that returned, and all that the stream accepted has arrived. -/
def Handed {A : Type} (usage : Usage A) (uses : List Use) (arrived : Bytes) : Prop :=
  (∃ earlier answers, uses = earlier ++ [⟨.flush, answers⟩]) ∧ usage.last = .ok ∧
    arrived = usage.writer.inner.accepted

theorem Handed.all {O : Type} [LawfulOwned O] {buf : EitherAccumulator O} {uses : List Use}
    {usage : Usage (EitherAccumulator O)} {arrived : Bytes} (fresh : buf.Fresh)
    (reached : Usage.Reached buf uses usage) (handed : usage.Handed uses arrived) :
    arrived = usage.code := by
  obtain ⟨⟨earlier, answers, rfl⟩, returned, rfl⟩ := handed
  exact Usage.exec_flush fresh (reached.ok returned)

end Usage

/-- Whatever part of the encodings has arrived, its framing is that of the packets. -/
theorem words_written {A : Type} {usage : Usage A} (encoded : usage.Encoded) {arrived : Bytes}
    (carried : arrived <+: usage.code) :
    Framer.Words packetFramer (fun entry => code entry.1 entry.2)
      (fun entry : Packet × ProtocolVersion => raw entry.1 entry.2) arrived usage.written :=
  Framer.words_of_prefix (fun entry member => nextPacket_code (encoded entry member)) carried

section

variable {P : Type} [LawfulOwned P]

/-- Each call returns the next of these packets, when it is polled often enough. -/
theorem exec_words (roomy : ∀ (owned : P) (additional : Nat),
      Owned.reserve owned additional ≠ none) (entries : List (Packet × ProtocolVersion))
    (encoded : ∀ entry ∈ entries, encodes entry.1 entry.2 = true) (bound : Nat)
    (reading : Reading P) (calls : List (List Arrival))
    (holds : reading.reader.pending = entries.flatMap fun entry => code entry.1 entry.2)
    (short : reading.reader.pending.length ≤ bound)
    (healthy : ∀ call ∈ calls, .fails ∉ call ∧ bound < call.length)
    (count : calls.length = entries.length) :
    ∃ next, Transition.exec Reading.step reading calls = .ok next ∧
      next.packets = reading.packets ++ entries.map fun entry => raw entry.1 entry.2 := by
  induction entries generalizing reading calls with
  | nil =>
    obtain rfl : calls = [] := List.length_eq_zero_iff.mp count
    exact ⟨reading, rfl, by simp⟩
  | cons entry rest ih =>
    cases calls with
    | nil => simp at count
    | cons call later =>
      obtain ⟨sound, long⟩ := healthy call List.mem_cons_self
      have unread : reading.reader.inner.unread.length < call.length := by
        have part : reading.reader.inner.unread.length ≤ reading.reader.pending.length := by
          rw [Reader.pending, List.length_append]
          exact Nat.le_add_left _ _
        omega
      have next : nextPacket reading.reader.pending =
          .complete (raw entry.1 entry.2) (rest.flatMap fun entry => code entry.1 entry.2) := by
        rw [holds, List.flatMap_cons]
        exact packetFramer.complete_append _ _ _ _
          (nextPacket_code (encoded entry List.mem_cons_self))
      have returns := reading.step_returns roomy sound unread
      rw [next] at returns
      obtain ⟨reader, left, stepped⟩ := returns
      have shorter : reader.pending.length ≤ bound := by
        have fewer := packetFramer.shorter _ _ _ next
        rw [left]
        omega
      obtain ⟨final, ran, packets⟩ := ih
        (fun other member => encoded other (List.mem_cons_of_mem _ member))
        ⟨reader, reading.packets ++ [raw entry.1 entry.2]⟩ later left shorter
        (fun other member => healthy other (List.mem_cons_of_mem _ member)) (by simpa using count)
      refine ⟨final, ?_, ?_⟩
      · rw [Transition.exec_cons_ok stepped]
        exact ran
      · rw [packets]
        simp

/-- What a reader has returned of the bytes that have arrived. -/
structure Reading.Follows {A : Type} (usage : Usage A) (arrived : Bytes) (reading : Reading P) :
    Prop where
  packets : reading.packets <+: usage.raws
  next : nextPacket reading.reader.pending ≠ .invalid
  all : arrived = usage.code → nextPacket reading.reader.pending = .incomplete →
    reading.packets = usage.raws ∧ reading.reader.pending = []

theorem Reading.Valid.follows {A : Type} {usage : Usage A} (encoded : usage.Encoded)
    {arrived : Bytes} (carried : arrived <+: usage.code) {reading : Reading P}
    (valid : reading.Valid arrived) : reading.Follows usage arrived := by
  obtain ⟨early, late, left, split, framed, rest, whole⟩ := (words_written encoded carried).framing
  have front : early.map (fun entry => raw entry.1 entry.2) <+: usage.raws := by
    rw [Usage.raws, split, List.map_append]
    exact List.prefix_append _ _
  have stop (incomplete : ∀ raw rest, nextPacket reading.reader.pending ≠ .complete raw rest) :
      reading.packets = early.map (fun entry => raw entry.1 entry.2) ∧
        reading.reader.pending = left := by
    have taken := Framer.Takes.framing_eq valid incomplete
    rw [framed, Prod.mk.injEq] at taken
    exact ⟨taken.1.symm, taken.2.symm⟩
  constructor
  · have begins := valid.isPrefix
    rw [framed] at begins
    exact begins.trans front
  · intro invalid
    have held := (stop (by simp [invalid])).2
    rcases rest with none | incomplete
    · rw [held, none] at invalid
      cases invalid
    · rw [held] at invalid
      cases invalid.symm.trans incomplete
  · intro complete incomplete
    obtain ⟨packets, held⟩ := stop (by simp [incomplete])
    obtain ⟨none, nothing⟩ := whole complete
    constructor
    · rw [packets, Usage.raws, split, none, List.append_nil]
    · rw [held, nothing]

/-- Whatever the calls of the writer and however the stream takes the bytes, whatever part of
them has arrived, in whatever pieces, and wherever calls of the reader are dropped: it returns
the packets written, in their order, and no bytes are refused. After a flush it returns all
of them, and they are decoded to what was written. -/
theorem pipe_packets [UnicodeGeneralCategory] {O : Type} [LawfulOwned O]
    {buf : EitherAccumulator O} (fresh : buf.Fresh) {uses : List Use}
    {usage : Usage (EitherAccumulator O)} (reached : Usage.Reached buf uses usage)
    {arrived : Bytes} (carried : arrived <+: usage.writer.inner.accepted)
    {dst : P} (empty : Owned.filled dst = []) (calls : List (List Arrival)) :
    (∀ reading, Transition.exec Reading.step (.new arrived dst) calls = .ok reading →
      reading.packets <+: usage.raws) ∧
      (∀ reading error,
        Transition.exec Reading.step (.new arrived dst) calls = .error (reading, error) →
        reading.packets <+: usage.raws ∧ (∀ fault, error ≠ .decode fault) ∧
          (error = .unexpectedEof → usage.Handed uses arrived →
            reading.packets = usage.raws ∧ reading.reader.pending = [])) ∧
      (usage.Handed uses arrived →
        (∀ (owned : P) (additional : Nat), Owned.reserve owned additional ≠ none) →
        calls.length = usage.written.length →
        (∀ call ∈ calls, .fails ∉ call ∧ arrived.length < call.length) →
        ∃ reading, Transition.exec Reading.step (.new arrived dst) calls = .ok reading ∧
          reading.packets = usage.raws) ∧
      ∀ packet version, (packet, version) ∈ usage.written → packet.WellFormed version →
        (Packet.decode (raw packet version).firstByte version (raw packet version).rest).map
          Prod.fst = .ok packet := by
  have encoded := reached.encoded fresh
  have sent : arrived <+: usage.code := carried.trans (reached.sound fresh).sent
  have start := Reading.valid_new arrived empty
  refine ⟨?_, ?_, ?_, ?_⟩
  · intro reading ran
    exact ((Reading.exec_valid start ran).follows encoded sent).packets
  · intro reading error ran
    have ended := Reading.ended_of_exec empty ran
    have follows := ended.valid.follows encoded sent
    refine ⟨follows.packets, ?_, ?_⟩
    · intro fault found
      exact follows.next (ended.invalid fault found).2
    · intro eof handed
      exact follows.all (handed.all fresh reached) (ended.eof eof).2
  · intro handed roomy count healthy
    have pending : (Reading.new arrived dst).reader.pending = arrived := by
      simp [Reading.new, Reader.pending, Reader.filled, empty]
    obtain ⟨reading, ran, packets⟩ := exec_words roomy usage.written encoded arrived.length
      (.new arrived dst) calls (pending.trans (handed.all fresh reached))
      (Nat.le_of_eq (congrArg List.length pending)) healthy count
    exact ⟨reading, ran, packets⟩
  · intro packet version written formed
    exact decode_raw (encoded _ written) formed

/-- The ping arrives in two pieces, and the call that finds its first byte is dropped. -/
theorem pipe_packets_ping :
    ∃ (usage : Usage (EitherAccumulator BytesMut)) (reading : Reading BytesMut),
      Usage.Reached heapIovecs pingThenFlush usage ∧ usage.Handed pingThenFlush [0xC0, 0x00] ∧
        Transition.exec Reading.step (.new [0xC0, 0x00] {}) droppedThenEnded =
          .error (reading, .unexpectedEof) ∧
        usage.raws = [⟨0xC0, []⟩] ∧ reading.packets = usage.raws := by
  have reads : ∃ reading, Transition.exec Reading.step (.new [0xC0, 0x00] ({} : BytesMut))
      droppedThenEnded = .error (reading, .unexpectedEof) := ⟨⟨⟨⟨[]⟩, ⟨[], 5⟩⟩, [⟨0xC0, []⟩]⟩, rfl⟩
  have sends : (Transition.exec Usage.step (.new heapIovecs) pingThenFlush).toOption.map
      (fun usage => (usage.last, usage.writer.inner.accepted, usage.raws)) =
        some (.ok, [0xC0, 0x00], [⟨0xC0, []⟩]) := by decide
  obtain ⟨reading, read⟩ := reads
  cases ran : Transition.exec Usage.step (.new heapIovecs) pingThenFlush with
  | error usage => simp [ran, Except.toOption] at sends
  | ok usage =>
    rw [ran] at sends
    obtain ⟨returned, accepted, raws⟩ : usage.last = .ok ∧
        usage.writer.inner.accepted = [0xC0, 0x00] ∧ usage.raws = [⟨0xC0, []⟩] := by
      simpa [Except.toOption] using sends
    have handed : usage.Handed pingThenFlush [0xC0, 0x00] :=
      ⟨⟨[⟨.write .pingReq .v5, []⟩], _, rfl⟩, returned, accepted.symm⟩
    have packets := (((@pipe_packets BytesMut inferInstance asciiCategory BytesMut inferInstance
      heapIovecs ⟨{}, rfl, rfl⟩ _ _ (.inl ran) _ (accepted ▸ List.prefix_rfl) {} rfl
      droppedThenEnded).2.1 reading _ read).2.2 rfl handed).1
    exact ⟨usage, reading, .inl ran, handed, read, raws, packets⟩

end

end MqttClient.Io
