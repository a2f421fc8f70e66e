import MqttClient.Proto.Lengths
import MqttClient.Io.Writer

/-! The two passes over a packet: what the first counts is what the second puts, and a packet
that cannot be encoded leaves nothing behind. -/

namespace MqttClient.Io

open Lib Proto LawfulAccumulator LawfulBytesAccumulator

/-- What the passes over a packet count, and what the last one does to an accumulator that has
the room that was counted. -/
structure CountsExactly {A : Type} [LawfulBytesAccumulator A] (packet : Packet)
    (version : ProtocolVersion) (buf : A) : Prop where
  slices : ∀ counter : ByteCounter false,
    (packet.encode version).run ({} : ByteCounter false) = .ok counter →
    counter.count = (packet.encode version).room
  body : ∀ counter : ByteCounter true,
    (packet.encodeBody version).run ({} : ByteCounter true) = .ok counter →
    counter.count = (packet.encodeBody version).items.length
  encodes : ∀ (counter : ByteCounter false) (grown : A),
    (packet.encode version).run ({} : ByteCounter false) = .ok counter →
    BytesAccumulator.reserve buf counter.count = some grown →
    ∃ next, (packet.encode version).run grown = .ok next ∧
      contents next = contents buf ++ code packet version

theorem countsExactly {A : Type} [LawfulBytesAccumulator A] (packet : Packet)
    (version : ProtocolVersion) {buf : A} (settled : Settled buf) :
    CountsExactly packet version buf := by
  have counts : ∀ counter : ByteCounter false,
      (packet.encode version).run ({} : ByteCounter false) = .ok counter →
      (packet.encode version).Succeeds ∧ counter.count = (packet.encode version).room := by
    intro counter counted
    obtain ⟨succeeds, count⟩ := counts_room counted
    exact ⟨succeeds, by simpa [Encoder.room] using count⟩
  refine ⟨fun counter counted => (counts counter counted).2, ?_, ?_⟩
  · intro counter counted
    rcases run_counter_cases (packet.encodeBody version) with ⟨-, ran⟩ | ⟨-, fault, ran⟩
    · rw [ran] at counted
      exact (congrArg ByteCounter.count (Except.ok.inj counted)).symm
    · rw [ran] at counted
      cases counted
  · intro counter grown counted reserved
    obtain ⟨succeeds, count⟩ := counts counter counted
    obtain ⟨room, same⟩ := reserve_ok _ _ _ settled reserved
    obtain ⟨next, ran, -, held⟩ := encode_run succeeds grown (count ▸ room)
    exact ⟨next, ran, by rw [held, same]⟩

theorem exactLengths_of_encodes {packet : Packet} {version : ProtocolVersion}
    (encodable : encodes packet version = true) : packet.ExactLengths version := by
  refine Packet.exactLengths ?_
  exact (Encoder.run_isOk_iff byteCounter_accepts (packet.encode version) _).mp encodable

section

variable {A : Type} [LawfulBytesAccumulator A]

namespace Usage

variable {usage : Usage A}

/-- A writer whose accumulator is settled keeps track of all bytes it has been given. -/
theorem tracks_of_settled (settled : Settled usage.writer.buf) (answers : List Answer) :
    (⟨⟨usage.writer.inner.accepted, answers⟩, usage.writer.buf⟩ : Writer A).Tracks
      (usage.writer.inner.accepted ++ contents usage.writer.buf) :=
  ⟨settled, rfl⟩

/-- Whatever comes of a call, the accumulator has committed all it holds. -/
theorem settled_call (settled : Settled usage.writer.buf) (use : Use) :
    Settled (usage.call use).writer.buf := by
  obtain ⟨call, answers⟩ := use
  have tracks := tracks_of_settled settled answers
  cases call with
  | write packet version =>
    have written := Writer.write_spec tracks packet version
    simp only [Usage.call]
    generalize Writer.write (_ : Writer A) packet version = result at written
    cases written with
    | ok kept encoded => exact kept.settled
    | refused kept failed => exact kept.settled
    | starved kept cause => exact kept.settled
    | interrupted settled accepted cause => exact settled
  | flush =>
    have flushed := Writer.flush_spec tracks
    simp only [Usage.call]
    generalize Writer.flush (_ : Writer A) = result at flushed
    cases flushed with
    | ok kept drained => exact kept.settled
    | interrupted settled accepted cause => exact settled

theorem settled_calls (settled : Settled usage.writer.buf) (uses : List Use) :
    Settled (uses.foldl Usage.call usage).writer.buf := by
  induction uses generalizing usage with
  | nil => exact settled
  | cons use uses ih => exact ih (settled_call settled use)

/-- A write that is refused for the packet changes nothing but how much has been sent. -/
theorem refused_unchanged (settled : Settled usage.writer.buf) {packet : Packet}
    {version : ProtocolVersion} {answers : List Answer} {fault : EncodeFault}
    (refused : (usage.call ⟨.write packet version, answers⟩).last = .error (.encode fault)) :
    let next := usage.call ⟨.write packet version, answers⟩
    next.writer.inner.accepted ++ contents next.writer.buf =
        usage.writer.inner.accepted ++ contents usage.writer.buf ∧
      next.written = usage.written := by
  have written := Writer.write_spec (tracks_of_settled settled answers) packet version
  simp only [Usage.call] at refused ⊢
  generalize Writer.write (_ : Writer A) packet version = result at written refused
  cases written with
  | refused kept failed => exact ⟨kept.held, rfl⟩
  | interrupted settled accepted cause =>
    rcases cause with ⟨rfl, -⟩ | rfl | rfl <;> cases refused
  | _ => cases refused

end Usage

end

/-- After any calls of a writer and for every packet: the passes agree, the length fields are
exact, and a packet that is refused is not in the buffer. So, as long as the stream goes along,
what it has accepted are whole packets, up to the one it is taking. -/
theorem write_atomic {O : Type} [LawfulOwned O] {buf : EitherAccumulator O} (fresh : buf.Fresh)
    (uses : List Use) (packet : Packet) (version : ProtocolVersion) :
    let usage := uses.foldl Usage.call (.new buf)
    CountsExactly packet version usage.writer.buf ∧
      (encodes packet version = true → packet.ExactLengths version) ∧
      (∀ answers fault,
        (usage.call ⟨.write packet version, answers⟩).last = .error (.encode fault) →
        (usage.call ⟨.write packet version, answers⟩).writer.inner.accepted ++
              contents (usage.call ⟨.write packet version, answers⟩).writer.buf =
            usage.writer.inner.accepted ++ contents usage.writer.buf ∧
          (usage.call ⟨.write packet version, answers⟩).written = usage.written) ∧
      ∀ final, Usage.Reached buf uses final →
        final.writer.inner.accepted <+: final.code ∧
          ∀ earlier answers, uses = earlier ++ [⟨.flush, answers⟩] → final.last = .ok →
            final.writer.inner.accepted = final.code := by
  intro usage
  have settled : Settled usage.writer.buf := Usage.settled_calls fresh.valid.settled uses
  refine ⟨countsExactly packet version settled, exactLengths_of_encodes, ?_, ?_⟩
  · intro answers fault refused
    exact Usage.refused_unchanged settled refused
  · intro final reached
    refine ⟨(reached.sound fresh).sent, ?_⟩
    rintro earlier answers rfl returned
    exact Usage.exec_flush fresh (reached.ok returned)

/-- A SUBSCRIBE without topics cannot be encoded. -/
def emptySubscribe : Packet := .subscribe ⟨.one, [], {}⟩

/-- Two pings around it. -/
def refusedBetween : List Use :=
  [⟨.write .pingReq .v5, []⟩, ⟨.write emptySubscribe .v5, []⟩, ⟨.write .pingReq .v5, []⟩]

theorem write_atomic_refusedBetween :
    ∃ final, Usage.Reached heapIovecs
        (refusedBetween ++ [⟨.flush, [.accepts 9, .accepts 0]⟩]) final ∧
      final.writer.inner.accepted = [0xC0, 0x00, 0xC0, 0x00] ∧
      final.writer.inner.accepted = final.code := by
  have ran : ∃ final, Usage.Reached heapIovecs
      (refusedBetween ++ [⟨.flush, [.accepts 9, .accepts 0]⟩]) final ∧ final.last = .ok ∧
      final.writer.inner.accepted = [0xC0, 0x00, 0xC0, 0x00] :=
    ⟨_, .inl rfl, by decide, by decide⟩
  obtain ⟨final, reached, returned, sent⟩ := ran
  obtain ⟨-, -, -, whole⟩ := write_atomic (show heapIovecs.Fresh from ⟨{}, rfl, rfl⟩)
    (refusedBetween ++ [⟨.flush, [.accepts 9, .accepts 0]⟩]) emptySubscribe .v5
  exact ⟨final, reached, sent, (whole final reached).2 _ _ rfl returned⟩

end MqttClient.Io
