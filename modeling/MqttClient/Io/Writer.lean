import MqttClient.Io.Accumulator
import MqttClient.Lib.Transition
import MqttClient.Proto.CodecSpec

/-! The writer: packets are encoded into an accumulator, and a flush sends what it holds
over a stream that may take any part of what it is offered. -/

namespace MqttClient.Io

open Lib Proto

inductive IoError where
  | unexpectedEof
  /-- The stream failed. -/
  | stream
  /-- The packet was not encoded. -/
  | encode (fault : EncodeFault)
  /-- The buffer pool is at capacity. -/
  | pool
  deriving DecidableEq, Repr

/-- How far a call got. It stays pending when the stream has not answered. -/
inductive Outcome where
  | ok
  | error (error : IoError)
  | pending
  | panic
  | diverged
  deriving DecidableEq, Repr

/-- The stream ended the use of the writer, or the writer ended itself. -/
def Outcome.ended : Outcome → Bool
  | .ok | .error (.encode _) | .error .pool => false
  | _ => true

/-- What the stream answers to one call: it takes bytes while it has room, or it fails. -/
inductive Answer where
  | accepts (room : Nat)
  | fails
  deriving DecidableEq, Repr

/-- A network stream: the bytes it has accepted, and its answers to come. -/
structure WritableStream where
  accepted : Bytes := []
  answers : List Answer := []

namespace WritableStream

def flush (stream : WritableStream) : WritableStream × Outcome :=
  match stream.answers with
  | [] => (stream, .pending)
  | .fails :: rest => ({ stream with answers := rest }, .error .stream)
  | .accepts _ :: rest => ({ stream with answers := rest }, .ok)

/-- The stream failed, took nothing, or has no answer yet. -/
def Interrupts (stream : WritableStream) (outcome : Outcome) : Prop :=
  outcome = .pending ∧ stream.answers = [] ∨ outcome = .error .stream ∨
    outcome = .error .unexpectedEof

theorem Interrupts.ended {stream : WritableStream} {outcome : Outcome}
    (cause : stream.Interrupts outcome) : outcome.ended = true := by
  rcases cause with ⟨rfl, _⟩ | rfl | rfl <;> rfl

end WritableStream

/-- `IoSlice::advance_slices` -/
def advanceSlices (slices : List Bytes) (n : Nat) : Option (List Bytes) := Chunks.advance slices n

/-- The loop that sends one window of slices, with the answers of the stream. -/
def writeWindow (slices : List Bytes) (written totalLen : Nat) (accepted : Bytes) :
    List Answer → WritableStream × Except Outcome Nat
  | [] =>
    if written < totalLen then (⟨accepted, []⟩, .error .pending)
    else (⟨accepted, []⟩, .ok written)
  | answer :: answers =>
    if written < totalLen then
      match answer with
      | .fails => (⟨accepted, answers⟩, .error (.error .stream))
      | .accepts room =>
        let taken := slices.flatten.take room
        if taken.length = 0 then (⟨accepted, answers⟩, .error (.error .unexpectedEof))
        else
          let accepted := accepted ++ taken
          let written := written + taken.length
          if written < totalLen then
            match advanceSlices slices taken.length with
            | none => (⟨accepted, answers⟩, .error .panic)
            | some slices => writeWindow slices written totalLen accepted answers
          else writeWindow slices written totalLen accepted answers
    else (⟨accepted, answer :: answers⟩, .ok written)

structure Writer (A : Type) where
  inner : WritableStream := {}
  buf : A

namespace Writer

variable {A : Type} [BytesAccumulator A]

/-- The loop over the windows. A window that is sent has used up an answer, so the number
of answers bounds the rounds. -/
def flushLoop : Nat → Writer A → Writer A × Outcome
  | 0, writer => (writer, .diverged)
  | rounds + 1, writer =>
    match BytesAccumulator.toIovecs writer.buf 128 with
    | none => (writer, .panic)
    | some iovecs =>
      if iovecs.numIovecs = 0 then
        let (inner, outcome) := writer.inner.flush
        ({ writer with inner }, outcome)
      else
        match writeWindow iovecs.slices 0 iovecs.totalLen writer.inner.accepted
          writer.inner.answers with
        | (inner, .error outcome) => ({ writer with inner }, outcome)
        | (inner, .ok written) =>
          match BytesAccumulator.drain writer.buf written with
          | none => ({ writer with inner }, .panic)
          | some buf => flushLoop rounds { inner, buf }

def flush (writer : Writer A) : Writer A × Outcome :=
  flushLoop (writer.inner.answers.length + 1) writer

/-- Count the bytes that are not shared, make room for them, and encode. -/
def encode (writer : Writer A) (packet : Packet) (version : ProtocolVersion) :
    Writer A × Outcome :=
  match (packet.encode version).run ({} : ByteCounter false) with
  | .error fault => (writer, .error (.encode fault))
  | .ok counter =>
    match BytesAccumulator.reserve writer.buf counter.count with
    | none => (writer, .error .pool)
    | some buf =>
      match (packet.encode version).run buf with
      | .error fault => ({ writer with buf }, .error (.encode fault))
      | .ok buf => ({ writer with buf }, .ok)

def write (writer : Writer A) (packet : Packet) (version : ProtocolVersion) :
    Writer A × Outcome :=
  if BytesAccumulator.canAcceptMore writer.buf then writer.encode packet version
  else
    match writer.flush with
    | (writer, .ok) =>
      if BytesAccumulator.canAcceptMore writer.buf then writer.encode packet version
      else (writer, .panic)
    | (writer, outcome) => (writer, outcome)

end Writer

/-- The first pass counts the room that the second pass needs. -/
theorem counts_room {puts : List (Put UInt8 EncodeFault)} {start : Nat} {counter : ByteCounter false}
    (counted : puts.foldlM Encoder.runPut (⟨start⟩ : ByteCounter false) = .ok counter) :
    (∀ fault, Put.fail fault ∉ puts) ∧ counter.count = start + (puts.map Put.room).sum := by
  induction puts generalizing start with
  | nil =>
    cases counted
    simp
  | cons put rest ih =>
    cases put with
    | slice items full =>
      obtain ⟨succeeds, count⟩ := @ih (start + items.length) counted
      refine ⟨by simpa using succeeds, ?_⟩
      simp only [List.map_cons, List.sum_cons, Put.room]
      omega
    | shared items =>
      obtain ⟨succeeds, count⟩ := @ih start counted
      exact ⟨by simpa using succeeds, by simpa [Put.room] using count⟩
    | done =>
      obtain ⟨succeeds, count⟩ := @ih start counted
      exact ⟨by simpa using succeeds, by simpa [Put.room] using count⟩
    | fail fault => cases counted

/-- The packet can be encoded. -/
def encodes (packet : Packet) (version : ProtocolVersion) : Bool :=
  ((packet.encode version).run ({} : ByteCounter false)).isOk

/-- The bytes that a packet is on the wire. -/
def code (packet : Packet) (version : ProtocolVersion) : Bytes := (packet.encode version).items

/-- A packet that is encoded commits all its bytes at the end. -/
theorem encode_commits {packet : Packet} {version : ProtocolVersion}
    (succeeds : (packet.encode version).Succeeds) :
    ∃ front : Encoding, packet.encode version = front ++ .put .done := by
  cases counted : (packet.encodeBody version).run ({} : ByteCounter true) with
  | error fault =>
    simp only [Packet.encode, counted] at succeeds
    exact absurd List.mem_cons_self (succeeds fault)
  | ok counter =>
    simp only [Packet.encode, counted]
    exact ⟨_, rfl⟩

section

variable {A : Type} [LawfulBytesAccumulator A]

open LawfulAccumulator LawfulBytesAccumulator

/-- Given the room that was counted, the packet is encoded and committed. -/
theorem encode_run {packet : Packet} {version : ProtocolVersion}
    (succeeds : (packet.encode version).Succeeds) (dst : A)
    (room : HasRoom dst (packet.encode version).room) : ∃ next,
    (packet.encode version).run dst = .ok next ∧ Settled next ∧
      contents next = contents dst ++ code packet version := by
  obtain ⟨front, split⟩ := encode_commits succeeds
  have faultless : ∀ fault, Put.fail fault ∉ front.puts := by
    intro fault member
    apply succeeds fault
    rw [split]
    exact List.mem_append_left _ member
  have covered : HasRoom dst ((front.puts.map Put.room).sum + 0) := by
    simpa [Encoder.room, split, Encoder.append_def, Encoder.put, Put.room] using room
  obtain ⟨middle, ran, held, left⟩ := Encoder.foldlM_room front.puts dst 0 faultless covered
  refine ⟨Accumulator.putDone middle, ?_, putDone_settled middle 0 left, ?_⟩
  · rw [split, Encoder.run, Encoder.append_def, List.foldlM_append, ran]
    rfl
  · rw [(putDone_ok middle 0 left).1, held]
    simp [code, split, Encoder.items, Encoder.append_def, Encoder.put, Put.items]

namespace Writer

/-- All bytes of the code are either accepted by the stream or still held. -/
structure Tracks (writer : Writer A) (code : Bytes) : Prop where
  settled : Settled writer.buf
  held : writer.inner.accepted ++ contents writer.buf = code

theorem Tracks.sent {writer : Writer A} {code : Bytes} (tracks : writer.Tracks code) :
    writer.inner.accepted <+: code :=
  ⟨_, tracks.held⟩

/-- Encoding adds the code of the packet to what is held, or it leaves the writer as it was. -/
theorem encode_spec {writer : Writer A} (settled : Settled writer.buf) (packet : Packet)
    (version : ProtocolVersion) :
    (∃ buf, writer.encode packet version = ({ writer with buf }, .ok) ∧ Settled buf ∧
        contents buf = contents writer.buf ++ code packet version ∧ encodes packet version = true) ∨
      (∃ fault, writer.encode packet version = (writer, .error (.encode fault)) ∧
        encodes packet version = false) ∨
      (writer.encode packet version = (writer, .error .pool) ∧
        ∃ additional, BytesAccumulator.reserve writer.buf additional = none) := by
  cases counted : (packet.encode version).run ({} : ByteCounter false) with
  | error fault =>
    exact .inr (.inl ⟨fault, by simp only [encode, counted], by rw [encodes, counted]; rfl⟩)
  | ok counter =>
    cases reserved : BytesAccumulator.reserve writer.buf counter.count with
    | none => exact .inr (.inr ⟨by simp only [encode, counted, reserved], _, reserved⟩)
    | some buf =>
      obtain ⟨succeeds, count⟩ := counts_room counted
      obtain ⟨room, same⟩ := reserve_ok _ _ _ settled reserved
      have covered : HasRoom buf (packet.encode version).room := by
        have needed : counter.count = (packet.encode version).room := by
          simpa [Encoder.room] using count
        rw [← needed]
        exact room
      obtain ⟨next, ran, committed, held⟩ := encode_run succeeds buf covered
      refine .inl ⟨next, by simp only [encode, counted, reserved, ran], committed, ?_, ?_⟩
      · rw [held, same]
      · rw [encodes, counted]
        rfl

end Writer

/-- A window that is sent has been accepted as a whole. One that is not sent has been
accepted up to some point. -/
theorem writeWindow_spec {slices : List Bytes} {written totalLen : Nat} {accepted : Bytes}
    {answers : List Answer} {stream : WritableStream} {result : Except Outcome Nat}
    (total : totalLen = written + slices.flatten.length)
    (ran : writeWindow slices written totalLen accepted answers = (stream, result)) :
    (result = .ok totalLen ∧ stream.accepted = accepted ++ slices.flatten ∧
        (slices.flatten ≠ [] → stream.answers.length < answers.length)) ∨
      (∃ outcome, result = .error outcome ∧ stream.Interrupts outcome ∧
        ∃ sent, stream.accepted = accepted ++ sent ∧ sent <+: slices.flatten) := by
  induction answers generalizing slices written accepted with
  | nil =>
    by_cases more : written < totalLen
    · simp only [writeWindow, more, if_true, Prod.mk.injEq] at ran
      obtain ⟨rfl, rfl⟩ := ran
      exact .inr ⟨_, rfl, .inl ⟨rfl, rfl⟩, [], by simp⟩
    · have nothing : slices.flatten = [] := List.length_eq_zero_iff.mp (by omega)
      simp only [writeWindow, more, if_false, Prod.mk.injEq] at ran
      obtain ⟨rfl, rfl⟩ := ran
      refine .inl ⟨?_, by simp [nothing], by simp [nothing]⟩
      rw [total, nothing]
      rfl
  | cons answer rest ih =>
    by_cases more : written < totalLen
    · cases answer with
      | fails =>
        simp only [writeWindow, more, if_true, Prod.mk.injEq] at ran
        obtain ⟨rfl, rfl⟩ := ran
        exact .inr ⟨_, rfl, .inr (.inl rfl), [], by simp⟩
      | accepts room =>
        simp only [writeWindow, more, if_true] at ran
        generalize chosen : slices.flatten.take room = taken at ran
        have front : taken <+: slices.flatten := chosen ▸ List.take_prefix _ _
        have fits : taken.length ≤ slices.flatten.length := front.length_le
        by_cases empty : taken.length = 0
        · simp only [empty, if_true, Prod.mk.injEq] at ran
          obtain ⟨rfl, rfl⟩ := ran
          exact .inr ⟨_, rfl, .inr (.inr rfl), [], by simp⟩
        · simp only [empty, if_false] at ran
          by_cases left : written + taken.length < totalLen
          · obtain ⟨later, advanced, held⟩ := Chunks.advance_ok slices taken.length fits
            have joined : taken ++ later.flatten = slices.flatten := by
              rw [held]
              exact List.prefix_iff_eq_append.mp front
            simp only [left, if_true, advanceSlices, advanced] at ran
            have kept : totalLen = written + taken.length + later.flatten.length := by
              rw [total, ← joined, List.length_append, Nat.add_assoc]
            rcases ih kept ran with ⟨done, all, fewer⟩ | ⟨outcome, failed, kind, sent, most, part⟩
            · refine .inl ⟨done, by rw [all, List.append_assoc, joined], fun _ => ?_⟩
              have some : later.flatten ≠ [] := by
                intro none
                rw [none] at kept
                simp only [List.length_nil] at kept
                omega
              exact Nat.lt_succ_of_lt (fewer some)
            · refine .inr ⟨outcome, failed, kind, taken ++ sent, by rw [most, List.append_assoc], ?_⟩
              rw [← joined]
              exact (List.prefix_append_right_inj taken).mpr part
          · have all : taken = slices.flatten := front.eq_of_length (by omega)
            simp only [left, if_false] at ran
            have finished : written + taken.length = totalLen := by rw [all, total]
            have last : writeWindow slices (written + taken.length) totalLen (accepted ++ taken) rest =
                (⟨accepted ++ taken, rest⟩, .ok totalLen) := by
              cases rest <;> simp [writeWindow, finished]
            rw [last, Prod.mk.injEq] at ran
            obtain ⟨rfl, rfl⟩ := ran
            exact .inl ⟨rfl, by rw [all], fun _ => Nat.lt_succ_self _⟩
    · have nothing : slices.flatten = [] := List.length_eq_zero_iff.mp (by omega)
      simp only [writeWindow, more, if_false, Prod.mk.injEq] at ran
      obtain ⟨rfl, rfl⟩ := ran
      refine .inl ⟨?_, by simp [nothing], by simp [nothing]⟩
      rw [total, nothing]
      rfl

namespace Writer

/-- The call returned and everything is sent, or the stream interrupted it. -/
inductive Flushed (code : Bytes) : Writer A × Outcome → Prop where
  | ok {next : Writer A} (tracks : next.Tracks code) (drained : contents next.buf = []) :
    Flushed code (next, .ok)
  | interrupted {next : Writer A} {outcome : Outcome} (settled : Settled next.buf)
    (sent : next.inner.accepted <+: code) (cause : next.inner.Interrupts outcome) :
    Flushed code (next, outcome)

theorem flushLoop_spec {code : Bytes} (rounds : Nat) {writer : Writer A}
    (tracks : writer.Tracks code) (enough : writer.inner.answers.length < rounds) :
    Flushed code (flushLoop rounds writer) := by
  induction rounds generalizing writer with
  | zero => exact absurd enough (Nat.not_lt_zero _)
  | succ rounds ih =>
    obtain ⟨iovecs, offered, total, filled, front, last⟩ :=
      toIovecs_ok writer.buf 128 tracks.settled (by decide)
    change BytesAccumulator.toIovecs writer.buf 128 = some iovecs at offered
    simp only [flushLoop, offered]
    by_cases finished : iovecs.slices = []
    · have empty : iovecs.numIovecs = 0 := by simp [Iovecs.numIovecs, finished]
      have drained := last finished
      simp only [empty, if_true, WritableStream.flush]
      cases answers : writer.inner.answers with
      | nil => exact .interrupted tracks.settled tracks.sent (.inl ⟨rfl, answers⟩)
      | cons answer rest =>
        cases answer with
        | fails => exact .interrupted tracks.settled tracks.sent (.inr (.inl rfl))
        | accepts room => exact .ok ⟨tracks.settled, tracks.held⟩ drained
    · have offers : ¬ iovecs.numIovecs = 0 := by simpa [Iovecs.numIovecs] using finished
      simp only [offers, if_false]
      obtain ⟨rest, joined⟩ := front
      have held : writer.inner.accepted ++ (iovecs.slices.flatten ++ rest) = code := by
        rw [joined]
        exact tracks.held
      generalize ran : writeWindow iovecs.slices 0 iovecs.totalLen writer.inner.accepted
        writer.inner.answers = answer
      obtain ⟨stream, result⟩ := answer
      rcases writeWindow_spec (by rw [total, Nat.zero_add]) ran with
        ⟨rfl, all, fewer⟩ | ⟨outcome, rfl, cause, sent, most, part⟩
      · have inside : iovecs.totalLen ≤ (contents writer.buf).length := by
          rw [total, ← joined, List.length_append]
          exact Nat.le_add_right _ _
        obtain ⟨buf, drained, settled, left⟩ := drain_ok writer.buf _ tracks.settled inside
        change BytesAccumulator.drain writer.buf iovecs.totalLen = some buf at drained
        simp only [drained]
        apply ih
        · refine ⟨settled, ?_⟩
          rw [left, all, total, ← joined, List.drop_left, List.append_assoc]
          exact held
        · have shorter := fewer fun none => finished (filled.eq_nil none)
          exact Nat.lt_of_lt_of_le shorter (Nat.le_of_lt_succ enough)
      · refine .interrupted tracks.settled ?_ cause
        rw [most, ← held, List.prefix_append_right_inj]
        exact part.trans (List.prefix_append _ _)

theorem flush_spec {code : Bytes} {writer : Writer A} (tracks : writer.Tracks code) :
    Flushed code writer.flush :=
  flushLoop_spec _ tracks (Nat.lt_succ_self _)

/-- A packet was written, or it cannot be encoded, or there was no room for it, or the
stream interrupted the flush that had to come first. -/
inductive Written (sent : Bytes) (packet : Packet) (version : ProtocolVersion) :
    Writer A × Outcome → Prop where
  | ok {next : Writer A} (tracks : next.Tracks (sent ++ code packet version))
    (encoded : encodes packet version = true) : Written sent packet version (next, .ok)
  | refused {next : Writer A} {fault : EncodeFault} (tracks : next.Tracks sent)
    (failed : encodes packet version = false) :
    Written sent packet version (next, .error (.encode fault))
  | starved {next : Writer A} (tracks : next.Tracks sent)
    (cause : ∃ (buf : A) (additional : Nat), BytesAccumulator.reserve buf additional = none) :
    Written sent packet version (next, .error .pool)
  | interrupted {next : Writer A} {outcome : Outcome} (settled : Settled next.buf)
    (accepted : next.inner.accepted <+: sent) (cause : next.inner.Interrupts outcome) :
    Written sent packet version (next, outcome)

theorem written_encode {sent : Bytes} {writer : Writer A} (tracks : writer.Tracks sent)
    (packet : Packet) (version : ProtocolVersion) :
    Written sent packet version (writer.encode packet version) := by
  rcases encode_spec tracks.settled packet version with
    ⟨buf, put, settled, held, encoded⟩ | ⟨fault, failed, cause⟩ | ⟨failed, additional, cause⟩
  · rw [put]
    refine .ok ⟨settled, ?_⟩ encoded
    rw [held, ← List.append_assoc, tracks.held]
  · rw [failed]
    exact .refused tracks cause
  · rw [failed]
    exact .starved tracks ⟨_, _, cause⟩

theorem write_spec {sent : Bytes} {writer : Writer A} (tracks : writer.Tracks sent)
    (packet : Packet) (version : ProtocolVersion) :
    Written sent packet version (writer.write packet version) := by
  unfold write
  by_cases accepts : BytesAccumulator.canAcceptMore writer.buf = true
  · rw [if_pos accepts]
    exact written_encode tracks packet version
  · rw [if_neg accepts]
    have flushed := flush_spec tracks
    generalize writer.flush = result at flushed
    cases flushed with
    | @ok next tracks drained =>
      have again : BytesAccumulator.canAcceptMore next.buf = true :=
        canAcceptMore_ok next.buf tracks.settled drained
      simp only [again, if_true]
      exact written_encode tracks packet version
    | @interrupted next outcome settled accepted cause =>
      cases outcome with
      | ok => simp [WritableStream.Interrupts] at cause
      | _ => exact .interrupted settled accepted cause

end Writer

end

inductive Call where
  | write (packet : Packet) (version : ProtocolVersion)
  | flush

/-- The packet that a call adds to those written, if nothing stands in its way. -/
def Call.adds : Call → List (Packet × ProtocolVersion)
  | .write packet version => if encodes packet version then [(packet, version)] else []
  | .flush => []

/-- A call, and what the stream answers while it runs. -/
structure Use where
  call : Call
  answers : List Answer

/-- A writer in use, with the packets whose write returned `Ok` and the outcome of the last
call. -/
structure Usage (A : Type) where
  writer : Writer A
  written : List (Packet × ProtocolVersion) := []
  last : Outcome := .ok

namespace Usage

variable {A : Type}

/-- The encodings of all packets written so far, in order. -/
def code (usage : Usage A) : Bytes :=
  usage.written.flatMap fun (packet, version) => Io.code packet version

def call [BytesAccumulator A] (usage : Usage A) (use : Use) : Usage A :=
  let writer := { usage.writer with inner := { usage.writer.inner with answers := use.answers } }
  match use.call with
  | .write packet version =>
    let (writer, outcome) := writer.write packet version
    { writer, last := outcome
      written := if outcome = .ok then usage.written ++ [(packet, version)] else usage.written }
  | .flush =>
    let (writer, outcome) := writer.flush
    { usage with writer, last := outcome }

/-- One call. The use of the writer is over when the stream does not go along. -/
def step [BytesAccumulator A] (usage : Usage A) (use : Use) : Except (Usage A) (Usage A) :=
  let next := usage.call use
  if next.last.ended then .error next else .ok next

section

variable [LawfulBytesAccumulator A]

/-- What holds of the writer whenever it has not been interrupted. -/
def Valid (usage : Usage A) : Prop := usage.writer.Tracks usage.code

/-- What holds even then. -/
structure Sound (usage : Usage A) : Prop where
  settled : LawfulBytesAccumulator.Settled usage.writer.buf
  sent : usage.writer.inner.accepted <+: usage.code
  safe : usage.last ≠ .panic ∧ usage.last ≠ .diverged
  waiting : usage.last = .pending → usage.writer.inner.answers = []

theorem Sound.of_interrupts {usage : Usage A}
    (settled : LawfulBytesAccumulator.Settled usage.writer.buf)
    (sent : usage.writer.inner.accepted <+: usage.code)
    (cause : usage.writer.inner.Interrupts usage.last) : usage.Sound := by
  refine ⟨settled, sent, ?_, ?_⟩
  · rcases cause with ⟨cause, _⟩ | cause | cause <;> simp [cause]
  · intro pending
    rcases cause with ⟨_, waiting⟩ | cause | cause
    · exact waiting
    · simp [cause] at pending
    · simp [cause] at pending

theorem Sound.of_valid {usage : Usage A} (valid : usage.Valid)
    (returned : usage.last.ended = false) : usage.Sound := by
  refine ⟨valid.settled, valid.sent, ?_, ?_⟩
  · constructor
    · intro same
      simp [same, Outcome.ended] at returned
    · intro same
      simp [same, Outcome.ended] at returned
  · intro same
    simp [same, Outcome.ended] at returned

theorem call_spec {usage : Usage A} (valid : usage.Valid) (use : Use) :
    ((usage.call use).last.ended = false ∧ (usage.call use).Valid ∧
        (use.call = .flush → (usage.call use).writer.inner.accepted = (usage.call use).code) ∧
        ((∀ (buf : A) (additional : Nat), BytesAccumulator.reserve buf additional ≠ none) →
          (usage.call use).written = usage.written ++ use.call.adds)) ∨
      ((usage.call use).last.ended = true ∧ (usage.call use).Sound) := by
  obtain ⟨call, answers⟩ := use
  have tracks : (⟨⟨usage.writer.inner.accepted, answers⟩, usage.writer.buf⟩ : Writer A).Tracks
      usage.code := ⟨valid.settled, valid.held⟩
  cases call with
  | write packet version =>
    have written := Writer.write_spec tracks packet version
    simp only [Usage.call]
    generalize Writer.write (_ : Writer A) packet version = result at written
    cases written with
    | ok tracks encoded =>
      refine .inl ⟨rfl, ?_, nofun, fun _ => by simp [Call.adds, encoded]⟩
      simpa [Valid, code] using tracks
    | refused tracks failed => exact .inl ⟨rfl, tracks, nofun, fun _ => by simp [Call.adds, failed]⟩
    | starved tracks cause =>
      obtain ⟨buf, additional, starved⟩ := cause
      exact .inl ⟨rfl, tracks, nofun, fun roomy => absurd starved (roomy buf additional)⟩
    | @interrupted next outcome settled accepted cause =>
      have failed : outcome ≠ .ok := by
        rintro rfl
        simpa [Outcome.ended] using cause.ended
      refine .inr ⟨cause.ended, .of_interrupts settled ?_ cause⟩
      simpa only [code, failed, if_false] using accepted
  | flush =>
    have flushed := Writer.flush_spec tracks
    simp only [Usage.call]
    generalize Writer.flush (_ : Writer A) = result at flushed
    cases flushed with
    | ok tracks drained =>
      refine .inl ⟨rfl, tracks, fun _ => ?_, fun _ => by simp [Call.adds]⟩
      have held := tracks.held
      rwa [drained, List.append_nil] at held
    | interrupted settled sent cause =>
      exact .inr ⟨cause.ended, .of_interrupts settled sent cause⟩

theorem step_ok {usage next : Usage A} {use : Use} (valid : usage.Valid)
    (stepped : usage.step use = .ok next) :
    next.Valid ∧ next.Sound ∧
      (use.call = .flush → next.writer.inner.accepted = next.code) ∧
      ((∀ (buf : A) (additional : Nat), BytesAccumulator.reserve buf additional ≠ none) →
        next.written = usage.written ++ use.call.adds) := by
  simp only [step] at stepped
  rcases call_spec valid use with ⟨returned, kept, flushed, added⟩ | ⟨ended, _⟩
  · simp only [returned, Bool.false_eq_true, if_false, Except.ok.injEq] at stepped
    subst next
    exact ⟨kept, .of_valid kept returned, flushed, added⟩
  · simp [ended] at stepped

theorem step_error {usage next : Usage A} {use : Use} (valid : usage.Valid)
    (stepped : usage.step use = .error next) : next.Sound := by
  simp only [step] at stepped
  rcases call_spec valid use with ⟨returned, _⟩ | ⟨ended, sound⟩
  · simp [returned] at stepped
  · simp only [ended, if_true, Except.error.injEq] at stepped
    exact stepped ▸ sound

theorem exec_valid {usage next : Usage A} (valid : usage.Valid) {uses : List Use}
    (ran : Transition.exec step usage uses = .ok next) : next.Valid :=
  Transition.exec_always Valid valid (fun _ _ _ kept stepped => (step_ok kept stepped).1) ran

theorem exec_sound {usage : Usage A} (valid : usage.Valid) (returned : usage.last.ended = false)
    {uses : List Use} {next : Usage A} (ran : Transition.exec step usage uses = .ok next) :
    next.Sound :=
  (Transition.exec_always (fun usage => usage.Valid ∧ usage.Sound) ⟨valid, .of_valid valid returned⟩
    (fun _ _ _ kept stepped => ⟨(step_ok kept.1 stepped).1, (step_ok kept.1 stepped).2.1⟩) ran).2

theorem exec_stopped {usage : Usage A} (valid : usage.Valid) {uses : List Use} {next : Usage A}
    (ran : Transition.exec step usage uses = .error next) : next.Sound := by
  obtain ⟨early, use, middle, first, last⟩ := Transition.exec_error ran
  exact step_error (exec_valid valid first) last

/-- With room for every packet, the packets written are those that can be encoded. -/
theorem exec_written (roomy : ∀ (buf : A) (additional : Nat),
      BytesAccumulator.reserve buf additional ≠ none)
    {usage : Usage A} (valid : usage.Valid) {uses : List Use} {next : Usage A}
    (ran : Transition.exec step usage uses = .ok next) :
    next.written = usage.written ++ (uses.map Use.call).flatMap Call.adds := by
  induction uses generalizing usage with
  | nil =>
    cases ran
    simp
  | cons use rest ih =>
    simp only [Transition.exec] at ran
    cases stepped : usage.step use with
    | error fault => simp [stepped] at ran
    | ok middle =>
      simp only [stepped] at ran
      obtain ⟨kept, _, _, added⟩ := step_ok valid stepped
      rw [ih kept ran, added roomy]
      simp

end

/-- A writer that has not been used. -/
def new (buf : A) : Usage A := { writer := { buf } }

end Usage

/-- An accumulator as a new writer gets it. -/
def EitherAccumulator.Fresh {O : Type} [Owned O] : EitherAccumulator O → Prop
  | .iovecs ba => ∃ owned, Owned.filled owned = [] ∧ ba = .new owned
  | .single ba => ba = .new

section

variable {O : Type} [LawfulOwned O]

theorem EitherAccumulator.Fresh.valid {buf : EitherAccumulator O} (fresh : buf.Fresh) :
    (Usage.new buf).Valid := by
  cases buf with
  | iovecs ba =>
    obtain ⟨owned, empty, rfl⟩ := fresh
    exact ⟨⟨⟨rfl, .nil⟩, empty⟩, empty⟩
  | single ba =>
    cases fresh
    exact ⟨trivial, rfl⟩

theorem EitherAccumulator.reserve_roomy
    (roomy : ∀ (owned : O) (additional : Nat), Owned.reserve owned additional ≠ none)
    (buf : EitherAccumulator O) (additional : Nat) :
    BytesAccumulator.reserve buf additional ≠ none := by
  cases buf with
  | iovecs ba =>
    obtain ⟨owned, reserved⟩ := Option.ne_none_iff_exists'.mp (roomy ba.owned additional)
    simp [BytesAccumulator.reserve, IovecsAccumulator.reserve, reserved]
  | single ba => simp [BytesAccumulator.reserve]

/-- A new writer was used in this way, up to its last call or to the one that ended it. -/
def Usage.Reached (buf : EitherAccumulator O) (uses : List Use)
    (usage : Usage (EitherAccumulator O)) : Prop :=
  Transition.exec Usage.step (.new buf) uses = .ok usage ∨
    Transition.exec Usage.step (.new buf) uses = .error usage

theorem Usage.Reached.ok {buf : EitherAccumulator O} {uses : List Use}
    {usage : Usage (EitherAccumulator O)} (reached : Usage.Reached buf uses usage)
    (returned : usage.last = .ok) : Transition.exec Usage.step (.new buf) uses = .ok usage := by
  rcases reached with ran | ran
  · exact ran
  · obtain ⟨early, use, middle, first, last⟩ := Transition.exec_error ran
    simp only [Usage.step] at last
    split at last
    · rename_i ended
      cases last
      simp [returned, Outcome.ended] at ended
    · cases last

theorem Usage.Reached.sound {buf : EitherAccumulator O} {uses : List Use}
    {usage : Usage (EitherAccumulator O)} (fresh : buf.Fresh)
    (reached : Usage.Reached buf uses usage) : usage.Sound := by
  rcases reached with ran | ran
  · exact Usage.exec_sound fresh.valid rfl ran
  · exact Usage.exec_stopped fresh.valid ran

theorem Usage.exec_flush {buf : EitherAccumulator O} (fresh : buf.Fresh) {earlier : List Use}
    {answers : List Answer} {usage : Usage (EitherAccumulator O)}
    (ran : Transition.exec Usage.step (.new buf) (earlier ++ [⟨.flush, answers⟩]) = .ok usage) :
    usage.writer.inner.accepted = usage.code := by
  obtain ⟨middle, first, last⟩ := Transition.exec_snoc_ok ran
  exact (Usage.step_ok (Usage.exec_valid fresh.valid first) last).2.2.1 rfl

/-- Whatever the calls and however the stream takes the bytes: what it has accepted is the
start of the encodings of the packets written, and all of them when a flush returns. Both
kinds of accumulator then have sent the same. -/
theorem accepted_exact {buf : EitherAccumulator O} (fresh : buf.Fresh) {uses : List Use}
    {usage : Usage (EitherAccumulator O)} (reached : Usage.Reached buf uses usage) :
    usage.writer.inner.accepted <+: usage.code ∧
      (usage.last ≠ .panic ∧ usage.last ≠ .diverged) ∧
      (usage.last = .pending → usage.writer.inner.answers = []) ∧
      (∀ ba, usage.writer.buf = .iovecs ba →
        ba.totalSize = (ba.chunks.map List.length).sum ∧ [] ∉ ba.chunks ∧
          Owned.filled ba.owned = []) ∧
      ∀ earlier answers, uses = earlier ++ [⟨.flush, answers⟩] → usage.last = .ok →
        usage.writer.inner.accepted = usage.code ∧
          ∀ (other : EitherAccumulator O) (others : List Use) (final : Usage (EitherAccumulator O)),
            (∀ (owned : O) (additional : Nat), Owned.reserve owned additional ≠ none) →
            other.Fresh → Usage.Reached other others final →
            others.map Use.call = uses.map Use.call → final.last = .ok →
            final.writer.inner.accepted = usage.writer.inner.accepted := by
  have sound := reached.sound fresh
  refine ⟨sound.sent, sound.safe, sound.waiting, ?_, ?_⟩
  · intro ba chosen
    have settled := sound.settled
    rw [chosen] at settled
    obtain ⟨valid, committed⟩ : ba.Valid ∧ Owned.filled ba.owned = [] := settled
    refine ⟨by rw [valid.total, List.length_flatten], ?_, committed⟩
    exact fun member => valid.filled [] member rfl
  · rintro earlier answers rfl returned
    have ran := reached.ok returned
    have all := Usage.exec_flush fresh ran
    refine ⟨all, ?_⟩
    intro other others final roomy otherFresh otherReached calls otherReturned
    have otherRan := otherReached.ok otherReturned
    -- The same calls end with a flush as well.
    obtain ⟨before, otherAnswers, rfl⟩ : ∃ before answers,
        others = before ++ [⟨.flush, answers⟩] := by
      obtain ⟨before, rest, rfl, _, back⟩ :=
        List.map_eq_append_iff.mp (calls.trans List.map_append)
      obtain ⟨⟨call, answers⟩, rfl⟩ : ∃ last, rest = [last] :=
        List.length_eq_one_iff.mp (by simpa using congrArg List.length back)
      obtain rfl : call = .flush := by simpa using back
      exact ⟨before, answers, rfl⟩
    have reserves := EitherAccumulator.reserve_roomy roomy
    have written := Usage.exec_written reserves fresh.valid ran
    have otherWritten := Usage.exec_written reserves otherFresh.valid otherRan
    rw [Usage.exec_flush otherFresh otherRan, all, Usage.code, Usage.code, written, otherWritten,
      calls]
    rfl

end

/-- A ping, taken by the stream one byte at a time. -/
def pingThenFlush : List Use :=
  [⟨.write .pingReq .v5, []⟩, ⟨.flush, [.accepts 1, .accepts 5, .accepts 0]⟩]

def heapIovecs : EitherAccumulator BytesMut := .iovecs (.new {})

theorem accepted_pingThenFlush :
    (Transition.exec Usage.step (.new heapIovecs) pingThenFlush).toOption.map
        (fun usage => (usage.last, usage.writer.inner.accepted)) = some (.ok, [0xC0, 0x00]) ∧
      ∀ usage, Transition.exec Usage.step (.new heapIovecs) pingThenFlush = .ok usage →
        usage.writer.inner.accepted <+: usage.code :=
  ⟨by decide, fun _ ran =>
    (accepted_exact (show heapIovecs.Fresh from ⟨{}, rfl, rfl⟩) (.inl ran)).1⟩

end MqttClient.Io
