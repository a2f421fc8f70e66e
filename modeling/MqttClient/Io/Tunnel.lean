import MqttClient.Io.WebSocket

/-! A byte stream between the two ends of a WebSocket: what one end writes, in messages of its
own choice, is what the other end reads, in buffers of its own choice. -/

namespace MqttClient.Io.WebSocket

open Proto

/-- What the sink of messages can be answered with: no room yet, no room any more, and with
room, whether the message is taken. -/
inductive SinkPoll where
  | pending
  | unready (error : TungsteniteError)
  | taken
  | refused (error : TungsteniteError)
  deriving DecidableEq, Repr

/-- What a poll of a writer is answered with. -/
inductive WritePoll where
  | pending
  | ready (written : Nat)
  | error (error : IoError)
  deriving DecidableEq, Repr

/-- The answers that the sink of messages is going to give, and the payloads of the binary
messages it has taken. -/
structure WebSocketSink where
  polls : List SinkPoll
  sent : List Bytes := []
  deriving DecidableEq, Repr

def tungsteniteErrToIoErr : TungsteniteError → IoError
  | .io error => .io error
  | .other error => .other error

def pollWrite (sink : WebSocketSink) (buf : Bytes) : WritePoll × WebSocketSink :=
  match sink.polls with
  | [] => (.pending, sink)
  | .pending :: polls => (.pending, { sink with polls })
  | .unready error :: polls => (.error (tungsteniteErrToIoErr error), { sink with polls })
  | .taken :: polls => (.ready buf.length, ⟨polls, sink.sent ++ [buf]⟩)
  | .refused error :: polls => (.error (tungsteniteErrToIoErr error), { sink with polls })

/-- The first of the slices that is not empty. -/
def firstSlice (bufs : List Bytes) : Bytes := (bufs.find? fun buf => !buf.isEmpty).getD []

/-- Without a method of its own, a vectored write is a write of the first slice. -/
def pollWriteVectored (sink : WebSocketSink) (bufs : List Bytes) : WritePoll × WebSocketSink :=
  pollWrite sink (firstSlice bufs)

/-- A flush writes nothing new. -/
def pollFlush (sink : WebSocketSink) : WritePoll × WebSocketSink :=
  match sink.polls with
  | [] => (.pending, sink)
  | .pending :: polls => (.pending, { sink with polls })
  | .taken :: polls => (.ready 0, { sink with polls })
  | .unready error :: polls => (.error (tungsteniteErrToIoErr error), { sink with polls })
  | .refused error :: polls => (.error (tungsteniteErrToIoErr error), { sink with polls })

/-- What a writer can poll. -/
inductive Call where
  | writeVectored (bufs : List Bytes)
  | flush
  deriving DecidableEq, Repr

/-- The bytes that a call offers. -/
def Call.offered : Call → Bytes
  | .writeVectored bufs => bufs.flatten
  | .flush => []

def poll (sink : WebSocketSink) : Call → WritePoll × WebSocketSink
  | .writeVectored bufs => pollWriteVectored sink bufs
  | .flush => pollFlush sink

/-- One call after the other, with their answers. -/
def writes : WebSocketSink → List Call → List (Call × WritePoll) × WebSocketSink
  | sink, [] => ([], sink)
  | sink, call :: calls =>
    let (answer, next) := poll sink call
    let (answers, final) := writes next calls
    ((call, answer) :: answers, final)

/-- The bytes that a call was told to be written. -/
def reported : Call × WritePoll → Bytes
  | (call, .ready written) => call.offered.take written
  | _ => []

def NextPoll.payload? : NextPoll → Option Bytes
  | .message (.binary payload) => some payload
  | _ => none

/-- The payloads that arrive before the stream ends. -/
def arrived : List NextPoll → List Bytes
  | [] => []
  | poll :: inner => if poll.stop? = none then poll.payload?.toList ++ arrived inner else []

/-! ### Writing -/

theorem firstSlice_starts (bufs : List Bytes) : firstSlice bufs <+: bufs.flatten := by
  induction bufs with
  | nil => exact List.prefix_rfl
  | cons buf bufs ih =>
    cases buf with
    | nil => exact ih
    | cons byte bytes => exact List.prefix_append _ _

theorem firstSlice_ne_nil {bufs : List Bytes} (some : bufs.flatten ≠ []) :
    firstSlice bufs ≠ [] := by
  induction bufs with
  | nil => contradiction
  | cons buf bufs ih =>
    cases buf with
    | nil => exact ih some
    | cons byte bytes => exact List.cons_ne_nil _ _

/-- What the answer to a call means: a front of what was offered is in the messages, or nothing
is. -/
structure Answered (sink : WebSocketSink) (call : Call) (answer : WritePoll)
    (next : WebSocketSink) : Prop where
  sent : next.sent.flatten = sink.sent.flatten ++ reported (call, answer)
  /-- The number is that of the bytes. -/
  counted : ∀ written, answer = .ready written → written ≤ call.offered.length
  /-- A write of something is not answered with nothing. -/
  progress : ∀ written, answer = .ready written → call.offered ≠ [] → 0 < written

/-- A call that the sink does not take anything from. -/
theorem Answered.unsent {sink next : WebSocketSink} {call : Call} {answer : WritePoll}
    (same : next.sent = sink.sent) (unready : ∀ written, answer ≠ .ready written) :
    Answered sink call answer next where
  sent := by
    cases answer with
    | ready written => exact absurd rfl (unready written)
    | _ => simp [same, reported]
  counted := fun written answered => absurd answered (unready written)
  progress := fun written answered => absurd answered (unready written)

theorem pollWriteVectored_answered (sink : WebSocketSink) (bufs : List Bytes) :
    Answered sink (.writeVectored bufs) (pollWriteVectored sink bufs).1
      (pollWriteVectored sink bufs).2 := by
  rw [pollWriteVectored, pollWrite]
  split
  · exact .unsent rfl (by simp)
  · exact .unsent rfl (by simp)
  · exact .unsent rfl (by simp)
  · have front := List.prefix_iff_eq_take.mp (firstSlice_starts bufs)
    constructor
    · simp [reported, Call.offered, ← front]
    · rintro written ⟨⟩
      exact (firstSlice_starts bufs).length_le
    · rintro written ⟨⟩ offered
      exact List.length_pos_iff.mpr (firstSlice_ne_nil offered)
  · exact .unsent rfl (by simp)

theorem pollFlush_answered (sink : WebSocketSink) :
    Answered sink .flush (pollFlush sink).1 (pollFlush sink).2 := by
  rw [pollFlush]
  split
  · exact .unsent rfl (by simp)
  · exact .unsent rfl (by simp)
  · constructor
    · simp [reported]
    · rintro written ⟨⟩
      exact Nat.zero_le _
    · rintro written ⟨⟩ offered
      exact absurd rfl offered
  · exact .unsent rfl (by simp)
  · exact .unsent rfl (by simp)

theorem poll_answered (sink : WebSocketSink) (call : Call) :
    Answered sink call (poll sink call).1 (poll sink call).2 := by
  cases call with
  | writeVectored bufs => exact pollWriteVectored_answered sink bufs
  | flush => exact pollFlush_answered sink

theorem writes_cons (sink : WebSocketSink) (call : Call) (calls : List Call) :
    writes sink (call :: calls) =
      ((call, (poll sink call).1) :: (writes (poll sink call).2 calls).1,
        (writes (poll sink call).2 calls).2) :=
  rfl

/-- The messages are what was reported. -/
theorem writes_sent (sink : WebSocketSink) (calls : List Call) :
    (writes sink calls).2.sent.flatten =
      sink.sent.flatten ++ (writes sink calls).1.flatMap reported := by
  induction calls generalizing sink with
  | nil => simp [writes]
  | cons call calls ih =>
    have first := (poll_answered sink call).sent
    rw [writes_cons, List.flatMap_cons, ← List.append_assoc, ← first]
    exact ih (poll sink call).2

theorem writes_answered (sink : WebSocketSink) (calls : List Call) :
    ∀ entry ∈ (writes sink calls).1, ∃ before after, Answered before entry.1 entry.2 after := by
  induction calls generalizing sink with
  | nil => simp [writes]
  | cons call calls ih =>
    rw [writes_cons, List.forall_mem_cons]
    exact ⟨⟨sink, _, poll_answered sink call⟩, ih (poll sink call).2⟩

/-! ### Reading -/

theorem NextPoll.bytes_eq (poll : NextPoll) : poll.bytes = poll.payload?.toList.flatten := by
  cases poll with
  | message message => cases message <;> simp [bytes, payload?]
  | _ => rfl

theorem payload_eq_arrived (inner : List NextPoll) : payload inner = (arrived inner).flatten := by
  induction inner with
  | nil => rfl
  | cons poll inner ih =>
    rw [payload, arrived, poll.bytes_eq, ih]
    split
    · exact List.flatten_append.symm
    · rfl

/-- What both ends of a WebSocket can rely on. -/
structure Tunnels (calls : List (Call × WritePoll)) (sent : List Bytes) (inner : List NextPoll)
    (buffers : List Nat) (answers : List ReadPoll) : Prop where
  /-- A write reports a front of what it was offered, and some of it if there was something. -/
  counted : ∀ call written, (call, WritePoll.ready written) ∈ calls →
    written ≤ call.offered.length ∧ (call.offered ≠ [] → 0 < written)
  /-- What is delivered is what was reported, in order, without a byte more or less between. -/
  ordered : delivered answers <+: calls.flatMap reported
  /-- A reader that is stopped has been given everything that arrived. -/
  stopped : answers.find? ReadPoll.isStop ≠ none → delivered answers = (arrived inner).flatten
  /-- If everything arrives, enough polls deliver all that was reported. -/
  complete : arrived inner = sent →
    inner.length + (calls.flatMap reported).length ≤ buffers.length →
    delivered answers = calls.flatMap reported

/-- However the writer is polled and answered, whatever part of its messages has arrived, among
whatever others, and whatever buffers the reader has: it is delivered what was reported as
written. -/
theorem tunnel_exact (polls : List SinkPoll) (calls : List Call) (inner : List NextPoll)
    (buffers : List Nat) (room : ∀ size ∈ buffers, 0 < size)
    (carried : arrived inner <+: (writes ⟨polls, []⟩ calls).2.sent) :
    Tunnels (writes ⟨polls, []⟩ calls).1 (writes ⟨polls, []⟩ calls).2.sent inner buffers
      (reads ⟨inner, []⟩ buffers).1 := by
  have sent : (writes ⟨polls, []⟩ calls).2.sent.flatten =
      (writes ⟨polls, []⟩ calls).1.flatMap reported := writes_sent ⟨polls, []⟩ calls
  have content : payload inner <+: (writes ⟨polls, []⟩ calls).1.flatMap reported := by
    obtain ⟨later, whole⟩ := carried
    rw [payload_eq_arrived, ← sent, ← whole, List.flatten_append]
    exact List.prefix_append _ _
  constructor
  · intro call written member
    obtain ⟨before, after, answered⟩ := writes_answered ⟨polls, []⟩ calls _ member
    exact ⟨answered.counted written rfl, answered.progress written rfl⟩
  · cases ended : (reads ⟨inner, []⟩ buffers).1.find? ReadPoll.isStop with
    | none =>
      have split := reads_going ⟨inner, []⟩ room ended
      exact List.IsPrefix.trans ⟨_, split⟩ content
    | some stop =>
      have whole := (reads_stopped ⟨inner, []⟩ room ended).1
      rw [whole]
      exact content
  · intro ended
    obtain ⟨stop, found⟩ := Option.ne_none_iff_exists'.mp ended
    rw [(reads_stopped ⟨inner, []⟩ room found).1, ← payload_eq_arrived]
    rfl
  · intro all enough
    have whole : payload inner = (writes ⟨polls, []⟩ calls).1.flatMap reported := by
      rw [payload_eq_arrived, all, sent]
    rw [← whole] at enough
    rw [← whole]
    exact (reads_complete ⟨inner, []⟩ room enough).1

/-- A write of two slices, a flush, and a write of what is left. -/
def twoWrites : List Call := [.writeVectored [[], [1, 2, 3], [4]], .flush, .writeVectored [[4]]]

/-- The two messages, among others that carry nothing. -/
def twoMessages : List NextPoll :=
  [.message (.ping [7]), .message (.binary [1, 2, 3]), .pending, .message (.pong []),
    .message (.binary [4]), .message .close]

theorem tunnel_exact_twoWrites :
    (writes ⟨[.taken, .pending, .taken], []⟩ twoWrites).1 =
        [(.writeVectored [[], [1, 2, 3], [4]], .ready 3), (.flush, .pending),
          (.writeVectored [[4]], .ready 1)] ∧
      arrived twoMessages = (writes ⟨[.taken, .pending, .taken], []⟩ twoWrites).2.sent ∧
      delivered (reads ⟨twoMessages, []⟩ (List.replicate 10 2)).1 = [1, 2, 3, 4] := by
  have all : arrived twoMessages = (writes ⟨[.taken, .pending, .taken], []⟩ twoWrites).2.sent := rfl
  have tunnels := tunnel_exact [.taken, .pending, .taken] twoWrites twoMessages
    (List.replicate 10 2) (by decide) (all ▸ List.prefix_rfl)
  exact ⟨rfl, all, tunnels.complete all (by decide)⟩

end MqttClient.Io.WebSocket
