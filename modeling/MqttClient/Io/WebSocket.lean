import MqttClient.Io.Reader

/-! The byte stream over a WebSocket: the payloads of binary messages, read into buffers of any
sizes. -/

namespace MqttClient.Io.WebSocket

open Proto

inductive Message where
  | binary (payload : Bytes)
  | text (content : String)
  | ping (payload : Bytes)
  | pong (payload : Bytes)
  | close
  | frame
  deriving DecidableEq, Repr

inductive TungsteniteError where
  | io (error : String)
  | other (error : String)
  deriving DecidableEq, Repr

/-- What a poll of the stream of messages can be answered with. -/
inductive NextPoll where
  | pending
  | message (message : Message)
  | error (error : TungsteniteError)
  | ended
  deriving DecidableEq, Repr

inductive IoError where
  | invalidData (message : String)
  | io (error : String)
  | other (error : String)
  deriving DecidableEq, Repr

/-- What a poll of the stream of bytes is answered with. -/
inductive ReadPoll where
  | pending
  | ready (bytes : Bytes)
  | error (error : IoError)
  | panic
  deriving DecidableEq, Repr

/-- The answers that the stream of messages is going to give, and what is left of the last
message. -/
structure WebSocketStream where
  inner : List NextPoll
  nextRead : Bytes := []
  deriving DecidableEq, Repr

/-- The loop of `pollRead` with room for so many bytes. -/
def pollReadLoop (remaining : Nat) : Bytes → List NextPoll → ReadPoll × WebSocketStream
  | byte :: bytes, inner =>
    let toRead := min remaining (byte :: bytes).length
    (.ready ((byte :: bytes).take toRead), ⟨inner, (byte :: bytes).drop toRead⟩)
  | [], [] => (.pending, ⟨[], []⟩)
  | [], poll :: inner =>
    match poll with
    | .message (.binary nextRead) => pollReadLoop remaining nextRead inner
    | .message (.text _) =>
      (.error (.invalidData "MQTT data must be sent in WebSocket binary frames"), ⟨inner, []⟩)
    | .message .close => (.ready [], ⟨inner, []⟩)
    | .message (.ping _) => pollReadLoop remaining [] inner
    | .message (.pong _) => pollReadLoop remaining [] inner
    | .message .frame => (.panic, ⟨inner, []⟩)
    | .error (.io fault) => (.error (.io fault), ⟨inner, []⟩)
    | .error (.other fault) => (.error (.other fault), ⟨inner, []⟩)
    | .ended => (.ready [], ⟨inner, []⟩)
    | .pending => (.pending, ⟨inner, []⟩)

def pollRead (stream : WebSocketStream) (remaining : Nat) : ReadPoll × WebSocketStream :=
  pollReadLoop remaining stream.nextRead stream.inner

/-- Polls with one buffer after the other. -/
def reads : WebSocketStream → List Nat → List ReadPoll × WebSocketStream
  | stream, [] => ([], stream)
  | stream, remaining :: buffers =>
    let (answer, next) := pollRead stream remaining
    let (answers, final) := reads next buffers
    (answer :: answers, final)

/-- The payload of a message that has one. -/
def NextPoll.bytes : NextPoll → Bytes
  | .message (.binary payload) => payload
  | _ => []

/-- What ends the stream of bytes, and the answer that tells it. -/
def NextPoll.stop? : NextPoll → Option ReadPoll
  | .message (.text _) =>
    some (.error (.invalidData "MQTT data must be sent in WebSocket binary frames"))
  | .message .close => some (.ready [])
  | .message .frame => some .panic
  | .error (.io fault) => some (.error (.io fault))
  | .error (.other fault) => some (.error (.other fault))
  | .ended => some (.ready [])
  | _ => none

/-- A message that carries nothing. -/
def NextPoll.Silent (poll : NextPoll) : Prop :=
  poll = .message (.binary []) ∨ (∃ payload, poll = .message (.ping payload)) ∨
    ∃ payload, poll = .message (.pong payload)

/-- The payloads up to what ends the stream. -/
def payload : List NextPoll → Bytes
  | [] => []
  | poll :: inner => if poll.stop? = none then poll.bytes ++ payload inner else []

/-- The first of the messages that ends the stream. -/
def firstStop (inner : List NextPoll) : Option ReadPoll := inner.findSome? NextPoll.stop?

def ReadPoll.bytes : ReadPoll → Bytes
  | .ready bytes => bytes
  | _ => []

/-- A reader stops at an error, and at a read of no bytes. -/
def ReadPoll.isStop : ReadPoll → Bool
  | .pending => false
  | .ready bytes => bytes.isEmpty
  | .error _ => true
  | .panic => true

/-- The bytes that a reader gets before it stops. -/
def delivered : List ReadPoll → Bytes
  | [] => []
  | answer :: answers => if answer.isStop then [] else answer.bytes ++ delivered answers

/-- What a poll of the stream does: it passes messages that carry nothing, and then delivers
the front of a payload, waits, or ends. -/
inductive Polled (remaining : Nat) (stream : WebSocketStream) : ReadPoll → WebSocketStream → Prop
  | left {front rest : Bytes} (present : front ≠ []) (fits : front.length ≤ remaining)
    (split : stream.nextRead = front ++ rest) :
    Polled remaining stream (.ready front) ⟨stream.inner, rest⟩
  | read {skipped inner : List NextPoll} {front rest : Bytes} (empty : stream.nextRead = [])
    (passed : ∀ poll ∈ skipped, poll.Silent) (present : front ≠ [])
    (fits : front.length ≤ remaining)
    (split : stream.inner = skipped ++ .message (.binary (front ++ rest)) :: inner) :
    Polled remaining stream (.ready front) ⟨inner, rest⟩
  | pending {skipped inner : List NextPoll} (empty : stream.nextRead = [])
    (passed : ∀ poll ∈ skipped, poll.Silent) (split : stream.inner = skipped ++ .pending :: inner) :
    Polled remaining stream .pending ⟨inner, []⟩
  | drained (empty : stream.nextRead = []) (passed : ∀ poll ∈ stream.inner, poll.Silent) :
    Polled remaining stream .pending ⟨[], []⟩
  | stop {skipped inner : List NextPoll} {last : NextPoll} {answer : ReadPoll}
    (empty : stream.nextRead = []) (passed : ∀ poll ∈ skipped, poll.Silent)
    (split : stream.inner = skipped ++ last :: inner) (stops : last.stop? = some answer) :
    Polled remaining stream answer ⟨inner, []⟩

theorem Polled.skip {remaining : Nat} {poll : NextPoll} {inner : List NextPoll}
    {answer : ReadPoll} {next : WebSocketStream} (silent : poll.Silent)
    (polled : Polled remaining ⟨inner, []⟩ answer next) :
    Polled remaining ⟨poll :: inner, []⟩ answer next := by
  have extended {skipped : List NextPoll} (passed : ∀ earlier ∈ skipped, earlier.Silent) :
      ∀ earlier ∈ poll :: skipped, earlier.Silent := by
    intro earlier membership
    rcases List.mem_cons.mp membership with rfl | later
    · exact silent
    · exact passed earlier later
  cases polled with
  | left present _ split => exact absurd (List.append_eq_nil_iff.mp split.symm).1 present
  | read _ passed present fits split =>
    exact .read rfl (extended passed) present fits (congrArg (poll :: ·) split)
  | pending _ passed split => exact .pending rfl (extended passed) (congrArg (poll :: ·) split)
  | drained _ passed => exact .drained rfl (extended passed)
  | stop _ passed split stops =>
    exact .stop rfl (extended passed) (congrArg (poll :: ·) split) stops

private theorem front_ne_nil {remaining : Nat} (room : 0 < remaining) (byte : UInt8)
    (bytes : Bytes) :
    (byte :: bytes).take (min remaining (byte :: bytes).length) ≠ [] := by
  apply List.ne_nil_of_length_pos
  simp only [List.length_take, List.length_cons]
  omega

theorem pollReadLoop_polled {remaining : Nat} (room : 0 < remaining) (nextRead : Bytes)
    (inner : List NextPoll) :
    Polled remaining ⟨inner, nextRead⟩ (pollReadLoop remaining nextRead inner).1
      (pollReadLoop remaining nextRead inner).2 := by
  induction inner generalizing nextRead with
  | nil =>
    cases nextRead with
    | nil => exact .drained rfl (by simp)
    | cons byte bytes =>
      exact .left (front_ne_nil room byte bytes) (by simp) (List.take_append_drop _ _).symm
  | cons poll inner ih =>
    cases nextRead with
    | cons byte bytes =>
      exact .left (front_ne_nil room byte bytes) (by simp) (List.take_append_drop _ _).symm
    | nil =>
      have stop {last : NextPoll} {answer : ReadPoll} (stops : last.stop? = some answer) :
          Polled remaining ⟨last :: inner, []⟩ answer ⟨inner, []⟩ :=
        .stop rfl (List.forall_mem_nil _) rfl stops
      match poll with
      | .pending => exact .pending rfl (List.forall_mem_nil _) rfl
      | .message (.binary []) => exact (ih []).skip (.inl rfl)
      | .message (.binary (byte :: bytes)) =>
        have split : (byte :: bytes).take (min remaining (byte :: bytes).length) ++
            (byte :: bytes).drop (min remaining (byte :: bytes).length) = byte :: bytes :=
          List.take_append_drop _ _
        simp only [pollReadLoop]
        refine .read rfl (List.forall_mem_nil _) (front_ne_nil room byte bytes) (by simp) ?_
        rw [split, List.nil_append]
      | .message (.ping payload) => exact (ih []).skip (.inr (.inl ⟨payload, rfl⟩))
      | .message (.pong payload) => exact (ih []).skip (.inr (.inr ⟨payload, rfl⟩))
      | .message (.text _) => exact stop rfl
      | .message .close => exact stop rfl
      | .message .frame => exact stop rfl
      | .error (.io _) => exact stop rfl
      | .error (.other _) => exact stop rfl
      | .ended => exact stop rfl

theorem pollRead_polled {remaining : Nat} (room : 0 < remaining) (stream : WebSocketStream) :
    Polled remaining stream (pollRead stream remaining).1 (pollRead stream remaining).2 :=
  pollReadLoop_polled room stream.nextRead stream.inner

/-- The bytes that are still to be delivered before the stream ends. -/
def content (stream : WebSocketStream) : Bytes := stream.nextRead ++ payload stream.inner

/-- The bytes of all binary messages, also of those after the end. -/
def carried (stream : WebSocketStream) : Bytes :=
  stream.nextRead ++ stream.inner.flatMap NextPoll.bytes

theorem firstStop_cons (poll : NextPoll) (inner : List NextPoll) :
    firstStop (poll :: inner) = poll.stop?.or (firstStop inner) := by
  rw [firstStop, List.findSome?_cons]
  cases poll.stop? <;> rfl

theorem NextPoll.Silent.bytes {poll : NextPoll} (silent : poll.Silent) : poll.bytes = [] := by
  rcases silent with rfl | ⟨payload, rfl⟩ | ⟨payload, rfl⟩ <;> rfl

theorem NextPoll.Silent.stop? {poll : NextPoll} (silent : poll.Silent) : poll.stop? = none := by
  rcases silent with rfl | ⟨payload, rfl⟩ | ⟨payload, rfl⟩ <;> rfl

theorem NextPoll.stop?_bytes {poll : NextPoll} {answer : ReadPoll}
    (stops : poll.stop? = some answer) :
    poll.bytes = [] ∧ answer.isStop = true ∧ answer.bytes = [] := by
  unfold NextPoll.stop? at stops
  split at stops <;> simp_all [NextPoll.bytes, ReadPoll.isStop, ReadPoll.bytes]
  all_goals subst stops; simp

section Skipped

variable {skipped : List NextPoll} (passed : ∀ poll ∈ skipped, poll.Silent)
include passed

theorem payload_skip (inner : List NextPoll) : payload (skipped ++ inner) = payload inner := by
  induction skipped with
  | nil => rfl
  | cons poll skipped ih =>
    have silent := passed poll List.mem_cons_self
    rw [List.cons_append, payload, if_pos silent.stop?, silent.bytes, List.nil_append]
    exact ih (fun later membership => passed later (List.mem_cons_of_mem poll membership))

theorem firstStop_skip (inner : List NextPoll) :
    firstStop (skipped ++ inner) = firstStop inner := by
  have nothing : skipped.findSome? NextPoll.stop? = none :=
    List.findSome?_eq_none_iff.mpr fun poll membership => (passed poll membership).stop?
  rw [firstStop, List.findSome?_append, nothing, Option.none_or, firstStop]

theorem flatMap_skip (inner : List NextPoll) :
    (skipped ++ inner).flatMap NextPoll.bytes = inner.flatMap NextPoll.bytes := by
  have nothing : skipped.flatMap NextPoll.bytes = [] :=
    List.flatMap_eq_nil_iff.mpr fun poll membership => (passed poll membership).bytes
  rw [List.flatMap_append, nothing, List.nil_append]

end Skipped

section Poll

variable {remaining : Nat} {stream next : WebSocketStream} {answer : ReadPoll}

/-- No byte is lost or repeated by a poll, whatever it is answered with. -/
theorem Polled.carried (polled : Polled remaining stream answer next) :
    carried stream = answer.bytes ++ carried next := by
  cases polled with
  | left _ _ split => simp [WebSocket.carried, split, ReadPoll.bytes]
  | read empty passed _ _ split =>
    simp [WebSocket.carried, empty, split, flatMap_skip passed, NextPoll.bytes, ReadPoll.bytes]
  | pending empty passed split =>
    simp [WebSocket.carried, empty, split, flatMap_skip passed, NextPoll.bytes, ReadPoll.bytes]
  | drained empty passed =>
    have nothing := flatMap_skip passed []
    rw [List.append_nil] at nothing
    simp [WebSocket.carried, empty, nothing, ReadPoll.bytes]
  | stop empty passed split stops =>
    obtain ⟨carries, _, silent⟩ := NextPoll.stop?_bytes stops
    simp [WebSocket.carried, empty, split, flatMap_skip passed, carries, silent]

/-- A poll that does not end the stream delivers the next bytes of it. -/
theorem Polled.going (polled : Polled remaining stream answer next)
    (goes : answer.isStop = false) :
    content stream = answer.bytes ++ content next ∧
      firstStop stream.inner = firstStop next.inner := by
  cases polled with
  | left _ _ split => simp [content, split, ReadPoll.bytes]
  | read empty passed _ _ split =>
    rw [content, empty, split, payload_skip passed, firstStop_skip passed]
    simp [payload, firstStop_cons, NextPoll.stop?, NextPoll.bytes, ReadPoll.bytes, content]
  | pending empty passed split =>
    rw [content, empty, split, payload_skip passed, firstStop_skip passed]
    simp [payload, firstStop_cons, NextPoll.stop?, NextPoll.bytes, ReadPoll.bytes, content]
  | drained empty passed =>
    have nothing := payload_skip passed []
    have endless := firstStop_skip passed []
    rw [List.append_nil] at nothing endless
    rw [content, empty, nothing, endless]
    exact ⟨rfl, rfl⟩
  | stop _ _ _ stops =>
    have halted := (NextPoll.stop?_bytes stops).2.1
    rw [goes] at halted
    contradiction

/-- A poll that ends the stream has found all bytes delivered and tells what ended it. -/
theorem Polled.stopped (polled : Polled remaining stream answer next)
    (halted : answer.isStop = true) :
    content stream = [] ∧ firstStop stream.inner = some answer := by
  cases polled with
  | left present _ _ => exact absurd (List.isEmpty_iff.mp halted) present
  | read _ _ present _ _ => exact absurd (List.isEmpty_iff.mp halted) present
  | pending _ _ _ => contradiction
  | drained _ _ => contradiction
  | stop empty passed split stops =>
    rw [content, empty, split, payload_skip passed, firstStop_skip passed]
    simp [payload, firstStop_cons, stops]

/-- How many polls the stream has to answer at most until it has ended. -/
def pollsLeft (stream : WebSocketStream) : Nat := stream.inner.length + (content stream).length

theorem Polled.pollsLeft_le (polled : Polled remaining stream answer next)
    (goes : answer.isStop = false) : pollsLeft next ≤ pollsLeft stream - 1 := by
  have same := congrArg List.length (polled.going goes).1
  rw [List.length_append] at same
  cases polled with
  | left present _ _ =>
    have some := List.length_pos_iff.mpr present
    simp only [ReadPoll.bytes] at same
    simp only [pollsLeft]
    omega
  | read _ _ _ _ split =>
    simp only [pollsLeft, split, List.length_append, List.length_cons]
    omega
  | pending _ _ split =>
    simp only [pollsLeft, split, List.length_append, List.length_cons]
    omega
  | drained _ _ => exact Nat.zero_le _
  | stop _ _ split _ =>
    simp only [pollsLeft, split, List.length_append, List.length_cons]
    omega

/-- A poll that ends the stream of bytes without an error: nothing was left of the last
message, and a close message or the end of the stream comes next but for messages that carry
nothing. -/
structure AtEnd (stream next : WebSocketStream) : Prop where
  empty : stream.nextRead = []
  closed : ∃ skipped last, stream.inner = skipped ++ last :: next.inner ∧
    (∀ poll ∈ skipped, poll.Silent) ∧ (last = .message .close ∨ last = .ended)

theorem NextPoll.eq_of_stop?_eq_ready {poll : NextPoll} (stops : poll.stop? = some (.ready [])) :
    poll = .message .close ∨ poll = .ended := by
  unfold NextPoll.stop? at stops
  split at stops <;> simp_all

theorem Polled.atEnd (polled : Polled remaining stream (.ready []) next) : AtEnd stream next := by
  cases polled with
  | left present _ _ => contradiction
  | read _ _ present _ _ => contradiction
  | stop empty passed split stops =>
    exact ⟨empty, _, _, split, passed, NextPoll.eq_of_stop?_eq_ready stops⟩

theorem Polled.suffix (polled : Polled remaining stream answer next) :
    next.inner <:+ stream.inner := by
  have later {skipped inner : List NextPoll} {poll : NextPoll}
      (split : stream.inner = skipped ++ poll :: inner) : inner <:+ stream.inner := by
    refine ⟨skipped ++ [poll], ?_⟩
    rw [split, List.append_assoc, List.singleton_append]
  cases polled with
  | left _ _ _ => exact List.suffix_refl _
  | read _ _ _ _ split => exact later split
  | pending _ _ split => exact later split
  | drained _ _ => exact List.nil_suffix
  | stop _ _ split _ => exact later split

end Poll

theorem reads_cons (stream : WebSocketStream) (remaining : Nat) (buffers : List Nat) :
    reads stream (remaining :: buffers) =
      ((pollRead stream remaining).1 :: (reads (pollRead stream remaining).2 buffers).1,
        (reads (pollRead stream remaining).2 buffers).2) := rfl

theorem find?_stop {answer : ReadPoll} (halted : answer.isStop = true) (answers : List ReadPoll) :
    delivered (answer :: answers) = [] ∧
      (answer :: answers).find? ReadPoll.isStop = some answer := by
  rw [delivered, if_pos halted, List.find?_cons_of_pos halted]
  exact ⟨rfl, rfl⟩

theorem find?_going {answer : ReadPoll} (goes : answer.isStop = false)
    (answers : List ReadPoll) :
    delivered (answer :: answers) = answer.bytes ++ delivered answers ∧
      (answer :: answers).find? ReadPoll.isStop = answers.find? ReadPoll.isStop := by
  have going : ¬ answer.isStop = true := Bool.eq_false_iff.mp goes
  rw [delivered, if_neg going, List.find?_cons_of_neg going]
  exact ⟨rfl, rfl⟩

section Runs

variable (stream : WebSocketStream) {buffers : List Nat} (room : ∀ size ∈ buffers, 0 < size)
include room

theorem reads_carried :
    (reads stream buffers).1.flatMap ReadPoll.bytes ++ carried (reads stream buffers).2 =
      carried stream := by
  induction buffers generalizing stream with
  | nil => rfl
  | cons size buffers ih =>
    obtain ⟨fits, further⟩ := List.forall_mem_cons.mp room
    have polled := pollRead_polled fits stream
    rw [reads_cons, List.flatMap_cons, List.append_assoc, ih (pollRead stream size).2 further,
      polled.carried]

theorem reads_suffix : (reads stream buffers).2.inner <:+ stream.inner := by
  induction buffers generalizing stream with
  | nil => exact List.suffix_refl _
  | cons size buffers ih =>
    obtain ⟨fits, further⟩ := List.forall_mem_cons.mp room
    exact (ih (pollRead stream size).2 further).trans (pollRead_polled fits stream).suffix

theorem reads_going (goes : (reads stream buffers).1.find? ReadPoll.isStop = none) :
    delivered (reads stream buffers).1 ++ content (reads stream buffers).2 = content stream := by
  induction buffers generalizing stream with
  | nil => rfl
  | cons size buffers ih =>
    obtain ⟨fits, further⟩ := List.forall_mem_cons.mp room
    obtain ⟨first, later⟩ :
        (pollRead stream size).1.isStop = false ∧
          (reads (pollRead stream size).2 buffers).1.find? ReadPoll.isStop = none := by
      simpa [reads_cons] using goes
    obtain ⟨split, _⟩ := (pollRead_polled fits stream).going first
    rw [reads_cons, (find?_going first _).1, List.append_assoc,
      ih (pollRead stream size).2 further later, split]

theorem reads_stopped {stop : ReadPoll}
    (halted : (reads stream buffers).1.find? ReadPoll.isStop = some stop) :
    delivered (reads stream buffers).1 = content stream ∧ firstStop stream.inner = some stop := by
  induction buffers generalizing stream with
  | nil => contradiction
  | cons size buffers ih =>
    obtain ⟨fits, further⟩ := List.forall_mem_cons.mp room
    have polled := pollRead_polled fits stream
    rw [reads_cons] at halted ⊢
    cases first : (pollRead stream size).1.isStop with
    | true =>
      obtain ⟨nothing, found⟩ := polled.stopped first
      obtain ⟨none, last⟩ := find?_stop first (reads (pollRead stream size).2 buffers).1
      rw [none, nothing, found]
      exact ⟨rfl, last.symm.trans halted⟩
    | false =>
      obtain ⟨split, same⟩ := polled.going first
      obtain ⟨more, later⟩ := find?_going first (reads (pollRead stream size).2 buffers).1
      obtain ⟨whole, found⟩ := ih (pollRead stream size).2 further (later.symm.trans halted)
      rw [more, split, same, whole]
      exact ⟨rfl, found⟩

/-- Enough polls deliver everything and find what ends the stream. -/
theorem reads_complete (enough : pollsLeft stream ≤ buffers.length) :
    delivered (reads stream buffers).1 = content stream ∧
      (reads stream buffers).1.find? ReadPoll.isStop = firstStop stream.inner := by
  induction buffers generalizing stream with
  | nil =>
    obtain ⟨ended, nothing⟩ : stream.inner = [] ∧ content stream = [] := by
      simpa [pollsLeft] using enough
    rw [nothing, ended]
    exact ⟨rfl, rfl⟩
  | cons size buffers ih =>
    obtain ⟨fits, further⟩ := List.forall_mem_cons.mp room
    have polled := pollRead_polled fits stream
    rw [reads_cons]
    cases first : (pollRead stream size).1.isStop with
    | true =>
      obtain ⟨nothing, found⟩ := polled.stopped first
      rw [nothing, found]
      exact find?_stop first _
    | false =>
      obtain ⟨split, same⟩ := polled.going first
      obtain ⟨more, later⟩ := find?_going first (reads (pollRead stream size).2 buffers).1
      have fewer : pollsLeft (pollRead stream size).2 ≤ buffers.length := by
        have shrinks := polled.pollsLeft_le first
        rw [List.length_cons] at enough
        omega
      obtain ⟨whole, found⟩ := ih (pollRead stream size).2 further fewer
      rw [more, split, same, whole]
      exact ⟨rfl, later.trans found⟩

end Runs

theorem reads_getElem {stream : WebSocketStream} {buffers : List Nat} {index : Nat}
    {answer : ReadPoll} (found : (reads stream buffers).1[index]? = some answer) :
    ∃ size, buffers[index]? = some size ∧
      pollRead (reads stream (buffers.take index)).2 size =
        (answer, (reads stream (buffers.take (index + 1))).2) := by
  induction buffers generalizing stream index with
  | nil => simp [reads] at found
  | cons size buffers ih =>
    cases index with
    | zero =>
      have first : (pollRead stream size).1 = answer := by simpa [reads_cons] using found
      exact ⟨size, rfl, by simp [reads, ← first]⟩
    | succ index =>
      rw [reads_cons, List.getElem?_cons_succ] at found
      exact ih found

/-- What the readers of a WebSocket rely on, for the messages `inner` and the buffers. -/
structure Streams (inner : List NextPoll) (buffers : List Nat) (answers : List ReadPoll)
    (final : WebSocketStream) : Prop where
  /-- Until the stream has ended, what was delivered and what is still to come are the
  payloads. -/
  going : answers.find? ReadPoll.isStop = none → delivered answers ++ content final = payload inner
  /-- Once it has ended, exactly the payloads were delivered, and what ended it is the first of
  the messages that does. -/
  ended : ∀ stop, answers.find? ReadPoll.isStop = some stop →
    delivered answers = payload inner ∧ firstStop inner = some stop
  /-- Enough polls deliver all of the payloads and find the end. -/
  complete : inner.length + (payload inner).length ≤ buffers.length →
    delivered answers = payload inner ∧ answers.find? ReadPoll.isStop = firstStop inner
  /-- Nothing is lost or repeated after the end either, if it is polled again. -/
  kept : answers.flatMap ReadPoll.bytes ++ carried final = inner.flatMap NextPoll.bytes
  /-- A buffer is never given more than it has room for. -/
  fits : ∀ (index : Nat) (bytes : Bytes), answers[index]? = some (.ready bytes) →
    ∃ size, buffers[index]? = some size ∧ bytes.length ≤ size
  /-- A read of no bytes is one that finds a close message or the end. -/
  eof : ∀ index : Nat, answers[index]? = some (.ready []) →
    (reads ⟨inner, []⟩ (buffers.take index)).2.inner <:+ inner ∧
      AtEnd (reads ⟨inner, []⟩ (buffers.take index)).2
        (reads ⟨inner, []⟩ (buffers.take (index + 1))).2

theorem Polled.fits {remaining : Nat} {stream next : WebSocketStream} {bytes : Bytes}
    (polled : Polled remaining stream (.ready bytes) next) : bytes.length ≤ remaining := by
  cases polled with
  | left _ fits _ => exact fits
  | read _ _ _ fits _ => exact fits
  | stop _ _ _ stops =>
    have nothing : bytes = [] := (NextPoll.stop?_bytes stops).2.2
    simp [nothing]

/-- A poll of a run, as a case. -/
theorem reads_polled {stream : WebSocketStream} {buffers : List Nat}
    (room : ∀ size ∈ buffers, 0 < size) {index : Nat} {answer : ReadPoll}
    (found : (reads stream buffers).1[index]? = some answer) :
    ∃ size, buffers[index]? = some size ∧
      Polled size (reads stream (buffers.take index)).2 answer
        (reads stream (buffers.take (index + 1))).2 := by
  obtain ⟨size, present, polls⟩ := reads_getElem found
  have polled := pollRead_polled (room size (List.mem_of_getElem? present))
    (reads stream (buffers.take index)).2
  rw [polls] at polled
  exact ⟨size, present, polled⟩

/-- The bytes that are read over a WebSocket are the payloads of its binary messages. -/
theorem pollRead_payload (inner : List NextPoll) (buffers : List Nat)
    (room : ∀ size ∈ buffers, 0 < size) :
    Streams inner buffers (reads ⟨inner, []⟩ buffers).1 (reads ⟨inner, []⟩ buffers).2 where
  going := reads_going ⟨inner, []⟩ room
  ended := fun _ halted => reads_stopped ⟨inner, []⟩ room halted
  complete := reads_complete ⟨inner, []⟩ room
  kept := reads_carried ⟨inner, []⟩ room
  fits := by
    intro index bytes found
    obtain ⟨size, present, polled⟩ := reads_polled room found
    exact ⟨size, present, polled.fits⟩
  eof := by
    intro index found
    obtain ⟨size, present, polled⟩ := reads_polled room found
    have earlier : ∀ size ∈ buffers.take index, 0 < size :=
      fun size membership => room size (List.mem_of_mem_take membership)
    exact ⟨reads_suffix ⟨inner, []⟩ earlier, polled.atEnd⟩

/-- Three bytes and one more among messages that carry nothing. -/
def interleaved : List NextPoll :=
  [.message (.ping [7]), .message (.binary []), .message (.binary [1, 2, 3]), .pending,
    .message (.pong []), .message (.binary [4]), .message .close]

theorem pollRead_payload_interleaved :
    (∀ size ∈ [2, 2, 2, 2, 2], 0 < size) ∧
      (reads ⟨interleaved, []⟩ [2, 2, 2, 2, 2]).1 =
        [.ready [1, 2], .ready [3], .pending, .ready [4], .ready []] ∧
      Streams interleaved [2, 2, 2, 2, 2] (reads ⟨interleaved, []⟩ [2, 2, 2, 2, 2]).1
        (reads ⟨interleaved, []⟩ [2, 2, 2, 2, 2]).2 :=
  ⟨by decide, rfl, pollRead_payload interleaved [2, 2, 2, 2, 2] (by decide)⟩

section Reader

variable {O : Type} [Owned O]

/-- To the reader a WebSocket is a stream of the bytes that are still to be delivered: it gets
the front of them, and the end of file only when there are none left. -/
theorem pollRead_fillBuf {stream next : WebSocketStream} {buf : O} {bytes : Bytes}
    (room : 0 < Owned.unfilledLen (Owned.unfilledMut buf))
    (polls : pollRead stream (Owned.unfilledLen (Owned.unfilledMut buf)) = (.ready bytes, next)) :
    (Reader.fillBuf ⟨⟨content stream⟩, buf⟩ (.ready (bytes.length - 1)) =
      (⟨⟨(content stream).drop bytes.length⟩, Owned.fill (Owned.unfilledMut buf) bytes⟩,
        if bytes = [] then some .unexpectedEof else none)) ∧
      (bytes ≠ [] → (content stream).drop bytes.length = content next) := by
  have polled := pollRead_polled room stream
  rw [polls] at polled
  by_cases nothing : bytes = []
  · have ended : content stream = [] :=
      (polled.stopped (by simp [ReadPoll.isStop, nothing])).1
    simp [Reader.fillBuf, ended, nothing]
  · have split : content stream = bytes ++ content next :=
      (polled.going (by simpa [ReadPoll.isStop] using nothing)).1
    have positive := List.length_pos_iff.mpr nothing
    have fits := polled.fits
    have taken : (bytes ++ content next).take
        (min (bytes.length - 1 + 1) (Owned.unfilledLen (Owned.unfilledMut buf))) = bytes := by
      rw [show min (bytes.length - 1 + 1) (Owned.unfilledLen (Owned.unfilledMut buf)) =
        bytes.length by omega]
      exact List.take_left
    simp [Reader.fillBuf, split, taken, nothing]

end Reader

end MqttClient.Io.WebSocket
