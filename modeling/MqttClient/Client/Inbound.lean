import MqttClient.Client.Wire
import MqttClient.Proto.Total

/-! The client with the reader of its transport: the session is handed the packets of the
server's bytes, wherever the reading is dropped for a packet that goes out. -/

namespace MqttClient.Client

open MqttClient.Proto Lib Io

/-- What the session is handed for a packet, if it is handed anything. -/
def Packet.incoming? : Packet → Option Incoming
  | .auth auth => some (.auth auth)
  | .subAck suback => some (.ack (.subAck suback))
  | .unsubAck unsuback => some (.ack (.unsubAck unsuback))
  | .pubAck puback => some (.ack (.pubAck puback))
  | .pubRec pubrec => some (.ack (.pubRec pubrec))
  | .publish publish => some (.publish publish)
  | .pingResp => some .pingResp
  | _ => none

/-- What a call hands to the session, behind what it was handed on the connection before. -/
def Event.handing (earlier : List Incoming) : Event → List Incoming
  | .connack _ _ _ _ => []
  | .incoming packet => earlier ++ [packet]
  | _ => earlier

/-- What the session was handed since the last CONNACK. -/
def incomings (calls : List Event) : List Incoming := calls.foldl Event.handing []

theorem incomings_snoc (calls : List Event) (call : Event) :
    incomings (calls ++ [call]) = call.handing (incomings calls) := by
  simp [incomings]

section

variable [UnicodeGeneralCategory]

/-- The packet that a raw packet is decoded to. -/
def received (raw : RawPacket) : Except Fault Packet :=
  (Packet.decode raw.firstByte .v5 raw.rest).map Prod.fst

/-- The decoder never panics and always returns. -/
theorem received_total (raw : RawPacket) :
    (∃ packet, received raw = .ok packet) ∨ ∃ error, received raw = .error (.error error) := by
  have total := Packet.total_decode raw.firstByte .v5 raw.rest
  rw [received]
  cases ran : Packet.decode raw.firstByte .v5 raw.rest with
  | ok decoded => exact .inl ⟨decoded.1, rfl⟩
  | error fault =>
    have fine : ¬ fault.Fatal := total fault ran
    cases fault with
    | error error => exact .inr ⟨error, rfl⟩
    | panic => exact absurd trivial fine
    | diverge => exact absurd trivial fine

/-- `mqtt_receive`, which is dropped if it has not returned when the arrivals are used up. -/
def mqttReceive {O : Type} [Owned O] (reading : Reading O) (arrivals : List Arrival) :
    Option (Reading O × Read) :=
  match reading.reader.read arrivals with
  | (reader, .dropped) => some ({ reading with reader }, .pending)
  | (reader, .error _) => some ({ reading with reader }, .failed .io)
  | (reader, .packet raw) =>
    match received raw with
    | .ok packet => some (⟨reader, reading.packets ++ [raw]⟩, .packet packet)
    | .error (.error error) =>
      some (⟨reader, reading.packets ++ [raw]⟩, .failed (.protocol (.decode error)))
    | .error _ => none

/-- The client with the reader of its transport, and all that the server sends on it. -/
structure Listening (O : Type) where
  machine : Machine
  reading : Reading O
  stream : Bytes

inductive ListenEvent (O : Type) [Owned O] where
  /-- A step that reads nothing. -/
  | client (event : MachineEvent)
  | connect (options : ConnectOptions) (stream : Bytes) (dst : { dst : O // Owned.filled dst = [] })
  /-- The wait for a response, which is over when the arrivals are used up. -/
  | response (arrivals : List Arrival)
  | wake (polls : List Readiness) (arrivals : List Arrival) (expired : Bool)

/-- Whether an event reads, or opens what is read. -/
def MachineEvent.reads : MachineEvent → Bool
  | .connect _ true | .response _ | .wake _ _ _ => true
  | _ => false

def Read.response : Read → Response
  | .pending => .timeout
  | .packet answer => .packet answer
  | .failed error => .failed error

namespace Listening

variable {O : Type}

def new (maxPkid : PacketIdentifier) (dst : O) : Listening O where
  machine := .new maxPkid
  reading := .new [] dst
  stream := []

/-- The machine goes on with this reader. -/
def goOn (listening : Listening O) (event : MachineEvent) (reading : Reading O) :
    Except Stop (Listening O) :=
  (listening.machine.step event).map fun machine => { listening with machine, reading }

/-- The reader is polled only while the session has nothing to send, so a read that returns is
never passed over. -/
def step [Owned O] (listening : Listening O) : ListenEvent O → Except Stop (Listening O)
  | .client event =>
    if event.reads then .error .disabled else listening.goOn event listening.reading
  | .connect options stream dst =>
    (listening.machine.step (.connect options true)).map fun machine =>
      ⟨machine, .new stream dst.1, stream⟩
  | .response arrivals =>
    match mqttReceive listening.reading arrivals with
    | none => .error .disabled
    | some (reading, read) => listening.goOn (.response read.response) reading
  | .wake polls arrivals expired =>
    match mqttReceive listening.reading arrivals with
    | none => .error .disabled
    | some (reading, .pending) => listening.goOn (.wake polls .pending expired) reading
    | some (reading, read) =>
      if listening.machine.isQuiet polls then listening.goOn (.wake polls read expired) reading
      else .error .disabled

abbrev run [Owned O] (start : Listening O) (events : List (ListenEvent O)) :
    Except Stop (Listening O) :=
  Transition.exec step start events

end Listening

/-! ### Receiving -/

section

variable {O : Type} [LawfulOwned O]

/-- What a call of `mqtt_receive` does: it takes the next packet of the stream, or none. -/
inductive Receives (stream : Bytes) (reading : Reading O) : Reading O × Read → Prop where
  | packet {next : Reading O} {raw : RawPacket} {packet : Packet} (valid : next.Valid stream)
      (taken : next.packets = reading.packets ++ [raw]) (decoded : received raw = .ok packet) :
      Receives stream reading (next, .packet packet)
  | failed {next : Reading O} {error : InnerConnectionError} (valid : next.Valid stream) :
      Receives stream reading (next, .failed error)
  | pending {next : Reading O} (valid : next.Valid stream)
      (same : next.packets = reading.packets) : Receives stream reading (next, .pending)

theorem mqttReceive_spec {stream : Bytes} {reading : Reading O} (valid : reading.Valid stream)
    (arrivals : List Arrival) :
    ∃ result, mqttReceive reading arrivals = some result ∧ Receives stream reading result := by
  have reads := reading.reader.read_spec arrivals
  rw [mqttReceive]
  generalize reading.reader.read arrivals = outcome at reads ⊢
  have kept {reader : Reader O} (same : reader.pending = reading.reader.pending) :
      Reading.Valid stream ⟨reader, reading.packets⟩ := by
    rw [Reading.Valid, same]
    exact valid
  cases reads with
  | @packet reader raw complete =>
    have taken : Reading.Valid stream ⟨reader, reading.packets ++ [raw]⟩ := .snoc valid complete
    rcases received_total raw with ⟨packet, decoded⟩ | ⟨error, fault⟩
    · simp only [decoded]
      exact ⟨_, rfl, .packet taken rfl decoded⟩
    · simp only [fault]
      exact ⟨_, rfl, .failed taken⟩
  | stopped stops =>
    cases stops with
    | dropped same => exact ⟨_, rfl, .pending (kept same) rfl⟩
    | ended same => exact ⟨_, rfl, .failed (kept same)⟩
    | invalid same => exact ⟨_, rfl, .failed (kept same)⟩
    | failed same => exact ⟨_, rfl, .failed (kept same)⟩
    | starved same => exact ⟨_, rfl, .failed (kept same)⟩

end

end

/-! ### Handing on -/

namespace Machine

variable {machine next : Machine} {loop : Loop}

theorem runUntilDisconnect_incomings (machine : Machine)
    (ended : Except InnerConnectionError InnerDisconnect) :
    incomings (machine.runUntilDisconnect ended).calls = incomings machine.calls :=
  incomings_snoc machine.calls _

theorem written_incomings {packet : Packet} {polls : List Readiness}
    (wrote : machine.written loop packet polls = .ok next) :
    incomings next.calls = incomings machine.calls := by
  unfold written at wrote
  split at wrote
  · cases wrote
    rfl
  · split at wrote
    · cases wrote
    · cases wrote
      rw [startWrite_calls]
      exact incomings_snoc machine.calls _
    · cases wrote
      exact incomings_snoc machine.calls _

/-- A step that reads nothing hands nothing to the session. -/
theorem step_incomings {event : MachineEvent} (apart : event.reads = false)
    (stepped : machine.step event = .ok next) :
    incomings next.calls = incomings machine.calls := by
  cases event with
  | app event =>
    cases stepped
    exact incomings_snoc machine.calls _
  | elapse duration =>
    cases stepped
    exact incomings_snoc machine.calls _
  | connect options sent =>
    cases sent with
    | true => cases apart
    | false =>
      simp only [step] at stepped
      split at stepped
      · cases stepped
        rfl
      · cases stepped
  | response response => cases apart
  | continueAuth sent =>
    simp only [step] at stepped
    split at stepped
    · cases stepped
      rfl
    · cases stepped
  | wake polls read expired => cases apart
  | written sent polls =>
    simp only [step] at stepped
    split at stepped
    · split at stepped
      · cases sent with
        | true => exact written_incomings (liftPanic_ok stepped)
        | false =>
          cases stepped
          exact runUntilDisconnect_incomings machine _
      · cases stepped
    · cases stepped
  | flushed sent =>
    simp only [step] at stepped
    split at stepped
    · split at stepped
      · cases sent with
        | true =>
          cases stepped
          rfl
        | false =>
          cases stepped
          exact runUntilDisconnect_incomings machine (.error .io)
      · cases stepped
        exact runUntilDisconnect_incomings machine _
      · cases stepped
    · cases stepped

/-- Without a response an attempt goes on as one, and a loop as one. -/
theorem step_stage {event : MachineEvent} (stepped : machine.step event = .ok next)
    (answered : ∀ response, event ≠ .response response)
    (opened : ∀ options, event ≠ .connect options true) :
    next.phase.stage = .idle ∨
      (machine.phase.stage = .opening ∧ next.phase.stage = .opening) ∨
      ∃ before after, machine.phase.stage = .running before ∧
        next.phase.stage = .running after := by
  cases step_moves stepped with
  | kept _ _ _ stage =>
    cases here : machine.phase.stage with
    | idle => exact .inl (stage.trans here)
    | opening => exact .inr (.inl ⟨rfl, stage.trans here⟩)
    | running await => exact .inr (.inr ⟨await, await, rfl, stage.trans here⟩)
  | ended _ _ stage => exact .inl stage
  | attempted options => exact absurd rfl (opened options)
  | answered _ before stage => exact .inr (.inl ⟨before, stage⟩)
  | opened response => exact absurd rfl (answered response)
  | woken _ _ _ _ _ before stage => exact .inr (.inr ⟨_, _, before, stage⟩)
  | wrote _ _ _ _ before _ stage => exact .inr (.inr ⟨_, _, before, stage⟩)
  | wroteDisconnect _ _ _ before stage => exact .inr (.inr ⟨_, _, before, stage⟩)
  | flushed _ before stage => exact .inr (.inr ⟨_, _, before, stage⟩)
  | flushedDisconnect _ _ _ stage => exact .inl stage

/-- A wake without a packet hands nothing to the session. -/
theorem wake_pending {polls : List Readiness} {expired : Bool}
    (woke : machine.wake loop polls .pending expired = .ok next) :
    incomings next.calls = incomings machine.calls := by
  unfold wake at woke
  split at woke
  · cases woke
  · cases woke
    rw [startWrite_calls]
    exact incomings_snoc machine.calls _
  · simp only at woke
    split at woke
    · cases woke
      rw [runUntilDisconnect_incomings]
      exact incomings_snoc machine.calls _
    · cases woke
      exact incomings_snoc machine.calls _

theorem dispatch_incomings {packet : Incoming}
    (dispatched : machine.dispatch loop packet = .ok next) :
    next.phase = .idle ∨ incomings next.calls = incomings machine.calls ++ [packet] := by
  unfold dispatch at dispatched
  split at dispatched
  · cases dispatched
  · cases dispatched
    exact .inr (incomings_snoc machine.calls _)
  · cases dispatched
    exact .inl rfl

/-- A packet that the connection outlives has been handed to the session. -/
theorem handle_incomings {packet : Packet} (handled : machine.handle loop packet = .ok next) :
    next.phase = .idle ∨ ∃ incoming, Packet.incoming? packet = some incoming ∧
      incomings next.calls = incomings machine.calls ++ [incoming] := by
  have hands {incoming : Incoming} {inner : Loop} (same : Packet.incoming? packet = some incoming)
      (dispatched : machine.dispatch inner incoming = .ok next) :
      next.phase = .idle ∨ ∃ incoming, Packet.incoming? packet = some incoming ∧
        incomings next.calls = incomings machine.calls ++ [incoming] := by
    rcases dispatch_incomings dispatched with idle | handed
    · exact .inl idle
    · exact .inr ⟨incoming, same, handed⟩
  unfold handle at handled
  split at handled
  · exact hands rfl handled
  · exact hands rfl handled
  · exact hands rfl handled
  · exact hands rfl handled
  · exact hands rfl handled
  · cases handled
    exact .inl rfl
  · exact hands rfl handled
  · exact hands rfl handled
  · cases handled
    exact .inl rfl

/-- What a read that returned means to a session with nothing to send. -/
theorem wake_packet {polls : List Readiness} {packet : Packet} {expired : Bool}
    (quiet : machine.isQuiet polls = true)
    (woke : machine.wake loop polls (.packet packet) expired = .ok next) :
    next.phase = .idle ∨ ∃ incoming, Packet.incoming? packet = some incoming ∧
      incomings next.calls = incomings machine.calls ++ [incoming] := by
  unfold isQuiet at quiet
  unfold wake at woke
  split at quiet
  · rename_i world polled
    simp only [polled] at woke
    have same : incomings (machine.after (.poll polls) world).calls = incomings machine.calls :=
      incomings_snoc machine.calls _
    rw [← same]
    exact handle_incomings woke
  · cases quiet

theorem wake_failed {polls : List Readiness} {error : InnerConnectionError} {expired : Bool}
    (quiet : machine.isQuiet polls = true)
    (woke : machine.wake loop polls (.failed error) expired = .ok next) : next.phase = .idle := by
  unfold isQuiet at quiet
  unfold wake at woke
  split at quiet
  · rename_i world polled
    simp only [polled] at woke
    cases woke
    rfl
  · cases quiet

end Machine

theorem Listening.goOn_ok {O : Type} {listening next : Listening O} {event : MachineEvent}
    {reading : Reading O} (stepped : listening.goOn event reading = .ok next) :
    listening.machine.step event = .ok next.machine ∧ next.reading = reading ∧
      next.stream = listening.stream := by
  unfold goOn at stepped
  cases moved : listening.machine.step event with
  | error stop => simp [moved, Except.map] at stepped
  | ok machine =>
    simp only [moved, Except.map, Except.ok.injEq] at stepped
    subst stepped
    exact ⟨rfl, rfl, rfl⟩

section

variable [UnicodeGeneralCategory] {O : Type} [LawfulOwned O]

namespace Listening

/-- The packets read so far, behind which the rest of the stream is still there. -/
structure HasRead (listening : Listening O) (packets : List Packet) : Prop where
  valid : listening.reading.Valid listening.stream
  decoded : listening.reading.packets.map received = packets.map .ok

/-- Every packet read on the connection was a challenge, the CONNACK, or handed to the
session. -/
structure Heard (listening : Listening O) : Prop where
  attempt : listening.machine.phase.stage = .opening → ∃ opening, listening.HasRead opening ∧
    ∀ packet ∈ opening, ∃ auth, packet = .auth auth
  accepted : ∀ await, listening.machine.phase.stage = .running await →
    ∃ opening connack later, listening.HasRead (opening ++ .connAck connack :: later) ∧
      (∀ packet ∈ opening, ∃ auth, packet = .auth auth) ∧
      later.map Packet.incoming? = (incomings listening.machine.calls).map some

variable {listening next : Listening O}

theorem HasRead.snoc {packets : List Packet} (read : listening.HasRead packets) {raw : RawPacket}
    {packet : Packet} (valid : next.reading.Valid listening.stream)
    (same : next.stream = listening.stream)
    (taken : next.reading.packets = listening.reading.packets ++ [raw])
    (decoded : received raw = .ok packet) : next.HasRead (packets ++ [packet]) where
  valid := same ▸ valid
  decoded := by rw [taken, List.map_append, List.map_append, read.decoded, List.map_singleton,
    List.map_singleton, decoded]

theorem HasRead.kept {packets : List Packet} (read : listening.HasRead packets)
    (valid : next.reading.Valid listening.stream) (same : next.stream = listening.stream)
    (packetsSame : next.reading.packets = listening.reading.packets) : next.HasRead packets where
  valid := same ▸ valid
  decoded := by rw [packetsSame, read.decoded]

theorem Heard.of_idle (idle : next.machine.phase.stage = .idle) : Heard next where
  attempt opening := by cases idle.symm.trans opening
  accepted await running := by cases idle.symm.trans running

/-- A step that takes no packet off the stream. -/
theorem Heard.quiet (heard : Heard listening) {event : MachineEvent}
    (stepped : listening.machine.step event = .ok next.machine)
    (answered : ∀ response, event ≠ .response response)
    (opened : ∀ options, event ≠ .connect options true)
    (handed : incomings next.machine.calls = incomings listening.machine.calls)
    (kept : ∀ packets, listening.HasRead packets → next.HasRead packets) : Heard next := by
  rcases Machine.step_stage stepped answered opened with
    idle | ⟨before, after⟩ | ⟨_, _, before, after⟩
  · exact .of_idle idle
  · refine ⟨?_, by simp [after]⟩
    intro _
    obtain ⟨opening, read, auths⟩ := heard.attempt before
    exact ⟨opening, kept _ read, auths⟩
  · refine ⟨by simp [after], ?_⟩
    intro _ _
    obtain ⟨opening, connack, later, read, auths, all⟩ := heard.accepted _ before
    exact ⟨opening, connack, later, kept _ read, auths, by rw [handed, all]⟩

/-- The connection goes on with the packet that was read. -/
theorem Heard.wake (heard : Heard listening) {polls : List Readiness} {packet : Packet}
    {expired : Bool} (quiet : listening.machine.isQuiet polls = true)
    (stepped : listening.machine.step (.wake polls (.packet packet) expired) = .ok next.machine)
    (longer : ∀ packets, listening.HasRead packets → next.HasRead (packets ++ [packet])) :
    Heard next := by
  have stage := Machine.step_stage stepped (by simp) (by simp)
  simp only [Machine.step] at stepped
  split at stepped
  · rename_i loop running
    split at stepped
    · rcases Machine.wake_packet quiet (Machine.liftPanic_ok stepped) with
        idle | ⟨incoming, same, handed⟩
      · exact .of_idle (congrArg Phase.stage idle)
      · rcases stage with idle | ⟨before, _⟩ | ⟨_, _, before, after⟩
        · exact .of_idle idle
        · rw [running] at before
          cases before
        · refine ⟨by simp [after], ?_⟩
          intro _ _
          obtain ⟨opening, connack, later, read, auths, all⟩ := heard.accepted _ before
          refine ⟨opening, connack, later ++ [packet], ?_, auths, ?_⟩
          · have whole := longer _ read
            rw [List.append_assoc, List.cons_append] at whole
            exact whole
          · rw [List.map_append, all, handed, List.map_append, List.map_singleton, same]
            rfl
    · cases stepped
  · cases stepped

/-- The response to an attempt. -/
theorem Heard.response (heard : Heard listening) {packet : Packet}
    (stepped : listening.machine.step (.response (.packet packet)) = .ok next.machine)
    (longer : ∀ packets, listening.HasRead packets → next.HasRead (packets ++ [packet])) :
    Heard next := by
  simp only [Machine.step] at stepped
  split at stepped
  · rename_i options waiting
    obtain ⟨opening, read, auths⟩ := heard.attempt (by rw [waiting]; rfl)
    have same : listening.machine.receiveResponse options (.packet packet) = next.machine :=
      Except.ok.inj stepped
    cases packet with
    | connAck connack =>
      simp only [Machine.receiveResponse] at same
      split at same
      · have none : incomings next.machine.calls = [] := by
          rw [← same]
          exact incomings_snoc listening.machine.calls _
        refine ⟨by simp [← same, Machine.moveTo, Phase.stage], ?_⟩
        intro _ _
        exact ⟨opening, connack, [], longer _ read, auths, by rw [none]; rfl⟩
      · exact .of_idle (by rw [← same]; rfl)
    | auth auth =>
      refine ⟨?_, ?_⟩
      · intro _
        refine ⟨opening ++ [.auth auth], longer _ read, ?_⟩
        intro packet member
        rcases List.mem_append.mp member with earlier | last
        · exact auths packet earlier
        · exact ⟨auth, List.mem_singleton.mp last⟩
      · intro await running
        rw [← same] at running
        simp only [Machine.receiveResponse] at running
        split at running
        · split at running <;> cases running
        · cases running
    | _ => exact .of_idle (by rw [← same]; rfl)
  · cases stepped

/-- The reader of a transport that is in use. -/
theorem Heard.valid (heard : Heard listening) (used : listening.machine.phase.stage ≠ .idle) :
    listening.reading.Valid listening.stream := by
  cases stage : listening.machine.phase.stage with
  | idle => exact absurd stage used
  | opening =>
    obtain ⟨_, read, _⟩ := heard.attempt stage
    exact read.valid
  | running await =>
    obtain ⟨_, _, _, read, _⟩ := heard.accepted await stage
    exact read.valid

theorem Heard.receives (heard : Heard listening) {response : Response}
    (stepped : listening.machine.step (.response response) = .ok next.machine)
    {arrivals : List Arrival} {read : Client.Read}
    (received : mqttReceive listening.reading arrivals = some (next.reading, read))
    (same : next.stream = listening.stream) (answer : response = read.response) :
    Heard next := by
  have used : listening.machine.phase.stage ≠ .idle := by
    simp only [Machine.step] at stepped
    split at stepped
    · rename_i options waiting
      simp [waiting, Phase.stage]
    · cases stepped
  have idle (other : ∀ packet, response ≠ .packet packet) : next.machine.phase = .idle := by
    simp only [Machine.step] at stepped
    split at stepped
    · rw [← Except.ok.inj stepped]
      cases response with
      | packet packet => exact absurd rfl (other packet)
      | _ => rfl
    · cases stepped
  obtain ⟨result, found, receives⟩ := mqttReceive_spec (heard.valid used) arrivals
  cases received.symm.trans found
  cases receives with
  | packet valid taken decoded =>
    cases answer
    exact heard.response stepped fun _ read => read.snoc valid same taken decoded
  | failed valid => exact .of_idle (congrArg Phase.stage (idle (by simp [answer, Read.response])))
  | pending valid taken =>
    exact .of_idle (congrArg Phase.stage (idle (by simp [answer, Read.response])))

theorem Heard.wakes (heard : Heard listening) {polls : List Readiness} {expired : Bool}
    {arrivals : List Arrival} {read : Client.Read}
    (stepped : listening.machine.step (.wake polls read expired) = .ok next.machine)
    (received : mqttReceive listening.reading arrivals = some (next.reading, read))
    (same : next.stream = listening.stream)
    (quiet : read ≠ .pending → listening.machine.isQuiet polls = true) : Heard next := by
  have moved := stepped
  simp only [Machine.step] at moved
  split at moved
  · rename_i loop running
    split at moved
    · have woke := Machine.liftPanic_ok moved
      have used : listening.machine.phase.stage ≠ .idle := by simp [running, Phase.stage]
      obtain ⟨result, found, receives⟩ := mqttReceive_spec (heard.valid used) arrivals
      cases received.symm.trans found
      cases receives with
      | packet valid taken decoded =>
        exact heard.wake (quiet (by simp)) stepped fun _ read =>
          read.snoc valid same taken decoded
      | failed valid =>
        exact .of_idle (congrArg Phase.stage (Machine.wake_failed (quiet (by simp)) woke))
      | pending valid taken =>
        exact heard.quiet stepped (by simp) (by simp) (Machine.wake_pending woke)
          fun _ read => read.kept valid same taken
    · cases moved
  · cases moved

theorem Heard.step (heard : Heard listening) {event : ListenEvent O}
    (stepped : listening.step event = .ok next) : Heard next := by
  cases event with
  | client event =>
    simp only [Listening.step] at stepped
    split at stepped
    · cases stepped
    · rename_i apart
      obtain ⟨moved, reading, stream⟩ := goOn_ok stepped
      have apart : event.reads = false := by simpa using apart
      refine heard.quiet moved ?_ ?_ (Machine.step_incomings apart moved) ?_
      · rintro response rfl
        cases apart
      · rintro options rfl
        cases apart
      · intro packets read
        exact read.kept (reading ▸ read.valid) stream (congrArg Reading.packets reading)
  | connect options stream dst =>
    simp only [Listening.step, Machine.step] at stepped
    split at stepped
    · cases stepped
      refine ⟨?_, by rintro await ⟨⟩⟩
      intro _
      exact ⟨[], ⟨Reading.valid_new stream dst.2, rfl⟩, by simp⟩
    · cases stepped
  | response arrivals =>
    simp only [Listening.step] at stepped
    split at stepped
    · cases stepped
    · rename_i reading read received
      obtain ⟨moved, rfl, stream⟩ := goOn_ok stepped
      exact heard.receives moved received stream rfl
  | wake polls arrivals expired =>
    simp only [Listening.step] at stepped
    split at stepped
    · cases stepped
    · rename_i reading received
      obtain ⟨moved, rfl, stream⟩ := goOn_ok stepped
      exact heard.wakes moved received stream (by simp)
    · rename_i reading read _ received
      split at stepped
      · rename_i quiet
        obtain ⟨moved, rfl, stream⟩ := goOn_ok stepped
        exact heard.wakes moved received stream fun _ => quiet
      · cases stepped

theorem heard_run {maxPkid : PacketIdentifier} {dst : O} {events : List (ListenEvent O)}
    {listening : Listening O} (ran : run (.new maxPkid dst) events = .ok listening) :
    Heard listening :=
  Transition.exec_always Heard (.of_idle rfl) (fun _ _ _ heard stepped => heard.step stepped) ran

/-- A reader that is polled often enough takes the next packet off the stream. -/
theorem mqttReceive_next (roomy : ∀ (owned : O) (additional : Nat),
      Owned.reserve owned additional ≠ none)
    {reading : Reading O} {arrivals : List Arrival} (healthy : .fails ∉ arrivals)
    (enough : reading.reader.inner.unread.length < arrivals.length) {raw : RawPacket}
    {rest : Bytes} (complete : nextPacket reading.reader.pending = .complete raw rest)
    {packet : Packet} (decoded : received raw = .ok packet) :
    ∃ reader : Reader O, reader.pending = rest ∧
      mqttReceive reading arrivals = some (⟨reader, reading.packets ++ [raw]⟩, .packet packet) := by
  have reads := reading.reader.read_spec arrivals
  rw [mqttReceive]
  generalize reading.reader.read arrivals = outcome at reads ⊢
  cases reads with
  | @packet next other taken =>
    cases complete.symm.trans taken
    simp only [decoded]
    exact ⟨next, rfl, rfl⟩
  | stopped stops =>
    cases stops with
    | dropped _ few => omega
    | ended _ _ incomplete => cases complete.symm.trans incomplete
    | invalid _ invalid => cases complete.symm.trans invalid
    | failed _ cause => exact absurd cause healthy
    | starved _ cause =>
      obtain ⟨owned, additional, none⟩ := cause
      exact absurd none (roomy owned additional)

end Listening

/-- However the bytes of the server arrive and wherever the reading is dropped for a packet that
goes out: on a connection that lasts, the session has been handed the packets behind the CONNACK,
each once and in their order. They are the start of what the bytes hold, and all of it when no
further packet is complete. The next one is handed on when the session has nothing to send. -/
theorem inbound_exact (maxPkid : PacketIdentifier) (dst : O) (events : List (ListenEvent O))
    (listening : Listening O) (ran : Listening.run (.new maxPkid dst) events = .ok listening)
    (loop : Loop) (running : listening.machine.phase = .running loop) :
    (∃ opening connack later,
      listening.reading.packets.map received = (opening ++ .connAck connack :: later).map .ok ∧
        (∀ packet ∈ opening, ∃ auth, packet = .auth auth) ∧
        later.map Packet.incoming? = (incomings listening.machine.calls).map some) ∧
      listening.reading.packets <+: (packetFramer.framing listening.stream).1 ∧
      ((∀ raw rest, nextPacket listening.reading.reader.pending ≠ .complete raw rest) →
        listening.reading.packets = (packetFramer.framing listening.stream).1) ∧
      ∀ raw rest packet polls arrivals expired,
        nextPacket listening.reading.reader.pending = .complete raw rest →
        received raw = .ok packet → listening.machine.isQuiet polls = true →
        (∀ (owned : O) (additional : Nat), Owned.reserve owned additional ≠ none) →
        .fails ∉ arrivals → listening.reading.reader.inner.unread.length < arrivals.length →
        ∃ reader : Reader O, reader.pending = rest ∧
          listening.step (.wake polls arrivals expired) =
            listening.goOn (.wake polls (.packet packet) expired)
              ⟨reader, listening.reading.packets ++ [raw]⟩ := by
  have heard := Listening.heard_run ran
  obtain ⟨opening, connack, later, read, auths, all⟩ :=
    heard.accepted loop.await (by rw [running, Phase.stage])
  refine ⟨⟨opening, connack, later, read.decoded, auths, all⟩, read.valid.isPrefix, ?_, ?_⟩
  · intro stopped
    rw [Framer.Takes.framing_eq read.valid stopped]
  · intro raw rest packet polls arrivals expired complete decoded quiet roomy healthy enough
    obtain ⟨reader, left, receives⟩ :=
      Listening.mqttReceive_next roomy healthy enough complete decoded
    refine ⟨reader, left, ?_⟩
    simp only [Listening.step, receives, quiet, if_true]

end

/-- A PINGRESP is read whose first byte arrived while the PINGREQ went out. -/
def droppedForPing : List (ListenEvent BytesMut) :=
  [.connect { cleanStart := true, keepAlive := .infinite } [0x20, 3, 0, 0, 0, 0xD0, 0] ⟨{}, rfl⟩,
    .response [.ready 4], .client (.app .ping), .wake [{}] [.ready 0] false,
    .client (.written true [{}]), .client (.flushed true), .wake [{}] [.ready 0] false]

theorem inbound_exact_dropped :
    letI := asciiCategory
    ∃ (listening : Listening BytesMut) (loop : Loop),
      Listening.run (.new .one {}) droppedForPing = .ok listening ∧
        listening.machine.phase = .running loop ∧
        incomings listening.machine.calls = [.pingResp] ∧
        listening.reading.packets <+: (packetFramer.framing listening.stream).1 := by
  let := asciiCategory
  have reached : (Listening.run (.new .one ({} : BytesMut)) droppedForPing).toOption.map
      (fun listening => (listening.machine.phase.isRunning, incomings listening.machine.calls)) =
        some (true, [.pingResp]) := by
    decide +kernel
  cases ran : Listening.run (.new .one ({} : BytesMut)) droppedForPing with
  | error stop => simp [ran, Except.toOption] at reached
  | ok listening =>
    obtain ⟨runs, handed⟩ : listening.machine.phase.isRunning = true ∧
        incomings listening.machine.calls = [.pingResp] := by
      simpa [ran, Except.toOption] using reached
    cases running : listening.machine.phase with
    | running loop =>
      have exact := inbound_exact .one {} droppedForPing listening ran loop running
      exact ⟨listening, loop, rfl, running, handed, exact.2.1⟩
    | _ => simp [running, Phase.isRunning] at runs

end MqttClient.Client
