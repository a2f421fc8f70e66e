import MqttClient.Client.Authentication
import MqttClient.Client.ConnectionSpec
import MqttClient.Io.Pipe
import MqttClient.Lib.Rounds

/-! The client on its transport: the packets of a connection go through the writer, and what
the transport has taken is their encodings. -/

namespace MqttClient.Client

open MqttClient.Proto

namespace World

/-- The packets sent on the connection with this number. -/
def packetsOn (world : World) (connection : Nat) : List Packet :=
  (world.emissions.filter (·.connection == connection)).map (·.outgoing.packet)

theorem packetsOn_append (world next : World) (outgoing : Option Outgoing) (connection : Nat)
    (emitted : next.emissions =
      world.emissions ++ outgoing.toList.map (Emission.mk world.connections)) :
    next.packetsOn connection = world.packetsOn connection ++
      if connection = world.connections then outgoing.toList.map (·.packet) else [] := by
  rw [packetsOn, emitted, List.filter_append, List.map_append]
  cases outgoing with
  | none => simp [packetsOn]
  | some sent =>
    by_cases current : connection = world.connections
    · simp [packetsOn, current]
    · simp [packetsOn, current, Ne.symm current]

end World

/-- Where a client stands, as far as its writer is concerned. -/
inductive Stage where
  | idle
  | opening
  | running (await : Await)
  deriving DecidableEq

def Phase.stage : Phase → Stage
  | .idle => .idle
  | .connecting _ => .opening
  | .challenged _ => .opening
  | .running loop => .running loop.await

/-- Whether an event is the return of a call of the writer. -/
def MachineEvent.writes : MachineEvent → Bool
  | .connect _ true => true
  | .continueAuth _ => true
  | .written _ _ => true
  | .flushed _ => true
  | _ => false

namespace Machine

/-- No packet is sent and no connection is opened. -/
structure Still (machine next : Machine) : Prop where
  emissions : next.world.emissions = machine.world.emissions
  connections : next.world.connections = machine.world.connections

theorem Still.refl (machine : Machine) : Still machine machine := ⟨rfl, rfl⟩

theorem Still.trans {first second third : Machine} (left : Still first second)
    (right : Still second third) : Still first third :=
  ⟨right.emissions.trans left.emissions, right.connections.trans left.connections⟩

theorem Still.packetsOn {machine next : Machine} (still : Still machine next) (connection : Nat) :
    next.world.packetsOn connection = machine.world.packetsOn connection := by
  rw [World.packetsOn, still.emissions]
  rfl

/-- What a step does as far as the writer is concerned. -/
inductive Moves (machine : Machine) : MachineEvent → Machine → Prop where
  | kept (event : MachineEvent) (next : Machine) (apart : event.writes = false)
      (stage : next.phase.stage = machine.phase.stage) (still : Still machine next) :
      Moves machine event next
  | ended (event : MachineEvent) (next : Machine) (stage : next.phase.stage = .idle)
      (still : Still machine next) (cut : event ≠ .flushed true) : Moves machine event next
  | attempted (options : ConnectOptions) (next : Machine) (stage : next.phase.stage = .opening)
      (still : Still machine next) : Moves machine (.connect options true) next
  | answered (next : Machine) (before : machine.phase.stage = .opening)
      (stage : next.phase.stage = .opening) (still : Still machine next) :
      Moves machine (.continueAuth true) next
  | opened (response : Response) (next : Machine) (before : machine.phase.stage = .opening)
      (stage : next.phase.stage = .running .select)
      (emissions : next.world.emissions = machine.world.emissions)
      (connections : next.world.connections = machine.world.connections + 1) :
      Moves machine (.response response) next
  | woken (polls : List Readiness) (read : Read) (expired : Bool) (sent : Outgoing)
      (next : Machine) (before : machine.phase.stage = .running .select)
      (stage : next.phase.stage = .running (.write sent.packet))
      (emissions : next.world.emissions =
        machine.world.emissions ++ [⟨machine.world.connections, sent⟩])
      (connections : next.world.connections = machine.world.connections) :
      Moves machine (.wake polls read expired) next
  | wrote (polls : List Readiness) (packet : Packet) (outgoing : Option Outgoing) (next : Machine)
      (before : machine.phase.stage = .running (.write packet))
      (other : ∀ disconnect, packet ≠ .disconnect disconnect)
      (stage : next.phase.stage = .running (outgoing.elim .flush fun sent => .write sent.packet))
      (emissions : next.world.emissions =
        machine.world.emissions ++ outgoing.toList.map (Emission.mk machine.world.connections))
      (connections : next.world.connections = machine.world.connections) :
      Moves machine (.written true polls) next
  | wroteDisconnect (polls : List Readiness) (disconnect : Disconnect) (next : Machine)
      (before : machine.phase.stage = .running (.write (.disconnect disconnect)))
      (stage : next.phase.stage = .running (.flushDisconnect disconnect))
      (still : Still machine next) : Moves machine (.written true polls) next
  | flushed (next : Machine) (before : machine.phase.stage = .running .flush)
      (stage : next.phase.stage = .running .select) (still : Still machine next) :
      Moves machine (.flushed true) next
  | flushedDisconnect (disconnect : Disconnect) (next : Machine)
      (before : machine.phase.stage = .running (.flushDisconnect disconnect))
      (stage : next.phase.stage = .idle) (still : Still machine next) :
      Moves machine (.flushed true) next

section

variable {machine next : Machine} {event : MachineEvent} {loop : Loop}

theorem runUntilDisconnect_still (machine : Machine)
    (ended : Except InnerConnectionError InnerDisconnect) :
    Still machine (machine.runUntilDisconnect ended) ∧
      (machine.runUntilDisconnect ended).phase.stage = .idle := by
  unfold runUntilDisconnect
  exact ⟨⟨rfl, rfl⟩, rfl⟩

/-- A loop that ends leaves the client without a connection. -/
theorem runUntilDisconnect_moves {event : MachineEvent} (machine : Machine)
    (ended : Except InnerConnectionError InnerDisconnect) (cut : event ≠ .flushed true) :
    Moves machine event (machine.runUntilDisconnect ended) := by
  obtain ⟨still, idle⟩ := runUntilDisconnect_still machine ended
  exact .ended _ _ idle still cut

theorem poll_emissions {world next : World} {polls : List Readiness} {packet : Option Packet}
    (polled : world.poll polls = .ok (packet, next)) :
    ∃ outgoing : Option Outgoing, packet = outgoing.map (·.packet) ∧
      next.emissions = world.emissions ++ outgoing.toList.map (Emission.mk world.connections) ∧
      next.connections = world.connections := by
  unfold World.poll at polled
  split at polled
  · cases polled
  · rename_i outgoing session fired taken
    cases polled
    exact ⟨outgoing, rfl, rfl, rfl⟩

theorem incoming_still {world next : World} {packet : Incoming}
    {result : Except ProtocolError Unit} (handled : world.incoming packet = .ok (next, result)) :
    next.emissions = world.emissions ∧ next.connections = world.connections := by
  cases packet with
  | ack ack =>
    simp only [World.incoming] at handled
    split at handled
    · cases handled
    · cases handled
      exact ⟨rfl, rfl⟩
  | publish publish =>
    simp only [World.incoming] at handled
    cases delivered : world.incomingPublish publish with
    | error panic => simp [delivered, Except.map] at handled
    | ok reached =>
      simp only [delivered, Except.map, Except.ok.injEq, Prod.mk.injEq] at handled
      obtain ⟨rfl, rfl⟩ := handled
      obtain ⟨emissions, _, links, _⟩ := World.incomingPublish_history delivered
      exact ⟨emissions, congrArg List.length links⟩
  | auth auth =>
    cases handled
    exact ⟨rfl, rfl⟩
  | pingResp =>
    cases handled
    exact ⟨rfl, rfl⟩

/-- After a poll that yields nothing, a packet of the server is handled. -/
theorem dispatch_moves {polls : List Readiness} {read : Read} {expired : Bool} {middle : Machine}
    {inner : Loop} {packet : Incoming} (selecting : machine.phase.stage = .running .select)
    (still : Still machine middle) (dispatched : middle.dispatch inner packet = .ok next) :
    Moves machine (.wake polls read expired) next := by
  unfold dispatch at dispatched
  split at dispatched
  · cases dispatched
  · rename_i world handled
    cases dispatched
    obtain ⟨emissions, connections⟩ := incoming_still handled
    exact .kept _ _ rfl selecting.symm (still.trans ⟨emissions, connections⟩)
  · rename_i world error handled
    cases dispatched
    obtain ⟨emissions, connections⟩ := incoming_still handled
    obtain ⟨last, stage⟩ := runUntilDisconnect_still (middle.after (.incoming packet) world)
      (.error (.protocol error))
    exact .ended _ _ stage (still.trans (Still.trans ⟨emissions, connections⟩ last)) (by simp)

theorem handle_moves {polls : List Readiness} {read : Read} {expired : Bool} {middle : Machine}
    {packet : Packet} (selecting : machine.phase.stage = .running .select)
    (still : Still machine middle) (handled : middle.handle loop packet = .ok next) :
    Moves machine (.wake polls read expired) next := by
  have ends {ended : Except InnerConnectionError InnerDisconnect}
      (stops : .ok (middle.runUntilDisconnect ended) = (.ok next : Except Panic Machine)) :
      Moves machine (.wake polls read expired) next := by
    cases stops
    obtain ⟨last, stage⟩ := runUntilDisconnect_still middle ended
    exact .ended _ _ stage (still.trans last) (by simp)
  unfold handle at handled
  split at handled
  · exact dispatch_moves selecting still handled
  · exact dispatch_moves selecting still handled
  · exact dispatch_moves selecting still handled
  · exact dispatch_moves selecting still handled
  · exact dispatch_moves selecting still handled
  · exact ends handled
  · exact dispatch_moves selecting still handled
  · exact dispatch_moves selecting still handled
  · exact ends handled

theorem startWrite_stage (machine : Machine) (loop : Loop) (packet : Packet) :
    (machine.startWrite loop packet).phase.stage = .running (.write packet) := by
  unfold startWrite
  split <;> rfl

theorem wake_moves {polls : List Readiness} {read : Read} {expired : Bool}
    (running : machine.phase = .running loop) (selecting : loop.await = .select)
    (woke : machine.wake loop polls read expired = .ok next) :
    Moves machine (.wake polls read expired) next := by
  have stage : machine.phase.stage = .running .select := by
    rw [running, Phase.stage, selecting]
  unfold wake at woke
  split at woke
  · cases woke
  · rename_i packet world polled
    cases woke
    obtain ⟨outgoing, same, emissions, connections⟩ := poll_emissions polled
    cases outgoing with
    | none => cases same
    | some sent =>
      cases same
      exact .woken polls read expired sent _ stage (startWrite_stage _ _ _)
        (by simpa [after] using emissions) (by simpa [after] using connections)
  · rename_i world polled
    obtain ⟨outgoing, same, emissions, connections⟩ := poll_emissions polled
    cases outgoing with
    | some sent => cases same
    | none =>
      have still : Still machine (machine.after (.poll polls) world) :=
        ⟨by simpa [after] using emissions, connections⟩
      simp only at woke
      split at woke
      · exact handle_moves stage still woke
      · cases woke
        obtain ⟨last, idle⟩ := runUntilDisconnect_still (machine.after (.poll polls) world)
          (.error ‹_›)
        exact .ended _ _ idle (still.trans last) (by simp)
      · split at woke
        · cases woke
          obtain ⟨last, idle⟩ := runUntilDisconnect_still (machine.after (.poll polls) world)
            (.ok .pingTimeout)
          exact .ended _ _ idle (still.trans last) (by simp)
        · cases woke
          exact .kept _ _ rfl rfl still

theorem written_moves {polls : List Readiness} {packet : Packet}
    (running : machine.phase = .running loop) (writing : loop.await = .write packet)
    (wrote : machine.written loop packet polls = .ok next) :
    Moves machine (.written true polls) next := by
  have stage : machine.phase.stage = .running (.write packet) := by
    rw [running, Phase.stage, writing]
  unfold written at wrote
  split at wrote
  · cases wrote
    exact .wroteDisconnect polls _ _ stage rfl ⟨rfl, rfl⟩
  · rename_i other
    split at wrote
    · cases wrote
    · rename_i sent world polled
      cases wrote
      obtain ⟨outgoing, same, emissions, connections⟩ := poll_emissions polled
      refine .wrote polls packet outgoing _ stage other ?_ ?_ ?_
      · cases outgoing with
        | none => cases same
        | some sent =>
          cases same
          exact startWrite_stage _ _ _
      · simpa [after] using emissions
      · simpa [after] using connections
    · rename_i world polled
      cases wrote
      obtain ⟨outgoing, same, emissions, connections⟩ := poll_emissions polled
      refine .wrote polls packet outgoing _ stage other ?_ emissions connections
      cases outgoing with
      | some sent => cases same
      | none => rfl

theorem response_moves {options : ConnectOptions} (waiting : machine.phase = .connecting options)
    (response : Response) :
    Moves machine (.response response) (machine.receiveResponse options response) := by
  have before : machine.phase.stage = .opening := by rw [waiting, Phase.stage]
  have failed : Moves machine (.response response) (machine.moveTo .idle) :=
    .ended _ _ rfl ⟨rfl, rfl⟩ (by simp)
  cases response with
  | packet packet =>
    cases packet with
    | connAck connack =>
      rcases machine.world.connack_cases connack options.keepAlive.toKeepAlive options.authMethod
        options.properties.sessionExpiryInterval with ⟨result, called, refused⟩ |
          ⟨sessionPresent, code, called⟩
      · simp only [receiveResponse, called]
        split
        · rename_i code
          exact absurd rfl (refused _ code)
        · exact .ended _ _ rfl ⟨rfl, rfl⟩ (by simp)
      · simp only [receiveResponse, called, code]
        refine .opened _ _ before rfl rfl ?_
        simp [after, moveTo, World.established, World.connections]
    | auth auth =>
      simp only [receiveResponse]
      split
      · split
        · exact .kept _ _ rfl before.symm ⟨rfl, rfl⟩
        · exact failed
      · exact failed
    | _ => exact failed
  | failed error => exact failed
  | timeout => exact failed

/-- A DISCONNECT of the application is applied when its flush has returned. -/
theorem step_client_disconnects {disconnect : Disconnect}
    (live : machine.phase.isRunning = machine.world.session.isConnected)
    (stepped : machine.step event = .ok next)
    (ended : next.calls = machine.calls ++ [.disconnected (.client disconnect)]) :
    event = .flushed true ∧ machine.phase.stage = .running (.flushDisconnect disconnect) := by
  cases step_effect live stepped with
  | inside added calls ran drained quiet phase =>
    rw [ended, List.append_cancel_left_eq] at calls
    have inside := quiet (.disconnected (.client disconnect)) (calls ▸ List.mem_singleton_self _)
    cases inside
  | answered options connack waiting received called =>
    subst called
    simp only [receiveResponse] at ended
    split at ended
    · simp [after, moveTo] at ended
    · simp [after, moveTo] at ended
  | ended added disconnection last running calls ran drained quiet applied phase flushed =>
    rw [ended, List.append_assoc, List.append_cancel_left_eq] at calls
    have same : disconnection = .client disconnect := by
      have last := congrArg List.getLast? calls
      simpa using last.symm
    obtain ⟨loop, running, flushing, returned⟩ := (flushed disconnect).mp same
    exact ⟨returned, by rw [running, Phase.stage, flushing]⟩

theorem connect_idle {options : ConnectOptions} {sent : Bool}
    (stepped : machine.step (.connect options sent) = .ok next) :
    machine.phase.stage = .idle := by
  simp only [step] at stepped
  split at stepped
  · rename_i idle
    rw [idle, Phase.stage]
  · cases stepped

theorem step_moves (stepped : machine.step event = .ok next) : Moves machine event next := by
  cases event with
  | app event =>
    cases stepped
    obtain ⟨emissions, _, links, _⟩ := machine.world.app_history event
    exact .kept _ _ rfl rfl ⟨emissions, congrArg List.length links⟩
  | elapse duration =>
    cases stepped
    exact .kept _ _ rfl rfl ⟨rfl, rfl⟩
  | connect options sent =>
    simp only [step] at stepped
    split at stepped
    · cases stepped
      cases sent with
      | true => exact .attempted options _ rfl ⟨rfl, rfl⟩
      | false => exact .kept _ _ rfl rfl (.refl machine)
    · cases stepped
  | response response =>
    simp only [step] at stepped
    split at stepped
    · rename_i options waiting
      cases stepped
      exact response_moves waiting response
    · cases stepped
  | continueAuth sent =>
    simp only [step] at stepped
    split at stepped
    · rename_i options challenged
      cases stepped
      cases sent with
      | true => exact .answered _ (by rw [challenged, Phase.stage]) rfl ⟨rfl, rfl⟩
      | false => exact .ended _ _ rfl ⟨rfl, rfl⟩ (by simp)
    · cases stepped
  | wake polls read expired =>
    simp only [step] at stepped
    split at stepped
    · rename_i loop running
      split at stepped
      · rename_i selecting
        exact wake_moves running selecting (liftPanic_ok stepped)
      · cases stepped
    · cases stepped
  | written sent polls =>
    simp only [step] at stepped
    split at stepped
    · rename_i loop running
      split at stepped
      · rename_i packet writing
        cases sent with
        | true => exact written_moves running writing (liftPanic_ok stepped)
        | false =>
          cases stepped
          exact runUntilDisconnect_moves machine _ (by simp)
      · cases stepped
    · cases stepped
  | flushed sent =>
    have broken : MachineEvent.flushed false ≠ .flushed true := by simp
    simp only [step] at stepped
    split at stepped
    · rename_i loop running
      split at stepped
      · rename_i flushing
        cases stepped
        cases sent with
        | true =>
          exact .flushed _ (by rw [running, Phase.stage, flushing]) rfl ⟨rfl, rfl⟩
        | false =>
          exact runUntilDisconnect_moves machine (.error .io) broken
      · rename_i disconnect flushing
        cases stepped
        cases sent with
        | true =>
          obtain ⟨still, idle⟩ := runUntilDisconnect_still machine (.ok (.application disconnect))
          exact .flushedDisconnect disconnect _ (by rw [running, Phase.stage, flushing]) idle still
        | false =>
          exact runUntilDisconnect_moves machine (.error .io) broken
      · cases stepped
    · cases stepped

end

/-! ### DISCONNECT -/

/-- A DISCONNECT is the last packet on its connection. -/
structure Closing (machine : Machine) : Prop where
  bounded : ∀ emission ∈ machine.world.emissions, emission.connection ≤ machine.world.connections
  last : ∀ connection early disconnect late, machine.world.packetsOn connection =
    early ++ .disconnect disconnect :: late → late = []
  current : ∀ await disconnect, machine.phase.stage = .running await →
    .disconnect disconnect ∈ machine.world.packetsOn machine.world.connections →
    await = .write (.disconnect disconnect) ∨ await = .flushDisconnect disconnect
  flushing : ∀ disconnect, machine.phase.stage = .running (.flushDisconnect disconnect) →
    ∃ early, machine.world.packetsOn machine.world.connections = early ++ [.disconnect disconnect]
  writing : ∀ packet, machine.phase.stage = .running (.write packet) →
    ∃ early, machine.world.packetsOn machine.world.connections = early ++ [packet]

namespace Closing

variable {machine next : Machine} {event : MachineEvent}

theorem new (maxPkid : PacketIdentifier) : Closing (.new maxPkid) where
  bounded emission member := by cases member
  last connection early disconnect late split := by
    simp [World.packetsOn, Machine.new, World.new] at split
  current await disconnect stage := by cases stage
  flushing disconnect stage := by cases stage
  writing packet stage := by cases stage

/-- A step that sends nothing, and that the loop does not go on with. -/
theorem of_still (closing : Closing machine) (still : Still machine next)
    (same : ∀ await, next.phase.stage = .running await → machine.phase.stage = .running await) :
    Closing next := by
  constructor
  · rw [still.emissions, still.connections]
    exact closing.bounded
  · intro connection
    rw [still.packetsOn]
    exact closing.last connection
  · intro await disconnect stage
    rw [still.connections, still.packetsOn]
    exact closing.current await disconnect (same await stage)
  · intro disconnect stage
    rw [still.connections, still.packetsOn]
    exact closing.flushing disconnect (same _ stage)
  · intro packet stage
    rw [still.connections, still.packetsOn]
    exact closing.writing packet (same _ stage)

/-- The loop goes on where nothing is to be written. -/
theorem of_quiet (closing : Closing machine) (still : Still machine next) {await : Await}
    (stage : next.phase.stage = .running await)
    (idle : await = .select ∨ await = .flush)
    (unclosed : ∀ disconnect,
      .disconnect disconnect ∉ machine.world.packetsOn machine.world.connections) :
    Closing next := by
  constructor
  · rw [still.emissions, still.connections]
    exact closing.bounded
  · intro connection
    rw [still.packetsOn]
    exact closing.last connection
  · intro other disconnect _ sent
    rw [still.connections, still.packetsOn] at sent
    exact absurd sent (unclosed disconnect)
  · intro disconnect goes
    rw [stage] at goes
    cases goes
    rcases idle with idle | idle <;> cases idle
  · intro packet goes
    rw [stage] at goes
    cases goes
    rcases idle with idle | idle <;> cases idle

/-- A packet is taken while no DISCONNECT has been sent. -/
theorem emits (closing : Closing machine) {sent : Outgoing}
    (unclosed : ∀ disconnect,
      .disconnect disconnect ∉ machine.world.packetsOn machine.world.connections)
    (stage : next.phase.stage = .running (.write sent.packet))
    (emissions : next.world.emissions =
      machine.world.emissions ++ [⟨machine.world.connections, sent⟩])
    (connections : next.world.connections = machine.world.connections) : Closing next := by
  have packets (connection : Nat) := World.packetsOn_append machine.world next.world (some sent)
    connection emissions
  have here : next.world.packetsOn next.world.connections =
      machine.world.packetsOn machine.world.connections ++ [sent.packet] := by
    rw [packets, connections, if_pos rfl]
    rfl
  constructor
  · intro emission member
    rw [emissions] at member
    rw [connections]
    rcases List.mem_append.mp member with old | last
    · exact closing.bounded emission old
    · rw [List.mem_singleton.mp last]
  · intro connection early disconnect late split
    by_cases current : connection = machine.world.connections
    · subst current
      rw [← connections, here] at split
      rcases Lib.snoc_split split with ⟨_, _, none⟩ | ⟨shorter, _, inside⟩
      · exact none
      · exact absurd (inside ▸ List.mem_append_right _ List.mem_cons_self) (unclosed disconnect)
    · rw [packets, if_neg current, List.append_nil] at split
      exact closing.last connection early disconnect late split
  · intro await disconnect goes member
    rw [stage] at goes
    cases goes
    rw [here] at member
    rcases List.mem_append.mp member with old | last
    · exact absurd old (unclosed disconnect)
    · exact .inl (congrArg Await.write (List.mem_singleton.mp last).symm)
  · intro disconnect goes
    rw [stage] at goes
    cases goes
  · intro packet goes
    rw [stage] at goes
    cases goes
    exact ⟨_, here⟩

/-- The loop sends no DISCONNECT before it writes one. -/
theorem unsent (closing : Closing machine) {await : Await}
    (stage : machine.phase.stage = .running await)
    (other : ∀ disconnect, await ≠ .write (.disconnect disconnect) ∧
      await ≠ .flushDisconnect disconnect) (disconnect : Disconnect) :
    .disconnect disconnect ∉ machine.world.packetsOn machine.world.connections := by
  intro member
  rcases closing.current await disconnect stage member with writes | flushes
  · exact (other disconnect).1 writes
  · exact (other disconnect).2 flushes

/-- Nothing has been sent on a new connection. -/
theorem packetsOn_next (closing : Closing machine)
    (emissions : next.world.emissions = machine.world.emissions)
    (connections : next.world.connections = machine.world.connections + 1) :
    next.world.packetsOn next.world.connections = [] := by
  rw [World.packetsOn, emissions, connections, List.map_eq_nil_iff, List.filter_eq_nil_iff]
  intro emission member
  have below := closing.bounded emission member
  simp only [beq_iff_eq]
  omega

theorem opens (closing : Closing machine) (stage : next.phase.stage = .running .select)
    (emissions : next.world.emissions = machine.world.emissions)
    (connections : next.world.connections = machine.world.connections + 1) : Closing next := by
  have packets (connection : Nat) :
      next.world.packetsOn connection = machine.world.packetsOn connection := by
    rw [World.packetsOn, emissions]
    rfl
  have none := closing.packetsOn_next emissions connections
  constructor
  · intro emission member
    rw [emissions] at member
    rw [connections]
    exact Nat.le_succ_of_le (closing.bounded emission member)
  · intro connection
    rw [packets]
    exact closing.last connection
  · intro await disconnect goes member
    rw [none] at member
    cases member
  · intro disconnect goes
    rw [stage] at goes
    cases goes
  · intro packet goes
    rw [stage] at goes
    cases goes

theorem closes (closing : Closing machine) {disconnect : Disconnect}
    (before : machine.phase.stage = .running (.write (.disconnect disconnect)))
    (stage : next.phase.stage = .running (.flushDisconnect disconnect))
    (still : Still machine next) : Closing next := by
  constructor
  · rw [still.emissions, still.connections]
    exact closing.bounded
  · intro connection
    rw [still.packetsOn]
    exact closing.last connection
  · intro await other goes member
    rw [stage] at goes
    cases goes
    rw [still.connections, still.packetsOn] at member
    rcases closing.current _ other before member with writes | flushes
    · cases writes
      exact .inr rfl
    · cases flushes
  · intro other goes
    rw [stage] at goes
    cases goes
    rw [still.connections, still.packetsOn]
    exact closing.writing _ before
  · intro packet goes
    rw [stage] at goes
    cases goes

theorem step (closing : Closing machine) (stepped : machine.step event = .ok next) :
    Closing next := by
  cases step_moves stepped with
  | kept _ _ apart stage still => exact closing.of_still still (fun _ goes => stage ▸ goes)
  | ended _ _ stage still => exact closing.of_still still (by simp [stage])
  | attempted options _ stage still => exact closing.of_still still (by simp [stage])
  | answered _ before stage still => exact closing.of_still still (by simp [stage])
  | opened response _ before stage emissions connections =>
    exact closing.opens stage emissions connections
  | woken polls read expired sent _ before stage emissions connections =>
    exact closing.emits (closing.unsent before (by simp)) stage emissions connections
  | wrote polls packet outgoing _ before other stage emissions connections =>
    have unsent := closing.unsent before (by simpa using other)
    cases outgoing with
    | some sent => exact closing.emits unsent stage emissions connections
    | none =>
      exact closing.of_quiet ⟨by simpa using emissions, connections⟩ stage (.inr rfl) unsent
  | wroteDisconnect polls disconnect _ before stage still =>
    exact closing.closes before stage still
  | flushed _ before stage still =>
    exact closing.of_quiet still stage (.inl rfl) (closing.unsent before (by simp))
  | flushedDisconnect disconnect _ before stage still =>
    exact closing.of_still still (by simp [stage])

end Closing

end Machine

/-! ### The writer -/

section

open Io

/-- What a call of the writer returned, once it has. -/
def returned? : Outcome → Option Bool
  | .ok => some true
  | .error _ => some false
  | _ => none

/-- The client with the writer of its transport. `opening` are the packets that it wrote
before the CONNACK. -/
structure Wired (O : Type) where
  machine : Machine
  usage : Usage (EitherAccumulator O)
  opening : List Packet := []

inductive WireEvent (O : Type) [Owned O] where
  /-- A step that is not the return of a call of the writer. -/
  | client (event : MachineEvent)
  /-- An attempt on a new transport, with what it answers to the write and the flush. -/
  | connect (options : ConnectOptions) (buf : { buf : EitherAccumulator O // buf.Fresh })
      (write flush : List Answer)
  | continueAuth (arguments : AuthArguments) (write flush : List Answer)
  | written (answers : List Answer) (polls : List Readiness)
  | flushed (answers : List Answer)

/-- Write a packet and flush it. -/
def send {A : Type} [BytesAccumulator A] (usage : Usage A) (packet : Packet)
    (write flush : List Answer) : Usage A :=
  let usage := usage.call ⟨.write packet .v5, write⟩
  if usage.last = .ok then usage.call ⟨.flush, flush⟩ else usage

namespace Wired

variable {O : Type}

def new (maxPkid : PacketIdentifier) : Wired O where
  machine := .new maxPkid
  usage := .new (.single .new)

/-- The machine goes on once the writer has returned. -/
def goOn (wired : Wired O) (usage : Usage (EitherAccumulator O)) (opening : List Packet)
    (event : Bool → MachineEvent) : Except Stop (Wired O) :=
  match returned? usage.last with
  | some sent => (wired.machine.step (event sent)).map fun machine => ⟨machine, usage, opening⟩
  | none => .error .disabled

def step [Owned O] (wired : Wired O) : WireEvent O → Except Stop (Wired O)
  | .client event =>
    if event.writes then .error .disabled
    else (wired.machine.step event).map fun machine => { wired with machine }
  | .connect options buf write flush =>
    let connect := Packet.connect options.mqttConnect
    wired.goOn (send (.new buf.1) connect write flush) [connect] (.connect options)
  | .continueAuth arguments write flush =>
    match wired.machine.phase with
    | .challenged options =>
      match options.method with
      | some method =>
        let auth := Packet.auth (arguments.auth .continueAuthentication method)
        wired.goOn (send wired.usage auth write flush) (wired.opening ++ [auth]) .continueAuth
      | none => .error .disabled
    | _ => .error .disabled
  | .written answers polls =>
    match wired.machine.phase.stage with
    | .running (.write packet) =>
      wired.goOn (wired.usage.call ⟨.write packet .v5, answers⟩) wired.opening (.written · polls)
    | _ => .error .disabled
  | .flushed answers => wired.goOn (wired.usage.call ⟨.flush, answers⟩) wired.opening .flushed

abbrev run [Owned O] (start : Wired O) (events : List (WireEvent O)) : Except Stop (Wired O) :=
  Transition.exec step start events

/-- The packets of the transport, those of the attempt first. -/
def packets (wired : Wired O) : List Packet :=
  wired.opening ++ wired.machine.world.packetsOn wired.machine.world.connections

end Wired

variable {O : Type} [LawfulOwned O]

/-- Exactly these packets were written. -/
structure Wrote (usage : Usage (EitherAccumulator O)) (packets : List Packet) : Prop where
  valid : usage.Valid
  encoded : usage.Encoded
  written : usage.written = packets.map fun packet => (packet, .v5)

namespace Wrote

variable {usage : Usage (EitherAccumulator O)} {packets : List Packet}

theorem new {buf : EitherAccumulator O} (fresh : buf.Fresh) : Wrote (.new buf) [] where
  valid := fresh.valid
  encoded := by simp [Usage.Encoded, Usage.new]
  written := rfl

theorem valid_call (wrote : Wrote usage packets) {use : Use}
    (returned : (usage.call use).last = .ok) :
    (usage.call use).Valid ∧
      (use.call = .flush → (usage.call use).writer.inner.accepted = (usage.call use).code) := by
  rcases Usage.call_spec wrote.valid use with ⟨_, valid, flushed, _⟩ | ⟨ended, _⟩
  · exact ⟨valid, flushed⟩
  · simp [returned, Outcome.ended] at ended

theorem write (wrote : Wrote usage packets) {packet : Packet} {answers : List Answer}
    (returned : (usage.call ⟨.write packet .v5, answers⟩).last = .ok) :
    Wrote (usage.call ⟨.write packet .v5, answers⟩) (packets ++ [packet]) := by
  refine ⟨(wrote.valid_call returned).1, Usage.call_encoded wrote.valid wrote.encoded _, ?_⟩
  simp only [Usage.call] at returned ⊢
  rw [if_pos returned, wrote.written, List.map_append]
  rfl

theorem flush (wrote : Wrote usage packets) {answers : List Answer}
    (returned : (usage.call ⟨.flush, answers⟩).last = .ok) :
    Wrote (usage.call ⟨.flush, answers⟩) packets ∧
      (usage.call ⟨.flush, answers⟩).writer.inner.accepted =
        (usage.call ⟨.flush, answers⟩).code := by
  obtain ⟨valid, flushed⟩ := wrote.valid_call returned
  exact ⟨⟨valid, Usage.call_encoded wrote.valid wrote.encoded _, wrote.written⟩, flushed rfl⟩

theorem send (wrote : Wrote usage packets) {packet : Packet} {write flush : List Answer}
    (returned : (Client.send usage packet write flush).last = .ok) :
    Wrote (Client.send usage packet write flush) (packets ++ [packet]) ∧
      (Client.send usage packet write flush).writer.inner.accepted =
        (Client.send usage packet write flush).code := by
  unfold Client.send at returned ⊢
  by_cases written : (usage.call ⟨.write packet .v5, write⟩).last = .ok
  · rw [if_pos written] at returned ⊢
    exact (wrote.write written).flush returned
  · rw [if_neg written] at returned
    exact absurd returned written

end Wrote

def Await.writing : Await → List Packet
  | .write packet => [packet]
  | _ => []

namespace Wired

/-- The packets were written up to the one that is being written, and they have been accepted
when the loop waits. -/
def OnWire (wired : Wired O) : Prop :=
  match wired.machine.phase.stage with
  | .idle => True
  | .opening => Wrote wired.usage wired.opening ∧
      wired.usage.writer.inner.accepted = wired.usage.code
  | .running await => ∃ sent, wired.packets = sent ++ await.writing ∧ Wrote wired.usage sent ∧
      (await = .select → wired.usage.writer.inner.accepted = wired.usage.code)

variable {wired next : Wired O} {event : WireEvent O}

omit [LawfulOwned O] in
theorem goOn_ok {usage : Usage (EitherAccumulator O)} {opening : List Packet}
    {event : Bool → MachineEvent} (stepped : wired.goOn usage opening event = .ok next) :
    ∃ sent, returned? usage.last = some sent ∧ next = ⟨next.machine, usage, opening⟩ ∧
      wired.machine.step (event sent) = .ok next.machine := by
  unfold goOn at stepped
  split at stepped
  · rename_i sent returned
    cases moved : wired.machine.step (event sent) with
    | error stop => simp [moved, Except.map] at stepped
    | ok machine =>
      simp only [moved, Except.map, Except.ok.injEq] at stepped
      subst stepped
      exact ⟨sent, returned, rfl, moved⟩
  · cases stepped

/-- A step of the client is not the return of a call of the writer. -/
theorem step_client {event : MachineEvent} (stepped : wired.step (.client event) = .ok next) :
    event.writes = false ∧
      ∃ machine, wired.machine.step event = .ok machine ∧ next = { wired with machine } := by
  simp only [Wired.step] at stepped
  split at stepped
  · cases stepped
  · rename_i apart
    cases moved : wired.machine.step event with
    | error stop => simp [moved, Except.map] at stepped
    | ok machine =>
      simp only [moved, Except.map, Except.ok.injEq] at stepped
      exact ⟨Bool.eq_false_iff.mpr apart, machine, rfl, stepped.symm⟩

theorem onWire_idle (stage : wired.machine.phase.stage = .idle) : wired.OnWire := by
  rw [OnWire, stage]
  trivial

theorem OnWire.opening (onWire : wired.OnWire) (stage : wired.machine.phase.stage = .opening) :
    Wrote wired.usage wired.opening ∧ wired.usage.writer.inner.accepted = wired.usage.code := by
  rwa [OnWire, stage] at onWire

theorem OnWire.running (onWire : wired.OnWire) {await : Await}
    (stage : wired.machine.phase.stage = .running await) :
    ∃ sent, wired.packets = sent ++ await.writing ∧ Wrote wired.usage sent ∧
      (await = .select → wired.usage.writer.inner.accepted = wired.usage.code) := by
  rwa [OnWire, stage] at onWire

omit [LawfulOwned O] in
theorem packets_still {machine : Machine} (still : Machine.Still wired.machine machine)
    (usage : Usage (EitherAccumulator O)) (opening : List Packet) :
    (⟨machine, usage, opening⟩ : Wired O).packets =
      opening ++ wired.machine.world.packetsOn wired.machine.world.connections := by
  rw [packets, still.connections, still.packetsOn]

omit [LawfulOwned O] in
theorem packets_emitted {machine : Machine} {outgoing : Option Outgoing}
    (emissions : machine.world.emissions = wired.machine.world.emissions ++
      outgoing.toList.map (Emission.mk wired.machine.world.connections))
    (connections : machine.world.connections = wired.machine.world.connections)
    (usage : Usage (EitherAccumulator O)) :
    (⟨machine, usage, wired.opening⟩ : Wired O).packets =
      wired.packets ++ outgoing.toList.map (·.packet) := by
  rw [packets, World.packetsOn_append _ _ outgoing _ emissions, if_pos connections, connections,
    packets, List.append_assoc]

/-- Steps that are not the return of a call of the writer. -/
theorem OnWire.client (onWire : wired.OnWire) (closing : wired.machine.Closing)
    {event : MachineEvent} {machine : Machine} (apart : event.writes = false)
    (stepped : wired.machine.step event = .ok machine) :
    ({ wired with machine := machine } : Wired O).OnWire := by
  cases Machine.step_moves stepped with
  | kept _ _ _ stage still =>
    have same := packets_still still wired.usage wired.opening
    unfold OnWire at onWire ⊢
    simp only [stage, same]
    exact onWire
  | ended _ _ stage still => exact onWire_idle stage
  | opened response _ before stage emissions connections =>
    obtain ⟨wrote, accepted⟩ := onWire.opening before
    have none : machine.world.packetsOn machine.world.connections = [] := closing.packetsOn_next
      emissions connections
    rw [OnWire, stage]
    exact ⟨wired.opening, by simp [packets, none, Await.writing], wrote, fun _ => accepted⟩
  | woken polls read expired sent _ before stage emissions connections =>
    obtain ⟨written, all, wrote, _⟩ := onWire.running before
    have packets := @packets_emitted O wired machine (some sent) emissions connections wired.usage
    rw [OnWire, stage]
    refine ⟨written, ?_, wrote, by simp⟩
    rw [packets, all]
    simp [Await.writing]
  | attempted options _ stage still => cases apart
  | answered _ before stage still => cases apart
  | wrote => cases apart
  | wroteDisconnect => cases apart
  | flushed => cases apart
  | flushedDisconnect => cases apart

omit [LawfulOwned O] in
theorem last_ok {usage : Usage (EitherAccumulator O)}
    (returned : returned? usage.last = some true) : usage.last = .ok := by
  cases last : usage.last with
  | ok => rfl
  | _ => simp [last, returned?] at returned

theorem OnWire.connect {options : ConnectOptions} {buf : EitherAccumulator O} (fresh : buf.Fresh)
    {write flush : List Answer}
    (stepped : wired.goOn (send (.new buf) (.connect options.mqttConnect) write flush)
      [.connect options.mqttConnect] (.connect options) = .ok next) : next.OnWire := by
  obtain ⟨sent, returned, rebuilt, moved⟩ := goOn_ok stepped
  rw [rebuilt]
  cases sent with
  | true =>
    have wrote := (Wrote.new fresh).send (last_ok returned)
    cases Machine.step_moves moved with
    | kept _ _ apart => cases apart
    | ended _ _ stage => exact onWire_idle stage
    | attempted _ _ stage =>
      rw [OnWire, stage]
      exact wrote
  | false =>
    cases Machine.step_moves moved with
    | kept _ _ apart stage => exact onWire_idle (stage.trans (Machine.connect_idle moved))
    | ended _ _ stage => exact onWire_idle stage

theorem OnWire.continueAuth (onWire : wired.OnWire) {packet : Packet} {write flush : List Answer}
    (stepped : wired.goOn (send wired.usage packet write flush) (wired.opening ++ [packet])
      .continueAuth = .ok next) : next.OnWire := by
  obtain ⟨sent, returned, rebuilt, moved⟩ := goOn_ok stepped
  rw [rebuilt]
  cases Machine.step_moves moved with
  | kept _ _ apart => cases apart
  | ended _ _ stage => exact onWire_idle stage
  | answered _ before stage =>
    rw [OnWire, stage]
    exact (onWire.opening before).1.send (last_ok returned)

theorem OnWire.written (onWire : wired.OnWire) {packet : Packet} {answers : List Answer}
    {polls : List Readiness} (writing : wired.machine.phase.stage = .running (.write packet))
    (stepped : wired.goOn (wired.usage.call ⟨.write packet .v5, answers⟩) wired.opening
      (.written · polls) = .ok next) : next.OnWire := by
  obtain ⟨sent, returned, rebuilt, moved⟩ := goOn_ok stepped
  rw [rebuilt]
  obtain ⟨early, all, wrote, _⟩ := onWire.running writing
  have moves : Machine.Moves wired.machine (.written sent polls) next.machine :=
    Machine.step_moves moved
  cases moves with
  | kept _ _ apart => cases apart
  | ended _ _ stage => exact onWire_idle stage
  | wrote _ other outgoing _ before _ stage emissions connections =>
    obtain rfl : packet = other := by
      rw [writing] at before
      cases before
      rfl
    have packets := packets_emitted emissions connections
      (wired.usage.call ⟨.write packet .v5, answers⟩)
    rw [OnWire, stage]
    refine ⟨early ++ [packet], ?_, wrote.write (last_ok returned), ?_⟩
    · rw [packets, all]
      cases outgoing <;> rfl
    · cases outgoing <;> simp
  | wroteDisconnect _ disconnect _ before stage still =>
    obtain rfl : packet = .disconnect disconnect := by
      rw [writing] at before
      cases before
      rfl
    rw [OnWire, stage]
    refine ⟨early ++ [.disconnect disconnect], ?_, wrote.write (last_ok returned), by simp⟩
    rw [packets_still still]
    exact all.trans (List.append_nil _).symm

theorem OnWire.flushed (onWire : wired.OnWire) {answers : List Answer}
    (stepped : wired.goOn (wired.usage.call ⟨.flush, answers⟩) wired.opening .flushed =
      .ok next) : next.OnWire := by
  obtain ⟨sent, returned, rebuilt, moved⟩ := goOn_ok stepped
  rw [rebuilt]
  cases Machine.step_moves moved with
  | kept _ _ apart => cases apart
  | ended _ _ stage => exact onWire_idle stage
  | flushed _ before stage still =>
    obtain ⟨early, all, wrote, _⟩ := onWire.running before
    obtain ⟨kept, accepted⟩ := wrote.flush (last_ok returned)
    rw [OnWire, stage]
    refine ⟨early, ?_, kept, fun _ => accepted⟩
    rw [packets_still still]
    exact all
  | flushedDisconnect disconnect _ before stage => exact onWire_idle stage

theorem OnWire.step (onWire : wired.OnWire) (closing : wired.machine.Closing)
    (stepped : wired.step event = .ok next) : next.OnWire := by
  cases event with
  | client event =>
    obtain ⟨apart, machine, moved, rfl⟩ := step_client stepped
    exact onWire.client closing apart moved
  | connect options buf write flush => exact OnWire.connect buf.2 stepped
  | continueAuth arguments write flush =>
    simp only [Wired.step] at stepped
    split at stepped
    · split at stepped
      · exact onWire.continueAuth stepped
      · cases stepped
    · cases stepped
  | written answers polls =>
    simp only [Wired.step] at stepped
    split at stepped
    · rename_i packet writing
      exact onWire.written writing stepped
    · cases stepped
  | flushed answers => exact onWire.flushed stepped

/-- A step is one of the machine. It is the return of a flush only if the writer flushes. -/
theorem step_machine (stepped : wired.step event = .ok next) :
    ∃ moved, wired.machine.step moved = .ok next.machine ∧
      (moved = .flushed true → ∃ answers, next.usage = wired.usage.call ⟨.flush, answers⟩ ∧
        next.opening = wired.opening ∧ next.usage.last = .ok) := by
  cases event with
  | client event =>
    obtain ⟨apart, machine, moved, rfl⟩ := step_client stepped
    refine ⟨event, moved, ?_⟩
    rintro rfl
    cases apart
  | connect options buf write flush =>
    obtain ⟨_, _, _, moved⟩ := goOn_ok stepped
    exact ⟨_, moved, by simp⟩
  | continueAuth arguments write flush =>
    simp only [Wired.step] at stepped
    split at stepped
    · split at stepped
      · obtain ⟨_, _, _, moved⟩ := goOn_ok stepped
        exact ⟨_, moved, by simp⟩
      · cases stepped
    · cases stepped
  | written answers polls =>
    simp only [Wired.step] at stepped
    split at stepped
    · obtain ⟨_, _, _, moved⟩ := goOn_ok stepped
      exact ⟨_, moved, by simp⟩
    · cases stepped
  | flushed answers =>
    obtain ⟨sent, returned, rebuilt, moved⟩ := goOn_ok stepped
    refine ⟨_, moved, ?_⟩
    intro same
    cases same
    rw [rebuilt]
    exact ⟨answers, rfl, rfl, last_ok returned⟩

/-- What holds of every client on its transport. -/
structure Holds (maxPkid : PacketIdentifier) (wired : Wired O) : Prop where
  sound : Machine.Sound maxPkid wired.machine
  closing : wired.machine.Closing
  onWire : wired.OnWire

theorem holds_run {maxPkid : PacketIdentifier} {events : List (WireEvent O)} {wired : Wired O}
    (ran : run (.new maxPkid) events = .ok wired) : wired.Holds maxPkid := by
  refine Transition.exec_always (Holds maxPkid) ?_ ?_ ran
  · exact ⟨Machine.sound_new maxPkid, .new maxPkid, onWire_idle rfl⟩
  · intro wired event next holds stepped
    obtain ⟨moved, moves, _⟩ := step_machine stepped
    exact ⟨holds.sound.step moves, holds.closing.step moves,
      holds.onWire.step holds.closing stepped⟩

/-- A DISCONNECT of the application ends a connection only when it has been flushed. -/
theorem step_disconnects {maxPkid : PacketIdentifier} (holds : wired.Holds maxPkid)
    {disconnect : Disconnect} (stepped : wired.step event = .ok next)
    (ended : next.machine.calls =
      wired.machine.calls ++ [.disconnected (.client disconnect)]) :
    (∃ sent, next.packets = sent ++ [.disconnect disconnect]) ∧
      Wrote next.usage next.packets ∧
      next.usage.writer.inner.accepted = next.usage.code := by
  obtain ⟨moved, moves, flushes⟩ := step_machine stepped
  obtain ⟨rfl, flushing⟩ := Machine.step_client_disconnects holds.sound.live moves ended
  obtain ⟨answers, usage, opening, returned⟩ := flushes rfl
  obtain ⟨early, all, wrote, _⟩ := holds.onWire.running flushing
  obtain ⟨sent, last⟩ := holds.closing.flushing disconnect flushing
  have still : Machine.Still wired.machine next.machine := by
    cases Machine.step_moves moves with
    | kept _ _ apart => cases apart
    | ended _ _ _ still => exact still
    | flushed _ _ _ still => exact still
    | flushedDisconnect _ _ _ _ still => exact still
  have packets : next.packets = wired.packets := by
    rw [Wired.packets, opening, still.connections, still.packetsOn]
    rfl
  have written : early = wired.packets := by
    rw [all]
    exact (List.append_nil _).symm
  rw [usage] at returned ⊢
  obtain ⟨kept, accepted⟩ := wrote.flush returned
  refine ⟨⟨wired.opening ++ sent, ?_⟩, ?_, accepted⟩
  · rw [packets, Wired.packets, last, List.append_assoc]
  · rw [packets, ← written]
    exact kept

end Wired

/-- Whatever the application, the server and the transport do: the packets of a connection are
written in the order in which the session sends them, behind those of the attempt. What the
transport has accepted is the start of their encodings, and all of them when the loop waits.
A reader at the other end then returns these packets. A DISCONNECT is the last packet on its
connection, and it ends the connection for the application only when all has been accepted. -/
theorem wire_exact {P : Type} [LawfulOwned P] (maxPkid : PacketIdentifier)
    (events : List (WireEvent O)) (wired : Wired O)
    (ran : Wired.run (.new maxPkid) events = .ok wired) :
    (∀ loop, wired.machine.phase = .running loop →
      ∃ sent, wired.packets = sent ++ loop.await.writing ∧
        wired.usage.written = sent.map (fun packet => (packet, .v5)) ∧
        wired.usage.writer.inner.accepted <+: wired.usage.code ∧
        (loop.await = .select → wired.usage.writer.inner.accepted = wired.usage.code)) ∧
      (∀ loop (dst : P) calls, wired.machine.phase = .running loop → loop.await = .select →
        Owned.filled dst = [] →
        (∀ (owned : P) (additional : Nat), Owned.reserve owned additional ≠ none) →
        calls.length = wired.packets.length →
        (∀ call ∈ calls, .fails ∉ call ∧
          wired.usage.writer.inner.accepted.length < call.length) →
        ∃ reading, Transition.exec Reading.step (.new wired.usage.writer.inner.accepted dst) calls =
            .ok reading ∧ reading.packets = wired.packets.map (raw · .v5)) ∧
      (∀ connection early disconnect late, wired.machine.world.packetsOn connection =
        early ++ .disconnect disconnect :: late → late = []) ∧
      ∀ event next disconnect, wired.step event = .ok next →
        next.machine.calls = wired.machine.calls ++ [.disconnected (.client disconnect)] →
        (∃ sent, next.packets = sent ++ [.disconnect disconnect]) ∧
          next.usage.written = next.packets.map (fun packet => (packet, .v5)) ∧
          next.usage.writer.inner.accepted = next.usage.code := by
  have holds := Wired.holds_run ran
  refine ⟨?_, ?_, holds.closing.last, ?_⟩
  · intro loop running
    obtain ⟨sent, all, wrote, accepted⟩ := holds.onWire.running
      (show wired.machine.phase.stage = .running loop.await by rw [running, Phase.stage])
    exact ⟨sent, all, wrote.written, wrote.valid.sent, accepted⟩
  · intro loop dst calls running selecting empty roomy count healthy
    obtain ⟨sent, all, wrote, accepted⟩ := holds.onWire.running
      (show wired.machine.phase.stage = .running .select by rw [running, Phase.stage, selecting])
    obtain rfl : wired.packets = sent := all.trans (List.append_nil _)
    have bytes : (Reading.new wired.usage.writer.inner.accepted dst).reader.pending =
        wired.usage.writer.inner.accepted := by
      simp [Reading.new, Reader.pending, Reader.filled, empty]
    obtain ⟨reading, read, packets⟩ := exec_words roomy wired.usage.written wrote.encoded
      wired.usage.writer.inner.accepted.length (.new wired.usage.writer.inner.accepted dst) calls
      (bytes.trans (accepted rfl)) (Nat.le_of_eq (congrArg List.length bytes)) healthy
      (by rw [wrote.written, List.length_map]; exact count)
    refine ⟨reading, read, ?_⟩
    rw [packets, wrote.written, List.map_map]
    rfl
  · intro event next disconnect stepped ended
    obtain ⟨last, wrote, accepted⟩ := Wired.step_disconnects holds stepped ended
    exact ⟨last, wrote.written, accepted⟩

/-- A ping is written and flushed on a new connection. -/
def pingOnWire : List (WireEvent BytesMut) :=
  [.connect { cleanStart := true, keepAlive := .infinite } ⟨.single .new, rfl⟩ []
      [.accepts 100, .accepts 0],
    .client (.response (.packet (.connAck ⟨.success false, {}⟩))), .client (.app .ping),
    .client (.wake [{}] .pending false), .written [] [{}], .flushed [.accepts 100, .accepts 0]]

theorem wire_exact_ping :
    ∃ wired loop, Wired.run (.new .one) pingOnWire = .ok wired ∧
      wired.machine.phase = .running loop ∧ loop.await = .select ∧
      wired.usage.writer.inner.accepted = wired.usage.code := by
  have reached : ∃ wired loop, Wired.run (.new .one) pingOnWire = .ok wired ∧
      wired.machine.phase = .running loop ∧ loop.await = .select := ⟨_, _, rfl, rfl, rfl⟩
  obtain ⟨wired, loop, ran, running, selecting⟩ := reached
  have exact := (@wire_exact BytesMut inferInstance BytesMut inferInstance .one pingOnWire wired
    ran).1 loop running
  obtain ⟨_, _, _, _, accepted⟩ := exact
  exact ⟨wired, loop, ran, running, selecting, accepted selecting⟩

end

end MqttClient.Client
