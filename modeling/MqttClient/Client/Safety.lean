import MqttClient.Client.ConnectionSpec
import MqttClient.Client.QoS1
import MqttClient.Proto.CodecSpec

/-! Packets of the server that the client survives. -/

namespace MqttClient.Client

open MqttClient.Proto

/-- A PUBLISH that the client does not support. -/
def Packet.isQoS2 : Packet → Bool
  | .publish publish =>
    match publish.packetIdentifierDupQoS with
    | .exactlyOnce _ _ => true
    | _ => false
  | _ => false

/-- The packets a client in this state does not survive: a PUBREC that reports success,
and a QoS 1 PUBLISH whose identifier is still with the application. -/
def Packet.isFatal (session : Session) : Packet → Bool
  | .pubRec pubrec => pubrec.reasonCode.isSuccess
  | .publish publish =>
    match publish.packetIdentifierDupQoS with
    | .atLeastOnce pkid _ => decide (pkid ∈ session.inApplication.keys)
    | _ => false
  | _ => false

/-- The acknowledgements that are not fatal are handled. -/
theorem World.incoming_ack {world : World} (only : QoS1Only world.session)
    (ack : Acknowledgement) :
    (∃ outcome, world.incoming (.ack ack) = .ok outcome) ↔
      ∀ pubrec, ack = .pubRec pubrec → pubrec.reasonCode.isSuccess = false := by
  cases ack with
  | pubRec pubrec =>
    cases success : pubrec.reasonCode.isSuccess with
    | true =>
      simp [incoming, Acknowledgement.operation, Session.completeInflight, success,
        only.publishQoS2, IndexMap.get?]
    | false =>
      simp [incoming, Acknowledgement.operation, Session.completeInflight, success]
  | subAck packet =>
    simp [incoming, Acknowledgement.operation, Session.completeInflight]
  | unsubAck packet =>
    simp [incoming, Acknowledgement.operation, Session.completeInflight]
  | pubAck packet =>
    simp [incoming, Acknowledgement.operation, Session.completeInflight]

/-- A PUBLISH is delivered unless its identifier is still with the application. -/
theorem World.incoming_publish (world : World) (publish : Publish)
    (supported : Packet.isQoS2 (.publish publish) = false) :
    (∃ outcome, world.incoming (.publish publish) = .ok outcome) ↔
      Packet.isFatal world.session (.publish publish) = false := by
  cases qos : publish.packetIdentifierDupQoS with
  | atMostOnce =>
    simp [incoming, incomingPublish, Session.incomingPublish, qos, Packet.isFatal, Except.map]
  | atLeastOnce pkid dup =>
    by_cases pending : pkid ∈ world.session.inApplication.keys
    · simp [incoming, incomingPublish, Session.incomingPublish, qos, Packet.isFatal, Except.map,
        pending]
    · cases receiver : world.session.ch.iPubOpen <;>
        simp [incoming, incomingPublish, Session.incomingPublish, qos, Packet.isFatal, Except.map,
          pending, receiver]
  | exactlyOnce pkid dup => simp [Packet.isQoS2, qos] at supported

namespace Machine

theorem dispatch_ok (machine : Machine) (loop : Loop) (packet : Incoming) :
    (∃ next, machine.dispatch loop packet = .ok next ∧
      (next.phase.isRunning = true ∨ next.phase = .idle)) ↔
      ∃ outcome, machine.world.incoming packet = .ok outcome := by
  unfold dispatch
  cases handled : machine.world.incoming packet with
  | error panic => simp
  | ok outcome =>
    obtain ⟨world, result⟩ := outcome
    cases result with
    | ok done => simp [moveTo, Phase.isRunning]
    | error error => simp [runUntilDisconnect, moveTo]

/-- Handling a packet, by going on or by ending the connection, succeeds exactly when the
packet is not fatal in the state it is handled in. -/
theorem handle_ok_iff (machine : Machine) (only : QoS1Only machine.world.session) (loop : Loop)
    (packet : Packet) (supported : Packet.isQoS2 packet = false) :
    (∃ next, machine.handle loop packet = .ok next ∧
      (next.phase.isRunning = true ∨ next.phase = .idle)) ↔
      Packet.isFatal machine.world.session packet = false := by
  have ends : ∀ ended, ∃ next, (.ok (machine.runUntilDisconnect ended) : Except Panic Machine) =
      .ok next ∧ (next.phase.isRunning = true ∨ next.phase = .idle) :=
    fun ended => ⟨_, rfl, .inr rfl⟩
  have acked : ∀ ack : Acknowledgement, (∀ pubrec, ack ≠ .pubRec pubrec) →
      ∃ next, machine.dispatch loop (.ack ack) = .ok next ∧
        (next.phase.isRunning = true ∨ next.phase = .idle) :=
    fun ack other => (machine.dispatch_ok loop _).mpr
      ((World.incoming_ack only ack).mpr fun pubrec same => absurd same (other pubrec))
  cases packet with
  | pubRec pubrec =>
    simp only [handle, Packet.isFatal]
    rw [machine.dispatch_ok, World.incoming_ack only]
    simp
  | publish publish =>
    simp only [handle]
    rw [machine.dispatch_ok, machine.world.incoming_publish publish supported]
  | auth auth => exact ⟨fun _ => rfl, fun _ => (machine.dispatch_ok _ _).mpr ⟨_, rfl⟩⟩
  | pingResp =>
    refine ⟨fun _ => rfl, fun _ => ?_⟩
    exact (machine.dispatch_ok { loop with pingrespTimer := none } .pingResp).mpr ⟨_, rfl⟩
  | subAck packet => exact ⟨fun _ => rfl, fun _ => acked (.subAck packet) (by simp)⟩
  | unsubAck packet => exact ⟨fun _ => rfl, fun _ => acked (.unsubAck packet) (by simp)⟩
  | pubAck packet => exact ⟨fun _ => rfl, fun _ => acked (.pubAck packet) (by simp)⟩
  | _ => exact ⟨fun _ => rfl, fun _ => ends _⟩

/-- In every reachable state of the loop, a packet of the server that is read while no
outgoing packet is ready is handled without a panic exactly when it is not fatal. -/
theorem wake_packet_ok_iff (maxPkid : PacketIdentifier) (events : List MachineEvent)
    (machine : Machine) (loop : Loop) (polls : List Readiness) (world : World) (packet : Packet)
    (expired : Bool) (ran : run (.new maxPkid) events = .ok machine)
    (running : machine.phase = .running loop) (selecting : loop.await = .select)
    (quiet : machine.world.poll polls = .ok (none, world))
    (supported : Packet.isQoS2 packet = false) :
    (∃ next, machine.step (.wake polls (.packet packet) expired) = .ok next ∧
      (next.phase.isRunning = true ∨ next.phase = .idle)) ↔
      Packet.isFatal world.session packet = false := by
  have sound := sound_run ran
  have only : QoS1Only machine.world.session :=
    Transition.exec_always (fun world => QoS1Only world.session) (.new maxPkid)
      (fun _ _ _ only stepped => only.step stepped) sound.ran
  have live : machine.world.session.isConnected = true := by
    rw [← sound.live, running]
    rfl
  have polled := only.step (World.poll_step live quiet)
  have stepped : machine.step (.wake polls (.packet packet) expired) =
      liftPanic ((machine.after (.poll polls) world).handle loop packet) := by
    simp [step, running, selecting, wake, quiet]
  have handled := handle_ok_iff (machine.after (.poll polls) world) polled loop packet supported
  rw [stepped]
  refine Iff.trans ?_ handled
  cases (machine.after (.poll polls) world).handle loop packet with
  | error panic => simp [liftPanic, Except.mapError]
  | ok next => simp [liftPanic, Except.mapError]

/-- A plain attempt that the server accepts. -/
def plainConnection : List MachineEvent :=
  [.connect { cleanStart := true, keepAlive := .infinite } true,
    .response (.packet (.connAck ⟨.success false, {}⟩))]

/-- A PUBACK for an unknown identifier ends the connection. -/
theorem wake_packet_ok_unknown :
    ∃ machine next, run (.new .one) plainConnection = .ok machine ∧
      machine.step (.wake [{}] (.packet (.pubAck ⟨.one, .success, {}⟩)) false) = .ok next ∧
      (next.phase.isRunning = true ∨ next.phase = .idle) := by
  have reached : ∃ machine loop world, run (.new .one) plainConnection = .ok machine ∧
      machine.phase = .running loop ∧ loop.await = .select ∧
      machine.world.poll [{}] = .ok (none, world) := ⟨_, _, _, rfl, rfl, rfl, rfl⟩
  obtain ⟨machine, loop, world, ran, running, selecting, quiet⟩ := reached
  obtain ⟨next, stepped, phase⟩ := (wake_packet_ok_iff .one plainConnection machine loop [{}] world
    (.pubAck ⟨.one, .success, {}⟩) false ran running selecting quiet rfl).mpr rfl
  exact ⟨machine, next, ran, stepped, phase⟩

/-- A PUBREC that reports success panics a client that has published nothing. -/
theorem wake_packet_panics_pubRec :
    letI := asciiCategory
    ∃ machine, run (.new .one) plainConnection = .ok machine ∧
      Packet.decodeFull [0x50, 0x02, 0x00, 0x01] .v5 = .ok (.pubRec ⟨.one, .success, {}⟩) ∧
      machine.step (.wake [{}] (.packet (.pubRec ⟨.one, .success, {}⟩)) false) =
        .error (.panic .pubRelTokenDropped) :=
  ⟨_, rfl, by decide +kernel, rfl⟩

end Machine

end MqttClient.Client
