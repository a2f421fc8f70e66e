import MqttClient.Client.ConnectionSpec
import MqttClient.Client.Operations

/-! What the end of a connection does to the session. -/

namespace MqttClient.Client

open MqttClient.Proto

/-- The interval of the connection that ended: that of the DISCONNECT the application
sent, else that of the CONNACK, else that of the CONNECT. -/
def effectiveInterval (connect : Connect) (connack : ConnAck) (disconnection : Disconnection) :
    SessionExpiryInterval :=
  let granted := connack.otherProperties.sessionExpiryInterval.getD
    connect.otherProperties.sessionExpiryInterval
  match disconnection with
  | .client disconnect => disconnect.otherProperties.sessionExpiryInterval.getD granted
  | .server _ => granted
  | .transport => granted

/-- The end of a connection with this interval in effect: an interval of zero cancels
every publish and gives its identifier back; any other keeps them all. -/
def Expires (interval : SessionExpiryInterval) (before after : World) : Prop :=
  if interval = .duration 0 then
    after.session.inflight.publishQoS1 = .empty ∧
    after.session.inflight.packetsToReplay = [] ∧
    (∀ pkid ∈ before.session.inflight.publishQoS1.keys, pkid ∉ after.session.pkidPool.leased) ∧
    (after.settled .publishQoS1).map (·.2.firing) =
      (before.settled .publishQoS1).map (·.2.firing) ++
        before.session.inflight.publishQoS1.values.map
          (fun value => .publishQoS1 value.2 (.cancel "MQTT session expired"))
  else
    after.session.inflight.publishQoS1 = before.session.inflight.publishQoS1 ∧
    after.settled .publishQoS1 = before.settled .publishQoS1

theorem World.expires_disconnected (world : World) (disconnection : Disconnection) :
    Expires (disconnection.expiryInterval world.session) world
      (world.disconnected disconnection) := by
  rw [world.disconnected_eq]
  generalize disconnection.expiryInterval world.session = interval
  have fired := world.session.fired_ended .publishQoS1 interval
  unfold Expires
  rw [world.settled_record, fired]
  by_cases zero : interval = .duration 0
  · simp only [zero, if_true, OpKind.isPublish]
    refine ⟨rfl, rfl, ?_, ?_⟩
    · intro pkid held
      simp only [World.record, Session.ended, Session.expireIfZero, if_true,
        Session.sessionExpired, Session.mem_leased_releaseAll]
      exact fun leased => leased.1.2 held
    · simp [World.recordOf, InflightTracker.stored, IndexMap.values, OpKind.cancel,
        Function.comp_def]
  · simp only [zero, if_false, OpKind.isPublish, if_true, List.map_nil, List.append_nil, and_true]
    simp [World.record, Session.ended, Session.expireIfZero, zero, Session.disconnected]

namespace Machine

/-- A CONNACK either opens the connection, with success for the method of the CONNECT, or
leaves no trace. -/
theorem receiveResponse_cases (machine : Machine) (options : ConnectOptions)
    (connack : ConnAck) :
    let next := machine.receiveResponse options (.packet (.connAck connack))
    (next.phase = .idle ∧ next.world = machine.world) ∨
      ∃ sessionPresent, connack.reasonCode = .success sessionPresent ∧
        authenticationMethodMatches connack.otherProperties.authentication options.authMethod =
          true ∧
        next.phase = .running { cfgPingrespTimeout := options.keepAlive.pingrespTimeout } ∧
        next.world = machine.world.established connack options.keepAlive.toKeepAlive
          options.authMethod options.properties.sessionExpiryInterval sessionPresent := by
  rcases machine.world.connack_cases connack options.keepAlive.toKeepAlive options.authMethod
    options.properties.sessionExpiryInterval with
    ⟨result, same, refused⟩ | ⟨sessionPresent, code, success⟩
  · left
    simp only [receiveResponse, same]
    split
    · rename_i code
      exact absurd rfl (refused _ code)
    · exact ⟨rfl, rfl⟩
  · right
    refine ⟨sessionPresent, code, ?_, ?_, ?_⟩
    · by_contra mismatch
      have failed : (machine.world.connack connack options.keepAlive.toKeepAlive options.authMethod
          options.properties.sessionExpiryInterval).2 = .error .authenticationMethodMismatch := by
        simp [World.connack, Session.incomingConnack, code, Bool.eq_false_of_not_eq_true mismatch]
      rw [success] at failed
      cases failed
    · simp only [receiveResponse, success, code]
      rfl
    · simp only [receiveResponse, success, code]
      rfl

/-- A response that starts the loop has established the connection. -/
theorem receiveResponse_running {machine : Machine} {options : ConnectOptions} {connack : ConnAck}
    (running : (machine.receiveResponse options (.packet (.connAck connack))).phase.isRunning =
      true) :
    ∃ sessionPresent, (machine.receiveResponse options (.packet (.connAck connack))).world =
      machine.world.established connack options.keepAlive.toKeepAlive options.authMethod
        options.properties.sessionExpiryInterval sessionPresent := by
  rcases machine.receiveResponse_cases options connack with
    ⟨idle, -⟩ | ⟨sessionPresent, -, -, -, world⟩
  · rw [idle] at running
    cases running
  · exact ⟨sessionPresent, world⟩

/-- The machine has been on the connection of `opened` ever since. -/
structure OnConnection (opened machine : Machine) : Prop where
  added : ∃ calls, machine.calls = opened.calls ++ calls ∧
    ∀ call ∈ calls, call.isInside = true
  same : World.SameConnection opened.world machine.world

/-- A machine that runs on the connection it had runs on it without interruption. -/
theorem run_onConnection {maxPkid : PacketIdentifier} {opened : Machine}
    (sound : Sound maxPkid opened) {events : List MachineEvent}
    {machine : Machine} (ran : run opened events = .ok machine) :
    Sound maxPkid machine ∧ opened.world.connections ≤ machine.world.connections ∧
      (machine.world.connections = opened.world.connections → machine.phase.isRunning = true →
        opened.phase.isRunning = true → OnConnection opened machine) := by
  refine Transition.exec_always
    (fun machine => Sound maxPkid machine ∧
      opened.world.connections ≤ machine.world.connections ∧
      (machine.world.connections = opened.world.connections → machine.phase.isRunning = true →
        opened.phase.isRunning = true → OnConnection opened machine))
    ⟨sound, Nat.le_refl _, fun _ _ _ => ⟨⟨[], by simp⟩, .refl _⟩⟩ ?_ ran
  rintro machine event next ⟨sound, grown, on⟩ stepped
  refine ⟨sound.step stepped, ?_⟩
  cases step_effect sound.live stepped with
  | inside added calls ran drained quiet phase =>
    have same := run_sameConnection ran quiet
    refine ⟨same.connections ▸ grown, fun arrived running started => ?_⟩
    obtain ⟨⟨before, split, inside⟩, earlier⟩ :=
      on (same.connections ▸ arrived) (phase ▸ running) started
    refine ⟨⟨before ++ added, by rw [calls, split, List.append_assoc], ?_⟩, earlier.trans same⟩
    intro call member
    rcases List.mem_append.mp member with old | new
    · exact inside call old
    · exact quiet call new
  | answered options connack waiting received called =>
    subst called
    by_cases running :
        (machine.receiveResponse options (.packet (.connAck connack))).phase.isRunning = true
    · obtain ⟨sessionPresent, world⟩ := receiveResponse_running running
      have more : (machine.receiveResponse options
          (.packet (.connAck connack))).world.connections = machine.world.connections + 1 := by
        rw [world]
        simp [World.established, World.connections]
      refine ⟨by omega, fun arrived _ _ => ?_⟩
      omega
    · refine ⟨?_, fun _ started => absurd started running⟩
      have world : (machine.receiveResponse options (.packet (.connAck connack))).world =
          (machine.world.connack connack options.keepAlive.toKeepAlive options.authMethod
            options.properties.sessionExpiryInterval).1 := by
        simp only [receiveResponse]
        split <;> rfl
      rw [world]
      rcases machine.world.connack_cases connack options.keepAlive.toKeepAlive options.authMethod
        options.properties.sessionExpiryInterval with
        ⟨result, same, _⟩ | ⟨sessionPresent, code, success⟩
      · rw [same]
        exact grown
      · rw [success]
        have more : (machine.world.established connack options.keepAlive.toKeepAlive
            options.authMethod options.properties.sessionExpiryInterval
            sessionPresent).connections = machine.world.connections + 1 := by
          simp [World.established, World.connections]
        dsimp only
        omega
  | ended added disconnection last running calls ran drained quiet applied phase flushed =>
    have same := (run_sameConnection ran quiet).connections
    refine ⟨?_, fun _ running => by simp [phase, Phase.isRunning] at running⟩
    rw [applied, last.disconnected_eq]
    exact same ▸ grown

/-- A connection of the client: the attempt that awaits its CONNACK, the loop it starts,
and the loop at a later step on the same connection. -/
structure Connected (maxPkid : PacketIdentifier) (options : ConnectOptions) (connack : ConnAck)
    (opened running : Machine) : Prop where
  opening : ∃ early idle, run (.new maxPkid) early = .ok idle ∧
    idle.phase = .connecting options ∧
    idle.step (.response (.packet (.connAck connack))) = .ok opened
  started : opened.phase.isRunning = true
  later : ∃ events, run opened events = .ok running
  current : running.world.connections = opened.world.connections
  live : running.phase.isRunning = true

/-- What a step does to a connection: it goes on without a transition of the session, or
it ends with exactly one. Only a flushed DISCONNECT is a disconnection by the client. -/
inductive Ends (options : ConnectOptions) (connack : ConnAck) (running : Machine)
    (event : MachineEvent) (next : Machine) : Prop where
  | goesOn (added : List Event) (calls : next.calls = running.calls ++ added)
      (none : ∀ call ∈ added, ∀ disconnection, call ≠ .disconnected disconnection)
      (live : next.phase.isRunning = true)
  | ends (added : List Event) (disconnection : Disconnection) (last : World)
      (calls : next.calls = running.calls ++ added ++ [.disconnected disconnection])
      (none : ∀ call ∈ added, ∀ other, call ≠ .disconnected other)
      (ran : World.run running.world added = .ok last)
      (applied : next.world = last.disconnected disconnection) (idle : next.phase = .idle)
      (flushed : ∀ disconnect, disconnection = .client disconnect ↔
        ∃ loop, running.phase = .running loop ∧ loop.await = .flushDisconnect disconnect ∧
          event = .flushed true)
      (expires : Expires (effectiveInterval options.mqttConnect connack disconnection) last
        next.world)

theorem not_disconnected_of_inside {calls : List Event}
    (inside : ∀ call ∈ calls, call.isInside = true) :
    ∀ call ∈ calls, ∀ disconnection, call ≠ .disconnected disconnection := by
  rintro call member disconnection rfl
  have quiet := inside _ member
  cases quiet

/-- The interval in effect on an established connection. -/
theorem opened_interval {maxPkid : PacketIdentifier} {options : ConnectOptions}
    {connack : ConnAck} {opened running : Machine}
    (connected : Connected maxPkid options connack opened running) :
    Sound maxPkid opened ∧ opened.world.session.expiryInterval =
      connack.otherProperties.sessionExpiryInterval.getD
        options.mqttConnect.otherProperties.sessionExpiryInterval := by
  obtain ⟨early, idle, first, waiting, answered⟩ := connected.opening
  have sound := sound_run first
  refine ⟨sound.step answered, ?_⟩
  simp only [step, waiting, Except.ok.injEq] at answered
  subst answered
  obtain ⟨sessionPresent, world⟩ := receiveResponse_running connected.started
  rw [world]
  cases sessionPresent <;> rfl

/-- Every end of a connection is one transition of the session, governed by the interval
of that connection. -/
theorem expiry_transition (maxPkid : PacketIdentifier) (options : ConnectOptions)
    (connack : ConnAck) (opened running next : Machine) (event : MachineEvent)
    (connected : Connected maxPkid options connack opened running)
    (stepped : running.step event = .ok next) :
    (∃ added, running.calls = opened.calls ++ added ∧
      ∀ call ∈ added, ∀ disconnection, call ≠ .disconnected disconnection) ∧
    Ends options connack running event next := by
  obtain ⟨soundOpened, granted⟩ := opened_interval connected
  obtain ⟨events, ran⟩ := connected.later
  obtain ⟨sound, _, on⟩ := run_onConnection soundOpened ran
  obtain ⟨⟨added, calls, quiet⟩, same⟩ := on connected.current connected.live connected.started
  refine ⟨⟨added, calls, not_disconnected_of_inside quiet⟩, ?_⟩
  cases step_effect sound.live stepped with
  | inside added calls ran drained quiet phase =>
    exact .goesOn added calls (not_disconnected_of_inside quiet) (phase.trans connected.live)
  | answered options connack waiting received called =>
    have live := connected.live
    rw [waiting] at live
    cases live
  | ended added disconnection last running calls ran drained quiet applied phase flushed =>
    refine .ends added disconnection last calls (not_disconnected_of_inside quiet) ran applied phase
      flushed ?_
    have interval : last.session.expiryInterval =
        connack.otherProperties.sessionExpiryInterval.getD
          options.mqttConnect.otherProperties.sessionExpiryInterval :=
      (run_sameConnection ran quiet).interval.trans (same.interval.trans granted)
    have effective : disconnection.expiryInterval last.session =
        effectiveInterval options.mqttConnect connack disconnection := by
      cases disconnection <;> simp [Disconnection.expiryInterval, effectiveInterval, interval]
    rw [applied, ← effective]
    exact last.expires_disconnected disconnection

/-- The application ends the session with its DISCONNECT, against the CONNECT. -/
theorem expiry_transition_flushed :
    let options : ConnectOptions :=
      { cleanStart := true, keepAlive := .infinite
        properties := { sessionExpiryInterval := .infinite } }
    let disconnect : Disconnect := ⟨.normal, { sessionExpiryInterval := some (.duration 0) }⟩
    ∃ opened running next,
      Connected .one options ⟨.success false, {}⟩ opened running ∧
      running.step (.flushed true) = .ok next ∧
      effectiveInterval options.mqttConnect ⟨.success false, {}⟩ (.client disconnect) =
        .duration 0 ∧
      Ends options ⟨.success false, {}⟩ running (.flushed true) next := by
  intro options disconnect
  have ended : ∃ opened running next, Connected .one options ⟨.success false, {}⟩ opened running ∧
      running.step (.flushed true) = .ok next :=
    ⟨_, _, _, ⟨⟨[.connect options true], _, rfl, rfl, rfl⟩, rfl,
      ⟨[.app (.publishQoS1 ⟨⟨⟨[0, 1, 97]⟩⟩⟩ [] false {}), .app (.disconnect disconnect),
        .wake [{}] .pending false, .written true [{}]], rfl⟩, rfl, rfl⟩, rfl⟩
  obtain ⟨opened, running, next, connected, stepped⟩ := ended
  refine ⟨opened, running, next, connected, stepped, rfl, ?_⟩
  exact (expiry_transition .one options ⟨.success false, {}⟩ opened running next (.flushed true)
    connected stepped).2

end Machine

end MqttClient.Client
