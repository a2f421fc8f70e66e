import MqttClient.Client.Discipline

/-! What one step of a session and its surroundings can do. -/

namespace MqttClient.Client

open MqttClient.Proto

namespace World

/-- The session a successful CONNACK starts from, with what fires when the server has
lost the previous one. -/
def resumed (session : Session) (sessionPresent : Bool) : Session × List Firing :=
  if sessionPresent then (session, []) else session.sessionExpired

/-- The world after a successful CONNACK. -/
def established (world : World) (connack : ConnAck) (keepAlive : KeepAlive)
    (authMethod : Option Bytes) (sessionExpiryInterval : SessionExpiryInterval)
    (sessionPresent : Bool) : World :=
  let (base, fired) := resumed world.session sessionPresent
  let session := base.establish world.now connack keepAlive sessionExpiryInterval
  { world.record (.connack connack keepAlive authMethod sessionExpiryInterval)
      { session with ch := { session.ch with disconnectRx := some .waiting } } fired with
    links := world.links ++
      [⟨sessionExpiryInterval, connack.otherProperties.sessionExpiryInterval⟩] }

/-- The world after a poll of the next outgoing packet. -/
def afterPoll (world : World) (polls : List Readiness) (outgoing : Option Outgoing)
    (session : Session) (fired : List Firing) : World :=
  { world.record (.poll polls) session fired with
    emissions := world.emissions ++ outgoing.toList.map (Emission.mk world.connections) }

/-- Everything a step can do. -/
inductive Stepped (world : World) : Event → World → Prop where
  | app (event : AppEvent) : Stepped world (.app event) (world.app event)
  | elapse (duration : Nat) :
      Stepped world (.elapse duration) { world with now := world.now + duration }
  | refused (connack : ConnAck) (keepAlive : KeepAlive) (authMethod : Option Bytes)
      (sessionExpiryInterval : SessionExpiryInterval)
      (idle : world.session.isConnected = false) :
      Stepped world (.connack connack keepAlive authMethod sessionExpiryInterval) world
  | established (connack : ConnAck) (keepAlive : KeepAlive) (authMethod : Option Bytes)
      (sessionExpiryInterval : SessionExpiryInterval) (sessionPresent : Bool)
      (idle : world.session.isConnected = false)
      (code : connack.reasonCode = .success sessionPresent) :
      Stepped world (.connack connack keepAlive authMethod sessionExpiryInterval)
        (world.established connack keepAlive authMethod sessionExpiryInterval sessionPresent)
  | polled (polls : List Readiness) (outgoing : Option Outgoing) (session : Session)
      (fired : List Firing) (live : world.session.isConnected = true)
      (polled : world.session.nextOutgoingPacket world.now polls = .ok (outgoing, session, fired)) :
      Stepped world (.poll polls) (world.afterPoll polls outgoing session fired)
  | acked (ack : Acknowledgement) (handled : Handled) (live : world.session.isConnected = true)
      (completed : world.session.completeInflight ack.operation = .ok handled) :
      Stepped world (.incoming (.ack ack))
        (world.record (.incoming (.ack ack)) handled.session handled.fired)
  | delivered (publish : Publish) (next : World) (live : world.session.isConnected = true)
      (delivered : world.incomingPublish publish = .ok next) :
      Stepped world (.incoming (.publish publish)) next
  | authenticated (auth : Auth) (live : world.session.isConnected = true) :
      Stepped world (.incoming (.auth auth))
        (world.record (.incoming (.auth auth)) (world.session.incomingAuth auth).session
          (world.session.incomingAuth auth).fired)
  | ponged (live : world.session.isConnected = true) :
      Stepped world (.incoming .pingResp)
        (world.record (.incoming .pingResp) (world.session.incomingPingresp world.now).1
          (world.session.incomingPingresp world.now).2)
  | disconnected (disconnection : Disconnection) (live : world.session.isConnected = true) :
      Stepped world (.disconnected disconnection) (world.disconnected disconnection)

@[simp] theorem record_nil (world : World) (event : Event) :
    world.record event world.session [] = world := by
  simp [record]

/-- A CONNACK that does not report success, or is for another authentication method,
changes nothing. -/
theorem connack_cases (world : World) (connack : ConnAck) (keepAlive : KeepAlive)
    (authMethod : Option Bytes) (sessionExpiryInterval : SessionExpiryInterval) :
    (∃ result, world.connack connack keepAlive authMethod sessionExpiryInterval = (world, result) ∧
      ∀ sessionPresent, connack.reasonCode = .success sessionPresent → result ≠ .ok ()) ∨
      ∃ sessionPresent, connack.reasonCode = .success sessionPresent ∧
        world.connack connack keepAlive authMethod sessionExpiryInterval =
          (world.established connack keepAlive authMethod sessionExpiryInterval sessionPresent,
            .ok ()) := by
  cases code : connack.reasonCode with
  | refused reason =>
    left
    simp only [World.connack, Session.incomingConnack, code]
    split
    · cases authMethod <;> split at * <;> simp_all
    · split <;> simp_all
  | success sessionPresent =>
    by_cases matched : authenticationMethodMatches connack.otherProperties.authentication authMethod
    · right
      refine ⟨sessionPresent, rfl, ?_⟩
      cases sessionPresent <;>
        simp [World.connack, Session.incomingConnack, code, matched, established, resumed]
    · left
      simp [World.connack, Session.incomingConnack, code, matched]

private theorem map_ok {α β ε δ : Type} {value : Except ε α} {f : α → β} {g : ε → δ} {result : β}
    (mapped : (value.mapError g).map f = .ok result) : ∃ inner, value = .ok inner ∧ f inner = result := by
  cases value with
  | error fault => simp [Except.mapError, Except.map] at mapped
  | ok inner => exact ⟨inner, rfl, by simpa [Except.mapError, Except.map] using mapped⟩

theorem step_cases {world next : World} {event : Event} (stepped : world.step event = .ok next) :
    Stepped world event next := by
  cases event with
  | app event =>
    cases stepped
    exact .app event
  | elapse duration =>
    cases stepped
    exact .elapse duration
  | connack connack keepAlive authMethod sessionExpiryInterval =>
    simp only [step] at stepped
    cases live : world.session.isConnected with
    | true => simp [live] at stepped
    | false =>
      simp only [live, Bool.false_eq_true, if_false, Except.ok.injEq] at stepped
      subst stepped
      rcases world.connack_cases connack keepAlive authMethod sessionExpiryInterval with
        ⟨result, same, _⟩ | ⟨sessionPresent, code, success⟩
      · rw [same]
        exact .refused connack keepAlive authMethod sessionExpiryInterval live
      · rw [success]
        exact .established connack keepAlive authMethod sessionExpiryInterval sessionPresent live
          code
  | poll polls =>
    simp only [step] at stepped
    cases live : world.session.isConnected with
    | false => simp [live] at stepped
    | true =>
      simp only [live, if_true] at stepped
      obtain ⟨⟨packet, after⟩, polled, rfl⟩ := map_ok stepped
      unfold World.poll at polled
      split at polled
      · cases polled
      · rename_i outgoing session fired taken
        cases polled
        exact .polled polls outgoing session fired live taken
  | incoming packet =>
    simp only [step] at stepped
    cases live : world.session.isConnected with
    | false => simp [live] at stepped
    | true =>
      simp only [live, if_true] at stepped
      obtain ⟨⟨after, result⟩, handled, rfl⟩ := map_ok stepped
      cases packet with
      | ack ack =>
        simp only [World.incoming] at handled
        split at handled
        · cases handled
        · rename_i outcome completed
          cases handled
          exact .acked ack outcome live completed
      | publish publish =>
        simp only [World.incoming] at handled
        cases delivered : world.incomingPublish publish with
        | error panic => simp [delivered, Except.map] at handled
        | ok final =>
          simp only [delivered, Except.map, Except.ok.injEq, Prod.mk.injEq] at handled
          exact .delivered publish after live (handled.1 ▸ delivered)
      | auth auth =>
        cases handled
        exact .authenticated auth live
      | pingResp =>
        cases handled
        exact .ponged live
  | disconnected disconnection =>
    simp only [step] at stepped
    cases live : world.session.isConnected with
    | false => simp [live] at stepped
    | true =>
      simp only [live, if_true, Except.ok.injEq] at stepped
      subst stepped
      exact .disconnected disconnection live

/-! ### The end of a connection -/

end World

/-- The interval in effect once the connection has ended. -/
def Disconnection.expiryInterval (disconnection : Disconnection) (session : Session) :
    SessionExpiryInterval :=
  match disconnection with
  | .client disconnect =>
    disconnect.otherProperties.sessionExpiryInterval.getD session.expiryInterval
  | .server _ => session.expiryInterval
  | .transport => session.expiryInterval

/-- The session after a connection that ended with this interval in effect. -/
def Session.ended (session : Session) (interval : SessionExpiryInterval) :
    Session × List Firing :=
  let (closed, fired) := session.disconnected
  let (final, expired) := { closed with expiryInterval := interval }.expireIfZero
  (final, fired ++ expired)

namespace World

/-- The three ways to end a connection differ only in the interval. -/
theorem disconnected_eq (world : World) (disconnection : Disconnection) :
    world.disconnected disconnection =
      world.record (.disconnected disconnection)
        (world.session.ended (disconnection.expiryInterval world.session)).1
        (world.session.ended (disconnection.expiryInterval world.session)).2 := by
  cases disconnection <;> rfl

theorem disconnected_isConnected (world : World) (disconnection : Disconnection) :
    (world.disconnected disconnection).session.isConnected = false := by
  rw [disconnected_eq]
  simp only [record, Session.ended, Session.expireIfZero]
  split <;> rfl

/-! ### Steps that leave operations alone -/

/-- The application touches only channels, notifiers and tokens. -/
theorem app_session (world : World) (event : AppEvent) :
    ∃ ch, (world.app event).session = { world.session with ch := ch } ∧
      ch.disconnectRx.isSome = world.session.ch.disconnectRx.isSome := by
  have used : ∀ serial reasonCode otherProperties, ∃ ch,
      (world.useToken serial reasonCode otherProperties).session =
        { world.session with ch := ch } ∧
      ch.disconnectRx.isSome = world.session.ch.disconnectRx.isSome := by
    intro serial reasonCode otherProperties
    unfold useToken
    split
    · exact ⟨world.session.ch, rfl, rfl⟩
    · exact ⟨_, rfl, rfl⟩
  cases event with
  | disconnect disconnect =>
    refine ⟨_, rfl, ?_⟩
    simp only
    split <;> simp_all
  | dropDisconnectHandle =>
    refine ⟨_, rfl, ?_⟩
    simp only
    split <;> simp_all
  | acknowledge serial reasonCode otherProperties => exact used _ _ _
  | dropToken serial => exact used _ _ _
  | _ => exact ⟨_, rfl, rfl⟩

theorem app_history (world : World) (event : AppEvent) :
    (world.app event).emissions = world.emissions ∧ (world.app event).fired = world.fired ∧
      (world.app event).links = world.links ∧ world.fresh ≤ (world.app event).fresh := by
  have used : ∀ serial reasonCode otherProperties,
      (world.useToken serial reasonCode otherProperties).emissions = world.emissions ∧
      (world.useToken serial reasonCode otherProperties).fired = world.fired ∧
      (world.useToken serial reasonCode otherProperties).links = world.links ∧
      world.fresh ≤ (world.useToken serial reasonCode otherProperties).fresh := by
    intro serial reasonCode otherProperties
    unfold useToken
    split
    · exact ⟨rfl, rfl, rfl, Nat.le_refl _⟩
    · exact ⟨rfl, rfl, rfl, Nat.le_succ _⟩
  cases event with
  | acknowledge serial reasonCode otherProperties => exact used _ _ _
  | dropToken serial => exact used _ _ _
  | disconnect disconnect => exact ⟨rfl, rfl, rfl, Nat.le_refl _⟩
  | dropDisconnectHandle => exact ⟨rfl, rfl, rfl, Nat.le_refl _⟩
  | closeReceiver => exact ⟨rfl, rfl, rfl, Nat.le_refl _⟩
  | _ => exact ⟨rfl, rfl, rfl, Nat.le_succ _⟩

/-- The ways a PUBLISH of the server is delivered: without acknowledgement, with a
token handed to the application, or with a token dropped at once. -/
inductive Delivered (world : World) (publish : Publish) : World → Prop where
  | qos0 (qos : publish.packetIdentifierDupQoS = .atMostOnce) : Delivered world publish world
  | handed (pkid : PacketIdentifier) (dup : Bool)
      (qos : publish.packetIdentifierDupQoS = .atLeastOnce pkid dup)
      (absent : pkid ∉ world.session.inApplication.keys)
      (receiver : world.session.ch.iPubOpen = true) :
      Delivered world publish
        { world with
          session := { world.session with
            inApplication := world.session.inApplication.insert pkid .notReady }
          deliveries := world.deliveries ++ [⟨world.connections, pkid⟩]
          tokens := world.tokens ++
            [⟨world.deliveries.length, pkid, world.session.connectionEpoch⟩] }
  | dropped (pkid : PacketIdentifier) (dup : Bool)
      (qos : publish.packetIdentifierDupQoS = .atLeastOnce pkid dup)
      (absent : pkid ∉ world.session.inApplication.keys)
      (receiver : world.session.ch.iPubOpen = false) :
      Delivered world publish
        { world with
          session := { world.session with
            ch := { world.session.ch with
              ackRx := world.session.ch.ackRx ++
                [.pubAck world.fresh ⟨pkid, .success, {}⟩ world.session.connectionEpoch] }
            inApplication := world.session.inApplication.insert pkid .notReady }
          deliveries := world.deliveries ++ [⟨world.connections, pkid⟩]
          fresh := world.fresh + 1
          uses := world.uses ++
            [⟨⟨world.deliveries.length, pkid, world.session.connectionEpoch⟩, world.fresh,
              ⟨pkid, .success, {}⟩⟩] }

theorem incomingPublish_cases {world next : World} {publish : Publish}
    (delivered : world.incomingPublish publish = .ok next) : Delivered world publish next := by
  simp only [World.incomingPublish, Session.incomingPublish] at delivered
  cases qos : publish.packetIdentifierDupQoS with
  | atMostOnce =>
    simp only [qos] at delivered
    cases delivered
    exact .qos0 qos
  | atLeastOnce pkid dup =>
    by_cases pending : pkid ∈ world.session.inApplication.keys
    · simp [qos, pending] at delivered
    · cases receiver : world.session.ch.iPubOpen with
      | true =>
        simp only [qos, pending, receiver, if_true, if_false] at delivered
        cases delivered
        exact .handed pkid dup qos pending receiver
      | false =>
        have closed : ¬ world.session.ch.iPubOpen = true := by simp [receiver]
        simp only [qos, pending, if_false, if_neg closed] at delivered
        cases delivered
        exact .dropped pkid dup qos pending receiver
  | exactlyOnce pkid dup => simp [qos] at delivered

theorem incomingPublish_history {world next : World} {publish : Publish}
    (delivered : world.incomingPublish publish = .ok next) :
    next.emissions = world.emissions ∧ next.fired = world.fired ∧ next.links = world.links ∧
      world.fresh ≤ next.fresh := by
  cases incomingPublish_cases delivered with
  | qos0 _ => exact ⟨rfl, rfl, rfl, Nat.le_refl _⟩
  | handed pkid dup _ _ => exact ⟨rfl, rfl, rfl, Nat.le_refl _⟩
  | dropped pkid dup _ _ => exact ⟨rfl, rfl, rfl, Nat.le_succ _⟩

/-- Only a poll hands packets to the network. -/
theorem step_emissions {world next : World} {event : Event}
    (stepped : world.step event = .ok next) (notPoll : ∀ polls, event ≠ .poll polls) :
    next.emissions = world.emissions := by
  cases step_cases stepped with
  | app event => exact (world.app_history event).1
  | delivered publish next live delivered => exact (incomingPublish_history delivered).1
  | polled polls => exact absurd rfl (notPoll polls)
  | _ => rfl

theorem incomingPublish_session {world next : World} {publish : Publish}
    (delivered : world.incomingPublish publish = .ok next) :
    ∃ ackRx inApplication, next.session =
      { world.session with
        ch := { world.session.ch with ackRx := ackRx }, inApplication := inApplication } := by
  cases incomingPublish_cases delivered with
  | qos0 _ => exact ⟨_, _, rfl⟩
  | handed pkid dup _ _ => exact ⟨_, _, rfl⟩
  | dropped pkid dup _ _ => exact ⟨_, _, rfl⟩

/-- Both worlds are on the same connection, or between the same two. -/
structure SameConnection (before after : World) : Prop where
  links : after.links = before.links
  connected : after.session.connected = before.session.connected
  epoch : after.session.connectionEpoch = before.session.connectionEpoch
  interval : after.session.expiryInterval = before.session.expiryInterval

theorem SameConnection.refl (world : World) : SameConnection world world :=
  ⟨rfl, rfl, rfl, rfl⟩

theorem SameConnection.trans {first second third : World} (left : SameConnection first second)
    (right : SameConnection second third) : SameConnection first third :=
  ⟨right.links.trans left.links, right.connected.trans left.connected,
    right.epoch.trans left.epoch, right.interval.trans left.interval⟩

theorem SameConnection.isConnected {before after : World} (same : SameConnection before after) :
    after.session.isConnected = before.session.isConnected :=
  congrArg Option.isSome same.connected

theorem SameConnection.connections {before after : World} (same : SameConnection before after) :
    after.connections = before.connections :=
  congrArg List.length same.links

/-- Only a CONNACK opens a connection and only a disconnection ends it. -/
theorem step_sameConnection {world next : World} {event : Event}
    (stepped : world.step event = .ok next)
    (noOpen : ∀ connack keepAlive authMethod interval,
      event ≠ .connack connack keepAlive authMethod interval)
    (noEnd : ∀ disconnection, event ≠ .disconnected disconnection) :
    SameConnection world next := by
  cases step_cases stepped with
  | app event =>
    obtain ⟨ch, same, _⟩ := world.app_session event
    refine ⟨(world.app_history event).2.2.1, ?_, ?_, ?_⟩ <;> rw [same]
  | elapse duration => exact ⟨rfl, rfl, rfl, rfl⟩
  | refused connack keepAlive authMethod interval => exact absurd rfl (noOpen _ _ _ _)
  | established connack keepAlive authMethod interval => exact absurd rfl (noOpen _ _ _ _)
  | polled polls outgoing session fired live polled =>
    obtain ⟨connected, epoch, interval⟩ := (Session.nextOutgoingPacket_effect polled).kept
    exact ⟨rfl, connected, epoch, interval⟩
  | acked ack handled live completed =>
    have final := (Session.completeInflight_spec completed).1
    refine ⟨rfl, ?_, ?_, ?_⟩ <;> simp only [record, final]
  | delivered publish next live delivered =>
    obtain ⟨ackRx, inApplication, same⟩ := incomingPublish_session delivered
    refine ⟨(incomingPublish_history delivered).2.2.1, ?_, ?_, ?_⟩ <;> rw [same]
  | authenticated auth live =>
    obtain ⟨exchange, same⟩ := (world.session.incomingAuth_frame auth).1
    rw [same]
    exact ⟨rfl, rfl, rfl, rfl⟩
  | ponged live =>
    obtain ⟨rest, same⟩ := (world.session.incomingPingresp_frame world.now).1
    rw [same]
    exact ⟨rfl, rfl, rfl, rfl⟩
  | disconnected disconnection live => exact absurd rfl (noEnd disconnection)

end World

/-- Nothing was sent on a connection that is yet to be made. -/
def SentBefore (world : World) : Prop :=
  ∀ emission ∈ world.emissions, emission.connection ≤ world.connections

theorem SentBefore.step {world next : World} {event : Event} (before : SentBefore world)
    (stepped : world.step event = .ok next) : SentBefore next := by
  have grown : ∀ {after : World}, after.emissions = world.emissions →
      world.connections ≤ after.connections → SentBefore after := by
    intro after emissions connections emission member
    exact Nat.le_trans (before emission (emissions ▸ member)) connections
  cases World.step_cases stepped with
  | app event =>
    obtain ⟨emissions, _, links, _⟩ := world.app_history event
    exact grown emissions (Nat.le_of_eq (congrArg List.length links).symm)
  | established connack keepAlive authMethod interval sessionPresent idle code =>
    exact grown rfl (by simp [World.established, World.connections])
  | polled polls outgoing session fired live polled =>
    intro emission member
    rcases List.mem_append.mp member with old | new
    · exact before emission old
    · obtain ⟨sent, _, rfl⟩ := List.mem_map.mp new
      exact Nat.le_refl _
  | delivered publish next live delivered =>
    obtain ⟨emissions, _, links, _⟩ := World.incomingPublish_history delivered
    exact grown emissions (Nat.le_of_eq (congrArg List.length links).symm)
  | _ => exact grown rfl (Nat.le_refl _)

theorem sentBefore_run {maxPkid : PacketIdentifier} {calls : List Event} {world : World}
    (ran : World.run (.new maxPkid) calls = .ok world) : SentBefore world :=
  Transition.exec_always SentBefore (by simp [SentBefore, World.new])
    (fun _ _ _ before stepped => before.step stepped) ran

/-- Connections are only ever added. -/
theorem World.step_connections {state later : World} {event : Event}
    (stepped : state.step event = .ok later) : state.connections ≤ later.connections := by
  cases World.step_cases stepped with
  | established connack keepAlive authMethod interval sessionPresent idle code =>
    simp [World.established, World.connections]
  | disconnected disconnection live =>
    rw [state.disconnected_eq]
    exact Nat.le_refl _
  | refused => exact Nat.le_refl _
  | _ =>
    refine Nat.le_of_eq (World.step_sameConnection stepped ?_ ?_).connections.symm <;> simp

theorem World.run_connections {world next : World} {calls : List Event}
    (ran : World.run world calls = .ok next) : world.connections ≤ next.connections :=
  Transition.exec_always (fun later => world.connections ≤ later.connections) (Nat.le_refl _)
    (fun _ _ _ grown stepped => Nat.le_trans grown (World.step_connections stepped)) ran

theorem World.app_now (world : World) (event : AppEvent) : (world.app event).now = world.now := by
  have used : ∀ serial reasonCode otherProperties,
      (world.useToken serial reasonCode otherProperties).now = world.now := by
    intro serial reasonCode otherProperties
    unfold useToken
    split
    · rfl
    · rfl
  cases event with
  | acknowledge serial reasonCode otherProperties => exact used _ _ _
  | dropToken serial => exact used _ _ _
  | _ => rfl

end MqttClient.Client
