import MqttClient.Client.Progress
import MqttClient.Client.ConnectionSpec
import MqttClient.Client.Exchanges

/-! Keep-alive: how long the client is silent on a connection, and that what can be sent is
sent. -/

namespace MqttClient.Client

open MqttClient.Proto

/-- A PINGREQ of the timer, with the keep-alive of its connection and how long nothing had
been sent. -/
structure TimerPing where
  keepAlive : KeepAlive
  silence : Nat

/-- What an observer notes: the keep-alive of the connection, when the client sent its last
packet or got the CONNACK, and the PINGREQs of the timer. -/
structure KeepAliveLog where
  keepAlive : KeepAlive := .infinite
  lastSent : Nat := 0
  pings : List TimerPing := []

namespace KeepAliveLog

/-- The keep-alive of the server goes before that of the client. -/
def connected (log : KeepAliveLog) (now : Nat) (connack : ConnAck) (keepAlive : KeepAlive) :
    KeepAliveLog :=
  { log with
    keepAlive := connack.otherProperties.serverKeepAlive.getD keepAlive
    lastSent := now }

def sent (log : KeepAliveLog) (now : Nat) (outgoing : Outgoing) : KeepAliveLog :=
  { log with
    lastSent := now
    pings :=
      if outgoing.request = some (.pingReq none) then
        log.pings ++ [⟨log.keepAlive, now - log.lastSent⟩]
      else log.pings }

def note (world : World) (event : Event) (next : World) (log : KeepAliveLog) : KeepAliveLog :=
  match event with
  | .connack connack keepAlive _ _ =>
    if next.session.isConnected then log.connected world.now connack keepAlive else log
  | .poll _ =>
    match (next.emissions.drop world.emissions.length).head? with
    | some emission => log.sent world.now emission.outgoing
    | none => log
  | _ => log

/-- The timer of a session that was last heard of at this time. -/
def timer (log : KeepAliveLog) : Option Timer :=
  match log.keepAlive with
  | .duration seconds => some (.new log.lastSent (Session.fromSecs seconds.get.toNat))
  | .infinite => none

theorem timer_eq_some {log : KeepAliveLog} {timer : Timer} (found : log.timer = some timer) :
    ∃ seconds, log.keepAlive = .duration seconds ∧
      timer = .new log.lastSent (Session.fromSecs seconds.get.toNat) := by
  cases keepAlive : log.keepAlive with
  | infinite => simp [KeepAliveLog.timer, keepAlive] at found
  | duration seconds =>
    simp only [KeepAliveLog.timer, keepAlive, Option.some.injEq] at found
    exact ⟨seconds, rfl, found.symm⟩

end KeepAliveLog

/-- The timer of a connection runs from the last packet, and its PINGREQs came in time but
not early. -/
structure KeepsAlive (world : World) (log : KeepAliveLog) : Prop where
  timer : world.session.isConnected = true → world.session.pingreqTimer = log.timer
  past : log.lastSent ≤ world.now
  late : ∀ ping ∈ log.pings, ∃ seconds, ping.keepAlive = .duration seconds ∧
    Session.fromSecs seconds.get.toNat ≤ ping.silence

namespace KeepsAlive

variable {world next : World} {log : KeepAliveLog} {event : Event}

theorem new (maxPkid : PacketIdentifier) : KeepsAlive (.new maxPkid) {} where
  timer live := by cases live
  past := Nat.le_refl _
  late ping member := by cases member

/-- A step that leaves the timer alone. -/
theorem quiet (keeps : KeepsAlive world log)
    (timer : next.session.pingreqTimer = world.session.pingreqTimer)
    (connected : next.session.isConnected = world.session.isConnected)
    (clock : world.now ≤ next.now) : KeepsAlive next log where
  timer live := timer.trans (keeps.timer (connected ▸ live))
  past := Nat.le_trans keeps.past clock
  late := keeps.late

theorem polled {polls : List Readiness} {outgoing : Option Outgoing} {session : Session}
    {fired : List Firing} (keeps : KeepsAlive world log)
    (live : world.session.isConnected = true)
    (polled : world.session.nextOutgoingPacket world.now polls = .ok (outgoing, session, fired)) :
    KeepsAlive (world.afterPoll polls outgoing session fired)
      (log.note world (.poll polls) (world.afterPoll polls outgoing session fired)) := by
  have connected : session.isConnected = world.session.isConnected :=
    congrArg Option.isSome (Session.nextOutgoingPacket_effect polled).kept.1
  obtain ⟨pending, emitted⟩ := (Session.nextOutgoingPacket_advances polled).timer
  cases outgoing with
  | none =>
    have same : log.note world (.poll polls) (world.afterPoll polls none session fired) = log := by
      simp [KeepAliveLog.note, World.afterPoll]
    rw [same]
    exact keeps.quiet (pending rfl) connected (Nat.le_refl _)
  | some sent =>
    obtain ⟨reset, due⟩ := emitted sent rfl
    have same : log.note world (.poll polls) (world.afterPoll polls (some sent) session fired) =
        log.sent world.now sent := by
      simp [KeepAliveLog.note, World.afterPoll]
    have timer := keeps.timer live
    rw [same]
    constructor
    · intro _
      refine reset.trans ?_
      rw [timer]
      cases keepAlive : log.keepAlive with
      | infinite => simp [KeepAliveLog.timer, KeepAliveLog.sent, keepAlive]
      | duration seconds =>
        simp [KeepAliveLog.timer, KeepAliveLog.sent, keepAlive, Timer.reset, Timer.new]
    · exact Nat.le_refl _
    · intro ping member
      simp only [KeepAliveLog.sent] at member
      split at member
      · rename_i pinged
        rcases List.mem_append.mp member with old | last
        · exact keeps.late ping old
        · obtain ⟨started, found, passed⟩ := due pinged
          rw [timer] at found
          rw [List.mem_singleton.mp last]
          obtain ⟨seconds, keepAlive, rfl⟩ := KeepAliveLog.timer_eq_some found
          refine ⟨seconds, keepAlive, ?_⟩
          simp only [Timer.new] at passed
          exact Nat.le_sub_of_add_le' passed
      · exact keeps.late ping member

theorem step (keeps : KeepsAlive world log) (stepped : world.step event = .ok next) :
    KeepsAlive next (log.note world event next) := by
  cases World.step_cases stepped with
  | app event =>
    obtain ⟨ch, same, _⟩ := world.app_session event
    refine keeps.quiet ?_ ?_ ?_
    · rw [same]
    · rw [same]
      rfl
    · exact Nat.le_of_eq (world.app_now event).symm
  | elapse duration => exact keeps.quiet rfl rfl (Nat.le_add_right _ _)
  | refused connack keepAlive authMethod interval idle =>
    have same : log.note world (.connack connack keepAlive authMethod interval) world = log := by
      simp [KeepAliveLog.note, idle]
    rw [same]
    exact keeps
  | established connack keepAlive authMethod interval sessionPresent idle code =>
    have same : log.note world (.connack connack keepAlive authMethod interval)
        (world.established connack keepAlive authMethod interval sessionPresent) =
        log.connected world.now connack keepAlive := by
      simp [KeepAliveLog.note, World.established, World.record, Session.establish,
        Session.isConnected]
    rw [same]
    exact ⟨fun _ => rfl, Nat.le_refl _, keeps.late⟩
  | polled polls outgoing session fired live polled => exact keeps.polled live polled
  | acked ack handled live completed =>
    have final := (Session.completeInflight_spec completed).1
    refine keeps.quiet ?_ ?_ (Nat.le_refl _) <;> simp only [World.record, final]
    rfl
  | delivered publish next live delivered =>
    cases World.incomingPublish_cases delivered with
    | qos0 _ => exact keeps
    | handed pkid dup _ _ => exact keeps.quiet rfl rfl (Nat.le_refl _)
    | dropped pkid dup _ _ => exact keeps.quiet rfl rfl (Nat.le_refl _)
  | authenticated auth live =>
    obtain ⟨exchange, same⟩ := (world.session.incomingAuth_frame auth).1
    rw [same]
    exact keeps.quiet rfl rfl (Nat.le_refl _)
  | ponged live =>
    obtain ⟨rest, same⟩ := (world.session.incomingPingresp_frame world.now).1
    rw [same]
    exact keeps.quiet rfl rfl (Nat.le_refl _)
  | disconnected disconnection live =>
    refine ⟨?_, keeps.past, keeps.late⟩
    intro connected
    rw [world.disconnected_isConnected disconnection] at connected
    cases connected

theorem lasting (keeps : KeepsAlive world log) (live : world.session.isConnected = true) :
    world.session.Lasting := by
  intro timer found
  rw [keeps.timer live] at found
  obtain ⟨seconds, -, rfl⟩ := KeepAliveLog.timer_eq_some found
  have positive : 0 < seconds.get.toNat := by
    apply Nat.pos_of_ne_zero
    intro zero
    exact seconds.nonzero (UInt16.toNat_inj.mp zero)
  simp only [Timer.new, Session.fromSecs]
  omega

end KeepsAlive

theorem keepsAlive_run {maxPkid : PacketIdentifier} {events : List Event} {world : World}
    (ran : World.run (.new maxPkid) events = .ok world) :
    KeepsAlive world
      (Transition.observe World.step KeepAliveLog.note (.new maxPkid) {} events) := by
  refine Transition.observe_always KeepsAlive ?_ (.new maxPkid) ran
  intro world log event next keeps stepped
  exact keeps.step stepped

/-! ### Polls that return -/

/-- Every re-authentication that waits names its method. -/
def Authenticates (world : World) : Prop :=
  ∀ request ∈ world.session.ch.authRx, request.auth.authentication ≠ none

theorem Authenticates.app {world : World} (authenticates : Authenticates world)
    (event : AppEvent) : Authenticates (world.app event) := by
  have kept {next : World} (same : next.session.ch.authRx = world.session.ch.authRx) :
      Authenticates next := by
    intro request member
    exact authenticates request (same ▸ member)
  have used : ∀ serial reasonCode otherProperties,
      Authenticates (world.useToken serial reasonCode otherProperties) := by
    intro serial reasonCode otherProperties
    unfold World.useToken
    split
    · exact authenticates
    · exact kept rfl
  cases event with
  | reauth reasonCode authentication reasonString userProperties =>
    intro request member
    rcases List.mem_append.mp member with old | last
    · exact authenticates request old
    · rw [List.mem_singleton.mp last]
      simp
  | disconnect disconnect =>
    simp only [World.app, World.withChannels]
    split <;> exact kept rfl
  | dropDisconnectHandle =>
    simp only [World.app, World.withChannels]
    split <;> exact kept rfl
  | acknowledge serial reasonCode otherProperties => exact used _ _ _
  | dropToken serial => exact used _ _ _
  | _ => exact kept rfl

theorem Authenticates.step {world next : World} {event : Event}
    (authenticates : Authenticates world) (stepped : world.step event = .ok next) :
    Authenticates next := by
  have fewer (part : next.session.ch.authRx ⊆ world.session.ch.authRx) : Authenticates next := by
    intro request member
    exact authenticates request (part member)
  cases World.step_exchange stepped with
  | idle _ _ frame => exact fewer (fun _ member => frame.authRx ▸ member)
  | established _ _ frame => exact fewer (fun _ member => frame.authRx ▸ member)
  | requestAuth event =>
    cases stepped
    exact authenticates.app event
  | requestPing event =>
    cases stepped
    exact authenticates.app event
  | sendAuth polls request authentication _ live head =>
    exact fewer (fun _ member => head ▸ List.mem_cons_of_mem _ member)
  | sendPing polls notifier _ live authRx => exact fewer (fun _ member => authRx ▸ member)
  | answerAuth auth method notifier result _ live held answer authRx =>
    exact fewer (fun _ member => authRx ▸ member)
  | pong _ live authRx => exact fewer (fun _ member => authRx ▸ member)
  | ended disconnection _ live after authRx => exact fewer (fun _ member => authRx ▸ member)

theorem authenticates_run {maxPkid : PacketIdentifier} {events : List Event} {world : World}
    (ran : World.run (.new maxPkid) events = .ok world) : Authenticates world :=
  Transition.exec_always Authenticates (by simp [Authenticates, World.new, Session.new])
    (fun _ _ _ authenticates stepped => authenticates.step stepped) ran

/-- A request that was taken is turned into a packet. -/
theorem Session.issue_returns {session middle taken : Session} {request : OutgoingPacketRequest}
    (named : ∀ request ∈ session.ch.authRx, request.auth.authentication ≠ none)
    (frame : AckFrame session middle) (requested : Taken middle request taken) (now : Nat) :
    ∃ result, taken.issue now request = .ok result := by
  cases requested with
  | auth reauth rest head =>
    obtain ⟨_, _, _, rfl⟩ := frame.same
    have some := named reauth (head ▸ List.mem_cons_self)
    cases carried : reauth.auth.authentication with
    | none => exact absurd carried some
    | some authentication =>
      simp only [issue, carried]
      exact ⟨_, rfl⟩
  | _ => exact ⟨_, rfl⟩

/-- In every state that is reached, a poll returns. -/
theorem poll_returns {maxPkid : PacketIdentifier} {events : List Event} {world : World}
    (ran : World.run (.new maxPkid) events = .ok world) (few : world.connections < 2 ^ 64)
    (live : world.session.isConnected = true) (polls : List Readiness) :
    ∃ outgoing session fired,
      world.session.nextOutgoingPacket world.now polls = .ok (outgoing, session, fired) := by
  obtain ⟨_, _, _, request, taken, _, _, _, requested, _⟩ :=
    (ordered_run ran few).sequenced live polls
  simp only [Session.nextOutgoingPacket, live, if_true, requested]
  cases replay : world.session.inflight.packetsToReplay with
  | cons packet rest => exact ⟨_, _, _, rfl⟩
  | nil =>
    cases request with
    | none => exact ⟨_, _, _, rfl⟩
    | some request =>
      obtain ⟨middle, frame, outcome⟩ := Session.nextOutgoingRequest_cases requested
      rcases outcome with ⟨nothing, _⟩ | ⟨other, same, takes⟩
      · cases nothing
      · cases same
        obtain ⟨⟨packet, final, fired⟩, issued⟩ :=
          Session.issue_returns (authenticates_run ran) frame takes world.now
        simp only [issued]
        exact ⟨_, _, _, rfl⟩

theorem World.poll_eq {world : World} {polls : List Readiness} {outgoing : Option Outgoing}
    {session : Session} {fired : List Firing}
    (polled : world.session.nextOutgoingPacket world.now polls = .ok (outgoing, session, fired)) :
    world.poll polls =
      .ok (outgoing.map (·.packet), world.afterPoll polls outgoing session fired) := by
  simp only [poll, polled]
  rfl

/-- The timer sends a PINGREQ only after the client has been silent for the keep-alive of the
connection, and never without one. When the client has been silent for so long, a poll of
the timer does not wait. -/
theorem keepAlive_silence (maxPkid : PacketIdentifier) (events : List Event) (world : World)
    (ran : World.run (.new maxPkid) events = .ok world) (few : world.connections < 2 ^ 64)
    (log : KeepAliveLog)
    (noted : log = Transition.observe World.step KeepAliveLog.note (.new maxPkid) {} events) :
    (∀ ping ∈ log.pings, ∃ seconds, ping.keepAlive = .duration seconds ∧
      Session.fromSecs seconds.get.toNat ≤ ping.silence) ∧
      log.lastSent ≤ world.now ∧
      ∀ seconds polls, world.session.isConnected = true → log.keepAlive = .duration seconds →
        log.lastSent + Session.fromSecs seconds.get.toNat ≤ world.now →
        (∀ ready ∈ polls, ready.timer = true) → world.session.ch.ackRx.length < polls.length →
        ∃ packet next, world.poll polls = .ok (some packet, next) := by
  subst noted
  have keeps := keepsAlive_run ran
  refine ⟨keeps.late, keeps.past, ?_⟩
  intro seconds polls live keepAlive silent awake enough
  obtain ⟨outgoing, session, fired, polled⟩ := poll_returns ran few live polls
  have advances := Session.nextOutgoingPacket_advances polled
  cases outgoing with
  | some sent => exact ⟨sent.packet, _, World.poll_eq polled⟩
  | none =>
    obtain ⟨⟨ready, member, quiet⟩, _⟩ := advances.quiet enough
    have timer := (advances.timer.1 rfl).trans (keeps.timer live)
    rw [KeepAliveLog.timer, keepAlive] at timer
    have early := quiet.timer (awake ready member) _ timer
    simp only [Timer.new] at early
    omega

/-- A connection with the longest keep-alive, which passes. -/
def longSilence : List Event :=
  [.connack ⟨.success false, {}⟩ (.duration .max) none (.duration 0), .elapse 65535000000000]

theorem keepAlive_silence_long :
    ∃ world packet next, World.run (.new .one) longSilence = .ok world ∧
      world.poll [{}] = .ok (some packet, next) := by
  have reached : ∃ world, World.run (.new .one) longSilence = .ok world ∧
      world.connections < 2 ^ 64 ∧ world.session.isConnected = true ∧
      world.now = 65535000000000 ∧ world.session.ch.ackRx = [] :=
    ⟨_, rfl, by decide, rfl, rfl, rfl⟩
  obtain ⟨world, ran, few, live, now, queue⟩ := reached
  have lastSent : (Transition.observe World.step KeepAliveLog.note (.new .one) {}
    longSilence).lastSent = 0 := rfl
  have seconds : Session.fromSecs NonZeroU16.max.get.toNat = 65535000000000 := rfl
  obtain ⟨packet, next, polled⟩ := (keepAlive_silence .one longSilence world ran few _ rfl).2.2
    .max [{}] live rfl (by rw [lastSent, seconds, now, Nat.zero_add]) (by simp) (by simp [queue])
  exact ⟨world, packet, next, ran, polled⟩

/-! ### The loop -/

/-- Every channel wakes up, for so many turns. -/
def awake (turns : Nat) : List Readiness := List.replicate turns {}

namespace Machine

/-- The loop has sent all that it could and goes on to flush it, or it flushes a DISCONNECT. -/
def Drains (machine : Machine) : Prop :=
  ∃ loop, machine.phase = .running loop ∧
    (loop.await = .flush ∧ machine.world.session.Quiet {} machine.world.now ∨
      ∃ disconnect, loop.await = .flushDisconnect disconnect)

/-- The loop writes, or it has drained. -/
structure Draining (maxPkid : PacketIdentifier) (turns : Nat) (machine : Machine) : Prop where
  reached : ∃ events, run (.new maxPkid) events = .ok machine
  few : machine.world.connections < 2 ^ 64
  enough : machine.world.session.ch.ackRx.length < turns
  stage : machine.Drains ∨ ∃ loop packet, machine.phase = .running loop ∧
    loop.await = .write packet

/-- What is left to send, and to write. -/
def unsent (machine : Machine) : Nat :=
  machine.world.session.backlog machine.world.now +
    match machine.phase with
    | .running loop =>
      match loop.await with
      | .write _ => 1
      | _ => 0
    | _ => 0

section

variable {machine next : Machine} {loop : Loop} {packet : Packet} {polls : List Readiness}

/-- What a packet other than a DISCONNECT is followed by. -/
theorem written_next {outgoing : Option Packet} {world : World}
    (other : ∀ disconnect, packet ≠ .disconnect disconnect)
    (polled : machine.world.poll polls = .ok (outgoing, world)) :
    machine.written loop packet polls = .ok (outgoing.elim
      ((machine.after (.poll polls) world).moveTo (.running { loop with await := .flush }))
      ((machine.after (.poll polls) world).startWrite loop)) := by
  unfold written
  split
  · exact absurd rfl (other _)
  · rw [polled]
    cases outgoing <;> rfl

theorem startWrite_await (machine : Machine) (loop : Loop) (packet : Packet) :
    ∃ after, (machine.startWrite loop packet).phase = .running after ∧
      after.await = .write packet := by
  unfold startWrite
  split
  · exact ⟨_, rfl, rfl⟩
  · exact ⟨_, rfl, rfl⟩

theorem unsent_writing (running : machine.phase = .running loop)
    (writing : loop.await = .write packet) :
    machine.unsent = machine.world.session.backlog machine.world.now + 1 := by
  simp [unsent, running, writing]

/-- One write, and the poll after it. -/
theorem written_progress {maxPkid : PacketIdentifier} {turns : Nat} {events : List MachineEvent}
    (ran : run (.new maxPkid) events = .ok machine) (few : machine.world.connections < 2 ^ 64)
    (enough : machine.world.session.ch.ackRx.length < turns)
    (running : machine.phase = .running loop) (writing : loop.await = .write packet) :
    ∃ next, machine.written loop packet (awake turns) = .ok next ∧
      next.world.connections < 2 ^ 64 ∧ next.world.session.ch.ackRx.length < turns ∧
      (next.Drains ∨ ∃ loop packet, next.phase = .running loop ∧ loop.await = .write packet) ∧
      next.unsent < machine.unsent := by
  have sound := sound_run ran
  have live : machine.world.session.isConnected = true := by
    rw [← sound.live, running]
    rfl
  rw [unsent_writing running writing]
  by_cases last : ∃ disconnect, packet = .disconnect disconnect
  · obtain ⟨disconnect, rfl⟩ := last
    exact ⟨_, rfl, few, enough, .inl ⟨_, rfl, .inr ⟨_, rfl⟩⟩, Nat.lt_succ_self _⟩
  · have other : ∀ disconnect, packet ≠ .disconnect disconnect :=
      fun disconnect same => last ⟨disconnect, same⟩
    obtain ⟨outgoing, session, fired, polled⟩ := poll_returns sound.ran few live (awake turns)
    have advances := Session.nextOutgoingPacket_advances polled
    refine ⟨_, written_next other (World.poll_eq polled), ?_⟩
    cases outgoing with
    | some sent =>
      obtain ⟨lower, queue⟩ := advances.backlog_lt ((keepsAlive_run sound.ran).lasting live)
      have world := startWrite_world (machine.after (.poll (awake turns))
        (machine.world.afterPoll (awake turns) (some sent) session fired)) loop sent.packet
      obtain ⟨after, goes, writes⟩ := startWrite_await (machine.after (.poll (awake turns))
        (machine.world.afterPoll (awake turns) (some sent) session fired)) loop sent.packet
      simp only [Option.map_some, Option.elim_some]
      rw [unsent_writing goes writes, world]
      exact ⟨few, Nat.lt_of_le_of_lt queue enough, .inr ⟨after, _, goes, writes⟩,
        Nat.succ_lt_succ lower⟩
    | none =>
      obtain ⟨⟨ready, member, quiet⟩, lower, queue⟩ := advances.quiet
        (enough.trans_eq List.length_replicate.symm)
      rw [List.eq_of_mem_replicate member] at quiet
      exact ⟨few, Nat.lt_of_le_of_lt queue enough, .inl ⟨_, rfl, .inl ⟨rfl, quiet⟩⟩,
        Nat.lt_succ_of_le lower⟩

theorem Draining.progress {maxPkid : PacketIdentifier} {turns : Nat}
    (draining : Draining maxPkid turns machine) :
    machine.Drains ∨ ∃ next, machine.step (.written true (awake turns)) = .ok next ∧
      Draining maxPkid turns next ∧ next.unsent < machine.unsent := by
  obtain ⟨⟨events, ran⟩, few, enough, stage⟩ := draining
  rcases stage with drained | ⟨loop, packet, running, writing⟩
  · exact .inl drained
  · obtain ⟨next, written, still, later, stage, lower⟩ :=
      written_progress ran few enough running writing
    have stepped : machine.step (.written true (awake turns)) = .ok next := by
      simp [step, running, writing, written, liftPanic, Except.mapError]
    exact .inr ⟨next, stepped, ⟨⟨_, Transition.exec_snoc ran stepped⟩, still, later, stage⟩, lower⟩

end

end Machine

end MqttClient.Client
