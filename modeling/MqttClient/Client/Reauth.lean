import MqttClient.Client.Authentication
import MqttClient.Client.Expiry
import MqttClient.Client.ReplayRuns

/-! The methods of the AUTH packets on the connections of a client. -/

namespace MqttClient.Client

open MqttClient.Proto

/-! ### Calls into the session -/

/-- Calls that the application makes. -/
def Event.isApp : Event → Bool
  | .app _ => true
  | _ => false

namespace Session

private theorem issueAcknowledgement_auth (session : Session)
    (request : AcknowledgementRequest) :
    (session.issueAcknowledgement request).2.1.ch.authRx = session.ch.authRx ∧
      ∀ auth, (session.issueAcknowledgement request).1 ≠ .auth auth := by
  cases request <;> exact ⟨rfl, by simp [issueAcknowledgement]⟩

/-- An AUTH packet comes out of the channel and carries a method. -/
private theorem issued_auth {middle taken after : Session} {now : Nat}
    {request : OutgoingPacketRequest} {packet : Packet} {fired : List Firing}
    (requested : Taken middle request taken)
    (issued : taken.issue now request = .ok (packet, after, fired)) :
    after.ch.authRx ⊆ middle.ch.authRx ∧
      ∀ auth, packet = .auth auth → auth.authentication.isSome = true ∧
        ∃ request ∈ middle.ch.authRx, request.auth = auth := by
  cases requested with
  | disconnect disconnect _ frame =>
    cases issued
    obtain ⟨_, _, _, rfl⟩ := frame.same
    simp
  | ack acknowledgement _ frame member =>
    simp only [issue, Except.ok.injEq] at issued
    obtain ⟨same, other⟩ := issueAcknowledgement_auth taken acknowledgement
    rw [issued] at same other
    obtain ⟨_, _, _, rfl⟩ := frame.same
    exact ⟨fun _ member => same ▸ member, fun auth isAuth => absurd isAuth (other auth)⟩
  | auth reauth rest head =>
    simp only [issue] at issued
    split at issued
    · rename_i authentication carried
      cases issued
      refine ⟨by simp [head], ?_⟩
      rintro auth ⟨⟩
      exact ⟨by simp [carried], reauth, by simp [head], rfl⟩
    · cases issued
  | ping notifier rest head =>
    cases issued
    simp
  | timer =>
    cases issued
    simp
  | publishQoS0 publish rest head =>
    cases issued
    simp
  | subscription subscription rest pkid pool head leased =>
    cases subscription <;>
    · cases issued
      simp
  | publish publish rest pkid pool head leased =>
    cases publish <;>
    · cases issued
      simp

theorem nextOutgoingPacket_auth {session after : Session} {now : Nat} {polls : List Readiness}
    {outgoing : Option Outgoing} {fired : List Firing}
    (replays : ∀ packet ∈ session.inflight.packetsToReplay, ∃ publish, packet = .publish publish)
    (polled : session.nextOutgoingPacket now polls = .ok (outgoing, after, fired)) :
    after.ch.authRx ⊆ session.ch.authRx ∧
      ∀ sent ∈ outgoing, ∀ auth, sent.packet = .auth auth →
        auth.authentication.isSome = true ∧ ∃ request ∈ session.ch.authRx, request.auth = auth := by
  cases nextOutgoingPacket_cases polled with
  | replay packet rest head =>
    obtain ⟨publish, rfl⟩ := replays packet (head ▸ List.mem_cons_self)
    refine ⟨fun _ => id, ?_⟩
    rintro sent ⟨⟩ auth isAuth
    cases isAuth
  | pending _ drained frame =>
    obtain ⟨_, _, _, rfl⟩ := frame.same
    simp
  | issued middle taken final request packet _ drained frame requested issued =>
    obtain ⟨_, _, _, rfl⟩ := frame.same
    obtain ⟨waiting, auths⟩ := issued_auth requested issued
    refine ⟨waiting, ?_⟩
    rintro sent ⟨⟩ auth isAuth
    exact auths auth isAuth

end Session

namespace World

/-- No request for an AUTH is new, and each AUTH sent since then was requested before. -/
structure AuthKept (before after : World) : Prop where
  waiting : after.session.ch.authRx ⊆ before.session.ch.authRx
  sent : ∀ emission ∈ after.emissions, emission ∈ before.emissions ∨
    before.session.isConnected = true ∧ emission.connection = before.connections ∧
      ∀ auth, emission.outgoing.packet = .auth auth → auth.authentication.isSome = true ∧
        ∃ request ∈ before.session.ch.authRx, request.auth = auth

theorem AuthKept.refl (world : World) : AuthKept world world :=
  ⟨fun _ => id, fun _ => .inl⟩

/-- What follows stays on the connection that the first part is on. -/
theorem AuthKept.trans {first second third : World} (left : AuthKept first second)
    (same : SameConnection first second) (right : AuthKept second third) :
    AuthKept first third := by
  refine ⟨fun _ member => left.waiting (right.waiting member), ?_⟩
  intro emission member
  rcases right.sent emission member with old | ⟨live, connection, auths⟩
  · exact left.sent emission old
  · refine .inr ⟨same.isConnected ▸ live, connection.trans same.connections, ?_⟩
    intro auth isAuth
    obtain ⟨carried, request, waits, made⟩ := auths auth isAuth
    exact ⟨carried, request, left.waiting waits, made⟩

/-- A call that sends nothing and leaves the channel alone. -/
theorem AuthKept.quiet {before after : World}
    (waiting : after.session.ch.authRx = before.session.ch.authRx)
    (emissions : after.emissions = before.emissions) : AuthKept before after :=
  ⟨waiting ▸ fun _ => id, fun _ member => .inl (emissions ▸ member)⟩

theorem disconnected_authKept (world : World) (disconnection : Disconnection) :
    AuthKept world (world.disconnected disconnection) := by
  rw [disconnected_eq]
  refine .quiet ?_ rfl
  simp only [record, Session.ended, Session.expireIfZero]
  split <;> rfl

theorem established_authKept (world : World) (connack : ConnAck) (keepAlive : KeepAlive)
    (authMethod : Option Bytes) (interval : SessionExpiryInterval) (sessionPresent : Bool) :
    AuthKept world (world.established connack keepAlive authMethod interval sessionPresent) := by
  refine .quiet ?_ rfl
  cases sessionPresent <;> rfl

theorem step_authKept {world next : World} {event : Event} (replayable : Replayable world)
    (stepped : world.step event = .ok next) (notApp : event.isApp = false) :
    AuthKept world next := by
  cases step_cases stepped with
  | app event => cases notApp
  | elapse duration => exact .quiet rfl rfl
  | refused => exact .refl world
  | established connack keepAlive authMethod interval sessionPresent idle code =>
    exact world.established_authKept connack keepAlive authMethod interval sessionPresent
  | polled polls outgoing session fired live polled =>
    obtain ⟨waiting, auths⟩ :=
      Session.nextOutgoingPacket_auth (fun _ => replayable.publishes) polled
    refine ⟨waiting, ?_⟩
    intro emission member
    rcases List.mem_append.mp member with old | new
    · exact .inl old
    · obtain ⟨sent, isSent, rfl⟩ := List.mem_map.mp new
      exact .inr ⟨live, rfl, auths sent (Option.mem_toList.mp isSent)⟩
  | acked ack handled live completed =>
    refine .quiet ?_ rfl
    rw [record, (Session.completeInflight_spec completed).1]
  | delivered publish next live delivered =>
    obtain ⟨ackRx, inApplication, same⟩ := incomingPublish_session delivered
    exact .quiet (by rw [same]) (incomingPublish_history delivered).1
  | authenticated auth live =>
    refine .quiet ?_ rfl
    obtain ⟨exchange, same⟩ := (world.session.incomingAuth_frame auth).1
    rw [record, same]
  | ponged live =>
    refine .quiet ?_ rfl
    obtain ⟨rest, same⟩ := (world.session.incomingPingresp_frame world.now).1
    rw [record, same]
  | disconnected disconnection live => exact world.disconnected_authKept disconnection

/-- Calls inside a connection, none of them by the application. -/
theorem run_authKept {world next : World} {calls : List Event} (only : QoS1Only world.session)
    (replayable : Replayable world) (ran : run world calls = .ok next)
    (drained : Transition.Along step Drained world calls)
    (quiet : ∀ call ∈ calls, call.isInside = true) (notApp : ∀ call ∈ calls, call.isApp = false) :
    AuthKept world next := by
  induction calls generalizing world with
  | nil =>
    cases ran
    exact .refl _
  | cons call rest ih =>
    simp only [run, Transition.exec] at ran
    split at ran
    · rename_i middle stepped
      obtain ⟨here, later⟩ := (Transition.Along.cons_ok stepped).mp drained
      have first := step_authKept replayable stepped (notApp call List.mem_cons_self)
      have same := inside_sameConnection (quiet call List.mem_cons_self) stepped
      refine first.trans same (ih (only.step stepped) (replayable.step only here stepped) ran later
        ?_ ?_)
      · intro other member
        exact quiet other (List.mem_cons_of_mem _ member)
      · intro other member
        exact notApp other (List.mem_cons_of_mem _ member)
    · cases ran

end World

/-! ### Steps of the client -/

namespace Machine

/-- The calls that a step adds are not calls of the application. -/
def Unprompted (machine next : Machine) : Prop :=
  ∃ added, next.calls = machine.calls ++ added ∧ ∀ call ∈ added, call.isApp = false

variable {machine next : Machine}

private theorem Unprompted.refl (machine : Machine) : Unprompted machine machine :=
  ⟨[], by simp⟩

private theorem Unprompted.trans {last : Machine} (first : Unprompted machine next)
    (second : Unprompted next last) : Unprompted machine last := by
  obtain ⟨early, calls, quiet⟩ := first
  obtain ⟨late, calls', quiet'⟩ := second
  refine ⟨early ++ late, by rw [calls', calls, List.append_assoc], ?_⟩
  intro call member
  rcases List.mem_append.mp member with old | new
  · exact quiet call old
  · exact quiet' call new

/-- A step that adds one call. -/
private theorem Unprompted.call (call : Event) (calls : next.calls = machine.calls ++ [call])
    (notApp : call.isApp = false) : Unprompted machine next :=
  ⟨[call], calls, by simpa using notApp⟩

private theorem Unprompted.runUntilDisconnect (machine : Machine)
    (ended : Except InnerConnectionError InnerDisconnect) :
    Unprompted machine (machine.runUntilDisconnect ended) :=
  ⟨[_], rfl, by simp [Event.isApp]⟩

private theorem Unprompted.dispatch {loop : Loop} {packet : Incoming}
    (dispatched : machine.dispatch loop packet = .ok next) : Unprompted machine next := by
  unfold Machine.dispatch at dispatched
  split at dispatched
  · cases dispatched
  · cases dispatched
    exact .call (.incoming packet) rfl rfl
  · rename_i world error handled
    cases dispatched
    have first : Unprompted machine (machine.after (.incoming packet) world) :=
      .call (.incoming packet) rfl rfl
    exact first.trans (.runUntilDisconnect _ _)

private theorem Unprompted.handle {loop : Loop} {packet : Packet}
    (handled : machine.handle loop packet = .ok next) : Unprompted machine next := by
  unfold Machine.handle at handled
  split at handled
  · exact .dispatch handled
  · exact .dispatch handled
  · exact .dispatch handled
  · exact .dispatch handled
  · exact .dispatch handled
  · cases handled
    exact .runUntilDisconnect machine _
  · exact .dispatch handled
  · exact .dispatch handled
  · cases handled
    exact .runUntilDisconnect machine _

private theorem Unprompted.startWrite (machine : Machine) (polls : List Readiness) (world : World)
    (loop : Loop) (packet : Packet) :
    Unprompted machine ((machine.after (.poll polls) world).startWrite loop packet) :=
  ⟨[.poll polls], startWrite_calls _ _ _, by simp [Event.isApp]⟩

private theorem Unprompted.wake {loop : Loop} {polls : List Readiness} {read : Read}
    {expired : Bool} (woke : machine.wake loop polls read expired = .ok next) :
    Unprompted machine next := by
  unfold Machine.wake at woke
  split at woke
  · cases woke
  · cases woke
    exact .startWrite machine polls _ loop _
  · rename_i world polled
    have first : Unprompted machine (machine.after (.poll polls) world) :=
      .call (.poll polls) rfl rfl
    simp only at woke
    split at woke
    · exact first.trans (.handle woke)
    · cases woke
      exact first.trans (.runUntilDisconnect _ _)
    · split at woke
      · cases woke
        exact first.trans (.runUntilDisconnect _ _)
      · cases woke
        exact first

private theorem Unprompted.written {loop : Loop} {polls : List Readiness} {packet : Packet}
    (wrote : machine.written loop packet polls = .ok next) : Unprompted machine next := by
  unfold Machine.written at wrote
  split at wrote
  · cases wrote
    exact .refl machine
  · split at wrote
    · cases wrote
    · cases wrote
      exact .startWrite machine polls _ loop _
    · cases wrote
      exact .call (.poll polls) rfl rfl

private theorem Unprompted.receiveResponse (machine : Machine) (options : ConnectOptions)
    (response : Response) : Unprompted machine (machine.receiveResponse options response) := by
  cases response with
  | packet packet =>
    cases packet with
    | connAck connack =>
      simp only [Machine.receiveResponse]
      split <;> exact .call (.connack connack _ _ _) rfl rfl
    | auth auth =>
      simp only [Machine.receiveResponse]
      split
      · split <;> exact .refl machine
      · exact .refl machine
    | _ => exact .refl machine
  | failed error => exact .refl machine
  | timeout => exact .refl machine

theorem step_unprompted {event : MachineEvent} (notApp : ∀ call, event ≠ .app call)
    (stepped : machine.step event = .ok next) : Unprompted machine next := by
  cases event with
  | app call => exact absurd rfl (notApp call)
  | elapse duration =>
    cases stepped
    exact .call (.elapse duration) rfl rfl
  | connect options sent =>
    simp only [step] at stepped
    split at stepped
    · cases stepped
      cases sent <;> exact .refl machine
    · cases stepped
  | response response =>
    simp only [step] at stepped
    split at stepped
    · cases stepped
      exact .receiveResponse machine _ response
    · cases stepped
  | continueAuth sent =>
    simp only [step] at stepped
    split at stepped
    · cases stepped
      exact .refl machine
    · cases stepped
  | wake polls read expired =>
    simp only [step] at stepped
    split at stepped
    · split at stepped
      · exact .wake (liftPanic_ok stepped)
      · cases stepped
    · cases stepped
  | written sent polls =>
    simp only [step] at stepped
    split at stepped
    · split at stepped
      · split at stepped
        · exact .written (liftPanic_ok stepped)
        · cases stepped
          exact .runUntilDisconnect machine _
      · cases stepped
    · cases stepped
  | flushed sent =>
    simp only [step] at stepped
    split at stepped
    · split at stepped
      · cases stepped
        split
        · exact .refl machine
        · exact .runUntilDisconnect machine _
      · cases stepped
        exact .runUntilDisconnect machine _
      · cases stepped
    · cases stepped

end Machine

/-! ### Handles and tokens -/

/-- Only a handle or a token requests an AUTH. -/
theorem World.app_authKept (world : World) {event : AppEvent}
    (direct : MachineEvent.needsHandle (.app event) = false) :
    World.AuthKept world (world.app event) := by
  have used : ∀ serial reasonCode otherProperties,
      (world.useToken serial reasonCode otherProperties).session.ch.authRx =
        world.session.ch.authRx := by
    intro serial reasonCode otherProperties
    unfold World.useToken
    split <;> rfl
  refine .quiet ?_ (world.app_history event).1
  cases event with
  | reauth => cases direct
  | disconnect disconnect =>
    simp only [World.app, World.withChannels]
    split <;> rfl
  | dropDisconnectHandle =>
    simp only [World.app, World.withChannels]
    split <;> rfl
  | acknowledge serial reasonCode otherProperties => exact used _ _ _
  | dropToken serial => exact used _ _ _
  | _ => rfl

namespace AuthClient

/-- Every AUTH sent on a connection carries the method of the CONNECT of the connection. -/
def MethodContinuity (client : AuthClient) : Prop :=
  ∀ emission ∈ client.machine.world.emissions, ∀ auth, emission.outgoing.packet = .auth auth →
    ∃ connection authentication, emission.connection = connection + 1 ∧
      auth.authentication = some authentication ∧
      client.methods[connection]? = some (some authentication.method)

/-- A handle or a token is used on a connection only for the method of its CONNECT, and a
connection opens only with requests for that method in the channel. -/
def OwnMethod (client : AuthClient) : AuthEvent → Prop
  | .reauth handle _ => client.machine.phase.isRunning = true →
      ∀ method ∈ client.handles[handle]?, client.methods.getLast? = some (some method)
  | .continueReauth token _ => client.machine.phase.isRunning = true →
      ∀ method ∈ client.tokens[token]?, client.methods.getLast? = some (some method)
  | .client (.response (.packet (.connAck connack))) => ∀ options sessionPresent,
      client.machine.phase = .connecting options →
      connack.reasonCode = .success sessionPresent →
      authenticationMethodMatches connack.otherProperties.authentication options.authMethod =
        true →
      ∀ request ∈ client.machine.world.session.ch.authRx,
        request.auth.authentication.map (·.method) = options.method
  | _ => True

/-- What the requests in the channel and the packets sent have to do with the connections. -/
structure Authentic (maxPkid : PacketIdentifier) (client : AuthClient) : Prop where
  sound : Machine.Sound maxPkid client.machine
  counted : client.methods.length = client.machine.world.connections
  waiting : client.machine.phase.isRunning = true →
    ∀ request ∈ client.machine.world.session.ch.authRx,
      client.methods.getLast? = some (request.auth.authentication.map (·.method))
  continuity : MethodContinuity client

namespace Authentic

variable {maxPkid : PacketIdentifier} {client next : AuthClient}

theorem new (maxPkid : PacketIdentifier) : Authentic maxPkid (.new maxPkid) where
  sound := Machine.sound_new maxPkid
  counted := rfl
  waiting := by
    intro running
    cases running
  continuity := by
    intro emission member
    cases member

/-- What is sent on a connection was requested for its method. -/
private theorem sent (authentic : Authentic maxPkid client)
    (methods : client.methods <+: next.methods)
    (kept : World.AuthKept client.machine.world next.machine.world) : MethodContinuity next := by
  intro emission member auth isAuth
  have grown : ∀ {connection : Nat} {method}, client.methods[connection]? = some method →
      next.methods[connection]? = some method := by
    intro connection method found
    obtain ⟨more, same⟩ := methods
    rw [← same, List.getElem?_append_left (List.getElem?_eq_some_iff.mp found).1]
    exact found
  rcases kept.sent emission member with old | ⟨live, connection, auths⟩
  · obtain ⟨connection, authentication, number, carried, found⟩ :=
      authentic.continuity emission old auth isAuth
    exact ⟨connection, authentication, number, carried, grown found⟩
  · obtain ⟨carried, request, waits, rfl⟩ := auths auth isAuth
    obtain ⟨authentication, same⟩ := Option.isSome_iff_exists.mp carried
    have last := authentic.waiting (authentic.sound.live.trans live) request waits
    rw [same, List.getLast?_eq_getElem?] at last
    refine ⟨client.methods.length - 1, authentication, ?_, same, grown last⟩
    have bound := (List.getElem?_eq_some_iff.mp last).1
    rw [connection, ← authentic.counted]
    omega

/-- A step that stays on the connection or ends it. -/
private theorem keep (authentic : Authentic maxPkid client)
    (sound : Machine.Sound maxPkid next.machine) (methods : next.methods = client.methods)
    (connections : next.machine.world.connections = client.machine.world.connections)
    (kept : World.AuthKept client.machine.world next.machine.world)
    (running : next.machine.phase.isRunning = true → client.machine.phase.isRunning = true) :
    Authentic maxPkid next where
  sound := sound
  counted := by rw [methods, connections, authentic.counted]
  waiting := by
    intro runs request member
    rw [methods]
    exact authentic.waiting (running runs) request (kept.waiting member)
  continuity := authentic.sent (methods ▸ List.prefix_rfl) kept

theorem opened_of_isRunning {before after : Machine}
    (same : after.phase.isRunning = before.phase.isRunning) : opened before after = none := by
  unfold opened
  split
  · rename_i options loop connecting running
    rw [connecting, running] at same
    cases same
  · rfl

/-- A connection opens with the requests that wait in the channel. -/
private theorem answered (authentic : Authentic maxPkid client) {options : ConnectOptions}
    {connack : ConnAck} (waiting : client.machine.phase = .connecting options)
    (own : OwnMethod client (.client (.response (.packet (.connAck connack)))))
    (sound : Machine.Sound maxPkid
      (client.machine.receiveResponse options (.packet (.connAck connack)))) :
    Authentic maxPkid (client.observe (.response (.packet (.connAck connack)))
      (client.machine.receiveResponse options (.packet (.connAck connack)))) := by
  rcases client.machine.receiveResponse_cases options connack with
    ⟨idle, same⟩ | ⟨sessionPresent, code, matched, running, world⟩
  · have stopped : opened client.machine (client.machine.receiveResponse options
        (.packet (.connAck connack))) = none :=
      opened_of_isRunning (by rw [waiting, idle]; rfl)
    refine authentic.keep sound ?_ ?_ ?_ ?_
    · simp [observe, stopped]
    · exact congrArg World.connections same
    · rw [observe, same]
      exact .refl _
    · intro runs
      rw [observe, idle] at runs
      cases runs
  · have isOpened : opened client.machine (client.machine.receiveResponse options
        (.packet (.connAck connack))) = some options.method := by
      simp only [opened, waiting, running]
    have kept := client.machine.world.established_authKept connack options.keepAlive.toKeepAlive
      options.authMethod options.properties.sessionExpiryInterval sessionPresent
    rw [← world] at kept
    refine ⟨sound, ?_, ?_, authentic.sent (List.prefix_append _ _) kept⟩
    · simp only [observe, isOpened, world, Option.toList_some, List.length_append,
        List.length_singleton, authentic.counted]
      simp [World.established, World.connections]
    · intro _ request member
      simp only [observe, isOpened, Option.toList_some, List.getLast?_append,
        List.getLast?_singleton, Option.some_or]
      rw [own options sessionPresent waiting code matched request (kept.waiting member)]

/-- A step of the machine that no handle is needed for. -/
private theorem observe (authentic : Authentic maxPkid client) {event : MachineEvent}
    {machine : Machine} (direct : event.needsHandle = false)
    (own : OwnMethod client (.client event)) (stepped : client.machine.step event = .ok machine) :
    Authentic maxPkid (client.observe event machine) := by
  have sound := authentic.sound.step stepped
  obtain ⟨only, replayable, _⟩ := replayable_run authentic.sound.ran authentic.sound.drained
  cases Machine.step_effect authentic.sound.live stepped with
  | inside added calls ran drained quiet phase =>
    have kept : World.AuthKept client.machine.world machine.world := by
      cases event with
      | app call =>
        cases stepped
        exact client.machine.world.app_authKept direct
      | _ =>
        obtain ⟨same, calls', notApp⟩ := Machine.step_unprompted (by simp) stepped
        obtain rfl := List.append_cancel_left (calls.symm.trans calls')
        exact World.run_authKept only replayable ran drained quiet notApp
    refine authentic.keep sound ?_ (Machine.run_sameConnection ran quiet).connections kept
      (phase ▸ id)
    simp [AuthClient.observe, opened_of_isRunning phase]
  | answered options connack waiting received called =>
    subst received
    subst called
    exact authentic.answered waiting own sound
  | ended added disconnection last running calls ran drained quiet applied phase flushed =>
    have notApp : ∀ call ∈ added, call.isApp = false := by
      have prompted : ∀ call, event ≠ .app call := by
        rintro call rfl
        cases stepped
        have idle : client.machine.phase = .idle := phase
        rw [idle] at running
        cases running
      obtain ⟨same, calls', notApp⟩ := Machine.step_unprompted prompted stepped
      rw [calls, List.append_assoc] at calls'
      obtain rfl := List.append_cancel_left calls'
      exact fun call member => notApp call (List.mem_append_left _ member)
    have same := Machine.run_sameConnection ran quiet
    have kept := (World.run_authKept only replayable ran drained quiet notApp).trans same
      (last.disconnected_authKept disconnection)
    rw [← applied] at kept
    refine authentic.keep sound ?_ ?_ kept ?_
    · simp only [AuthClient.observe, opened, phase]
      split
      · rename_i idle
        cases idle
      · simp
    · simp only [AuthClient.observe, applied, last.disconnected_eq]
      exact same.connections
    · intro runs
      simp only [AuthClient.observe, phase, Phase.isRunning] at runs
      cases runs

/-- A handle or a token adds a request for its method. -/
private theorem request (authentic : Authentic maxPkid client) {machine : Machine}
    {reasonCode : AuthenticateReasonCode} {authentication : Authentication}
    {reasonString : Option ByteStr} {userProperties : UserProperties}
    (own : client.machine.phase.isRunning = true →
      client.methods.getLast? = some (some authentication.method))
    (stepped : client.machine.step
      (.app (.reauth reasonCode authentication reasonString userProperties)) = .ok machine)
    (methods : next.methods = client.methods) (same : next.machine = machine) :
    Authentic maxPkid next := by
  have sound := authentic.sound.step stepped
  cases stepped
  refine ⟨same ▸ sound, ?_, ?_, ?_⟩
  · rw [methods, same, authentic.counted]
    rfl
  · intro running request member
    rw [same] at running member
    rw [methods]
    rcases List.mem_append.mp member with old | new
    · exact authentic.waiting running request old
    · rw [List.mem_singleton.mp new]
      exact own running
  · intro emission member
    rw [same] at member
    rw [methods]
    exact authentic.continuity emission member

theorem step (authentic : Authentic maxPkid client) {event : AuthEvent}
    (own : OwnMethod client event) (stepped : client.step event = .ok next) :
    Authentic maxPkid next := by
  have mapped : ∀ {outcome : Except Stop Machine} {update : Machine → AuthClient},
      outcome.map update = .ok next → ∃ machine, outcome = .ok machine ∧ update machine = next := by
    intro outcome update same
    cases outcome with
    | error stop => cases same
    | ok machine => exact ⟨machine, rfl, Except.ok.inj same⟩
  cases event with
  | client event =>
    simp only [AuthClient.step] at stepped
    split at stepped
    · cases stepped
    · rename_i direct
      obtain ⟨machine, reached, rfl⟩ := mapped stepped
      exact authentic.observe (Bool.eq_false_of_not_eq_true direct) own reached
  | continueAuth arguments sent =>
    simp only [AuthClient.step] at stepped
    split at stepped
    · rename_i options challenged
      split at stepped
      · obtain ⟨machine, reached, rfl⟩ := mapped stepped
        have sound := authentic.sound.step reached
        simp only [Machine.step, challenged] at reached
        cases reached
        refine authentic.keep sound rfl rfl (.refl _) ?_
        intro runs
        cases sent <;> cases runs
      · cases stepped
    · cases stepped
  | reauth handle arguments =>
    simp only [AuthClient.step] at stepped
    split at stepped
    · rename_i method found
      obtain ⟨machine, reached, rfl⟩ := mapped stepped
      exact authentic.request (fun running => own running method found) reached rfl rfl
    · cases stepped
  | continueReauth token arguments =>
    simp only [AuthClient.step] at stepped
    split at stepped
    · rename_i method found
      obtain ⟨machine, reached, rfl⟩ := mapped stepped
      exact authentic.request (fun running => own running method found) reached rfl rfl
    · cases stepped

end Authentic

/-- In every run in which handles and tokens are used, and connections opened, for the
method of the connection only, each AUTH carries the method of its connection. -/
theorem methodContinuity_of_ownMethod (maxPkid : PacketIdentifier) (events : List AuthEvent)
    (final : AuthClient) (ran : run (.new maxPkid) events = .ok final)
    (own : Transition.Along step OwnMethod (.new maxPkid) events) : MethodContinuity final :=
  (Transition.exec_invariant (Authentic maxPkid) (.new maxPkid)
    (fun _ _ _ authentic here stepped => authentic.step here stepped) own ran).continuity

/-- An attempt with the authentication method "a". -/
def enhancedOptions : ConnectOptions where
  cleanStart := true
  keepAlive := .infinite
  authentication := some ⟨⟨⟨[0, 1, 97]⟩⟩, none⟩

def enhancedConnection : List AuthEvent :=
  [.client (.connect enhancedOptions true),
    .client (.response (.packet (.connAck
      ⟨.success false, { authentication := some ⟨⟨⟨[0, 1, 97]⟩⟩, none⟩ }⟩)))]

/-- A re-authentication on the connection of the handle. -/
def ownReauth : List AuthEvent :=
  enhancedConnection ++ [.reauth 0 {}, .client (.wake [{}] .pending false)]

theorem methodContinuity_ownReauth :
    ∃ final, run (.new .one) ownReauth = .ok final ∧
      (final.machine.world.emissions.map (·.outgoing.packet)) =
        [.auth (AuthArguments.auth {} .reAuthenticate ⟨⟨[0, 1, 97]⟩⟩)] ∧ MethodContinuity final := by
  have ran : ∃ final, run (.new .one) ownReauth = .ok final ∧
      (final.machine.world.emissions.map (·.outgoing.packet)) =
        [.auth (AuthArguments.auth {} .reAuthenticate ⟨⟨[0, 1, 97]⟩⟩)] := ⟨_, rfl, rfl⟩
  obtain ⟨final, ran, sent⟩ := ran
  refine ⟨final, ran, sent, methodContinuity_of_ownMethod .one ownReauth final ran ?_⟩
  refine (Transition.Along.cons_ok rfl).mpr ⟨trivial, (Transition.Along.cons_ok rfl).mpr ⟨?_, ?_⟩⟩
  · intro options sessionPresent waiting code matched request member
    cases member
  · refine (Transition.Along.cons_ok rfl).mpr ⟨?_, (Transition.Along.cons_ok rfl).mpr
      ⟨trivial, trivial⟩⟩
    rintro running method ⟨⟩
    rfl

/-- The handle of an enhanced connection is used on the plain connection after it. -/
def staleReauth : List AuthEvent :=
  enhancedConnection ++ [.client (.wake [] (.failed .io) false),
    .client (.connect { cleanStart := true, keepAlive := .infinite } true),
    .client (.response (.packet (.connAck ⟨.success false, {}⟩))), .reauth 0 {},
    .client (.wake [{}] .pending false)]

/-- The plain connection carries an AUTH. -/
theorem methodContinuity_staleReauth :
    ∃ final, run (.new .one) staleReauth = .ok final ∧ ¬ MethodContinuity final := by
  refine ⟨_, rfl, ?_⟩
  intro continuity
  obtain ⟨connection, authentication, number, carried, found⟩ :=
    continuity _ (List.mem_singleton.mpr rfl) _ rfl
  obtain rfl : connection = 1 := by
    have : 2 = connection + 1 := number
    omega
  cases found

end AuthClient

end MqttClient.Client
