import MqttClient.Client.Expiry
import MqttClient.Client.ReplayRuns

/-! What a step of the loop does to its deadline and to the PINGREQs that wait for an answer. -/

namespace MqttClient.Client

open MqttClient.Proto

namespace World

/-- When the PINGREQs without an answer were sent, oldest first. -/
def pings (world : World) : List Nat := world.session.inflight.pingreq.map Prod.fst

end World

/-! ### Calls into the session -/

namespace Session

private theorem issueAcknowledgement_pingreq (session : Session)
    (request : AcknowledgementRequest) :
    (session.issueAcknowledgement request).2.1.inflight.pingreq = session.inflight.pingreq ∧
      (session.issueAcknowledgement request).1 ≠ .pingReq := by
  cases request <;> exact ⟨rfl, by simp [issueAcknowledgement]⟩

/-- A PINGREQ is the only packet that changes the queue, and it is added at its end. -/
private theorem issued_pings {middle taken after : Session} {now : Nat}
    {request : OutgoingPacketRequest} {packet : Packet} {fired : List Firing}
    (requested : Taken middle request taken)
    (issued : taken.issue now request = .ok (packet, after, fired)) :
    after.inflight.pingreq.map Prod.fst =
      middle.inflight.pingreq.map Prod.fst ++ if packet = .pingReq then [now] else [] := by
  cases requested with
  | disconnect disconnect _ frame =>
    cases issued
    obtain ⟨_, _, _, rfl⟩ := frame.same
    simp
  | ack acknowledgement _ frame member =>
    simp only [issue, Except.ok.injEq] at issued
    obtain ⟨same, other⟩ := issueAcknowledgement_pingreq taken acknowledgement
    rw [issued] at same other
    obtain ⟨_, _, _, rfl⟩ := frame.same
    rw [if_neg other, List.append_nil]
    exact congrArg (List.map Prod.fst) same
  | auth reauth rest head =>
    simp only [issue] at issued
    split at issued
    · cases issued
      simp
    · cases issued
  | ping notifier rest head =>
    cases issued
    simp
  | timer =>
    cases issued
    simp
  | publishQoS0 publish rest head =>
    cases issued
    simp
  | subscription subscription rest pkid pool head leased =>
    cases subscription <;>
    · cases issued
      simp
  | publish publish rest pkid pool head leased =>
    cases publish <;>
    · cases issued
      simp

theorem nextOutgoingPacket_pings {session after : Session} {now : Nat} {polls : List Readiness}
    {outgoing : Option Outgoing} {fired : List Firing}
    (replays : ∀ packet ∈ session.inflight.packetsToReplay, ∃ publish, packet = .publish publish)
    (polled : session.nextOutgoingPacket now polls = .ok (outgoing, after, fired)) :
    after.inflight.pingreq.map Prod.fst = session.inflight.pingreq.map Prod.fst ++
      if outgoing.map Outgoing.packet = some .pingReq then [now] else [] := by
  cases nextOutgoingPacket_cases polled with
  | replay packet rest head =>
    obtain ⟨publish, rfl⟩ := replays packet (head ▸ List.mem_cons_self)
    simp [Packet.setDup, resetPingreqTimer]
  | pending _ drained frame =>
    obtain ⟨_, _, _, rfl⟩ := frame.same
    simp
  | issued middle taken final request packet _ drained frame requested issued =>
    obtain ⟨_, _, _, rfl⟩ := frame.same
    simpa [resetPingreqTimer] using issued_pings requested issued

end Session

namespace World

theorem poll_pings {world next : World} {polls : List Readiness} {packet : Option Packet}
    (replayable : Replayable world) (polled : world.poll polls = .ok (packet, next)) :
    next.now = world.now ∧
      next.pings = world.pings ++ if packet = some .pingReq then [world.now] else [] := by
  unfold poll at polled
  split at polled
  · cases polled
  · rename_i outgoing session fired taken
    cases polled
    exact ⟨rfl, Session.nextOutgoingPacket_pings (fun _ => replayable.publishes) taken⟩

private theorem incomingPublish_now {world next : World} {publish : Publish}
    (delivered : world.incomingPublish publish = .ok next) : next.now = world.now := by
  cases incomingPublish_cases delivered <;> rfl

/-- A PINGRESP answers the oldest PINGREQ; no other packet of the server answers one. -/
theorem incoming_pings {world next : World} {packet : Incoming}
    {result : Except ProtocolError Unit} (handled : world.incoming packet = .ok (next, result)) :
    next.pings = (if packet = .pingResp then world.pings.tail else world.pings) ∧
      next.now = world.now ∧ (packet = .pingResp → result = .ok ()) := by
  cases packet with
  | ack ack =>
    simp only [incoming] at handled
    split at handled
    · cases handled
    · rename_i outcome completed
      cases handled
      have final := (Session.completeInflight_spec completed).1
      cases ack <;> simp [pings, record, final, Acknowledgement.removeFrom]
  | publish publish =>
    simp only [incoming] at handled
    cases delivered : world.incomingPublish publish with
    | error panic => simp [delivered, Except.map] at handled
    | ok reached =>
      simp only [delivered, Except.map, Except.ok.injEq, Prod.mk.injEq] at handled
      obtain ⟨rfl, rfl⟩ := handled
      obtain ⟨ackRx, inApplication, same⟩ := incomingPublish_session delivered
      have clock := incomingPublish_now delivered
      simp [pings, same, clock]
  | auth auth =>
    cases handled
    obtain ⟨exchange, same⟩ := (world.session.incomingAuth_frame auth).1
    simp [pings, record, same]
  | pingResp =>
    cases handled
    simp only [if_true]
    split
    · rename_i empty
      simp [pings, record, empty]
    · rename_i sentAt notifier rest queued
      simp [pings, record, queued]

/-- No PINGREQ outlives its connection. -/
theorem disconnected_pings (world : World) (disconnection : Disconnection) :
    (world.disconnected disconnection).pings = [] := by
  rw [disconnected_eq]
  simp only [pings, record, Session.ended, Session.expireIfZero]
  split <;> rfl

theorem established_pings (world : World) (connack : ConnAck) (keepAlive : KeepAlive)
    (authMethod : Option Bytes) (interval : SessionExpiryInterval) (sessionPresent : Bool) :
    (world.established connack keepAlive authMethod interval sessionPresent).pings =
      world.pings := by
  cases sessionPresent <;> rfl

end World

/-! ### Steps of the loop -/

/-- What a step means for the PINGREQs of a connection. -/
inductive PingAction where
  | emit
  | answer
  | other
  deriving DecidableEq

namespace Machine

/-- A step sends a PINGREQ when the poll it makes yields one, and takes an answer when the
poll yields nothing and a PINGRESP was read. -/
def pingAction (machine : Machine) : MachineEvent → PingAction
  | .wake polls read _ =>
    match machine.world.poll polls, read with
    | .ok (some .pingReq, _), _ => .emit
    | .ok (none, _), .packet .pingResp => .answer
    | _, _ => .other
  | .written true polls =>
    match machine.phase with
    | .running loop =>
      match loop.await, machine.world.poll polls with
      | .write (.disconnect _), _ => .other
      | .write _, .ok (some .pingReq, _) => .emit
      | _, _ => .other
    | _ => .other
  | _ => .other

/-- Everything a step can do to the wait for a PINGRESP. -/
inductive PingStep (machine next : Machine) : PingAction → Prop where
  | kept (before after : Loop) (running : machine.phase = .running before)
      (goes : next.phase = .running after) (clock : next.world.now = machine.world.now)
      (timeout : after.cfgPingrespTimeout = before.cfgPingrespTimeout)
      (timer : after.pingrespTimer = before.pingrespTimer)
      (pings : next.world.pings = machine.world.pings) : PingStep machine next .other
  | emitted (before after : Loop) (running : machine.phase = .running before)
      (goes : next.phase = .running after) (clock : next.world.now = machine.world.now)
      (timeout : after.cfgPingrespTimeout = before.cfgPingrespTimeout)
      (timer : ∀ timeout, before.cfgPingrespTimeout = some timeout →
        after.pingrespTimer = some (.new machine.world.now timeout))
      (pings : next.world.pings = machine.world.pings ++ [machine.world.now]) :
      PingStep machine next .emit
  | answered (before after : Loop) (running : machine.phase = .running before)
      (goes : next.phase = .running after) (clock : next.world.now = machine.world.now)
      (timeout : after.cfgPingrespTimeout = before.cfgPingrespTimeout)
      (timer : after.pingrespTimer = none)
      (pings : next.world.pings = machine.world.pings.tail) : PingStep machine next .answer
  | opened (closed : machine.phase.isRunning = false) (pings : next.world.pings = []) :
      PingStep machine next .other
  | idle (stopped : next.phase.isRunning = false) : PingStep machine next .other

section Step

variable {machine next : Machine} {loop : Loop}

/-- A step that leaves the phase and the PINGREQs alone. -/
private theorem PingStep.quiet (phase : next.phase = machine.phase)
    (clock : next.world.now = machine.world.now)
    (pings : next.world.pings = machine.world.pings) : PingStep machine next .other := by
  cases running : machine.phase with
  | running loop => exact .kept loop loop running (phase.trans running) clock rfl rfl pings
  | _ => exact .idle (by rw [phase, running]; rfl)

private theorem startWrite_pings {polls : List Readiness} {world : World} {packet : Packet}
    (running : machine.phase = .running loop) (replayable : Replayable machine.world)
    (polled : machine.world.poll polls = .ok (some packet, world)) :
    PingStep machine ((machine.after (.poll polls) world).startWrite loop packet)
      (if packet = .pingReq then .emit else .other) := by
  obtain ⟨now, pings⟩ := World.poll_pings replayable polled
  by_cases ping : packet = .pingReq
  · subst ping
    simp only [if_true] at pings ⊢
    cases limited : loop.cfgPingrespTimeout with
    | none =>
      refine .emitted loop { loop with await := .write .pingReq } running ?_ ?_ rfl ?_ ?_
      · simp [startWrite, limited, moveTo]
      · simpa [after] using now
      · intro timeout same
        rw [limited] at same
        cases same
      · simpa [after] using pings
    | some timeout =>
      refine .emitted loop { loop with
        pingrespTimer := some (.new machine.world.now timeout), await := .write .pingReq }
        running ?_ ?_ rfl ?_ ?_
      · simp [startWrite, limited, moveTo, after, now]
      · simpa [after] using now
      · intro other same
        rw [limited] at same
        cases same
        rfl
      · simpa [after] using pings
  · have unchanged : world.pings = machine.world.pings := by simpa [ping] using pings
    rw [if_neg ping]
    refine .kept loop { loop with await := .write packet } running ?_ ?_ rfl rfl ?_
    · unfold startWrite
      split
      · exact absurd rfl ping
      · rfl
    · simpa [after] using now
    · simpa [after] using unchanged

private theorem dispatch_pings {polls : List Readiness} {world : World} (inner : Loop)
    (packet : Incoming) (running : machine.phase = .running loop)
    (pings : world.pings = machine.world.pings) (clock : world.now = machine.world.now)
    (timeout : inner.cfgPingrespTimeout = loop.cfgPingrespTimeout)
    (timer : inner.pingrespTimer = if packet = .pingResp then none else loop.pingrespTimer)
    (dispatched : (machine.after (.poll polls) world).dispatch inner packet = .ok next) :
    PingStep machine next (if packet = .pingResp then .answer else .other) := by
  unfold dispatch at dispatched
  split at dispatched
  · cases dispatched
  · rename_i reached handled
    cases dispatched
    obtain ⟨left, still, _⟩ := World.incoming_pings handled
    by_cases pong : packet = .pingResp
    · rw [if_pos pong] at left timer ⊢
      exact .answered loop { inner with await := .select } running rfl (still.trans clock) timeout
        timer (left.trans (congrArg List.tail pings))
    · rw [if_neg pong] at left timer ⊢
      exact .kept loop { inner with await := .select } running rfl (still.trans clock) timeout
        timer (left.trans pings)
  · rename_i reached error handled
    cases dispatched
    obtain ⟨_, _, pong⟩ := World.incoming_pings handled
    rw [if_neg fun same => nomatch pong same]
    exact .idle rfl

private theorem handle_pings {polls : List Readiness} {world : World} {packet : Packet}
    (running : machine.phase = .running loop) (pings : world.pings = machine.world.pings)
    (clock : world.now = machine.world.now)
    (handled : (machine.after (.poll polls) world).handle loop packet = .ok next) :
    PingStep machine next (if packet = .pingResp then .answer else .other) := by
  cases packet with
  | auth auth => exact dispatch_pings loop (.auth auth) running pings clock rfl rfl handled
  | subAck suback =>
    exact dispatch_pings loop (.ack (.subAck suback)) running pings clock rfl rfl handled
  | unsubAck unsuback =>
    exact dispatch_pings loop (.ack (.unsubAck unsuback)) running pings clock rfl rfl handled
  | pubAck puback =>
    exact dispatch_pings loop (.ack (.pubAck puback)) running pings clock rfl rfl handled
  | pubRec pubrec =>
    exact dispatch_pings loop (.ack (.pubRec pubrec)) running pings clock rfl rfl handled
  | publish publish =>
    exact dispatch_pings loop (.publish publish) running pings clock rfl rfl handled
  | pingResp =>
    exact dispatch_pings { loop with pingrespTimer := none } .pingResp running pings clock rfl rfl
      handled
  | _ =>
    cases handled
    exact .idle rfl

private theorem wake_pings {polls : List Readiness} {read : Read} {expired : Bool}
    (running : machine.phase = .running loop) (replayable : Replayable machine.world)
    (woke : machine.wake loop polls read expired = .ok next) :
    PingStep machine next (machine.pingAction (.wake polls read expired)) := by
  unfold wake at woke
  split at woke
  · cases woke
  · rename_i packet world polled
    cases woke
    have started := startWrite_pings running replayable polled
    simp only [pingAction, polled]
    by_cases ping : packet = .pingReq
    · subst ping
      exact started
    · rw [if_neg ping] at started
      split
      · rename_i same
        cases same
        exact absurd rfl ping
      · rename_i same
        cases same
      · exact started
  · rename_i world polled
    obtain ⟨clock, added⟩ := World.poll_pings replayable polled
    have pings : world.pings = machine.world.pings := by simpa using added
    simp only [pingAction, polled]
    cases read with
    | packet packet =>
      have handled := handle_pings running pings clock woke
      by_cases pong : packet = .pingResp
      · subst pong
        exact handled
      · rw [if_neg pong] at handled
        split
        · rename_i same
          cases same
        · rename_i same
          cases same
          exact absurd rfl pong
        · exact handled
    | failed error =>
      cases woke
      exact .idle rfl
    | pending =>
      simp only at woke
      split at woke
      · cases woke
        exact .idle rfl
      · cases woke
        exact .quiet rfl clock pings

private theorem written_pings {polls : List Readiness} {packet : Packet}
    (running : machine.phase = .running loop) (writing : loop.await = .write packet)
    (replayable : Replayable machine.world)
    (wrote : machine.written loop packet polls = .ok next) :
    PingStep machine next (machine.pingAction (.written true polls)) := by
  simp only [pingAction, running, writing]
  unfold written at wrote
  split at wrote
  · rename_i disconnect
    cases wrote
    exact .kept loop { loop with await := .flushDisconnect disconnect } running rfl rfl rfl rfl rfl
  · rename_i notDisconnect
    split at wrote
    · cases wrote
    · rename_i sent world polled
      cases wrote
      have started := startWrite_pings running replayable polled
      simp only [polled]
      split
      · rename_i disconnect same
        cases same
        exact absurd rfl (notDisconnect disconnect)
      · rename_i same
        cases same
        exact started
      · rename_i other
        rw [if_neg fun ping => other packet world rfl (by rw [ping])] at started
        exact started
    · rename_i world polled
      cases wrote
      obtain ⟨clock, added⟩ := World.poll_pings replayable polled
      have pings : world.pings = machine.world.pings := by simpa using added
      simp only [polled]
      split
      · exact .kept loop { loop with await := .flush } running rfl clock rfl rfl pings
      · rename_i same
        cases same
      · exact .kept loop { loop with await := .flush } running rfl clock rfl rfl pings

/-- A connection opens with no PINGREQ in flight. -/
private theorem receiveResponse_pings {options : ConnectOptions} (response : Response)
    (closed : machine.phase.isRunning = false) (clear : machine.world.pings = []) :
    PingStep machine (machine.receiveResponse options response) .other := by
  cases response with
  | packet packet =>
    cases packet with
    | connAck connack =>
      by_cases running :
          (machine.receiveResponse options (.packet (.connAck connack))).phase.isRunning = true
      · obtain ⟨sessionPresent, world⟩ := receiveResponse_running running
        refine .opened closed ?_
        rw [world, World.established_pings]
        exact clear
      · exact .idle (Bool.not_eq_true _ ▸ running)
    | auth auth =>
      simp only [receiveResponse]
      split
      · split <;> exact .idle rfl
      · exact .idle rfl
    | _ => exact .idle rfl
  | failed error => exact .idle rfl
  | timeout => exact .idle rfl

/-- What a step does, if it does not take time. -/
theorem step_pings {event : MachineEvent} (replayable : Replayable machine.world)
    (clear : machine.phase.isRunning = false → machine.world.pings = [])
    (instant : ∀ duration, event ≠ .elapse duration)
    (stepped : machine.step event = .ok next) :
    PingStep machine next (machine.pingAction event) := by
  cases event with
  | app event =>
    cases stepped
    refine .quiet rfl (machine.world.app_now event) ?_
    obtain ⟨ch, same, _⟩ := machine.world.app_session event
    simp [after, World.pings, same]
  | elapse duration => exact absurd rfl (instant duration)
  | connect options sent =>
    simp only [step] at stepped
    split at stepped
    · rename_i waiting
      cases stepped
      cases sent with
      | true => exact .idle rfl
      | false => exact .idle (by simp [waiting, Phase.isRunning])
    · cases stepped
  | response response =>
    simp only [step] at stepped
    split at stepped
    · rename_i options waiting
      cases stepped
      have closed : machine.phase.isRunning = false := by rw [waiting]; rfl
      exact receiveResponse_pings response closed (clear closed)
    · cases stepped
  | continueAuth sent =>
    simp only [step] at stepped
    split at stepped
    · cases stepped
      cases sent <;> exact .idle rfl
    · cases stepped
  | wake polls read expired =>
    simp only [step] at stepped
    split at stepped
    · rename_i loop running
      split at stepped
      · exact wake_pings running replayable (liftPanic_ok stepped)
      · cases stepped
    · cases stepped
  | written sent polls =>
    simp only [step] at stepped
    split at stepped
    · rename_i loop running
      split at stepped
      · rename_i packet writing
        cases sent with
        | true => exact written_pings running writing replayable (liftPanic_ok stepped)
        | false =>
          cases stepped
          exact .idle rfl
      · cases stepped
    · cases stepped
  | flushed sent =>
    simp only [step] at stepped
    split at stepped
    · rename_i loop running
      split at stepped
      · cases stepped
        cases sent with
        | true => exact .kept loop { loop with await := .select } running rfl rfl rfl rfl rfl
        | false => exact .idle rfl
      · cases stepped
        exact .idle rfl
      · cases stepped
    · cases stepped

end Step

/-! ### Runs -/

/-- Between connections no PINGREQ waits. -/
theorem pings_idle {maxPkid : PacketIdentifier} {machine : Machine}
    (sound : Sound maxPkid machine) (stopped : machine.phase.isRunning = false) :
    machine.world.pings = [] := by
  refine Transition.exec_always
    (fun world : World => world.session.isConnected = false → world.pings = []) (fun _ => rfl) ?_
    sound.ran (sound.live ▸ stopped)
  intro world event next clear stepped closed
  have inside : event.isInside = true → world.session.isConnected = false := by
    intro inside
    rw [← (World.inside_sameConnection inside stepped).isConnected]
    exact closed
  cases World.step_cases stepped with
  | app event =>
    obtain ⟨ch, same, _⟩ := world.app_session event
    simpa [World.pings, same] using clear (inside rfl)
  | elapse duration => exact clear (inside rfl)
  | refused connack keepAlive authMethod interval idle => exact clear idle
  | established connack keepAlive authMethod interval sessionPresent idle code =>
    rw [World.established_pings]
    exact clear idle
  | disconnected disconnection live => exact world.disconnected_pings disconnection
  | polled polls outgoing session fired live polled => exact absurd (inside rfl) (by simp [live])
  | acked ack handled live completed => exact absurd (inside rfl) (by simp [live])
  | delivered publish next live delivered => exact absurd (inside rfl) (by simp [live])
  | authenticated auth live => exact absurd (inside rfl) (by simp [live])
  | ponged live => exact absurd (inside rfl) (by simp [live])

end Machine

end MqttClient.Client
