import MqttClient.Client.Replay

/-! Replays over whole runs of the client. -/

namespace MqttClient.Client

open MqttClient.Proto

theorem replayable_run {maxPkid : PacketIdentifier} {calls : List Event} {world : World}
    (ran : World.run (.new maxPkid) calls = .ok world)
    (drained : Transition.Along World.step Drained (.new maxPkid) calls) :
    QoS1Only world.session ∧ Replayable world ∧ Unfired .publishQoS1 world := by
  refine Transition.exec_invariant
    (fun world =>
      QoS1Only world.session ∧ Replayable world ∧ Unfired .publishQoS1 world)
    ⟨.new maxPkid, .new maxPkid, .new maxPkid _⟩ ?_ drained ran
  rintro world event next ⟨only, replayable, unfired⟩ here stepped
  exact ⟨only.step stepped, replayable.step only here stepped, unfired.step stepped⟩

theorem Unfired.firings_eq_nil {kind : OpKind} {world : World} (unfired : Unfired kind world)
    {notifier : Notifier} (waits : notifier ∈ world.waiting kind) :
    world.firings kind notifier = [] := by
  rw [world.firings_eq, List.map_eq_nil_iff, List.filter_eq_nil_iff]
  intro record member same
  exact (unfired.settled record member).2 (beq_iff_eq.mp same ▸ waits)

/-- No packet of the server overtakes the replay. -/
structure NoOvertaking (machine : Machine) : Prop where
  /-- While a packet waits to be sent again, the reader and the deadline are not looked at,
  so no packet that has arrived is handled. -/
  unread : machine.phase.isRunning = true →
    machine.world.session.inflight.packetsToReplay ≠ [] → ∀ polls read expired,
      machine.step (.wake polls read expired) = machine.step (.wake polls .pending false)
  /-- What is sent again is a publish still in flight that has not fired. -/
  resent : ∀ packet rest, machine.phase.isRunning = true →
    machine.world.session.inflight.packetsToReplay = packet :: rest →
      ∃ publish pkid notifier,
        machine.world.session.inflight.publishQoS1.get? pkid = some (publish, notifier) ∧
        publish.packetIdentifierDupQoS = .atLeastOnce pkid false ∧
        machine.world.firings .publishQoS1 notifier = [] ∧
        ∀ polls, ∃ after, machine.world.session.nextOutgoingPacket machine.world.now polls =
          .ok (some ⟨.publish { publish with
            packetIdentifierDupQoS := .atLeastOnce pkid true }, none⟩, after, [])

/-- A poll during a replay yields a packet. -/
theorem World.poll_replay {world : World} {packet : Packet} {rest : List Packet}
    (polls : List Readiness) (live : world.session.isConnected = true)
    (head : world.session.inflight.packetsToReplay = packet :: rest) :
    ∃ next, world.poll polls = .ok (some (Packet.setDup packet), next) := by
  simp only [World.poll, Session.nextOutgoingPacket, live, if_true, head]
  exact ⟨_, rfl⟩

/-- A wake that has a packet to send looks at nothing else. -/
theorem Machine.wake_sending {machine : Machine} {loop : Loop} {polls : List Readiness}
    {packet : Packet} {world : World} (polled : machine.world.poll polls = .ok (some packet, world))
    (read : Read) (expired : Bool) :
    machine.wake loop polls read expired =
      .ok ((machine.after (.poll polls) world).startWrite loop packet) := by
  simp only [Machine.wake, polled]

/-- An acknowledgement never overtakes the replay, and neither does any other packet. -/
theorem replay_noOvertaking (maxPkid : PacketIdentifier) (events : List MachineEvent)
    (machine : Machine) (ran : Machine.run (.new maxPkid) events = .ok machine) :
    NoOvertaking machine := by
  have sound := Machine.sound_run ran
  obtain ⟨_, replayable, unfired⟩ := replayable_run sound.ran sound.drained
  constructor
  · intro running waits polls read expired
    have live := sound.live.symm.trans running
    obtain ⟨packet, rest, head⟩ := List.exists_cons_of_ne_nil waits
    obtain ⟨world, polled⟩ := World.poll_replay polls live head
    simp only [Machine.step]
    split
    · split
      · rw [Machine.wake_sending polled, Machine.wake_sending polled]
      · rfl
    · rfl
  · intro packet rest running head
    have live := sound.live.symm.trans running
    have member : packet ∈ machine.world.session.inflight.resends :=
      replayable.suffix.subset (head ▸ List.mem_cons_self)
    obtain ⟨value, held, rfl⟩ := List.mem_map.mp member
    obtain ⟨⟨pkid, publish, notifier⟩, entry, rfl⟩ := List.mem_map.mp held
    have qos := replayable.filed entry
    refine ⟨publish, pkid, notifier, IndexMap.get?_eq_some_iff.mpr entry, qos, ?_, ?_⟩
    · apply unfired.firings_eq_nil
      apply List.mem_append_left
      simp only [InflightTracker.stored, List.map_map]
      exact List.mem_map_of_mem (f := Prod.snd ∘ fun entry => (entry.1, entry.2.2)) entry
    · intro polls
      simp only [Session.nextOutgoingPacket, live, if_true, head,
        Publish.setDup_atLeastOnce qos]
      exact ⟨_, rfl⟩

/-- A publish is sent, the connection is lost before its PUBACK, and the server takes the
session up again. -/
def resumedPublish : List MachineEvent :=
  let options : ConnectOptions := { cleanStart := false, keepAlive := .infinite }
  [.connect options true,
    .response (.packet (.connAck ⟨.success false, { sessionExpiryInterval := some .infinite }⟩)),
    .app (.publishQoS1 ⟨⟨⟨[0, 1, 97]⟩⟩⟩ [7] false {}), .wake [{}] .pending false,
    .written true [{}], .flushed true, .wake [{}] (.failed .io) false, .connect options true,
    .response (.packet (.connAck ⟨.success true, {}⟩)),
    .wake [{}] (.packet (.pubAck ⟨.one, .success, {}⟩)) false, .written true [{}], .flushed true,
    .wake [{}] (.packet (.pubAck ⟨.one, .success, {}⟩)) false]

/-- The replay of the second connection is about to begin. -/
theorem replay_noOvertaking_resumed :
    ∃ machine, Machine.run (.new .one) (resumedPublish.take 9) = .ok machine ∧
      machine.phase.isRunning = true ∧
      machine.world.session.inflight.packetsToReplay.length = 1 ∧ NoOvertaking machine :=
  ⟨_, rfl, rfl, by decide, replay_noOvertaking .one (resumedPublish.take 9) _ rfl⟩

namespace World

/-- The QoS 1 PUBLISHes sent and neither acknowledged nor cancelled, in the order of
their first emission. -/
def unacknowledged (world : World) : List Operation :=
  world.operations.filter fun operation =>
    operation.kind == .publishQoS1 && (world.firings .publishQoS1 operation.notifier).isEmpty

/-- What was sent on a connection. -/
def sentOn (world : World) (connection : Nat) : List Outgoing :=
  (world.emissions.filter (fun emission => emission.connection == connection)).map
    Emission.outgoing

theorem unacknowledged_congr {world next : World} (emissions : next.emissions = world.emissions)
    (fired : next.fired = world.fired) : next.unacknowledged = world.unacknowledged := by
  simp only [unacknowledged, operations, firings, emissions, fired]

end World

namespace Accounted

variable {world : World}

/-- The notifier names the operation. -/
theorem operation_unique (accounted : Accounted world) {left right : Operation}
    (first : left ∈ world.operations) (second : right ∈ world.operations)
    (kind : left.kind = right.kind) (notifier : left.notifier = right.notifier) :
    left = right := by
  obtain ⟨ledger, tracks, balanced⟩ := accounted right.kind
  have opened : ∀ {operation : Operation}, operation ∈ world.operations →
      operation.kind = right.kind →
      (⟨operation.notifier, operation⟩ : Ledger.Entry Operation) ∈ ledger.opened := by
    intro operation sent ofKind
    rw [tracks.opened, World.mem_opened]
    exact ⟨sent, ofKind, rfl⟩
  have same := balanced.entry_unique (opened first kind) (opened second rfl) notifier
  exact congrArg Ledger.Entry.data same

theorem unacknowledged_stored (accounted : Accounted world) :
    world.unacknowledged.map (fun operation => (operation.pkid, operation.notifier)) =
      world.session.inflight.stored .publishQoS1 := by
  obtain ⟨ledger, tracks, balanced⟩ := accounted .publishQoS1
  have silent : ∀ notifier, (world.firings .publishQoS1 notifier).isEmpty =
      !ledger.settledTickets.contains notifier := by
    intro notifier
    rw [world.firings_eq, ← tracks.settled, Bool.eq_iff_iff]
    simp only [List.isEmpty_iff, List.map_eq_nil_iff, List.filter_eq_nil_iff, beq_iff_eq,
      Bool.not_eq_true', ← Bool.not_eq_true, List.contains_iff_mem, Ledger.settledTickets,
      List.mem_map, not_exists, not_and]
  rw [← tracks.stored, balanced.stored]
  simp only [Ledger.unsettled, tracks.opened, World.opened, World.unacknowledged, List.filter_map,
    List.map_map, List.filter_filter, silent]
  simp [Function.comp_def, Bool.and_comm]

theorem unacknowledged_nodup (accounted : Accounted world) :
    (world.unacknowledged.map Operation.notifier).Nodup := by
  obtain ⟨ledger, tracks, balanced⟩ := accounted .publishQoS1
  have distinct := balanced.opened_nodup
  simp only [Ledger.openedTickets, tracks.opened, World.opened, List.map_map] at distinct
  refine distinct.sublist (List.Sublist.map _ ?_)
  exact List.monotone_filter_right _ (by simp +contextual)

/-- What is sent again is what was sent and is unacknowledged. -/
theorem resends_eq (accounted : Accounted world) (replayable : Replayable world) :
    world.session.inflight.resends =
      world.unacknowledged.map (fun operation => Packet.setDup operation.packet) := by
  have same := accounted.unacknowledged_stored
  simp only [InflightTracker.stored] at same
  simp only [InflightTracker.resends, IndexMap.values, List.map_map]
  apply List.ext_getElem
  · simpa using (congrArg List.length same).symm
  · intro index here there
    simp only [List.length_map] at here there
    have pair := List.getElem_of_eq same (by simpa using there)
    simp only [List.getElem_map, Prod.mk.injEq] at pair
    obtain ⟨other, sent, ofKind, _, named, packet⟩ :=
      replayable.held _ (List.getElem_mem here)
    have member := List.mem_filter.mp (List.getElem_mem there)
    have identical : world.unacknowledged[index] = other := by
      refine accounted.operation_unique member.1 sent ?_ (pair.2.trans named.symm)
      rw [ofKind]
      exact beq_iff_eq.mp (Bool.and_eq_true_iff.mp member.2).1
    simp [identical, packet, Packet.setDup]

end Accounted

/-- A publish as it is sent again. -/
def Operation.resent (operation : Operation) : Outgoing :=
  ⟨Packet.setDup operation.packet, none⟩

/-- What was sent on the connection: some of the pending publishes, in order, and new
requests only after all of them. While the replay goes on, the pending publishes are
exactly the unacknowledged ones. -/
def ReplayedOn (pending : List Operation) (connection : Nat) (world : World) : Prop :=
  ∃ count fresh, world.sentOn connection = (pending.take count).map Operation.resent ++ fresh ∧
    (∀ outgoing ∈ fresh, outgoing.request ≠ none) ∧
    (fresh ≠ [] → pending.length ≤ count) ∧
    (world.session.isConnected = true → world.session.inflight.packetsToReplay =
      (pending.drop count).map (fun operation => Packet.setDup operation.packet)) ∧
    (world.session.isConnected = true → count < pending.length → world.unacknowledged = pending)

@[simp] theorem Packet.setDup_idem (packet : Packet) :
    Packet.setDup (Packet.setDup packet) = Packet.setDup packet := by
  cases packet with
  | publish publish => exact Packet.setDup_setDup publish
  | _ => rfl

namespace ReplayedOn

variable {pending : List Operation} {connection : Nat} {world next : World}

theorem sentOn_congr (emissions : next.emissions = world.emissions) (connection : Nat) :
    next.sentOn connection = world.sentOn connection := by
  simp only [World.sentOn, emissions]

theorem sentOn_afterPoll (world : World) (polls : List Readiness) (outgoing : Option Outgoing)
    (session : Session) (fired : List Firing) :
    (world.afterPoll polls outgoing session fired).sentOn world.connections =
      world.sentOn world.connections ++ outgoing.toList := by
  simp [World.sentOn, World.afterPoll, List.filter_map, Function.comp_def]

/-- A step that sends nothing, outside a replay. -/
private theorem silent (replayed : ReplayedOn pending connection world)
    (emissions : next.emissions = world.emissions)
    (drained : world.session.isConnected = true →
      world.session.inflight.packetsToReplay = [])
    (live : next.session.isConnected = true → world.session.isConnected = true)
    (still : next.session.isConnected = true →
      next.session.inflight.packetsToReplay = world.session.inflight.packetsToReplay) :
    ReplayedOn pending connection next := by
  obtain ⟨count, fresh, sent, new, finished, waiting, _⟩ := replayed
  refine ⟨count, fresh, (sentOn_congr emissions connection).trans sent, new, finished,
    fun connected => (still connected).trans (waiting (live connected)), ?_⟩
  intro connected unfinished
  have empty := (waiting (live connected)).symm.trans (drained (live connected))
  rw [List.map_eq_nil_iff, List.drop_eq_nil_iff] at empty
  omega

/-- A step that neither sends nor fires and leaves the replay alone. -/
private theorem still (replayed : ReplayedOn pending connection world)
    (emissions : next.emissions = world.emissions) (fired : next.fired = world.fired)
    (live : next.session.isConnected = world.session.isConnected)
    (replay : next.session.inflight.packetsToReplay =
      world.session.inflight.packetsToReplay) :
    ReplayedOn pending connection next := by
  obtain ⟨count, fresh, sent, new, finished, waiting, unfinished⟩ := replayed
  refine ⟨count, fresh, (sentOn_congr emissions connection).trans sent, new, finished, ?_, ?_⟩
  · rw [live, replay]
    exact waiting
  · rw [live, World.unacknowledged_congr emissions fired]
    exact unfinished

/-- A poll sends the next pending publish, or a new request once there is none. -/
private theorem poll {polls : List Readiness} {session : Session} {fired : List Firing}
    {outgoing : Option Outgoing} (replayed : ReplayedOn pending world.connections world)
    (live : world.session.isConnected = true)
    (effect : Session.PollEffect world.session outgoing session fired) :
    ReplayedOn pending world.connections (world.afterPoll polls outgoing session fired) := by
  obtain ⟨count, fresh, sent, new, finished, waiting, unfinished⟩ := replayed
  have ofDrained : world.session.inflight.packetsToReplay = [] →
      session.inflight.packetsToReplay = world.session.inflight.packetsToReplay →
      (∀ packet ∈ outgoing, packet.request ≠ none) →
      ReplayedOn pending world.connections (world.afterPoll polls outgoing session fired) := by
    intro drained same requested
    have empty := (waiting live).symm.trans drained
    rw [List.map_eq_nil_iff, List.drop_eq_nil_iff] at empty
    refine ⟨count, fresh ++ outgoing.toList, ?_, ?_, fun _ => empty, ?_, ?_⟩
    · rw [sentOn_afterPoll, sent, List.append_assoc]
    · intro packet member
      rcases List.mem_append.mp member with old | taken
      · exact new packet old
      · exact requested packet (Option.mem_toList.mp taken)
    · intro _
      exact same.trans (waiting live)
    · intro _ unfinished
      omega
  cases effect with
  | quiet outgoing after fired drained frame silent plain =>
    exact ofDrained drained frame.packetsToReplay (fun packet member => (plain packet member).1)
  | subscribe _ _ _ _ _ _ _ _ drained _ _ frame =>
    exact ofDrained drained frame.packetsToReplay (by rintro packet ⟨⟩; simp)
  | unsubscribe _ _ _ _ _ _ _ drained _ _ frame =>
    exact ofDrained drained frame.packetsToReplay (by rintro packet ⟨⟩; simp)
  | publishQoS1 _ _ _ _ _ drained _ _ frame =>
    exact ofDrained drained frame.packetsToReplay (by rintro packet ⟨⟩; simp)
  | publishQoS2 _ _ _ _ _ drained _ _ frame =>
    exact ofDrained drained frame.packetsToReplay (by rintro packet ⟨⟩; simp)
  | replay packet rest after head frame =>
    have list := (waiting live).symm.trans head
    have inside : count < pending.length := by
      by_contra past
      rw [List.drop_eq_nil_of_le (Nat.le_of_not_lt past)] at list
      cases list
    have noFresh : fresh = [] := by
      by_contra some
      exact absurd (finished some) (Nat.not_le_of_lt inside)
    rw [List.drop_eq_getElem_cons inside, List.map_cons, List.cons.injEq] at list
    obtain ⟨rfl, rfl⟩ := list
    refine ⟨count + 1, [], ?_, by simp, by simp, ?_, ?_⟩
    · rw [sentOn_afterPoll, sent, noFresh, List.take_succ_eq_append_getElem inside]
      simp only [List.map_append, List.map_cons, List.map_nil, List.append_nil,
        Option.toList_some, Packet.setDup_idem]
      rfl
    · intro _
      exact frame.packetsToReplay
    · intro _ _
      have silent : (world.afterPoll polls
          (some ⟨Packet.setDup (Packet.setDup pending[count].packet), none⟩) session
            []).unacknowledged = world.unacknowledged := by
        simp [World.unacknowledged, World.operations, World.firings, World.afterPoll, World.record,
          Emission.operation?, Outgoing.opens]
      exact silent.trans (unfinished live inside)

/-- Each step on a connection keeps its replay exact. -/
theorem step {event : Event} (replayed : ReplayedOn pending connection world)
    (here : world.connections = connection) (stays : next.connections = connection)
    (drained : Drained world event) (stepped : world.step event = .ok next) :
    ReplayedOn pending connection next := by
  subst here
  cases World.step_cases stepped with
  | app event =>
    obtain ⟨emissions, fired, _, _⟩ := world.app_history event
    obtain ⟨ch, same, _⟩ := world.app_session event
    refine replayed.still emissions fired ?_ ?_ <;> rw [same]
    rfl
  | elapse duration => exact replayed.still rfl rfl rfl rfl
  | refused => exact replayed
  | established connack keepAlive authMethod interval sessionPresent idle code =>
    simp [World.established, World.connections] at stays
  | polled polls outgoing session fired live polled =>
    exact replayed.poll live (Session.nextOutgoingPacket_effect polled)
  | acked ack handled live completed =>
    have final := (Session.completeInflight_spec completed).1
    refine replayed.silent rfl (fun _ => drained) (fun _ => live) (fun _ => ?_)
    simp only [World.record, final]
    cases ack <;> rfl
  | delivered publish next live delivered =>
    obtain ⟨emissions, fired, _, _⟩ := World.incomingPublish_history delivered
    obtain ⟨ackRx, inApplication, same⟩ := World.incomingPublish_session delivered
    refine replayed.still emissions fired ?_ ?_ <;> rw [same]
    rfl
  | authenticated auth live =>
    obtain ⟨exchange, same⟩ := (world.session.incomingAuth_frame auth).1
    rw [same]
    exact replayed.silent rfl (fun _ => drained) (fun _ => live) (fun _ => rfl)
  | ponged live =>
    obtain ⟨rest, same⟩ := (world.session.incomingPingresp_frame world.now).1
    rw [same]
    exact replayed.silent rfl (fun _ => drained) (fun _ => live) (fun _ => rfl)
  | disconnected disconnection live =>
    have dead := world.disconnected_isConnected disconnection
    obtain ⟨count, fresh, sent, new, finished, _, _⟩ := replayed
    refine ⟨count, fresh, (sentOn_congr ?_ _).trans sent, new, finished, ?_, ?_⟩
    · rw [world.disconnected_eq]
      rfl
    · simp [dead]
    · simp [dead]

end ReplayedOn

/-- The replay of a new connection: all unacknowledged publishes when the server has
kept the session, and none when it has lost it. -/
theorem ReplayedOn.established {world : World} {connack : ConnAck} {keepAlive : KeepAlive}
    {authMethod : Option Bytes} {interval : SessionExpiryInterval} {sessionPresent : Bool}
    (accounted : Accounted world) (replayable : Replayable world) (before : SentBefore world)
    (idle : world.session.isConnected = false) :
    let opened := world.established connack keepAlive authMethod interval sessionPresent
    ReplayedOn (if sessionPresent then world.unacknowledged else []) opened.connections opened := by
  have unsent : (world.established connack keepAlive authMethod interval sessionPresent).sentOn
      (world.connections + 1) = [] := by
    simp only [World.sentOn, List.map_eq_nil_iff, List.filter_eq_nil_iff, beq_iff_eq]
    intro emission member same
    have earlier := before emission member
    omega
  have opened : (world.established connack keepAlive authMethod interval
      sessionPresent).connections = world.connections + 1 := by
    simp [World.established, World.connections]
  simp only [opened]
  refine ⟨0, [], by simpa using unsent, by simp, by simp, fun _ => ?_, fun _ some => ?_⟩
  · cases sessionPresent with
    | false => rfl
    | true => exact (replayable.idle idle).trans (accounted.resends_eq replayable)
  · cases sessionPresent with
    | false => simp at some
    | true => exact World.unacknowledged_congr rfl (by simp [World.established, World.record,
        World.resumed])

/-- Every first emission of a QoS 1 PUBLISH carries no DUP flag, and the replay of each
connection is exact. -/
structure ReplayExact (maxPkid : PacketIdentifier) (calls : List Event) (final : World) :
    Prop where
  first : ∀ operation ∈ final.operations, operation.kind = .publishQoS1 → ∃ publish : Publish,
    operation.packet =
      .publish { publish with packetIdentifierDupQoS := .atLeastOnce operation.pkid false } ∧
    operation.resent.packet =
      .publish { publish with packetIdentifierDupQoS := .atLeastOnce operation.pkid true }
  replay : ∀ early connack keepAlive authMethod interval sessionPresent middle late idle opened
      reached,
    calls = early ++ .connack connack keepAlive authMethod interval :: (middle ++ late) →
    World.run (.new maxPkid) early = .ok idle → connack.reasonCode = .success sessionPresent →
    idle.step (.connack connack keepAlive authMethod interval) = .ok opened →
    opened.session.isConnected = true → World.run opened middle = .ok reached →
    reached.connections = opened.connections →
    (idle.unacknowledged.map Operation.notifier).Nodup ∧
    ReplayedOn (if sessionPresent then idle.unacknowledged else []) opened.connections reached

/-- The replay of every connection of the client is exact, if acknowledgements carry
identifiers of their own kind. -/
theorem replay_exact (maxPkid : PacketIdentifier) (events : List MachineEvent) (machine : Machine)
    (ran : Machine.run (.new maxPkid) events = .ok machine)
    (own : Transition.Along World.step AcknowledgesOwnKind (.new maxPkid) machine.calls) :
    ReplayExact maxPkid machine.calls machine.world := by
  have sound := Machine.sound_run ran
  obtain ⟨_, replayable, _⟩ := replayable_run sound.ran sound.drained
  constructor
  · intro operation sent ofKind
    obtain ⟨publish, packet, qos⟩ := replayable.sent operation sent ofKind
    refine ⟨publish, ?_, ?_⟩
    · rw [packet, ← qos]
    · rw [Operation.resent, packet]
      exact congrArg Packet.publish (Publish.setDup_atLeastOnce qos)
  · intro early connack keepAlive authMethod interval sessionPresent middle late idle opened reached
      split first code stepped live later same
    have drained := sound.drained
    rw [split] at own drained
    obtain ⟨ownEarly, _⟩ := (Transition.Along.append first).mp own
    obtain ⟨drainedEarly, _, drainedLate⟩ := (Transition.Along.append first).mp drained
    have drainedMiddle := ((Transition.Along.append later).mp (drainedLate opened stepped)).1
    obtain ⟨_, accounted⟩ := accounted_run first ownEarly
    obtain ⟨_, replayableIdle, _⟩ := replayable_run first drainedEarly
    have before := sentBefore_run first
    refine ⟨accounted.unacknowledged_nodup, ?_⟩
    have start : ReplayedOn (if sessionPresent then idle.unacknowledged else [])
        opened.connections opened := by
      cases World.step_cases stepped with
      | refused _ _ _ _ dead => simp [dead] at live
      | established _ _ _ _ present dead code' =>
        obtain rfl : present = sessionPresent := by
          rw [code] at code'
          exact (ConnectReasonCode.success.inj code').symm
        exact .established accounted replayableIdle before dead
    -- Connections only grow, so the whole stretch is on the connection that was opened.
    have along : ∀ {calls world}, World.run opened calls = .ok world →
        Transition.Along World.step Drained opened calls →
        world.connections = opened.connections →
        ReplayedOn (if sessionPresent then idle.unacknowledged else []) opened.connections
          world := by
      intro calls
      induction calls using List.reverseRecOn with
      | nil =>
        intro world none _ _
        cases none
        exact start
      | append_singleton calls call ih =>
        intro world all drained arrived
        obtain ⟨middle, earlier, last⟩ := Transition.exec_snoc_ok all
        obtain ⟨drainedBefore, drainedHere⟩ := drained.last earlier
        have lower := World.run_connections earlier
        have upper : middle.connections ≤ world.connections := World.step_connections last
        have between : middle.connections = opened.connections := by omega
        exact (ih earlier drainedBefore between).step between arrived drainedHere last
    exact along later drainedMiddle same

theorem replay_exact_resumed :
    ∃ machine, Machine.run (.new .one) resumedPublish = .ok machine ∧
      ReplayExact .one machine.calls machine.world := by
  refine ⟨_, rfl, replay_exact .one resumedPublish _ rfl ?_⟩
  refine (Transition.Along.cons_ok rfl).mpr ⟨trivial, ?_⟩
  refine (Transition.Along.cons_ok rfl).mpr ⟨trivial, ?_⟩
  refine (Transition.Along.cons_ok rfl).mpr ⟨trivial, ?_⟩
  refine (Transition.Along.cons_ok rfl).mpr ⟨trivial, ?_⟩
  refine (Transition.Along.cons_ok rfl).mpr ⟨trivial, ?_⟩
  refine (Transition.Along.cons_ok rfl).mpr ⟨trivial, ?_⟩
  refine (Transition.Along.cons_ok rfl).mpr ⟨trivial, ?_⟩
  refine (Transition.Along.cons_ok rfl).mpr ⟨trivial, ?_⟩
  refine (Transition.Along.cons_ok rfl).mpr ⟨trivial, ?_⟩
  refine (Transition.Along.cons_ok rfl).mpr ⟨trivial, ?_⟩
  refine (Transition.Along.cons_ok rfl).mpr ⟨?_, trivial⟩
  intro kind
  cases kind <;> decide

end MqttClient.Client
