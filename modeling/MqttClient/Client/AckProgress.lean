import MqttClient.Client.Answers
import MqttClient.Client.KeepAlive

/-! Acknowledgements are not lost: when the loop has drained, every QoS 1 PUBLISH of the
connection has its PUBACK, up to the first one whose token the application still holds. -/

namespace MqttClient.Client

open MqttClient.Proto

namespace AcknowledgementRequest

/-- The request answers the delivery with this identifier on the connection with this epoch. -/
def Answers (epoch : UInt64) (pkid : PacketIdentifier) (request : AcknowledgementRequest) :
    Prop :=
  ∃ notifier puback, request = .pubAck notifier puback epoch ∧ puback.packetIdentifier = pkid

end AcknowledgementRequest

namespace Session

variable {session middle after : Session} {held : PacketIdentifier → Prop}

/-- A delivery without an answer has one under way, or its token is held. -/
def Awaited (held : PacketIdentifier → Prop) (session : Session) : Prop :=
  ∀ pkid, (pkid, .notReady) ∈ session.inApplication.entries →
    (∃ request ∈ session.ch.ackRx, request.Answers session.connectionEpoch pkid) ∨ held pkid

/-- A step that leaves the answers under way, and no more deliveries without one. -/
theorem Awaited.fewer (awaited : session.Awaited held)
    (pending : ∀ entry ∈ after.inApplication.entries, entry ∈ session.inApplication.entries)
    (queue : after.ch.ackRx = session.ch.ackRx)
    (epoch : after.connectionEpoch = session.connectionEpoch) : after.Awaited held := by
  intro pkid member
  rw [queue, epoch]
  exact awaited pkid (pending _ member)

theorem Awaited.takeReady (awaited : session.Awaited held) :
    session.takeReady.2.Awaited held := by
  have stale : ∀ entry ∈ (session.inApplication.dropWhile
      (isStale session.connectionEpoch)).entries, entry ∈ session.inApplication.entries :=
    fun _ member => (List.dropWhile_sublist _).subset member
  simp only [Session.takeReady]
  split
  · exact awaited.fewer (fun entry member => stale entry (List.mem_of_mem_tail member)) rfl rfl
  · exact awaited.fewer stale rfl rfl

/-- An answer that is routed is no longer under way, and its delivery no longer without one. -/
theorem routeAcknowledgement_awaited {request : AcknowledgementRequest}
    {returned : Option AcknowledgementRequest} {rest : List AcknowledgementRequest}
    (awaited : session.Awaited held) (head : session.ch.ackRx = request :: rest)
    (queue : middle.ch.ackRx = rest) (pending : middle.inApplication = session.inApplication)
    (epoch : middle.connectionEpoch = session.connectionEpoch)
    (routed : middle.routeAcknowledgement request = .ok (returned, after)) :
    after.Awaited held := by
  have other (pkid : PacketIdentifier) (member : (pkid, .notReady) ∈ middle.inApplication.entries) :
      request.Answers middle.connectionEpoch pkid ∨
        (∃ request ∈ middle.ch.ackRx, request.Answers middle.connectionEpoch pkid) ∨ held pkid := by
    rw [epoch, queue]
    rw [pending] at member
    rcases awaited pkid member with ⟨found, waiting, answers⟩ | holds
    · rw [head] at waiting
      rcases List.mem_cons.mp waiting with rfl | later
      · exact .inl answers
      · exact .inr (.inl ⟨found, later, answers⟩)
    · exact .inr (.inr holds)
  have marked (mapped : (middle.markReady request).map (none, ·) = .ok (returned, after)) :
      after.Awaited held := by
    simp only [markReady] at mapped
    split at mapped
    · rename_i state found
      cases mapped
      intro pkid member
      rcases IndexMap.mem_entries_insert member with same | earlier
      · cases same
      · rcases other pkid earlier with ⟨notifier, puback, rfl, rfl⟩ | waits
        · obtain ⟨left, right, _, replaced⟩ := IndexMap.entries_insert_present
            (IndexMap.get?_eq_some_iff.mp found)
            (.ready (.pubAck notifier puback middle.connectionEpoch))
          have answered := IndexMap.value_unique member
            (replaced ▸ List.mem_append_right left List.mem_cons_self)
          cases answered
        · exact waits
    · cases mapped
  have unmarked (silent : ∀ pkid, ¬ request.Answers middle.connectionEpoch pkid) :
      middle.Awaited held :=
    fun pkid member => (other pkid member).resolve_left (silent pkid)
  cases request with
  | pubAck notifier puback sent =>
    simp only [routeAcknowledgement] at routed
    split at routed
    · exact marked routed
    · rename_i earlier
      cases routed
      apply unmarked
      rintro pkid ⟨_, _, same, _⟩
      cases same
      exact earlier rfl
  | pubComp notifier pubcomp =>
    cases routed
    apply unmarked
    rintro pkid ⟨_, _, same, _⟩
    cases same
  | _ => exact marked routed

theorem nextOutgoingRequest_awaited {now : Nat} {polls : List Readiness}
    {request : Option OutgoingPacketRequest} (awaited : session.Awaited held)
    (requested : nextOutgoingRequest now polls session = .ok (request, after)) :
    after.Awaited held := by
  induction polls generalizing session with
  | nil =>
    unfold nextOutgoingRequest at requested
    have taken := awaited.takeReady
    split at requested <;> rename_i turn <;> rw [turn] at taken <;> cases requested <;> exact taken
  | cons ready later ih =>
    unfold nextOutgoingRequest at requested
    have taken := awaited.takeReady
    split at requested
    · rename_i turn
      rw [turn] at taken
      cases requested
      exact taken
    · rename_i middle turn
      rw [turn] at taken
      have polled := pollForOutgoingRequest_ack ready now middle
      simp only at requested taken
      generalize middle.pollForOutgoingRequest ready now = outcome at polled requested
      obtain ⟨found, passed⟩ := outcome
      simp only at polled
      cases polled with
      | other _ _ noAck queue pending epoch =>
        have kept : passed.Awaited held :=
          taken.fewer (fun entry member => pending ▸ member) queue epoch
        cases found with
        | none =>
          cases requested
          exact kept
        | some found =>
          cases found with
          | acknowledgementRequest ack => exact absurd rfl (noAck ack)
          | _ =>
            cases requested
            exact kept
      | ack ack rest _ head queue pending epoch =>
        simp only at requested
        cases routed : passed.routeAcknowledgement ack with
        | error panic => simp [routed] at requested
        | ok outcome =>
          obtain ⟨returned, next⟩ := outcome
          have kept := routeAcknowledgement_awaited taken head queue pending epoch routed
          simp only [routed] at requested
          cases returned with
          | none => exact ih kept requested
          | some returned =>
            cases requested
            exact kept

theorem nextOutgoingPacket_awaited {now : Nat} {polls : List Readiness}
    {outgoing : Option Outgoing} {fired : List Firing} (awaited : session.Awaited held)
    (polled : session.nextOutgoingPacket now polls = .ok (outgoing, after, fired)) :
    after.Awaited held := by
  cases nextOutgoingPacket_advances polled with
  | replay packet rest head => exact awaited
  | pending _ drained requested => exact nextOutgoingRequest_awaited awaited requested
  | issued request taken final packet effects requested issued =>
    obtain ⟨-, -, channels, pending, epoch⟩ := issue_load issued
    have kept : final.Awaited held := (nextOutgoingRequest_awaited awaited requested).fewer
      (fun entry member => pending ▸ member) (congrArg Channels.ackRx channels) epoch
    exact kept

end Session

namespace World

/-- The application holds the token of a delivery on this connection. -/
def HoldsToken (world : World) (pkid : PacketIdentifier) : Prop :=
  ∃ token ∈ world.tokens, token.pkid = pkid ∧ token.epoch = world.session.connectionEpoch

/-- Every delivery without an answer waits for one. -/
def Awaits (world : World) : Prop := world.session.Awaited world.HoldsToken

variable {world next : World}

theorem awaits_empty (empty : world.session.inApplication = .empty) : world.Awaits := by
  intro pkid member
  rw [empty] at member
  cases member

/-- A step that touches neither tokens nor answers. -/
theorem Awaits.congr (awaits : world.Awaits)
    (pending : next.session.inApplication = world.session.inApplication)
    (queue : next.session.ch.ackRx = world.session.ch.ackRx)
    (epoch : next.session.connectionEpoch = world.session.connectionEpoch)
    (tokens : next.tokens = world.tokens) : next.Awaits := by
  intro pkid member
  rw [HoldsToken, tokens, queue, epoch]
  exact awaits pkid (pending ▸ member)

/-- A token that is used leaves its answer in the channel. -/
theorem Awaits.useToken (awaits : world.Awaits) (ordered : Ordered world) (serial : Nat)
    (reasonCode : PubAckReasonCode) (otherProperties : PubAckOtherProperties) :
    (world.useToken serial reasonCode otherProperties).Awaits := by
  unfold World.useToken
  split
  · exact awaits
  · rename_i used found
    have serials : ((world.tokens).map PubAckToken.serial).Nodup := by
      have distinct := ordered.distinct
      rw [List.map_append, List.nodup_append] at distinct
      exact distinct.2.1
    have same : used.serial = serial := by simpa using List.find?_some found
    intro pkid member
    rcases awaits pkid member with ⟨request, waiting, answers⟩ | ⟨token, held, named, epoch⟩
    · exact .inl ⟨request, List.mem_append_left _ waiting, answers⟩
    · by_cases this : token.serial = serial
      · obtain rfl : token = used := List.inj_on_of_nodup_map serials held
          (List.mem_of_find?_eq_some found) (this.trans same.symm)
        exact .inl ⟨_, List.mem_append_right _ (List.mem_singleton_self _),
          world.fresh, _, congrArg _ epoch, named⟩
      · exact .inr ⟨token, List.mem_filter.mpr ⟨held, by simpa using this⟩, named, epoch⟩

/-- A delivery is handed over with its token, or the token is dropped and answers it. -/
theorem Awaits.publish {publish : Publish} (awaits : world.Awaits)
    (delivered : world.incomingPublish publish = .ok next) : next.Awaits := by
  cases World.incomingPublish_cases delivered with
  | qos0 _ => exact awaits
  | handed pkid dup _ absent =>
    intro other member
    rcases IndexMap.mem_entries_insert member with same | earlier
    · obtain ⟨rfl, -⟩ := Prod.mk.inj same
      exact .inr ⟨_, List.mem_append_right _ (List.mem_singleton_self _), rfl, rfl⟩
    · rcases awaits other earlier with waiting | ⟨token, held, named, epoch⟩
      · exact .inl waiting
      · exact .inr ⟨token, List.mem_append_left _ held, named, epoch⟩
  | dropped pkid dup _ absent =>
    intro other member
    rcases IndexMap.mem_entries_insert member with same | earlier
    · obtain ⟨rfl, -⟩ := Prod.mk.inj same
      exact .inl ⟨_, List.mem_append_right _ (List.mem_singleton_self _), _, _, rfl, rfl⟩
    · rcases awaits other earlier with ⟨request, waiting, answers⟩ | held
      · exact .inl ⟨request, List.mem_append_left _ waiting, answers⟩
      · exact .inr held

theorem Awaits.step {event : Event} (awaits : world.Awaits) (ordered : Ordered world)
    (stepped : world.step event = .ok next) : next.Awaits := by
  cases World.step_cases stepped with
  | app event =>
    cases event with
    | acknowledge serial reasonCode otherProperties =>
      exact awaits.useToken ordered serial reasonCode otherProperties
    | dropToken serial => exact awaits.useToken ordered serial .success {}
    | disconnect disconnect =>
      simp only [World.app, World.withChannels]
      split <;> exact awaits.congr rfl rfl rfl rfl
    | dropDisconnectHandle =>
      simp only [World.app, World.withChannels]
      split <;> exact awaits.congr rfl rfl rfl rfl
    | _ => exact awaits.congr rfl rfl rfl rfl
  | elapse duration => exact awaits.congr rfl rfl rfl rfl
  | refused => exact awaits
  | established connack keepAlive authMethod interval sessionPresent idle code =>
    apply awaits_empty
    have empty := ordered.idle idle
    cases sessionPresent <;> exact empty
  | polled polls outgoing session fired live polled =>
    have kept := Session.nextOutgoingPacket_awaited awaits polled
    have epoch := (Session.nextOutgoingPacket_effect polled).kept.2.1
    intro pkid member
    rcases kept pkid member with waiting | ⟨token, held, named, current⟩
    · exact .inl waiting
    · exact .inr ⟨token, held, named, current.trans epoch.symm⟩
  | acked ack handled live completed =>
    have final := (Session.completeInflight_spec completed).1
    refine awaits.congr ?_ ?_ ?_ rfl <;> simp only [World.record, final]
  | delivered publish next live delivered => exact awaits.publish delivered
  | authenticated auth live =>
    obtain ⟨exchange, same⟩ := (world.session.incomingAuth_frame auth).1
    rw [same]
    exact awaits.congr rfl rfl rfl rfl
  | ponged live =>
    obtain ⟨rest, same⟩ := (world.session.incomingPingresp_frame world.now).1
    rw [same]
    exact awaits.congr rfl rfl rfl rfl
  | disconnected disconnection live =>
    apply awaits_empty
    rw [world.disconnected_eq]
    simp only [Session.ended, Session.expireIfZero]
    split <;> rfl

theorem awaits_run {maxPkid : PacketIdentifier} {events : List Event}
    (ran : World.run (.new maxPkid) events = .ok world) (few : world.connections < 2 ^ 64) :
    world.Awaits := by
  refine (Transition.exec_always
    (fun world => world.connections < 2 ^ 64 → Ordered world ∧ world.Awaits)
    (fun _ => ⟨.new maxPkid, awaits_empty rfl⟩) ?_ ran few).2
  intro world event next holds stepped few
  have grown : world.connections ≤ next.connections := World.step_connections stepped
  obtain ⟨ordered, awaits⟩ := holds (Nat.lt_of_le_of_lt grown few)
  exact ⟨ordered.step few stepped, awaits.step ordered stepped⟩

/-- Whether the application still holds the token of an arrival. -/
def held (world : World) (arrival : Nat × PacketIdentifier) : Bool :=
  world.tokens.any fun token => token.serial == arrival.1

theorem held_iff {arrival : Nat × PacketIdentifier} :
    world.held arrival = true ↔ ∃ token ∈ world.tokens, token.serial = arrival.1 := by
  simp [held]

end World

section

variable {world : World}

/-- What was answered is no longer held. -/
theorem Answered.released {connection : Nat} {done : List (Nat × PacketIdentifier)}
    (answered : Answered world connection done) (ordered : Ordered world) :
    ∀ arrival ∈ done, world.held arrival = false := by
  have distinct := ordered.distinct
  rw [List.map_append, List.nodup_append] at distinct
  have chosen (puback : PubAck) (arrival : Nat × PacketIdentifier)
      (chosen : Chosen world.uses puback arrival) : world.held arrival = false := by
    obtain ⟨-, use, used, serial, -⟩ := chosen
    rw [Bool.eq_false_iff]
    intro held
    obtain ⟨token, kept, same⟩ := World.held_iff.mp held
    exact distinct.2.2 use.token.serial (List.mem_map_of_mem (List.mem_map_of_mem used))
      token.serial (List.mem_map_of_mem kept) (serial.trans same.symm)
  unfold Answered at answered
  generalize world.pubAcksOn connection = acks at answered
  induction answered with
  | nil => simp
  | cons first _ ih => exact List.forall_mem_cons.mpr ⟨chosen _ _ first, ih⟩

/-- When nothing is left to send, the arrivals before the first one that is held are answered. -/
theorem World.Awaits.answered (awaits : world.Awaits) (ordered : Ordered world)
    (live : world.session.isConnected = true) (queue : world.session.ch.ackRx = [])
    (turn : ∀ pkid request, world.session.inApplication.first? ≠ some (pkid, .ready request)) :
    Answered world world.connections
      ((world.arrivalsOn world.connections).takeWhile fun arrival => !world.held arrival) := by
  obtain ⟨queued, latest, channel, pending⟩ := ordered.underWay
  obtain ⟨slots, done, slotted, split, answered⟩ := pending live
  have released : ∀ arrival ∈ done, (!world.held arrival) = true := by
    intro arrival member
    simp [answered.released ordered arrival member]
  rw [split, List.takeWhile_append_of_pos released]
  suffices stops : (slots.map Slot.arrival).takeWhile (fun arrival => !world.held arrival) = [] by
    rw [stops, List.append_nil]
    exact answered
  cases slots with
  | nil => rfl
  | cons slot rest =>
    -- The oldest slot is not ready, so its token is held: it has the identifier of the slot,
    -- and identifiers are distinct.
    obtain ⟨serial, pkid, state⟩ := slot
    have entries := slotted.entries
    have first : world.session.inApplication.first? = some (pkid, state) := by
      simp [IndexMap.first?, entries]
    cases state with
    | ready request => exact absurd first (turn pkid request)
    | notReady =>
      have waits : (pkid, .notReady) ∈ world.session.inApplication.entries := by
        simp [entries]
      rcases awaits pkid waits with ⟨request, waiting, -⟩ | ⟨token, kept, named, epoch⟩
      · rw [queue] at waiting
        cases waiting
      · have located := slotted.outstanding token (List.mem_append_right _ kept) epoch
        have distinct := world.session.inApplication.distinct
        rw [entries, List.map_map] at distinct
        have same := List.inj_on_of_nodup_map distinct located List.mem_cons_self named
        have serials : token.serial = serial := congrArg Slot.serial same
        have held : world.held (serial, pkid) = true :=
          World.held_iff.mpr ⟨token, kept, serials⟩
        simp [Slot.arrival, held]

end

/-! ### The log of the client -/

namespace AckLog

variable (log : AckLog)

/-- A packet is read. -/
def packet : Packet → AckLog
  | .publish publish => log.arrived publish
  | _ => log

/-- What an observer of the client notes: the acts of the application, the connections that
open, and each packet that is read while there is nothing to send. -/
def noteStep (machine : Machine) (event : MachineEvent) (next : Machine) (log : AckLog) : AckLog :=
  match event with
  | .app event => log.app event
  | .response _ => if next.phase.isRunning then log.opened else log
  | .wake polls (.packet packet) _ => if machine.isQuiet polls then log.packet packet else log
  | _ => log

/-- What has been noted of a run of the client. -/
abbrev ofClient (maxPkid : PacketIdentifier) (events : List MachineEvent) : AckLog :=
  Transition.observe Machine.step noteStep (.new maxPkid) {} events

end AckLog

namespace AckLogged

variable {machine next : Machine} {loop : Loop} {log : AckLog} {polls : List Readiness}

theorem runUntilDisconnect (logged : AckLogged log machine.world)
    (ended : Except InnerConnectionError InnerDisconnect) :
    AckLogged log (machine.runUntilDisconnect ended).world :=
  logged.disconnected _

theorem dispatch (logged : AckLogged log machine.world) {packet : Incoming}
    (dispatched : machine.dispatch loop packet = .ok next) :
    AckLogged (log.incoming packet) next.world := by
  unfold Machine.dispatch at dispatched
  split at dispatched
  · cases dispatched
  · rename_i world handled
    cases dispatched
    exact logged.incoming handled
  · rename_i world error handled
    cases dispatched
    have arrived : AckLogged (log.incoming packet)
        (machine.after (.incoming packet) world).world := logged.incoming handled
    exact arrived.runUntilDisconnect _

theorem handle (logged : AckLogged log machine.world) {packet : Packet}
    (handled : machine.handle loop packet = .ok next) :
    AckLogged (log.packet packet) next.world := by
  cases packet with
  | auth auth => exact logged.dispatch handled
  | subAck suback => exact logged.dispatch handled
  | unsubAck unsuback => exact logged.dispatch handled
  | pubAck puback => exact logged.dispatch handled
  | pubRec pubrec => exact logged.dispatch handled
  | publish publish => exact logged.dispatch handled
  | pingResp =>
    have dispatched : machine.dispatch { loop with pingrespTimer := none } .pingResp = .ok next :=
      handled
    exact logged.dispatch dispatched
  | _ =>
    cases handled
    exact logged.runUntilDisconnect _

theorem wake (logged : AckLogged log machine.world) {read : Read} {expired : Bool}
    (woke : machine.wake loop polls read expired = .ok next) :
    AckLogged (AckLog.noteStep machine (.wake polls read expired) next log) next.world := by
  unfold Machine.wake at woke
  cases polled : machine.world.poll polls with
  | error panic => simp [polled] at woke
  | ok outcome =>
    obtain ⟨outgoing, world⟩ := outcome
    have after : AckLogged log (machine.after (.poll polls) world).world := logged.poll polled
    simp only [polled] at woke
    cases outgoing with
    | some packet =>
      cases woke
      have noisy : machine.isQuiet polls = false := by simp [Machine.isQuiet, polled]
      rw [Machine.startWrite_world]
      cases read with
      | packet packet =>
        simp only [AckLog.noteStep, noisy]
        exact after
      | _ => exact after
    | none =>
      have quiet : machine.isQuiet polls = true := by simp [Machine.isQuiet, polled]
      cases read with
      | packet packet =>
        simp only [AckLog.noteStep, quiet]
        exact after.handle woke
      | failed error =>
        cases woke
        exact after.runUntilDisconnect _
      | pending =>
        simp only at woke
        split at woke
        · cases woke
          exact after.runUntilDisconnect _
        · cases woke
          exact after

theorem written (logged : AckLogged log machine.world) {packet : Packet}
    (wrote : machine.written loop packet polls = .ok next) : AckLogged log next.world := by
  unfold Machine.written at wrote
  split at wrote
  · cases wrote
    exact logged
  · split at wrote
    · cases wrote
    · rename_i sent world polled
      cases wrote
      rw [Machine.startWrite_world]
      exact logged.poll polled
    · rename_i world polled
      cases wrote
      exact logged.poll polled

/-- The response to an attempt opens a connection or changes nothing. -/
theorem receiveResponse (logged : AckLogged log machine.world)
    (idle : machine.world.session.isConnected = false) (options : ConnectOptions)
    (response : Response) :
    AckLogged (if (machine.receiveResponse options response).world.session.isConnected then
      log.opened else log) (machine.receiveResponse options response).world := by
  have unchanged {after : Machine} (same : after.world = machine.world) :
      AckLogged (if after.world.session.isConnected then log.opened else log) after.world := by
    rw [same, idle]
    exact logged
  cases response with
  | packet packet =>
    cases packet with
    | connAck connack =>
      generalize attempted : machine.world.connack connack options.keepAlive.toKeepAlive
        options.authMethod options.properties.sessionExpiryInterval = outcome
      obtain ⟨world, result⟩ := outcome
      have reached :
          (machine.receiveResponse options (.packet (.connAck connack))).world = world := by
        simp only [Machine.receiveResponse, attempted]
        split <;> rfl
      rw [reached]
      exact logged.connack idle attempted
    | auth auth =>
      apply unchanged
      simp only [Machine.receiveResponse]
      split
      · split <;> rfl
      · rfl
    | _ => exact unchanged rfl
  | _ => exact unchanged rfl

theorem machineStep {event : MachineEvent} (logged : AckLogged log machine.world)
    (ordered : Ordered machine.world)
    (before : machine.phase.isRunning = machine.world.session.isConnected)
    (after : next.phase.isRunning = next.world.session.isConnected)
    (stepped : machine.step event = .ok next) :
    AckLogged (AckLog.noteStep machine event next log) next.world := by
  cases event with
  | app event =>
    cases stepped
    exact logged.app ordered event
  | elapse duration =>
    cases stepped
    exact logged.congr rfl rfl rfl rfl rfl
  | connect options sent =>
    simp only [Machine.step] at stepped
    split at stepped
    · cases stepped
      cases sent <;> exact logged
    · cases stepped
  | response response =>
    simp only [Machine.step] at stepped
    split at stepped
    · rename_i options waiting
      cases stepped
      have idle : machine.world.session.isConnected = false := by
        rw [← before, waiting]
        rfl
      simp only [AckLog.noteStep, after]
      exact logged.receiveResponse idle options response
    · cases stepped
  | continueAuth sent =>
    simp only [Machine.step] at stepped
    split at stepped
    · cases stepped
      exact logged
    · cases stepped
  | wake polls read expired =>
    simp only [Machine.step] at stepped
    split at stepped
    · split at stepped
      · exact logged.wake (Machine.liftPanic_ok stepped)
      · cases stepped
    · cases stepped
  | written sent polls =>
    simp only [Machine.step] at stepped
    split at stepped
    · split at stepped
      · split at stepped
        · exact logged.written (Machine.liftPanic_ok stepped)
        · cases stepped
          exact logged.runUntilDisconnect _
      · cases stepped
    · cases stepped
  | flushed sent =>
    simp only [Machine.step] at stepped
    split at stepped
    · split at stepped
      · cases stepped
        cases sent with
        | false => exact logged.runUntilDisconnect (.error .io)
        | true => exact logged
      · cases stepped
        exact logged.runUntilDisconnect _
      · cases stepped
    · cases stepped

end AckLogged

/-- What has been noted of an arrival whose token is held, and of the others. -/
private theorem AckLogged.held_eq {world : World} {log : AckLog} (logged : AckLogged log world)
    {received : InboundPublish} {arrival : Nat × PacketIdentifier}
    (noted : log.NotedAs received arrival) : received.answer.isSome = !world.held arrival := by
  cases held : world.held arrival with
  | true =>
    obtain ⟨token, kept, same⟩ := World.held_iff.mp held
    obtain ⟨other, located, unanswered⟩ := logged.held token kept
    rw [same, noted.2, Option.some.injEq] at located
    rw [located, unanswered]
    rfl
  | false =>
    obtain ⟨bound, _⟩ := List.getElem?_eq_some_iff.mp noted.2
    obtain ⟨token, member, same⟩ := List.mem_map.mp (logged.every arrival.1 bound)
    rcases List.mem_append.mp member with earlier | kept
    · obtain ⟨use, used, rfl⟩ := List.mem_map.mp earlier
      obtain ⟨other, located, chosen⟩ := logged.used use used
      rw [same, noted.2, Option.some.injEq] at located
      obtain ⟨answer, answers, _⟩ := Option.map_eq_some_iff.mp chosen
      rw [located, answers]
      rfl
    · exact absurd (World.held_iff.mpr ⟨token, kept, same⟩) (by simp [held])

/-- The arrivals up to the first one that is held. -/
private theorem AckLogged.takeWhile {world : World} {log : AckLog} (logged : AckLogged log world)
    (connection : Nat) :
    List.Forall₂ log.NotedAs
      ((log.on connection).takeWhile fun received => received.answer.isSome)
      ((world.arrivalsOn connection).takeWhile fun arrival => !world.held arrival) := by
  have arrivals := logged.arrivals connection
  generalize log.on connection = received, world.arrivalsOn connection = arrived at arrivals
  induction arrivals with
  | nil => exact .nil
  | cons noted _ ih =>
    rw [List.takeWhile_cons, List.takeWhile_cons, logged.held_eq noted]
    split
    · exact .cons noted ih
    · exact .nil

theorem ackLogged_machine {maxPkid : PacketIdentifier} {events : List MachineEvent}
    {machine : Machine} (ran : Machine.run (.new maxPkid) events = .ok machine)
    (few : machine.world.connections < 2 ^ 64) :
    AckLogged (.ofClient maxPkid events) machine.world := by
  refine (Transition.observe_always
    (fun machine log => Machine.Sound maxPkid machine ∧
      (machine.world.connections < 2 ^ 64 → AckLogged log machine.world)) ?_
    ⟨Machine.sound_new maxPkid, fun _ => .new maxPkid⟩ ran).2 few
  rintro machine log event next ⟨sound, logged⟩ stepped
  have later := sound.step stepped
  refine ⟨later, fun few => ?_⟩
  have grown := sound.connections_le stepped
  have before := Nat.lt_of_le_of_lt grown few
  exact (logged before).machineStep (ordered_run sound.ran before) sound.live later.live stepped

namespace Machine

/-- The deliveries and the tokens of the application are the same. -/
structure SameDeliveries (machine next : Machine) : Prop where
  tokens : next.world.tokens = machine.world.tokens
  uses : next.world.uses = machine.world.uses
  receiving : next.world.session.ch.iPubOpen = machine.world.session.ch.iPubOpen
  deliveries : next.world.deliveries = machine.world.deliveries
  links : next.world.links = machine.world.links

section

variable {machine middle next : Machine}

theorem SameDeliveries.trans (left : SameDeliveries machine middle)
    (right : SameDeliveries middle next) : SameDeliveries machine next where
  tokens := right.tokens.trans left.tokens
  uses := right.uses.trans left.uses
  receiving := right.receiving.trans left.receiving
  deliveries := right.deliveries.trans left.deliveries
  links := right.links.trans left.links

theorem written_sameDeliveries {loop : Loop} {packet : Packet} {polls : List Readiness}
    (wrote : machine.written loop packet polls = .ok next) : SameDeliveries machine next := by
  have polled {outgoing : Option Packet} {world : World}
      (polled : machine.world.poll polls = .ok (outgoing, world)) :
      SameDeliveries machine (machine.after (.poll polls) world) := by
    unfold World.poll at polled
    split at polled
    · cases polled
    · rename_i taken
      cases polled
      exact ⟨rfl, rfl, Session.nextOutgoingPacket_receiver taken, rfl, rfl⟩
  unfold written at wrote
  split at wrote
  · cases wrote
    exact ⟨rfl, rfl, rfl, rfl, rfl⟩
  · split at wrote
    · cases wrote
    · rename_i sent world taken
      cases wrote
      obtain ⟨tokens, uses, receiving, deliveries, links⟩ := polled taken
      constructor <;> rw [startWrite_world] <;> assumption
    · rename_i world taken
      cases wrote
      obtain ⟨tokens, uses, receiving, deliveries, links⟩ := polled taken
      exact ⟨tokens, uses, receiving, deliveries, links⟩

theorem step_sameDeliveries {polls : List Readiness}
    (stepped : machine.step (.written true polls) = .ok next) : SameDeliveries machine next := by
  simp only [step] at stepped
  split at stepped
  · split at stepped
    · exact written_sameDeliveries (liftPanic_ok stepped)
    · cases stepped
  · cases stepped

end

/-- While every write succeeds and every channel is awake, the loop writes one PUBACK for each
QoS 1 PUBLISH of the connection, in order and as its token chose, up to the first one whose
token the application still holds. Otherwise it flushes the DISCONNECT of the application. -/
theorem acks_drain (maxPkid : PacketIdentifier) (events : List MachineEvent) (machine : Machine)
    (ran : run (.new maxPkid) events = .ok machine) (few : machine.world.connections < 2 ^ 64)
    (log : AckLog) (observed : log = .ofClient maxPkid events)
    (loop : Loop) (packet : Packet) (running : machine.phase = .running loop)
    (writing : loop.await = .write packet) (turns : Nat)
    (enough : machine.world.session.ch.ackRx.length < turns) :
    ∃ count final, count ≤ machine.world.session.backlog machine.world.now + 1 ∧
      run machine (List.replicate count (.written true (awake turns))) = .ok final ∧
      ((∃ loop disconnect, final.phase = .running loop ∧
          loop.await = .flushDisconnect disconnect) ∨
        (final.world.pubAcksOn log.connections).map some =
          ((log.on log.connections).takeWhile fun received => received.answer.isSome).map
            InboundPublish.puback?) := by
  have bound : machine.unsent = machine.world.session.backlog machine.world.now + 1 := by
    simp [unsent, running, writing]
  have initial : Draining maxPkid turns machine ∧ SameDeliveries machine machine :=
    ⟨⟨⟨events, ran⟩, few, enough, .inr ⟨loop, packet, running, writing⟩⟩, rfl, rfl, rfl, rfl, rfl⟩
  rw [← bound]
  have progress : ∀ middle, Draining maxPkid turns middle ∧ SameDeliveries machine middle →
      ((Draining maxPkid turns middle ∧ SameDeliveries machine middle) ∧ middle.Drains) ∨
        ∃ next, middle.step (.written true (awake turns)) = .ok next ∧
          (Draining maxPkid turns next ∧ SameDeliveries machine next) ∧
          next.unsent < middle.unsent := by
    intro middle holds
    rcases holds.1.progress with drained | ⟨next, stepped, draining, lower⟩
    · exact .inl ⟨holds, drained⟩
    · exact .inr ⟨next, stepped, ⟨draining, holds.2.trans (step_sameDeliveries stepped)⟩, lower⟩
  obtain ⟨count, final, shorter, drained, ⟨draining, same⟩, loop, goes, stage⟩ :=
    Transition.exec_drains progress initial
  refine ⟨count, final, shorter, drained, ?_⟩
  rcases stage with ⟨-, quiet⟩ | ⟨disconnect, flushing⟩
  · right
    obtain ⟨earlier, reached⟩ := draining.reached
    have sound := sound_run reached
    have live : final.world.session.isConnected = true := by
      rw [← sound.live, goes]
      rfl
    have answered := (World.awaits_run sound.ran draining.few).answered
      (ordered_run sound.ran draining.few) live (quiet.ack rfl) quiet.turn
    have logged : AckLogged log final.world := by
      rw [observed]
      exact (ackLogged_machine ran few).congr same.links same.receiving same.deliveries
        same.tokens same.uses
    rw [logged.connections]
    exact logged.answered answered (logged.takeWhile final.world.connections)
  · exact .inl ⟨loop, disconnect, goes, flushing⟩

/-- Two PUBLISHes arrive. The application answers the first one and holds the token of the
second. A ping is being written. -/
def oneOfTwo : List MachineEvent :=
  let publish (pkid : PacketIdentifier) : Packet :=
    .publish ⟨⟨⟨⟨[0, 1, 97]⟩⟩⟩, .atLeastOnce pkid false, false, [], {}⟩
  [.connect { cleanStart := true, keepAlive := .infinite } true,
    .response (.packet (.connAck ⟨.success false, {}⟩)),
    .wake [] (.packet (publish (.add .one 1))) false, .wake [] (.packet (publish .one)) false,
    .app .ping, .wake [{}] .pending false, .app (.acknowledge 0 .notAuthorized {})]

theorem acks_drain_oneOfTwo :
    ∃ machine count final, run (.new .one) oneOfTwo = .ok machine ∧ count ≤ 2 ∧
      run machine (List.replicate count (.written true (awake 2))) = .ok final ∧
      ((∃ loop disconnect, final.phase = .running loop ∧
          loop.await = .flushDisconnect disconnect) ∨
        (final.world.pubAcksOn 1).map some = [some ⟨.add .one 1, .notAuthorized, {}⟩]) := by
  have reached : ∃ machine loop, run (.new .one) oneOfTwo = .ok machine ∧
      machine.world.connections = 1 ∧ machine.phase = .running loop ∧
      loop.await = .write .pingReq ∧ machine.world.session.ch.ackRx.length = 1 ∧
      machine.world.session.backlog machine.world.now = 1 :=
    ⟨_, _, rfl, rfl, rfl, rfl, rfl, rfl⟩
  have noted : ((AckLog.ofClient .one oneOfTwo).on 1).takeWhile
      (fun received => received.answer.isSome) =
        [⟨1, .add .one 1, some (.notAuthorized, {})⟩] := by decide
  obtain ⟨machine, loop, ran, first, running, writing, queue, left⟩ := reached
  obtain ⟨count, final, bound, drained, answered⟩ := acks_drain .one oneOfTwo machine ran
    (by omega) _ rfl loop .pingReq running writing 2 (by omega)
  have one : (AckLog.ofClient .one oneOfTwo).connections = 1 := rfl
  rw [one, noted] at answered
  exact ⟨machine, count, final, ran, by omega, drained, answered⟩

end Machine

end MqttClient.Client
