import MqttClient.Client.QoS1

/-! Requests on their way from the application to the network. -/

namespace MqttClient.Client

open MqttClient.Proto

/-- What a request asks for, without the identifier and the notifier of the session. -/
inductive Submission where
  | publish (topicName : Topic) (payload : Bytes) (retain : Bool)
      (otherProperties : PublishOtherProperties)
  | subscribe (subscribeTo : List SubscribeTo) (otherProperties : SubscribeOtherProperties)
  | unsubscribe (unsubscribeFrom : List Filter) (otherProperties : UnsubscribeOtherProperties)
  deriving DecidableEq

/-- The channels whose requests wait for a packet identifier. -/
inductive Lane where
  | publish
  | subscription
  deriving DecidableEq

def Submission.lane : Submission → Lane
  | .publish _ _ _ _ => .publish
  | .subscribe _ _ => .subscription
  | .unsubscribe _ _ => .subscription

def AppEvent.submission : AppEvent → Option Submission
  | .publishQoS1 topicName payload retain otherProperties =>
    some (.publish topicName payload retain otherProperties)
  | .subscribe topicFilter options otherProperties =>
    some (.subscribe [⟨topicFilter, options⟩] otherProperties)
  | .unsubscribe topicFilter otherProperties => some (.unsubscribe [topicFilter] otherProperties)
  | _ => none

def Event.submission : Event → Option Submission
  | .app event => event.submission
  | _ => none

/-- What a packet on the network asks for. A QoS 1 PUBLISH that is sent again has its DUP
flag set and asks for nothing new. -/
def Packet.submission : Packet → Option Submission
  | .publish publish =>
    match publish.packetIdentifierDupQoS with
    | .atLeastOnce _ false =>
      some (.publish publish.topicName publish.payload publish.retain publish.otherProperties)
    | _ => none
  | .subscribe subscribe => some (.subscribe subscribe.subscribeTo subscribe.otherProperties)
  | .unsubscribe unsubscribe =>
    some (.unsubscribe unsubscribe.unsubscribeFrom unsubscribe.otherProperties)
  | _ => none

def PublishRequestQoS1QoS2.submission : PublishRequestQoS1QoS2 → Submission
  | .publishQoS1 request =>
    .publish request.topicName request.payload request.retain request.otherProperties
  | .publishQoS2 request =>
    .publish request.topicName request.payload request.retain request.otherProperties

def SubscriptionRequest.submission : SubscriptionRequest → Submission
  | .subscribe _ topicFilter options otherProperties =>
    .subscribe [⟨topicFilter, options⟩] otherProperties
  | .unsubscribe _ topicFilter otherProperties => .unsubscribe [topicFilter] otherProperties

namespace Lane

/-- Those of a lane. -/
def of (lane : Lane) (submissions : List Submission) : List Submission :=
  submissions.filter (fun submission => decide (submission.lane = lane))

/-- What the application submitted, in order. -/
def accepted (lane : Lane) (events : List Event) : List Submission :=
  lane.of (events.filterMap Event.submission)

/-- What was sent for the first time, in order. -/
def emitted (lane : Lane) (world : World) : List Submission :=
  lane.of (world.emissions.filterMap fun emission => Packet.submission emission.outgoing.packet)

/-- What waits in the channel, oldest first. -/
def waiting (lane : Lane) (session : Session) : List Submission :=
  match lane with
  | .publish => session.ch.oPubQ12Rx.map PublishRequestQoS1QoS2.submission
  | .subscription => session.ch.subRx.map SubscriptionRequest.submission

variable {lane : Lane} {world next : World} {session after : Session}

@[simp] theorem of_append (left right : List Submission) :
    lane.of (left ++ right) = lane.of left ++ lane.of right := List.filter_append left right

theorem accepted_snoc (events : List Event) (event : Event) :
    lane.accepted (events ++ [event]) =
      lane.accepted events ++ lane.of event.submission.toList := by
  simp only [accepted, List.filterMap_append, of_append]
  congr 2

/-- A packet that opens no operation asks for nothing. -/
theorem submission_eq_none {packet : Packet} (plain : Packet.operationIdentifier packet = none) :
    Packet.submission packet = none := by
  cases packet with
  | publish publish =>
    simp only [Packet.operationIdentifier, Packet.submission] at plain ⊢
    split at plain <;> simp_all
  | subscribe subscribe => cases plain
  | unsubscribe unsubscribe => cases plain
  | _ => rfl

theorem submission_setDup (publish : Publish) :
    Packet.submission (Packet.setDup (.publish publish)) = none := by
  cases qos : publish.packetIdentifierDupQoS <;>
    simp [Packet.setDup, Publish.setDup, Packet.submission, qos]

theorem waiting_congr (publishes : after.ch.oPubQ12Rx = session.ch.oPubQ12Rx)
    (subscriptions : after.ch.subRx = session.ch.subRx) :
    lane.waiting after = lane.waiting session := by
  cases lane with
  | publish => simp only [waiting, publishes]
  | subscription => simp only [waiting, subscriptions]

theorem emitted_afterPoll (polls : List Readiness) (outgoing : Option Outgoing)
    (session : Session) (fired : List Firing) :
    lane.emitted (world.afterPoll polls outgoing session fired) =
      lane.emitted world ++ lane.of (outgoing.bind fun sent => Packet.submission sent.packet).toList := by
  simp only [emitted, World.afterPoll, List.filterMap_append, of_append]
  cases outgoing with
  | none => rfl
  | some sent => cases submitted : Packet.submission sent.packet <;> simp [submitted]

end Lane

/-- What waits to be sent again asks for nothing new. -/
def Resending (session : Session) : Prop :=
  ∀ packet ∈ session.inflight.packetsToReplay, Packet.submission (Packet.setDup packet) = none

namespace Resending

variable {session after : Session}

private theorem shrink (resending : Resending session)
    (fewer : after.inflight.packetsToReplay ⊆ session.inflight.packetsToReplay) :
    Resending after :=
  fun packet member => resending packet (fewer member)

private theorem ended (session : Session) (interval : SessionExpiryInterval) :
    Resending (session.ended interval).1 := by
  have listed : ∀ packet ∈ Session.replayList session.inflight,
      Packet.submission (Packet.setDup packet) = none := by
    intro packet member
    rcases List.mem_append.mp member with pubrel | publish
    · obtain ⟨entry, _, rfl⟩ := List.mem_map.mp pubrel
      rfl
    · obtain ⟨entry, _, rfl⟩ := List.mem_map.mp publish
      exact Lane.submission_setDup _
  intro packet member
  simp only [Session.ended, Session.expireIfZero] at member
  split at member
  · cases member
  · exact listed packet member

theorem step {world next : World} {event : Event} (resending : Resending world.session)
    (stepped : world.step event = .ok next) : Resending next.session := by
  cases World.step_cases stepped with
  | app event =>
    obtain ⟨ch, same, _⟩ := world.app_session event
    rw [same]
    exact resending
  | elapse duration => exact resending
  | refused => exact resending
  | established connack keepAlive authMethod interval sessionPresent idle code =>
    cases sessionPresent with
    | true => exact resending
    | false =>
      intro packet member
      cases member
  | polled polls outgoing session fired live polled =>
    cases Session.nextOutgoingPacket_effect polled with
    | quiet _ _ _ _ frame => exact resending.shrink (frame.packetsToReplay ▸ fun _ => id)
    | replay packet rest _ head frame =>
      refine resending.shrink ?_
      rw [World.afterPoll, World.record, frame.packetsToReplay, head]
      exact fun _ => List.mem_cons_of_mem _
    | subscribe _ _ _ _ _ _ _ _ _ _ _ frame =>
      exact resending.shrink (frame.packetsToReplay ▸ fun _ => id)
    | unsubscribe _ _ _ _ _ _ _ _ _ _ frame =>
      exact resending.shrink (frame.packetsToReplay ▸ fun _ => id)
    | publishQoS1 _ _ _ _ _ _ _ _ frame =>
      exact resending.shrink (frame.packetsToReplay ▸ fun _ => id)
    | publishQoS2 _ _ _ _ _ _ _ _ frame =>
      exact resending.shrink (frame.packetsToReplay ▸ fun _ => id)
  | acked ack handled live completed =>
    refine resending.shrink ?_
    rw [World.record, (Session.completeInflight_spec completed).1]
    cases ack <;> exact fun _ => id
  | delivered publish next live delivered =>
    obtain ⟨ackRx, inApplication, same⟩ := World.incomingPublish_session delivered
    rw [same]
    exact resending
  | authenticated auth live =>
    obtain ⟨exchange, same⟩ := (world.session.incomingAuth_frame auth).1
    rw [World.record, same]
    exact resending
  | ponged live =>
    obtain ⟨rest, same⟩ := (world.session.incomingPingresp_frame world.now).1
    rw [World.record, same]
    exact resending
  | disconnected disconnection live =>
    rw [world.disconnected_eq]
    exact ended _ _

end Resending

namespace Lane

variable {lane : Lane} {world next : World} {session after : Session}

/-- A poll moves the oldest request of one lane to the network, or none. -/
theorem poll (lane : Lane) {outgoing : Option Outgoing} {fired : List Firing}
    (only : QoS1Only session) (resending : Resending session)
    (effect : Session.PollEffect session outgoing after fired) :
    lane.of (outgoing.bind fun sent => Packet.submission sent.packet).toList ++
      lane.waiting after = lane.waiting session := by
  cases effect with
  | quiet outgoing after fired drained frame silent plain =>
    have nothing : (outgoing.bind fun sent => Packet.submission sent.packet) = none := by
      cases outgoing with
      | none => rfl
      | some sent => exact submission_eq_none (plain sent rfl).2.2
    rw [nothing]
    exact waiting_congr frame.oPubQ12Rx frame.subRx
  | replay packet rest after head frame =>
    have nothing : Packet.submission (Packet.setDup packet) = none :=
      resending packet (head ▸ List.mem_cons_self)
    simp only [Option.bind_some, nothing]
    exact waiting_congr frame.oPubQ12Rx frame.subRx
  | subscribe notifier topicFilter options otherProperties rest pkid pool after drained head leased
      frame =>
    rw [waiting_congr frame.oPubQ12Rx frame.subRx]
    cases lane with
    | publish => rfl
    | subscription => simp [waiting, head, of, Packet.submission, Submission.lane,
        SubscriptionRequest.submission]
  | unsubscribe notifier topicFilter otherProperties rest pkid pool after drained head leased
      frame =>
    rw [waiting_congr frame.oPubQ12Rx frame.subRx]
    cases lane with
    | publish => rfl
    | subscription => simp [waiting, head, of, Packet.submission, Submission.lane,
        SubscriptionRequest.submission]
  | publishQoS1 request rest pkid pool after drained head leased frame =>
    rw [waiting_congr frame.oPubQ12Rx frame.subRx]
    cases lane with
    | subscription => rfl
    | publish => simp [waiting, head, of, Packet.submission, Submission.lane,
        PublishRequestQoS1QoS2.submission, Session.PublishRequest.packet]
  | publishQoS2 request rest pkid pool after drained head leased frame =>
    obtain ⟨publish, same⟩ := only.requests (.publishQoS2 request) (head ▸ List.mem_cons_self)
    cases same

/-- A request of the application goes to the end of its channel. -/
theorem waiting_app (world : World) (event : AppEvent) :
    lane.waiting (world.app event).session =
      lane.waiting world.session ++ lane.of event.submission.toList := by
  have used : ∀ serial reasonCode otherProperties,
      lane.waiting (world.useToken serial reasonCode otherProperties).session =
        lane.waiting world.session ++ lane.of [] := by
    intro serial reasonCode otherProperties
    rw [show lane.of [] = [] from rfl, List.append_nil]
    unfold World.useToken
    split
    · rfl
    · exact waiting_congr rfl rfl
  cases event with
  | publishQoS1 topicName payload retain otherProperties =>
    cases lane <;> simp [World.app, World.submit, World.withChannels, waiting, of,
      AppEvent.submission, Submission.lane, PublishRequestQoS1QoS2.submission]
  | subscribe topicFilter options otherProperties =>
    cases lane <;> simp [World.app, World.submit, World.withChannels, waiting, of,
      AppEvent.submission, Submission.lane, SubscriptionRequest.submission]
  | unsubscribe topicFilter otherProperties =>
    cases lane <;> simp [World.app, World.submit, World.withChannels, waiting, of,
      AppEvent.submission, Submission.lane, SubscriptionRequest.submission]
  | acknowledge serial reasonCode otherProperties => exact used _ _ _
  | dropToken serial => exact used _ _ _
  | disconnect disconnect =>
    refine (waiting_congr ?_ ?_).trans (List.append_nil _).symm <;>
    · simp only [World.app, World.withChannels]
      split <;> rfl
  | dropDisconnectHandle =>
    refine (waiting_congr ?_ ?_).trans (List.append_nil _).symm <;>
    · simp only [World.app, World.withChannels]
      split <;> rfl
  | _ => exact (waiting_congr rfl rfl).trans (List.append_nil _).symm

/-- One step: what is accepted goes to the end of what was emitted or waits. -/
theorem step {event : Event} (only : QoS1Only world.session) (resending : Resending world.session)
    (stepped : world.step event = .ok next) :
    lane.emitted next ++ lane.waiting next.session =
      lane.emitted world ++ lane.waiting world.session ++ lane.of event.submission.toList := by
  have quiet : next.emissions = world.emissions →
      lane.waiting next.session = lane.waiting world.session → event.submission = none →
      lane.emitted next ++ lane.waiting next.session =
        lane.emitted world ++ lane.waiting world.session ++ lane.of event.submission.toList := by
    intro emissions waits nothing
    rw [waits, nothing, emitted, emissions]
    exact (List.append_nil _).symm
  cases World.step_cases stepped with
  | app event =>
    rw [waiting_app, emitted, (world.app_history event).1, List.append_assoc]
    rfl
  | elapse duration => exact quiet rfl rfl rfl
  | refused => exact quiet rfl rfl rfl
  | established connack keepAlive authMethod interval sessionPresent idle code =>
    refine quiet rfl ?_ rfl
    cases sessionPresent <;> exact waiting_congr rfl rfl
  | polled polls outgoing session fired live polled =>
    rw [emitted_afterPoll, List.append_assoc]
    have moved := lane.poll only resending (Session.nextOutgoingPacket_effect polled)
    exact (congrArg (lane.emitted world ++ ·) moved).trans (List.append_nil _).symm
  | acked ack handled live completed =>
    refine quiet rfl ?_ rfl
    rw [World.record, (Session.completeInflight_spec completed).1]
    exact waiting_congr rfl rfl
  | delivered publish next live delivered =>
    obtain ⟨ackRx, inApplication, same⟩ := World.incomingPublish_session delivered
    refine quiet (World.incomingPublish_history delivered).1 ?_ rfl
    rw [same]
    exact waiting_congr rfl rfl
  | authenticated auth live =>
    refine quiet rfl ?_ rfl
    obtain ⟨exchange, same⟩ := (world.session.incomingAuth_frame auth).1
    rw [World.record, same]
    exact waiting_congr rfl rfl
  | ponged live =>
    refine quiet rfl ?_ rfl
    obtain ⟨rest, same⟩ := (world.session.incomingPingresp_frame world.now).1
    rw [World.record, same]
    exact waiting_congr rfl rfl
  | disconnected disconnection live =>
    rw [world.disconnected_eq] at quiet ⊢
    refine quiet rfl ?_ rfl
    simp only [World.record, Session.ended, Session.expireIfZero]
    split <;> exact waiting_congr rfl rfl

end Lane

/-- In every run, what each channel accepted is what was sent for the first time, in the
same order, followed by what still waits in the channel. -/
theorem emitted_isPrefix_accepted (maxPkid : PacketIdentifier) (events : List Event)
    (final : World) (ran : World.run (.new maxPkid) events = .ok final) (lane : Lane) :
    lane.emitted final <+: lane.accepted events ∧
      lane.accepted events = lane.emitted final ++ lane.waiting final.session := by
  have whole : lane.accepted events = lane.emitted final ++ lane.waiting final.session := by
    refine (Transition.exec_induction
      (fun events world => QoS1Only world.session ∧ Resending world.session ∧
        lane.accepted events = lane.emitted world ++ lane.waiting world.session)
      ⟨.new maxPkid, by simp [Resending, World.new, Session.new], by cases lane <;> rfl⟩ ?_
      (Transition.along_of_forall (fun _ _ => trivial) _ _) ran).2.2
    rintro events world event next - ⟨only, resending, whole⟩ - stepped
    refine ⟨only.step stepped, resending.step stepped, ?_⟩
    rw [Lane.accepted_snoc, whole, Lane.step only resending stepped]
  exact ⟨⟨_, whole.symm⟩, whole⟩

/-- Two publishes and one identifier: the second publish waits, across a reconnect, until
the first one is acknowledged. -/
def exhaustedRequests : List Event :=
  let publish (byte : UInt8) : Event :=
    .app (.publishQoS1 ⟨⟨⟨[0, 1, 97]⟩⟩⟩ [byte] false {})
  [.connack ⟨.success false, { sessionExpiryInterval := some .infinite }⟩ .infinite none
      .infinite, publish 1, publish 2, .poll [{}], .poll [{}], .disconnected .transport,
    .connack ⟨.success true, {}⟩ .infinite none .infinite, .poll [{}], .poll [{}],
    .incoming (.ack (.pubAck ⟨.one, .success, {}⟩)), .poll [{}]]

theorem emitted_exhaustedRequests :
    ∃ final, World.run (.new .one) exhaustedRequests = .ok final ∧
      final.emissions.length = 3 ∧ (Lane.publish.emitted final).length = 2 ∧
      Lane.publish.emitted final <+: Lane.publish.accepted exhaustedRequests := by
  have ran : ∃ final, World.run (.new .one) exhaustedRequests = .ok final ∧
      final.emissions.length = 3 ∧ (Lane.publish.emitted final).length = 2 :=
    ⟨_, rfl, by decide, by decide⟩
  obtain ⟨final, ran, sent, first⟩ := ran
  exact ⟨final, ran, sent, first,
    (emitted_isPrefix_accepted .one exhaustedRequests final ran .publish).1⟩

end MqttClient.Client
