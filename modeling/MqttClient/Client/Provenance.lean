import MqttClient.Client.Replay

/-! Where the packets of a session come from. What holds of every packet that is built from
a submitted request holds of every such packet that is kept, sent or sent again. -/

namespace MqttClient.Client

open MqttClient.Proto

/-- The packets that a session builds from a request of the application: under any packet
identifier, and as long as a PUBLISH is in flight with either DUP flag. -/
inductive AppEvent.Builds : AppEvent → Packet → Prop where
  | publishQoS0 (topicName : Topic) (payload : Bytes) (retain : Bool)
      (otherProperties : PublishOtherProperties) :
      Builds (.publishQoS0 topicName payload retain otherProperties)
        (.publish ⟨topicName, .atMostOnce, retain, payload, otherProperties⟩)
  | publishQoS1 (topicName : Topic) (payload : Bytes) (retain : Bool)
      (otherProperties : PublishOtherProperties) (pkid : PacketIdentifier) (dup : Bool) :
      Builds (.publishQoS1 topicName payload retain otherProperties)
        (.publish ⟨topicName, .atLeastOnce pkid dup, retain, payload, otherProperties⟩)
  | subscribe (topicFilter : Filter) (options : SubscribeOptions)
      (otherProperties : SubscribeOtherProperties) (pkid : PacketIdentifier) :
      Builds (.subscribe topicFilter options otherProperties)
        (.subscribe ⟨pkid, [⟨topicFilter, options⟩], otherProperties⟩)
  | unsubscribe (topicFilter : Filter) (otherProperties : UnsubscribeOtherProperties)
      (pkid : PacketIdentifier) :
      Builds (.unsubscribe topicFilter otherProperties)
        (.unsubscribe ⟨pkid, [topicFilter], otherProperties⟩)

def AppEvent.isRequest : AppEvent → Bool
  | .publishQoS0 _ _ _ _ | .publishQoS1 _ _ _ _ | .subscribe _ _ _ | .unsubscribe _ _ => true
  | _ => false

theorem AppEvent.Builds.isRequest {event : AppEvent} {packet : Packet} (built : event.Builds packet) :
    event.isRequest = true := by
  cases built <;> rfl

/-- A packet of a kind that requests are built into. -/
def Packet.isRequest : Packet → Bool
  | .publish _ | .subscribe _ | .unsubscribe _ => true
  | _ => false

/-- The packet of a subscription request. -/
def SubscriptionRequest.packet (request : SubscriptionRequest) (pkid : PacketIdentifier) : Packet :=
  match request with
  | .subscribe _ topicFilter options otherProperties =>
    .subscribe ⟨pkid, [⟨topicFilter, options⟩], otherProperties⟩
  | .unsubscribe _ topicFilter otherProperties => .unsubscribe ⟨pkid, [topicFilter], otherProperties⟩

/-- Whatever the session can still send of requests satisfies `good`. -/
structure Holds (good : Packet → Prop) (session : Session) : Prop where
  publishQoS0 : ∀ request ∈ session.ch.oPubQ0Rx,
    good (.publish (Session.PublishRequest.packet request .atMostOnce))
  publishQoS1 : ∀ request, .publishQoS1 request ∈ session.ch.oPubQ12Rx → ∀ pkid dup,
    good (.publish (Session.PublishRequest.packet request (.atLeastOnce pkid dup)))
  subscriptions : ∀ request ∈ session.ch.subRx, ∀ pkid,
    good (SubscriptionRequest.packet request pkid)
  inflight : ∀ entry ∈ session.inflight.publishQoS1.values,
    good (.publish entry.1) ∧ good (.publish (Publish.setDup entry.1))
  replays : ∀ packet ∈ session.inflight.packetsToReplay, good (Packet.setDup packet)

namespace Holds

variable {good : Packet → Prop} {session after : Session} {world next : World}

theorem new (maxPkid : PacketIdentifier) : Holds good (.new maxPkid) where
  publishQoS0 := by simp [Session.new]
  publishQoS1 := by simp [Session.new]
  subscriptions := by simp [Session.new]
  inflight := by simp [Session.new, IndexMap.values]
  replays := by simp [Session.new]

theorem shrink (holds : Holds good session) (qos0 : after.ch.oPubQ0Rx ⊆ session.ch.oPubQ0Rx)
    (qos1 : after.ch.oPubQ12Rx ⊆ session.ch.oPubQ12Rx)
    (subscriptions : after.ch.subRx ⊆ session.ch.subRx)
    (inflight : after.inflight.publishQoS1.values ⊆ session.inflight.publishQoS1.values)
    (replays : after.inflight.packetsToReplay ⊆ session.inflight.packetsToReplay) :
    Holds good after where
  publishQoS0 request member := holds.publishQoS0 request (qos0 member)
  publishQoS1 request member := holds.publishQoS1 request (qos1 member)
  subscriptions request member := holds.subscriptions request (subscriptions member)
  inflight entry member := holds.inflight entry (inflight member)
  replays packet member := holds.replays packet (replays member)

/-- Nothing that requests leave behind has changed. -/
theorem congr (holds : Holds good session) (qos0 : after.ch.oPubQ0Rx = session.ch.oPubQ0Rx)
    (qos1 : after.ch.oPubQ12Rx = session.ch.oPubQ12Rx)
    (subscriptions : after.ch.subRx = session.ch.subRx)
    (inflight : after.inflight.publishQoS1 = session.inflight.publishQoS1)
    (replays : after.inflight.packetsToReplay = session.inflight.packetsToReplay) :
    Holds good after :=
  holds.shrink (qos0 ▸ List.Subset.refl _) (qos1 ▸ List.Subset.refl _)
    (subscriptions ▸ List.Subset.refl _) (inflight ▸ List.Subset.refl _)
    (replays ▸ List.Subset.refl _)

/-- A request that is submitted waits in its channel. -/
theorem app (holds : Holds good world.session) {event : AppEvent}
    (built : ∀ packet, event.Builds packet → good packet) :
    Holds good (world.app event).session := by
  have used : ∀ serial reasonCode otherProperties,
      Holds good (world.useToken serial reasonCode otherProperties).session := by
    intro serial reasonCode otherProperties
    unfold World.useToken
    split
    · exact holds
    · exact holds.congr rfl rfl rfl rfl rfl
  cases event with
  | publishQoS0 topicName payload retain otherProperties =>
    refine ⟨?_, holds.publishQoS1, holds.subscriptions, holds.inflight, holds.replays⟩
    intro request member
    rcases List.mem_append.mp member with queued | new
    · exact holds.publishQoS0 request queued
    · rw [List.mem_singleton.mp new]
      exact built _ (.publishQoS0 topicName payload retain otherProperties)
  | publishQoS1 topicName payload retain otherProperties =>
    refine ⟨holds.publishQoS0, ?_, holds.subscriptions, holds.inflight, holds.replays⟩
    intro request member pkid dup
    rcases List.mem_append.mp member with queued | new
    · exact holds.publishQoS1 request queued pkid dup
    · cases List.mem_singleton.mp new
      exact built _ (.publishQoS1 topicName payload retain otherProperties pkid dup)
  | subscribe topicFilter options otherProperties =>
    refine ⟨holds.publishQoS0, holds.publishQoS1, ?_, holds.inflight, holds.replays⟩
    intro request member pkid
    rcases List.mem_append.mp member with queued | new
    · exact holds.subscriptions request queued pkid
    · rw [List.mem_singleton.mp new]
      exact built _ (.subscribe topicFilter options otherProperties pkid)
  | unsubscribe topicFilter otherProperties =>
    refine ⟨holds.publishQoS0, holds.publishQoS1, ?_, holds.inflight, holds.replays⟩
    intro request member pkid
    rcases List.mem_append.mp member with queued | new
    · exact holds.subscriptions request queued pkid
    · rw [List.mem_singleton.mp new]
      exact built _ (.unsubscribe topicFilter otherProperties pkid)
  | acknowledge serial reasonCode otherProperties => exact used _ _ _
  | dropToken serial => exact used _ _ _
  | disconnect disconnect =>
    simp only [World.app, World.withChannels]
    split <;> exact holds.congr rfl rfl rfl rfl rfl
  | dropDisconnectHandle =>
    simp only [World.app, World.withChannels]
    split <;> exact holds.congr rfl rfl rfl rfl rfl
  | _ => exact holds.congr rfl rfl rfl rfl rfl

theorem ofAckFrame (holds : Holds good session) (frame : Session.AckFrame session after) :
    Holds good after := by
  obtain ⟨_, _, _, rfl⟩ := frame.same
  exact holds.congr rfl rfl rfl rfl rfl

/-- A request that is taken leaves the others behind. -/
private theorem taken {request : OutgoingPacketRequest} (holds : Holds good session)
    (requested : Session.Taken session request after) : Holds good after := by
  have rest : ∀ {α : Type} {queue tail : List α} {head : α}, queue = head :: tail → tail ⊆ queue :=
    fun split => split ▸ List.subset_cons_self _ _
  have same : ∀ {α : Type} (items : List α), items ⊆ items := List.Subset.refl
  cases requested with
  | disconnect _ _ frame => exact holds.ofAckFrame frame
  | ack _ _ frame _ => exact holds.ofAckFrame frame
  | auth _ _ _ => exact holds.congr rfl rfl rfl rfl rfl
  | ping _ _ _ => exact holds.congr rfl rfl rfl rfl rfl
  | subscription _ _ _ _ head _ =>
    exact holds.shrink (same _) (same _) (rest head) (same _) (same _)
  | publishQoS0 _ _ head => exact holds.shrink (rest head) (same _) (same _) (same _) (same _)
  | publish _ _ _ _ head _ => exact holds.shrink (same _) (rest head) (same _) (same _) (same _)
  | timer => exact holds

/-- The packet of a request that is taken, and what it leaves in flight. -/
private theorem issued {taken : Session} {now : Nat} {request : OutgoingPacketRequest}
    {packet : Packet} {fired : List Firing} (holds : Holds good session)
    (only : QoS1Only session) (requested : Session.Taken session request taken)
    (issued : taken.issue now request = .ok (packet, after, fired)) :
    Holds good after ∧ (Packet.isRequest packet = true → good packet) := by
  have kept := holds.taken requested
  have other {unasked : Packet} (no : Packet.isRequest unasked = false) :
      Packet.isRequest unasked = true → good unasked := by
    intro yes
    rw [no] at yes
    contradiction
  cases requested with
  | disconnect disconnect _ _ =>
    cases issued
    exact ⟨kept, other rfl⟩
  | ack acknowledgement _ _ member =>
    obtain ⟨notifier, puback, epoch, rfl⟩ := only.acks acknowledgement member
    cases issued
    exact ⟨kept, other rfl⟩
  | auth reauth rest head =>
    simp only [Session.issue] at issued
    split at issued
    · cases issued
      exact ⟨kept.congr rfl rfl rfl rfl rfl, other rfl⟩
    · cases issued
  | ping notifier rest head =>
    cases issued
    exact ⟨kept.congr rfl rfl rfl rfl rfl, other rfl⟩
  | subscription subscription rest pkid pool head leased =>
    have sent := holds.subscriptions subscription (head ▸ List.mem_cons_self) pkid
    cases subscription with
    | subscribe notifier topicFilter options otherProperties =>
      cases issued
      exact ⟨kept.congr rfl rfl rfl rfl rfl, fun _ => sent⟩
    | unsubscribe notifier topicFilter otherProperties =>
      cases issued
      exact ⟨kept.congr rfl rfl rfl rfl rfl, fun _ => sent⟩
  | publishQoS0 publish rest head =>
    have sent := holds.publishQoS0 publish (head ▸ List.mem_cons_self)
    cases issued
    exact ⟨kept, fun _ => sent⟩
  | publish publish rest pkid pool head leased =>
    have front := head ▸ List.mem_cons_self
    obtain ⟨publish, rfl⟩ := only.requests publish front
    have sent := holds.publishQoS1 publish front pkid
    cases issued
    refine ⟨⟨kept.publishQoS0, kept.publishQoS1, kept.subscriptions, ?_, kept.replays⟩,
      fun _ => sent false⟩
    intro entry member
    rcases IndexMap.mem_values_insert member with rfl | earlier
    · exact ⟨sent false, sent true⟩
    · exact kept.inflight entry earlier
  | timer =>
    cases issued
    exact ⟨kept.congr rfl rfl rfl rfl rfl, other rfl⟩

theorem poll {now : Nat} {polls : List Readiness} {outgoing : Option Outgoing}
    {fired : List Firing} (holds : Holds good session) (only : QoS1Only session)
    (polled : session.nextOutgoingPacket now polls = .ok (outgoing, after, fired)) :
    Holds good after ∧
      ∀ sent ∈ outgoing, Packet.isRequest sent.packet = true → good sent.packet := by
  cases Session.nextOutgoingPacket_cases polled with
  | replay packet rest head =>
    have same : ∀ {α : Type} (items : List α), items ⊆ items := List.Subset.refl
    refine ⟨holds.shrink (same _) (same _) (same _) (same _) ?_, ?_⟩
    · rw [head]
      exact List.subset_cons_self _ _
    · intro sent member _
      cases member
      exact holds.replays packet (head ▸ List.mem_cons_self)
  | pending _ drained frame =>
    refine ⟨holds.ofAckFrame frame, ?_⟩
    intro sent member
    cases member
  | issued middle taken after request packet fired drained frame requested issued =>
    obtain ⟨kept, sent⟩ :=
      (holds.ofAckFrame frame).issued (only.ofAckFrame frame) requested issued
    refine ⟨kept.congr rfl rfl rfl rfl rfl, ?_⟩
    intro other member
    cases member
    exact sent

/-- When a connection ends, what is in flight waits to be sent again. -/
theorem ended (holds : Holds good session) (only : QoS1Only session)
    (interval : SessionExpiryInterval) : Holds good (session.ended interval).1 := by
  have closed : Holds good session.disconnected.1 := by
    refine ⟨holds.publishQoS0, holds.publishQoS1, holds.subscriptions, holds.inflight, ?_⟩
    intro packet member
    have listed : packet ∈ Session.replayList session.inflight := member
    rw [only.replayList] at listed
    obtain ⟨entry, held, rfl⟩ := List.mem_map.mp listed
    rw [Packet.setDup_setDup]
    exact (holds.inflight entry held).2
  simp only [Session.ended, Session.expireIfZero]
  split
  · refine ⟨closed.publishQoS0, closed.publishQoS1, closed.subscriptions, ?_, ?_⟩
    · intro entry member
      cases member
    · intro packet member
      cases member
  · exact closed.congr rfl rfl rfl rfl rfl

theorem step {event : Event} (holds : Holds good world.session)
    (only : QoS1Only world.session)
    (built : ∀ request, event = .app request → ∀ packet, request.Builds packet → good packet)
    (stepped : world.step event = .ok next) : Holds good next.session := by
  cases World.step_cases stepped with
  | app event => exact holds.app (built event rfl)
  | elapse duration => exact holds
  | refused => exact holds
  | established connack keepAlive authMethod interval sessionPresent idle code =>
    cases sessionPresent with
    | true => exact holds.congr rfl rfl rfl rfl rfl
    | false =>
      refine ⟨holds.publishQoS0, holds.publishQoS1, holds.subscriptions, ?_, ?_⟩
      · intro entry member
        cases member
      · intro packet member
        cases member
  | polled polls outgoing session fired live polled => exact (holds.poll only polled).1
  | acked ack handled live completed =>
    have same : ∀ {α : Type} (items : List α), items ⊆ items := List.Subset.refl
    simp only [World.record, (Session.completeInflight_spec completed).1]
    cases ack with
    | pubAck packet =>
      refine holds.shrink (same _) (same _) (same _) ?_ (same _)
      intro entry member
      obtain ⟨stored, present, rfl⟩ := List.mem_map.mp member
      exact List.mem_map_of_mem (IndexMap.mem_shiftRemove.mp present).1
    | _ => exact holds.congr rfl rfl rfl rfl rfl
  | delivered publish next live delivered =>
    obtain ⟨ackRx, inApplication, same⟩ := World.incomingPublish_session delivered
    rw [same]
    exact holds.congr rfl rfl rfl rfl rfl
  | authenticated auth live =>
    obtain ⟨exchange, same⟩ := (world.session.incomingAuth_frame auth).1
    rw [World.record, same]
    exact holds.congr rfl rfl rfl rfl rfl
  | ponged live =>
    obtain ⟨rest, same⟩ := (world.session.incomingPingresp_frame world.now).1
    rw [World.record, same]
    exact holds.congr rfl rfl rfl rfl rfl
  | disconnected disconnection live =>
    rw [world.disconnected_eq]
    exact holds.ended only _

end Holds

/-- What a run has sent of requests. -/
def Sent (good : Packet → Prop) (world : World) : Prop :=
  ∀ emission ∈ world.emissions, Packet.isRequest emission.outgoing.packet = true →
    good emission.outgoing.packet

theorem Sent.step {good : Packet → Prop} {world next : World} {event : Event}
    (sent : Sent good world) (holds : Holds good world.session) (only : QoS1Only world.session)
    (stepped : world.step event = .ok next) : Sent good next := by
  by_cases polled : ∃ polls, event = .poll polls
  · obtain ⟨polls, rfl⟩ := polled
    cases World.step_cases stepped with
    | polled _ outgoing session fired live polled =>
      intro emission member
      rcases List.mem_append.mp member with earlier | new
      · exact sent emission earlier
      · obtain ⟨outgoing, present, rfl⟩ := List.mem_map.mp new
        exact (holds.poll only polled).2 outgoing (Option.mem_toList.mp present)
  · intro emission member
    rw [World.step_emissions stepped fun polls same => polled ⟨polls, same⟩] at member
    exact sent emission member

/-- In every run, what holds of the packets built from the submitted requests holds of those
that the session keeps and of those that it sent. -/
theorem holds_run {good : Packet → Prop} {maxPkid : PacketIdentifier} {calls : List Event}
    {world : World} (ran : World.run (.new maxPkid) calls = .ok world)
    (built : ∀ request, .app request ∈ calls → ∀ packet, request.Builds packet → good packet) :
    Holds good world.session ∧ Sent good world := by
  induction calls using List.reverseRecOn generalizing world with
  | nil =>
    cases ran
    exact ⟨.new maxPkid, by simp [Sent, World.new]⟩
  | append_singleton early event ih =>
    obtain ⟨middle, first, last⟩ := Transition.exec_snoc_ok ran
    obtain ⟨holds, sent⟩ := ih first fun request member =>
      built request (List.mem_append_left _ member)
    have only : QoS1Only middle.session :=
      Transition.exec_always (fun world => QoS1Only world.session) (.new maxPkid)
        (fun _ _ _ only stepped => only.step stepped) first
    refine ⟨holds.step only (fun request same => ?_) last, sent.step holds only last⟩
    exact built request (List.mem_append_right _ (same ▸ List.mem_singleton_self _))

end MqttClient.Client
