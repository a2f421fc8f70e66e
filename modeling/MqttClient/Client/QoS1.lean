import MqttClient.Client.WorldSpec

/-! The application submits no QoS 2 operation, so a session never holds one. -/

namespace MqttClient.Client

open MqttClient.Proto

def AcknowledgementRequest.IsPubAck (request : AcknowledgementRequest) : Prop :=
  ∃ notifier puback epoch, request = .pubAck notifier puback epoch

structure QoS1Only (session : Session) : Prop where
  acks : ∀ request ∈ session.acks, AcknowledgementRequest.IsPubAck request
  requests : ∀ request ∈ session.ch.oPubQ12Rx, ∃ publish, request = .publishQoS1 publish
  publishQoS2 : session.inflight.publishQoS2 = .empty
  pubrel : session.inflight.pubrel = .empty

namespace QoS1Only

variable {session after : Session}

theorem congr (only : QoS1Only session) (acks : after.acks = session.acks)
    (requests : after.ch.oPubQ12Rx = session.ch.oPubQ12Rx)
    (publishQoS2 : after.inflight.publishQoS2 = session.inflight.publishQoS2)
    (pubrel : after.inflight.pubrel = session.inflight.pubrel) : QoS1Only after where
  acks request member := only.acks request (acks ▸ member)
  requests request member := only.requests request (requests ▸ member)
  publishQoS2 := publishQoS2.trans only.publishQoS2
  pubrel := pubrel.trans only.pubrel

theorem ofAckFrame (only : QoS1Only session) (frame : Session.AckFrame session after) :
    QoS1Only after := by
  refine ⟨fun request member => only.acks request (frame.acks request member), ?_, ?_, ?_⟩ <;>
    obtain ⟨_, _, _, rfl⟩ := frame.same
  · exact only.requests
  · exact only.publishQoS2
  · exact only.pubrel

/-- Requests that are taken leave only requests of the same kind behind. -/
private theorem taken {request : OutgoingPacketRequest} (only : QoS1Only session)
    (requested : Session.Taken session request after) : QoS1Only after := by
  cases requested with
  | disconnect _ _ frame => exact only.ofAckFrame frame
  | ack _ _ frame _ => exact only.ofAckFrame frame
  | auth _ _ _ => exact only.congr rfl rfl rfl rfl
  | ping _ _ _ => exact only.congr rfl rfl rfl rfl
  | subscription _ _ _ _ _ _ => exact only.congr rfl rfl rfl rfl
  | publishQoS0 _ _ _ => exact only.congr rfl rfl rfl rfl
  | publish request rest pkid pool head leased =>
    exact ⟨only.acks, fun other member => only.requests other (head ▸ List.mem_cons_of_mem _ member),
      only.publishQoS2, only.pubrel⟩
  | timer => exact only

private theorem issued {taken : Session} {now : Nat} {request : OutgoingPacketRequest}
    {packet : Packet} {fired : List Firing} (only : QoS1Only session)
    (requested : Session.Taken session request taken)
    (issued : taken.issue now request = .ok (packet, after, fired)) : QoS1Only after := by
  have kept := only.taken requested
  cases requested with
  | disconnect disconnect _ _ =>
    cases issued
    exact kept
  | ack acknowledgement _ _ member =>
    obtain ⟨notifier, puback, epoch, rfl⟩ := only.acks acknowledgement member
    cases issued
    exact kept
  | auth reauth rest head =>
    simp only [Session.issue] at issued
    split at issued
    · cases issued
      exact kept.congr rfl rfl rfl rfl
    · cases issued
  | ping notifier rest head =>
    cases issued
    exact kept.congr rfl rfl rfl rfl
  | subscription subscription rest pkid pool head leased =>
    cases subscription with
    | subscribe notifier topicFilter options otherProperties =>
      cases issued
      exact kept.congr rfl rfl rfl rfl
    | unsubscribe notifier topicFilter otherProperties =>
      cases issued
      exact kept.congr rfl rfl rfl rfl
  | publishQoS0 publish rest head =>
    cases issued
    exact kept
  | publish publish rest pkid pool head leased =>
    obtain ⟨publish, rfl⟩ := only.requests publish (head ▸ List.mem_cons_self)
    cases issued
    exact kept.congr rfl rfl rfl rfl
  | timer =>
    cases issued
    exact kept.congr rfl rfl rfl rfl

theorem poll {now : Nat} {polls : List Readiness} {outgoing : Option Outgoing}
    {fired : List Firing} (only : QoS1Only session)
    (polled : session.nextOutgoingPacket now polls = .ok (outgoing, after, fired)) :
    QoS1Only after := by
  cases Session.nextOutgoingPacket_cases polled with
  | replay packet rest head => exact only.congr rfl rfl rfl rfl
  | pending _ drained frame => exact only.ofAckFrame frame
  | issued middle taken after request packet fired drained frame requested issued =>
    exact ((only.ofAckFrame frame).issued requested issued).congr rfl rfl rfl rfl

private theorem queue (only : QoS1Only session) (notifier : Notifier) (puback : PubAck)
    (epoch : UInt64) :
    QoS1Only { session with ch := { session.ch with
      ackRx := session.ch.ackRx ++ [.pubAck notifier puback epoch] } } := by
  refine ⟨?_, only.requests, only.publishQoS2, only.pubrel⟩
  intro request member
  simp only [Session.acks, List.append_assoc, List.mem_append, List.mem_singleton] at member
  rcases member with queued | rfl | ready
  · exact only.acks request (List.mem_append_left _ queued)
  · exact ⟨_, _, _, rfl⟩
  · exact only.acks request (List.mem_append_right _ ready)

theorem app {world : World} (only : QoS1Only world.session) (event : AppEvent) :
    QoS1Only (world.app event).session := by
  have used : ∀ serial reasonCode otherProperties,
      QoS1Only (world.useToken serial reasonCode otherProperties).session := by
    intro serial reasonCode otherProperties
    unfold World.useToken
    split
    · exact only
    · exact only.queue _ _ _
  cases event with
  | publishQoS1 topicName payload retain otherProperties =>
    refine ⟨only.acks, ?_, only.publishQoS2, only.pubrel⟩
    intro request member
    rcases List.mem_append.mp member with queued | new
    · exact only.requests request queued
    · exact ⟨_, List.mem_singleton.mp new⟩
  | acknowledge serial reasonCode otherProperties => exact used _ _ _
  | dropToken serial => exact used _ _ _
  | disconnect disconnect =>
    simp only [World.app, World.withChannels]
    split <;> exact only.congr rfl rfl rfl rfl
  | dropDisconnectHandle =>
    simp only [World.app, World.withChannels]
    split <;> exact only.congr rfl rfl rfl rfl
  | _ => exact only.congr rfl rfl rfl rfl

private theorem pending (only : QoS1Only session) (pkid : PacketIdentifier) :
    QoS1Only { session with inApplication := session.inApplication.insert pkid .notReady } := by
  refine ⟨?_, only.requests, only.publishQoS2, only.pubrel⟩
  intro request member
  rcases List.mem_append.mp member with queued | ready
  · exact only.acks request (List.mem_append_left _ queued)
  · obtain ⟨state, held, isReady⟩ := List.mem_filterMap.mp ready
    rcases IndexMap.mem_values_insert held with rfl | earlier
    · cases isReady
    · exact only.acks request
        (List.mem_append_right _ (List.mem_filterMap.mpr ⟨state, earlier, isReady⟩))

theorem delivered {world next : World} {publish : Publish} (only : QoS1Only world.session)
    (delivered : world.incomingPublish publish = .ok next) : QoS1Only next.session := by
  cases World.incomingPublish_cases delivered with
  | qos0 _ => exact only
  | handed pkid dup _ _ => exact only.pending pkid
  | dropped pkid dup _ _ => exact (only.pending pkid).queue _ _ _

theorem sessionExpired (only : QoS1Only session) : QoS1Only session.sessionExpired.1 :=
  ⟨only.acks, only.requests, rfl, rfl⟩

theorem ended (only : QoS1Only session) (interval : SessionExpiryInterval) :
    QoS1Only (session.ended interval).1 := by
  have closed : QoS1Only session.disconnected.1 := by
    refine ⟨?_, only.requests, only.publishQoS2, only.pubrel⟩
    intro request member
    rcases List.mem_append.mp member with queued | ready
    · exact only.acks request (List.mem_append_left _ queued)
    · cases ready
  simp only [Session.ended, Session.expireIfZero]
  split
  · have same : QoS1Only { session.disconnected.1 with expiryInterval := interval } :=
      closed.congr rfl rfl rfl rfl
    exact same.sessionExpired
  · exact closed.congr rfl rfl rfl rfl

theorem step {world next : World} {event : Event} (only : QoS1Only world.session)
    (stepped : world.step event = .ok next) : QoS1Only next.session := by
  cases World.step_cases stepped with
  | app event => exact only.app event
  | elapse duration => exact only
  | refused => exact only
  | established connack keepAlive authMethod interval sessionPresent idle code =>
    cases sessionPresent with
    | true => exact only.congr rfl rfl rfl rfl
    | false => exact only.sessionExpired.congr rfl rfl rfl rfl
  | polled polls outgoing session fired live polled => exact only.poll polled
  | acked ack handled live completed =>
    have final := (Session.completeInflight_spec completed).1
    simp only [World.record, final]
    refine ⟨only.acks, only.requests, ?_, ?_⟩
    · cases ack with
      | pubRec packet =>
        simp only [Acknowledgement.removeFrom, only.publishQoS2]
        rfl
      | _ => exact only.publishQoS2
    · cases ack <;> exact only.pubrel
  | delivered publish next live delivered => exact only.delivered delivered
  | authenticated auth live =>
    obtain ⟨exchange, same⟩ := (world.session.incomingAuth_frame auth).1
    rw [World.record, same]
    exact only.congr rfl rfl rfl rfl
  | ponged live =>
    obtain ⟨rest, same⟩ := (world.session.incomingPingresp_frame world.now).1
    rw [World.record, same]
    exact only.congr rfl rfl rfl rfl
  | disconnected disconnection live =>
    rw [world.disconnected_eq]
    exact only.ended _

theorem new (maxPkid : PacketIdentifier) : QoS1Only (World.new maxPkid).session where
  acks := by simp [World.new, Session.new, Session.acks, IndexMap.values]
  requests := by simp [World.new, Session.new]
  publishQoS2 := rfl
  pubrel := rfl

end QoS1Only

end MqttClient.Client
