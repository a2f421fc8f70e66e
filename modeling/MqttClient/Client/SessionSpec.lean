import MqttClient.Client.World

/-! What the session methods can do, stated once for every proof that follows. -/

namespace MqttClient.Client

open MqttClient.Proto

namespace Session

/-! ### Polling -/

/-- The acknowledgements of the application that wait in the session. -/
def acks (session : Session) : List AcknowledgementRequest :=
  session.ch.ackRx ++ session.inApplication.values.filterMap fun
    | .ready request => some request
    | .notReady => none

/-- The sessions agree on everything but the disconnect handle and the
acknowledgements of the application, of which none is new. -/
structure AckFrame (before after : Session) : Prop where
  same : ∃ disconnectRx ackRx inApplication, after =
    { before with
      ch := { before.ch with disconnectRx := disconnectRx, ackRx := ackRx }
      inApplication := inApplication }
  acks : ∀ request ∈ after.acks, request ∈ before.acks

theorem AckFrame.refl (session : Session) : AckFrame session session :=
  ⟨⟨session.ch.disconnectRx, session.ch.ackRx, session.inApplication, rfl⟩, fun _ => id⟩

theorem AckFrame.trans {first second third : Session} (left : AckFrame first second)
    (right : AckFrame second third) : AckFrame first third := by
  refine ⟨?_, fun request member => left.acks request (right.acks request member)⟩
  obtain ⟨_, _, _, rfl⟩ := left.same
  obtain ⟨disconnectRx, ackRx, inApplication, rfl⟩ := right.same
  exact ⟨disconnectRx, ackRx, inApplication, rfl⟩

/-- Pending deliveries of the after state come from those of the before state. -/
private theorem AckFrame.ofPending {session : Session}
    {inApplication : IndexMap PacketIdentifier PendingAcknowledgement}
    (sub : inApplication.values.Sublist session.inApplication.values) :
    AckFrame session { session with inApplication := inApplication } := by
  refine ⟨⟨_, _, inApplication, rfl⟩, ?_⟩
  intro request member
  rcases List.mem_append.mp member with queued | ready
  · exact List.mem_append_left _ queued
  · exact List.mem_append_right _ ((sub.filterMap _).subset ready)

/-- The request taken by a poll, with the session it leaves. -/
inductive Taken (session : Session) : OutgoingPacketRequest → Session → Prop where
  | disconnect (disconnect : Disconnect) (after : Session) (frame : AckFrame session after) :
      Taken session (.disconnectRequest disconnect) after
  | ack (request : AcknowledgementRequest) (after : Session) (frame : AckFrame session after)
      (member : request ∈ session.acks) : Taken session (.acknowledgementRequest request) after
  | auth (request : ReauthRequest) (rest : List ReauthRequest)
      (head : session.ch.authRx = request :: rest) :
      Taken session (.reauthRequest request)
        { session with ch := { session.ch with authRx := rest } }
  | ping (notifier : Notifier) (rest : List Notifier)
      (head : session.ch.pingRx = notifier :: rest) :
      Taken session (.pingReq (some notifier))
        { session with ch := { session.ch with pingRx := rest } }
  | subscription (request : SubscriptionRequest) (rest : List SubscriptionRequest)
      (pkid : PacketIdentifier) (pool : PkidPool) (head : session.ch.subRx = request :: rest)
      (leased : session.pkidPool.leaseNextPkid = some (pkid, pool)) :
      Taken session (.subscriptionRequest request pkid)
        { session with ch := { session.ch with subRx := rest }, pkidPool := pool }
  | publishQoS0 (request : PublishRequestQoS0) (rest : List PublishRequestQoS0)
      (head : session.ch.oPubQ0Rx = request :: rest) :
      Taken session (.publishRequest (.publishQoS0 request))
        { session with ch := { session.ch with oPubQ0Rx := rest } }
  | publish (request : PublishRequestQoS1QoS2) (rest : List PublishRequestQoS1QoS2)
      (pkid : PacketIdentifier) (pool : PkidPool) (head : session.ch.oPubQ12Rx = request :: rest)
      (leased : session.pkidPool.leaseNextPkid = some (pkid, pool)) :
      Taken session (.publishRequest (PublishRequestQoS1QoS2.withPkid pkid request))
        { session with ch := { session.ch with oPubQ12Rx := rest }, pkidPool := pool }
  | timer : Taken session (.pingReq none) session

theorem pollRecv_eq_some {α : Type} {ready : Bool} {queue rest : List α} {item : α}
    (polled : pollRecv ready queue = some (item, rest)) : queue = item :: rest := by
  unfold pollRecv at polled
  split at polled
  · cases polled
    rfl
  · cases polled

theorem pollRequests_taken {ready : Readiness} {now : Nat} {session after : Session}
    {request : OutgoingPacketRequest}
    (polled : session.pollRequests ready now = some (request, after)) :
    Taken session request after := by
  simp only [pollRequests, Option.or_eq_some_iff] at polled
  rcases polled with ack | ⟨-, auth | ⟨-, ping | ⟨-, sub | ⟨-, pubQ0 | ⟨-, pubQ12 | ⟨-, timer⟩⟩⟩⟩⟩⟩
  · obtain ⟨⟨item, rest⟩, received, same⟩ := Option.map_eq_some_iff.mp ack
    obtain ⟨rfl, rfl⟩ := Prod.mk.inj same
    have head := pollRecv_eq_some received
    refine .ack item _ ⟨⟨_, rest, _, rfl⟩, ?_⟩ ?_
    · intro request member
      rcases List.mem_append.mp member with queued | ready
      · exact List.mem_append_left _ (head ▸ List.mem_cons_of_mem _ queued)
      · exact List.mem_append_right _ ready
    · exact List.mem_append_left _ (head ▸ List.mem_cons_self)
  · obtain ⟨⟨item, rest⟩, received, same⟩ := Option.map_eq_some_iff.mp auth
    obtain ⟨rfl, rfl⟩ := Prod.mk.inj same
    exact .auth item rest (pollRecv_eq_some received)
  · obtain ⟨⟨item, rest⟩, received, same⟩ := Option.map_eq_some_iff.mp ping
    obtain ⟨rfl, rfl⟩ := Prod.mk.inj same
    exact .ping item rest (pollRecv_eq_some received)
  · obtain ⟨⟨item, rest⟩, received, same⟩ := Option.bind_eq_some_iff.mp sub
    obtain ⟨⟨pkid, pool⟩, leased, same⟩ := Option.map_eq_some_iff.mp same
    obtain ⟨rfl, rfl⟩ := Prod.mk.inj same
    exact .subscription item rest pkid pool (pollRecv_eq_some received) leased
  · obtain ⟨⟨item, rest⟩, received, same⟩ := Option.map_eq_some_iff.mp pubQ0
    obtain ⟨rfl, rfl⟩ := Prod.mk.inj same
    exact .publishQoS0 item rest (pollRecv_eq_some received)
  · obtain ⟨⟨item, rest⟩, received, same⟩ := Option.bind_eq_some_iff.mp pubQ12
    obtain ⟨⟨pkid, pool⟩, leased, same⟩ := Option.map_eq_some_iff.mp same
    obtain ⟨rfl, rfl⟩ := Prod.mk.inj same
    exact .publish item rest pkid pool (pollRecv_eq_some received) leased
  · unfold pollTimer at timer
    split at timer
    · split at timer
      · cases timer
        exact .timer
      · cases timer
    · cases timer

theorem pollDisconnect_frame (ready : Bool) (session : Session) :
    AckFrame session (session.pollDisconnect ready).2 := by
  unfold pollDisconnect
  split
  · exact ⟨⟨none, _, _, rfl⟩, fun _ => id⟩
  · exact ⟨⟨none, _, _, rfl⟩, fun _ => id⟩
  · exact .refl session

/-- A poll changes only the disconnect handle, or takes a request after doing so. -/
theorem pollForOutgoingRequest_cases (ready : Readiness) (now : Nat) (session : Session) :
    ∃ middle, AckFrame session middle ∧
      ((session.pollForOutgoingRequest ready now = (none, middle)) ∨
        ∃ request after, session.pollForOutgoingRequest ready now = (some request, after) ∧
          Taken middle request after) := by
  have frame := pollDisconnect_frame ready.disconnect session
  unfold pollForOutgoingRequest
  split
  · rename_i disconnect middle polled
    rw [polled] at frame
    exact ⟨middle, frame, .inr ⟨_, _, rfl, .disconnect disconnect middle (.refl middle)⟩⟩
  · rename_i middle polled
    rw [polled] at frame
    refine ⟨middle, frame, ?_⟩
    split
    · rename_i request after taken
      exact .inr ⟨request, after, rfl, pollRequests_taken taken⟩
    · exact .inl rfl

theorem takeReady_frame (session : Session) :
    AckFrame session session.takeReady.2 ∧
      ∀ request, session.takeReady.1 = some request → request ∈ session.acks := by
  have dropped := session.inApplication.values_dropWhile_sublist (isStale session.connectionEpoch)
  simp only [takeReady]
  split
  · rename_i pkid request first
    refine ⟨.ofPending ((IndexMap.values_dropFirst_sublist _).trans dropped), ?_⟩
    intro taken same
    obtain rfl := Option.some.inj same
    have member : PendingAcknowledgement.ready request ∈ session.inApplication.values :=
      dropped.subset (List.mem_map.mpr ⟨_, List.mem_of_mem_head? first, rfl⟩)
    exact List.mem_append_right _ (List.mem_filterMap.mpr ⟨_, member, rfl⟩)
  · exact ⟨.ofPending dropped, by simp⟩

theorem markReady_frame {earlier session after : Session} {request : AcknowledgementRequest}
    (frame : AckFrame earlier session) (member : request ∈ earlier.acks)
    (marked : session.markReady request = .ok after) : AckFrame earlier after := by
  simp only [markReady] at marked
  split at marked
  · cases marked
    refine ⟨?_, ?_⟩
    · obtain ⟨disconnectRx, ackRx, _, rfl⟩ := frame.same
      exact ⟨disconnectRx, ackRx, _, rfl⟩
    · intro other present
      rcases List.mem_append.mp present with queued | ready
      · exact frame.acks other (List.mem_append_left _ queued)
      · obtain ⟨pending, stored, isReady⟩ := List.mem_filterMap.mp ready
        rcases IndexMap.mem_values_insert stored with new | old
        · subst new
          obtain rfl := Option.some.inj isReady
          exact member
        · exact frame.acks other
            (List.mem_append_right _ (List.mem_filterMap.mpr ⟨pending, old, isReady⟩))
  · cases marked

theorem routeAcknowledgement_frame {earlier session after : Session}
    {request : AcknowledgementRequest} {returned : Option AcknowledgementRequest}
    (frame : AckFrame earlier session) (member : request ∈ earlier.acks)
    (routed : session.routeAcknowledgement request = .ok (returned, after)) :
    AckFrame earlier after ∧ ∀ ack, returned = some ack → ack ∈ earlier.acks := by
  have ofMark : (session.markReady request).map (none, ·) =
      (.ok (returned, after) : Except Panic _) →
      AckFrame earlier after ∧ ∀ ack, returned = some ack → ack ∈ earlier.acks := by
    intro mapped
    cases marked : session.markReady request with
    | error panic => simp [marked, Except.map] at mapped
    | ok next =>
      simp only [marked, Except.map, Except.ok.injEq, Prod.mk.injEq] at mapped
      obtain ⟨rfl, rfl⟩ := mapped
      exact ⟨markReady_frame frame member marked, by simp⟩
  unfold routeAcknowledgement at routed
  split at routed
  · split at routed
    · exact ofMark routed
    · cases routed
      exact ⟨frame, by simp⟩
  · cases routed
    exact ⟨frame, fun ack same => Option.some.inj same ▸ member⟩
  · exact ofMark routed

/-- The request loop only moves acknowledgements around before it takes a request. -/
theorem nextOutgoingRequest_cases {now : Nat} {polls : List Readiness} {session after : Session}
    {request : Option OutgoingPacketRequest}
    (polled : nextOutgoingRequest now polls session = .ok (request, after)) :
    ∃ middle, AckFrame session middle ∧
      ((request = none ∧ after = middle) ∨ ∃ taken, request = some taken ∧ Taken middle taken after) := by
  induction polls generalizing session with
  | nil =>
    obtain ⟨frame, ready⟩ := takeReady_frame session
    unfold nextOutgoingRequest at polled
    split at polled
    · rename_i acknowledgement middle taken
      rw [taken] at frame ready
      cases polled
      exact ⟨_, .refl session, .inr ⟨_, rfl, .ack acknowledgement _ frame (ready _ rfl)⟩⟩
    · rename_i middle taken
      rw [taken] at frame
      cases polled
      exact ⟨_, frame, .inl ⟨rfl, rfl⟩⟩
  | cons ready later ih =>
    obtain ⟨frame, isReady⟩ := takeReady_frame session
    unfold nextOutgoingRequest at polled
    split at polled
    · rename_i acknowledgement middle taken
      rw [taken] at frame isReady
      cases polled
      exact ⟨_, .refl session, .inr ⟨_, rfl, .ack acknowledgement _ frame (isReady _ rfl)⟩⟩
    · rename_i first taken
      rw [taken] at frame
      obtain ⟨second, frame', outcome⟩ := pollForOutgoingRequest_cases ready now first
      have reached := frame.trans frame'
      simp only at polled
      rcases outcome with pending | ⟨received, third, found, takenRequest⟩
      · rw [pending] at polled
        cases polled
        exact ⟨_, reached, .inl ⟨rfl, rfl⟩⟩
      · rw [found] at polled
        cases takenRequest with
        | ack acknowledgement _ frame'' member =>
          simp only at polled
          cases routed : third.routeAcknowledgement acknowledgement with
          | error panic => simp [routed] at polled
          | ok outcome =>
            obtain ⟨returned, fourth⟩ := outcome
            obtain ⟨routedFrame, routedMember⟩ :=
              routeAcknowledgement_frame (reached.trans frame'')
                (reached.acks acknowledgement member) routed
            cases returned with
            | some returned =>
              simp only [routed, Except.ok.injEq, Prod.mk.injEq] at polled
              obtain ⟨rfl, rfl⟩ := polled
              exact ⟨_, .refl session,
                .inr ⟨_, rfl, .ack returned _ routedFrame (routedMember _ rfl)⟩⟩
            | none =>
              simp only [routed] at polled
              obtain ⟨last, lastFrame, result⟩ := ih polled
              exact ⟨last, routedFrame.trans lastFrame, result⟩
        | disconnect disconnect _ frame'' =>
          cases polled
          exact ⟨_, reached, .inr ⟨_, rfl, .disconnect disconnect _ frame''⟩⟩
        | auth request rest head =>
          cases polled
          exact ⟨_, reached, .inr ⟨_, rfl, .auth request rest head⟩⟩
        | ping notifier rest head =>
          cases polled
          exact ⟨_, reached, .inr ⟨_, rfl, .ping notifier rest head⟩⟩
        | subscription request rest pkid pool head leased =>
          cases polled
          exact ⟨_, reached, .inr ⟨_, rfl, .subscription request rest pkid pool head leased⟩⟩
        | publishQoS0 request rest head =>
          cases polled
          exact ⟨_, reached, .inr ⟨_, rfl, .publishQoS0 request rest head⟩⟩
        | publish request rest pkid pool head leased =>
          cases polled
          exact ⟨_, reached, .inr ⟨_, rfl, .publish request rest pkid pool head leased⟩⟩
        | timer =>
          cases polled
          exact ⟨_, reached, .inr ⟨_, rfl, .timer⟩⟩

/-- The outcomes of one poll of the next outgoing packet. -/
inductive Polled (session : Session) (now : Nat) :
    Option Outgoing → Session → List Firing → Prop where
  | replay (packet : Packet) (rest : List Packet)
      (head : session.inflight.packetsToReplay = packet :: rest) :
      Polled session now (some ⟨Packet.setDup packet, none⟩)
        (resetPingreqTimer
          { session with inflight := { session.inflight with packetsToReplay := rest } } now) []
  | pending (after : Session) (drained : session.inflight.packetsToReplay = [])
      (frame : AckFrame session after) : Polled session now none after []
  | issued (middle taken after : Session) (request : OutgoingPacketRequest) (packet : Packet)
      (fired : List Firing) (drained : session.inflight.packetsToReplay = [])
      (frame : AckFrame session middle) (requested : Taken middle request taken)
      (issued : taken.issue now request = .ok (packet, after, fired)) :
      Polled session now (some ⟨packet, some request⟩) (after.resetPingreqTimer now) fired

theorem nextOutgoingPacket_cases {session after : Session} {now : Nat} {polls : List Readiness}
    {outgoing : Option Outgoing} {fired : List Firing}
    (polled : session.nextOutgoingPacket now polls = .ok (outgoing, after, fired)) :
    Polled session now outgoing after fired := by
  unfold nextOutgoingPacket at polled
  split at polled
  · split at polled
    · rename_i packet rest head
      cases polled
      exact .replay packet rest head
    · rename_i drained
      cases requested : nextOutgoingRequest now polls session with
      | error panic => simp [requested] at polled
      | ok outcome =>
        obtain ⟨request, taken⟩ := outcome
        obtain ⟨middle, frame, result⟩ := nextOutgoingRequest_cases requested
        rcases result with ⟨rfl, rfl⟩ | ⟨request, rfl, takenRequest⟩
        · simp only [requested, Except.ok.injEq, Prod.mk.injEq] at polled
          obtain ⟨rfl, rfl, rfl⟩ := polled
          exact .pending _ drained frame
        · simp only [requested] at polled
          cases issued : taken.issue now request with
          | error panic => simp [issued] at polled
          | ok outcome =>
            obtain ⟨packet, final, effects⟩ := outcome
            simp only [issued, Except.ok.injEq, Prod.mk.injEq] at polled
            obtain ⟨rfl, rfl, rfl⟩ := polled
            exact .issued middle taken final request packet effects drained frame takenRequest issued
  · cases polled

end Session

/-! ### Operations -/

/-- The operation whose notifier fired, if it is one with an identifier of its own. -/
def Firing.kind? : Firing → Option OpKind
  | .publishQoS1 _ _ => some .publishQoS1
  | .publishQoS2 _ _ => some .publishQoS2
  | .subscribe _ _ => some .subscribe
  | .unsubscribe _ _ => some .unsubscribe
  | _ => none

/-- The identifier under which a packet opens an operation. -/
def Packet.operationIdentifier : Packet → Option PacketIdentifier
  | .subscribe packet => some packet.packetIdentifier
  | .unsubscribe packet => some packet.packetIdentifier
  | .publish packet =>
    match packet.packetIdentifierDupQoS with
    | .atMostOnce => none
    | .atLeastOnce identifier _ => some identifier
    | .exactlyOnce identifier _ => some identifier
  | _ => none

/-- The kind of operation a poll opens, its identifier and its notifier. -/
def Outgoing.opens (outgoing : Outgoing) : Option (OpKind × PacketIdentifier × Notifier) :=
  match outgoing.request with
  | some (.subscriptionRequest (.subscribe notifier _ _ _) pkid) =>
    some (.subscribe, pkid, notifier)
  | some (.subscriptionRequest (.unsubscribe notifier _ _) pkid) =>
    some (.unsubscribe, pkid, notifier)
  | some (.publishRequest (.publishQoS1 request pkid)) =>
    some (.publishQoS1, pkid, request.notifier)
  | some (.publishRequest (.publishQoS2 request pkid)) =>
    some (.publishQoS2, pkid, request.notifier)
  | _ => none

namespace Session

/-- The sessions agree on everything that concerns operations in flight. -/
structure OpFrame (before after : Session) : Prop where
  publishQoS1 : after.inflight.publishQoS1 = before.inflight.publishQoS1
  publishQoS2 : after.inflight.publishQoS2 = before.inflight.publishQoS2
  subscribe : after.inflight.subscribe = before.inflight.subscribe
  unsubscribe : after.inflight.unsubscribe = before.inflight.unsubscribe
  packetsToReplay : after.inflight.packetsToReplay = before.inflight.packetsToReplay
  pkidPool : after.pkidPool = before.pkidPool
  subRx : after.ch.subRx = before.ch.subRx
  oPubQ12Rx : after.ch.oPubQ12Rx = before.ch.oPubQ12Rx
  connected : after.connected = before.connected
  connectionEpoch : after.connectionEpoch = before.connectionEpoch
  expiryInterval : after.expiryInterval = before.expiryInterval

theorem OpFrame.trans {first second third : Session} (left : OpFrame first second)
    (right : OpFrame second third) : OpFrame first third where
  publishQoS1 := right.publishQoS1.trans left.publishQoS1
  publishQoS2 := right.publishQoS2.trans left.publishQoS2
  subscribe := right.subscribe.trans left.subscribe
  unsubscribe := right.unsubscribe.trans left.unsubscribe
  packetsToReplay := right.packetsToReplay.trans left.packetsToReplay
  pkidPool := right.pkidPool.trans left.pkidPool
  subRx := right.subRx.trans left.subRx
  oPubQ12Rx := right.oPubQ12Rx.trans left.oPubQ12Rx
  connected := right.connected.trans left.connected
  connectionEpoch := right.connectionEpoch.trans left.connectionEpoch
  expiryInterval := right.expiryInterval.trans left.expiryInterval

theorem AckFrame.op {before after : Session} (frame : AckFrame before after) :
    OpFrame before after := by
  obtain ⟨_, _, _, rfl⟩ := frame.same
  exact ⟨rfl, rfl, rfl, rfl, rfl, rfl, rfl, rfl, rfl, rfl, rfl⟩

/-- An AUTH packet ends the exchange that waits for it, and changes nothing else. -/
theorem incomingAuth_frame (session : Session) (auth : Auth) :
    (∃ exchange, (session.incomingAuth auth).session =
      { session with inflight := { session.inflight with auth := exchange } }) ∧
    ∀ firing ∈ (session.incomingAuth auth).fired, firing.kind? = none := by
  rw [incomingAuth]
  split
  · exact ⟨⟨_, rfl⟩, by simp⟩
  · split
    · split
      · exact ⟨⟨_, rfl⟩, by simp [Firing.kind?]⟩
      · exact ⟨⟨_, rfl⟩, by simp [Firing.kind?]⟩
      · exact ⟨⟨_, rfl⟩, by simp⟩
    · exact ⟨⟨_, rfl⟩, by simp⟩

/-- A PINGRESP packet answers the ping that waits for it, and changes nothing else. -/
theorem incomingPingresp_frame (session : Session) (now : Nat) :
    (∃ rest, (session.incomingPingresp now).1 =
      { session with inflight := { session.inflight with pingreq := rest } }) ∧
    ∀ firing ∈ (session.incomingPingresp now).2, firing.kind? = none := by
  rw [incomingPingresp]
  split
  · exact ⟨⟨_, rfl⟩, by simp⟩
  · exact ⟨⟨_, rfl⟩, by simp [Firing.kind?]⟩

theorem resetPingreqTimer_frame (session : Session) (now : Nat) :
    OpFrame session (session.resetPingreqTimer now) :=
  ⟨rfl, rfl, rfl, rfl, rfl, rfl, rfl, rfl, rfl, rfl, rfl⟩

/-- What one poll does to operations: nothing, send a packet again, or open one
operation under a leased identifier. -/
inductive PollEffect (session : Session) :
    Option Outgoing → Session → List Firing → Prop where
  | quiet (outgoing : Option Outgoing) (after : Session) (fired : List Firing)
      (drained : session.inflight.packetsToReplay = []) (frame : OpFrame session after)
      (silent : ∀ firing ∈ fired, firing.kind? = none)
      (plain : ∀ sent ∈ outgoing, sent.request ≠ none ∧ sent.opens = none ∧
        Packet.operationIdentifier sent.packet = none) : PollEffect session outgoing after fired
  | replay (packet : Packet) (rest : List Packet) (after : Session)
      (head : session.inflight.packetsToReplay = packet :: rest)
      (frame : OpFrame
        { session with inflight := { session.inflight with packetsToReplay := rest } } after) :
      PollEffect session (some ⟨Packet.setDup packet, none⟩) after []
  | subscribe (notifier : Notifier) (topicFilter : Filter) (options : SubscribeOptions)
      (otherProperties : SubscribeOtherProperties) (rest : List SubscriptionRequest)
      (pkid : PacketIdentifier) (pool : PkidPool) (after : Session)
      (drained : session.inflight.packetsToReplay = [])
      (head : session.ch.subRx = .subscribe notifier topicFilter options otherProperties :: rest)
      (leased : session.pkidPool.leaseNextPkid = some (pkid, pool))
      (frame : OpFrame
        { session with
          ch := { session.ch with subRx := rest }
          pkidPool := pool
          inflight := { session.inflight with
            subscribe := session.inflight.subscribe.insert pkid notifier } } after) :
      PollEffect session
        (some ⟨.subscribe ⟨pkid, [⟨topicFilter, options⟩], otherProperties⟩,
          some (.subscriptionRequest
            (.subscribe notifier topicFilter options otherProperties) pkid)⟩) after []
  | unsubscribe (notifier : Notifier) (topicFilter : Filter)
      (otherProperties : UnsubscribeOtherProperties) (rest : List SubscriptionRequest)
      (pkid : PacketIdentifier) (pool : PkidPool) (after : Session)
      (drained : session.inflight.packetsToReplay = [])
      (head : session.ch.subRx = .unsubscribe notifier topicFilter otherProperties :: rest)
      (leased : session.pkidPool.leaseNextPkid = some (pkid, pool))
      (frame : OpFrame
        { session with
          ch := { session.ch with subRx := rest }
          pkidPool := pool
          inflight := { session.inflight with
            unsubscribe := session.inflight.unsubscribe.insert pkid notifier } } after) :
      PollEffect session
        (some ⟨.unsubscribe ⟨pkid, [topicFilter], otherProperties⟩,
          some (.subscriptionRequest
            (.unsubscribe notifier topicFilter otherProperties) pkid)⟩) after []
  | publishQoS1 (request : PublishRequest) (rest : List PublishRequestQoS1QoS2)
      (pkid : PacketIdentifier) (pool : PkidPool) (after : Session)
      (drained : session.inflight.packetsToReplay = [])
      (head : session.ch.oPubQ12Rx = .publishQoS1 request :: rest)
      (leased : session.pkidPool.leaseNextPkid = some (pkid, pool))
      (frame : OpFrame
        { session with
          ch := { session.ch with oPubQ12Rx := rest }
          pkidPool := pool
          inflight := { session.inflight with
            publishQoS1 := session.inflight.publishQoS1.insert pkid
              (PublishRequest.packet request (.atLeastOnce pkid false), request.notifier) } }
        after) :
      PollEffect session
        (some ⟨.publish (PublishRequest.packet request (.atLeastOnce pkid false)),
          some (.publishRequest (.publishQoS1 request pkid))⟩) after []
  | publishQoS2 (request : PublishRequest) (rest : List PublishRequestQoS1QoS2)
      (pkid : PacketIdentifier) (pool : PkidPool) (after : Session)
      (drained : session.inflight.packetsToReplay = [])
      (head : session.ch.oPubQ12Rx = .publishQoS2 request :: rest)
      (leased : session.pkidPool.leaseNextPkid = some (pkid, pool))
      (frame : OpFrame
        { session with
          ch := { session.ch with oPubQ12Rx := rest }
          pkidPool := pool
          inflight := { session.inflight with
            publishQoS2 := session.inflight.publishQoS2.insert pkid
              (PublishRequest.packet request (.exactlyOnce pkid false), request.notifier) } }
        after) :
      PollEffect session
        (some ⟨.publish (PublishRequest.packet request (.exactlyOnce pkid false)),
          some (.publishRequest (.publishQoS2 request pkid))⟩) after []

/-- A poll stays on its connection. -/
theorem PollEffect.kept {session after : Session} {outgoing : Option Outgoing}
    {fired : List Firing} (effect : PollEffect session outgoing after fired) :
    after.connected = session.connected ∧ after.connectionEpoch = session.connectionEpoch ∧
      after.expiryInterval = session.expiryInterval := by
  have ofFrame : ∀ {before : Session}, OpFrame before after →
      before.connected = session.connected → before.connectionEpoch = session.connectionEpoch →
      before.expiryInterval = session.expiryInterval →
      after.connected = session.connected ∧ after.connectionEpoch = session.connectionEpoch ∧
        after.expiryInterval = session.expiryInterval :=
    fun frame connected epoch interval => ⟨frame.connected.trans connected,
      frame.connectionEpoch.trans epoch, frame.expiryInterval.trans interval⟩
  cases effect with
  | quiet _ _ _ _ frame => exact ofFrame frame rfl rfl rfl
  | replay _ _ _ _ frame => exact ofFrame frame rfl rfl rfl
  | subscribe _ _ _ _ _ _ _ _ _ _ _ frame => exact ofFrame frame rfl rfl rfl
  | unsubscribe _ _ _ _ _ _ _ _ _ _ frame => exact ofFrame frame rfl rfl rfl
  | publishQoS1 _ _ _ _ _ _ _ _ frame => exact ofFrame frame rfl rfl rfl
  | publishQoS2 _ _ _ _ _ _ _ _ frame => exact ofFrame frame rfl rfl rfl

private theorem issueAcknowledgement_quiet (session : Session)
    (request : AcknowledgementRequest) :
    OpFrame session (session.issueAcknowledgement request).2.1 ∧
      (∀ firing ∈ (session.issueAcknowledgement request).2.2, firing.kind? = none) ∧
      Packet.operationIdentifier (session.issueAcknowledgement request).1 = none := by
  cases request <;>
    exact ⟨⟨rfl, rfl, rfl, rfl, rfl, rfl, rfl, rfl, rfl, rfl, rfl⟩,
      by simp [issueAcknowledgement, Firing.kind?], rfl⟩

/-- Each request opens at most one operation. -/
private theorem issued_effect {session middle taken after : Session} {now : Nat}
    {request : OutgoingPacketRequest} {packet : Packet} {fired : List Firing}
    (drained : session.inflight.packetsToReplay = []) (frame : AckFrame session middle)
    (requested : Taken middle request taken)
    (issued : taken.issue now request = .ok (packet, after, fired)) :
    PollEffect session (some ⟨packet, some request⟩) (after.resetPingreqTimer now) fired := by
  have plainOf : Outgoing.opens ⟨packet, some request⟩ = none →
      Packet.operationIdentifier packet = none →
      ∀ sent ∈ (some ⟨packet, some request⟩ : Option Outgoing), sent.request ≠ none ∧
        sent.opens = none ∧ Packet.operationIdentifier sent.packet = none := by
    rintro opens plain sent member
    cases member
    exact ⟨by simp, opens, plain⟩
  cases requested with
  | disconnect disconnect _ ackFrame =>
    cases issued
    exact .quiet _ _ _ drained
      ((frame.trans ackFrame).op.trans (resetPingreqTimer_frame _ now)) (by simp) (plainOf rfl rfl)
  | ack acknowledgement _ ackFrame member =>
    simp only [issue, Except.ok.injEq] at issued
    obtain ⟨opFrame, silent, plain⟩ := issueAcknowledgement_quiet taken acknowledgement
    rw [issued] at opFrame silent plain
    exact .quiet _ _ _ drained
      (((frame.trans ackFrame).op.trans opFrame).trans (resetPingreqTimer_frame _ now))
      silent (plainOf rfl plain)
  | auth reauth rest head =>
    simp only [issue] at issued
    split at issued
    · cases issued
      obtain ⟨_, _, _, rfl⟩ := frame.same
      exact .quiet _ _ _ drained ⟨rfl, rfl, rfl, rfl, rfl, rfl, rfl, rfl, rfl, rfl, rfl⟩
        (by simp) (plainOf rfl rfl)
    · cases issued
  | ping notifier rest head =>
    cases issued
    obtain ⟨_, _, _, rfl⟩ := frame.same
    exact .quiet _ _ _ drained ⟨rfl, rfl, rfl, rfl, rfl, rfl, rfl, rfl, rfl, rfl, rfl⟩
      (by simp) (plainOf rfl rfl)
  | timer =>
    cases issued
    obtain ⟨_, _, _, rfl⟩ := frame.same
    exact .quiet _ _ _ drained ⟨rfl, rfl, rfl, rfl, rfl, rfl, rfl, rfl, rfl, rfl, rfl⟩
      (by simp) (plainOf rfl rfl)
  | publishQoS0 publish rest head =>
    cases issued
    obtain ⟨_, _, _, rfl⟩ := frame.same
    exact .quiet _ _ _ drained ⟨rfl, rfl, rfl, rfl, rfl, rfl, rfl, rfl, rfl, rfl, rfl⟩
      (by simp [Firing.kind?]) (plainOf rfl rfl)
  | subscription subscription rest pkid pool head leased =>
    obtain ⟨_, _, _, rfl⟩ := frame.same
    cases subscription with
    | subscribe notifier topicFilter options otherProperties =>
      cases issued
      exact .subscribe notifier topicFilter options otherProperties rest pkid pool _ drained head
        leased ⟨rfl, rfl, rfl, rfl, rfl, rfl, rfl, rfl, rfl, rfl, rfl⟩
    | unsubscribe notifier topicFilter otherProperties =>
      cases issued
      exact .unsubscribe notifier topicFilter otherProperties rest pkid pool _ drained head
        leased ⟨rfl, rfl, rfl, rfl, rfl, rfl, rfl, rfl, rfl, rfl, rfl⟩
  | publish publish rest pkid pool head leased =>
    obtain ⟨_, _, _, rfl⟩ := frame.same
    cases publish with
    | publishQoS1 publish =>
      cases issued
      exact .publishQoS1 publish rest pkid pool _ drained head leased
        ⟨rfl, rfl, rfl, rfl, rfl, rfl, rfl, rfl, rfl, rfl, rfl⟩
    | publishQoS2 publish =>
      cases issued
      exact .publishQoS2 publish rest pkid pool _ drained head leased
        ⟨rfl, rfl, rfl, rfl, rfl, rfl, rfl, rfl, rfl, rfl, rfl⟩

theorem nextOutgoingPacket_effect {session after : Session} {now : Nat} {polls : List Readiness}
    {outgoing : Option Outgoing} {fired : List Firing}
    (polled : session.nextOutgoingPacket now polls = .ok (outgoing, after, fired)) :
    PollEffect session outgoing after fired := by
  cases nextOutgoingPacket_cases polled with
  | replay packet rest head =>
    exact .replay packet rest _ head (resetPingreqTimer_frame _ now)
  | pending after drained frame =>
    exact .quiet _ _ _ drained frame.op (by simp) (by simp)
  | issued middle taken after request packet fired drained frame requested issued =>
    exact issued_effect drained frame requested issued

end Session

end MqttClient.Client
