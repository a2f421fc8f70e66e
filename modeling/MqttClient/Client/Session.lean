import MqttClient.Lib.IndexMap
import MqttClient.Client.Pkid

/-! The session: requests of the application, acknowledgements of the server and
the state that outlives a connection. -/

namespace MqttClient.Client

open MqttClient.Proto

/-- The identity of a completion notifier. -/
abbrev Notifier := Nat

/-- Where the program would panic. -/
inductive Panic where
  | notConnected
  | forgedAcknowledgement
  | outgoingAuthWithoutMethod
  | packetIdentifierPending
  | qos2NotSupported
  | pubRelTokenDropped
  deriving DecidableEq, Repr

inductive ProtocolError where
  | unexpectedPacket
  | authenticationMethodMismatch
  | decode (error : DecodeError)
  deriving DecidableEq, Repr

/-- What the application asked to publish, with the notifier of its completion. -/
structure PublishRequest where
  notifier : Notifier
  topicName : Topic
  payload : Bytes
  retain : Bool
  otherProperties : PublishOtherProperties
  deriving DecidableEq

abbrev PublishRequestQoS0 := PublishRequest

inductive PublishRequestQoS1QoS2 where
  | publishQoS1 (request : PublishRequest)
  | publishQoS2 (request : PublishRequest)
  deriving DecidableEq

inductive SubscriptionRequest where
  | subscribe (notifier : Notifier) (topicFilter : Filter) (options : SubscribeOptions)
      (otherProperties : SubscribeOtherProperties)
  | unsubscribe (notifier : Notifier) (topicFilter : Filter)
      (otherProperties : UnsubscribeOtherProperties)
  deriving DecidableEq

inductive AcknowledgementRequest where
  | pubAck (notifier : Notifier) (puback : PubAck) (epoch : UInt64)
  | pubRecAccept (notifier : Notifier) (pubrec : PubRec)
  | pubRecReject (notifier : Notifier) (pubrec : PubRec)
  | pubRel (notifier : Notifier) (pubrel : PubRel)
  | pubComp (notifier : Notifier) (pubcomp : PubComp)
  deriving DecidableEq

structure ReauthRequest where
  notifier : Notifier
  auth : Auth
  deriving DecidableEq

inductive PublishRequestWithPkid where
  | publishQoS0 (request : PublishRequest)
  | publishQoS1 (request : PublishRequest) (packetIdentifier : PacketIdentifier)
  | publishQoS2 (request : PublishRequest) (packetIdentifier : PacketIdentifier)
  deriving DecidableEq

inductive OutgoingPacketRequest where
  | disconnectRequest (disconnect : Disconnect)
  | acknowledgementRequest (request : AcknowledgementRequest)
  | subscriptionRequest (request : SubscriptionRequest) (packetIdentifier : PacketIdentifier)
  | publishRequest (request : PublishRequestWithPkid)
  | reauthRequest (request : ReauthRequest)
  | pingReq (notifier : Option Notifier)
  deriving DecidableEq

/-- The token that lets the application acknowledge one delivered QoS 1 PUBLISH.
`serial` is the identity of the token. -/
structure PubAckToken where
  serial : Nat
  pkid : PacketIdentifier
  epoch : UInt64
  deriving DecidableEq

inductive IncomingPublishAndToken where
  | qos0 (publish : Publish)
  | qos1 (publish : Publish) (token : PubAckToken)
  deriving DecidableEq

inductive ReauthResult where
  | continue (auth : Auth) (method : ByteStr)
  | success (auth : Auth)
  deriving DecidableEq

/-- What a notifier is fired with. -/
inductive Completion (α : Type) where
  | complete (value : α)
  | cancel (reason : String)
  deriving DecidableEq

/-- A fired notifier. Each operation has its own type of notifier. -/
inductive Firing where
  | publishQoS0 (notifier : Notifier) (completion : Completion Unit)
  | publishQoS1 (notifier : Notifier) (completion : Completion PubAck)
  | publishQoS2 (notifier : Notifier) (completion : Completion PubRec)
  | subscribe (notifier : Notifier) (completion : Completion SubAck)
  | unsubscribe (notifier : Notifier) (completion : Completion UnsubAck)
  | pubAck (notifier : Notifier) (completion : Completion Unit)
  | pubRecAccept (notifier : Notifier) (completion : Completion PubRel)
  | pubRecReject (notifier : Notifier) (completion : Completion Unit)
  | pubRel (notifier : Notifier) (completion : Completion PubComp)
  | pubComp (notifier : Notifier) (completion : Completion Unit)
  | reauth (notifier : Notifier) (completion : Completion ReauthResult)
  | ping (notifier : Notifier) (completion : Completion Nat)
  deriving DecidableEq

/-- A deadline with the duration it is reset by. Times are nanoseconds. -/
structure Timer where
  deadline : Nat
  duration : Nat
  deriving DecidableEq

namespace Timer

def new (now duration : Nat) : Timer := ⟨now + duration, duration⟩

def reset (timer : Timer) (now : Nat) : Timer := { timer with deadline := now + timer.duration }

end Timer

/-- The receiving half of the oneshot channel of a disconnect handle. -/
inductive DisconnectRx where
  | waiting
  | requested (disconnect : Disconnect)
  | closed
  deriving DecidableEq

/-- Channels into the session, oldest message first. -/
structure Channels where
  disconnectRx : Option DisconnectRx := none
  oPubQ0Rx : List PublishRequestQoS0 := []
  oPubQ12Rx : List PublishRequestQoS1QoS2 := []
  subRx : List SubscriptionRequest := []
  ackRx : List AcknowledgementRequest := []
  authRx : List ReauthRequest := []
  pingRx : List Notifier := []
  /-- Whether the application still holds the receiver of incoming publishes. -/
  iPubOpen : Bool := true

/-- Operations that await a response of the server. -/
structure InflightTracker where
  publishQoS1 : IndexMap PacketIdentifier (Publish × Notifier) := .empty
  publishQoS2 : IndexMap PacketIdentifier (Publish × Notifier) := .empty
  subscribe : IndexMap PacketIdentifier Notifier := .empty
  unsubscribe : IndexMap PacketIdentifier Notifier := .empty
  pubrec : IndexMap PacketIdentifier (PubRec × Notifier) := .empty
  pubrel : IndexMap PacketIdentifier (PubRel × Notifier) := .empty
  packetsToReplay : List Packet := []
  auth : Option (ByteStr × Notifier) := none
  pingreq : List (Nat × Option Notifier) := []

inductive PendingAcknowledgement where
  | notReady
  | ready (request : AcknowledgementRequest)
  deriving DecidableEq

structure Session where
  ch : Channels
  pkidPool : PkidPool
  inflight : InflightTracker
  inApplication : IndexMap PacketIdentifier PendingAcknowledgement
  connected : Option ConnAck
  connectionEpoch : UInt64
  expiryInterval : SessionExpiryInterval
  pingreqTimer : Option Timer

/-- A response of the server to an operation of the client. -/
inductive CompletedOperation where
  | publishQoS1 (puback : PubAck)
  | publishQoS2 (pubrec : PubRec)
  | pubRec (pubrel : PubRel)
  | pubRel (pubcomp : PubComp)
  | subscribe (suback : SubAck)
  | unsubscribe (unsuback : UnsubAck)
  deriving DecidableEq

/-- Which channels wake up at one poll. A channel that does not wake up behaves as
an empty one. -/
structure Readiness where
  disconnect : Bool := true
  ack : Bool := true
  auth : Bool := true
  ping : Bool := true
  sub : Bool := true
  pubQ0 : Bool := true
  pubQ12 : Bool := true
  timer : Bool := true

/-- Set the DUP flag of a publish that has one. -/
def Publish.setDup (publish : Publish) : Publish :=
  match publish.packetIdentifierDupQoS with
  | .atMostOnce => publish
  | .atLeastOnce identifier _ =>
    { publish with packetIdentifierDupQoS := .atLeastOnce identifier true }
  | .exactlyOnce identifier _ =>
    { publish with packetIdentifierDupQoS := .exactlyOnce identifier true }

def Packet.setDup : Packet → Packet
  | .publish publish => .publish (Publish.setDup publish)
  | other => other

def authenticationMethodMatches (authentication : Option Authentication)
    (expectedMethod : Option Bytes) : Bool :=
  match authentication, expectedMethod with
  | none, none => true
  | some authentication, some expected => authentication.method.asBytes == expected
  | _, _ => false

/-- `poll_recv`: the oldest message of a channel that wakes up. -/
def pollRecv {α : Type} (ready : Bool) (queue : List α) : Option (α × List α) :=
  match ready, queue with
  | true, item :: rest => some (item, rest)
  | _, _ => none

/-- The outcome of a session method that handles a packet of the server. -/
structure Handled where
  session : Session
  fired : List Firing
  result : Except ProtocolError Unit

/-- A packet handed to the network, with the request it answers. A replayed packet
answers none. -/
structure Outgoing where
  packet : Packet
  request : Option OutgoingPacketRequest
  deriving DecidableEq

namespace Session

def new (maxPkid : PacketIdentifier) : Session where
  ch := {}
  pkidPool := .new maxPkid
  inflight := {}
  inApplication := .empty
  connected := none
  connectionEpoch := 0
  expiryInterval := .duration 0
  pingreqTimer := none

def isConnected (session : Session) : Bool := session.connected.isSome

/-! ### Outgoing packets -/

def pollDisconnect (ready : Bool) (session : Session) : Option Disconnect × Session :=
  match ready, session.ch.disconnectRx with
  | true, some (.requested disconnect) =>
    (some disconnect, { session with ch := { session.ch with disconnectRx := none } })
  | true, some .closed => (none, { session with ch := { session.ch with disconnectRx := none } })
  | _, _ => (none, session)

def pollAck (ready : Bool) (session : Session) : Option (OutgoingPacketRequest × Session) :=
  (pollRecv ready session.ch.ackRx).map fun (request, rest) =>
    (.acknowledgementRequest request, { session with ch := { session.ch with ackRx := rest } })

def pollAuth (ready : Bool) (session : Session) : Option (OutgoingPacketRequest × Session) :=
  (pollRecv ready session.ch.authRx).map fun (request, rest) =>
    (.reauthRequest request, { session with ch := { session.ch with authRx := rest } })

def pollPing (ready : Bool) (session : Session) : Option (OutgoingPacketRequest × Session) :=
  (pollRecv ready session.ch.pingRx).map fun (notifier, rest) =>
    (.pingReq (some notifier), { session with ch := { session.ch with pingRx := rest } })

/-- A subscription request is taken only once an identifier is leased for it. -/
def pollSub (ready : Bool) (session : Session) : Option (OutgoingPacketRequest × Session) :=
  (pollRecv ready session.ch.subRx).bind fun (request, rest) =>
    session.pkidPool.leaseNextPkid.map fun (pkid, pool) =>
      (.subscriptionRequest request pkid,
        { session with ch := { session.ch with subRx := rest }, pkidPool := pool })

def pollPubQ0 (ready : Bool) (session : Session) : Option (OutgoingPacketRequest × Session) :=
  (pollRecv ready session.ch.oPubQ0Rx).map fun (request, rest) =>
    (.publishRequest (.publishQoS0 request),
      { session with ch := { session.ch with oPubQ0Rx := rest } })

def PublishRequestQoS1QoS2.withPkid (pkid : PacketIdentifier) :
    PublishRequestQoS1QoS2 → PublishRequestWithPkid
  | .publishQoS1 request => .publishQoS1 request pkid
  | .publishQoS2 request => .publishQoS2 request pkid

def pollPubQ12 (ready : Bool) (session : Session) : Option (OutgoingPacketRequest × Session) :=
  (pollRecv ready session.ch.oPubQ12Rx).bind fun (request, rest) =>
    session.pkidPool.leaseNextPkid.map fun (pkid, pool) =>
      (.publishRequest (PublishRequestQoS1QoS2.withPkid pkid request),
        { session with ch := { session.ch with oPubQ12Rx := rest }, pkidPool := pool })

def pollTimer (ready : Bool) (now : Nat) (session : Session) :
    Option (OutgoingPacketRequest × Session) :=
  match session.pingreqTimer with
  | some timer => if ready && timer.deadline ≤ now then some (.pingReq none, session) else none
  | none => none

/-- The channels below disconnects, in order of priority. -/
def pollRequests (ready : Readiness) (now : Nat) (session : Session) :
    Option (OutgoingPacketRequest × Session) :=
  (session.pollAck ready.ack).or <| (session.pollAuth ready.auth).or <|
    (session.pollPing ready.ping).or <| (session.pollSub ready.sub).or <|
    (session.pollPubQ0 ready.pubQ0).or <| (session.pollPubQ12 ready.pubQ12).or <|
    session.pollTimer ready.timer now

/-- One poll for the next outgoing request; `none` is pending. -/
def pollForOutgoingRequest (ready : Readiness) (now : Nat) (session : Session) :
    Option OutgoingPacketRequest × Session :=
  match session.pollDisconnect ready.disconnect with
  | (some disconnect, session) => (some (.disconnectRequest disconnect), session)
  | (none, session) =>
    match session.pollRequests ready now with
    | some (request, session) => (some request, session)
    | none => (none, session)

/-- A ready PUBACK of another connection is dropped when its turn comes. -/
def isStale (epoch : UInt64) : PacketIdentifier × PendingAcknowledgement → Bool
  | (_, .ready (.pubAck _ _ issued)) => !(issued == epoch)
  | _ => false

/-- The oldest pending acknowledgement, when it is ready. -/
def takeReady (session : Session) : Option AcknowledgementRequest × Session :=
  let pending := session.inApplication.dropWhile (isStale session.connectionEpoch)
  match pending.first? with
  | some (_, .ready request) => (some request, { session with inApplication := pending.dropFirst })
  | _ => (none, { session with inApplication := pending })

def AcknowledgementRequest.packetIdentifier : AcknowledgementRequest → PacketIdentifier
  | .pubAck _ puback _ => puback.packetIdentifier
  | .pubRecAccept _ pubrec => pubrec.packetIdentifier
  | .pubRecReject _ pubrec => pubrec.packetIdentifier
  | .pubRel _ pubrel => pubrel.packetIdentifier
  | .pubComp _ pubcomp => pubcomp.packetIdentifier

/-- Mark the delivery an acknowledgement belongs to as ready. -/
def markReady (session : Session) (request : AcknowledgementRequest) : Except Panic Session :=
  let pkid := AcknowledgementRequest.packetIdentifier request
  match session.inApplication.get? pkid with
  | some _ => .ok { session with inApplication := session.inApplication.insert pkid (.ready request) }
  | none => .error .forgedAcknowledgement

/-- Route an acknowledgement through the ordering: `some` is returned at once, and
`none` lets the loop go on. -/
def routeAcknowledgement (session : Session) (request : AcknowledgementRequest) :
    Except Panic (Option AcknowledgementRequest × Session) :=
  match request with
  | .pubAck _ _ epoch =>
    if epoch = session.connectionEpoch then (session.markReady request).map (none, ·)
    else .ok (none, session)
  | .pubComp _ _ => .ok (some request, session)
  | _ => (session.markReady request).map (none, ·)

/-- The next outgoing request. Each element of `polls` is one poll of the channels;
when they run out the last poll is pending. -/
def nextOutgoingRequest (now : Nat) :
    List Readiness → Session → Except Panic (Option OutgoingPacketRequest × Session)
  | polls, session =>
    match session.takeReady with
    | (some request, session) => .ok (some (.acknowledgementRequest request), session)
    | (none, session) =>
      match polls with
      | [] => .ok (none, session)
      | ready :: later =>
        match session.pollForOutgoingRequest ready now with
        | (none, session) => .ok (none, session)
        | (some (.acknowledgementRequest request), session) =>
          match session.routeAcknowledgement request with
          | .error panic => .error panic
          | .ok (some request, session) => .ok (some (.acknowledgementRequest request), session)
          | .ok (none, session) => nextOutgoingRequest now later session
        | (some request, session) => .ok (some request, session)

def PublishRequest.packet (request : PublishRequest) (dupQoS : PacketIdentifierDupQoS) :
    Publish where
  topicName := request.topicName
  packetIdentifierDupQoS := dupQoS
  retain := request.retain
  payload := request.payload
  otherProperties := request.otherProperties

def issueAcknowledgement (session : Session) :
    AcknowledgementRequest → Packet × Session × List Firing
  | .pubAck notifier puback _ => (.pubAck puback, session, [.pubAck notifier (.complete ())])
  | .pubRecAccept notifier pubrec =>
    (.pubRec pubrec, { session with inflight := { session.inflight with
      pubrec := session.inflight.pubrec.insert pubrec.packetIdentifier (pubrec, notifier) } }, [])
  | .pubRecReject notifier pubrec => (.pubRec pubrec, session, [.pubRecReject notifier (.complete ())])
  | .pubRel notifier pubrel =>
    (.pubRel pubrel, { session with inflight := { session.inflight with
      pubrel := session.inflight.pubrel.insert pubrel.packetIdentifier (pubrel, notifier) } }, [])
  | .pubComp notifier pubcomp => (.pubComp pubcomp, session, [.pubComp notifier (.complete ())])

def issueSubscription (session : Session) (pkid : PacketIdentifier) :
    SubscriptionRequest → Packet × Session
  | .subscribe notifier topicFilter options otherProperties =>
    (.subscribe ⟨pkid, [⟨topicFilter, options⟩], otherProperties⟩,
      { session with inflight := { session.inflight with
        subscribe := session.inflight.subscribe.insert pkid notifier } })
  | .unsubscribe notifier topicFilter otherProperties =>
    (.unsubscribe ⟨pkid, [topicFilter], otherProperties⟩,
      { session with inflight := { session.inflight with
        unsubscribe := session.inflight.unsubscribe.insert pkid notifier } })

def issuePublish (session : Session) : PublishRequestWithPkid → Publish × Session × List Firing
  | .publishQoS0 request =>
    (PublishRequest.packet request .atMostOnce, session,
      [.publishQoS0 request.notifier (.complete ())])
  | .publishQoS1 request pkid =>
    let publish := PublishRequest.packet request (.atLeastOnce pkid false)
    (publish, { session with inflight := { session.inflight with
      publishQoS1 := session.inflight.publishQoS1.insert pkid (publish, request.notifier) } }, [])
  | .publishQoS2 request pkid =>
    let publish := PublishRequest.packet request (.exactlyOnce pkid false)
    (publish, { session with inflight := { session.inflight with
      publishQoS2 := session.inflight.publishQoS2.insert pkid (publish, request.notifier) } }, [])

/-- Turn a request into its packet and record what it leaves in flight. -/
def issue (session : Session) (now : Nat) :
    OutgoingPacketRequest → Except Panic (Packet × Session × List Firing)
  | .disconnectRequest disconnect => .ok (.disconnect disconnect, session, [])
  | .acknowledgementRequest request => .ok (session.issueAcknowledgement request)
  | .subscriptionRequest request pkid =>
    let (packet, session) := session.issueSubscription pkid request
    .ok (packet, session, [])
  | .publishRequest request =>
    let (publish, session, fired) := session.issuePublish request
    .ok (.publish publish, session, fired)
  | .reauthRequest request =>
    match request.auth.authentication with
    | some authentication =>
      .ok (.auth request.auth, { session with inflight := { session.inflight with
        auth := some (authentication.method, request.notifier) } }, [])
    | none => .error .outgoingAuthWithoutMethod
  | .pingReq notifier =>
    .ok (.pingReq, { session with inflight := { session.inflight with
      pingreq := session.inflight.pingreq ++ [(now, notifier)] } }, [])

def resetPingreqTimer (session : Session) (now : Nat) : Session :=
  { session with pingreqTimer := session.pingreqTimer.map (·.reset now) }

/-- One poll of the future that yields the next packet for the network; no packet
means it is pending. -/
def nextOutgoingPacket (session : Session) (now : Nat) (polls : List Readiness) :
    Except Panic (Option Outgoing × Session × List Firing) :=
  if session.isConnected then
    match session.inflight.packetsToReplay with
    | packet :: rest =>
      let session := { session with inflight := { session.inflight with packetsToReplay := rest } }
      .ok (some ⟨Packet.setDup packet, none⟩, session.resetPingreqTimer now, [])
    | [] =>
      match nextOutgoingRequest now polls session with
      | .error panic => .error panic
      | .ok (none, session) => .ok (none, session, [])
      | .ok (some request, session) =>
        match session.issue now request with
        | .error panic => .error panic
        | .ok (packet, session, fired) =>
          .ok (some ⟨packet, some request⟩, session.resetPingreqTimer now, fired)
  else .error .notConnected

/-! ### Packets of the server -/

def releasePkid (session : Session) (pkid : PacketIdentifier) : Session :=
  { session with pkidPool := session.pkidPool.releasePkid pkid }

/-- The tail of a handler: no entry is a protocol error, an entry is removed and its
notifier fired. -/
def completeEntry (session : Session) (entry : Option Notifier)
    (remove : InflightTracker → InflightTracker) (fire : Notifier → Firing) : Handled :=
  match entry with
  | none => ⟨session, [], .error .unexpectedPacket⟩
  | some notifier =>
    ⟨{ session with inflight := remove session.inflight }, [fire notifier], .ok ()⟩

/-- Complete an operation in flight. The identifier is released before the entry is
looked up. -/
def completeInflight (session : Session) : CompletedOperation → Except Panic Handled
  | .subscribe suback =>
    let pkid := suback.packetIdentifier
    .ok ((session.releasePkid pkid).completeEntry (session.inflight.subscribe.get? pkid)
      (fun inflight => { inflight with subscribe := inflight.subscribe.shiftRemove pkid })
      (.subscribe · (.complete suback)))
  | .unsubscribe unsuback =>
    let pkid := unsuback.packetIdentifier
    .ok ((session.releasePkid pkid).completeEntry (session.inflight.unsubscribe.get? pkid)
      (fun inflight => { inflight with unsubscribe := inflight.unsubscribe.shiftRemove pkid })
      (.unsubscribe · (.complete unsuback)))
  | .publishQoS1 puback =>
    let pkid := puback.packetIdentifier
    .ok ((session.releasePkid pkid).completeEntry
      ((session.inflight.publishQoS1.get? pkid).map Prod.snd)
      (fun inflight => { inflight with publishQoS1 := inflight.publishQoS1.shiftRemove pkid })
      (.publishQoS1 · (.complete puback)))
  | .publishQoS2 pubrec =>
    let pkid := pubrec.packetIdentifier
    let entry := (session.inflight.publishQoS2.get? pkid).map Prod.snd
    let remove := fun (inflight : InflightTracker) =>
      { inflight with publishQoS2 := inflight.publishQoS2.shiftRemove pkid }
    if pubrec.reasonCode.isSuccess then
      -- The token for the PUBREL exists before the lookup; an error drops it, and its
      -- destructor is not implemented.
      match entry with
      | none => .error .pubRelTokenDropped
      | some _ => .ok (session.completeEntry entry remove (.publishQoS2 · (.complete pubrec)))
    else
      .ok ((session.releasePkid pkid).completeEntry entry remove
        (.publishQoS2 · (.complete pubrec)))
  | .pubRec pubrel =>
    let pkid := pubrel.packetIdentifier
    .ok (session.completeEntry ((session.inflight.pubrec.get? pkid).map Prod.snd)
      (fun inflight => { inflight with pubrec := inflight.pubrec.shiftRemove pkid })
      (.pubRecAccept · (.complete pubrel)))
  | .pubRel pubcomp =>
    let pkid := pubcomp.packetIdentifier
    .ok ((session.releasePkid pkid).completeEntry
      ((session.inflight.pubrel.get? pkid).map Prod.snd)
      (fun inflight => { inflight with pubrel := inflight.pubrel.shiftRemove pkid })
      (.pubRel · (.complete pubcomp)))

/-- Deliver a PUBLISH. `notifier` is the one a dropped token would use. A closed
receiver drops the token, which accepts the PUBLISH. -/
def incomingPublish (session : Session) (serial : Nat) (notifier : Notifier) (publish : Publish) :
    Except Panic (Option IncomingPublishAndToken × Session) :=
  match publish.packetIdentifierDupQoS with
  | .atMostOnce =>
    .ok (if session.ch.iPubOpen then some (.qos0 publish) else none, session)
  | .atLeastOnce pkid _ =>
    if pkid ∈ session.inApplication.keys then .error .packetIdentifierPending
    else
      let session := { session with inApplication := session.inApplication.insert pkid .notReady }
      let token : PubAckToken := ⟨serial, pkid, session.connectionEpoch⟩
      if session.ch.iPubOpen then .ok (some (.qos1 publish token), session)
      else
        .ok (none, { session with ch := { session.ch with
          ackRx := session.ch.ackRx ++ [.pubAck notifier ⟨pkid, .success, {}⟩ token.epoch] } })
  | .exactlyOnce _ _ => .error .qos2NotSupported

def incomingAuth (session : Session) (auth : Auth) : Handled :=
  match session.inflight.auth with
  | none => ⟨session, [], .error .unexpectedPacket⟩
  | some (method, notifier) =>
    if authenticationMethodMatches auth.authentication (some method.asBytes) then
      let cleared := { session with inflight := { session.inflight with auth := none } }
      match auth.reasonCode with
      | .success => ⟨cleared, [.reauth notifier (.complete (.success auth))], .ok ()⟩
      | .continueAuthentication =>
        ⟨cleared, [.reauth notifier (.complete (.continue auth method))], .ok ()⟩
      | .reAuthenticate => ⟨session, [], .error .unexpectedPacket⟩
    else ⟨session, [], .error .authenticationMethodMismatch⟩

def incomingPingresp (session : Session) (now : Nat) : Session × List Firing :=
  match session.inflight.pingreq with
  | [] => (session, [])
  | (sentAt, notifier) :: rest =>
    ({ session with inflight := { session.inflight with pingreq := rest } },
      notifier.toList.map (.ping · (.complete (now - sentAt))))

/-! ### Connections -/

def releaseAll (pool : PkidPool) (pkids : List PacketIdentifier) : PkidPool :=
  pkids.foldl (·.releasePkid ·) pool

/-- State changes when the server is known to have forgotten the session. -/
def sessionExpired (session : Session) : Session × List Firing :=
  let inflight := session.inflight
  ({ session with
      pkidPool := releaseAll (releaseAll session.pkidPool inflight.publishQoS1.keys)
        inflight.publishQoS2.keys
      inflight := { inflight with
        publishQoS1 := .empty, publishQoS2 := .empty, pubrec := .empty, pubrel := .empty,
        packetsToReplay := [] } },
    inflight.publishQoS1.values.map (.publishQoS1 ·.2 (.cancel "MQTT session expired")) ++
      inflight.publishQoS2.values.map (.publishQoS2 ·.2 (.cancel "MQTT session expired")) ++
      inflight.pubrec.values.map (.pubRecAccept ·.2 (.cancel "MQTT session expired")) ++
      inflight.pubrel.values.map (.pubRel ·.2 (.cancel "MQTT session expired")))

/-- The packets to send again on the next connection. -/
def replayList (inflight : InflightTracker) : List Packet :=
  inflight.pubrel.values.map (fun (pubrel, _) => .pubRel pubrel) ++
    (inflight.publishQoS1.values ++ inflight.publishQoS2.values).map
      fun (publish, _) => .publish (Publish.setDup publish)

/-- The connection has been closed for any reason. -/
def disconnected (session : Session) : Session × List Firing :=
  let inflight := session.inflight
  ({ session with
      connected := none
      pingreqTimer := none
      pkidPool := releaseAll (releaseAll session.pkidPool inflight.subscribe.keys)
        inflight.unsubscribe.keys
      inApplication := .empty
      inflight := { inflight with
        subscribe := .empty, unsubscribe := .empty, auth := none, pingreq := [],
        packetsToReplay := replayList inflight } },
    inflight.subscribe.values.map (.subscribe · (.cancel "Client disconnected")) ++
      inflight.unsubscribe.values.map (.unsubscribe · (.cancel "Client disconnected")) ++
      inflight.auth.toList.map (.reauth ·.2 (.cancel "Client disconnected")) ++
      (inflight.pingreq.filterMap Prod.snd).map (.ping · (.cancel "Client disconnected")))

/-- Expire the session when the interval in effect is zero. -/
def expireIfZero (session : Session) : Session × List Firing :=
  if session.expiryInterval = .duration 0 then session.sessionExpired else (session, [])

def clientDisconnect (session : Session) (disconnect : Disconnect) : Session × List Firing :=
  let (session, fired) := session.disconnected
  let session := { session with
    expiryInterval := disconnect.otherProperties.sessionExpiryInterval.getD session.expiryInterval }
  let (session, expired) := session.expireIfZero
  (session, fired ++ expired)

/-- The DISCONNECT of the server cannot override the interval. -/
def serverDisconnect (session : Session) (_disconnect : Disconnect) : Session × List Firing :=
  let (session, fired) := session.disconnected
  let (session, expired) := session.expireIfZero
  (session, fired ++ expired)

def transportDisconnect (session : Session) : Session × List Firing :=
  let (session, fired) := session.disconnected
  let (session, expired) := session.expireIfZero
  (session, fired ++ expired)

/-- A duration of whole seconds in nanoseconds. -/
def fromSecs (seconds : Nat) : Nat := seconds * 1000000000

/-- State of a session whose CONNACK reports success. -/
def establish (session : Session) (now : Nat) (connack : ConnAck) (clientKeepAlive : KeepAlive)
    (clientSessionExpiryInterval : SessionExpiryInterval) : Session :=
  { session with
    connectionEpoch := session.connectionEpoch + 1
    expiryInterval :=
      connack.otherProperties.sessionExpiryInterval.getD clientSessionExpiryInterval
    pingreqTimer :=
      match connack.otherProperties.serverKeepAlive.getD clientKeepAlive with
      | .duration seconds => some (.new now (fromSecs seconds.get.toNat))
      | .infinite => none
    connected := some connack }

def incomingConnack (session : Session) (now : Nat) (connack : ConnAck)
    (clientKeepAlive : KeepAlive) (clientAuthMethod : Option Bytes)
    (clientSessionExpiryInterval : SessionExpiryInterval) : Handled :=
  let rejectedEnhancedAuth := clientAuthMethod.isSome &&
    match connack.reasonCode with
    | .refused _ => true
    | .success _ => false
  if !rejectedEnhancedAuth &&
      !authenticationMethodMatches connack.otherProperties.authentication clientAuthMethod then
    ⟨session, [], .error .authenticationMethodMismatch⟩
  else
    match connack.reasonCode with
    | .refused _ => ⟨session, [], .ok ()⟩
    | .success sessionPresent =>
      let (session, fired) := if sessionPresent then (session, []) else session.sessionExpired
      ⟨session.establish now connack clientKeepAlive clientSessionExpiryInterval, fired, .ok ()⟩

end Session

end MqttClient.Client
