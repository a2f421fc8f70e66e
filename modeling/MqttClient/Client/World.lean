import MqttClient.Lib.Transition
import MqttClient.Client.Session

/-! A session with its surroundings: the application that submits requests and holds
tokens, the clock, and the history of what happened. No branch reads the history. -/

namespace MqttClient.Client

open MqttClient.Proto

/-- What the application can do at any time. -/
inductive AppEvent where
  | subscribe (topicFilter : Filter) (options : SubscribeOptions)
      (otherProperties : SubscribeOtherProperties)
  | unsubscribe (topicFilter : Filter) (otherProperties : UnsubscribeOtherProperties)
  | publishQoS0 (topicName : Topic) (payload : Bytes) (retain : Bool)
      (otherProperties : PublishOtherProperties)
  | publishQoS1 (topicName : Topic) (payload : Bytes) (retain : Bool)
      (otherProperties : PublishOtherProperties)
  | ping
  | reauth (reasonCode : AuthenticateReasonCode) (authentication : Authentication)
      (reasonString : Option ByteStr) (userProperties : UserProperties)
  | disconnect (disconnect : Disconnect)
  | dropDisconnectHandle
  | acknowledge (serial : Nat) (reasonCode : PubAckReasonCode)
      (otherProperties : PubAckOtherProperties)
  | dropToken (serial : Nat)
  | closeReceiver
  deriving DecidableEq

/-- The operations with an entry in flight under their own packet identifier. -/
inductive OpKind where
  | publishQoS1
  | publishQoS2
  | subscribe
  | unsubscribe
  deriving DecidableEq

/-- The packets that complete an operation in flight. -/
inductive Acknowledgement where
  | subAck (packet : SubAck)
  | unsubAck (packet : UnsubAck)
  | pubAck (packet : PubAck)
  | pubRec (packet : PubRec)
  deriving DecidableEq

namespace Acknowledgement

def operation : Acknowledgement → CompletedOperation
  | .subAck packet => .subscribe packet
  | .unsubAck packet => .unsubscribe packet
  | .pubAck packet => .publishQoS1 packet
  | .pubRec packet => .publishQoS2 packet

def kind : Acknowledgement → OpKind
  | .subAck _ => .subscribe
  | .unsubAck _ => .unsubscribe
  | .pubAck _ => .publishQoS1
  | .pubRec _ => .publishQoS2

def packetIdentifier : Acknowledgement → PacketIdentifier
  | .subAck packet => packet.packetIdentifier
  | .unsubAck packet => packet.packetIdentifier
  | .pubAck packet => packet.packetIdentifier
  | .pubRec packet => packet.packetIdentifier

end Acknowledgement

/-- A packet of the server that is handed to the session on an established connection. -/
inductive Incoming where
  | ack (acknowledgement : Acknowledgement)
  | publish (publish : Publish)
  | auth (auth : Auth)
  | pingResp
  deriving DecidableEq

/-- How an established connection ends. -/
inductive Disconnection where
  | client (disconnect : Disconnect)
  | server (disconnect : Disconnect)
  | transport
  deriving DecidableEq

inductive Event where
  | app (event : AppEvent)
  | elapse (duration : Nat)
  | connack (connack : ConnAck) (keepAlive : KeepAlive) (authMethod : Option Bytes)
      (sessionExpiryInterval : SessionExpiryInterval)
  | poll (polls : List Readiness)
  | incoming (packet : Incoming)
  | disconnected (disconnection : Disconnection)

/-- A notifier that fired, with the event it fired at, the number of connections made
so far and the expiry interval in effect afterwards. -/
structure Fired where
  firing : Firing
  event : Event
  connection : Nat
  expiryInterval : SessionExpiryInterval

/-- A packet handed to the network on the connection with this number. -/
structure Emission where
  connection : Nat
  outgoing : Outgoing
  deriving DecidableEq

/-- A QoS 1 PUBLISH received on the connection with this number. -/
structure Delivery where
  connection : Nat
  pkid : PacketIdentifier
  deriving DecidableEq

/-- The one use of a token: the PUBACK it chose and the notifier of its request. -/
structure TokenUse where
  token : PubAckToken
  notifier : Notifier
  puback : PubAck
  deriving DecidableEq

/-- An established connection: the interval of its CONNECT and that of its CONNACK. -/
structure Link where
  connect : SessionExpiryInterval
  connack : Option SessionExpiryInterval
  deriving DecidableEq

structure World where
  session : Session
  now : Nat := 0
  fresh : Notifier := 0
  tokens : List PubAckToken := []
  fired : List Fired := []
  emissions : List Emission := []
  deliveries : List Delivery := []
  uses : List TokenUse := []
  links : List Link := []

/-- Why a step has no successor: the program panics, or its types rule the call out. -/
inductive Stop where
  | panic (panic : Panic)
  | disabled
  deriving DecidableEq

namespace World

def new (maxPkid : PacketIdentifier) : World where
  session := .new maxPkid

/-- Connections established so far. The current one has this number. -/
def connections (world : World) : Nat := world.links.length

/-- Replace the session and record what fired. -/
def record (world : World) (event : Event) (session : Session) (fired : List Firing) : World :=
  { world with
    session := session
    fired := world.fired ++ fired.map fun firing =>
      ⟨firing, event, world.connections, session.expiryInterval⟩ }

def withChannels (world : World) (update : Channels → Channels) : World :=
  { world with session := { world.session with ch := update world.session.ch } }

/-- Submit a request that carries a new notifier. -/
def submit (world : World) (update : Notifier → Channels → Channels) : World :=
  { world.withChannels (update world.fresh) with fresh := world.fresh + 1 }

/-- Use a token, which moves it out of the application's hands. -/
def useToken (world : World) (serial : Nat) (reasonCode : PubAckReasonCode)
    (otherProperties : PubAckOtherProperties) : World :=
  match world.tokens.find? (fun token => token.serial == serial) with
  | none => world
  | some token =>
    let puback : PubAck := ⟨token.pkid, reasonCode, otherProperties⟩
    { world.submit fun notifier ch =>
        { ch with ackRx := ch.ackRx ++ [.pubAck notifier puback token.epoch] } with
      tokens := world.tokens.filter (fun other => !(other.serial == serial))
      uses := world.uses ++ [⟨token, world.fresh, puback⟩] }

def app (world : World) : AppEvent → World
  | .subscribe topicFilter options otherProperties => world.submit fun notifier ch =>
    { ch with subRx := ch.subRx ++ [.subscribe notifier topicFilter options otherProperties] }
  | .unsubscribe topicFilter otherProperties => world.submit fun notifier ch =>
    { ch with subRx := ch.subRx ++ [.unsubscribe notifier topicFilter otherProperties] }
  | .publishQoS0 topicName payload retain otherProperties => world.submit fun notifier ch =>
    { ch with oPubQ0Rx := ch.oPubQ0Rx ++ [⟨notifier, topicName, payload, retain, otherProperties⟩] }
  | .publishQoS1 topicName payload retain otherProperties => world.submit fun notifier ch =>
    { ch with oPubQ12Rx := ch.oPubQ12Rx ++
        [.publishQoS1 ⟨notifier, topicName, payload, retain, otherProperties⟩] }
  | .ping => world.submit fun notifier ch => { ch with pingRx := ch.pingRx ++ [notifier] }
  | .reauth reasonCode authentication reasonString userProperties =>
    world.submit fun notifier ch =>
      { ch with authRx := ch.authRx ++
          [⟨notifier, ⟨reasonCode, some authentication, reasonString, userProperties⟩⟩] }
  | .disconnect disconnect => world.withChannels fun ch =>
    match ch.disconnectRx with
    | some .waiting => { ch with disconnectRx := some (.requested disconnect) }
    | _ => ch
  | .dropDisconnectHandle => world.withChannels fun ch =>
    match ch.disconnectRx with
    | some .waiting => { ch with disconnectRx := some .closed }
    | _ => ch
  | .acknowledge serial reasonCode otherProperties =>
    world.useToken serial reasonCode otherProperties
  | .dropToken serial => world.useToken serial .success {}
  | .closeReceiver => world.withChannels fun ch => { ch with iPubOpen := false }

/-- The CONNACK of a connection attempt. A success opens the connection with a new
disconnect handle. -/
def connack (world : World) (connack : ConnAck) (keepAlive : KeepAlive)
    (authMethod : Option Bytes) (sessionExpiryInterval : SessionExpiryInterval) :
    World × Except ProtocolError Unit :=
  let event := Event.connack connack keepAlive authMethod sessionExpiryInterval
  let handled := world.session.incomingConnack world.now connack keepAlive authMethod
    sessionExpiryInterval
  match handled.result, connack.reasonCode with
  | .ok (), .success _ =>
    let session := { handled.session with
      ch := { handled.session.ch with disconnectRx := some .waiting } }
    ({ world.record event session handled.fired with
        links := world.links ++
          [⟨sessionExpiryInterval, connack.otherProperties.sessionExpiryInterval⟩] }, .ok ())
  | result, _ => (world.record event handled.session handled.fired, result)

/-- One poll of the next outgoing packet. -/
def poll (world : World) (polls : List Readiness) : Except Panic (Option Packet × World) :=
  match world.session.nextOutgoingPacket world.now polls with
  | .error panic => .error panic
  | .ok (outgoing, session, fired) =>
    .ok (outgoing.map (·.packet),
      { world.record (.poll polls) session fired with
        emissions := world.emissions ++
          outgoing.toList.map (Emission.mk world.connections) })

/-- Deliver a PUBLISH of the server. -/
def incomingPublish (world : World) (publish : Publish) : Except Panic World :=
  let serial := world.deliveries.length
  match world.session.incomingPublish serial world.fresh publish with
  | .error panic => .error panic
  | .ok (delivered, session) =>
    match publish.packetIdentifierDupQoS with
    | .atLeastOnce pkid _ =>
      let deliveries := world.deliveries ++ [Delivery.mk world.connections pkid]
      match delivered with
      | some (.qos1 _ token) =>
        .ok { world with
          session := session, deliveries := deliveries, tokens := world.tokens ++ [token] }
      | _ =>
        .ok { world with
          session := session, deliveries := deliveries, fresh := world.fresh + 1
          uses := world.uses ++ [⟨⟨serial, pkid, world.session.connectionEpoch⟩, world.fresh,
            ⟨pkid, .success, {}⟩⟩] }
    | _ => .ok { world with session := session }

/-- Handle a packet of the server. -/
def incoming (world : World) (packet : Incoming) :
    Except Panic (World × Except ProtocolError Unit) :=
  let event := Event.incoming packet
  match packet with
  | .ack acknowledgement =>
    match world.session.completeInflight acknowledgement.operation with
    | .error panic => .error panic
    | .ok handled => .ok (world.record event handled.session handled.fired, handled.result)
  | .publish publish => (world.incomingPublish publish).map (·, .ok ())
  | .auth auth =>
    let handled := world.session.incomingAuth auth
    .ok (world.record event handled.session handled.fired, handled.result)
  | .pingResp =>
    let (session, fired) := world.session.incomingPingresp world.now
    .ok (world.record event session fired, .ok ())

def disconnected (world : World) (disconnection : Disconnection) : World :=
  let (session, fired) :=
    match disconnection with
    | .client disconnect => world.session.clientDisconnect disconnect
    | .server disconnect => world.session.serverDisconnect disconnect
    | .transport => world.session.transportDisconnect
  world.record (.disconnected disconnection) session fired

/-- One call into the session. A CONNACK is handled only between connections, and
everything else that touches the network only on one. -/
def step (world : World) : Event → Except Stop World
  | .app event => .ok (world.app event)
  | .elapse duration => .ok { world with now := world.now + duration }
  | .connack connack keepAlive authMethod sessionExpiryInterval =>
    if world.session.isConnected then .error .disabled
    else .ok (world.connack connack keepAlive authMethod sessionExpiryInterval).1
  | .poll polls =>
    if world.session.isConnected then (world.poll polls).mapError .panic |>.map (·.2)
    else .error .disabled
  | .incoming packet =>
    if world.session.isConnected then (world.incoming packet).mapError .panic |>.map (·.1)
    else .error .disabled
  | .disconnected disconnection =>
    if world.session.isConnected then .ok (world.disconnected disconnection)
    else .error .disabled

abbrev run (start : World) (events : List Event) : Except Stop World :=
  Transition.exec step start events

end World

end MqttClient.Client
