import MqttClient.Client.World

/-! The client on its transport: connection attempts and the loop that drives an
established connection. Every point where the loop awaits is a phase, and the outcome
of what it awaits is part of the event. -/

namespace MqttClient.Client

open MqttClient.Proto

inductive KeepAliveConfig where
  | infinite
  | duration (pingAfter : NonZeroU16) (responseTimeout : Nat)

namespace KeepAliveConfig

def toKeepAlive : KeepAliveConfig → KeepAlive
  | .infinite => .infinite
  | .duration pingAfter _ => .duration pingAfter

/-- How long the loop waits for a PINGRESP. -/
def pingrespTimeout : KeepAliveConfig → Option Nat
  | .infinite => none
  | .duration _ responseTimeout => some responseTimeout

end KeepAliveConfig

/-- The arguments of a connection attempt. Enhanced authentication starts with
`authentication`. -/
structure ConnectOptions where
  cleanStart : Bool
  keepAlive : KeepAliveConfig
  will : Option (Publication × UInt32) := none
  username : Option ByteStr := none
  password : Option BinaryData := none
  clientId : Option ByteStr := none
  properties : ConnectOtherProperties := {}
  authentication : Option Authentication := none

namespace ConnectOptions

/-- The CONNECT that opens the attempt. -/
def mqttConnect (options : ConnectOptions) : Connect where
  username := options.username
  password := options.password
  will := options.will
  clientId := options.clientId
  cleanStart := options.cleanStart
  keepAlive := options.keepAlive.toKeepAlive
  otherProperties := { options.properties with authentication := options.authentication }

def authMethod (options : ConnectOptions) : Option Bytes :=
  options.authentication.map (·.method.asBytes)

end ConnectOptions

inductive InnerConnectionError where
  | io
  | protocol (error : ProtocolError)
  deriving DecidableEq

/-- How the loop of a connection ends without an error. -/
inductive InnerDisconnect where
  | application (disconnect : Disconnect)
  | server (disconnect : Disconnect)
  | pingTimeout
  deriving DecidableEq

/-- What the loop of a connection awaits. -/
inductive Await where
  | select
  | write (packet : Packet)
  | flush
  | flushDisconnect (disconnect : Disconnect)
  deriving DecidableEq

/-- The local state of the loop. -/
structure Loop where
  cfgPingrespTimeout : Option Nat
  pingrespTimer : Option Timer := none
  await : Await := .select

/-- Who holds the session: the application between connections, an attempt that awaits
the response of the server, the application during a challenge, or the loop. -/
inductive Phase where
  | idle
  | connecting (options : ConnectOptions)
  | challenged (options : ConnectOptions)
  | running (loop : Loop)

/-- The outcome of one poll of the reader. -/
inductive Read where
  | pending
  | packet (packet : Packet)
  | failed (error : InnerConnectionError)

/-- The outcome of awaiting the response to a CONNECT or an AUTH. -/
inductive Response where
  | packet (packet : Packet)
  | failed (error : InnerConnectionError)
  | timeout

inductive MachineEvent where
  | app (event : AppEvent)
  | elapse (duration : Nat)
  /-- An attempt whose transport and CONNECT succeed or fail. -/
  | connect (options : ConnectOptions) (sent : Bool)
  | response (response : Response)
  /-- The application answers a challenge; its AUTH is sent or fails. -/
  | continueAuth (sent : Bool)
  /-- One poll of the future that waits for an outgoing packet, an incoming packet or
  the PINGRESP deadline, in this order. -/
  | wake (polls : List Readiness) (read : Read) (expired : Bool)
  /-- A write completes. `polls` is the poll of the next outgoing packet after it. -/
  | written (sent : Bool) (polls : List Readiness)
  | flushed (sent : Bool)

/-- The client: a session with its surroundings, the phase, and the calls made into
the session so far, which no branch reads. -/
structure Machine where
  world : World
  phase : Phase := .idle
  calls : List Event := []

namespace Machine

def new (maxPkid : PacketIdentifier) : Machine where
  world := .new maxPkid

/-- A call into the session that leaves `world`. -/
def after (machine : Machine) (call : Event) (world : World) : Machine :=
  { machine with world := world, calls := machine.calls ++ [call] }

def moveTo (machine : Machine) (phase : Phase) : Machine := { machine with phase := phase }

/-- `run_until_disconnect` after its loop has ended: one transition of the session. -/
def runUntilDisconnect (machine : Machine) (ended : Except InnerConnectionError InnerDisconnect) :
    Machine :=
  let disconnection : Disconnection :=
    match ended with
    | .ok (.application disconnect) => .client disconnect
    | .ok (.server disconnect) => .server disconnect
    | .ok .pingTimeout => .transport
    | .error _ => .transport
  (machine.after (.disconnected disconnection) (machine.world.disconnected disconnection)).moveTo
    .idle

/-- Start to write a packet. A PINGREQ starts the wait for its PINGRESP. -/
def startWrite (machine : Machine) (loop : Loop) (packet : Packet) : Machine :=
  let loop :=
    match packet, loop.cfgPingrespTimeout with
    | .pingReq, some timeout => { loop with pingrespTimer := some (.new machine.world.now timeout) }
    | _, _ => loop
  machine.moveTo (.running { loop with await := .write packet })

/-- Hand a packet of the server to the session. An error ends the connection. -/
def dispatch (machine : Machine) (loop : Loop) (packet : Incoming) : Except Panic Machine :=
  match machine.world.incoming packet with
  | .error panic => .error panic
  | .ok (world, .ok ()) =>
    .ok ((machine.after (.incoming packet) world).moveTo (.running { loop with await := .select }))
  | .ok (world, .error error) =>
    .ok ((machine.after (.incoming packet) world).runUntilDisconnect (.error (.protocol error)))

/-- Handle a packet of the server. -/
def handle (machine : Machine) (loop : Loop) : Packet → Except Panic Machine
  | .auth auth => machine.dispatch loop (.auth auth)
  | .subAck suback => machine.dispatch loop (.ack (.subAck suback))
  | .unsubAck unsuback => machine.dispatch loop (.ack (.unsubAck unsuback))
  | .pubAck puback => machine.dispatch loop (.ack (.pubAck puback))
  | .pubRec pubrec => machine.dispatch loop (.ack (.pubRec pubrec))
  | .disconnect disconnect => .ok (machine.runUntilDisconnect (.ok (.server disconnect)))
  | .publish publish => machine.dispatch loop (.publish publish)
  | .pingResp => machine.dispatch { loop with pingrespTimer := none } .pingResp
  | _ => .ok (machine.runUntilDisconnect (.error (.protocol .unexpectedPacket)))

/-- Whether the wait for a PINGRESP is over. -/
def pingrespExpired (loop : Loop) (now : Nat) (expired : Bool) : Bool :=
  match loop.pingrespTimer with
  | some timer => expired && timer.deadline ≤ now
  | none => false

/-- One poll of the select: the next outgoing packet, then the reader, then the
deadline. -/
def wake (machine : Machine) (loop : Loop) (polls : List Readiness) (read : Read)
    (expired : Bool) : Except Panic Machine :=
  match machine.world.poll polls with
  | .error panic => .error panic
  | .ok (some packet, world) => .ok ((machine.after (.poll polls) world).startWrite loop packet)
  | .ok (none, world) =>
    let machine := machine.after (.poll polls) world
    match read with
    | .packet packet => machine.handle loop packet
    | .failed error => .ok (machine.runUntilDisconnect (.error error))
    | .pending =>
      if pingrespExpired loop world.now expired then
        .ok (machine.runUntilDisconnect (.ok .pingTimeout))
      else .ok machine

/-- A packet has been written: flush a DISCONNECT, or go on with what is ready. -/
def written (machine : Machine) (loop : Loop) (packet : Packet) (polls : List Readiness) :
    Except Panic Machine :=
  match packet with
  | .disconnect disconnect =>
    .ok (machine.moveTo (.running { loop with await := .flushDisconnect disconnect }))
  | _ =>
    match machine.world.poll polls with
    | .error panic => .error panic
    | .ok (some packet, world) => .ok ((machine.after (.poll polls) world).startWrite loop packet)
    | .ok (none, world) =>
      .ok ((machine.after (.poll polls) world).moveTo (.running { loop with await := .flush }))

/-- The response to an attempt. An AUTH is one only with enhanced authentication. -/
def receiveResponse (machine : Machine) (options : ConnectOptions) : Response → Machine
  | .packet (.connAck connack) =>
    let (world, result) := machine.world.connack connack options.keepAlive.toKeepAlive
      options.authMethod options.properties.sessionExpiryInterval
    let machine := machine.after
      (.connack connack options.keepAlive.toKeepAlive options.authMethod
        options.properties.sessionExpiryInterval) world
    match result, connack.reasonCode with
    | .ok (), .success _ =>
      machine.moveTo (.running { cfgPingrespTimeout := options.keepAlive.pingrespTimeout })
    | _, _ => machine.moveTo .idle
  | .packet (.auth auth) =>
    match options.authentication with
    | some authentication =>
      if authenticationMethodMatches auth.authentication (some authentication.method.asBytes) then
        machine.moveTo (.challenged options)
      else machine.moveTo .idle
    | none => machine.moveTo .idle
  | _ => machine.moveTo .idle

def liftPanic (outcome : Except Panic Machine) : Except Stop Machine := outcome.mapError .panic

def step (machine : Machine) : MachineEvent → Except Stop Machine
  | .app event => .ok (machine.after (.app event) (machine.world.app event))
  | .elapse duration =>
    .ok (machine.after (.elapse duration) { machine.world with now := machine.world.now + duration })
  | .connect options sent =>
    match machine.phase with
    | .idle => .ok (if sent then machine.moveTo (.connecting options) else machine)
    | _ => .error .disabled
  | .response response =>
    match machine.phase with
    | .connecting options => .ok (machine.receiveResponse options response)
    | _ => .error .disabled
  | .continueAuth sent =>
    match machine.phase with
    | .challenged options => .ok (machine.moveTo (if sent then .connecting options else .idle))
    | _ => .error .disabled
  | .wake polls read expired =>
    match machine.phase with
    | .running loop =>
      match loop.await with
      | .select => liftPanic (machine.wake loop polls read expired)
      | _ => .error .disabled
    | _ => .error .disabled
  | .written sent polls =>
    match machine.phase with
    | .running loop =>
      match loop.await with
      | .write packet =>
        if sent then liftPanic (machine.written loop packet polls)
        else .ok (machine.runUntilDisconnect (.error .io))
      | _ => .error .disabled
    | _ => .error .disabled
  | .flushed sent =>
    match machine.phase with
    | .running loop =>
      match loop.await with
      | .flush =>
        .ok (if sent then machine.moveTo (.running { loop with await := .select })
          else machine.runUntilDisconnect (.error .io))
      | .flushDisconnect disconnect =>
        .ok (machine.runUntilDisconnect
          (if sent then .ok (.application disconnect) else .error .io))
      | _ => .error .disabled
    | _ => .error .disabled

abbrev run (start : Machine) (events : List MachineEvent) : Except Stop Machine :=
  Transition.exec step start events

end Machine

end MqttClient.Client
