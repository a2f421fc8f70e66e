import MqttClient.Client.Connection

/-! Enhanced authentication as the application drives it: the exchange before a CONNACK,
and the handles and tokens for a re-authentication. Both fix the method they use. -/

namespace MqttClient.Client

open MqttClient.Proto

/-- The data and the properties of an AUTH of the application. -/
structure AuthArguments where
  authenticationData : Option BinaryData := none
  reasonString : Option ByteStr := none
  userProperties : UserProperties := []
  deriving DecidableEq

/-- The AUTH packet of these arguments for a method. -/
def AuthArguments.auth (arguments : AuthArguments) (reasonCode : AuthenticateReasonCode)
    (method : ByteStr) : Auth where
  reasonCode := reasonCode
  authentication := some ⟨method, arguments.authenticationData⟩
  reasonString := arguments.reasonString
  userProperties := arguments.userProperties

inductive AuthEvent where
  | client (event : MachineEvent)
  /-- `EnhancedAuthHandle::continue_auth`, whose AUTH is sent or fails. -/
  | continueAuth (arguments : AuthArguments) (sent : Bool)
  /-- `ReauthHandle::reauth`; the handle stays with the application. -/
  | reauth (handle : Nat) (arguments : AuthArguments)
  /-- `ReauthToken::continue_reauth`, which uses the token up. -/
  | continueReauth (token : Nat) (arguments : AuthArguments)

/-- The steps that an application takes only through a handle or a token. -/
def MachineEvent.needsHandle : MachineEvent → Bool
  | .app (.reauth _ _ _ _) => true
  | .continueAuth _ => true
  | _ => false

/-- The client with the methods of the handles and tokens it has given out. `methods` are
those of the CONNECTs of its connections; `sent` and `received` are the AUTH packets of
the last attempt. -/
structure AuthClient where
  machine : Machine
  methods : List (Option ByteStr) := []
  handles : List ByteStr := []
  tokens : List ByteStr := []
  sent : List Auth := []
  received : List Auth := []

namespace ConnectOptions

def method (options : ConnectOptions) : Option ByteStr := options.authentication.map (·.method)

end ConnectOptions

namespace AuthClient

def new (maxPkid : PacketIdentifier) : AuthClient where
  machine := .new maxPkid

/-- The method of the CONNECT of a connection that a step opens. -/
def opened (before after : Machine) : Option (Option ByteStr) :=
  match before.phase, after.phase with
  | .connecting options, .running _ => some options.method
  | _, _ => none

/-- The method of the token that a fired notifier hands over. -/
def issuedToken (fired : Fired) : Option ByteStr :=
  match fired.firing with
  | .reauth _ (.complete (.continue _ method)) => some method
  | _ => none

/-- The methods of the tokens that a step hands over. -/
def issuedTokens (before after : Machine) : List ByteStr :=
  (after.world.fired.drop before.world.fired.length).filterMap issuedToken

/-- The AUTH packets of the server that a step adds to those of the attempt. -/
def receivedAuths (received : List Auth) : MachineEvent → List Auth
  | .connect _ _ => []
  | .response (.packet (.auth auth)) => received ++ [auth]
  | _ => received

def sentAuths (sent : List Auth) : MachineEvent → List Auth
  | .connect _ _ => []
  | _ => sent

/-- The client after a step of the machine. -/
def observe (client : AuthClient) (event : MachineEvent) (next : Machine) : AuthClient where
  machine := next
  methods := client.methods ++ (opened client.machine next).toList
  handles := client.handles ++ ((opened client.machine next).bind id).toList
  tokens := client.tokens ++ issuedTokens client.machine next
  sent := sentAuths client.sent event
  received := receivedAuths client.received event

def step (client : AuthClient) : AuthEvent → Except Stop AuthClient
  | .client event =>
    if event.needsHandle then .error .disabled
    else (client.machine.step event).map (client.observe event)
  | .continueAuth arguments sent =>
    match client.machine.phase with
    | .challenged options =>
      match options.method with
      | some method =>
        (client.machine.step (.continueAuth sent)).map fun next =>
          { client with
            machine := next
            sent := client.sent ++ [arguments.auth .continueAuthentication method] }
      | none => .error .disabled
    | _ => .error .disabled
  | .reauth handle arguments =>
    match client.handles[handle]? with
    | some method =>
      (client.machine.step (.app (.reauth .reAuthenticate ⟨method, arguments.authenticationData⟩
        arguments.reasonString arguments.userProperties))).map fun next =>
          { client with machine := next }
    | none => .error .disabled
  | .continueReauth token arguments =>
    match client.tokens[token]? with
    | some method =>
      (client.machine.step (.app (.reauth .continueAuthentication
        ⟨method, arguments.authenticationData⟩ arguments.reasonString
        arguments.userProperties))).map fun next =>
          { client with machine := next, tokens := client.tokens.eraseIdx token }
    | none => .error .disabled

abbrev run (start : AuthClient) (events : List AuthEvent) : Except Stop AuthClient :=
  Transition.exec step start events

end AuthClient

end MqttClient.Client
