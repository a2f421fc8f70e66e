import MqttClient.Client.AuthExchange

/-! Challenges of the server. An attempt to connect and the session each decide on their own
whether an AUTH is one. -/

namespace MqttClient.Client

open MqttClient.Proto

inductive ConnectError where
  | protocol (error : ProtocolError)
  | io
  | rejected (connack : ConnAck)
  | responseTimeout
  deriving DecidableEq

def InnerConnectionError.toConnectError : InnerConnectionError → ConnectError
  | .io => .io
  | .protocol error => .protocol error

/-- What an attempt with enhanced authentication tells the application. -/
inductive ConnectEnhancedAuthResult where
  | continue (auth : Auth)
  | success (connack : ConnAck)
  | failure (error : ConnectError)
  deriving DecidableEq

namespace Machine

/-- The result of `EnhancedAuthHandle::receive_response`, which leaves the machine in
`receiveResponse`. -/
def receiveResponseResult (machine : Machine) (options : ConnectOptions) :
    Response → ConnectEnhancedAuthResult
  | .packet (.connAck connack) =>
    match (machine.world.connack connack options.keepAlive.toKeepAlive options.authMethod
      options.properties.sessionExpiryInterval).2 with
    | .error error => .failure (.protocol error)
    | .ok () =>
      match connack.reasonCode with
      | .success _ => .success connack
      | .refused _ => .failure (.rejected connack)
  | .packet (.auth auth) =>
    if authenticationMethodMatches auth.authentication options.authMethod then .continue auth
    else .failure (.protocol .authenticationMethodMismatch)
  | .packet _ => .failure (.protocol .unexpectedPacket)
  | .failed error => .failure error.toConnectError
  | .timeout => .failure .responseTimeout

/-- The result says who holds the session afterwards. -/
theorem receiveResponse_phase (machine : Machine) {options : ConnectOptions}
    {authentication : Authentication} (enhanced : options.authentication = some authentication)
    (response : Response) :
    (machine.receiveResponse options response).phase =
      match machine.receiveResponseResult options response with
      | .continue _ => .challenged options
      | .success _ => .running { cfgPingrespTimeout := options.keepAlive.pingrespTimeout }
      | .failure _ => .idle := by
  cases response with
  | packet packet =>
    cases packet with
    | connAck connack =>
      simp only [receiveResponse, receiveResponseResult]
      cases (machine.world.connack connack options.keepAlive.toKeepAlive options.authMethod
        options.properties.sessionExpiryInterval).2 with
      | error error => rfl
      | ok result => cases connack.reasonCode <;> rfl
    | auth auth =>
      have own : options.authMethod = some authentication.method.asBytes := by
        simp [ConnectOptions.authMethod, enhanced]
      simp only [receiveResponse, receiveResponseResult, enhanced, own]
      split <;> rfl
    | _ => rfl
  | failed error => rfl
  | timeout => rfl

end Machine

/-- The AUTH resolves the pending re-authentication with a challenge. -/
def Session.Challenges (session : Session) (notifier : Notifier) (auth : Auth) : Prop :=
  ∃ method, .reauth notifier (.complete (.continue auth method)) ∈ (session.incomingAuth auth).fired

/-- An AUTH that asks to go on with the exchange for this method. -/
def Auth.IsChallenge (auth : Auth) (method : ByteStr) : Prop :=
  auth.reasonCode = .continueAuthentication ∧ Carries auth.authentication method

/-- The attempt and the session take the same packets for challenges, and the attempt fails
with a protocol error at any other. -/
def ChallengesAgree (machine : Machine) (options : ConnectOptions) (session : Session)
    (notifier : Notifier) (method : ByteStr) (auth : Auth) : Prop :=
  (machine.receiveResponseResult options (.packet (.auth auth)) = .continue auth ↔
    Auth.IsChallenge auth method) ∧
  (session.Challenges notifier auth ↔ Auth.IsChallenge auth method) ∧
  (¬ Auth.IsChallenge auth method → ∃ error,
    machine.receiveResponseResult options (.packet (.auth auth)) = .failure (.protocol error) ∧
      (machine.receiveResponse options (.packet (.auth auth))).phase = .idle)

/-- The session looks at the reason code and at the method. -/
theorem Session.challenges_iff {session : Session} {method : ByteStr} {notifier : Notifier}
    (pending : session.inflight.auth = some (method, notifier)) (auth : Auth) :
    session.Challenges notifier auth ↔ Auth.IsChallenge auth method := by
  simp only [Challenges, Auth.IsChallenge, incomingAuth, pending,
    ← authenticationMethodMatches_iff]
  split
  · rename_i matched
    cases code : auth.reasonCode <;> simp [matched]
  · rename_i differs
    simp [differs]

/-- The attempt looks at the method only. -/
theorem Machine.receiveResponseResult_auth (machine : Machine) {options : ConnectOptions}
    {authentication : Authentication} (enhanced : options.authentication = some authentication)
    (auth : Auth) :
    (Carries auth.authentication authentication.method ∧
      machine.receiveResponseResult options (.packet (.auth auth)) = .continue auth) ∨
    (¬ Carries auth.authentication authentication.method ∧
      machine.receiveResponseResult options (.packet (.auth auth)) =
        .failure (.protocol .authenticationMethodMismatch)) := by
  have own : options.authMethod = some authentication.method.asBytes := by
    simp [ConnectOptions.authMethod, enhanced]
  simp only [receiveResponseResult, own, ← authenticationMethodMatches_iff]
  by_cases matched : authenticationMethodMatches auth.authentication
      (some authentication.method.asBytes) = true
  · exact .inl ⟨matched, if_pos matched⟩
  · exact .inr ⟨matched, if_neg matched⟩

/-- Whatever has happened so far in the attempt and in the session, they agree on an AUTH
exactly if it asks to go on or does not carry the method. -/
theorem challengesAgree_iff (machine : Machine) (options : ConnectOptions)
    (authentication : Authentication) (session : Session) (notifier : Notifier) (auth : Auth)
    (enhanced : options.authentication = some authentication)
    (pending : session.inflight.auth = some (authentication.method, notifier)) :
    ChallengesAgree machine options session notifier authentication.method auth ↔
      auth.reasonCode = .continueAuthentication ∨
        ¬ Carries auth.authentication authentication.method := by
  have phase := machine.receiveResponse_phase enhanced (.packet (.auth auth))
  have resolves := Session.challenges_iff pending auth
  rcases machine.receiveResponseResult_auth enhanced auth with
    ⟨carries, continues⟩ | ⟨differs, fails⟩
  · constructor
    · intro agree
      exact .inl (agree.1.mp continues).1
    · rintro (code | differs)
      · have challenge : Auth.IsChallenge auth authentication.method := ⟨code, carries⟩
        exact ⟨⟨fun _ => challenge, fun _ => continues⟩, resolves,
          fun other => absurd challenge other⟩
      · exact absurd carries differs
  · refine ⟨fun _ => .inr differs, fun _ => ⟨?_, resolves, fun _ => ⟨_, fails, ?_⟩⟩⟩
    · rw [fails]
      constructor
      · intro goesOn
        cases goesOn
      · intro challenge
        exact absurd challenge.2 differs
    · rw [phase, fails]

/-- A session with a pending re-authentication for the method "a". -/
def pendingSession : Session :=
  { Session.new .one with inflight := { auth := some (⟨⟨[0, 1, 97]⟩⟩, 0) } }

theorem challengesAgree_continue :
    ChallengesAgree (.new .one) AuthClient.enhancedOptions pendingSession 0 ⟨⟨[0, 1, 97]⟩⟩
      ⟨.continueAuthentication, some ⟨⟨⟨[0, 1, 97]⟩⟩, none⟩, none, []⟩ :=
  (challengesAgree_iff _ _ ⟨⟨⟨[0, 1, 97]⟩⟩, _⟩ _ _ _ rfl rfl).mpr (.inl rfl)

/-- A server that ends the initial exchange with an AUTH: the attempt takes it for a
challenge. -/
theorem not_challengesAgree_success :
    ¬ ChallengesAgree (.new .one) AuthClient.enhancedOptions pendingSession 0 ⟨⟨[0, 1, 97]⟩⟩
      ⟨.success, some ⟨⟨⟨[0, 1, 97]⟩⟩, none⟩, none, []⟩ := by
  intro agree
  have challenge := agree.1.mp rfl
  cases challenge.1

end MqttClient.Client
