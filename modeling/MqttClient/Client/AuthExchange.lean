import MqttClient.Client.Reauth

/-! The exchange of enhanced authentication, of any length, up to its result. -/

namespace MqttClient.Client

open MqttClient.Proto

/-- Whether an attempt has neither succeeded nor failed so far. -/
def Phase.isExchange : Phase → Bool
  | .connecting _ => true
  | .challenged _ => true
  | _ => false

theorem Phase.not_isRunning_of_isExchange {phase : Phase} (during : phase.isExchange = true) :
    phase.isRunning = false := by
  cases phase with
  | running loop => cases during
  | _ => rfl

/-- Whether an event submits a request to the session. -/
def AuthEvent.usesChannels : AuthEvent → Bool
  | .client (.app _) => true
  | .reauth _ _ => true
  | .continueReauth _ _ => true
  | _ => false

/-- The packet carries an authentication method with these bytes. -/
def Carries (authentication : Option Authentication) (method : ByteStr) : Prop :=
  ∃ carried, authentication = some carried ∧ carried.method.asBytes = method.asBytes

theorem authenticationMethodMatches_iff {authentication : Option Authentication}
    {method : ByteStr} :
    authenticationMethodMatches authentication (some method.asBytes) = true ↔
      Carries authentication method := by
  cases authentication <;> simp [authenticationMethodMatches, Carries]

namespace AuthClient

variable {client next : AuthClient} {event : AuthEvent}

abbrev session (client : AuthClient) : Session := client.machine.world.session

/-- A step that starts during the exchange of an attempt. -/
def DuringExchange (client : AuthClient) (_ : AuthEvent) : Prop :=
  client.machine.phase.isExchange = true

/-- The ways an exchange goes on. -/
inductive Exchanging (client : AuthClient) : AuthEvent → AuthClient → Prop where
  | app (event : AuthEvent) (next : AuthClient) (uses : event.usesChannels = true)
      (phase : next.machine.phase = client.machine.phase)
      (session : ∃ ch, next.session = { client.session with ch := ch })
      (sent : next.sent = client.sent) (received : next.received = client.received) :
      Exchanging client event next
  | elapse (duration : Nat) (next : AuthClient)
      (phase : next.machine.phase = client.machine.phase) (session : next.session = client.session)
      (sent : next.sent = client.sent) (received : next.received = client.received) :
      Exchanging client (.client (.elapse duration)) next
  | answered (arguments : AuthArguments) (written : Bool) (options : ConnectOptions)
      (method : ByteStr) (next : AuthClient)
      (challenged : client.machine.phase = .challenged options)
      (own : options.method = some method)
      (phase : next.machine.phase = if written then .connecting options else .idle)
      (session : next.session = client.session)
      (sent : next.sent = client.sent ++ [arguments.auth .continueAuthentication method])
      (received : next.received = client.received) :
      Exchanging client (.continueAuth arguments written) next
  | responded (response : Response) (options : ConnectOptions)
      (waiting : client.machine.phase = .connecting options) :
      Exchanging client (.client (.response response))
        (client.observe (.response response) (client.machine.receiveResponse options response))

/-- Every step during an exchange is one of these. -/
theorem step_exchanging (during : DuringExchange client event)
    (stepped : client.step event = .ok next) : Exchanging client event next := by
  unfold DuringExchange at during
  cases event with
  | client event =>
    simp only [step] at stepped
    split at stepped
    · cases stepped
    · cases event with
      | app call =>
        cases stepped
        obtain ⟨ch, same, _⟩ := client.machine.world.app_session call
        exact .app _ _ rfl rfl ⟨ch, same⟩ rfl rfl
      | elapse duration =>
        cases stepped
        exact .elapse duration _ rfl rfl rfl rfl
      | response response =>
        simp only [Machine.step] at stepped
        split at stepped
        · rename_i options waiting
          cases stepped
          exact .responded response options waiting
        · cases stepped
      | continueAuth sent => simp [MachineEvent.needsHandle] at *
      | _ =>
        simp only [Machine.step] at stepped
        split at stepped
        · rename_i phase
          simp [phase, Phase.isExchange] at during
        · cases stepped
  | continueAuth arguments sent =>
    simp only [step] at stepped
    split at stepped
    · rename_i options challenged
      split at stepped
      · rename_i method own
        simp only [Machine.step, challenged] at stepped
        cases stepped
        exact .answered arguments sent options method _ challenged own rfl rfl rfl rfl
      · cases stepped
    · cases stepped
  | reauth handle arguments =>
    simp only [step] at stepped
    split at stepped
    · cases stepped
      obtain ⟨ch, same, _⟩ := client.machine.world.app_session (.reauth .reAuthenticate _ _ _)
      exact .app _ _ rfl rfl ⟨ch, same⟩ rfl rfl
    · cases stepped
  | continueReauth token arguments =>
    simp only [step] at stepped
    split at stepped
    · cases stepped
      obtain ⟨ch, same, _⟩ := client.machine.world.app_session (.reauth .continueAuthentication _ _ _)
      exact .app _ _ rfl rfl ⟨ch, same⟩ rfl rfl
    · cases stepped

/-- A response goes on with the exchange, or ends it without a trace, or opens the
connection. What goes on or opens carries the method. -/
theorem receiveResponse_exchange (machine : Machine) {options : ConnectOptions}
    {authentication : Authentication} (enhanced : options.authentication = some authentication)
    (response : Response) :
    let next := machine.receiveResponse options response
    (∃ auth, response = .packet (.auth auth) ∧
        Carries auth.authentication authentication.method ∧
        next.phase = .challenged options ∧ next.world = machine.world) ∨
      (next.phase = .idle ∧ next.world = machine.world) ∨
      ∃ connack loop, response = .packet (.connAck connack) ∧
        Carries connack.otherProperties.authentication authentication.method ∧
        next.phase = .running loop ∧ next.world.session.connected = some connack := by
  have failed : machine.receiveResponse options response = machine.moveTo .idle →
      (machine.receiveResponse options response).phase = .idle ∧
        (machine.receiveResponse options response).world = machine.world := by
    intro same
    rw [same]
    exact ⟨rfl, rfl⟩
  cases response with
  | packet packet =>
    cases packet with
    | connAck connack =>
      rcases machine.receiveResponse_cases options connack with
        idle | ⟨sessionPresent, code, matched, running, world⟩
      · exact .inr (.inl idle)
      · refine .inr (.inr ⟨connack, _, rfl, ?_, running, ?_⟩)
        · have own : options.authMethod = some authentication.method.asBytes := by
            simp [ConnectOptions.authMethod, enhanced]
          rw [own] at matched
          exact authenticationMethodMatches_iff.mp matched
        · rw [world]
          rfl
    | auth auth =>
      by_cases matched : authenticationMethodMatches auth.authentication
          (some authentication.method.asBytes) = true
      · refine .inl ⟨auth, rfl, authenticationMethodMatches_iff.mp matched, ?_, ?_⟩ <;>
          simp [Machine.receiveResponse, enhanced, matched, Machine.moveTo]
      · refine .inr (.inl (failed ?_))
        simp [Machine.receiveResponse, enhanced, matched]
    | _ => exact .inr (.inl (failed rfl))
  | failed error => exact .inr (.inl (failed rfl))
  | timeout => exact .inr (.inl (failed rfl))

/-- The state of an exchange that `before` started, up to its result: each AUTH sent
carries the method, the session is kept unless the exchange succeeds, and a success means
that every AUTH received and the CONNACK carry the method. -/
structure Exchanged (before : AuthClient) (options : ConnectOptions) (method : ByteStr)
    (client : AuthClient) : Prop where
  sent : ∀ auth ∈ client.sent, Carries auth.authentication method
  underway : ∀ other, client.machine.phase = .connecting other ∨
    client.machine.phase = .challenged other → other = options
  received : client.machine.phase ≠ .idle →
    ∀ auth ∈ client.received, Carries auth.authentication method
  kept : client.machine.phase.isRunning = false →
    client.session = { before.session with ch := client.session.ch }
  accepted : client.machine.phase.isRunning = true → ∃ connack,
    client.session.connected = some connack ∧
      Carries connack.otherProperties.authentication method

namespace Exchanged

variable {before : AuthClient} {options : ConnectOptions} {authentication : Authentication}

/-- A step that leaves the session to the application. -/
private theorem keep {method : ByteStr} (exchanged : Exchanged before options method client)
    (during : client.machine.phase.isExchange = true)
    (sent : ∀ auth ∈ next.sent, Carries auth.authentication method)
    (underway : ∀ other, next.machine.phase = .connecting other ∨
      next.machine.phase = .challenged other → other = options)
    (received : next.machine.phase ≠ .idle →
      ∀ auth ∈ next.received, Carries auth.authentication method)
    (stopped : next.machine.phase.isRunning = false)
    (session : ∃ ch, next.session = { client.session with ch := ch }) :
    Exchanged before options method next := by
  refine ⟨sent, underway, received, fun _ => ?_, fun running => ?_⟩
  · obtain ⟨ch, same⟩ := session
    have earlier := exchanged.kept (Phase.not_isRunning_of_isExchange during)
    rw [same, earlier]
  · rw [stopped] at running
    cases running

theorem step (enhanced : options.authentication = some authentication)
    (exchanged : Exchanged before options authentication.method client)
    (during : DuringExchange client event) (stepped : client.step event = .ok next) :
    Exchanged before options authentication.method next := by
  have waits : client.machine.phase ≠ .idle := by
    intro idle
    rw [DuringExchange, idle] at during
    cases during
  have quiet := Phase.not_isRunning_of_isExchange during
  cases step_exchanging during stepped with
  | app event next uses phase session sent received =>
    refine exchanged.keep during ?_ ?_ ?_ ?_ session
    · exact sent ▸ exchanged.sent
    · exact phase ▸ exchanged.underway
    · exact phase ▸ received ▸ exchanged.received
    · exact phase ▸ quiet
  | elapse duration next phase session sent received =>
    refine exchanged.keep during ?_ ?_ ?_ ?_ ⟨client.session.ch, session⟩
    · exact sent ▸ exchanged.sent
    · exact phase ▸ exchanged.underway
    · exact phase ▸ received ▸ exchanged.received
    · exact phase ▸ quiet
  | answered arguments written options' method next challenged own phase session sent received =>
    obtain rfl := exchanged.underway options' (.inr challenged)
    refine exchanged.keep during ?_ ?_ ?_ ?_ ⟨client.session.ch, session⟩
    · intro auth member
      rw [sent] at member
      rcases List.mem_append.mp member with old | new
      · exact exchanged.sent auth old
      · obtain rfl := List.mem_singleton.mp new
        obtain rfl : authentication.method = method := by
          simpa [ConnectOptions.method, enhanced] using own
        exact ⟨_, rfl, rfl⟩
    · intro other goes
      rw [phase] at goes
      cases written with
      | true => simpa [eq_comm] using goes
      | false => simp at goes
    · intro _
      exact received ▸ exchanged.received waits
    · cases written <;> simp [phase, Phase.isRunning]
  | responded response options' waiting =>
    obtain rfl := exchanged.underway options' (.inl waiting)
    have earlier := exchanged.received waits
    have sent : ∀ auth ∈ sentAuths client.sent (.response response),
        Carries auth.authentication authentication.method := exchanged.sent
    rcases receiveResponse_exchange client.machine enhanced response with
      ⟨auth, rfl, carries, phase, world⟩ | ⟨phase, world⟩ | ⟨connack, loop, rfl, carries, phase, connected⟩
    · refine exchanged.keep during sent ?_ (fun _ => ?_) ?_ ⟨client.session.ch, ?_⟩
      · intro other goes
        simpa [observe, phase, eq_comm] using goes
      · intro other member
        rcases List.mem_append.mp member with old | new
        · exact earlier other old
        · exact List.mem_singleton.mp new ▸ carries
      · simp [observe, phase, Phase.isRunning]
      · rw [session, observe, world]
    · refine exchanged.keep during sent ?_ ?_ ?_ ⟨client.session.ch, ?_⟩
      · intro other goes
        simp [observe, phase] at goes
      · intro notIdle
        exact absurd phase notIdle
      · simp [observe, phase, Phase.isRunning]
      · rw [session, observe, world]
    · refine ⟨sent, ?_, fun _ => earlier, ?_, fun _ => ⟨connack, connected, carries⟩⟩
      · intro other goes
        simp [observe, phase] at goes
      · intro stopped
        simp [observe, phase, Phase.isRunning] at stopped

end Exchanged

theorem receiveResponse_stopped (machine : Machine) (options : ConnectOptions)
    (response : Response)
    (stopped : (machine.receiveResponse options response).phase.isRunning = false) :
    (machine.receiveResponse options response).world = machine.world := by
  cases response with
  | packet packet =>
    cases packet with
    | connAck connack =>
      rcases machine.receiveResponse_cases options connack with
        ⟨_, same⟩ | ⟨sessionPresent, _, _, running, _⟩
      · exact same
      · rw [running] at stopped
        cases stopped
    | auth auth =>
      simp only [Machine.receiveResponse]
      split
      · split <;> rfl
      · rfl
    | _ => rfl
  | failed error => rfl
  | timeout => rfl

/-- An exchange in which the application submits nothing leaves the session as it is,
unless it succeeds. -/
theorem run_session {rest : List AuthEvent}
    (during : Transition.Along step DuringExchange client rest)
    (silent : ∀ event ∈ rest, event.usesChannels = false) (ran : run client rest = .ok next)
    (stopped : next.machine.phase.isRunning = false) : next.session = client.session := by
  induction rest generalizing client with
  | nil =>
    cases ran
    rfl
  | cons event rest ih =>
    simp only [run, Transition.exec] at ran
    split at ran
    · rename_i middle stepped
      obtain ⟨here, later⟩ := (Transition.Along.cons_ok stepped).mp during
      have following := ih later (fun other member => silent other (List.mem_cons_of_mem _ member))
        ran
      rw [following]
      cases step_exchanging here stepped with
      | app event middle uses => simp [silent event] at uses
      | elapse duration middle phase session => exact session
      | answered _ _ _ _ middle _ _ _ session => exact session
      | responded response options waiting =>
        have quiet : (client.machine.receiveResponse options response).phase.isRunning = false := by
          cases rest with
          | nil =>
            cases ran
            exact stopped
          | cons event rest => exact Phase.not_isRunning_of_isExchange later.1
        exact congrArg World.session (receiveResponse_stopped client.machine options response quiet)
    · cases ran

/-- Every attempt with enhanced authentication, up to its result. The exchange sends only
AUTH packets with the method of the attempt, and it succeeds only when every AUTH received
and the CONNACK carry that method. While it lasts and when it fails, the session is as it
was before, apart from what the application submits. -/
theorem enhancedAuth_exchange (before : AuthClient) (options : ConnectOptions)
    (authentication : Authentication) (sent : Bool) (rest : List AuthEvent)
    (opened final : AuthClient) (idle : before.machine.phase = .idle)
    (enhanced : options.authentication = some authentication)
    (connects : before.step (.client (.connect options sent)) = .ok opened)
    (during : Transition.Along step DuringExchange opened rest)
    (ran : run opened rest = .ok final) :
    (∀ auth ∈ final.sent, Carries auth.authentication authentication.method) ∧
    (final.machine.phase.isRunning = true →
      (∀ auth ∈ final.received, Carries auth.authentication authentication.method) ∧
      ∃ connack, final.session.connected = some connack ∧
        Carries connack.otherProperties.authentication authentication.method) ∧
    (final.machine.phase = .idle →
      final.session = { before.session with ch := final.session.ch } ∧
      ((∀ event ∈ rest, event.usesChannels = false) → final.session = before.session)) := by
  obtain ⟨attempted, session⟩ :
      Exchanged before options authentication.method opened ∧ opened.session = before.session := by
    simp only [step, MachineEvent.needsHandle, Machine.step, idle] at connects
    cases connects
    cases sent with
    | true =>
      refine ⟨⟨by simp [observe, sentAuths], ?_, by simp [observe, receivedAuths], fun _ => rfl, ?_⟩,
        rfl⟩
      · intro other waiting
        simpa [observe, Machine.moveTo, eq_comm] using waiting
      · intro running
        cases running
    | false =>
      refine ⟨⟨by simp [observe, sentAuths], ?_, by simp [observe, receivedAuths], fun _ => rfl, ?_⟩,
        rfl⟩
      · intro other waiting
        simp [observe, idle] at waiting
      · intro running
        simp [observe, idle, Phase.isRunning] at running
  have exchanged := Transition.exec_invariant
    (Exchanged before options authentication.method) attempted
    (fun _ _ _ exchanged here stepped => exchanged.step enhanced here stepped) during ran
  refine ⟨exchanged.sent, ?_, ?_⟩
  · intro running
    refine ⟨exchanged.received ?_, exchanged.accepted running⟩
    intro stopped
    rw [stopped] at running
    cases running
  · intro failed
    have stopped : final.machine.phase.isRunning = false := by rw [failed]; rfl
    exact ⟨exchanged.kept stopped, fun silent =>
      (run_session during silent ran stopped).trans session⟩

/-- A challenge with the method "a", its answer and the CONNACK. -/
def challengedExchange : List AuthEvent :=
  [.client (.response (.packet (.auth
      ⟨.continueAuthentication, some ⟨⟨⟨[0, 1, 97]⟩⟩, none⟩, none, []⟩))),
    .continueAuth {} true,
    .client (.response (.packet (.connAck
      ⟨.success false, { authentication := some ⟨⟨⟨[0, 1, 97]⟩⟩, none⟩ }⟩)))]

theorem enhancedAuth_exchange_challenged :
    ∃ opened final, (new .one).step (.client (.connect enhancedOptions true)) = .ok opened ∧
      run opened challengedExchange = .ok final ∧ final.machine.phase.isRunning = true ∧
      final.sent.length = 1 ∧
      (∀ auth ∈ final.sent, Carries auth.authentication ⟨⟨[0, 1, 97]⟩⟩) ∧
      ∀ auth ∈ final.received, Carries auth.authentication ⟨⟨[0, 1, 97]⟩⟩ := by
  have reached : ∃ opened final,
      (new .one).step (.client (.connect enhancedOptions true)) = .ok opened ∧
      run opened challengedExchange = .ok final ∧
      Transition.Along step DuringExchange opened challengedExchange ∧
      final.machine.phase.isRunning = true ∧ final.sent.length = 1 := by
    refine ⟨_, _, rfl, rfl, ?_, rfl, rfl⟩
    refine (Transition.Along.cons_ok rfl).mpr ⟨rfl, ?_⟩
    refine (Transition.Along.cons_ok rfl).mpr ⟨rfl, ?_⟩
    exact (Transition.Along.cons_ok rfl).mpr ⟨rfl, trivial⟩
  obtain ⟨opened, final, connects, ran, during, running, one⟩ := reached
  obtain ⟨sent, succeeded, _⟩ := enhancedAuth_exchange (new .one) enhancedOptions _ true
    challengedExchange opened final rfl rfl connects during ran
  exact ⟨opened, final, connects, ran, running, one, sent, (succeeded running).1⟩

end AuthClient

end MqttClient.Client
