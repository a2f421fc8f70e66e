import MqttClient.Client.WorldSpec

/-! AUTH and PINGREQ: exchanges with the server that have no packet identifier. What a step
of the session does to the requests, to what is in flight and to the notifiers of these two. -/

namespace MqttClient.Client

open MqttClient.Proto

/-- The notifier of a re-authentication that fires. -/
def Firing.reauth? : Firing → Option Notifier
  | .reauth notifier _ => some notifier
  | _ => none

/-- The notifier of a ping that fires. -/
def Firing.ping? : Firing → Option Notifier
  | .ping notifier _ => some notifier
  | _ => none

namespace Session

/-- The sessions agree on AUTH and PINGREQ. -/
structure ExchangeFrame (before after : Session) : Prop where
  authRx : after.ch.authRx = before.ch.authRx
  auth : after.inflight.auth = before.inflight.auth
  pingRx : after.ch.pingRx = before.ch.pingRx
  pingreq : after.inflight.pingreq = before.inflight.pingreq

theorem ExchangeFrame.refl (session : Session) : ExchangeFrame session session :=
  ⟨rfl, rfl, rfl, rfl⟩

/-- What one poll of the next outgoing packet does to the two exchanges. -/
inductive PollExchange (session : Session) (now : Nat) :
    Option Outgoing → Session → List Firing → Prop where
  | other (outgoing : Option Outgoing) (after : Session) (fired : List Firing)
      (frame : ExchangeFrame session after)
      (silent : ∀ firing ∈ fired, firing.reauth? = none ∧ firing.ping? = none)
      (plain : ∀ sent ∈ outgoing, (∀ request, sent.request ≠ some (.reauthRequest request)) ∧
        ∀ notifier, sent.request ≠ some (.pingReq notifier)) :
      PollExchange session now outgoing after fired
  | auth (request : ReauthRequest) (authentication : Authentication) (after : Session)
      (head : session.ch.authRx = request :: after.ch.authRx)
      (carried : request.auth.authentication = some authentication)
      (auth : after.inflight.auth = some (authentication.method, request.notifier))
      (pingRx : after.ch.pingRx = session.ch.pingRx)
      (pingreq : after.inflight.pingreq = session.inflight.pingreq) :
      PollExchange session now (some ⟨.auth request.auth, some (.reauthRequest request)⟩) after []
  | ping (notifier : Option Notifier) (after : Session)
      (authRx : after.ch.authRx = session.ch.authRx)
      (auth : after.inflight.auth = session.inflight.auth)
      (pingRx : session.ch.pingRx = notifier.toList ++ after.ch.pingRx)
      (pingreq : after.inflight.pingreq = session.inflight.pingreq ++ [(now, notifier)]) :
      PollExchange session now (some ⟨.pingReq, some (.pingReq notifier)⟩) after []

private theorem issueAcknowledgement_exchange (session : Session)
    (request : AcknowledgementRequest) :
    ExchangeFrame session (session.issueAcknowledgement request).2.1 ∧
      ∀ firing ∈ (session.issueAcknowledgement request).2.2,
        firing.reauth? = none ∧ firing.ping? = none := by
  cases request <;> exact ⟨⟨rfl, rfl, rfl, rfl⟩, by simp [issueAcknowledgement, Firing.reauth?,
    Firing.ping?]⟩

theorem nextOutgoingPacket_exchange {session after : Session} {now : Nat} {polls : List Readiness}
    {outgoing : Option Outgoing} {fired : List Firing}
    (polled : session.nextOutgoingPacket now polls = .ok (outgoing, after, fired)) :
    PollExchange session now outgoing after fired := by
  cases nextOutgoingPacket_cases polled with
  | replay packet rest head =>
    exact .other _ _ _ ⟨rfl, rfl, rfl, rfl⟩ (by simp) (by simp)
  | pending after drained frame =>
    obtain ⟨_, _, _, rfl⟩ := frame.same
    exact .other _ _ _ ⟨rfl, rfl, rfl, rfl⟩ (by simp) (by simp)
  | issued middle taken after request packet fired drained frame requested issued =>
    obtain ⟨_, _, _, rfl⟩ := frame.same
    cases requested with
    | disconnect disconnect _ frame =>
      cases issued
      obtain ⟨_, _, _, rfl⟩ := frame.same
      exact .other _ _ _ ⟨rfl, rfl, rfl, rfl⟩ (by simp) (by simp)
    | ack acknowledgement _ frame member =>
      simp only [issue, Except.ok.injEq] at issued
      obtain ⟨same, silent⟩ := issueAcknowledgement_exchange taken acknowledgement
      rw [issued] at same silent
      obtain ⟨_, _, _, rfl⟩ := frame.same
      exact .other _ _ _ ⟨same.authRx, same.auth, same.pingRx, same.pingreq⟩ silent (by simp)
    | auth reauth rest head =>
      simp only [issue] at issued
      split at issued
      · rename_i authentication carried
        cases issued
        exact .auth reauth authentication _ head carried rfl rfl rfl
      · cases issued
    | ping notifier rest head =>
      cases issued
      exact .ping (some notifier) _ rfl rfl head rfl
    | timer =>
      cases issued
      exact .ping none _ rfl rfl rfl rfl
    | publishQoS0 publish rest head =>
      cases issued
      exact .other _ _ _ ⟨rfl, rfl, rfl, rfl⟩ (by simp [Firing.reauth?, Firing.ping?]) (by simp)
    | subscription subscription rest pkid pool head leased =>
      cases subscription <;>
      · cases issued
        exact .other _ _ _ ⟨rfl, rfl, rfl, rfl⟩ (by simp) (by simp)
    | publish publish rest pkid pool head leased =>
      cases publish <;>
      · cases issued
        exact .other _ _ _ ⟨rfl, rfl, rfl, rfl⟩ (by simp) (by simp)

end Session

/-- The request of a re-authentication that was sent. -/
def Emission.reauth? (emission : Emission) : Option ReauthRequest :=
  match emission.outgoing.request with
  | some (.reauthRequest request) => some request
  | _ => none

/-- The notifier of a PINGREQ that was sent. A PINGREQ of the timer has none. -/
def Emission.ping? (emission : Emission) : Option (Option Notifier) :=
  match emission.outgoing.request with
  | some (.pingReq notifier) => some notifier
  | _ => none

namespace World

/-- What is new in the history, as far as the two exchanges are concerned. -/
structure Adds (world next : World) (emissions : List Emission) (fired : List Fired) : Prop where
  emissions : ∃ added, next.emissions = world.emissions ++ added ∧
    added.filter (fun emission => emission.reauth?.isSome || emission.ping?.isSome) = emissions
  fired : ∃ added, next.fired = world.fired ++ added ∧
    added.filter (fun record => record.firing.reauth?.isSome || record.firing.ping?.isSome) = fired

/-- What a step does to the two exchanges. -/
inductive Exchange (world : World) : Event → World → Prop where
  | idle (event : Event) (next : World)
      (frame : Session.ExchangeFrame world.session next.session)
      (same : SameConnection world next) (fresh : world.fresh ≤ next.fresh)
      (adds : Adds world next [] []) (other : event ≠ .incoming .pingResp) :
      Exchange world event next
  | established (event : Event) (next : World)
      (frame : Session.ExchangeFrame world.session next.session)
      (before : world.session.isConnected = false) (after : next.session.isConnected = true)
      (connections : next.connections = world.connections + 1) (fresh : next.fresh = world.fresh)
      (adds : Adds world next [] []) (other : event ≠ .incoming .pingResp) :
      Exchange world event next
  | requestAuth (event : AppEvent) (request : ReauthRequest) (next : World)
      (named : request.notifier = world.fresh)
      (authRx : next.session.ch.authRx = world.session.ch.authRx ++ [request])
      (auth : next.session.inflight.auth = world.session.inflight.auth)
      (pingRx : next.session.ch.pingRx = world.session.ch.pingRx)
      (pingreq : next.session.inflight.pingreq = world.session.inflight.pingreq)
      (same : SameConnection world next) (fresh : next.fresh = world.fresh + 1)
      (adds : Adds world next [] []) : Exchange world (.app event) next
  | requestPing (event : AppEvent) (next : World)
      (authRx : next.session.ch.authRx = world.session.ch.authRx)
      (auth : next.session.inflight.auth = world.session.inflight.auth)
      (pingRx : next.session.ch.pingRx = world.session.ch.pingRx ++ [world.fresh])
      (pingreq : next.session.inflight.pingreq = world.session.inflight.pingreq)
      (same : SameConnection world next) (fresh : next.fresh = world.fresh + 1)
      (adds : Adds world next [] []) : Exchange world (.app event) next
  | sendAuth (polls : List Readiness) (request : ReauthRequest) (authentication : Authentication)
      (next : World) (live : world.session.isConnected = true)
      (head : world.session.ch.authRx = request :: next.session.ch.authRx)
      (auth : next.session.inflight.auth = some (authentication.method, request.notifier))
      (pingRx : next.session.ch.pingRx = world.session.ch.pingRx)
      (pingreq : next.session.inflight.pingreq = world.session.inflight.pingreq)
      (same : SameConnection world next) (fresh : next.fresh = world.fresh)
      (adds : Adds world next
        [⟨world.connections, .auth request.auth, some (.reauthRequest request)⟩] []) :
      Exchange world (.poll polls) next
  | sendPing (polls : List Readiness) (notifier : Option Notifier) (next : World)
      (live : world.session.isConnected = true)
      (authRx : next.session.ch.authRx = world.session.ch.authRx)
      (auth : next.session.inflight.auth = world.session.inflight.auth)
      (pingRx : world.session.ch.pingRx = notifier.toList ++ next.session.ch.pingRx)
      (pingreq : next.session.inflight.pingreq =
        world.session.inflight.pingreq ++ [(world.now, notifier)])
      (same : SameConnection world next) (fresh : next.fresh = world.fresh)
      (adds : Adds world next [⟨world.connections, .pingReq, some (.pingReq notifier)⟩] []) :
      Exchange world (.poll polls) next
  | answerAuth (auth : Auth) (method : ByteStr) (notifier : Notifier) (result : ReauthResult)
      (next : World) (live : world.session.isConnected = true)
      (held : world.session.inflight.auth = some (method, notifier))
      (answer : result = .success auth ∨ result = .continue auth method)
      (authRx : next.session.ch.authRx = world.session.ch.authRx)
      (cleared : next.session.inflight.auth = none)
      (pingRx : next.session.ch.pingRx = world.session.ch.pingRx)
      (pingreq : next.session.inflight.pingreq = world.session.inflight.pingreq)
      (same : SameConnection world next) (fresh : next.fresh = world.fresh)
      (adds : Adds world next [] [⟨.reauth notifier (.complete result), .incoming (.auth auth),
        world.connections, world.session.expiryInterval⟩]) :
      Exchange world (.incoming (.auth auth)) next
  | pong (next : World) (live : world.session.isConnected = true)
      (authRx : next.session.ch.authRx = world.session.ch.authRx)
      (auth : next.session.inflight.auth = world.session.inflight.auth)
      (pingRx : next.session.ch.pingRx = world.session.ch.pingRx)
      (pingreq : next.session.inflight.pingreq = world.session.inflight.pingreq.tail)
      (same : SameConnection world next) (fresh : next.fresh = world.fresh)
      (unsolicited : world.session.inflight.pingreq = [] → next = world)
      (adds : Adds world next [] (world.session.inflight.pingreq.head?.toList.flatMap fun entry =>
        entry.2.toList.map fun notifier => ⟨.ping notifier (.complete (world.now - entry.1)),
          .incoming .pingResp, world.connections, world.session.expiryInterval⟩)) :
      Exchange world (.incoming .pingResp) next
  | ended (disconnection : Disconnection) (next : World) (live : world.session.isConnected = true)
      (after : next.session.isConnected = false)
      (authRx : next.session.ch.authRx = world.session.ch.authRx)
      (auth : next.session.inflight.auth = none)
      (pingRx : next.session.ch.pingRx = world.session.ch.pingRx)
      (pingreq : next.session.inflight.pingreq = [])
      (connections : next.connections = world.connections) (fresh : next.fresh = world.fresh)
      (adds : Adds world next []
        ((world.session.inflight.auth.toList.map fun entry =>
            ⟨.reauth entry.2 (.cancel "Client disconnected"), .disconnected disconnection,
              world.connections, next.session.expiryInterval⟩) ++
          (world.session.inflight.pingreq.filterMap Prod.snd).map fun notifier =>
            ⟨.ping notifier (.cancel "Client disconnected"), .disconnected disconnection,
              world.connections, next.session.expiryInterval⟩)) :
      Exchange world (.disconnected disconnection) next

theorem Exchange.history {world next : World} {event : Event}
    (exchange : Exchange world event next) :
    ∃ emissions fired, Adds world next emissions fired := by
  cases exchange <;> exact ⟨_, _, ‹Adds _ _ _ _›⟩

theorem Adds.quiet {world next : World} (emissions : next.emissions = world.emissions)
    (fired : next.fired = world.fired) : Adds world next [] [] :=
  ⟨⟨[], by rw [emissions, List.append_nil], rfl⟩, ⟨[], by rw [fired, List.append_nil], rfl⟩⟩

/-- Nothing is sent, and what fires is kept with the event. -/
theorem Adds.fires (world : World) (event : Event) (session : Session) (fired : List Firing) :
    Adds world (world.record event session fired) []
      ((fired.filter fun firing => firing.reauth?.isSome || firing.ping?.isSome).map fun firing =>
        ⟨firing, event, world.connections, session.expiryInterval⟩) := by
  refine ⟨⟨[], by simp [record], rfl⟩, _, rfl, ?_⟩
  rw [List.filter_map]
  rfl

theorem Adds.silent {world : World} {event : Event} {session : Session} {fired : List Firing}
    (silent : ∀ firing ∈ fired, firing.reauth? = none ∧ firing.ping? = none) :
    Adds world (world.record event session fired) [] [] := by
  have none : fired.filter (fun firing => firing.reauth?.isSome || firing.ping?.isSome) = [] := by
    rw [List.filter_eq_nil_iff]
    intro firing member
    obtain ⟨reauth, ping⟩ := silent firing member
    simp [reauth, ping]
  have adds := Adds.fires world event session fired
  rwa [none] at adds

theorem sessionExpired_silent (session : Session) :
    ∀ firing ∈ session.sessionExpired.2, firing.reauth? = none ∧ firing.ping? = none := by
  intro firing member
  simp only [Session.sessionExpired, List.mem_append, List.mem_map] at member
  rcases member with ((⟨_, -, rfl⟩ | ⟨_, -, rfl⟩) | ⟨_, -, rfl⟩) | ⟨_, -, rfl⟩ <;> exact ⟨rfl, rfl⟩

theorem app_exchange (world : World) (event : AppEvent) :
    Exchange world (.app event) (world.app event) := by
  obtain ⟨emissions, fired, links, fresh⟩ := world.app_history event
  obtain ⟨ch, session, -⟩ := world.app_session event
  have adds : Adds world (world.app event) [] [] := .quiet emissions fired
  have same : SameConnection world (world.app event) := by
    refine ⟨links, ?_, ?_, ?_⟩ <;> rw [session]
  have other : (world.app event).session.ch.authRx = world.session.ch.authRx →
      (world.app event).session.ch.pingRx = world.session.ch.pingRx →
      Exchange world (.app event) (world.app event) := by
    intro authRx pingRx
    refine .idle _ _ ⟨authRx, ?_, pingRx, ?_⟩ same fresh adds (by simp) <;> rw [session]
  have used : ∀ serial reasonCode otherProperties,
      (world.useToken serial reasonCode otherProperties).session.ch.authRx =
          world.session.ch.authRx ∧
        (world.useToken serial reasonCode otherProperties).session.ch.pingRx =
          world.session.ch.pingRx := by
    intro serial reasonCode otherProperties
    unfold useToken
    split <;> exact ⟨rfl, rfl⟩
  cases event with
  | reauth reasonCode authentication reasonString userProperties =>
    exact .requestAuth _ _ _ rfl rfl rfl rfl rfl same rfl adds
  | ping => exact .requestPing _ _ rfl rfl rfl rfl same rfl adds
  | acknowledge serial reasonCode otherProperties => exact other (used _ _ _).1 (used _ _ _).2
  | dropToken serial => exact other (used _ _ _).1 (used _ _ _).2
  | disconnect disconnect =>
    apply other <;>
    · simp only [app, withChannels]
      split <;> rfl
  | dropDisconnectHandle =>
    apply other <;>
    · simp only [app, withChannels]
      split <;> rfl
  | _ => exact other rfl rfl

theorem poll_exchange {world : World} {polls : List Readiness} {outgoing : Option Outgoing}
    {session : Session} {fired : List Firing} (live : world.session.isConnected = true)
    (polled : world.session.nextOutgoingPacket world.now polls = .ok (outgoing, session, fired)) :
    Exchange world (.poll polls) (world.afterPoll polls outgoing session fired) := by
  obtain ⟨connected, epoch, interval⟩ := (Session.nextOutgoingPacket_effect polled).kept
  have same : SameConnection world (world.afterPoll polls outgoing session fired) :=
    ⟨rfl, connected, epoch, interval⟩
  cases Session.nextOutgoingPacket_exchange polled with
  | other outgoing after fired frame silent plain =>
    have fires : Adds world (world.record (.poll polls) session fired) [] [] :=
      .silent silent
    refine .idle _ _ frame same (Nat.le_refl _) ⟨⟨_, rfl, ?_⟩, fires.fired⟩ (by simp)
    rw [List.filter_eq_nil_iff]
    intro emission member
    obtain ⟨sent, held, rfl⟩ := List.mem_map.mp member
    obtain ⟨noAuth, noPing⟩ := plain sent (Option.mem_toList.mp held)
    cases answered : sent.request with
    | none => simp [Emission.reauth?, Emission.ping?, answered]
    | some request =>
      cases request with
      | reauthRequest request => exact absurd answered (noAuth request)
      | pingReq notifier => exact absurd answered (noPing notifier)
      | _ => simp [Emission.reauth?, Emission.ping?, answered]
  | auth request authentication after head carried auth pingRx pingreq =>
    exact .sendAuth polls request authentication _ live head auth pingRx pingreq same rfl
      ⟨⟨_, rfl, rfl⟩, ⟨[], by simp [afterPoll, record], rfl⟩⟩
  | ping notifier after authRx auth pingRx pingreq =>
    exact .sendPing polls notifier _ live authRx auth pingRx pingreq same rfl
      ⟨⟨_, rfl, rfl⟩, ⟨[], by simp [afterPoll, record], rfl⟩⟩

/-- An AUTH of the server is taken for the answer to the AUTH in flight, if its method and
its reason code allow. -/
theorem auth_exchange (world : World) (auth : Auth) (live : world.session.isConnected = true) :
    Exchange world (.incoming (.auth auth))
      (world.record (.incoming (.auth auth)) (world.session.incomingAuth auth).session
        (world.session.incomingAuth auth).fired) := by
  have ignored : Exchange world (.incoming (.auth auth))
      (world.record (.incoming (.auth auth)) world.session []) := by
    rw [record_nil]
    exact .idle _ _ (.refl _) (.refl world) (Nat.le_refl _) (.quiet rfl rfl) (by simp)
  simp only [Session.incomingAuth]
  cases held : world.session.inflight.auth with
  | none => exact ignored
  | some entry =>
    obtain ⟨method, notifier⟩ := entry
    simp only
    split
    · split
      · exact .answerAuth auth method notifier (.success auth) _ live held (.inl rfl) rfl rfl rfl
          rfl ⟨rfl, rfl, rfl, rfl⟩ rfl (.fires _ _ _ _)
      · exact .answerAuth auth method notifier (.continue auth method) _ live held (.inr rfl) rfl
          rfl rfl rfl ⟨rfl, rfl, rfl, rfl⟩ rfl (.fires _ _ _ _)
      · exact ignored
    · exact ignored

theorem pong_exchange (world : World) (live : world.session.isConnected = true) :
    Exchange world (.incoming .pingResp)
      (world.record (.incoming .pingResp) (world.session.incomingPingresp world.now).1
        (world.session.incomingPingresp world.now).2) := by
  cases queue : world.session.inflight.pingreq with
  | nil =>
    have ignored : world.session.incomingPingresp world.now = (world.session, []) := by
      simp only [Session.incomingPingresp, queue]
    rw [ignored, record_nil]
    refine .pong _ live rfl rfl rfl ?_ (.refl world) rfl (fun _ => rfl) ?_
    · rw [queue]
      rfl
    · rw [queue]
      exact .quiet rfl rfl
  | cons entry rest =>
    simp only [Session.incomingPingresp, queue]
    refine .pong _ live rfl rfl rfl ?_ ⟨rfl, rfl, rfl, rfl⟩ rfl ?_ ?_
    · rw [queue]
      rfl
    · intro none
      rw [queue] at none
      cases none
    · have adds := Adds.fires world (.incoming .pingResp)
        { world.session with inflight := { world.session.inflight with pingreq := rest } }
        (entry.2.toList.map (.ping · (.complete (world.now - entry.1))))
      rw [List.filter_eq_self.mpr (by simp [Firing.ping?]), List.map_map] at adds
      rw [queue]
      simpa [Function.comp_def] using adds

theorem disconnected_exchange (world : World) (disconnection : Disconnection)
    (live : world.session.isConnected = true) :
    Exchange world (.disconnected disconnection) (world.disconnected disconnection) := by
  have after := world.disconnected_isConnected disconnection
  rw [disconnected_eq] at after ⊢
  generalize disconnection.expiryInterval world.session = interval at after ⊢
  have frame : Session.ExchangeFrame
      { world.session.disconnected.1 with expiryInterval := interval }
      (world.session.ended interval).1 := by
    simp only [Session.ended, Session.expireIfZero]
    split <;> exact ⟨rfl, rfl, rfl, rfl⟩
  have fired : (world.session.ended interval).2.filter
      (fun firing => firing.reauth?.isSome || firing.ping?.isSome) =
      world.session.inflight.auth.toList.map
          (fun entry => .reauth entry.2 (.cancel "Client disconnected")) ++
        (world.session.inflight.pingreq.filterMap Prod.snd).map
          (fun notifier => .ping notifier (.cancel "Client disconnected")) := by
    have expired : ({ world.session.disconnected.1 with expiryInterval := interval } :
        Session).expireIfZero.2.filter
          (fun firing => firing.reauth?.isSome || firing.ping?.isSome) = [] := by
      rw [List.filter_eq_nil_iff]
      intro firing member
      simp only [Session.expireIfZero] at member
      split at member
      · obtain ⟨reauth, ping⟩ := sessionExpired_silent _ firing member
        simp [reauth, ping]
      · cases member
    simp only [Session.ended, List.filter_append, expired, List.append_nil]
    simp [Session.disconnected, List.filter_map, Function.comp_def, Firing.reauth?, Firing.ping?]
  refine .ended disconnection _ live after frame.authRx frame.auth frame.pingRx frame.pingreq rfl
    rfl ?_
  have adds := Adds.fires world (.disconnected disconnection) (world.session.ended interval).1
    (world.session.ended interval).2
  rw [fired, List.map_append, List.map_map, List.map_map] at adds
  exact adds

theorem step_exchange {world next : World} {event : Event}
    (stepped : world.step event = .ok next) : Exchange world event next := by
  cases step_cases stepped with
  | app event => exact world.app_exchange event
  | elapse duration =>
    exact .idle _ _ (.refl _) ⟨rfl, rfl, rfl, rfl⟩ (Nat.le_refl _) (.quiet rfl rfl) (by simp)
  | refused =>
    exact .idle _ _ (.refl _) (.refl world) (Nat.le_refl _) (.quiet rfl rfl) (by simp)
  | established connack keepAlive authMethod interval sessionPresent idle code =>
    have fires : Adds world (world.record (.connack connack keepAlive authMethod interval)
        (world.established connack keepAlive authMethod interval sessionPresent).session
        (resumed world.session sessionPresent).2) [] [] := by
      refine .silent ?_
      cases sessionPresent with
      | true => simp [resumed]
      | false => exact sessionExpired_silent world.session
    refine .established _ _ ?_ idle ?_ ?_ rfl ⟨fires.emissions, fires.fired⟩ (by simp)
    · cases sessionPresent <;> exact ⟨rfl, rfl, rfl, rfl⟩
    · cases sessionPresent <;> rfl
    · simp [World.established, connections]
  | polled polls outgoing session fired live polled => exact poll_exchange live polled
  | acked ack handled live completed =>
    have same := step_sameConnection stepped (by simp) (by simp)
    obtain ⟨session, fired⟩ := Session.completeInflight_spec completed
    have frame : Session.ExchangeFrame world.session handled.session := by
      rw [session]
      cases ack <;> exact ⟨rfl, rfl, rfl, rfl⟩
    refine .idle _ _ frame same (Nat.le_refl _) (.silent ?_) (by simp)
    intro firing member
    rw [fired] at member
    obtain ⟨entry, -, rfl⟩ := List.mem_map.mp member
    cases ack <;> exact ⟨rfl, rfl⟩
  | delivered publish next live delivered =>
    have same := step_sameConnection stepped (by simp) (by simp)
    obtain ⟨ackRx, inApplication, session⟩ := incomingPublish_session delivered
    obtain ⟨emissions, fired, -, fresh⟩ := incomingPublish_history delivered
    have frame : Session.ExchangeFrame world.session next.session := by
      rw [session]
      exact ⟨rfl, rfl, rfl, rfl⟩
    exact .idle _ _ frame same fresh (.quiet emissions fired) (by simp)
  | authenticated auth live => exact world.auth_exchange auth live
  | ponged live => exact world.pong_exchange live
  | disconnected disconnection live => exact world.disconnected_exchange disconnection live

end World

end MqttClient.Client
