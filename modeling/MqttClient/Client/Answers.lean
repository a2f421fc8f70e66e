import MqttClient.Client.Progress

/-! PUBACKs as an observer of the events sees them: what arrived on each connection, and
what the application did with the token of each arrival. -/

namespace MqttClient.Client

open MqttClient.Proto

/-- A poll leaves the application's receiver alone. -/
theorem Session.nextOutgoingPacket_receiver {session after : Session} {now : Nat}
    {polls : List Readiness} {outgoing : Option Outgoing} {fired : List Firing}
    (polled : session.nextOutgoingPacket now polls = .ok (outgoing, after, fired)) :
    after.ch.iPubOpen = session.ch.iPubOpen := by
  have framed : ∀ {before after : Session}, AckFrame before after →
      after.ch.iPubOpen = before.ch.iPubOpen := by
    rintro before after ⟨⟨_, _, _, rfl⟩, _⟩
    rfl
  cases nextOutgoingPacket_cases polled with
  | replay packet rest head => rfl
  | pending after drained frame => exact framed frame
  | issued middle taken final request packet fired drained frame requested issued =>
    have channels : final.ch.iPubOpen = taken.ch.iPubOpen :=
      congrArg Channels.iPubOpen (issue_load issued).2.2.1
    refine channels.trans (Eq.trans ?_ (framed frame))
    cases requested with
    | ack request after frame' member => exact framed frame'
    | disconnect disconnect after frame' => exact framed frame'
    | _ => rfl

/-- A QoS 1 PUBLISH that arrived, and what its token was first used for. -/
structure InboundPublish where
  connection : Nat
  pkid : PacketIdentifier
  answer : Option (PubAckReasonCode × PubAckOtherProperties) := none
  deriving DecidableEq

namespace InboundPublish

/-- The PUBACK that its token has chosen. -/
def puback? (received : InboundPublish) : Option PubAck :=
  received.answer.map fun answer => ⟨received.pkid, answer.1, answer.2⟩

/-- Only the first use of a token counts. -/
def answered (reasonCode : PubAckReasonCode) (otherProperties : PubAckOtherProperties)
    (received : InboundPublish) : InboundPublish :=
  { received with answer := received.answer.or (some (reasonCode, otherProperties)) }

end InboundPublish

/-- What an observer notes: the connections made, whether the application still receives, and
the QoS 1 PUBLISHes that arrived. -/
structure AckLog where
  connections : Nat := 0
  receiving : Bool := true
  received : List InboundPublish := []

namespace AckLog

variable (log : AckLog)

/-- The QoS 1 PUBLISHes of a connection, in the order of their arrival. -/
def on (connection : Nat) : List InboundPublish :=
  log.received.filter (·.connection == connection)

/-- The token of an arrival is used. -/
def use (serial : Nat) (reasonCode : PubAckReasonCode) (otherProperties : PubAckOtherProperties) :
    AckLog :=
  { log with received := log.received.modify serial (.answered reasonCode otherProperties) }

def app : AppEvent → AckLog
  | .acknowledge serial reasonCode otherProperties => log.use serial reasonCode otherProperties
  | .dropToken serial => log.use serial .success {}
  | .closeReceiver => { log with receiving := false }
  | _ => log

def opened : AckLog := { log with connections := log.connections + 1 }

/-- A PUBLISH that nobody receives is dropped, and its token with it. -/
def arrived (publish : Publish) : AckLog :=
  match publish.packetIdentifierDupQoS with
  | .atLeastOnce pkid _ =>
    let answer := if log.receiving then none else some (.success, {})
    { log with received := log.received ++ [⟨log.connections, pkid, answer⟩] }
  | _ => log

def incoming : Incoming → AckLog
  | .publish publish => log.arrived publish
  | _ => log

def note (_ : World) (event : Event) (next : World) (log : AckLog) : AckLog :=
  match event with
  | .app event => log.app event
  | .connack _ _ _ _ => if next.session.isConnected then log.opened else log
  | .incoming packet => log.incoming packet
  | _ => log

/-- An arrival is noted at the serial of its token. -/
def NotedAs (received : InboundPublish) (arrival : Nat × PacketIdentifier) : Prop :=
  received.pkid = arrival.2 ∧ log.received[arrival.1]? = some received

/-- What has been noted of a run. -/
abbrev of (maxPkid : PacketIdentifier) (events : List Event) : AckLog :=
  Transition.observe World.step note (.new maxPkid) {} events

end AckLog

/-- The log and the bookkeeping of the session agree: a token that is held has not been used,
and every other one has chosen its PUBACK. -/
structure AckLogged (log : AckLog) (world : World) : Prop where
  connections : log.connections = world.connections
  receiving : log.receiving = world.session.ch.iPubOpen
  received : log.received.map (fun received => Delivery.mk received.connection received.pkid) =
    world.deliveries
  held : ∀ token ∈ world.tokens, ∃ received, log.received[token.serial]? = some received ∧
    received.answer = none
  used : ∀ use ∈ world.uses, ∃ received, log.received[use.token.serial]? = some received ∧
    received.puback? = some use.puback
  every : ∀ serial, serial < log.received.length →
    serial ∈ (world.uses.map TokenUse.token ++ world.tokens).map PubAckToken.serial

namespace AckLogged

variable {world next : World} {log : AckLog}

theorem new (maxPkid : PacketIdentifier) : AckLogged {} (.new maxPkid) where
  connections := rfl
  receiving := rfl
  received := rfl
  held := by simp [World.new]
  used := by simp [World.new]
  every := by simp

/-- A step that touches neither tokens nor deliveries. -/
theorem congr (logged : AckLogged log world) (links : next.links = world.links)
    (receiving : next.session.ch.iPubOpen = world.session.ch.iPubOpen)
    (deliveries : next.deliveries = world.deliveries) (tokens : next.tokens = world.tokens)
    (uses : next.uses = world.uses) : AckLogged log next where
  connections := logged.connections.trans (congrArg List.length links).symm
  receiving := logged.receiving.trans receiving.symm
  received := logged.received.trans deliveries.symm
  held := by
    rw [tokens]
    exact logged.held
  used := by
    rw [uses]
    exact logged.used
  every := by
    rw [tokens, uses]
    exact logged.every

/-- The arrival of a token, as it was noted. -/
private theorem pkid_eq (logged : AckLogged log world) {token : PubAckToken}
    {received : InboundPublish}
    (issued : world.deliveries[token.serial]? = some ⟨token.epoch.toNat, token.pkid⟩)
    (noted : log.received[token.serial]? = some received) : received.pkid = token.pkid := by
  rw [← logged.received, List.getElem?_map, noted] at issued
  exact congrArg Delivery.pkid (Option.some.inj issued)

/-- Where an answer is noted: at the serial of its token, unless there is one already. -/
private theorem getElem?_use {serial : Nat} {reasonCode : PubAckReasonCode}
    {otherProperties : PubAckOtherProperties} (index : Nat) :
    (log.use serial reasonCode otherProperties).received[index]? =
      log.received[index]?.map fun received =>
        if serial = index then received.answered reasonCode otherProperties else received := by
  simp only [AckLog.use, List.getElem?_modify]
  rfl

/-- A token that has left the application's hands has its answer already. -/
private theorem use_eq_self (logged : AckLogged log world) {serial : Nat}
    (released : ∀ token ∈ world.tokens, token.serial ≠ serial) (reasonCode : PubAckReasonCode)
    (otherProperties : PubAckOtherProperties) :
    log.use serial reasonCode otherProperties = log := by
  suffices same : (log.use serial reasonCode otherProperties).received = log.received from
    congrArg (fun received => { log with received := received }) same
  apply List.ext_getElem?
  intro index
  rw [getElem?_use]
  cases noted : log.received[index]? with
  | none => rfl
  | some received =>
    by_cases here : serial = index
    · subst here
      obtain ⟨bound, _⟩ := List.getElem?_eq_some_iff.mp noted
      obtain ⟨token, member, same⟩ := List.mem_map.mp (logged.every serial bound)
      rcases List.mem_append.mp member with earlier | kept
      · obtain ⟨use, used, rfl⟩ := List.mem_map.mp earlier
        obtain ⟨answered, located, chosen⟩ := logged.used use used
        rw [same, noted, Option.some.injEq] at located
        subst located
        obtain ⟨answer, answers, _⟩ := Option.map_eq_some_iff.mp chosen
        have settled : received.answered reasonCode otherProperties = received := by
          rw [InboundPublish.answered, answers, Option.some_or, ← answers]
        simp [settled]
      · exact absurd same (released token kept)
    · simp [here]

/-- The use of a token that is held is its answer. -/
theorem useToken (logged : AckLogged log world) (ordered : Ordered world) (serial : Nat)
    (reasonCode : PubAckReasonCode) (otherProperties : PubAckOtherProperties) :
    AckLogged (log.use serial reasonCode otherProperties)
      (world.useToken serial reasonCode otherProperties) := by
  unfold World.useToken
  split
  · rename_i missing
    have released : ∀ token ∈ world.tokens, token.serial ≠ serial := by
      intro token member
      simpa using List.find?_eq_none.mp missing token member
    rw [logged.use_eq_self released]
    exact logged
  · rename_i token found
    have member := List.mem_of_find?_eq_some found
    obtain rfl : token.serial = serial := by simpa using List.find?_some found
    obtain ⟨received, noted, unanswered⟩ := logged.held token member
    have distinct := ordered.distinct
    rw [List.map_append, List.nodup_append] at distinct
    constructor
    · exact logged.connections
    · exact logged.receiving
    · refine Eq.trans ?_ logged.received
      apply List.ext_getElem?
      intro index
      rw [List.getElem?_map, List.getElem?_map, getElem?_use, Option.map_map]
      congr 1
      funext received
      by_cases here : token.serial = index <;> simp [here, InboundPublish.answered]
    · intro other kept
      obtain ⟨kept, different⟩ := List.mem_filter.mp kept
      obtain ⟨received, noted, unanswered⟩ := logged.held other kept
      have apart : token.serial ≠ other.serial := by
        rintro same
        simp [same] at different
      exact ⟨received, by simp [getElem?_use, noted, apart], unanswered⟩
    · intro use used
      rcases List.mem_append.mp used with earlier | this
      · obtain ⟨answered, located, chosen⟩ := logged.used use earlier
        have apart : token.serial ≠ use.token.serial := fun same =>
          distinct.2.2 use.token.serial (List.mem_map_of_mem (List.mem_map_of_mem earlier))
            token.serial (List.mem_map_of_mem member) same.symm
        exact ⟨answered, by simp [getElem?_use, located, apart], chosen⟩
      · obtain rfl := List.mem_singleton.mp this
        refine ⟨received.answered reasonCode otherProperties, by simp [getElem?_use, noted], ?_⟩
        have issued := ordered.issued token (List.mem_append_right _ member)
        simp [InboundPublish.puback?, InboundPublish.answered, unanswered,
          logged.pkid_eq issued noted]
    · intro index bound
      have before := logged.every index (by simpa [AckLog.use] using bound)
      simp only [List.map_append, List.map_cons, List.map_nil, List.append_assoc,
        List.mem_append, List.mem_singleton] at before ⊢
      rcases before with earlier | held
      · exact .inl earlier
      · obtain ⟨other, kept, rfl⟩ := List.mem_map.mp held
        by_cases same : other.serial = token.serial
        · exact .inr (.inl same)
        · exact .inr (.inr (List.mem_map_of_mem (List.mem_filter.mpr ⟨kept, by simpa using same⟩)))

theorem app (logged : AckLogged log world) (ordered : Ordered world) (event : AppEvent) :
    AckLogged (log.app event) (world.app event) := by
  cases event with
  | acknowledge serial reasonCode otherProperties => exact logged.useToken ordered _ _ _
  | dropToken serial => exact logged.useToken ordered _ _ _
  | closeReceiver =>
    exact ⟨logged.connections, rfl, logged.received, logged.held, logged.used, logged.every⟩
  | disconnect disconnect =>
    simp only [World.app, World.withChannels]
    split <;> exact logged.congr rfl rfl rfl rfl rfl
  | dropDisconnectHandle =>
    simp only [World.app, World.withChannels]
    split <;> exact logged.congr rfl rfl rfl rfl rfl
  | _ => exact logged.congr rfl rfl rfl rfl rfl

/-- A QoS 1 PUBLISH arrives, and its token is handed over or dropped at once. -/
private theorem deliver (logged : AckLogged log world) {pkid : PacketIdentifier}
    {received : InboundPublish}
    (arrived : received = ⟨world.connections, pkid, received.answer⟩)
    (links : next.links = world.links)
    (receiving : next.session.ch.iPubOpen = world.session.ch.iPubOpen)
    (deliveries : next.deliveries = world.deliveries ++ [⟨world.connections, pkid⟩])
    (token : PubAckToken) (serial : token.serial = world.deliveries.length)
    (given : (next.tokens = world.tokens ++ [token] ∧ next.uses = world.uses ∧
        received.answer = none) ∨
      ∃ use, use.token = token ∧ next.tokens = world.tokens ∧ next.uses = world.uses ++ [use] ∧
        received.puback? = some use.puback) :
    AckLogged { log with received := log.received ++ [received] } next := by
  have length : log.received.length = world.deliveries.length := by
    rw [← logged.received, List.length_map]
  have grown : ∀ {index : Nat} {earlier : InboundPublish}, log.received[index]? = some earlier →
      (log.received ++ [received])[index]? = some earlier := by
    intro index earlier noted
    obtain ⟨bound, _⟩ := List.getElem?_eq_some_iff.mp noted
    rw [List.getElem?_append_left bound, noted]
  have last : (log.received ++ [received])[token.serial]? = some received := by
    rw [serial, ← length]
    simp
  constructor
  · exact logged.connections.trans (congrArg List.length links).symm
  · exact logged.receiving.trans receiving.symm
  · rw [deliveries, ← logged.received, arrived]
    simp
  · intro other member
    rcases given with ⟨tokens, _, unanswered⟩ | ⟨_, _, tokens, _⟩
    · rcases List.mem_append.mp (tokens ▸ member) with earlier | this
      · obtain ⟨noted, located, open_⟩ := logged.held other earlier
        exact ⟨noted, grown located, open_⟩
      · obtain rfl := List.mem_singleton.mp this
        exact ⟨received, last, unanswered⟩
    · obtain ⟨noted, located, open_⟩ := logged.held other (tokens ▸ member)
      exact ⟨noted, grown located, open_⟩
  · intro use member
    rcases given with ⟨_, uses, _⟩ | ⟨this, same, _, uses, chosen⟩
    · obtain ⟨noted, located, chosen⟩ := logged.used use (uses ▸ member)
      exact ⟨noted, grown located, chosen⟩
    · rcases List.mem_append.mp (uses ▸ member) with earlier | single
      · obtain ⟨noted, located, chosen⟩ := logged.used use earlier
        exact ⟨noted, grown located, chosen⟩
      · obtain rfl := List.mem_singleton.mp single
        exact ⟨received, same ▸ last, chosen⟩
  · intro index bound
    have here : index = token.serial ∨
        index ∈ (world.uses.map TokenUse.token ++ world.tokens).map PubAckToken.serial := by
      by_cases old : index < log.received.length
      · exact .inr (logged.every index old)
      · simp only [List.length_append, List.length_cons, List.length_nil] at bound
        exact .inl (by omega)
    rcases given with ⟨tokens, uses, _⟩ | ⟨use, same, tokens, uses, _⟩ <;> rw [tokens, uses] <;>
      simp only [List.map_append, List.map_cons, List.map_nil, List.mem_append,
        List.mem_singleton] at here ⊢
    · tauto
    · rw [same]
      tauto

theorem publish {publish : Publish} (logged : AckLogged log world)
    (delivered : world.incomingPublish publish = .ok next) :
    AckLogged (log.arrived publish) next := by
  cases World.incomingPublish_cases delivered with
  | qos0 qos =>
    rw [AckLog.arrived, qos]
    exact logged
  | handed pkid dup qos absent receiver =>
    rw [AckLog.arrived, qos]
    exact logged.deliver (by simp [logged.connections]) rfl rfl rfl _ rfl
      (.inl ⟨rfl, rfl, by simp [logged.receiving, receiver]⟩)
  | dropped pkid dup qos absent receiver =>
    rw [AckLog.arrived, qos]
    exact logged.deliver (by simp [logged.connections]) rfl rfl rfl _ rfl
      (.inr ⟨_, rfl, rfl, rfl, by simp [logged.receiving, receiver, InboundPublish.puback?]⟩)

/-- A session opens exactly the connections that are noted. -/
private theorem established (logged : AckLogged log world) (connack : ConnAck)
    (keepAlive : KeepAlive) (authMethod : Option Bytes) (interval : SessionExpiryInterval)
    (sessionPresent : Bool) : AckLogged log.opened
      (world.established connack keepAlive authMethod interval sessionPresent) := by
  have links : (world.established connack keepAlive authMethod interval
      sessionPresent).connections = world.connections + 1 := by
    simp [World.established, World.connections]
  constructor
  · rw [links, AckLog.opened, logged.connections]
  · refine logged.receiving.trans ?_
    cases sessionPresent <;> rfl
  · exact logged.received
  · exact logged.held
  · exact logged.used
  · exact logged.every

theorem connack (logged : AckLogged log world) (idle : world.session.isConnected = false)
    {connack : ConnAck} {keepAlive : KeepAlive} {authMethod : Option Bytes}
    {interval : SessionExpiryInterval} {result : Except ProtocolError Unit}
    (attempted : world.connack connack keepAlive authMethod interval = (next, result)) :
    AckLogged (if next.session.isConnected then log.opened else log) next := by
  rcases world.connack_cases connack keepAlive authMethod interval with
    ⟨other, refused, _⟩ | ⟨sessionPresent, _, success⟩
  · obtain ⟨rfl, _⟩ := Prod.mk.inj (attempted.symm.trans refused)
    rw [idle]
    exact logged
  · obtain ⟨rfl, _⟩ := Prod.mk.inj (attempted.symm.trans success)
    have live : (world.established connack keepAlive authMethod interval
        sessionPresent).session.isConnected = true := by
      cases sessionPresent <;> rfl
    rw [live]
    exact logged.established connack keepAlive authMethod interval sessionPresent

theorem poll (logged : AckLogged log world) {polls : List Readiness} {packet : Option Packet}
    (polled : world.poll polls = .ok (packet, next)) : AckLogged log next := by
  unfold World.poll at polled
  split at polled
  · cases polled
  · rename_i outgoing session fired taken
    cases polled
    exact logged.congr rfl (Session.nextOutgoingPacket_receiver taken) rfl rfl rfl

theorem incoming (logged : AckLogged log world) {packet : Incoming}
    {result : Except ProtocolError Unit} (handled : world.incoming packet = .ok (next, result)) :
    AckLogged (log.incoming packet) next := by
  cases packet with
  | ack acknowledgement =>
    simp only [World.incoming] at handled
    split at handled
    · cases handled
    · rename_i completed
      cases handled
      have final := (Session.completeInflight_spec completed).1
      refine logged.congr rfl ?_ rfl rfl rfl
      simp only [World.record, final]
  | publish publish =>
    simp only [World.incoming] at handled
    cases delivered : world.incomingPublish publish with
    | error panic => simp [delivered, Except.map] at handled
    | ok reached =>
      simp only [delivered, Except.map, Except.ok.injEq, Prod.mk.injEq] at handled
      obtain ⟨rfl, _⟩ := handled
      exact logged.publish delivered
  | auth auth =>
    cases handled
    obtain ⟨exchange, same⟩ := (world.session.incomingAuth_frame auth).1
    rw [same]
    exact logged.congr rfl rfl rfl rfl rfl
  | pingResp =>
    obtain ⟨rest, same⟩ := (world.session.incomingPingresp_frame world.now).1
    have recorded : next = world.record (.incoming .pingResp)
        (world.session.incomingPingresp world.now).1
        (world.session.incomingPingresp world.now).2 := by
      cases handled
      rfl
    rw [recorded, same]
    exact logged.congr rfl rfl rfl rfl rfl

theorem disconnected (logged : AckLogged log world) (disconnection : Disconnection) :
    AckLogged log (world.disconnected disconnection) := by
  rw [world.disconnected_eq]
  refine logged.congr rfl ?_ rfl rfl rfl
  simp only [World.record, Session.ended, Session.expireIfZero]
  split <;> rfl

theorem step {event : Event} (logged : AckLogged log world) (ordered : Ordered world)
    (stepped : world.step event = .ok next) :
    AckLogged (AckLog.note world event next log) next := by
  cases event with
  | app event =>
    cases stepped
    exact logged.app ordered event
  | elapse duration =>
    cases stepped
    exact logged.congr rfl rfl rfl rfl rfl
  | connack connack keepAlive authMethod interval =>
    simp only [World.step] at stepped
    split at stepped
    · cases stepped
    · rename_i idle
      cases stepped
      exact logged.connack (Bool.eq_false_iff.mpr idle) rfl
  | poll polls =>
    simp only [World.step] at stepped
    split at stepped
    · cases polled : world.poll polls with
      | error panic => simp [polled, Except.mapError, Except.map] at stepped
      | ok outcome =>
        simp only [polled, Except.mapError, Except.map, Except.ok.injEq] at stepped
        exact logged.poll (polled.trans (by rw [← stepped]))
    · cases stepped
  | incoming packet =>
    simp only [World.step] at stepped
    split at stepped
    · cases handled : world.incoming packet with
      | error panic => simp [handled, Except.mapError, Except.map] at stepped
      | ok outcome =>
        simp only [handled, Except.mapError, Except.map, Except.ok.injEq] at stepped
        exact logged.incoming (handled.trans (by rw [← stepped]))
    · cases stepped
  | disconnected disconnection =>
    simp only [World.step] at stepped
    split at stepped
    · cases stepped
      exact logged.disconnected disconnection
    · cases stepped

end AckLogged

theorem ackLogged_run {maxPkid : PacketIdentifier} {events : List Event} {final : World}
    (ran : World.run (.new maxPkid) events = .ok final) (few : final.connections < 2 ^ 64) :
    AckLogged (.of maxPkid events) final := by
  refine (Transition.observe_always
    (fun world log => world.connections < 2 ^ 64 → Ordered world ∧ AckLogged log world) ?_
    (fun _ => ⟨.new maxPkid, .new maxPkid⟩) ran few).2
  intro world log event next holds stepped few
  have grown : world.connections ≤ next.connections := World.step_connections stepped
  obtain ⟨ordered, logged⟩ := holds (Nat.lt_of_le_of_lt grown few)
  exact ⟨ordered.step few stepped, logged.step ordered stepped⟩

namespace AckLogged

variable {world : World} {log : AckLog}

/-- The arrivals of a connection and what was noted of them. -/
theorem arrivals (logged : AckLogged log world) (connection : Nat) :
    List.Forall₂ log.NotedAs (log.on connection) (world.arrivalsOn connection) := by
  have noted : log.on connection =
      (log.received.zipIdx.filter (fun received => received.1.connection == connection)).map
        Prod.fst := by
    have all : log.received = log.received.zipIdx.map Prod.fst :=
      (List.zipIdx_map_fst 0 log.received).symm
    rw [AckLog.on]
    conv_lhs => rw [all, List.filter_map]
    rfl
  have arrived : world.arrivalsOn connection =
      (log.received.zipIdx.filter (fun received => received.1.connection == connection)).map
        fun received => (received.2, received.1.pkid) := by
    rw [World.arrivalsOn, ← logged.received, List.zipIdx_map, List.filter_map, List.map_map]
    rfl
  rw [noted, arrived, List.forall₂_map_left_iff, List.forall₂_map_right_iff, List.forall₂_same]
  intro received member
  exact ⟨rfl, List.mem_zipIdx_iff_getElem?.mp (List.mem_filter.mp member).1⟩

/-- The PUBACK chosen for an arrival is what its token chose. -/
private theorem chosen (logged : AckLogged log world) {puback : PubAck}
    {arrival : Nat × PacketIdentifier} {received : InboundPublish}
    (chosen : Chosen world.uses puback arrival) (noted : log.NotedAs received arrival) :
    some puback = received.puback? := by
  obtain ⟨_, use, used, serial, rfl⟩ := chosen
  obtain ⟨other, located, chose⟩ := logged.used use used
  rw [serial, noted.2, Option.some.injEq] at located
  exact located ▸ chose.symm

/-- The PUBACKs that answer arrivals are what was noted of these. -/
theorem answered (logged : AckLogged log world) {connection : Nat}
    {done : List (Nat × PacketIdentifier)} {early : List InboundPublish}
    (answered : Answered world connection done) (noted : List.Forall₂ log.NotedAs early done) :
    (world.pubAcksOn connection).map some = early.map InboundPublish.puback? := by
  unfold Answered at answered
  generalize world.pubAcksOn connection = acks at answered
  induction answered generalizing early with
  | nil =>
    cases noted
    rfl
  | cons first _ ih =>
    cases noted with
    | cons here later => rw [List.map_cons, List.map_cons, logged.chosen first here, ih later]

/-- The arrivals of a connection, of which the first ones have been answered. -/
private theorem divide (logged : AckLogged log world) {connection : Nat}
    {done rest : List (Nat × PacketIdentifier)}
    (split : world.arrivalsOn connection = done ++ rest)
    (answered : Answered world connection done) :
    ∃ early late, log.on connection = early ++ late ∧
      (world.pubAcksOn connection).map some = early.map InboundPublish.puback? ∧
      List.Forall₂ log.NotedAs late rest := by
  have arrivals := split ▸ logged.arrivals connection
  exact ⟨_, _, (List.take_append_drop done.length _).symm,
    logged.answered answered (List.forall₂_take_append _ _ _ arrivals),
    List.forall₂_drop_append _ _ _ arrivals⟩

end AckLogged

/-- The PUBACKs of a session so far, as the log has the arrivals. -/
structure PubAckOrder (log : AckLog) (world : World) : Prop where
  /-- The PUBACKs of a connection are those that the tokens of its first arrivals chose, in
  order. -/
  answered : ∀ connection,
    (world.pubAcksOn connection).map some <+: (log.on connection).map InboundPublish.puback?
  /-- The rest of the arrivals on the current connection wait, and an answer that is ready is
  the one that the token of this very arrival chose. -/
  pending : world.session.isConnected = true → ∃ done waiting,
    log.on log.connections = done ++ waiting ∧
    (world.pubAcksOn log.connections).map some = done.map InboundPublish.puback? ∧
    List.Forall₂ (fun entry received => Prod.fst entry = received.pkid ∧
        ∀ request, Prod.snd entry = .ready request → ∃ notifier puback,
          request = .pubAck notifier puback world.session.connectionEpoch ∧
          received.puback? = some puback)
      world.session.inApplication.entries waiting
  /-- A token is used at most once. -/
  once : (world.uses.map (·.token.serial)).Nodup
  /-- No answer of the application is taken for a forged one. -/
  unforged : ∀ polls, world.step (.poll polls) ≠ .error (.panic .forgedAcknowledgement)
  /-- A PUBLISH is accepted if all earlier ones with its identifier were acknowledged on
  this connection. -/
  accepted : ∀ publish pkid dup, world.session.isConnected = true →
    publish.packetIdentifierDupQoS = .atLeastOnce pkid dup →
    ((log.on log.connections).map InboundPublish.pkid).count pkid =
      ((world.pubAcksOn log.connections).map PubAck.packetIdentifier).count pkid →
    ∃ next, world.step (.incoming (.publish publish)) = .ok next

/-- The identifier of an arrival is that of its PUBACK. -/
private theorem identifiers {acks : List PubAck} {done : List InboundPublish}
    (chosen : acks.map some = done.map InboundPublish.puback?) :
    done.map InboundPublish.pkid = acks.map PubAck.packetIdentifier := by
  induction acks generalizing done with
  | nil =>
    rw [List.map_nil] at chosen
    rw [List.map_eq_nil_iff.mp chosen.symm]
    rfl
  | cons puback rest ih =>
    cases done with
    | nil => cases chosen
    | cons received later =>
      obtain ⟨here, next⟩ := List.cons.inj chosen
      obtain ⟨answer, _, rfl⟩ := Option.map_eq_some_iff.mp here.symm
      rw [List.map_cons, List.map_cons, ih next]

/-- PUBACKs leave in the order of arrival, each on the connection of its PUBLISH and as
its own token chose. -/
theorem pubAck_order (maxPkid : PacketIdentifier) (events : List Event) (final : World)
    (ran : World.run (.new maxPkid) events = .ok final) (few : final.connections < 2 ^ 64) :
    PubAckOrder (.of maxPkid events) final := by
  have ordered := ordered_run ran few
  have logged := ackLogged_run ran few
  have pending : final.session.isConnected = true → ∃ done waiting,
      (AckLog.of maxPkid events).on (AckLog.of maxPkid events).connections = done ++ waiting ∧
      (final.pubAcksOn (AckLog.of maxPkid events).connections).map some =
        done.map InboundPublish.puback? ∧
      List.Forall₂ (fun entry received => Prod.fst entry = InboundPublish.pkid received ∧
          ∀ request, Prod.snd entry = .ready request → ∃ notifier puback,
            request = .pubAck notifier puback final.session.connectionEpoch ∧
            received.puback? = some puback)
        final.session.inApplication.entries waiting := by
    intro live
    obtain ⟨queued, _, _, pending⟩ := ordered.underWay
    obtain ⟨slots, done, slotted, split, answered⟩ := pending live
    obtain ⟨early, late, whole, chosen, waits⟩ := logged.divide split answered
    rw [logged.connections]
    refine ⟨early, late, whole, chosen, ?_⟩
    rw [slotted.entries, List.forall₂_map_left_iff]
    rw [List.forall₂_map_right_iff] at waits
    refine List.Forall₂.imp ?_ ((List.forall₂_and_left _ _).mpr ⟨slotted.ready, waits.flip⟩)
    rintro slot received ⟨ready, same, noted⟩
    refine ⟨same.symm, fun request state => ?_⟩
    obtain ⟨use, used, serial, epoch, rfl⟩ := ready request state
    obtain ⟨other, located, chosen⟩ := logged.used use used
    have this : other = received := by
      rw [serial] at located
      exact Option.some.inj (located.symm.trans noted)
    exact ⟨use.notifier, use.puback, congrArg _ epoch, this ▸ chosen⟩
  constructor
  · intro connection
    obtain ⟨done, ⟨rest, split⟩, answered⟩ := ordered.answered connection
    obtain ⟨early, late, whole, chosen, _⟩ := logged.divide split.symm answered
    rw [whole, List.map_append, chosen]
    exact List.prefix_append _ _
  · exact pending
  · have distinct := ordered.distinct
    rw [List.map_append, List.nodup_append, List.map_map] at distinct
    exact distinct.1
  · intro polls failed
    cases live : final.session.isConnected with
    | false => simp [World.step, live] at failed
    | true =>
      refine ordered.unforged live polls ?_
      simp only [World.step, live, if_true, World.poll] at failed
      cases polled : final.session.nextOutgoingPacket final.now polls with
      | ok outcome => simp [polled, Except.mapError, Except.map] at failed
      | error panic =>
        simp only [polled, Except.mapError, Except.map, Except.error.injEq,
          Stop.panic.injEq] at failed
        rw [failed]
  · intro publish pkid dup live qos acknowledged
    obtain ⟨done, waiting, split, chosen, waits⟩ := pending live
    rw [split, List.map_append, List.count_append, identifiers chosen] at acknowledged
    have absent : pkid ∉ final.session.inApplication.keys := by
      have none : pkid ∉ waiting.map InboundPublish.pkid := List.count_eq_zero.mp (by omega)
      have keys : final.session.inApplication.keys = waiting.map InboundPublish.pkid := by
        rw [IndexMap.keys, ← List.forall₂_eq_eq_eq, List.forall₂_map_left_iff,
          List.forall₂_map_right_iff]
        exact waits.imp fun _ _ same => same.1
      rwa [keys]
    cases receiver : final.session.ch.iPubOpen <;>
      simp [World.step, live, World.incoming, World.incomingPublish, Session.incomingPublish, qos,
        absent, receiver, Except.mapError, Except.map]

/-- Two PUBLISHes are answered in the opposite order of their arrival, one of them by
dropping its token. -/
def reversedAnswers : List Event :=
  let publish (pkid : PacketIdentifier) : Publish :=
    ⟨⟨⟨⟨[0, 1, 97]⟩⟩⟩, .atLeastOnce pkid false, false, [], {}⟩
  [.connack ⟨.success false, {}⟩ .infinite none .infinite,
    .incoming (.publish (publish (.add .one 1))), .incoming (.publish (publish .one)),
    .app (.acknowledge 1 .notAuthorized {}), .poll [{}, {}], .app (.dropToken 0),
    .poll [{}, {}], .poll [{}, {}]]

theorem pubAck_order_reversed :
    ∃ final, World.run (.new .one) reversedAnswers = .ok final ∧
      final.pubAcksOn 1 = [⟨.add .one 1, .success, {}⟩, ⟨.one, .notAuthorized, {}⟩] ∧
      PubAckOrder (.of .one reversedAnswers) final :=
  ⟨_, rfl, by decide, pubAck_order .one reversedAnswers _ rfl (by decide)⟩

end MqttClient.Client
