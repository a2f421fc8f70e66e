import MqttClient.Client.Discipline
import MqttClient.Client.WorldSpec

/-! Packet identifiers over whole runs. -/

namespace MqttClient.Client

open MqttClient.Proto

namespace Session.OpFrame

variable {before after : Session}

theorem stored (frame : OpFrame before after) (kind : OpKind) :
    after.inflight.stored kind = before.inflight.stored kind := by
  cases kind with
  | publishQoS1 => simp only [InflightTracker.stored, frame.publishQoS1]
  | publishQoS2 => simp only [InflightTracker.stored, frame.publishQoS2]
  | subscribe => simp only [InflightTracker.stored, frame.subscribe]
  | unsubscribe => simp only [InflightTracker.stored, frame.unsubscribe]

theorem keys (frame : OpFrame before after) (kind : OpKind) :
    after.inflight.keys kind = before.inflight.keys kind := by
  simp only [InflightTracker.keys_eq_map_stored, frame.stored]

end Session.OpFrame

namespace Disciplined

variable {session after : Session}

private theorem stored_insert_subscribe {pkid : PacketIdentifier} {notifier : Notifier}
    (fresh : pkid ∉ session.inflight.keys .subscribe) (kind : OpKind) :
    ({ session.inflight with
        subscribe := session.inflight.subscribe.insert pkid notifier } : InflightTracker).stored
        kind =
      session.inflight.stored kind ++ if kind = .subscribe then [(pkid, notifier)] else [] := by
  cases kind <;>
    simp [InflightTracker.stored, IndexMap.entries_insert_fresh fresh]

private theorem stored_insert_unsubscribe {pkid : PacketIdentifier} {notifier : Notifier}
    (fresh : pkid ∉ session.inflight.keys .unsubscribe) (kind : OpKind) :
    ({ session.inflight with
        unsubscribe := session.inflight.unsubscribe.insert pkid notifier } :
          InflightTracker).stored kind =
      session.inflight.stored kind ++ if kind = .unsubscribe then [(pkid, notifier)] else [] := by
  cases kind <;>
    simp [InflightTracker.stored, IndexMap.entries_insert_fresh fresh]

private theorem stored_insert_publishQoS1 {pkid : PacketIdentifier} {notifier : Notifier}
    {publish : Publish} (fresh : pkid ∉ session.inflight.keys .publishQoS1) (kind : OpKind) :
    ({ session.inflight with
        publishQoS1 := session.inflight.publishQoS1.insert pkid (publish, notifier) } :
          InflightTracker).stored kind =
      session.inflight.stored kind ++ if kind = .publishQoS1 then [(pkid, notifier)] else [] := by
  cases kind <;>
    simp [InflightTracker.stored, IndexMap.entries_insert_fresh fresh]

private theorem stored_insert_publishQoS2 {pkid : PacketIdentifier} {notifier : Notifier}
    {publish : Publish} (fresh : pkid ∉ session.inflight.keys .publishQoS2) (kind : OpKind) :
    ({ session.inflight with
        publishQoS2 := session.inflight.publishQoS2.insert pkid (publish, notifier) } :
          InflightTracker).stored kind =
      session.inflight.stored kind ++ if kind = .publishQoS2 then [(pkid, notifier)] else [] := by
  cases kind <;>
    simp [InflightTracker.stored, IndexMap.entries_insert_fresh fresh]

/-- Under the discipline a poll leaves every operation in flight as it is, or appends
one under an identifier that none of them holds. -/
theorem poll_stored {outgoing : Option Outgoing} {fired : List Firing}
    (disciplined : Disciplined session)
    (effect : Session.PollEffect session outgoing after fired) :
    (after.pkidPool = session.pkidPool ∧
      (∀ kind, after.inflight.stored kind = session.inflight.stored kind) ∧
      ∀ sent ∈ outgoing, sent.request ≠ none → Packet.operationIdentifier sent.packet = none) ∨
    ∃ sent opened pkid notifier, outgoing = some sent ∧
      sent.opens = some (opened, pkid, notifier) ∧
      Packet.operationIdentifier sent.packet = some pkid ∧
      session.pkidPool.leaseNextPkid = some (pkid, after.pkidPool) ∧
      ∀ kind, after.inflight.stored kind =
        session.inflight.stored kind ++ if kind = opened then [(pkid, notifier)] else [] := by
  cases effect with
  | quiet outgoing after fired drained frame silent plain =>
    exact .inl ⟨frame.pkidPool, frame.stored, fun sent member _ => (plain sent member).2.2⟩
  | replay packet rest after head frame =>
    refine .inl ⟨frame.pkidPool, fun kind => (frame.stored kind).trans ?_, ?_⟩
    · cases kind <;> rfl
    · rintro sent ⟨⟩ answered
      exact absurd rfl answered
  | subscribe notifier topicFilter options otherProperties rest pkid pool after drained head leased
      frame =>
    refine .inr ⟨_, .subscribe, pkid, notifier, rfl, rfl, rfl, frame.pkidPool ▸ leased, ?_⟩
    intro kind
    exact (frame.stored kind).trans (stored_insert_subscribe (disciplined.unheld leased _) kind)
  | unsubscribe notifier topicFilter otherProperties rest pkid pool after drained head leased
      frame =>
    refine .inr ⟨_, .unsubscribe, pkid, notifier, rfl, rfl, rfl, frame.pkidPool ▸ leased, ?_⟩
    intro kind
    exact (frame.stored kind).trans (stored_insert_unsubscribe (disciplined.unheld leased _) kind)
  | publishQoS1 request rest pkid pool after drained head leased frame =>
    refine .inr ⟨_, .publishQoS1, pkid, request.notifier, rfl, rfl, rfl,
      frame.pkidPool ▸ leased, ?_⟩
    intro kind
    exact (frame.stored kind).trans (stored_insert_publishQoS1 (disciplined.unheld leased _) kind)
  | publishQoS2 request rest pkid pool after drained head leased frame =>
    refine .inr ⟨_, .publishQoS2, pkid, request.notifier, rfl, rfl, rfl,
      frame.pkidPool ▸ leased, ?_⟩
    intro kind
    exact (frame.stored kind).trans (stored_insert_publishQoS2 (disciplined.unheld leased _) kind)

theorem poll {outgoing : Option Outgoing} {fired : List Firing}
    (disciplined : Disciplined session)
    (effect : Session.PollEffect session outgoing after fired) : Disciplined after := by
  rcases disciplined.poll_stored effect with ⟨pool, stored, _⟩ |
    ⟨sent, opened, pkid, notifier, _, _, _, leased, stored⟩
  · exact disciplined.congr
      (fun kind => by simp only [InflightTracker.keys_eq_map_stored, stored]) pool
  · refine disciplined.lease opened leased (fun other => ?_) rfl
    simp only [InflightTracker.keys_eq_map_stored, stored, List.map_append]
    split <;> simp

theorem established {world : World} {connack : ConnAck} {keepAlive : KeepAlive}
    {authMethod : Option Bytes} {expiry : SessionExpiryInterval} {sessionPresent : Bool}
    (disciplined : Disciplined world.session) :
    Disciplined (world.established connack keepAlive authMethod expiry sessionPresent).session := by
  cases sessionPresent with
  | true => exact disciplined.congr (fun _ => rfl) rfl
  | false => exact disciplined.sessionExpired.congr (fun _ => rfl) rfl

theorem ended {world : World} (disciplined : Disciplined world.session)
    (disconnection : Disconnection) :
    Disciplined (world.disconnected disconnection).session := by
  cases disconnection with
  | client disconnect =>
    have same : Disciplined { world.session.disconnected.1 with
        expiryInterval := disconnect.otherProperties.sessionExpiryInterval.getD
          world.session.disconnected.1.expiryInterval } :=
      disciplined.disconnected.congr (fun _ => rfl) rfl
    exact same.expireIfZero
  | server disconnect => exact disciplined.disconnected.expireIfZero
  | transport => exact disciplined.disconnected.expireIfZero

end Disciplined

/-- The condition on a step: an acknowledgement of the server gives back no identifier
that an operation of another kind holds. -/
def ReleasesOwnAt (world : World) : Event → Prop
  | .incoming (.ack ack) => ReleasesOwn world.session ack
  | _ => True

/-- One step keeps the discipline exactly when it meets the condition. -/
theorem Disciplined.step_iff {world next : World} {event : Event}
    (disciplined : Disciplined world.session) (stepped : world.step event = .ok next) :
    Disciplined next.session ↔ ReleasesOwnAt world event := by
  have always : Disciplined next.session → ReleasesOwnAt world event = True →
      (Disciplined next.session ↔ ReleasesOwnAt world event) :=
    fun kept trivialCondition => by simp [kept, trivialCondition]
  cases World.step_cases stepped with
  | app event =>
    refine always ?_ rfl
    obtain ⟨ch, same, _⟩ := world.app_session event
    rw [same]
    exact disciplined.congr (fun _ => rfl) rfl
  | elapse duration => exact always disciplined rfl
  | refused => exact always disciplined rfl
  | established => exact always disciplined.established rfl
  | polled polls outgoing session fired live polled =>
    exact always (disciplined.poll (Session.nextOutgoingPacket_effect polled)) rfl
  | acked ack handled live completed => exact disciplined.completeInflight_iff completed
  | delivered publish next live delivered =>
    refine always ?_ rfl
    obtain ⟨ackRx, inApplication, same⟩ := World.incomingPublish_session delivered
    rw [same]
    exact disciplined.congr (fun _ => rfl) rfl
  | authenticated auth live =>
    refine always ?_ rfl
    obtain ⟨exchange, same⟩ := (world.session.incomingAuth_frame auth).1
    rw [World.record, same]
    exact disciplined.congr (fun _ => rfl) rfl
  | ponged live =>
    refine always ?_ rfl
    obtain ⟨rest, same⟩ := (world.session.incomingPingresp_frame world.now).1
    rw [World.record, same]
    exact disciplined.congr (fun _ => rfl) rfl
  | disconnected disconnection live => exact always (disciplined.ended disconnection) rfl

/-- What the discipline means for one step: a packet for a new request carries an
identifier no operation holds, and no poll overwrites an entry in flight. -/
def OpensFree (before after : World) (event : Event) : Prop :=
  (∀ emission ∈ after.emissions.drop before.emissions.length,
    emission.outgoing.request ≠ none → ∀ pkid,
      Packet.operationIdentifier emission.outgoing.packet = some pkid →
      ∀ kind, pkid ∉ before.session.inflight.keys kind) ∧
  (∀ polls, event = .poll polls → ∀ kind,
    before.session.inflight.stored kind <+: after.session.inflight.stored kind)

theorem Disciplined.opensFree {world next : World} {event : Event}
    (disciplined : Disciplined world.session) (stepped : world.step event = .ok next) :
    OpensFree world next event := by
  by_cases isPoll : ∃ polls, event = .poll polls
  · obtain ⟨polls, rfl⟩ := isPoll
    cases World.step_cases stepped with
    | polled _ outgoing session fired live polled =>
      rcases disciplined.poll_stored (Session.nextOutgoingPacket_effect polled) with
        ⟨_, stored, plain⟩ | ⟨sent, opened, pkid, notifier, rfl, _, identifier, leased, stored⟩
      · refine ⟨?_, fun _ _ kind => stored kind ▸ List.prefix_rfl⟩
        intro emission member answered pkid named
        simp only [World.afterPoll, List.drop_left, List.mem_map, Option.mem_toList] at member
        obtain ⟨sent, isSent, rfl⟩ := member
        simp [plain sent isSent answered] at named
      · refine ⟨?_, fun _ _ kind => stored kind ▸ List.prefix_append _ _⟩
        intro emission member answered other named kind
        simp only [World.afterPoll, List.drop_left, Option.toList_some, List.map_cons, List.map_nil,
          List.mem_singleton] at member
        subst member
        obtain rfl := Option.some.inj (identifier.symm.trans named)
        exact disciplined.unheld leased kind
  · have notPoll : ∀ polls, event ≠ .poll polls := fun polls same => isPoll ⟨polls, same⟩
    refine ⟨?_, fun polls same => absurd same (notPoll polls)⟩
    rw [World.step_emissions stepped notPoll]
    simp

theorem disciplined_new (maxPkid : PacketIdentifier) :
    Disciplined (World.new maxPkid).session where
  disjoint left _ _ _ member := by cases left <;> cases member
  leased kind _ member := by cases kind <;> cases member

/-- In every state of the run the identifiers in flight are leased and unshared, and
every step opens operations only under free identifiers. -/
def IdentifierDiscipline (maxPkid : PacketIdentifier) (events : List Event) : Prop :=
  (∀ early late middle, events = early ++ late → World.run (.new maxPkid) early = .ok middle →
    Disciplined middle.session) ∧
  (∀ early event late before after, events = early ++ event :: late →
    World.run (.new maxPkid) early = .ok before → before.step event = .ok after →
    OpensFree before after event)

/-- The identifiers of a run stay disciplined exactly when no acknowledgement of the
server gives back an identifier that an operation of another kind holds. -/
theorem identifierDiscipline_iff (maxPkid : PacketIdentifier) (events : List Event)
    (final : World) (ran : World.run (.new maxPkid) events = .ok final) :
    IdentifierDiscipline maxPkid events ↔
      Transition.Along World.step ReleasesOwnAt (.new maxPkid) events := by
  have everywhere := Transition.along_iff_invariant (fun world => Disciplined world.session)
    (fun _ _ _ disciplined stepped => disciplined.step_iff stepped) (disciplined_new maxPkid) ran
  constructor
  · intro discipline
    exact everywhere.mp discipline.1
  · intro along
    have states := everywhere.mpr along
    refine ⟨states, ?_⟩
    intro early event late before after split first stepped
    exact (states early (event :: late) before split first).opensFree stepped

/-- A QoS 1 PUBLISH is sent under identifier 1, the server answers it with `ack`, and
the connection is lost. -/
def answeredPublish (ack : Acknowledgement) : List Event :=
  [.connack ⟨.success false, { sessionExpiryInterval := some .infinite }⟩ .infinite none
      (.duration 0),
    .app (.publishQoS1 ⟨⟨⟨[0, 1, 97]⟩⟩⟩ [] false {}), .poll [{}], .incoming (.ack ack),
    .disconnected .transport]

/-- The server takes the session up again and the application subscribes. -/
def resumedSubscribe : List Event :=
  [.connack ⟨.success true, {}⟩ .infinite none .infinite, .poll [{}],
    .app (.subscribe ⟨⟨⟨[0, 1, 97]⟩⟩, .regular⟩ ⟨.atLeastOnce, {}⟩ {}), .poll [{}]]

theorem identifierDiscipline_iff_pubAck :
    (World.run (.new .one) (answeredPublish (.pubAck ⟨.one, .success, {}⟩))).isOk = true ∧
      (IdentifierDiscipline .one (answeredPublish (.pubAck ⟨.one, .success, {}⟩)) ↔
        Transition.Along World.step ReleasesOwnAt (.new .one)
          (answeredPublish (.pubAck ⟨.one, .success, {}⟩))) := by
  refine ⟨by decide, ?_⟩
  exact identifierDiscipline_iff .one _ _ rfl

/-- A SUBACK with the identifier of the PUBLISH frees it, and after the reconnect the
SUBSCRIBE is sent under the identifier the PUBLISH still holds. -/
theorem identifierDiscipline_fails_subAck :
    (∃ final, World.run (.new .one)
        (answeredPublish (.subAck ⟨.one, [.grantedQoS0], {}⟩) ++ resumedSubscribe) = .ok final ∧
      .one ∈ final.session.inflight.keys .publishQoS1 ∧
      .one ∈ final.session.inflight.keys .subscribe) ∧
    ¬ IdentifierDiscipline .one
      (answeredPublish (.subAck ⟨.one, [.grantedQoS0], {}⟩) ++ resumedSubscribe) := by
  have shared : ∃ final, World.run (.new .one)
      (answeredPublish (.subAck ⟨.one, [.grantedQoS0], {}⟩) ++ resumedSubscribe) = .ok final ∧
      .one ∈ final.session.inflight.keys .publishQoS1 ∧
      .one ∈ final.session.inflight.keys .subscribe :=
    ⟨_, rfl, by decide, by decide⟩
  refine ⟨shared, fun discipline => ?_⟩
  obtain ⟨final, ran, published, subscribed⟩ := shared
  have disciplined := discipline.1 _ [] final (List.append_nil _).symm ran
  exact disciplined.disjoint .publishQoS1 .subscribe .one (by decide) published subscribed

end MqttClient.Client
