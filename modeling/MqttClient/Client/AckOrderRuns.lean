import MqttClient.Client.AckOrder
import MqttClient.Client.WorldSpec

/-! PUBACKs over whole runs: each connection acknowledges its own deliveries, in the
order of their arrival. -/

namespace MqttClient.Client

open MqttClient.Proto

def Packet.pubAck? : Packet → Option PubAck
  | .pubAck puback => some puback
  | _ => none

namespace World

/-- The QoS 1 PUBLISHes received on a connection, each with the serial of its token. -/
def arrivalsOn (world : World) (connection : Nat) : List (Nat × PacketIdentifier) :=
  (world.deliveries.zipIdx.filter (fun arrival => arrival.1.connection == connection)).map
    fun arrival => (arrival.2, arrival.1.pkid)

/-- The PUBACKs sent on a connection. -/
def pubAcksOn (world : World) (connection : Nat) : List PubAck :=
  (world.emissions.filter (fun emission => emission.connection == connection)).filterMap
    fun emission => Packet.pubAck? emission.outgoing.packet

theorem mem_arrivalsOn {world : World} {connection serial : Nat} {pkid : PacketIdentifier} :
    (serial, pkid) ∈ world.arrivalsOn connection ↔
      world.deliveries[serial]? = some ⟨connection, pkid⟩ := by
  simp only [arrivalsOn, List.mem_map, List.mem_filter, beq_iff_eq, Prod.mk.injEq, Prod.exists]
  constructor
  · rintro ⟨⟨_, _⟩, index, ⟨member, rfl⟩, rfl, rfl⟩
    exact List.mem_zipIdx_iff_getElem?.mp member
  · intro located
    exact ⟨_, serial, ⟨List.mem_zipIdx_iff_getElem?.mpr located, rfl⟩, rfl, rfl⟩

theorem pubAcksOn_afterPoll (world : World) (polls : List Readiness) (outgoing : Option Outgoing)
    (session : Session) (fired : List Firing) (connection : Nat) :
    (world.afterPoll polls outgoing session fired).pubAcksOn connection =
      world.pubAcksOn connection ++ if world.connections = connection then
        (outgoing.bind fun sent => Packet.pubAck? sent.packet).toList else [] := by
  simp only [pubAcksOn, afterPoll, List.filter_append, List.filterMap_append]
  congr 1
  cases outgoing with
  | none => simp
  | some sent =>
    by_cases same : world.connections = connection
    · cases packet : Packet.pubAck? sent.packet <;> simp [same, packet]
    · simp [same]

theorem arrivalsOn_snoc {world next : World} {delivery : Delivery}
    (deliveries : next.deliveries = world.deliveries ++ [delivery]) (connection : Nat) :
    next.arrivalsOn connection = world.arrivalsOn connection ++
      if delivery.connection = connection then [(world.deliveries.length, delivery.pkid)]
      else [] := by
  simp only [arrivalsOn, deliveries, List.zipIdx_append, List.filter_append, List.map_append]
  congr 1
  by_cases same : delivery.connection = connection <;> simp [same]

end World

/-- The PUBACK is for the arrival, and was chosen with its token. -/
def Chosen (uses : List TokenUse) (puback : PubAck) (arrival : Nat × PacketIdentifier) : Prop :=
  puback.packetIdentifier = arrival.2 ∧
    ∃ use ∈ uses, use.token.serial = arrival.1 ∧ use.puback = puback

/-- The PUBACKs of a connection answer these of its arrivals, in order. -/
def Answered (world : World) (connection : Nat) (done : List (Nat × PacketIdentifier)) : Prop :=
  List.Forall₂ (Chosen world.uses) (world.pubAcksOn connection) done

theorem Answered.mono {world next : World} {connection : Nat}
    {done : List (Nat × PacketIdentifier)} (answered : Answered world connection done)
    (sent : next.pubAcksOn connection = world.pubAcksOn connection)
    (uses : ∀ use ∈ world.uses, use ∈ next.uses) : Answered next connection done := by
  unfold Answered
  rw [sent]
  refine List.Forall₂.imp ?_ answered
  rintro puback arrival ⟨identifier, use, used, same⟩
  exact ⟨identifier, use, uses use used, same⟩

/-- The answers under way: those in the channel are the latest uses of tokens, and on a
connection every arrival is answered or has a slot. -/
structure UnderWay (world : World) (queued : List TokenUse) : Prop where
  latest : queued <:+ world.uses
  channel : world.session.ch.ackRx = queued.map TokenUse.request
  pending : world.session.isConnected = true → ∃ slots done,
    Slotted world.uses (queued.map TokenUse.token ++ world.tokens) world.session slots ∧
    world.arrivalsOn world.connections = done ++ slots.map Slot.arrival ∧
    Answered world world.connections done

/-- The bookkeeping of tokens, deliveries and PUBACKs. -/
structure Ordered (world : World) : Prop where
  epoch : world.session.connectionEpoch.toNat = world.connections
  issued : ∀ token ∈ world.uses.map TokenUse.token ++ world.tokens,
    world.deliveries[token.serial]? = some ⟨token.epoch.toNat, token.pkid⟩
  distinct : ((world.uses.map TokenUse.token ++ world.tokens).map PubAckToken.serial).Nodup
  named : ∀ use ∈ world.uses, use.puback.packetIdentifier = use.token.pkid
  replay : ∀ packet ∈ world.session.inflight.packetsToReplay, ∀ puback, packet ≠ .pubAck puback
  underWay : ∃ queued, UnderWay world queued
  idle : world.session.isConnected = false → world.session.inApplication = .empty
  answered : ∀ connection, ∃ done, done <+: world.arrivalsOn connection ∧
    Answered world connection done
  delivered : ∀ delivery ∈ world.deliveries, delivery.connection ≤ world.connections
  sent : SentBefore world

namespace Ordered

variable {world next : World}

theorem new (maxPkid : PacketIdentifier) : Ordered (.new maxPkid) where
  epoch := rfl
  issued := by simp [World.new]
  distinct := by simp [World.new]
  named := by simp [World.new]
  replay := by simp [World.new, Session.new]
  underWay := ⟨[], List.nil_suffix, rfl, fun live => by cases live⟩
  idle := fun _ => rfl
  answered := fun _ => ⟨[], List.nil_prefix, .nil⟩
  delivered := by simp [World.new]
  sent := by simp [World.new, SentBefore]

/-- A step that touches neither tokens nor answers. -/
private theorem congr (ordered : Ordered world) (links : next.links = world.links)
    (epoch : next.session.connectionEpoch = world.session.connectionEpoch)
    (live : next.session.isConnected = world.session.isConnected)
    (pending : next.session.inApplication = world.session.inApplication)
    (queue : next.session.ch.ackRx = world.session.ch.ackRx)
    (replay : ∀ packet ∈ next.session.inflight.packetsToReplay,
      packet ∈ world.session.inflight.packetsToReplay)
    (tokens : next.tokens = world.tokens) (uses : next.uses = world.uses)
    (deliveries : next.deliveries = world.deliveries)
    (acks : ∀ connection, next.pubAcksOn connection = world.pubAcksOn connection)
    (sent : SentBefore next) : Ordered next := by
  have connections : next.connections = world.connections := congrArg List.length links
  have arrivals : ∀ connection, next.arrivalsOn connection = world.arrivalsOn connection :=
    fun connection => by simp only [World.arrivalsOn, deliveries]
  have sameUses : ∀ use ∈ world.uses, use ∈ next.uses := fun use member => uses ▸ member
  obtain ⟨queued, latest, channel, slots⟩ := ordered.underWay
  constructor
  · rw [epoch, connections]
    exact ordered.epoch
  · rw [uses, tokens, deliveries]
    exact ordered.issued
  · rw [uses, tokens]
    exact ordered.distinct
  · rw [uses]
    exact ordered.named
  · exact fun packet member => ordered.replay packet (replay packet member)
  · refine ⟨queued, uses ▸ latest, queue.trans channel, fun connected => ?_⟩
    obtain ⟨slots, done, slotted, split, answered⟩ := slots (live ▸ connected)
    refine ⟨slots, done, ?_, ?_, ?_⟩
    · rw [uses, tokens]
      exact slotted.congr pending epoch
    · rw [connections, arrivals]
      exact split
    · rw [connections]
      exact answered.mono (acks _) sameUses
  · rw [live, pending]
    exact ordered.idle
  · intro connection
    obtain ⟨done, before, answered⟩ := ordered.answered connection
    exact ⟨done, arrivals connection ▸ before, answered.mono (acks _) sameUses⟩
  · rw [deliveries, connections]
    exact ordered.delivered
  · exact sent

/-- A token that is used is no longer held. -/
private theorem distinct_use (token : PubAckToken) {notifier : Notifier} {puback : PubAck}
    (ordered : Ordered world) (held : token ∈ world.tokens) :
    ((world.uses ++ [TokenUse.mk token notifier puback]).map TokenUse.token ++
      world.tokens.filter (fun other => !(other.serial == token.serial))).map
        PubAckToken.serial |>.Nodup := by
  have distinct := ordered.distinct
  simp only [List.map_append, List.nodup_append] at distinct ⊢
  obtain ⟨usedDistinct, tokensDistinct, apart⟩ := distinct
  refine ⟨⟨usedDistinct, by simp, ?_⟩, ?_, ?_⟩
  · intro serial used other single
    simp only [List.map_cons, List.map_nil, List.mem_singleton] at single
    exact single ▸ apart serial used token.serial (List.mem_map_of_mem held)
  · exact tokensDistinct.sublist (List.filter_sublist.map _)
  · intro serial used other kept
    obtain ⟨remaining, filtered, rfl⟩ := List.mem_map.mp kept
    obtain ⟨member, different⟩ := List.mem_filter.mp filtered
    rcases List.mem_append.mp used with earlier | single
    · exact apart serial earlier remaining.serial (List.mem_map_of_mem member)
    · simp only [List.map_cons, List.map_nil, List.mem_singleton] at single
      subst single
      intro same
      simp [← same] at different

/-- A token leaves the application's hands with its answer. -/
private theorem use (token : PubAckToken) {notifier fresh : Notifier} {puback : PubAck}
    {remaining : List PubAckToken} (ordered : Ordered world) (held : token ∈ world.tokens)
    (named : puback.packetIdentifier = token.pkid)
    (rest : world.tokens.filter (fun other => !(other.serial == token.serial)) = remaining) :
    Ordered { world with
      session := { world.session with ch := { world.session.ch with
        ackRx := world.session.ch.ackRx ++ [.pubAck notifier puback token.epoch] } }
      fresh := fresh
      tokens := remaining
      uses := world.uses ++ [⟨token, notifier, puback⟩] } := by
  subst rest
  have subset : ∀ other ∈ (world.uses ++ [TokenUse.mk token notifier puback]).map TokenUse.token ++
      world.tokens.filter (fun other => !(other.serial == token.serial)),
      other ∈ world.uses.map TokenUse.token ++ world.tokens := by
    intro other member
    simp only [List.map_append, List.map_cons, List.map_nil, List.append_assoc, List.mem_append,
      List.mem_singleton, List.mem_filter] at member ⊢
    rcases member with used | rfl | ⟨kept, _⟩
    · exact .inl used
    · exact .inr held
    · exact .inr kept
  have grown : ∀ use ∈ world.uses, use ∈ world.uses ++ [TokenUse.mk token notifier puback] :=
    fun use member => List.mem_append_left _ member
  obtain ⟨queued, latest, channel, slots⟩ := ordered.underWay
  constructor
  · exact ordered.epoch
  · exact fun other member => ordered.issued other (subset other member)
  · exact ordered.distinct_use token held
  · intro use member
    rcases List.mem_append.mp member with earlier | single
    · exact ordered.named use earlier
    · rw [List.mem_singleton.mp single]
      exact named
  · exact ordered.replay
  · refine ⟨queued ++ [⟨token, notifier, puback⟩], ?_, ?_, fun connected => ?_⟩
    · obtain ⟨before, split⟩ := latest
      exact ⟨before, by rw [← List.append_assoc, split]⟩
    · simp only [channel, List.map_append]
      rfl
    · obtain ⟨slots, done, slotted, split, answered⟩ := slots connected
      refine ⟨slots, done, ⟨slotted.entries, ?_, ?_⟩, split, answered.mono rfl grown⟩
      · intro slot member request state
        obtain ⟨use, used, same⟩ := slotted.ready slot member request state
        exact ⟨use, grown use used, same⟩
      · intro other member
        apply slotted.outstanding other
        simp only [List.map_append, List.map_cons, List.map_nil, List.append_assoc, List.mem_append,
          List.mem_singleton, List.mem_filter] at member ⊢
        rcases member with waiting | rfl | ⟨kept, _⟩
        · exact .inl waiting
        · exact .inr held
        · exact .inr kept
  · exact ordered.idle
  · intro connection
    obtain ⟨done, before, answered⟩ := ordered.answered connection
    exact ⟨done, before, answered.mono rfl grown⟩
  · exact ordered.delivered
  · exact ordered.sent

theorem app (ordered : Ordered world) (event : AppEvent) : Ordered (world.app event) := by
  have used : ∀ serial reasonCode otherProperties,
      Ordered (world.useToken serial reasonCode otherProperties) := by
    intro serial reasonCode otherProperties
    unfold World.useToken
    split
    · exact ordered
    · rename_i token found
      have held := List.mem_of_find?_eq_some found
      have same : token.serial = serial := by simpa using List.find?_some found
      subst same
      exact ordered.use token held rfl rfl
  cases event with
  | acknowledge serial reasonCode otherProperties => exact used _ _ _
  | dropToken serial => exact used _ _ _
  | disconnect disconnect =>
    simp only [World.app, World.withChannels]
    split <;> exact ordered.congr rfl rfl rfl rfl rfl (fun _ => id) rfl rfl rfl (fun _ => rfl) ordered.sent
  | dropDisconnectHandle =>
    simp only [World.app, World.withChannels]
    split <;> exact ordered.congr rfl rfl rfl rfl rfl (fun _ => id) rfl rfl rfl (fun _ => rfl) ordered.sent
  | _ => exact ordered.congr rfl rfl rfl rfl rfl (fun _ => id) rfl rfl rfl (fun _ => rfl) ordered.sent

/-- A QoS 1 PUBLISH gets a slot and a token. -/
private theorem deliver {pkid : PacketIdentifier} (ordered : Ordered world)
    (live : world.session.isConnected = true)
    (absent : pkid ∉ world.session.inApplication.keys) :
    Ordered { world with
      session := { world.session with
        inApplication := world.session.inApplication.insert pkid .notReady }
      deliveries := world.deliveries ++ [⟨world.connections, pkid⟩]
      tokens := world.tokens ++
        [⟨world.deliveries.length, pkid, world.session.connectionEpoch⟩] } := by
  generalize result : ({ world with
    session := { world.session with
      inApplication := world.session.inApplication.insert pkid .notReady }
    deliveries := world.deliveries ++ [⟨world.connections, pkid⟩]
    tokens := world.tokens ++
      [⟨world.deliveries.length, pkid, world.session.connectionEpoch⟩] } : World) = next
  have deliveries : next.deliveries = world.deliveries ++ [⟨world.connections, pkid⟩] := by
    rw [← result]
  have arrivals := World.arrivalsOn_snoc deliveries
  have longer : ∀ connection, world.arrivalsOn connection <+: next.arrivalsOn connection :=
    fun connection => arrivals connection ▸ List.prefix_append _ _
  have known : ∀ token ∈ world.uses.map TokenUse.token ++ world.tokens,
      token.serial < world.deliveries.length := by
    intro token member
    obtain ⟨bound, _⟩ := List.getElem?_eq_some_iff.mp (ordered.issued token member)
    exact bound
  obtain ⟨queued, latest, channel, slots⟩ := ordered.underWay
  subst result
  constructor
  · exact ordered.epoch
  · intro token member
    simp only [← List.append_assoc] at member
    rcases List.mem_append.mp member with old | new
    · rw [List.getElem?_append_left (known token old)]
      exact ordered.issued token old
    · rw [List.mem_singleton.mp new]
      simp [ordered.epoch]
  · simp only [← List.append_assoc]
    rw [List.map_append, List.nodup_append]
    refine ⟨ordered.distinct, by simp, ?_⟩
    intro serial old other single same
    obtain ⟨token, member, rfl⟩ := List.mem_map.mp old
    simp only [List.map_cons, List.map_nil, List.mem_singleton] at single
    have bound := known token member
    omega
  · exact ordered.named
  · exact ordered.replay
  · refine ⟨queued, latest, channel, fun connected => ?_⟩
    obtain ⟨slots, done, slotted, split, answered⟩ := slots connected
    refine ⟨slots ++ [⟨world.deliveries.length, pkid, .notReady⟩], done, ⟨?_, ?_, ?_⟩, ?_,
      answered.mono rfl (fun _ => id)⟩
    · rw [IndexMap.entries_insert_fresh absent, slotted.entries]
      simp
    · intro slot member request state
      rcases List.mem_append.mp member with old | new
      · exact slotted.ready slot old request state
      · rw [List.mem_singleton.mp new] at state
        cases state
    · intro token member same
      simp only [← List.append_assoc] at member
      rcases List.mem_append.mp member with old | new
      · exact List.mem_append_left _ (slotted.outstanding token old same)
      · rw [List.mem_singleton.mp new]
        exact List.mem_append_right _ (List.mem_singleton_self _)
    · rw [arrivals]
      simp only [World.connections] at split ⊢
      simp [split, Slot.arrival]
  · intro dead
    simp only [Session.isConnected] at live dead
    simp [live] at dead
  · intro connection
    obtain ⟨done, before, answered⟩ := ordered.answered connection
    exact ⟨done, before.trans (longer connection), answered.mono rfl (fun _ => id)⟩
  · intro delivery member
    rcases List.mem_append.mp member with old | new
    · exact ordered.delivered delivery old
    · rw [List.mem_singleton.mp new]
      exact Nat.le_refl _
  · exact ordered.sent

theorem publish {publish : Publish} (ordered : Ordered world)
    (live : world.session.isConnected = true)
    (delivered : world.incomingPublish publish = .ok next) : Ordered next := by
  cases World.incomingPublish_cases delivered with
  | qos0 _ => exact ordered
  | handed pkid dup _ absent => exact ordered.deliver live absent
  | dropped pkid dup _ absent =>
    -- The token is handed out and dropped at once.
    have handed := ordered.deliver live absent
    refine handed.use ⟨world.deliveries.length, pkid, world.session.connectionEpoch⟩
      (by simp) rfl ?_
    rw [List.filter_append, List.filter_eq_self.mpr, List.filter_eq_nil_iff.mpr (by simp),
      List.append_nil]
    intro token member
    obtain ⟨bound, _⟩ := List.getElem?_eq_some_iff.mp
      (ordered.issued token (List.mem_append_right _ member))
    simpa using Nat.ne_of_lt bound

/-- Nothing has arrived on a connection that is yet to be made. -/
private theorem arrivalsOn_next (ordered : Ordered world) :
    world.arrivalsOn (world.connections + 1) = [] := by
  simp only [World.arrivalsOn, List.map_eq_nil_iff, List.filter_eq_nil_iff, beq_iff_eq]
  rintro ⟨delivery, index⟩ member same
  have earlier := ordered.delivered delivery (List.fst_mem_of_mem_zipIdx member)
  simp only at same
  omega

private theorem pubAcksOn_next (ordered : Ordered world) :
    world.pubAcksOn (world.connections + 1) = [] := by
  have unsent : world.emissions.filter
      (fun emission => emission.connection == world.connections + 1) = [] := by
    rw [List.filter_eq_nil_iff]
    intro emission member same
    have earlier := ordered.sent emission member
    have number := beq_iff_eq.mp same
    omega
  rw [World.pubAcksOn, unsent]
  rfl

/-- A new connection has no deliveries, and no token of an earlier one is current. -/
theorem established {connack : ConnAck} {keepAlive : KeepAlive} {authMethod : Option Bytes}
    {interval : SessionExpiryInterval} {sessionPresent : Bool} (ordered : Ordered world)
    (dead : world.session.isConnected = false) (few : world.connections + 1 < 2 ^ 64) :
    Ordered (world.established connack keepAlive authMethod interval sessionPresent) := by
  generalize result :
    world.established connack keepAlive authMethod interval sessionPresent = next
  have links : next.connections = world.connections + 1 := by
    simp [← result, World.established, World.connections]
  have session : next.session.connectionEpoch = world.session.connectionEpoch + 1 ∧
      next.session.inApplication = .empty ∧ next.session.ch.ackRx = world.session.ch.ackRx ∧
      ∀ packet ∈ next.session.inflight.packetsToReplay,
        packet ∈ world.session.inflight.packetsToReplay := by
    have empty := ordered.idle dead
    subst result
    cases sessionPresent with
    | true => exact ⟨rfl, empty, rfl, fun _ => id⟩
    | false => exact ⟨rfl, empty, rfl, fun _ member => by cases member⟩
  have history : next.tokens = world.tokens ∧ next.uses = world.uses ∧
      next.deliveries = world.deliveries ∧ next.emissions = world.emissions := by
    subst result
    exact ⟨rfl, rfl, rfl, rfl⟩
  have live : next.session.isConnected = true := by
    subst result
    rfl
  clear result
  obtain ⟨epoch, empty, queue, replay⟩ := session
  obtain ⟨tokens, uses, deliveries, emissions⟩ := history
  have number : next.session.connectionEpoch.toNat = next.connections := by
    rw [epoch, links, UInt64.toNat_add, ordered.epoch]
    exact Nat.mod_eq_of_lt few
  have acks : ∀ connection, next.pubAcksOn connection = world.pubAcksOn connection :=
    fun connection => by simp only [World.pubAcksOn, emissions]
  have arrivals : ∀ connection, next.arrivalsOn connection = world.arrivalsOn connection :=
    fun connection => by simp only [World.arrivalsOn, deliveries]
  have sameUses : ∀ use ∈ world.uses, use ∈ next.uses := fun use member => uses ▸ member
  have noArrivals : next.arrivalsOn next.connections = [] := by
    rw [arrivals, links]
    exact ordered.arrivalsOn_next
  have noAcks : next.pubAcksOn next.connections = [] := by
    rw [acks, links]
    exact ordered.pubAcksOn_next
  obtain ⟨queued, latest, channel, _⟩ := ordered.underWay
  refine ⟨number, ?_, ?_, ?_, ?_, ?_, ?_, ?_, ?_, ?_⟩
  · rw [uses, tokens, deliveries]
    exact ordered.issued
  · rw [uses, tokens]
    exact ordered.distinct
  · rw [uses]
    exact ordered.named
  · exact fun packet member => ordered.replay packet (replay packet member)
  · refine ⟨queued, uses ▸ latest, queue.trans channel, fun _ => ⟨[], [], ⟨?_, by simp, ?_⟩, ?_, ?_⟩⟩
    · rw [empty]
      rfl
    · intro token member same
      have held : token ∈ world.uses.map TokenUse.token ++ world.tokens := by
        rw [tokens] at member
        rcases List.mem_append.mp member with waiting | kept
        · obtain ⟨use, inQueue, rfl⟩ := List.mem_map.mp waiting
          exact List.mem_append_left _ (List.mem_map_of_mem (latest.subset inQueue))
        · exact List.mem_append_right _ kept
      have earlier := ordered.delivered _ (List.mem_of_getElem? (ordered.issued token held))
      simp only [same, number] at earlier
      omega
    · rw [noArrivals]
      rfl
    · rw [Answered, noAcks]
      exact .nil
  · simp [live]
  · intro connection
    obtain ⟨done, before, answered⟩ := ordered.answered connection
    exact ⟨done, arrivals connection ▸ before, answered.mono (acks _) sameUses⟩
  · intro delivery member
    rw [links]
    exact Nat.le_succ_of_le (ordered.delivered delivery (deliveries ▸ member))
  · intro emission member
    rw [links]
    exact Nat.le_succ_of_le (ordered.sent emission (emissions ▸ member))

/-- The PUBACK a request asks for. -/
private def puback? : OutgoingPacketRequest → Option PubAck
  | .acknowledgementRequest (.pubAck _ puback _) => some puback
  | _ => none

private theorem issue_order {taken final : Session} {now : Nat} {request : OutgoingPacketRequest}
    {packet : Packet} {fired : List Firing}
    (issued : taken.issue now request = .ok (packet, final, fired)) :
    Packet.pubAck? packet = puback? request ∧ final.inApplication = taken.inApplication ∧
      final.ch = taken.ch ∧ final.connectionEpoch = taken.connectionEpoch ∧
      final.connected = taken.connected ∧
      final.inflight.packetsToReplay = taken.inflight.packetsToReplay := by
  cases request with
  | disconnectRequest disconnect =>
    cases issued
    exact ⟨rfl, rfl, rfl, rfl, rfl, rfl⟩
  | acknowledgementRequest request =>
    cases request <;> cases issued <;> exact ⟨rfl, rfl, rfl, rfl, rfl, rfl⟩
  | subscriptionRequest request pkid =>
    cases request <;> cases issued <;> exact ⟨rfl, rfl, rfl, rfl, rfl, rfl⟩
  | publishRequest request =>
    cases request <;> cases issued <;> exact ⟨rfl, rfl, rfl, rfl, rfl, rfl⟩
  | reauthRequest request =>
    simp only [Session.issue] at issued
    split at issued
    · cases issued
      exact ⟨rfl, rfl, rfl, rfl, rfl, rfl⟩
    · cases issued
  | pingReq notifier =>
    cases issued
    exact ⟨rfl, rfl, rfl, rfl, rfl, rfl⟩

private theorem sent_afterPoll (ordered : Ordered world) (polls : List Readiness)
    (outgoing : Option Outgoing) (session : Session) (fired : List Firing) :
    SentBefore (world.afterPoll polls outgoing session fired) := by
  intro emission member
  rcases List.mem_append.mp member with old | new
  · exact ordered.sent emission old
  · obtain ⟨sent, _, rfl⟩ := List.mem_map.mp new
    exact Nat.le_refl _

/-- A poll that hands out a PUBACK hands out that of the oldest slot. -/
private theorem progress {queued : List TokenUse} {slots : List Slot}
    {done : List (Nat × PacketIdentifier)} {request : Option OutgoingPacketRequest}
    {after session : Session} {polls : List Readiness} {outgoing : Option Outgoing}
    {fired : List Firing} (ordered : Ordered world) (latest : queued <:+ world.uses)
    (split : world.arrivalsOn world.connections = done ++ slots.map Slot.arrival)
    (answered : Answered world world.connections done)
    (sequenced : Session.Sequenced world.uses queued world.tokens slots request after)
    (pending : session.inApplication = after.inApplication)
    (queue : session.ch.ackRx = after.ch.ackRx)
    (epochAfter : after.connectionEpoch = world.session.connectionEpoch)
    (epoch : session.connectionEpoch = after.connectionEpoch)
    (connected : session.isConnected = true)
    (replay : ∀ packet ∈ session.inflight.packetsToReplay,
      packet ∈ world.session.inflight.packetsToReplay)
    (packet : (outgoing.bind fun sent => Packet.pubAck? sent.packet) = request.bind puback?) :
    Ordered (world.afterPoll polls outgoing session fired) := by
  obtain ⟨queued', slots', suffix, channel, slotted, outcome⟩ := sequenced
  have acks := world.pubAcksOn_afterPoll polls outgoing session fired
  rw [packet] at acks
  have dead : session.isConnected = false → session.inApplication = .empty := by simp [connected]
  have finish : ∀ done', world.arrivalsOn world.connections = done' ++ slots'.map Slot.arrival →
      Answered (world.afterPoll polls outgoing session fired) world.connections done' →
      Ordered (world.afterPoll polls outgoing session fired) := by
    intro done' split' answered'
    refine ⟨?_, ordered.issued, ordered.distinct, ordered.named,
      fun packet member => ordered.replay packet (replay packet member),
      ⟨queued', suffix.trans latest, queue.trans channel, fun _ =>
        ⟨slots', done', slotted.congr pending epoch, split', answered'⟩⟩, dead, ?_,
      ordered.delivered, ordered.sent_afterPoll polls outgoing session fired⟩
    · exact (congrArg UInt64.toNat (epoch.trans epochAfter)).trans ordered.epoch
    · intro connection
      by_cases same : world.connections = connection
      · subst same
        exact ⟨done', ⟨_, split'.symm⟩, answered'⟩
      · obtain ⟨before, prefixed, earlier⟩ := ordered.answered connection
        refine ⟨before, prefixed, earlier.mono ?_ (fun _ => id)⟩
        rw [acks]
        simp [same]
  rcases outcome with ⟨use, used, pkid, rfl, arrivals⟩ | ⟨noAck, arrivals⟩
  · refine finish (done ++ [(use.token.serial, pkid)]) ?_ ?_
    · rw [split, arrivals]
      simp
    · have arrived : (use.token.serial, pkid) ∈ world.arrivalsOn world.connections := by
        rw [split, arrivals]
        simp
      have located := World.mem_arrivalsOn.mp arrived
      have token := ordered.issued use.token (List.mem_append_left _ (List.mem_map_of_mem used))
      rw [located] at token
      have identifier : pkid = use.token.pkid := congrArg Delivery.pkid (Option.some.inj token)
      unfold Answered
      rw [acks]
      simp only [Option.bind_some, puback?, TokenUse.request, if_true, Option.toList_some]
      refine List.rel_append answered (.cons ⟨?_, use, used, rfl, rfl⟩ .nil)
      exact (ordered.named use used).trans identifier.symm
  · refine finish done ?_ ?_
    · rw [split, arrivals]
    · refine answered.mono ?_ (fun _ => id)
      rw [acks]
      have silent : request.bind puback? = none := by
        cases request with
        | none => rfl
        | some request =>
          cases request with
          | acknowledgementRequest ack => exact absurd rfl (noAck ack)
          | _ => rfl
      simp [silent]

/-- The request loop succeeds, and its outcome is in order. -/
theorem sequenced (ordered : Ordered world) (live : world.session.isConnected = true)
    (polls : List Readiness) :
    ∃ queued slots done request after, queued <:+ world.uses ∧
      world.arrivalsOn world.connections = done ++ slots.map Slot.arrival ∧
      Answered world world.connections done ∧
      Session.nextOutgoingRequest world.now polls world.session = .ok (request, after) ∧
      after.connectionEpoch = world.session.connectionEpoch ∧
      Session.Sequenced world.uses queued world.tokens slots request after := by
  obtain ⟨queued, latest, channel, pending⟩ := ordered.underWay
  obtain ⟨slots, done, slotted, split, answered⟩ := pending live
  have distinct : ((queued.map TokenUse.token ++ world.tokens).map PubAckToken.serial).Nodup := by
    refine ordered.distinct.sublist (List.Sublist.map _ ?_)
    exact (latest.sublist.map _).append (List.Sublist.refl _)
  obtain ⟨request, after, ran, epoch, outcome⟩ := Session.nextOutgoingRequest_sequenced world.now
    polls slotted channel (fun use member => latest.subset member) ordered.named distinct
  exact ⟨queued, slots, done, request, after, latest, split, answered, ran, epoch, outcome⟩

theorem poll {polls : List Readiness} {outgoing : Option Outgoing} {session : Session}
    {fired : List Firing} (ordered : Ordered world) (live : world.session.isConnected = true)
    (polled : world.session.nextOutgoingPacket world.now polls = .ok (outgoing, session, fired)) :
    Ordered (world.afterPoll polls outgoing session fired) := by
  obtain ⟨queued, slots, done, request, after, latest, split, answered, ran, epoch, outcome⟩ :=
    ordered.sequenced live polls
  have connected : session.isConnected = true :=
    (congrArg Option.isSome (Session.nextOutgoingPacket_effect polled).kept.1).trans live
  simp only [Session.nextOutgoingPacket, live, if_true, ran] at polled
  cases list : world.session.inflight.packetsToReplay with
  | cons packet rest =>
    simp only [list, Except.ok.injEq, Prod.mk.injEq] at polled
    obtain ⟨rfl, rfl, rfl⟩ := polled
    have plain := ordered.replay packet (by simp [list])
    refine ordered.congr rfl rfl rfl rfl rfl ?_ rfl rfl rfl ?_
      (ordered.sent_afterPoll polls _ _ _)
    · intro other member
      rw [list]
      exact List.mem_cons_of_mem _ member
    · intro connection
      rw [World.pubAcksOn_afterPoll]
      have silent : Packet.pubAck? (Packet.setDup packet) = none := by
        cases packet with
        | pubAck puback => exact absurd rfl (plain puback)
        | publish publish => rfl
        | _ => rfl
      simp [silent]
  | nil =>
    obtain ⟨middle, frame, taken⟩ := Session.nextOutgoingRequest_cases ran
    have replay : after.inflight.packetsToReplay = world.session.inflight.packetsToReplay := by
      have same := frame.op.packetsToReplay
      rcases taken with ⟨_, rfl⟩ | ⟨request, _, requested⟩
      · exact same
      · cases requested with
        | disconnect _ _ frame' => exact frame'.op.packetsToReplay.trans same
        | ack _ _ frame' _ => exact frame'.op.packetsToReplay.trans same
        | _ => exact same
    simp only [list] at polled
    cases request with
    | none =>
      simp only [Except.ok.injEq, Prod.mk.injEq] at polled
      obtain ⟨rfl, rfl, rfl⟩ := polled
      exact ordered.progress latest split answered outcome rfl rfl epoch rfl connected
        (fun packet member => replay ▸ member) rfl
    | some request =>
      simp only at polled
      cases issued : after.issue world.now request with
      | error panic => simp [issued] at polled
      | ok result =>
        obtain ⟨packet, final, effects⟩ := result
        simp only [issued, Except.ok.injEq, Prod.mk.injEq] at polled
        obtain ⟨rfl, rfl, rfl⟩ := polled
        obtain ⟨named, pending, channels, sameEpoch, _, same⟩ := issue_order issued
        exact ordered.progress latest split answered outcome pending
          (congrArg Channels.ackRx channels) epoch sameEpoch connected
          (fun packet member => replay ▸ same ▸ member) named

/-- Every answer of the application finds its slot. -/
theorem unforged (ordered : Ordered world) (live : world.session.isConnected = true)
    (polls : List Readiness) :
    world.session.nextOutgoingPacket world.now polls ≠ .error .forgedAcknowledgement := by
  intro failed
  obtain ⟨_, _, _, request, after, _, _, _, ran, _⟩ := ordered.sequenced live polls
  simp only [Session.nextOutgoingPacket, live, if_true, ran] at failed
  cases list : world.session.inflight.packetsToReplay with
  | cons packet rest => simp [list] at failed
  | nil =>
    simp only [list] at failed
    cases request with
    | none => cases failed
    | some request =>
      simp only at failed
      cases issued : after.issue world.now request with
      | ok result => simp [issued] at failed
      | error panic =>
        simp only [issued, Except.error.injEq] at failed
        subst failed
        cases request with
        | reauthRequest request =>
          simp only [Session.issue] at issued
          split at issued <;> cases issued
        | _ => cases issued

theorem step {event : Event} (ordered : Ordered world) (few : next.connections < 2 ^ 64)
    (stepped : world.step event = .ok next) : Ordered next := by
  cases World.step_cases stepped with
  | app event => exact ordered.app event
  | elapse duration =>
    exact ordered.congr rfl rfl rfl rfl rfl (fun _ => id) rfl rfl rfl (fun _ => rfl) ordered.sent
  | refused => exact ordered
  | established connack keepAlive authMethod interval sessionPresent idle code =>
    refine ordered.established idle ?_
    simpa [World.established, World.connections] using few
  | polled polls outgoing session fired live polled => exact ordered.poll live polled
  | acked ack handled live completed =>
    have final := (Session.completeInflight_spec completed).1
    refine ordered.congr rfl ?_ ?_ ?_ ?_ ?_ rfl rfl rfl (fun _ => rfl) ordered.sent <;>
      simp only [World.record, final]
    · rfl
    · cases ack <;> exact fun _ => id
  | delivered publish next live delivered => exact ordered.publish live delivered
  | authenticated auth live =>
    obtain ⟨exchange, same⟩ := (world.session.incomingAuth_frame auth).1
    rw [same]
    exact ordered.congr rfl rfl rfl rfl rfl (fun _ => id) rfl rfl rfl (fun _ => rfl) ordered.sent
  | ponged live =>
    obtain ⟨rest, same⟩ := (world.session.incomingPingresp_frame world.now).1
    rw [same]
    exact ordered.congr rfl rfl rfl rfl rfl (fun _ => id) rfl rfl rfl (fun _ => rfl) ordered.sent
  | disconnected disconnection live =>
    have dead := world.disconnected_isConnected disconnection
    rw [world.disconnected_eq] at dead ⊢
    generalize disconnection.expiryInterval world.session = interval at dead ⊢
    have fields : (world.session.ended interval).1.connectionEpoch =
          world.session.connectionEpoch ∧
        (world.session.ended interval).1.inApplication = .empty ∧
        (world.session.ended interval).1.ch.ackRx = world.session.ch.ackRx ∧
        ∀ packet ∈ (world.session.ended interval).1.inflight.packetsToReplay, ∀ puback,
          packet ≠ .pubAck puback := by
      simp only [Session.ended, Session.expireIfZero]
      split
      · exact ⟨rfl, rfl, rfl, by simp [Session.sessionExpired]⟩
      · refine ⟨rfl, rfl, rfl, ?_⟩
        rintro packet member puback rfl
        simp [Session.disconnected, Session.replayList] at member
    obtain ⟨epoch, pending, queue, replay⟩ := fields
    obtain ⟨queued, latest, channel, _⟩ := ordered.underWay
    refine ⟨?_, ordered.issued, ordered.distinct, ordered.named, replay,
      ⟨queued, latest, queue.trans channel, ?_⟩, fun _ => pending, ?_, ordered.delivered,
      ordered.sent⟩
    · exact (congrArg UInt64.toNat epoch).trans ordered.epoch
    · simp [dead]
    · intro connection
      obtain ⟨done, before, answered⟩ := ordered.answered connection
      exact ⟨done, before, answered.mono rfl (fun _ => id)⟩

end Ordered

theorem ordered_run {maxPkid : PacketIdentifier} {events : List Event} {final : World}
    (ran : World.run (.new maxPkid) events = .ok final) (few : final.connections < 2 ^ 64) :
    Ordered final := by
  refine Transition.exec_always (fun world => world.connections < 2 ^ 64 → Ordered world)
    (fun _ => .new maxPkid) ?_ ran few
  intro world event next ordered stepped few
  have grown : world.connections ≤ next.connections := World.step_connections stepped
  exact (ordered (Nat.lt_of_le_of_lt grown few)).step few stepped

end MqttClient.Client
