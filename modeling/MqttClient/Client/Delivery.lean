import MqttClient.Lib.Courier
import MqttClient.Client.Replay

/-! The client, the network and a server that answers what it received: packets travel in
order, and a connection that ends loses what has not arrived. -/

namespace MqttClient.Client

open MqttClient.Proto

/-- The kind and the identifier of the operation a packet belongs to. -/
def Packet.operation? : Packet → Option (OpKind × PacketIdentifier)
  | .subscribe packet => some (.subscribe, packet.packetIdentifier)
  | .unsubscribe packet => some (.unsubscribe, packet.packetIdentifier)
  | .publish packet =>
    match packet.packetIdentifierDupQoS with
    | .atMostOnce => none
    | .atLeastOnce identifier _ => some (.publishQoS1, identifier)
    | .exactlyOnce identifier _ => some (.publishQoS2, identifier)
  | _ => none

/-- A packet of an operation, with the notifier that waits for its completion. -/
structure Sending where
  kind : OpKind
  pkid : PacketIdentifier
  notifier : Notifier
  packet : Packet
  deriving DecidableEq

/-- The operation in flight that a packet belongs to. -/
def Session.sendings (session : Session) (packet : Packet) : List Sending :=
  match Packet.operation? packet with
  | some (kind, pkid) =>
    ((session.inflight.stored kind).filter (fun entry => entry.1 == pkid)).map
      fun entry => ⟨kind, pkid, entry.2, packet⟩
  | none => []

/-- A packet the server received on the connection with this number. -/
structure Receipt where
  connection : Nat
  sending : Sending
  deriving DecidableEq

/-- An acknowledgement on its way to the client, with what it answers. -/
structure Reply where
  ack : Acknowledgement
  sending : Sending
  deriving DecidableEq

def Acknowledgement.answers (ack : Acknowledgement) (sending : Sending) : Bool :=
  ack.kind == sending.kind && ack.packetIdentifier == sending.pkid

/-- Operations on their way, oldest first. The server owes an answer for each operation it
received on the current connection. -/
structure System where
  world : World
  toServer : List Sending := []
  owed : List Sending := []
  toClient : List Reply := []
  received : List Receipt := []

inductive SystemEvent where
  /-- Anything the client does but handling an acknowledgement. -/
  | client (event : Event)
  | receive
  | answer (ack : Acknowledgement)
  /-- The client handles the oldest acknowledgement. -/
  | take

def Event.isAck : Event → Bool
  | .incoming (.ack _) => true
  | _ => false

namespace System

def new (maxPkid : PacketIdentifier) : System where
  world := .new maxPkid

/-- What the client sends enters the network. A new connection starts with an empty
network, and a lost one leaves its packets behind. -/
def advance (system : System) (next : World) : System :=
  if next.connections = system.world.connections then
    { system with
      world := next
      toServer := system.toServer ++
        (next.emissions.drop system.world.emissions.length).flatMap fun emission =>
          next.session.sendings emission.outgoing.packet }
  else { world := next, received := system.received }

def step (system : System) : SystemEvent → Except Stop System
  | .client event =>
    if event.isAck then .error .disabled else (system.world.step event).map system.advance
  | .receive =>
    match system.toServer with
    | [] => .error .disabled
    | sending :: rest => .ok { system with
        toServer := rest
        owed := system.owed ++ [sending]
        received := system.received ++ [⟨system.world.connections, sending⟩] }
  | .answer ack =>
    match system.owed.find? ack.answers with
    | none => .error .disabled
    | some sending => .ok { system with
        owed := system.owed.erase sending
        toClient := system.toClient ++ [⟨ack, sending⟩] }
  | .take =>
    match system.toClient with
    | [] => .error .disabled
    | answer :: rest => (system.world.step (.incoming (.ack answer.ack))).map fun next =>
      { system with world := next, toClient := rest }

abbrev run (start : System) (events : List SystemEvent) : Except Stop System :=
  Transition.exec step start events

end System

/-! ### Operations of one kind -/

/-- The publishes in flight that wait to be sent again. -/
def InflightTracker.replaying (inflight : InflightTracker) :
    List (PacketIdentifier × Publish × Notifier) :=
  inflight.publishQoS1.entries.drop
    (inflight.publishQoS1.entries.length - inflight.packetsToReplay.length)

def InflightTracker.waiting (inflight : InflightTracker) (kind : OpKind) : List Notifier :=
  if kind = .publishQoS1 then inflight.replaying.map fun entry => entry.2.2 else []

def Firing.isCancel : Firing → Bool
  | .publishQoS0 _ (.cancel _) => true
  | .publishQoS1 _ (.cancel _) => true
  | .publishQoS2 _ (.cancel _) => true
  | .subscribe _ (.cancel _) => true
  | .unsubscribe _ (.cancel _) => true
  | .pubAck _ (.cancel _) => true
  | .pubRecAccept _ (.cancel _) => true
  | .pubRecReject _ (.cancel _) => true
  | .pubRel _ (.cancel _) => true
  | .pubComp _ (.cancel _) => true
  | .reauth _ (.cancel _) => true
  | .ping _ (.cancel _) => true
  | _ => false

namespace World

/-- The notifiers of a kind that completed with an acknowledgement. -/
def completed (world : World) (kind : OpKind) : List Notifier :=
  ((world.settled kind).filter (fun record => !record.2.firing.isCancel)).map Prod.fst

def cancelled (world : World) (kind : OpKind) : List Notifier :=
  ((world.settled kind).filter (fun record => record.2.firing.isCancel)).map Prod.fst

end World

/-- The notifiers of the operations of one kind. -/
def Sending.notifiers (kind : OpKind) (sendings : List Sending) : List Notifier :=
  (sendings.filter (fun sending => sending.kind == kind)).map Sending.notifier

namespace System

/-- The operations of one kind as parcels, named by their notifiers. -/
def courier (system : System) (kind : OpKind) : Courier where
  fresh := system.world.fresh
  queued := system.world.session.ch.queued kind
  held := (system.world.session.inflight.stored kind).map Prod.snd
  waiting := system.world.session.inflight.waiting kind
  transit := Sending.notifiers kind system.toServer
  owed := Sending.notifiers kind system.owed
  answers := Sending.notifiers kind (system.toClient.map Reply.sending)
  connection := system.world.connections
  live := system.world.session.isConnected
  opened := (system.world.operations.filter (fun operation => operation.kind == kind)).map
    fun operation => (operation.connection, operation.notifier)
  received := (system.received.filter (fun receipt => receipt.sending.kind == kind)).map
    fun receipt => (receipt.connection, receipt.sending.notifier)
  completed := system.world.completed kind
  cancelled := system.world.cancelled kind

end System

/-! ### Steps that send, complete and cancel nothing -/

/-- The worlds agree on operations in flight and on the connection. -/
structure Calm (world next : World) : Prop where
  emissions : next.emissions = world.emissions
  settled : ∀ kind, next.settled kind = world.settled kind
  stored : ∀ kind, next.session.inflight.stored kind = world.session.inflight.stored kind
  publishQoS1 : next.session.inflight.publishQoS1 = world.session.inflight.publishQoS1
  packetsToReplay : next.session.inflight.packetsToReplay =
    world.session.inflight.packetsToReplay
  same : World.SameConnection world next

theorem Calm.refl (world : World) : Calm world world :=
  ⟨rfl, fun _ => rfl, fun _ => rfl, rfl, rfl, .refl world⟩

theorem World.settled_silent (world : World) (event : Event) (session : Session)
    {fired : List Firing} (silent : ∀ firing ∈ fired, firing.kind? = none) (kind : OpKind) :
    (world.record event session fired).settled kind = world.settled kind := by
  have none : fired.filter (fun firing => decide (firing.kind? = some kind)) = [] := by
    rw [List.filter_eq_nil_iff]
    intro firing member
    simp [silent firing member]
  rw [world.settled_record, none]
  simp

/-- The steps of the client that concern no operation. -/
theorem World.step_calm {world next : World} {event : Event}
    (stepped : world.step event = .ok next) (noPoll : ∀ polls, event ≠ .poll polls)
    (noOpen : ∀ connack keepAlive authMethod interval,
      event ≠ .connack connack keepAlive authMethod interval)
    (noEnd : ∀ disconnection, event ≠ .disconnected disconnection)
    (noAck : event.isAck = false) : Calm world next := by
  have same := World.step_sameConnection stepped noOpen noEnd
  have emissions := World.step_emissions stepped noPoll
  cases World.step_cases stepped with
  | app event =>
    obtain ⟨ch, session, _⟩ := world.app_session event
    refine ⟨emissions, World.settled_congr (world.app_history event).2.1, ?_, ?_, ?_, same⟩
    · rw [session]
      exact fun _ => rfl
    · rw [session]
    · rw [session]
  | elapse duration => exact ⟨rfl, fun _ => rfl, fun _ => rfl, rfl, rfl, same⟩
  | refused connack keepAlive authMethod interval => exact absurd rfl (noOpen _ _ _ _)
  | established connack keepAlive authMethod interval => exact absurd rfl (noOpen _ _ _ _)
  | polled polls => exact absurd rfl (noPoll polls)
  | acked ack => cases noAck
  | delivered publish next live delivered =>
    obtain ⟨ackRx, inApplication, session⟩ := World.incomingPublish_session delivered
    refine ⟨emissions, World.settled_congr (World.incomingPublish_history delivered).2.1,
      ?_, ?_, ?_, same⟩
    · rw [session]
      exact fun _ => rfl
    · rw [session]
    · rw [session]
  | authenticated auth live =>
    obtain ⟨⟨exchange, session⟩, silent⟩ := world.session.incomingAuth_frame auth
    refine ⟨emissions, world.settled_silent _ _ silent, ?_, ?_, ?_, same⟩
    · intro kind
      rw [World.record, session]
      cases kind <;> rfl
    · rw [World.record, session]
    · rw [World.record, session]
  | ponged live =>
    obtain ⟨⟨rest, session⟩, silent⟩ := world.session.incomingPingresp_frame world.now
    refine ⟨emissions, world.settled_silent _ _ silent, ?_, ?_, ?_, same⟩
    · intro kind
      rw [World.record, session]
      cases kind <;> rfl
    · rw [World.record, session]
    · rw [World.record, session]
  | disconnected disconnection => exact absurd rfl (noEnd disconnection)

theorem InflightTracker.waiting_congr {before after : InflightTracker}
    (publishQoS1 : after.publishQoS1 = before.publishQoS1)
    (packetsToReplay : after.packetsToReplay = before.packetsToReplay) (kind : OpKind) :
    after.waiting kind = before.waiting kind := by
  simp only [waiting, replaying, publishQoS1, packetsToReplay]

namespace System

variable {system next : System}

theorem courier_opened (system : System) (kind : OpKind) :
    (system.courier kind).opened =
      (system.world.opened kind).map fun entry => (entry.data.connection, entry.ticket) := by
  simp [courier, World.opened, Function.comp_def]

/-- A step of the client that sends nothing, on the same connection. -/
theorem advance_silent (system : System) (world : World)
    (connections : world.connections = system.world.connections)
    (emissions : world.emissions = system.world.emissions) :
    system.advance world = { system with world := world } := by
  simp [advance, connections, emissions]

/-- The couriers agree on the wires and the connection. -/
private theorem courier_world {world : World} {kind : OpKind}
    (waiting : world.session.inflight.waiting kind = system.world.session.inflight.waiting kind)
    (connections : world.connections = system.world.connections)
    (live : world.session.isConnected = system.world.session.isConnected)
    (opened : world.opened kind = system.world.opened kind)
    (settled : world.settled kind = system.world.settled kind) :
    ({ system with world := world } : System).courier kind =
      { system.courier kind with
        fresh := world.fresh
        queued := world.session.ch.queued kind
        held := (world.session.inflight.stored kind).map Prod.snd } := by
  have openedHere := courier_opened { system with world := world } kind
  have openedThere := courier_opened system kind
  simp only [opened] at openedHere
  rw [← openedThere] at openedHere
  simp only [courier] at openedHere ⊢
  simp only [waiting, connections, live, openedHere, World.completed, World.cancelled, settled]

theorem courier_calm {world : World} {kind : OpKind} (kindStep : KindStep kind system.world world)
    (calm : Calm system.world world) :
    Courier.Step (system.courier kind) ((system.advance world).courier kind) := by
  have waiting := InflightTracker.waiting_congr calm.publishQoS1 calm.packetsToReplay kind
  have opened := World.opened_congr calm.emissions kind
  rw [system.advance_silent world calm.same.connections calm.emissions,
    courier_world waiting calm.same.connections calm.same.isConnected opened (calm.settled kind),
    calm.stored]
  cases kindStep with
  | idle fresh queued =>
    rw [queued]
    exact .wait _ _ fresh
  | submit fresh queued =>
    rw [queued, fresh]
    exact .submit _
  | «open» operation ofKind current live emitted fresh queued stored grown =>
    rw [opened] at grown
    simp at grown
  | settle due record fresh queued =>
    rw [queued, fresh]
    exact .wait _ _ (Nat.le_refl _)

end System

/-! ### What a poll sends -/

theorem Packet.operation?_eq_none {packet : Packet}
    (plain : Packet.operationIdentifier packet = none) : Packet.operation? packet = none := by
  cases packet with
  | publish publish =>
    cases qos : publish.packetIdentifierDupQoS <;>
      simp [Packet.operationIdentifier, Packet.operation?, qos] at plain ⊢
  | _ => simp_all [Packet.operationIdentifier, Packet.operation?]

/-- A packet of an operation in flight belongs to this operation. -/
theorem Session.sendings_eq {session : Session} {packet : Packet} {kind : OpKind}
    {pkid : PacketIdentifier} {notifier : Notifier}
    (named : Packet.operation? packet = some (kind, pkid))
    (found : (session.inflight.stored kind).filter (fun entry => entry.1 == pkid) =
      [(pkid, notifier)]) :
    session.sendings packet = [⟨kind, pkid, notifier, packet⟩] := by
  simp [Session.sendings, named, found]

namespace InflightTracker

variable {inflight : InflightTracker}

theorem replaying_eq_nil (drained : inflight.packetsToReplay = []) : inflight.replaying = [] := by
  simp [replaying, drained]

theorem waiting_eq_nil (drained : inflight.packetsToReplay = []) (kind : OpKind) :
    inflight.waiting kind = [] := by
  simp [waiting, replaying_eq_nil drained]

theorem mem_of_mem_replaying {entry : PacketIdentifier × Publish × Notifier}
    (member : entry ∈ inflight.replaying) : entry ∈ inflight.publishQoS1.entries :=
  (List.drop_sublist _ _).subset member

/-- What waits to be sent again are the last publishes in flight. -/
theorem packetsToReplay_eq (suffix : inflight.packetsToReplay <:+ inflight.resends) :
    inflight.packetsToReplay =
      inflight.replaying.map fun entry => .publish (Publish.setDup entry.2.1) := by
  have dropped := List.suffix_iff_eq_drop.mp suffix
  rw [dropped]
  simp [resends, replaying, IndexMap.values, List.map_drop, Function.comp_def]

theorem replaying_cons {packet : Packet} {rest : List Packet}
    (suffix : inflight.packetsToReplay <:+ inflight.resends)
    (head : inflight.packetsToReplay = packet :: rest) :
    ∃ entry, packet = .publish (Publish.setDup entry.2.1) ∧
      inflight.replaying =
        entry :: ({ inflight with packetsToReplay := rest } : InflightTracker).replaying := by
  have whole := packetsToReplay_eq suffix
  rw [head] at whole
  cases split : inflight.replaying with
  | nil => simp [split] at whole
  | cons entry later =>
    rw [split, List.map_cons, List.cons.injEq] at whole
    refine ⟨entry, whole.1, ?_⟩
    have length : (entry :: later).length = rest.length + 1 := by
      simpa using (congrArg List.length whole.2).symm
    have bound : rest.length + 1 ≤ inflight.publishQoS1.entries.length := by
      rw [← length, ← split]
      exact (List.drop_sublist _ _).length_le
    have step : inflight.publishQoS1.entries.length - rest.length =
        inflight.publishQoS1.entries.length - (rest.length + 1) + 1 := by omega
    rw [replaying, head, List.length_cons] at split
    simp only [replaying, step]
    rw [← List.tail_drop, split, List.tail_cons]

end InflightTracker

theorem Session.OpFrame.queued {before after : Session} (frame : OpFrame before after)
    (kind : OpKind) : after.ch.queued kind = before.ch.queued kind := by
  cases kind <;> simp [Channels.queued, frame.subRx, frame.oPubQ12Rx]

/-- What a poll does to the operations of every kind, with what it sends of them. -/
inductive PollSends (world : World) (after : Session) : List Operation → List Sending → Prop where
  | quiet (queued : ∀ kind, after.ch.queued kind = world.session.ch.queued kind)
      (stored : ∀ kind, after.inflight.stored kind = world.session.inflight.stored kind)
      (waiting : ∀ kind, after.inflight.waiting kind = world.session.inflight.waiting kind) :
      PollSends world after [] []
  | resent (entry : PacketIdentifier × Publish × Notifier)
      (held : entry ∈ world.session.inflight.publishQoS1.entries)
      (queued : ∀ kind, after.ch.queued kind = world.session.ch.queued kind)
      (stored : ∀ kind, after.inflight.stored kind = world.session.inflight.stored kind)
      (head : world.session.inflight.replaying = entry :: after.inflight.replaying) :
      PollSends world after []
        [⟨.publishQoS1, entry.1, entry.2.2, .publish (Publish.setDup entry.2.1)⟩]
  | opened (operation : Operation) (current : operation.connection = world.connections)
      (queued : ∀ kind, world.session.ch.queued kind =
        (if kind = operation.kind then [operation.notifier] else []) ++ after.ch.queued kind)
      (stored : ∀ kind, after.inflight.stored kind = world.session.inflight.stored kind ++
        if kind = operation.kind then [(operation.pkid, operation.notifier)] else [])
      (drained : ∀ kind, world.session.inflight.waiting kind = [])
      (still : ∀ kind, after.inflight.waiting kind = []) :
      PollSends world after [operation]
        [⟨operation.kind, operation.pkid, operation.notifier, operation.packet⟩]

namespace PollSends

variable {world : World} {after : Session}

/-- A poll that opens an operation sends its packet. -/
private theorem ofOpened {sent : Outgoing} {fired : List Firing} {kind : OpKind}
    {pkid : PacketIdentifier} {notifier : Notifier} (disciplined : Disciplined world.session)
    (effect : Session.PollEffect world.session (some sent) after fired)
    (opens : sent.opens = some (kind, pkid, notifier)) (answered : sent.request ≠ none)
    (named : Packet.operation? sent.packet = some (kind, pkid))
    (identified : Packet.operationIdentifier sent.packet = some pkid)
    (queued : ∀ other, world.session.ch.queued other =
      (if other = kind then [notifier] else []) ++ after.ch.queued other)
    (drained : world.session.inflight.packetsToReplay = [])
    (still : after.inflight.packetsToReplay = world.session.inflight.packetsToReplay) :
    PollSends world after [⟨kind, pkid, notifier, world.connections, sent.packet⟩]
      (after.sendings sent.packet) := by
  rcases disciplined.poll_stored effect with ⟨_, _, plain⟩ |
    ⟨_, _, _, _, ⟨⟩, renamed, _, leased, stored⟩
  · simp [plain sent rfl answered] at identified
  · rw [opens] at renamed
    cases renamed
    have unheld : ∀ entry ∈ world.session.inflight.stored kind, ¬ (entry.1 == pkid) = true := by
      intro entry member same
      apply disciplined.unheld leased kind
      rw [InflightTracker.keys_eq_map_stored]
      exact List.mem_map.mpr ⟨entry, member, beq_iff_eq.mp same⟩
    have found : (after.inflight.stored kind).filter (fun entry => entry.1 == pkid) =
        [(pkid, notifier)] := by
      rw [stored, if_pos rfl, List.filter_append, List.filter_eq_nil_iff.mpr unheld]
      simp
    rw [Session.sendings_eq named found]
    exact .opened ⟨kind, pkid, notifier, world.connections, sent.packet⟩ rfl queued stored
      (InflightTracker.waiting_eq_nil drained)
      (InflightTracker.waiting_eq_nil (still.trans drained))

private theorem ofQuiet {outgoing : Option Outgoing}
    (frame : Session.OpFrame world.session after)
    (plain : ∀ sent ∈ outgoing, sent.request ≠ none ∧ sent.opens = none ∧
      Packet.operationIdentifier sent.packet = none) :
    PollSends world after
      (outgoing.toList.filterMap fun sent => (Emission.mk world.connections sent).operation?)
      (outgoing.toList.flatMap fun sent => after.sendings sent.packet) := by
  have nothing : outgoing.toList.filterMap
      (fun sent => (Emission.mk world.connections sent).operation?) = [] := by
    cases outgoing with
    | none => rfl
    | some sent => simp [Emission.operation?, (plain sent rfl).2.1]
  have unsent : (outgoing.toList.flatMap fun sent => after.sendings sent.packet) = [] := by
    cases outgoing with
    | none => rfl
    | some sent =>
      simp [Session.sendings, Packet.operation?_eq_none (plain sent rfl).2.2]
  rw [nothing, unsent]
  exact .quiet frame.queued frame.stored
    (InflightTracker.waiting_congr frame.publishQoS1 frame.packetsToReplay)

/-- A poll that replays a publish sends the packet of an operation in flight. -/
private theorem ofReplay {packet : Packet} {rest : List Packet} (replayable : Replayable world)
    (head : world.session.inflight.packetsToReplay = packet :: rest)
    (frame : Session.OpFrame { world.session with
      inflight := { world.session.inflight with packetsToReplay := rest } } after) :
    PollSends world after [] (after.sendings (Packet.setDup packet)) := by
  obtain ⟨entry, rfl, replaying⟩ := InflightTracker.replaying_cons replayable.suffix head
  have same : after.inflight.replaying =
      ({ world.session.inflight with packetsToReplay := rest } : InflightTracker).replaying := by
    simp only [InflightTracker.replaying, frame.publishQoS1, frame.packetsToReplay]
  have held := InflightTracker.mem_of_mem_replaying
    (replaying ▸ List.mem_cons_self : entry ∈ world.session.inflight.replaying)
  have qos := replayable.filed held
  have stored : ∀ kind, after.inflight.stored kind = world.session.inflight.stored kind := by
    intro kind
    refine (frame.stored kind).trans ?_
    cases kind <;> rfl
  have found : (after.inflight.stored .publishQoS1).filter
      (fun other => other.1 == entry.1) = [(entry.1, entry.2.2)] := by
    rw [stored]
    simp only [InflightTracker.stored, List.filter_map, Function.comp_def, IndexMap.filter_key,
      IndexMap.get?_eq_some_iff.mpr held]
    rfl
  have named : Packet.operation? (.publish (Publish.setDup entry.2.1)) =
      some (.publishQoS1, entry.1) := by
    simp [Packet.operation?, Publish.setDup_atLeastOnce qos]
  have emitted : after.sendings (Packet.setDup (.publish (Publish.setDup entry.2.1))) =
      [⟨.publishQoS1, entry.1, entry.2.2, .publish (Publish.setDup entry.2.1)⟩] := by
    simp [Session.sendings_eq named found]
  rw [emitted]
  exact .resent entry held frame.queued stored (same ▸ replaying)

theorem ofEffect {outgoing : Option Outgoing} {fired : List Firing}
    (disciplined : Disciplined world.session) (replayable : Replayable world)
    (effect : Session.PollEffect world.session outgoing after fired) :
    PollSends world after
      (outgoing.toList.filterMap fun sent => (Emission.mk world.connections sent).operation?)
      (outgoing.toList.flatMap fun sent => after.sendings sent.packet) := by
  have whole := effect
  cases effect with
  | quiet outgoing after fired drained frame silent plain => exact ofQuiet frame plain
  | replay packet rest after head frame =>
    simp only [Option.toList_some, List.flatMap_cons, List.flatMap_nil, List.append_nil]
    exact ofReplay replayable head frame
  | subscribe notifier topicFilter options otherProperties rest pkid pool after drained head leased
      frame =>
    simp only [Option.toList_some, List.flatMap_cons, List.flatMap_nil, List.append_nil]
    refine ofOpened disciplined whole rfl (by simp) rfl rfl (fun kind => ?_) drained
      frame.packetsToReplay
    rw [frame.queued]
    cases kind <;> simp [Channels.queued, head]
  | unsubscribe notifier topicFilter otherProperties rest pkid pool after drained head leased
      frame =>
    simp only [Option.toList_some, List.flatMap_cons, List.flatMap_nil, List.append_nil]
    refine ofOpened disciplined whole rfl (by simp) rfl rfl (fun kind => ?_) drained
      frame.packetsToReplay
    rw [frame.queued]
    cases kind <;> simp [Channels.queued, head]
  | publishQoS1 request rest pkid pool after drained head leased frame =>
    simp only [Option.toList_some, List.flatMap_cons, List.flatMap_nil, List.append_nil]
    refine ofOpened disciplined whole rfl (by simp) rfl rfl (fun kind => ?_) drained
      frame.packetsToReplay
    rw [frame.queued]
    cases kind <;> simp [Channels.queued, head]
  | publishQoS2 request rest pkid pool after drained head leased frame =>
    simp only [Option.toList_some, List.flatMap_cons, List.flatMap_nil, List.append_nil]
    refine ofOpened disciplined whole rfl (by simp) rfl rfl (fun kind => ?_) drained
      frame.packetsToReplay
    rw [frame.queued]
    cases kind <;> simp [Channels.queued, head]

end PollSends

/-! ### The client refines the courier -/

theorem Session.PollEffect.silent {session after : Session} {outgoing : Option Outgoing}
    {fired : List Firing} (effect : Session.PollEffect session outgoing after fired) :
    ∀ firing ∈ fired, firing.kind? = none := by
  cases effect with
  | quiet _ _ _ _ _ silent _ => exact silent
  | _ => simp

namespace Sending

@[simp] theorem notifiers_nil (kind : OpKind) : notifiers kind [] = [] := rfl

@[simp] theorem notifiers_append (kind : OpKind) (left right : List Sending) :
    notifiers kind (left ++ right) = notifiers kind left ++ notifiers kind right := by
  simp [notifiers]

theorem notifiers_cons (kind : OpKind) (sending : Sending) (rest : List Sending) :
    notifiers kind (sending :: rest) =
      (if sending.kind = kind then [sending.notifier] else []) ++ notifiers kind rest := by
  by_cases same : sending.kind = kind
  · simp [notifiers, same]
  · simp [notifiers, same]

end Sending

namespace System

variable {system : System}

theorem advance_poll (system : System) (polls : List Readiness) (outgoing : Option Outgoing)
    (session : Session) (fired : List Firing) :
    system.advance (system.world.afterPoll polls outgoing session fired) =
      { system with
        world := system.world.afterPoll polls outgoing session fired
        toServer := system.toServer ++
          outgoing.toList.flatMap fun sent => session.sendings sent.packet } := by
  have stays : (system.world.afterPoll polls outgoing session fired).connections =
      system.world.connections := rfl
  rw [advance, if_pos stays]
  simp [World.afterPoll, List.flatMap_map, World.record]

theorem courier_poll {polls : List Readiness} {outgoing : Option Outgoing} {session : Session}
    {fired : List Firing} (disciplined : Disciplined system.world.session)
    (replayable : Replayable system.world) (live : system.world.session.isConnected = true)
    (effect : Session.PollEffect system.world.session outgoing session fired) (kind : OpKind) :
    Courier.Step (system.courier kind)
      ((system.advance (system.world.afterPoll polls outgoing session fired)).courier kind) := by
  have settled := system.world.settled_afterPoll polls outgoing session fired kind effect.silent
  have operations := Replayable.operations_afterPoll system.world polls outgoing session fired
  have stays : session.isConnected = system.world.session.isConnected :=
    congrArg Option.isSome effect.kept.1
  have sends := PollSends.ofEffect disciplined replayable effect
  rw [advance_poll]
  generalize (outgoing.toList.flatMap fun sent => session.sendings sent.packet) = emitted at sends ⊢
  rw [show ({ system with
        world := system.world.afterPoll polls outgoing session fired
        toServer := system.toServer ++ emitted } : System).courier kind =
      { system.courier kind with
        queued := session.ch.queued kind
        held := (session.inflight.stored kind).map Prod.snd
        waiting := session.inflight.waiting kind
        transit := Sending.notifiers kind system.toServer ++ Sending.notifiers kind emitted
        opened := ((system.world.operations ++ outgoing.toList.filterMap
          (fun sent => (Emission.mk system.world.connections sent).operation?)).filter
            (fun operation => operation.kind == kind)).map
              fun operation => (operation.connection, operation.notifier) } by
    simp only [courier, World.completed, World.cancelled, settled, operations,
      Sending.notifiers_append]
    simp only [World.afterPoll, World.record, stays]
    rfl]
  generalize (outgoing.toList.filterMap
    fun sent => (Emission.mk system.world.connections sent).operation?) = opened at sends ⊢
  cases sends with
  | quiet queued stored waiting =>
    simp only [queued, stored, waiting, Sending.notifiers_nil, List.append_nil]
    exact .wait _ _ (Nat.le_refl _)
  | resent entry held queued stored head =>
    simp only [queued, stored, List.append_nil, Sending.notifiers_cons, Sending.notifiers_nil]
    by_cases publish : kind = .publishQoS1
    · subst publish
      refine .resend (system.courier .publishQoS1) entry.2.2 _ live ?_
      simp [courier, InflightTracker.waiting, head]
    · have waiting : session.inflight.waiting kind =
          system.world.session.inflight.waiting kind := by
        simp only [InflightTracker.waiting, if_neg publish]
      have other : ¬ OpKind.publishQoS1 = kind := fun same => publish same.symm
      simp only [if_neg other, waiting, List.append_nil]
      exact .wait _ _ (Nat.le_refl _)
  | opened operation current queued stored drained still =>
    simp only [stored, still, Sending.notifiers_cons, Sending.notifiers_nil, List.append_nil]
    by_cases same : operation.kind = kind
    · subst same
      have head := queued operation.kind
      simp only [if_true, List.singleton_append] at head
      have step := Courier.Step.open (system.courier operation.kind) operation.notifier _ live
        (drained operation.kind) head
      simpa [courier, drained, current] using step
    · have head := queued kind
      have other : kind ≠ operation.kind := fun reversed => same reversed.symm
      simp only [if_neg other, List.nil_append] at head
      have step := Courier.Step.wait (system.courier kind) system.world.fresh (Nat.le_refl _)
      simpa [courier, same, other, head, drained] using step

end System

namespace World

theorem completed_record (world : World) (event : Event) (session : Session)
    (fired : List Firing) (kind : OpKind) :
    (world.record event session fired).completed kind = world.completed kind ++
      ((fired.filter (fun firing => decide (firing.kind? = some kind))).filter
        (fun firing => !firing.isCancel)).map Firing.notifier := by
  simp only [completed, settled_record, List.filter_append, List.map_append, List.filter_map,
    List.map_map]
  rfl

theorem cancelled_record (world : World) (event : Event) (session : Session)
    (fired : List Firing) (kind : OpKind) :
    (world.record event session fired).cancelled kind = world.cancelled kind ++
      ((fired.filter (fun firing => decide (firing.kind? = some kind))).filter
        Firing.isCancel).map Firing.notifier := by
  simp only [cancelled, settled_record, List.filter_append, List.map_append, List.filter_map,
    List.map_map]
  rfl

end World

@[simp] theorem OpKind.isCancel_cancel (kind : OpKind) (reason : String) (notifier : Notifier) :
    (kind.cancel reason notifier).isCancel = true := by
  cases kind <;> rfl

@[simp] theorem Acknowledgement.isCancel_fire (ack : Acknowledgement) (notifier : Notifier) :
    (ack.fire notifier).isCancel = false := by
  cases ack <;> rfl

namespace System

variable {system : System} {kind : OpKind}

/-- The operations of the kind are kept, or all of them are cancelled. -/
private structure Settles (world : World) (kind : OpKind) (keep : Bool) (session : Session)
    (fired : List Firing) : Prop where
  queued : session.ch.queued kind = world.session.ch.queued kind
  stored : session.inflight.stored kind =
    if keep then world.session.inflight.stored kind else []
  waiting : session.inflight.waiting kind = (session.inflight.stored kind).map Prod.snd
  fired : fired.filter (fun firing => decide (firing.kind? = some kind)) =
    if keep then [] else (world.session.inflight.stored kind).map
      fun entry => kind.cancel (if kind.isPublish then "MQTT session expired"
        else "Client disconnected") entry.2

private theorem Settles.history {world : World} {keep : Bool} {session : Session}
    {fired : List Firing} (settles : Settles world kind keep session fired) (event : Event)
    (final : Session) :
    (world.record event final fired).completed kind = world.completed kind ∧
      (world.record event final fired).cancelled kind = world.cancelled kind ++
        if keep then [] else (world.session.inflight.stored kind).map Prod.snd := by
  rw [world.completed_record, world.cancelled_record, settles.fired]
  cases keep with
  | true => simp
  | false => simp [List.filter_map, Function.comp_def]

/-- Between connections every publish in flight waits to be sent again. -/
theorem waiting_all {inflight : InflightTracker}
    (all : inflight.packetsToReplay = inflight.resends) :
    inflight.waiting .publishQoS1 = (inflight.stored .publishQoS1).map Prod.snd := by
  have length : inflight.packetsToReplay.length = inflight.publishQoS1.entries.length := by
    rw [all]
    simp [InflightTracker.resends, IndexMap.values]
  simp [InflightTracker.waiting, InflightTracker.replaying, length, InflightTracker.stored]

private theorem settles_established {world : World} (replayable : Replayable world)
    (idle : world.session.isConnected = false)
    (transient : kind.isPublish = false → world.session.inflight.stored kind = [])
    (only : world.session.inflight.publishQoS2 = .empty) (sessionPresent : Bool) :
    Settles world kind (sessionPresent || !kind.isPublish) (World.resumed world.session
      sessionPresent).1 (World.resumed world.session sessionPresent).2 := by
  have all := replayable.idle idle
  cases sessionPresent with
  | true =>
    refine ⟨rfl, rfl, ?_, rfl⟩
    cases kind with
    | publishQoS1 => exact waiting_all all
    | publishQoS2 => simp [World.resumed, InflightTracker.waiting, InflightTracker.stored, only]
    | subscribe => simp [World.resumed, InflightTracker.waiting, transient rfl]
    | unsubscribe => simp [World.resumed, InflightTracker.waiting, transient rfl]
  | false =>
    have stored := world.session.stored_sessionExpired kind
    have fired := world.session.fired_sessionExpired kind
    refine ⟨by cases kind <;> rfl, ?_, ?_, ?_⟩
    · cases kind <;> exact stored
    · cases kind with
      | publishQoS1 => rfl
      | publishQoS2 => rfl
      | subscribe => exact (congrArg (List.map Prod.snd) (transient rfl)).symm
      | unsubscribe => exact (congrArg (List.map Prod.snd) (transient rfl)).symm
    · cases kind <;> exact fired

private theorem settles_ended {world : World} (only : QoS1Only world.session)
    (interval : SessionExpiryInterval) :
    Settles world kind (kind.isPublish && decide (interval ≠ .duration 0))
      (world.session.ended interval).1 (world.session.ended interval).2 := by
  have stored := world.session.stored_ended kind interval
  have fired := world.session.fired_ended kind interval
  have list := only.replayList
  refine ⟨?_, ?_, ?_, ?_⟩
  · simp only [Session.ended, Session.expireIfZero]
    split <;> rfl
  · rw [stored]
    simp
  · rw [stored]
    by_cases zero : interval = .duration 0
    · rw [if_neg (by simp [zero])]
      simp only [Session.ended, Session.expireIfZero, zero, if_true]
      exact InflightTracker.waiting_eq_nil rfl kind
    · have inflight : (world.session.ended interval).1.inflight =
          world.session.disconnected.1.inflight := by
        simp [Session.ended, Session.expireIfZero, zero]
      rw [inflight]
      cases kind with
      | publishQoS1 =>
        simp only [OpKind.isPublish, zero, ne_eq, not_false_eq_true, and_self, if_true]
        exact waiting_all list
      | publishQoS2 => simp [InflightTracker.waiting, InflightTracker.stored, only.publishQoS2]
      | subscribe => rfl
      | unsubscribe => rfl
  · rw [fired]
    by_cases zero : interval = .duration 0
    · cases kind <;> simp [zero, OpKind.isPublish]
    · cases kind <;> simp [zero, OpKind.isPublish]

theorem courier_established {connack : ConnAck} {keepAlive : KeepAlive}
    {authMethod : Option Bytes} {interval : SessionExpiryInterval} {sessionPresent : Bool}
    (sound : (system.courier kind).Sound) (replayable : Replayable system.world)
    (only : QoS1Only system.world.session) (idle : system.world.session.isConnected = false) :
    Courier.Step (system.courier kind)
      ((system.advance (system.world.established connack keepAlive authMethod interval
        sessionPresent)).courier kind) := by
  have transient : kind.isPublish = false → system.world.session.inflight.stored kind = [] := by
    intro transient
    have held := sound.idle idle
    cases kind with
    | publishQoS1 => cases transient
    | publishQoS2 => cases transient
    | subscribe => exact List.map_eq_nil_iff.mp held.symm
    | unsubscribe => exact List.map_eq_nil_iff.mp held.symm
  have settles := settles_established replayable idle transient only.publishQoS2 sessionPresent
  generalize (sessionPresent || !kind.isPublish) = keep at settles
  let next := system.world.established connack keepAlive authMethod interval sessionPresent
  have connections : next.connections = system.world.connections + 1 := by
    simp [next, World.established, World.connections]
  have fresh : system.advance next = { world := next, received := system.received } :=
    if_neg (by omega)
  have queued : next.session.ch.queued kind = system.world.session.ch.queued kind := by
    rw [← settles.queued]
    cases kind <;> rfl
  obtain ⟨completed, cancelled⟩ := settles.history
    (.connack connack keepAlive authMethod interval) next.session
  have inflight : next.session.inflight =
      (World.resumed system.world.session sessionPresent).1.inflight := rfl
  have step := Courier.Step.connect (system.courier kind) keep idle
  have same : (system.advance next).courier kind =
      { (system.courier kind).settle keep with
        live := true, connection := (system.courier kind).connection + 1, transit := []
        owed := [], answers := [] } := by
    rw [fresh]
    have done : next.completed kind = system.world.completed kind := completed
    have gone : next.cancelled kind = _ := cancelled
    have live : next.session.isConnected = true := rfl
    have operations : next.operations = system.world.operations := rfl
    have number : next.fresh = system.world.fresh := rfl
    simp only [courier, queued, inflight, settles.waiting, settles.stored, done, gone, connections,
      live, operations, number]
    cases keep <;> simp [Courier.settle]
  exact same ▸ step

theorem courier_ended (only : QoS1Only system.world.session)
    (live : system.world.session.isConnected = true) (disconnection : Disconnection) :
    Courier.Step (system.courier kind)
      ((system.advance (system.world.disconnected disconnection)).courier kind) := by
  have dead := system.world.disconnected_isConnected disconnection
  rw [system.world.disconnected_eq] at dead ⊢
  generalize disconnection.expiryInterval system.world.session = interval at dead ⊢
  have settles : Settles system.world kind _ _ _ := settles_ended only interval
  generalize (kind.isPublish && decide (interval ≠ .duration 0)) = keep at settles
  obtain ⟨completed, cancelled⟩ := settles.history (.disconnected disconnection)
    (system.world.session.ended interval).1
  have step := Courier.Step.lose (system.courier kind) keep live
  have same : (system.advance (system.world.record (.disconnected disconnection)
        (system.world.session.ended interval).1 (system.world.session.ended interval).2)).courier
          kind =
      { (system.courier kind).settle keep with live := false } := by
    have silent := system.advance_silent (system.world.record (.disconnected disconnection)
      (system.world.session.ended interval).1 (system.world.session.ended interval).2) rfl rfl
    rw [silent]
    simp only [courier, completed, cancelled]
    simp only [World.record, settles.queued, settles.waiting, settles.stored, World.operations,
      World.connections] at dead ⊢
    cases keep <;> simp [Courier.settle, dead]
  exact same ▸ step

theorem courier_receive {sending : Sending} {rest : List Sending}
    (head : system.toServer = sending :: rest) :
    Courier.Step (system.courier kind)
      (({ system with
          toServer := rest
          owed := system.owed ++ [sending]
          received := system.received ++ [⟨system.world.connections, sending⟩] } :
            System).courier kind) := by
  by_cases same : sending.kind = kind
  · have step := Courier.Step.receive (system.courier kind) sending.notifier
      (Sending.notifiers kind rest) (by simp [courier, head, Sending.notifiers_cons, same])
    simpa [courier, Sending.notifiers_cons, same] using step
  · have step := Courier.Step.wait (system.courier kind) system.world.fresh (Nat.le_refl _)
    simpa [courier, head, Sending.notifiers_cons, same] using step

theorem courier_answer {ack : Acknowledgement} {sending : Sending}
    (owed : sending ∈ system.owed) :
    Courier.Step (system.courier kind)
      (({ system with
          owed := system.owed.erase sending
          toClient := system.toClient ++ [⟨ack, sending⟩] } : System).courier kind) := by
  obtain ⟨early, late, _, split, erased⟩ := List.exists_erase_eq owed
  rw [erased]
  by_cases same : sending.kind = kind
  · have step := Courier.Step.answer (system.courier kind) (Sending.notifiers kind early)
      sending.notifier (Sending.notifiers kind late)
      (by simp [courier, split, Sending.notifiers_cons, same])
    simpa [courier, Sending.notifiers_cons, same] using step
  · have step := Courier.Step.wait (system.courier kind) system.world.fresh (Nat.le_refl _)
    simpa [courier, Sending.notifiers_cons, same, split] using step

end System

end MqttClient.Client
