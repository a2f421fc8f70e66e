import MqttClient.Client.Operations

/-! Every operation completes exactly once: the runs of a session refine the ledger. -/

namespace MqttClient.Client

open MqttClient.Proto

/-- A ledger that describes the operations of one kind in a world. -/
structure Tracks (kind : OpKind) (world : World) (ledger : Ledger Operation Fired) : Prop where
  fresh : ledger.fresh = world.fresh
  queued : ledger.queued = world.session.ch.queued kind
  stored : ledger.stored.map (fun entry => (entry.data.pkid, entry.ticket)) =
    world.session.inflight.stored kind
  opened : ledger.opened = world.opened kind
  settled : ledger.settled = world.settled kind
  emitted : ∀ entry ∈ ledger.opened,
    Packet.operationIdentifier entry.data.packet = some entry.data.pkid
  current : kind.isPublish = false → ∀ entry ∈ ledger.stored,
    world.session.isConnected = true ∧ entry.data.connection = world.connections

namespace World

theorem mem_opened {world : World} {kind : OpKind} {entry : Ledger.Entry Operation} :
    entry ∈ world.opened kind ↔
      entry.data ∈ world.operations ∧ entry.data.kind = kind ∧
        entry.ticket = entry.data.notifier := by
  obtain ⟨ticket, operation⟩ := entry
  simp only [opened, List.mem_map, List.mem_filter, beq_iff_eq]
  constructor
  · rintro ⟨other, ⟨member, ofKind⟩, same⟩
    cases same
    exact ⟨member, ofKind, rfl⟩
  · rintro ⟨member, ofKind, rfl⟩
    exact ⟨operation, ⟨member, ofKind⟩, rfl⟩

/-- The firings of one notifier of a kind. -/
def firings (world : World) (kind : OpKind) (notifier : Notifier) : List Fired :=
  world.fired.filter fun record =>
    decide (record.firing.kind? = some kind) && record.firing.notifier == notifier

theorem firings_eq (world : World) (kind : OpKind) (notifier : Notifier) :
    world.firings kind notifier =
      ((world.settled kind).filter (fun record => record.1 == notifier)).map Prod.snd := by
  unfold firings settled
  induction world.fired with
  | nil => rfl
  | cons record rest ih =>
    by_cases ofKind : record.firing.kind? = some kind
    · by_cases named : record.firing.notifier = notifier
      · simpa [ofKind, named] using ih
      · simpa [ofKind, named] using ih
    · simpa [ofKind] using ih

/-- Subscribes and unsubscribes do not outlive the connection they were sent on. -/
theorem step_connection {world next : World} {event : Event} {kind : OpKind}
    (transient : kind.isPublish = false) (stepped : world.step event = .ok next) :
    next.session.inflight.stored kind = [] ∨
      (next.connections = world.connections ∧
        next.session.isConnected = world.session.isConnected) ∨
      (world.session.isConnected = false ∧
        next.session.inflight.stored kind = world.session.inflight.stored kind) := by
  have stays : (∀ connack keepAlive authMethod interval,
      event ≠ .connack connack keepAlive authMethod interval) →
      (∀ disconnection, event ≠ .disconnected disconnection) →
      next.connections = world.connections ∧
        next.session.isConnected = world.session.isConnected :=
    fun noOpen noEnd =>
      have same := step_sameConnection stepped noOpen noEnd
      ⟨same.connections, same.isConnected⟩
  cases step_cases stepped with
  | refused => exact .inr (.inl ⟨rfl, rfl⟩)
  | established connack keepAlive authMethod interval sessionPresent idle code =>
    refine .inr (.inr ⟨idle, ?_⟩)
    cases sessionPresent with
    | true => rfl
    | false => exact (world.session.stored_sessionExpired kind).trans (by simp [transient])
  | disconnected disconnection live =>
    left
    rw [world.disconnected_eq]
    exact (world.session.stored_ended kind _).trans (by simp [transient])
  | _ => exact .inr (.inl (stays (by simp) (by simp)))

end World

namespace Tracks

variable {kind : OpKind} {world next : World} {ledger : Ledger Operation Fired} {event : Event}

theorem new (maxPkid : PacketIdentifier) (kind : OpKind) :
    Tracks kind (.new maxPkid) Ledger.empty where
  fresh := rfl
  queued := by cases kind <;> rfl
  stored := by cases kind <;> rfl
  opened := rfl
  settled := rfl
  emitted := by simp [Ledger.empty]
  current := by simp [Ledger.empty]

private theorem current_step {entries : List (Ledger.Entry Operation)}
    (transient : kind.isPublish = false) (stepped : world.step event = .ok next)
    (stored : entries.map (fun entry => (entry.data.pkid, entry.ticket)) =
      next.session.inflight.stored kind)
    (current : ∀ entry ∈ entries,
      world.session.isConnected = true ∧ entry.data.connection = world.connections) :
    ∀ entry ∈ entries,
      next.session.isConnected = true ∧ entry.data.connection = next.connections := by
  intro entry member
  obtain ⟨live, connection⟩ := current entry member
  rcases World.step_connection transient stepped with empty | ⟨links, same⟩ | ⟨idle, _⟩
  · rw [empty, List.map_eq_nil_iff] at stored
    simp [stored] at member
  · exact ⟨same.trans live, connection.trans links.symm⟩
  · simp [idle] at live

/-- The ledger entry of an operation names its kind, identifier and notifier. -/
theorem stored_entry (tracks : Tracks kind world ledger)
    (balanced : ledger.Balanced Resolves) {entry : Ledger.Entry Operation}
    (member : entry ∈ ledger.stored) :
    entry.data.kind = kind ∧ entry.ticket = entry.data.notifier := by
  have opened := (balanced.mem_stored.mp member).1
  rw [tracks.opened, World.mem_opened] at opened
  exact opened.2

/-- A step of the session is a step of the ledger. -/
theorem step (tracks : Tracks kind world ledger) (balanced : ledger.Balanced Resolves)
    (disciplined : Disciplined world.session) (stepped : world.step event = .ok next) :
    ∃ after, Ledger.Step Resolves ledger after ∧ Tracks kind next after := by
  have effect : KindStep kind world next := .ofStep (fun _ _ => disciplined) stepped
  cases effect with
  | idle fresh queued stored opened settled =>
    have same := tracks.stored.trans stored.symm
    refine ⟨_, .wait ledger next.fresh (tracks.fresh ▸ fresh), ?_⟩
    exact ⟨rfl, tracks.queued.trans queued.symm, same, tracks.opened.trans opened.symm,
      tracks.settled.trans settled.symm, tracks.emitted,
      fun transient => current_step transient stepped same (tracks.current transient)⟩
  | submit fresh queued stored opened settled =>
    have same := tracks.stored.trans stored.symm
    refine ⟨_, .submit ledger, ?_⟩
    exact ⟨by rw [fresh, tracks.fresh], by rw [queued, tracks.queued, tracks.fresh], same,
      tracks.opened.trans opened.symm, tracks.settled.trans settled.symm, tracks.emitted,
      fun transient => current_step transient stepped same (tracks.current transient)⟩
  | «open» operation ofKind current live emitted fresh queued stored opened settled =>
    refine ⟨_, .open ledger operation.notifier _ operation (tracks.queued.trans queued), ?_⟩
    have same : (ledger.stored ++ [Ledger.Entry.mk operation.notifier operation]).map
        (fun entry => (entry.data.pkid, entry.ticket)) = next.session.inflight.stored kind := by
      rw [stored, ← tracks.stored, List.map_append]
      rfl
    refine ⟨tracks.fresh.trans fresh.symm, rfl, same, by rw [opened, tracks.opened],
      tracks.settled.trans settled.symm, ?_, ?_⟩
    · intro entry member
      rcases List.mem_append.mp member with old | new
      · exact tracks.emitted entry old
      · rw [List.mem_singleton.mp new]
        exact emitted
    · intro transient
      refine current_step transient stepped same ?_
      intro entry member
      rcases List.mem_append.mp member with old | new
      · exact tracks.current transient entry old
      · rw [List.mem_singleton.mp new]
        exact ⟨live, current⟩
  | settle due record fresh queued stored opened settled legit =>
    let view : Ledger.Entry Operation → PacketIdentifier × Notifier :=
      fun entry => (entry.data.pkid, entry.ticket)
    have same : (ledger.stored.filter (fun entry => !due (view entry))).map view =
        next.session.inflight.stored kind := by
      rw [stored, ← tracks.stored, List.filter_map]
      rfl
    refine ⟨_, .settle ledger (fun entry => due (view entry)) (fun entry => record entry.ticket)
      ?_, ?_⟩
    · intro entry member isDue
      obtain ⟨ofKind, named⟩ := tracks.stored_entry balanced member
      have held : view entry ∈ world.session.inflight.stored kind := by
        rw [← tracks.stored]
        exact List.mem_map_of_mem member
      simp only [view, named] at held isDue ⊢
      exact legit entry.data ofKind held isDue
        (fun transient => (tracks.current transient entry member).2)
    · refine ⟨tracks.fresh.trans fresh.symm, tracks.queued.trans queued.symm, same,
        tracks.opened.trans opened.symm, ?_, tracks.emitted, ?_⟩
      · rw [settled, ← tracks.settled, ← tracks.stored, List.filter_map, List.map_map]
        rfl
      · intro transient
        refine current_step transient stepped same ?_
        exact fun entry member =>
          tracks.current transient entry (List.mem_filter.mp member).1

end Tracks

/-- The condition on a step: an acknowledgement that carries the identifier of an
operation in flight is of the operation's own kind. -/
def AcknowledgesOwnKind (world : World) : Event → Prop
  | .incoming (.ack ack) =>
    ∀ kind, ack.packetIdentifier ∈ world.session.inflight.keys kind → kind = ack.kind
  | _ => True

theorem AcknowledgesOwnKind.releasesOwn {world : World} {event : Event}
    (own : AcknowledgesOwnKind world event) : ReleasesOwnAt world event := by
  unfold ReleasesOwnAt
  split
  · intro _ kind other member
    exact other (own kind member)
  · trivial

/-- The operations of every kind are accounted for. -/
def Accounted (world : World) : Prop :=
  ∀ kind, ∃ ledger : Ledger Operation Fired, Tracks kind world ledger ∧ ledger.Balanced Resolves

theorem accounted_run {maxPkid : PacketIdentifier} {events : List Event} {final : World}
    (ran : World.run (.new maxPkid) events = .ok final)
    (own : Transition.Along World.step AcknowledgesOwnKind (.new maxPkid) events) :
    Disciplined final.session ∧ Accounted final := by
  refine Transition.exec_invariant (fun world => Disciplined world.session ∧ Accounted world)
    ⟨disciplined_new maxPkid, fun kind => ⟨_, .new maxPkid kind, Ledger.balanced_empty⟩⟩ ?_ own ran
  rintro world event next ⟨disciplined, accounted⟩ here stepped
  refine ⟨(disciplined.step_iff stepped).mpr here.releasesOwn, fun kind => ?_⟩
  obtain ⟨ledger, tracks, balanced⟩ := accounted kind
  obtain ⟨after, ledgerStep, tracked⟩ := tracks.step balanced disciplined stepped
  exact ⟨after, tracked, balanced.step ledgerStep⟩

/-- An operation waits in flight and has not fired, or it is gone and fired once, for a
reason of its own. -/
def CompletesOnce (world : World) (operation : Operation) : Prop :=
  ((operation.pkid, operation.notifier) ∈ world.session.inflight.stored operation.kind ∧
    world.firings operation.kind operation.notifier = []) ∨
  ((operation.pkid, operation.notifier) ∉ world.session.inflight.stored operation.kind ∧
    ∃ record, world.firings operation.kind operation.notifier = [record] ∧
      Resolves operation record)

theorem Accounted.completesOnce {world : World} (accounted : Accounted world)
    {operation : Operation} (sent : operation ∈ world.operations) :
    CompletesOnce world operation := by
  obtain ⟨ledger, tracks, balanced⟩ := accounted operation.kind
  have opened : (⟨operation.notifier, operation⟩ : Ledger.Entry Operation) ∈ ledger.opened := by
    rw [tracks.opened, World.mem_opened]
    exact ⟨sent, rfl, rfl⟩
  have held : (operation.pkid, operation.notifier) ∈
      world.session.inflight.stored operation.kind ↔
      (⟨operation.notifier, operation⟩ : Ledger.Entry Operation) ∈ ledger.stored := by
    rw [← tracks.stored]
    constructor
    · intro member
      obtain ⟨entry, stored, same⟩ := List.mem_map.mp member
      have ticket : entry.ticket = operation.notifier := congrArg Prod.snd same
      have identical := balanced.entry_unique (balanced.mem_stored.mp stored).1 opened ticket
      exact identical ▸ stored
    · intro stored
      exact List.mem_map.mpr ⟨_, stored, rfl⟩
  have firings := world.firings_eq operation.kind operation.notifier
  rw [← tracks.settled] at firings
  rcases balanced.exactly_once opened with ⟨stored, none⟩ | ⟨gone, cause, one, legit⟩
  · exact .inl ⟨held.mpr stored, by rw [firings, none]; rfl⟩
  · exact .inr ⟨fun member => gone (held.mp member), cause, by rw [firings, one]; rfl, legit⟩

/-- A notifier that leaves its channel leaves it as an operation that is sent. -/
theorem KindStep.leaves {kind : OpKind} {before after : World} (step : KindStep kind before after)
    {notifier : Notifier} (queued : notifier ∈ before.session.ch.queued kind)
    (taken : notifier ∉ after.session.ch.queued kind) :
    ∃ operation ∈ after.operations, operation.kind = kind ∧ operation.notifier = notifier := by
  cases step with
  | idle fresh same => exact absurd (same ▸ queued) taken
  | submit fresh more => exact absurd (more ▸ List.mem_append_left _ queued) taken
  | settle due record fresh same => exact absurd (same ▸ queued) taken
  | «open» operation ofKind current live emitted fresh fewer stored opened settled =>
    rw [fewer] at queued
    rcases List.mem_cons.mp queued with rfl | later
    · have member : (⟨operation.notifier, operation⟩ : Ledger.Entry Operation) ∈
          after.opened kind := by
        rw [opened]
        exact List.mem_append_right _ (List.mem_singleton_self _)
      exact ⟨operation, (World.mem_opened.mp member).1, ofKind, rfl⟩
    · exact absurd later taken

/-- The operations of a run complete exactly once. Every notifier that left its channel
belongs to an operation sent under its own identifier; the operation is in flight and
has not fired, or has fired once with its own acknowledgement or cancellation; and what
fired belongs to an operation that was sent. -/
structure ExactlyOnce (maxPkid : PacketIdentifier) (events : List Event) (final : World) :
    Prop where
  taken : ∀ early event late before after, events = early ++ event :: late →
    World.run (.new maxPkid) early = .ok before → before.step event = .ok after →
    ∀ kind notifier, notifier ∈ before.session.ch.queued kind →
      notifier ∉ after.session.ch.queued kind →
      ∃ operation ∈ after.operations, operation.kind = kind ∧ operation.notifier = notifier
  distinct : ∀ kind, ((final.operations.filter (fun operation => operation.kind == kind)).map
    Operation.notifier).Nodup
  emitted : ∀ operation ∈ final.operations,
    Packet.operationIdentifier operation.packet = some operation.pkid
  completes : ∀ operation ∈ final.operations, CompletesOnce final operation
  fired : ∀ record ∈ final.fired, ∀ kind, record.firing.kind? = some kind →
    ∃ operation ∈ final.operations, operation.kind = kind ∧
      operation.notifier = record.firing.notifier

/-- Every operation of a run in which acknowledgements carry identifiers of their own
kind completes exactly once. -/
theorem completion_exactlyOnce (maxPkid : PacketIdentifier) (events : List Event) (final : World)
    (ran : World.run (.new maxPkid) events = .ok final)
    (own : Transition.Along World.step AcknowledgesOwnKind (.new maxPkid) events) :
    ExactlyOnce maxPkid events final := by
  obtain ⟨_, accounted⟩ := accounted_run ran own
  constructor
  · intro early event late before after split first stepped kind notifier queued left
    rw [split] at own
    have disciplined := (accounted_run first ((Transition.Along.append first).mp own).1).1
    exact (KindStep.ofStep (fun _ _ => disciplined) stepped).leaves queued left
  · intro kind
    obtain ⟨ledger, tracks, balanced⟩ := accounted kind
    have distinct := balanced.opened_nodup
    simpa [Ledger.openedTickets, tracks.opened, World.opened, Function.comp_def] using distinct
  · intro operation sent
    obtain ⟨ledger, tracks, _⟩ := accounted operation.kind
    apply tracks.emitted ⟨operation.notifier, operation⟩
    rw [tracks.opened, World.mem_opened]
    exact ⟨sent, rfl, rfl⟩
  · exact fun operation sent => accounted.completesOnce sent
  · intro record member kind ofKind
    obtain ⟨ledger, tracks, balanced⟩ := accounted kind
    have settled : (record.firing.notifier, record) ∈ ledger.settled := by
      rw [tracks.settled]
      exact List.mem_filterMap.mpr ⟨record, member, by simp [ofKind]⟩
    obtain ⟨entry, opened, named, _⟩ := balanced.legit _ settled
    rw [tracks.opened, World.mem_opened] at opened
    exact ⟨entry.data, opened.1, opened.2.1, opened.2.2.symm.trans named⟩

theorem completion_exactlyOnce_pubAck :
    ∃ final, World.run (.new .one) (answeredPublish (.pubAck ⟨.one, .success, {}⟩)) = .ok final ∧
      ExactlyOnce .one (answeredPublish (.pubAck ⟨.one, .success, {}⟩)) final := by
  refine ⟨_, rfl, completion_exactlyOnce .one _ _ rfl ?_⟩
  refine (Transition.Along.cons_ok rfl).mpr ⟨trivial, ?_⟩
  refine (Transition.Along.cons_ok rfl).mpr ⟨trivial, ?_⟩
  refine (Transition.Along.cons_ok rfl).mpr ⟨trivial, ?_⟩
  refine (Transition.Along.cons_ok rfl).mpr ⟨?_, ?_⟩
  · intro kind
    cases kind <;> decide
  · exact (Transition.Along.cons_ok rfl).mpr ⟨trivial, trivial⟩

end MqttClient.Client
