import MqttClient.Client.Completion
import MqttClient.Client.ConnectionSpec
import MqttClient.Client.QoS1

/-! Packets that are sent again on the next connection. -/

namespace MqttClient.Client

open MqttClient.Proto

/-- The QoS 1 PUBLISHes in flight, as they are sent again. -/
def InflightTracker.resends (inflight : InflightTracker) : List Packet :=
  inflight.publishQoS1.values.map fun value => .publish (Publish.setDup value.1)

theorem Publish.setDup_atLeastOnce {publish : Publish} {pkid : PacketIdentifier} {dup : Bool}
    (qos : publish.packetIdentifierDupQoS = .atLeastOnce pkid dup) :
    Publish.setDup publish =
      { publish with packetIdentifierDupQoS := .atLeastOnce pkid true } := by
  simp [Publish.setDup, qos]

@[simp] theorem Packet.setDup_setDup (publish : Publish) :
    Packet.setDup (.publish (Publish.setDup publish)) = .publish (Publish.setDup publish) := by
  cases qos : publish.packetIdentifierDupQoS <;> simp [Packet.setDup, Publish.setDup, qos]

theorem QoS1Only.replayList {session : Session} (only : QoS1Only session) :
    Session.replayList session.inflight = session.inflight.resends := by
  simp [Session.replayList, InflightTracker.resends, only.publishQoS2, only.pubrel,
    IndexMap.values, Function.comp_def]

/-- Each publish in flight is one that was sent, and what waits to be sent again is the
rest of the publishes in flight: all of them between connections. -/
structure Replayable (world : World) : Prop where
  sent : ∀ operation ∈ world.operations, operation.kind = .publishQoS1 →
    ∃ publish, operation.packet = .publish publish ∧
      publish.packetIdentifierDupQoS = .atLeastOnce operation.pkid false
  held : ∀ entry ∈ world.session.inflight.publishQoS1.entries,
    ∃ operation ∈ world.operations, operation.kind = .publishQoS1 ∧
      operation.pkid = entry.1 ∧ operation.notifier = entry.2.2 ∧
      operation.packet = .publish entry.2.1
  suffix : world.session.inflight.packetsToReplay <:+ world.session.inflight.resends
  idle : world.session.isConnected = false →
    world.session.inflight.packetsToReplay = world.session.inflight.resends

namespace Replayable

variable {world next : World}

theorem new (maxPkid : PacketIdentifier) : Replayable (.new maxPkid) where
  sent := by simp [World.new, World.operations]
  held := by simp [World.new, Session.new]
  suffix := List.nil_suffix
  idle := fun _ => rfl

/-- The identifier of a publish in flight is the key of its entry. -/
theorem filed (replayable : Replayable world)
    {entry : PacketIdentifier × Publish × Notifier}
    (member : entry ∈ world.session.inflight.publishQoS1.entries) :
    entry.2.1.packetIdentifierDupQoS = .atLeastOnce entry.1 false := by
  obtain ⟨operation, sent, ofKind, key, _, packet⟩ := replayable.held entry member
  obtain ⟨publish, same, qos⟩ := replayable.sent operation sent ofKind
  rw [packet] at same
  cases same
  exact key ▸ qos

/-- Only publishes wait to be sent again. -/
theorem publishes (replayable : Replayable world) {packet : Packet}
    (member : packet ∈ world.session.inflight.packetsToReplay) :
    ∃ publish, packet = .publish publish := by
  obtain ⟨entry, _, rfl⟩ := List.mem_map.mp (replayable.suffix.subset member)
  exact ⟨_, rfl⟩

/-- A step that sends the operations `added`. -/
private theorem extend (added : List Operation) (replayable : Replayable world)
    (operations : next.operations = world.operations ++ added)
    (sent : ∀ operation ∈ added, operation.kind = .publishQoS1 →
      ∃ publish, operation.packet = .publish publish ∧
        publish.packetIdentifierDupQoS = .atLeastOnce operation.pkid false)
    (held : ∀ entry ∈ next.session.inflight.publishQoS1.entries,
      entry ∈ world.session.inflight.publishQoS1.entries ∨
        ∃ operation ∈ added, operation.kind = .publishQoS1 ∧ operation.pkid = entry.1 ∧
          operation.notifier = entry.2.2 ∧ operation.packet = .publish entry.2.1)
    (suffix : next.session.inflight.packetsToReplay <:+ next.session.inflight.resends)
    (idle : next.session.isConnected = false →
      next.session.inflight.packetsToReplay = next.session.inflight.resends) :
    Replayable next := by
  refine ⟨?_, ?_, suffix, idle⟩
  · intro operation member
    rw [operations] at member
    rcases List.mem_append.mp member with old | new
    · exact replayable.sent operation old
    · exact sent operation new
  · intro entry member
    rw [operations]
    rcases held entry member with old | ⟨operation, new, same⟩
    · obtain ⟨operation, earlier, same⟩ := replayable.held entry old
      exact ⟨operation, List.mem_append_left _ earlier, same⟩
    · exact ⟨operation, List.mem_append_right _ new, same⟩

/-- A step that leaves publishes in flight alone and opens no publish. -/
private theorem congr (added : List Operation) (replayable : Replayable world)
    (operations : next.operations = world.operations ++ added)
    (other : ∀ operation ∈ added, operation.kind ≠ .publishQoS1)
    (publishes : next.session.inflight.publishQoS1 = world.session.inflight.publishQoS1)
    (replay : next.session.inflight.packetsToReplay = world.session.inflight.packetsToReplay)
    (idle : next.session.isConnected = false → world.session.isConnected = false) :
    Replayable next := by
  have resends : next.session.inflight.resends = world.session.inflight.resends := by
    simp only [InflightTracker.resends, publishes]
  refine replayable.extend added operations (fun operation member ofKind =>
    absurd ofKind (other operation member)) (fun entry member => .inl (publishes ▸ member)) ?_ ?_
  · rw [replay, resends]
    exact replayable.suffix
  · intro dead
    rw [replay, resends]
    exact replayable.idle (idle dead)

/-- A step that sends nothing and leaves publishes in flight alone. -/
private theorem quiet (replayable : Replayable world) (emissions : next.emissions = world.emissions)
    (publishes : next.session.inflight.publishQoS1 = world.session.inflight.publishQoS1)
    (replay : next.session.inflight.packetsToReplay = world.session.inflight.packetsToReplay)
    (idle : next.session.isConnected = false → world.session.isConnected = false) :
    Replayable next :=
  replayable.congr [] (by simp [World.operations, emissions]) (by simp) publishes
    replay idle

/-- A step that keeps some of the publishes in flight, with nothing to send again on a
connection or everything between connections. -/
private theorem shrink (replayable : Replayable world)
    (emissions : next.emissions = world.emissions)
    (kept : ∀ entry ∈ next.session.inflight.publishQoS1.entries,
      entry ∈ world.session.inflight.publishQoS1.entries)
    (replay : (next.session.isConnected = true ∧ next.session.inflight.packetsToReplay = []) ∨
      next.session.inflight.packetsToReplay = next.session.inflight.resends) :
    Replayable next := by
  refine replayable.extend [] (by simp [World.operations, emissions]) (by simp)
    (fun entry member => .inl (kept entry member)) ?_ ?_
  · rcases replay with ⟨_, empty⟩ | all
    · exact empty ▸ List.nil_suffix
    · exact all ▸ List.suffix_rfl
  · intro dead
    rcases replay with ⟨live, _⟩ | all
    · simp [dead] at live
    · exact all

theorem operations_afterPoll (world : World) (polls : List Readiness)
    (outgoing : Option Outgoing) (session : Session) (fired : List Firing) :
    (world.afterPoll polls outgoing session fired).operations =
      world.operations ++ outgoing.toList.filterMap
        (fun sent => (Emission.mk world.connections sent).operation?) := by
  simp [World.operations, World.afterPoll, List.filterMap_map]

theorem poll {polls : List Readiness} {session : Session} {fired : List Firing}
    {outgoing : Option Outgoing} (replayable : Replayable world)
    (live : world.session.isConnected = true)
    (effect : Session.PollEffect world.session outgoing session fired) :
    Replayable (world.afterPoll polls outgoing session fired) := by
  have operations := operations_afterPoll world polls outgoing session fired
  have stays : session.isConnected = true :=
    (congrArg Option.isSome effect.kept.1).trans live
  have dead : session.isConnected = false → world.session.isConnected = false :=
    fun idle => by simp [stays] at idle
  cases effect with
  | quiet outgoing after fired drained frame silent plain =>
    refine replayable.congr _ operations ?_ frame.publishQoS1 frame.packetsToReplay dead
    intro operation member
    obtain ⟨sent, isSent, opened⟩ := List.mem_filterMap.mp member
    simp [Emission.operation?, (plain sent (by simpa using isSent)).2.1] at opened
  | replay packet rest after head frame =>
    refine replayable.extend _ operations (by simp [Emission.operation?, Outgoing.opens]) ?_ ?_ ?_
    · intro entry member
      exact .inl (frame.publishQoS1 ▸ member)
    · have suffix := replayable.suffix
      rw [head] at suffix
      simp only [World.afterPoll, World.record, frame.packetsToReplay, InflightTracker.resends, frame.publishQoS1]
      exact (List.suffix_cons packet rest).trans suffix
    · intro idle
      simp [World.afterPoll, World.record, stays] at idle
  | subscribe notifier topicFilter options otherProperties rest pkid pool after drained head leased
      frame =>
    exact replayable.congr _ operations (by simp [Emission.operation?, Outgoing.opens])
      frame.publishQoS1 frame.packetsToReplay dead
  | unsubscribe notifier topicFilter otherProperties rest pkid pool after drained head leased
      frame =>
    exact replayable.congr _ operations (by simp [Emission.operation?, Outgoing.opens])
      frame.publishQoS1 frame.packetsToReplay dead
  | publishQoS2 request rest pkid pool after drained head leased frame =>
    exact replayable.congr _ operations (by simp [Emission.operation?, Outgoing.opens])
      frame.publishQoS1 frame.packetsToReplay dead
  | publishQoS1 request rest pkid pool after drained head leased frame =>
    refine replayable.extend _ operations ?_ ?_ ?_ ?_
    · simp [Emission.operation?, Outgoing.opens, Session.PublishRequest.packet]
    · intro entry member
      simp only [World.afterPoll, World.record, frame.publishQoS1] at member
      rcases IndexMap.mem_entries_insert member with rfl | old
      · exact .inr (by simp [Emission.operation?, Outgoing.opens])
      · exact .inl old
    · have empty : session.inflight.packetsToReplay = [] := frame.packetsToReplay.trans drained
      simp only [World.afterPoll, World.record, empty]
      exact List.nil_suffix
    · intro idle
      simp [World.afterPoll, World.record, stays] at idle

private theorem ended (replayable : Replayable world) (only : QoS1Only world.session)
    (disconnection : Disconnection) : Replayable (world.disconnected disconnection) := by
  rw [world.disconnected_eq]
  generalize disconnection.expiryInterval world.session = interval
  have list := only.replayList
  refine replayable.shrink rfl ?_ (.inr ?_)
  · intro entry member
    simp only [World.record, Session.ended, Session.expireIfZero] at member
    split at member
    · cases member
    · exact member
  · simp only [World.record, Session.ended, Session.expireIfZero]
    split
    · rfl
    · exact list

/-- What waits to be sent again stays in flight, as long as packets of the server are
handled only when nothing waits. -/
theorem step {event : Event} (replayable : Replayable world) (only : QoS1Only world.session)
    (drained : Drained world event) (stepped : world.step event = .ok next) :
    Replayable next := by
  cases World.step_cases stepped with
  | app event =>
    obtain ⟨emissions, _, _, _⟩ := world.app_history event
    obtain ⟨ch, same, _⟩ := world.app_session event
    refine replayable.quiet emissions ?_ ?_ ?_ <;> rw [same]
    exact id
  | elapse duration => exact replayable.quiet rfl rfl rfl id
  | refused => exact replayable
  | established connack keepAlive authMethod interval sessionPresent idle code =>
    cases sessionPresent with
    | true => exact replayable.quiet rfl rfl rfl (fun _ => idle)
    | false => exact replayable.shrink rfl (fun entry member => by cases member) (.inl ⟨rfl, rfl⟩)
  | polled polls outgoing session fired live polled =>
    exact replayable.poll live (Session.nextOutgoingPacket_effect polled)
  | acked ack handled live completed =>
    have final := (Session.completeInflight_spec completed).1
    refine replayable.shrink rfl ?_ (.inl ⟨?_, ?_⟩)
    · intro entry member
      simp only [World.record, final] at member
      cases ack with
      | pubAck packet => exact (IndexMap.mem_shiftRemove.mp member).1
      | _ => exact member
    · simp only [World.record, final]
      exact live
    · simp only [World.record, final]
      cases ack <;> exact drained
  | delivered publish next live delivered =>
    obtain ⟨emissions, _, _, _⟩ := World.incomingPublish_history delivered
    obtain ⟨ackRx, inApplication, same⟩ := World.incomingPublish_session delivered
    refine replayable.quiet emissions ?_ ?_ ?_ <;> rw [same]
    exact id
  | authenticated auth live =>
    obtain ⟨exchange, same⟩ := (world.session.incomingAuth_frame auth).1
    rw [same]
    exact replayable.quiet rfl rfl rfl id
  | ponged live =>
    obtain ⟨rest, same⟩ := (world.session.incomingPingresp_frame world.now).1
    rw [same]
    exact replayable.quiet rfl rfl rfl id
  | disconnected disconnection live => exact replayable.ended only disconnection

end Replayable

/-! ### Publishes that fired are not in flight -/

namespace World

/-- The notifiers of a kind that have yet to fire: in flight or in their channel. -/
def waiting (world : World) (kind : OpKind) : List Notifier :=
  (world.session.inflight.stored kind).map Prod.snd ++ world.session.ch.queued kind

end World

/-- What waits was issued once and has not fired. -/
structure Unfired (kind : OpKind) (world : World) : Prop where
  distinct : (world.waiting kind).Nodup
  issued : ∀ notifier ∈ world.waiting kind, notifier < world.fresh
  settled : ∀ record ∈ world.settled kind,
    record.1 < world.fresh ∧ record.1 ∉ world.waiting kind

namespace Unfired

variable {kind : OpKind} {world next : World}

theorem new (maxPkid : PacketIdentifier) (kind : OpKind) : Unfired kind (.new maxPkid) := by
  have empty : (World.new maxPkid).waiting kind = [] := by cases kind <;> rfl
  refine ⟨by simp [empty], by simp [empty], ?_⟩
  simp [World.settled, World.new]

/-- A step that fires nothing of the kind and lets no new notifier wait. -/
private theorem shrink (unfired : Unfired kind world) (fresh : world.fresh ≤ next.fresh)
    (distinct : (next.waiting kind).Nodup)
    (fewer : ∀ notifier ∈ next.waiting kind, notifier ∈ world.waiting kind)
    (settled : next.settled kind = world.settled kind) : Unfired kind next := by
  refine ⟨distinct, fun notifier member =>
    Nat.lt_of_lt_of_le (unfired.issued notifier (fewer notifier member)) fresh, ?_⟩
  intro record member
  rw [settled] at member
  obtain ⟨earlier, absent⟩ := unfired.settled record member
  exact ⟨Nat.lt_of_lt_of_le earlier fresh, fun waits => absent (fewer _ waits)⟩

theorem kindStep (unfired : Unfired kind world) (step : KindStep kind world next) :
    Unfired kind next := by
  cases step with
  | idle fresh queued stored opened settled =>
    have same : next.waiting kind = world.waiting kind := by
      simp only [World.waiting, queued, stored]
    exact unfired.shrink fresh (same ▸ unfired.distinct) (fun _ member => same ▸ member) settled
  | submit fresh queued stored opened settled =>
    have grown : next.waiting kind = world.waiting kind ++ [world.fresh] := by
      simp only [World.waiting, queued, stored, List.append_assoc]
    refine ⟨?_, ?_, ?_⟩
    · rw [grown, List.nodup_append]
      refine ⟨unfired.distinct, List.nodup_singleton _, ?_⟩
      intro notifier member other single same
      rw [List.mem_singleton] at single
      exact Nat.ne_of_lt (unfired.issued notifier member) (same.trans single)
    · intro notifier member
      rw [grown] at member
      rw [fresh]
      rcases List.mem_append.mp member with old | new
      · exact Nat.lt_succ_of_lt (unfired.issued notifier old)
      · rw [List.mem_singleton.mp new]
        exact Nat.lt_succ_self _
    · intro record member
      rw [settled] at member
      obtain ⟨earlier, absent⟩ := unfired.settled record member
      refine ⟨fresh ▸ Nat.lt_succ_of_lt earlier, ?_⟩
      rw [grown, List.mem_append, List.mem_singleton]
      rintro (waits | same)
      · exact absent waits
      · exact Nat.ne_of_lt earlier same
  | «open» operation ofKind current live emitted fresh queued stored opened settled =>
    have same : next.waiting kind = world.waiting kind := by
      simp [World.waiting, queued, stored]
    exact unfired.shrink (Nat.le_of_eq fresh.symm) (same ▸ unfired.distinct)
      (fun _ member => same ▸ member) settled
  | settle due record fresh queued stored opened settled legit =>
    have fewer : (next.waiting kind).Sublist (world.waiting kind) := by
      simp only [World.waiting, queued, stored]
      exact (List.filter_sublist.map _).append (List.Sublist.refl _)
    refine ⟨unfired.distinct.sublist fewer, ?_, ?_⟩
    · intro notifier member
      rw [fresh]
      exact unfired.issued notifier (fewer.subset member)
    · intro fired member
      rw [settled] at member
      rcases List.mem_append.mp member with old | new
      · obtain ⟨earlier, absent⟩ := unfired.settled fired old
        exact ⟨fresh ▸ earlier, fun waits => absent (fewer.subset waits)⟩
      · obtain ⟨entry, isDue, rfl⟩ := List.mem_map.mp new
        obtain ⟨held, due⟩ := List.mem_filter.mp isDue
        have waits : entry.2 ∈ world.waiting kind :=
          List.mem_append_left _ (List.mem_map_of_mem held)
        refine ⟨fresh ▸ unfired.issued entry.2 waits, ?_⟩
        have distinct := unfired.distinct
        rw [World.waiting, List.nodup_append] at distinct
        simp only [World.waiting, queued, stored, List.mem_append, not_or]
        constructor
        · intro remains
          obtain ⟨other, kept, same⟩ := List.mem_map.mp remains
          obtain ⟨otherHeld, notDue⟩ := List.mem_filter.mp kept
          have identical := List.inj_on_of_nodup_map distinct.1 otherHeld held same
          subst identical
          simp [due] at notDue
        · intro queuedStill
          exact distinct.2.2 entry.2 (List.mem_map_of_mem held) entry.2 queuedStill rfl

private theorem nodup_overwrite {left right later : List Notifier} {old new : Notifier}
    (distinct : (left ++ old :: right ++ new :: later).Nodup) :
    (left ++ new :: right ++ later).Nodup := by
  have moved : (left ++ new :: right ++ later).Perm (left ++ (right ++ new :: later)) := by
    rw [List.append_assoc, List.cons_append]
    exact List.perm_middle.symm.append_left left
  have fewer : (left ++ (right ++ new :: later)).Sublist (left ++ old :: right ++ new :: later) := by
    rw [List.append_assoc, List.cons_append]
    exact (List.sublist_cons_self old _).append_left left
  exact moved.nodup_iff.mpr (distinct.sublist fewer)

/-- A poll may overwrite an entry, but never lets a notifier wait twice. -/
private theorem poll {polls : List Readiness} {session : Session} {fired : List Firing}
    {outgoing : Option Outgoing} (unfired : Unfired .publishQoS1 world)
    (effect : Session.PollEffect world.session outgoing session fired) :
    Unfired .publishQoS1 (world.afterPoll polls outgoing session fired) := by
  have sameQueue : ∀ {before : Session}, Session.OpFrame before session →
      before.inflight.publishQoS1 = world.session.inflight.publishQoS1 →
      before.ch.oPubQ12Rx = world.session.ch.oPubQ12Rx →
      (world.afterPoll polls outgoing session fired).waiting .publishQoS1 =
        world.waiting .publishQoS1 := by
    intro before frame publishes requests
    simp only [World.waiting, World.afterPoll, World.record, InflightTracker.stored,
      Channels.queued, frame.publishQoS1, frame.oPubQ12Rx, publishes, requests]
  have ofSame : (∀ firing ∈ fired, firing.kind? = none) →
      (world.afterPoll polls outgoing session fired).waiting .publishQoS1 =
        world.waiting .publishQoS1 →
      Unfired .publishQoS1 (world.afterPoll polls outgoing session fired) :=
    fun silent same => unfired.shrink (Nat.le_refl _) (same ▸ unfired.distinct)
      (fun _ member => same ▸ member) (world.settled_afterPoll _ _ _ _ _ silent)
  cases effect with
  | quiet _ _ _ _ frame silent _ => exact ofSame silent (sameQueue frame rfl rfl)
  | replay _ _ _ _ frame => exact ofSame (by simp) (sameQueue frame rfl rfl)
  | subscribe _ _ _ _ _ _ _ _ _ _ _ frame => exact ofSame (by simp) (sameQueue frame rfl rfl)
  | unsubscribe _ _ _ _ _ _ _ _ _ _ frame => exact ofSame (by simp) (sameQueue frame rfl rfl)
  | publishQoS2 request rest pkid pool after drained head leased frame =>
    refine ofSame (by simp) ?_
    simp [World.waiting, World.afterPoll, World.record, InflightTracker.stored, Channels.queued,
      frame.publishQoS1, frame.oPubQ12Rx, head]
  | publishQoS1 request rest pkid pool after drained head leased frame =>
    have queued : world.session.ch.queued .publishQoS1 =
        request.notifier :: session.ch.queued .publishQoS1 := by
      simp [Channels.queued, head, frame.oPubQ12Rx]
    have stored : session.inflight.publishQoS1.entries =
        (world.session.inflight.publishQoS1.insert pkid
          (Session.PublishRequest.packet request (.atLeastOnce pkid false),
            request.notifier)).entries :=
      congrArg IndexMap.entries frame.publishQoS1
    by_cases present : pkid ∈ world.session.inflight.publishQoS1.keys
    · obtain ⟨old, heldOld⟩ := IndexMap.exists_of_mem_keys present
      obtain ⟨left, right, split, replaced⟩ := IndexMap.entries_insert_present heldOld
        (Session.PublishRequest.packet request (.atLeastOnce pkid false), request.notifier)
      rw [replaced] at stored
      have before : world.waiting .publishQoS1 =
          left.map (·.2.2) ++ old.2 :: right.map (·.2.2) ++
            request.notifier :: session.ch.queued .publishQoS1 := by
        simp [World.waiting, InflightTracker.stored, split, queued, Function.comp_def]
      have after : (world.afterPoll polls
          (some ⟨.publish (Session.PublishRequest.packet request (.atLeastOnce pkid false)),
            some (.publishRequest (.publishQoS1 request pkid))⟩) session []).waiting .publishQoS1 =
          left.map (·.2.2) ++ request.notifier :: right.map (·.2.2) ++
            session.ch.queued .publishQoS1 := by
        simp [World.waiting, World.afterPoll, World.record, InflightTracker.stored, stored,
          Function.comp_def]
      have distinct := unfired.distinct
      rw [before] at distinct
      refine unfired.shrink (Nat.le_refl _) (after ▸ nodup_overwrite distinct) ?_
        (world.settled_afterPoll _ _ _ _ _ (by simp))
      intro notifier member
      rw [after] at member
      rw [before]
      simp only [List.append_assoc, List.cons_append, List.mem_append, List.mem_cons] at member ⊢
      tauto
    · refine ofSame (by simp) ?_
      rw [IndexMap.entries_insert_fresh present] at stored
      simp [World.waiting, World.afterPoll, World.record, InflightTracker.stored, stored, queued]

theorem step {event : Event} (unfired : Unfired .publishQoS1 world)
    (stepped : world.step event = .ok next) : Unfired .publishQoS1 next := by
  by_cases isPoll : ∃ polls, event = .poll polls
  · obtain ⟨polls, rfl⟩ := isPoll
    cases World.step_cases stepped with
    | polled _ outgoing session fired live polled =>
      exact unfired.poll (Session.nextOutgoingPacket_effect polled)
  · exact unfired.kindStep (KindStep.ofStep
      (fun polls same => absurd ⟨polls, same⟩ isPoll) stepped)

end Unfired

end MqttClient.Client
