import MqttClient.Client.Delivery

/-! What a server that answers what it received gets from the client, over whole runs. -/

namespace MqttClient.Client

open MqttClient.Proto

/-- The packet is that of the operation: as it was sent first, or marked as a repetition on
a later connection. -/
structure Sending.Carries (sending : Sending) (connection : Nat) (operation : Operation) :
    Prop where
  kind : sending.kind = operation.kind
  pkid : sending.pkid = operation.pkid
  notifier : sending.notifier = operation.notifier
  packet : (connection = operation.connection ∧ sending.packet = operation.packet) ∨
    (operation.connection < connection ∧ operation.kind = .publishQoS1 ∧
      sending.packet = Packet.setDup operation.packet)

/-- Everything on its way between the client and the server. -/
def System.wire (system : System) : List Sending :=
  system.toServer ++ system.owed ++ system.toClient.map Reply.sending

structure System.Consistent (system : System) : Prop where
  disciplined : Disciplined system.world.session
  only : QoS1Only system.world.session
  replayable : Replayable system.world
  sent : ∀ sending ∈ system.toServer, ∃ operation ∈ system.world.operations,
    sending.Carries system.world.connections operation
  got : ∀ receipt ∈ system.received, ∃ operation ∈ system.world.operations,
    receipt.sending.Carries receipt.connection operation
  held : system.world.session.isConnected = true → ∀ sending ∈ system.wire,
    (sending.pkid, sending.notifier) ∈ system.world.session.inflight.stored sending.kind
  matched : ∀ answer ∈ system.toClient, answer.ack.answers answer.sending = true
  sound : ∀ kind, (system.courier kind).Sound
  delivered : ∀ kind, (system.courier kind).Delivered

/-! ### The client handles an acknowledgement -/

theorem InflightTracker.stored_keys_nodup (inflight : InflightTracker) (kind : OpKind) :
    ((inflight.stored kind).map Prod.fst).Nodup := by
  rw [← InflightTracker.keys_eq_map_stored]
  cases kind with
  | publishQoS1 => exact inflight.publishQoS1.keys_nodup
  | publishQoS2 => exact inflight.publishQoS2.keys_nodup
  | subscribe => exact inflight.subscribe.keys_nodup
  | unsubscribe => exact inflight.unsubscribe.keys_nodup

/-- Dropping a key drops its ticket. -/
private theorem map_snd_filter_key {K : Type} [DecidableEq K] {entries : List (K × Nat)} {key : K}
    {ticket : Nat} (keys : (entries.map Prod.fst).Nodup) (tickets : (entries.map Prod.snd).Nodup)
    (member : (key, ticket) ∈ entries) :
    (entries.filter (fun entry => !(entry.1 == key))).map Prod.snd =
      (entries.map Prod.snd).erase ticket := by
  rw [tickets.erase_eq_filter, List.filter_map]
  congr 1
  apply List.filter_congr
  intro entry here
  have together : entry.1 = key ↔ entry.2 = ticket := by
    constructor
    · intro same
      exact congrArg Prod.snd (List.inj_on_of_nodup_map keys here member same)
    · intro same
      exact congrArg Prod.fst (List.inj_on_of_nodup_map tickets here member same)
  rw [Bool.eq_iff_iff]
  simpa using not_congr together

/-- The entries with a key are the one that has it. -/
private theorem filter_key_eq {K V : Type} [DecidableEq K] {entries : List (K × V)} {key : K}
    {value : V} (keys : (entries.map Prod.fst).Nodup) (member : (key, value) ∈ entries) :
    entries.filter (fun entry => entry.1 == key) = [(key, value)] := by
  obtain ⟨early, late, rfl⟩ := List.append_of_mem member
  have others : ∀ entry ∈ early ++ late, ¬ (entry.1 == key) = true := by
    intro entry here same
    have moved := (List.perm_middle.map Prod.fst).nodup_iff.mp keys
    rw [List.map_cons, List.nodup_cons] at moved
    exact moved.1 (List.mem_map.mpr ⟨entry, here, beq_iff_eq.mp same⟩)
  rw [List.filter_append, List.filter_cons_of_pos (by simp),
    List.filter_eq_nil_iff.mpr fun entry here => others entry (List.mem_append_left _ here),
    List.filter_eq_nil_iff.mpr fun entry here => others entry (List.mem_append_right _ here)]
  rfl

/-- The last elements of a list stay the last ones when others are dropped. -/
private theorem drop_filter_last {α : Type} {list : List α} {count : Nat} {keep : α → Bool}
    (bound : count ≤ list.length) (kept : ∀ item ∈ list.drop (list.length - count), keep item) :
    (list.filter keep).drop ((list.filter keep).length - count) =
      list.drop (list.length - count) := by
  have last : (list.drop (list.length - count)).length = count := by
    rw [List.length_drop]
    omega
  have split : list.filter keep =
      (list.take (list.length - count)).filter keep ++ list.drop (list.length - count) := by
    conv_lhs => rw [← List.take_append_drop (list.length - count) list, List.filter_append]
    rw [List.filter_eq_self.mpr kept]
  rw [split, List.length_append, last, Nat.add_sub_cancel, List.drop_left]

theorem InflightTracker.replaying_shiftRemove {inflight : InflightTracker}
    {pkid : PacketIdentifier}
    (bound : inflight.packetsToReplay.length ≤ inflight.publishQoS1.entries.length)
    (apart : ∀ entry ∈ inflight.replaying, entry.1 ≠ pkid) :
    ({ inflight with publishQoS1 := inflight.publishQoS1.shiftRemove pkid } :
      InflightTracker).replaying = inflight.replaying := by
  refine drop_filter_last bound fun entry member => ?_
  simpa using apart entry member

theorem InflightTracker.suffix_of_replaying {inflight : InflightTracker}
    (same : inflight.packetsToReplay =
      inflight.replaying.map fun entry => .publish (Publish.setDup entry.2.1)) :
    inflight.packetsToReplay <:+ inflight.resends := by
  rw [same, InflightTracker.resends, IndexMap.values, List.map_map]
  exact (List.drop_suffix _ _).map _

theorem Acknowledgement.kind?_fire (ack : Acknowledgement) (notifier : Notifier) :
    (ack.fire notifier).kind? = some ack.kind := by
  cases ack <;> rfl

namespace System.Consistent

variable {system : System}

theorem places_nodup (consistent : system.Consistent)
    (live : system.world.session.isConnected = true) (kind : OpKind) :
    (Sending.notifiers kind system.wire ++ system.world.session.inflight.waiting kind).Nodup := by
  have distinct := (consistent.sound kind).places_nodup live
  simpa [System.wire, System.courier] using distinct

variable {answer : Reply} {rest : List Reply}

/-- The oldest acknowledgement answers an operation in flight. -/
theorem answered (consistent : system.Consistent)
    (live : system.world.session.isConnected = true) (head : system.toClient = answer :: rest) :
    (answer.sending.pkid, answer.sending.notifier) ∈
        system.world.session.inflight.stored answer.sending.kind ∧
      answer.ack.kind = answer.sending.kind ∧
      answer.ack.packetIdentifier = answer.sending.pkid := by
  have matched := consistent.matched answer (head ▸ List.mem_cons_self)
  simp only [Acknowledgement.answers, Bool.and_eq_true, beq_iff_eq] at matched
  refine ⟨consistent.held live answer.sending ?_, matched.1, matched.2⟩
  simp [System.wire, head]

/-- What is answered does not wait to be sent again. -/
theorem answered_apart (consistent : system.Consistent)
    (live : system.world.session.isConnected = true) (head : system.toClient = answer :: rest)
    (publish : answer.ack.kind = .publishQoS1) :
    ∀ entry ∈ system.world.session.inflight.replaying,
      entry.1 ≠ answer.ack.packetIdentifier := by
  obtain ⟨stored, kind, pkid⟩ := consistent.answered live head
  intro entry waits same
  have held : (entry.1, entry.2.2) ∈
      system.world.session.inflight.stored .publishQoS1 :=
    List.mem_map.mpr ⟨entry, InflightTracker.mem_of_mem_replaying waits, rfl⟩
  rw [← kind, publish] at stored
  have identical := List.inj_on_of_nodup_map
    (system.world.session.inflight.stored_keys_nodup .publishQoS1) held stored
    (same.trans pkid)
  have distinct := consistent.places_nodup live .publishQoS1
  rw [List.nodup_append] at distinct
  refine distinct.2.2 answer.sending.notifier ?_ entry.2.2 ?_ (congrArg Prod.snd identical).symm
  · refine List.mem_map.mpr ⟨answer.sending, List.mem_filter.mpr ⟨?_, ?_⟩, rfl⟩
    · simp [System.wire, head]
    · simp [← kind, publish]
  · rw [InflightTracker.waiting, if_pos rfl]
    exact List.mem_map.mpr ⟨entry, waits, rfl⟩

theorem bound (consistent : system.Consistent) :
    system.world.session.inflight.packetsToReplay.length ≤
      system.world.session.inflight.publishQoS1.entries.length := by
  have length := consistent.replayable.suffix.length_le
  simpa [InflightTracker.resends, IndexMap.values] using length

/-- An acknowledgement leaves what waits to be sent again as it is. -/
theorem replaying_acked (consistent : system.Consistent)
    (live : system.world.session.isConnected = true) (head : system.toClient = answer :: rest) :
    (answer.ack.removeFrom system.world.session.inflight).replaying =
      system.world.session.inflight.replaying := by
  have apart := consistent.answered_apart live head
  cases ack : answer.ack with
  | pubAck packet =>
    rw [ack] at apart
    exact InflightTracker.replaying_shiftRemove consistent.bound (apart rfl)
  | _ => rfl

theorem courier_take {handled : Handled} (consistent : system.Consistent)
    (live : system.world.session.isConnected = true) (head : system.toClient = answer :: rest)
    (completed : system.world.session.completeInflight answer.ack.operation = .ok handled)
    (kind : OpKind) :
    Courier.Step (system.courier kind)
      (({ system with
          world := system.world.record (.incoming (.ack answer.ack)) handled.session handled.fired
          toClient := rest } : System).courier kind) := by
  obtain ⟨held, ofKind, pkid⟩ := consistent.answered live head
  obtain ⟨session, fired⟩ := Session.completeInflight_spec completed
  have stored : handled.session.inflight.stored kind =
      (answer.ack.removeFrom system.world.session.inflight).stored kind := by rw [session]
  have waiting : handled.session.inflight.waiting kind =
      system.world.session.inflight.waiting kind := by
    rw [session]
    simp only [InflightTracker.waiting, consistent.replaying_acked live head]
  have connected : handled.session.isConnected = system.world.session.isConnected := by
    rw [session]
    rfl
  have queued : handled.session.ch.queued kind = system.world.session.ch.queued kind := by
    rw [session]
  have done := system.world.completed_record (.incoming (.ack answer.ack)) handled.session
    handled.fired kind
  have gone := system.world.cancelled_record (.incoming (.ack answer.ack)) handled.session
    handled.fired kind
  rw [answer.ack.stored_removeFrom] at stored
  by_cases own : kind = answer.ack.kind
  · have same : answer.sending.kind = kind := by rw [own, ofKind]
    subst same
    have tickets : ((system.world.session.inflight.stored answer.sending.kind).map
        Prod.snd).Nodup := (consistent.sound answer.sending.kind).held_nodup
    have keys := system.world.session.inflight.stored_keys_nodup answer.sending.kind
    rw [if_pos own, pkid] at stored
    have erased := map_snd_filter_key keys tickets held
    rw [← stored] at erased
    rw [← own, pkid, filter_key_eq keys held] at fired
    have due : handled.fired.filter
        (fun firing => decide (firing.kind? = some answer.sending.kind)) =
        [answer.ack.fire answer.sending.notifier] := by
      rw [fired]
      simp [answer.ack.kind?_fire, own]
    rw [due] at done gone
    simp only [List.filter_cons, List.filter_nil, Acknowledgement.isCancel_fire, Bool.not_false,
      Bool.false_eq_true, if_true, if_false, List.map_cons, List.map_nil,
      Acknowledgement.notifier_fire, List.append_nil] at done gone
    have step := Courier.Step.complete (system.courier answer.sending.kind)
      answer.sending.notifier (Sending.notifiers answer.sending.kind (rest.map Reply.sending)) live
      (by simp [System.courier, head, Sending.notifiers_cons])
    simp only [System.courier, done, gone] at step ⊢
    simp only [World.record, queued, waiting, erased, connected]
    exact step
  · have other : answer.sending.kind ≠ kind := by
      intro same
      exact own (by rw [ofKind, same])
    rw [if_neg own] at stored
    have silent : handled.fired.filter (fun firing => decide (firing.kind? = some kind)) = [] := by
      rw [fired, List.filter_eq_nil_iff]
      intro firing member
      obtain ⟨entry, _, rfl⟩ := List.mem_map.mp member
      simpa [answer.ack.kind?_fire, eq_comm] using own
    simp only [silent, List.filter_nil, List.map_nil, List.append_nil] at done gone
    have step := Courier.Step.wait (system.courier kind) system.world.fresh (Nat.le_refl _)
    simp only [System.courier, done, gone, head, List.map_cons, Sending.notifiers_cons,
      if_neg other, List.nil_append] at step ⊢
    simp only [World.record, queued, waiting, stored, connected]
    exact step

theorem couriers {next : System} (consistent : system.Consistent)
    (steps : ∀ kind, Courier.Step (system.courier kind) (next.courier kind)) :
    (∀ kind, (next.courier kind).Sound) ∧ ∀ kind, (next.courier kind).Delivered :=
  ⟨fun kind => (consistent.sound kind).step (steps kind),
    fun kind => (consistent.delivered kind).step (consistent.sound kind) (steps kind)⟩

/-- What is on its way besides the acknowledgement stays in flight. -/
private theorem held_acked (consistent : system.Consistent)
    (live : system.world.session.isConnected = true) (head : system.toClient = answer :: rest)
    {sending : Sending}
    (member : sending ∈ system.toServer ++ system.owed ++ rest.map Reply.sending) :
    (sending.pkid, sending.notifier) ∈
      (answer.ack.removeFrom system.world.session.inflight).stored sending.kind := by
  obtain ⟨held, ofKind, pkid⟩ := consistent.answered live head
  have onWire : sending ∈ system.wire := by
    simp only [System.wire, head, List.map_cons, List.mem_append, List.mem_cons] at member ⊢
    tauto
  have before := consistent.held live sending onWire
  rw [answer.ack.stored_removeFrom]
  split
  · rename_i own
    have same : answer.sending.kind = sending.kind := by rw [← ofKind, own]
    have apart : sending.notifier ≠ answer.sending.notifier := by
      intro equal
      have here : sending.notifier ∈ Sending.notifiers sending.kind
          (system.toServer ++ system.owed ++ rest.map Reply.sending) :=
        List.mem_map.mpr ⟨sending, List.mem_filter.mpr ⟨member, by simp⟩, rfl⟩
      have distinct := (consistent.places_nodup live sending.kind).of_append_left
      simp only [System.wire, head, List.map_cons, Sending.notifiers_append,
        Sending.notifiers_cons, if_pos same, List.singleton_append] at distinct here
      rw [List.perm_middle.nodup_iff, List.nodup_cons] at distinct
      exact distinct.1 (equal ▸ here)
    have different : sending.pkid ≠ answer.ack.packetIdentifier := by
      intro equal
      rw [same] at held
      have identical := List.inj_on_of_nodup_map
        (system.world.session.inflight.stored_keys_nodup sending.kind) before held
        (equal.trans pkid)
      exact apart (congrArg Prod.snd identical)
    exact List.mem_filter.mpr ⟨before, by simpa using different⟩
  · exact before

private theorem replayable_acked {next : World} (consistent : system.Consistent)
    (live : system.world.session.isConnected = true) (head : system.toClient = answer :: rest)
    (emissions : next.emissions = system.world.emissions)
    (inflight : next.session.inflight = answer.ack.removeFrom system.world.session.inflight)
    (connected : next.session.isConnected = true) : Replayable next := by
  have replaying := consistent.replaying_acked live head
  have operations : next.operations = system.world.operations := by
    simp only [World.operations, emissions]
  have list : (answer.ack.removeFrom system.world.session.inflight).packetsToReplay =
      system.world.session.inflight.packetsToReplay := by
    cases answer.ack <;> rfl
  refine ⟨operations ▸ consistent.replayable.sent, ?_, ?_, ?_⟩
  · intro entry member
    rw [operations]
    rw [inflight] at member
    refine consistent.replayable.held entry ?_
    cases ack : answer.ack with
    | pubAck packet =>
      rw [ack] at member
      exact (IndexMap.mem_shiftRemove.mp member).1
    | _ =>
      rw [ack] at member
      exact member
  · rw [inflight]
    apply InflightTracker.suffix_of_replaying
    rw [list, replaying]
    exact InflightTracker.packetsToReplay_eq consistent.replayable.suffix
  · intro dead
    simp [connected] at dead

theorem take {next : World} (consistent : system.Consistent)
    (head : system.toClient = answer :: rest)
    (stepped : system.world.step (.incoming (.ack answer.ack)) = .ok next) :
    ({ system with world := next, toClient := rest } : System).Consistent := by
  have only := consistent.only.step stepped
  have disciplined := consistent.disciplined.step_iff stepped
  cases World.step_cases stepped with
  | acked ack handled live completed =>
    obtain ⟨held, ofKind, pkid⟩ := consistent.answered live head
    obtain ⟨session, _⟩ := Session.completeInflight_spec completed
    obtain ⟨sound, delivered⟩ := consistent.couriers (consistent.courier_take live head completed)
    have inflight : handled.session.inflight =
        answer.ack.removeFrom system.world.session.inflight := by rw [session]
    have connected : handled.session.isConnected = true := by rw [session]; exact live
    have owner : answer.ack.packetIdentifier ∈
        system.world.session.inflight.keys answer.ack.kind := by
      rw [InflightTracker.keys_eq_map_stored, ofKind, pkid]
      exact List.mem_map_of_mem held
    refine ⟨disciplined.mpr ?_, only,
      consistent.replayable_acked live head rfl inflight connected, consistent.sent,
      consistent.got, ?_, ?_, sound, delivered⟩
    · intro _ kind other member
      exact consistent.disciplined.disjoint kind answer.ack.kind _ other member owner
    · intro _ sending member
      simp only [World.record, inflight]
      exact consistent.held_acked live head member
    · intro other member
      exact consistent.matched other (head ▸ List.mem_cons_of_mem _ member)

/-! ### Everything else the client does -/

theorem calm {next : World} {event : Event} (consistent : system.Consistent)
    (stepped : system.world.step event = .ok next) (noAck : event.isAck = false)
    (calm : Calm system.world next) : (system.advance next).Consistent := by
  have own : ReleasesOwnAt system.world event := by
    unfold ReleasesOwnAt
    split
    · cases noAck
    · trivial
  have operations : next.operations = system.world.operations := by
    simp only [World.operations, calm.emissions]
  have resends : next.session.inflight.resends = system.world.session.inflight.resends := by
    simp only [InflightTracker.resends, calm.publishQoS1]
  obtain ⟨sound, delivered⟩ := consistent.couriers fun kind =>
    System.courier_calm (.ofStep (fun _ _ => consistent.disciplined) stepped) calm
  rw [system.advance_silent next calm.same.connections calm.emissions] at sound delivered ⊢
  refine ⟨(consistent.disciplined.step_iff stepped).mpr own, consistent.only.step stepped,
    ⟨?_, ?_, ?_, ?_⟩, ?_, ?_, ?_, consistent.matched, sound, delivered⟩
  · exact operations ▸ consistent.replayable.sent
  · rw [operations, calm.publishQoS1]
    exact consistent.replayable.held
  · rw [calm.packetsToReplay, resends]
    exact consistent.replayable.suffix
  · rw [calm.packetsToReplay, resends, calm.same.isConnected]
    exact consistent.replayable.idle
  · rw [operations, calm.same.connections]
    exact consistent.sent
  · exact operations ▸ consistent.got
  · intro live sending member
    rw [calm.stored]
    exact consistent.held (calm.same.isConnected ▸ live) sending member

/-- What a poll sends carries an operation, which is in flight afterwards. -/
private theorem poll_carries {after : Session} {opened : List Operation}
    {emitted : List Sending} (consistent : system.Consistent)
    (live : system.world.session.isConnected = true)
    (sends : PollSends system.world after opened emitted) :
    (∀ sending ∈ emitted, ∃ operation ∈ system.world.operations ++ opened,
      sending.Carries system.world.connections operation) ∧
    (∀ sending ∈ emitted,
      (sending.pkid, sending.notifier) ∈ after.inflight.stored sending.kind) ∧
    ∀ kind entry, entry ∈ system.world.session.inflight.stored kind →
      entry ∈ after.inflight.stored kind := by
  cases sends with
  | quiet queued stored waiting =>
    exact ⟨by simp, by simp, fun kind entry member => stored kind ▸ member⟩
  | resent entry held queued stored head =>
    have filed : (entry.1, entry.2.2) ∈
        system.world.session.inflight.stored .publishQoS1 := List.mem_map.mpr ⟨entry, held, rfl⟩
    refine ⟨?_, ?_, fun kind entry member => stored kind ▸ member⟩
    · intro sending member
      rw [List.mem_singleton.mp member]
      obtain ⟨operation, sent, kind, key, named, packet⟩ := consistent.replayable.held entry held
      have earlier := (consistent.sound .publishQoS1).earlier live
        (operation.connection, operation.notifier)
        (List.mem_map.mpr ⟨operation, List.mem_filter.mpr ⟨sent, by simp [kind]⟩, rfl⟩) (by
          simp only [System.courier, InflightTracker.waiting, if_true, head]
          simp [named])
      refine ⟨operation, List.mem_append_left _ sent, kind.symm, key.symm, named.symm, .inr ?_⟩
      exact ⟨earlier, kind, by rw [packet]; rfl⟩
    · intro sending member
      rw [List.mem_singleton.mp member, stored]
      exact filed
  | opened operation current queued stored drained still =>
    refine ⟨?_, ?_, ?_⟩
    · intro sending member
      rw [List.mem_singleton.mp member]
      exact ⟨operation, by simp, rfl, rfl, rfl, .inl ⟨current.symm, rfl⟩⟩
    · intro sending member
      rw [List.mem_singleton.mp member, stored]
      simp
    · intro kind entry member
      rw [stored]
      exact List.mem_append_left _ member

theorem polled {polls : List Readiness} {outgoing : Option Outgoing} {session : Session}
    {fired : List Firing} (consistent : system.Consistent)
    (live : system.world.session.isConnected = true)
    (polled : system.world.session.nextOutgoingPacket system.world.now polls =
      .ok (outgoing, session, fired)) :
    (system.advance (system.world.afterPoll polls outgoing session fired)).Consistent := by
  have effect := Session.nextOutgoingPacket_effect polled
  have sends := PollSends.ofEffect consistent.disciplined consistent.replayable effect
  have operations := Replayable.operations_afterPoll system.world polls outgoing session fired
  obtain ⟨carried, filed, kept⟩ := consistent.poll_carries live sends
  have steps : ∀ kind, Courier.Step (system.courier kind)
      ((system.advance (system.world.afterPoll polls outgoing session fired)).courier kind) :=
    System.courier_poll consistent.disciplined consistent.replayable live effect
  obtain ⟨sound, delivered⟩ := consistent.couriers steps
  rw [System.advance_poll] at sound delivered ⊢
  refine ⟨consistent.disciplined.poll effect, consistent.only.poll polled,
    consistent.replayable.poll live effect, ?_, ?_, ?_, consistent.matched, sound, delivered⟩
  · intro sending member
    simp only [operations]
    rcases List.mem_append.mp member with old | new
    · obtain ⟨operation, sent, carries⟩ := consistent.sent sending old
      exact ⟨operation, List.mem_append_left _ sent, carries⟩
    · exact carried sending new
  · intro receipt member
    simp only [operations]
    obtain ⟨operation, sent, carries⟩ := consistent.got receipt member
    exact ⟨operation, List.mem_append_left _ sent, carries⟩
  · intro _ sending member
    simp only [System.wire, List.mem_append] at member
    have split : sending ∈ system.wire ∨
        sending ∈ outgoing.toList.flatMap fun sent => session.sendings sent.packet := by
      simp only [System.wire, List.mem_append]
      tauto
    rcases split with old | new
    · exact kept _ _ (consistent.held live sending old)
    · exact filed sending new

theorem established {connack : ConnAck} {keepAlive : KeepAlive} {authMethod : Option Bytes}
    {interval : SessionExpiryInterval} {sessionPresent : Bool} (consistent : system.Consistent)
    (idle : system.world.session.isConnected = false)
    (stepped : system.world.step (.connack connack keepAlive authMethod interval) =
      .ok (system.world.established connack keepAlive authMethod interval sessionPresent)) :
    (system.advance (system.world.established connack keepAlive authMethod interval
      sessionPresent)).Consistent := by
  have steps : ∀ kind, Courier.Step (system.courier kind)
      ((system.advance (system.world.established connack keepAlive authMethod interval
        sessionPresent)).courier kind) := fun kind =>
    System.courier_established (consistent.sound kind) consistent.replayable consistent.only idle
  obtain ⟨sound, delivered⟩ := consistent.couriers steps
  have fresh : system.advance (system.world.established connack keepAlive authMethod interval
      sessionPresent) =
      { world := system.world.established connack keepAlive authMethod interval sessionPresent
        received := system.received } :=
    if_neg (by simp [World.established, World.connections])
  have drained : Drained system.world (.connack connack keepAlive authMethod interval) := trivial
  rw [fresh] at sound delivered ⊢
  exact ⟨consistent.disciplined.established, consistent.only.step stepped,
    consistent.replayable.step consistent.only drained stepped, by simp, consistent.got,
    by simp [System.wire], by simp, sound, delivered⟩

theorem ended (consistent : system.Consistent)
    (live : system.world.session.isConnected = true) (disconnection : Disconnection) :
    (system.advance (system.world.disconnected disconnection)).Consistent := by
  have stepped : system.world.step (.disconnected disconnection) =
      .ok (system.world.disconnected disconnection) :=
    World.disconnected_step live disconnection
  have drained : Drained system.world (.disconnected disconnection) := trivial
  have dead := system.world.disconnected_isConnected disconnection
  obtain ⟨sound, delivered⟩ := consistent.couriers fun kind =>
    System.courier_ended consistent.only live disconnection
  have connections : (system.world.disconnected disconnection).connections =
      system.world.connections := by
    rw [system.world.disconnected_eq]
    rfl
  have emissions : (system.world.disconnected disconnection).emissions =
      system.world.emissions := by
    rw [system.world.disconnected_eq]
    rfl
  have operations : (system.world.disconnected disconnection).operations =
      system.world.operations := by
    simp only [World.operations, emissions]
  rw [system.advance_silent _ connections emissions] at sound delivered ⊢
  refine ⟨consistent.disciplined.ended disconnection, consistent.only.step stepped,
    consistent.replayable.step consistent.only drained stepped, ?_, ?_, ?_, consistent.matched,
    sound, delivered⟩
  · simp only [operations, connections]
    exact consistent.sent
  · simp only [operations]
    exact consistent.got
  · simp [dead]

theorem client {next : World} {event : Event} (consistent : system.Consistent)
    (stepped : system.world.step event = .ok next) (noAck : event.isAck = false) :
    (system.advance next).Consistent := by
  have ofCalm : (∀ polls, event ≠ .poll polls) → (∀ connack keepAlive authMethod interval,
      event ≠ .connack connack keepAlive authMethod interval) →
      (∀ disconnection, event ≠ .disconnected disconnection) →
      (system.advance next).Consistent := fun noPoll noOpen noEnd =>
    consistent.calm stepped noAck (World.step_calm stepped noPoll noOpen noEnd noAck)
  cases World.step_cases stepped with
  | refused => exact consistent.calm stepped noAck (.refl _)
  | established connack keepAlive authMethod interval sessionPresent idle code =>
    exact consistent.established idle stepped
  | polled polls outgoing session fired live polled => exact consistent.polled live polled
  | disconnected disconnection live => exact consistent.ended live disconnection
  | _ => exact ofCalm (by simp) (by simp) (by simp)

/-! ### The network and the server -/

theorem receive {sending : Sending} {later : List Sending} (consistent : system.Consistent)
    (head : system.toServer = sending :: later) :
    ({ system with
        toServer := later
        owed := system.owed ++ [sending]
        received := system.received ++ [⟨system.world.connections, sending⟩] } :
          System).Consistent := by
  obtain ⟨sound, delivered⟩ := consistent.couriers fun kind => System.courier_receive head
  refine ⟨consistent.disciplined, consistent.only, consistent.replayable, ?_, ?_, ?_,
    consistent.matched, sound, delivered⟩
  · exact fun other member => consistent.sent other (head ▸ List.mem_cons_of_mem _ member)
  · intro receipt member
    rcases List.mem_append.mp member with old | new
    · exact consistent.got receipt old
    · rw [List.mem_singleton.mp new]
      exact consistent.sent sending (head ▸ List.mem_cons_self)
  · intro live other member
    refine consistent.held live other ?_
    simp only [System.wire, head, List.mem_append, List.mem_cons, List.not_mem_nil] at member ⊢
    tauto

theorem reply {ack : Acknowledgement} {sending : Sending} (consistent : system.Consistent)
    (owed : sending ∈ system.owed) (answers : ack.answers sending = true) :
    ({ system with
        owed := system.owed.erase sending
        toClient := system.toClient ++ [⟨ack, sending⟩] } : System).Consistent := by
  obtain ⟨sound, delivered⟩ := consistent.couriers fun kind => System.courier_answer owed
  refine ⟨consistent.disciplined, consistent.only, consistent.replayable, consistent.sent,
    consistent.got, ?_, ?_, sound, delivered⟩
  · intro live other member
    refine consistent.held live other ?_
    simp only [System.wire, List.map_append, List.map_cons, List.map_nil, List.mem_append,
      List.mem_singleton] at member ⊢
    rcases member with (moving | kept) | old | rfl
    · exact .inl (.inl moving)
    · exact .inl (.inr (List.mem_of_mem_erase kept))
    · exact .inr old
    · exact .inl (.inr owed)
  · intro other member
    rcases List.mem_append.mp member with old | new
    · exact consistent.matched other old
    · rw [List.mem_singleton.mp new]
      exact answers

theorem step {next : System} {event : SystemEvent} (consistent : system.Consistent)
    (stepped : system.step event = .ok next) : next.Consistent := by
  cases event with
  | client event =>
    simp only [System.step] at stepped
    cases noAck : event.isAck with
    | true => simp [noAck] at stepped
    | false =>
      simp only [noAck, Bool.false_eq_true, if_false] at stepped
      cases inner : system.world.step event with
      | error stop => simp [inner, Except.map] at stepped
      | ok world =>
        simp only [inner, Except.map, Except.ok.injEq] at stepped
        exact stepped ▸ consistent.client inner noAck
  | receive =>
    simp only [System.step] at stepped
    split at stepped
    · cases stepped
    · rename_i sending later head
      cases stepped
      exact consistent.receive head
  | answer ack =>
    simp only [System.step] at stepped
    split at stepped
    · cases stepped
    · rename_i sending found
      cases stepped
      exact consistent.reply (List.mem_of_find?_eq_some found) (List.find?_some found)
  | take =>
    simp only [System.step] at stepped
    split at stepped
    · cases stepped
    · rename_i answer rest head
      cases inner : system.world.step (.incoming (.ack answer.ack)) with
      | error stop => simp [inner, Except.map] at stepped
      | ok world =>
        simp only [inner, Except.map, Except.ok.injEq] at stepped
        exact stepped ▸ consistent.take head inner

theorem new (maxPkid : PacketIdentifier) : (System.new maxPkid).Consistent where
  disciplined := disciplined_new maxPkid
  only := .new maxPkid
  replayable := .new maxPkid
  sent := by simp [System.new]
  got := by simp [System.new]
  held := by simp [System.new, System.wire]
  matched := by simp [System.new]
  sound := fun kind => by cases kind <;> exact Courier.Sound.empty
  delivered := fun kind => by cases kind <;> exact Courier.Delivered.empty

/-- A notifier names one operation of its kind. -/
theorem operation_unique (consistent : system.Consistent) {left right : Operation}
    (first : left ∈ system.world.operations) (second : right ∈ system.world.operations)
    (kind : left.kind = right.kind) (notifier : left.notifier = right.notifier) : left = right := by
  have ordered := (List.pairwise_append.mp (consistent.sound right.kind).ordered).1
  have distinct := ordered.imp Nat.ne_of_lt
  simp only [System.courier, List.map_map] at distinct
  exact List.inj_on_of_nodup_map (f := Prod.snd ∘ fun operation : Operation =>
      (operation.connection, operation.notifier)) distinct
    (List.mem_filter.mpr ⟨first, by simp [kind]⟩) (List.mem_filter.mpr ⟨second, by simp⟩) notifier

/-- What was received of a kind carries the operations of the kind. -/
theorem receipt_of_ticket (consistent : system.Consistent) {kind : OpKind} {ticket : Nat}
    (received : ticket ∈ (system.courier kind).received.map Prod.snd) :
    ∃ operation ∈ system.world.operations, operation.kind = kind ∧ operation.notifier = ticket ∧
      ∃ receipt ∈ system.received, receipt.sending.Carries receipt.connection operation := by
  simp only [System.courier, List.map_map, List.mem_map, List.mem_filter, beq_iff_eq] at received
  obtain ⟨receipt, ⟨member, ofKind⟩, same⟩ := received
  obtain ⟨operation, sent, carries⟩ := consistent.got receipt member
  exact ⟨operation, sent, carries.kind.symm.trans ofKind, carries.notifier.symm.trans same,
    receipt, member, carries⟩

end System.Consistent

theorem System.consistent_run {maxPkid : PacketIdentifier} {events : List SystemEvent}
    {system : System} (ran : System.run (.new maxPkid) events = .ok system) :
    system.Consistent :=
  Transition.exec_always System.Consistent (.new maxPkid)
    (fun _ _ _ consistent stepped => consistent.step stepped) ran

/-- An operation completes only after the server received its packet. -/
theorem delivery_acknowledged (maxPkid : PacketIdentifier) (events : List SystemEvent)
    (system : System) (ran : System.run (.new maxPkid) events = .ok system) :
    ∀ record ∈ system.world.fired, ∀ kind, record.firing.kind? = some kind →
      record.firing.isCancel = false →
      ∃ operation ∈ system.world.operations, operation.kind = kind ∧
        operation.notifier = record.firing.notifier ∧
        (∀ other ∈ system.world.operations, other.kind = kind →
          other.notifier = record.firing.notifier → other = operation) ∧
        ∃ receipt ∈ system.received, receipt.sending.Carries receipt.connection operation := by
  have consistent := System.consistent_run ran
  intro record member kind ofKind done
  have completed : record.firing.notifier ∈ (system.courier kind).completed := by
    refine List.mem_map.mpr ⟨(record.firing.notifier, record), List.mem_filter.mpr ⟨?_, ?_⟩, rfl⟩
    · exact List.mem_filterMap.mpr ⟨record, member, by simp [ofKind]⟩
    · simp [done]
  have received := (consistent.delivered kind).answered _ (List.mem_append_right _ completed)
  obtain ⟨operation, sent, same, named, receipt⟩ := consistent.receipt_of_ticket received
  refine ⟨operation, sent, same, named, ?_, receipt⟩
  intro other sentOther sameKind sameNotifier
  exact consistent.operation_unique sentOther sent (sameKind.trans same.symm)
    (sameNotifier.trans named.symm)

/-- A publish reaches the server, the connection is lost before its PUBACK, the publish is
sent again behind a new connection and only then acknowledged. -/
def repeatedDelivery : List SystemEvent :=
  [.client (.connack ⟨.success false, { sessionExpiryInterval := some .infinite }⟩ .infinite none
      (.duration 0)),
    .client (.app (.publishQoS1 ⟨⟨⟨[0, 1, 97]⟩⟩⟩ [] false {})), .client (.poll [{}]), .receive,
    .client (.disconnected .transport),
    .client (.connack ⟨.success true, {}⟩ .infinite none .infinite), .client (.poll [{}]), .receive,
    .answer (.pubAck ⟨.one, .success, {}⟩), .take]

theorem delivery_acknowledged_repeated :
    ∃ system, System.run (.new .one) repeatedDelivery = .ok system ∧
      system.world.fired.length = 1 ∧ system.received.length = 2 ∧
      ∀ record ∈ system.world.fired, ∀ kind, record.firing.kind? = some kind →
        record.firing.isCancel = false →
        ∃ operation ∈ system.world.operations, operation.kind = kind ∧
          operation.notifier = record.firing.notifier ∧
          (∀ other ∈ system.world.operations, other.kind = kind →
            other.notifier = record.firing.notifier → other = operation) ∧
          ∃ receipt ∈ system.received, receipt.sending.Carries receipt.connection operation :=
  ⟨_, rfl, by decide, by decide, delivery_acknowledged .one repeatedDelivery _ rfl⟩

/-- On each connection the server receives the operations of a kind in the order in which
the application submitted them, and each of them at most once. A repetition is marked as
one, and comes on a later connection than the operation. -/
theorem delivery_ordered (maxPkid : PacketIdentifier) (events : List SystemEvent)
    (system : System) (ran : System.run (.new maxPkid) events = .ok system) :
    (∀ kind connection, ((system.received.filter fun receipt =>
        receipt.connection == connection && receipt.sending.kind == kind).map
          fun receipt => receipt.sending.notifier).Pairwise (· < ·)) ∧
      ∀ receipt ∈ system.received, ∃ operation ∈ system.world.operations,
        receipt.sending.Carries receipt.connection operation := by
  have consistent := System.consistent_run ran
  refine ⟨fun kind connection => ?_, consistent.got⟩
  have ordered := (consistent.delivered kind).connections connection
  simpa [Courier.receivedOn, System.courier, List.filter_map, List.filter_filter,
    Function.comp_def] using ordered

theorem delivery_ordered_repeated :
    ∃ system, System.run (.new .one) repeatedDelivery = .ok system ∧
      system.received.map Receipt.connection = [1, 2] ∧
      (∀ kind connection, ((system.received.filter fun receipt =>
          receipt.connection == connection && receipt.sending.kind == kind).map
            fun receipt => receipt.sending.notifier).Pairwise (· < ·)) ∧
        ∀ receipt ∈ system.received, ∃ operation ∈ system.world.operations,
          receipt.sending.Carries receipt.connection operation :=
  ⟨_, rfl, by decide, delivery_ordered .one repeatedDelivery _ rfl⟩

/-- An operation that was sent earlier was received earlier, or cancelled. -/
private theorem received_first {system : System} (consistent : System.Consistent system)
    {early late : List Receipt} {receipt : Receipt}
    (split : system.received = early ++ receipt :: late) {operation : Operation}
    (sent : operation ∈ system.world.operations) (ofKind : operation.kind = receipt.sending.kind)
    (smaller : operation.notifier < receipt.sending.notifier) :
    (∃ earlier ∈ early, earlier.sending.Carries earlier.connection operation) ∨
      ∃ record ∈ system.world.firings operation.kind operation.notifier,
        record.firing.isCancel = true := by
  let tickets (receipts : List Receipt) : List Nat :=
    (receipts.filter (fun other => other.sending.kind == receipt.sending.kind)).map
      fun other => other.sending.notifier
  have stream : (system.courier receipt.sending.kind).stream =
      tickets early ++ receipt.sending.notifier ::
        (tickets late ++ Sending.notifiers receipt.sending.kind system.toServer) := by
    simp [Courier.stream, System.courier, split, tickets, Function.comp_def]
  have opened : (operation.connection, operation.notifier) ∈
      (system.courier receipt.sending.kind).opened :=
    List.mem_map.mpr ⟨operation, List.mem_filter.mpr ⟨sent, by simp [ofKind]⟩, rfl⟩
  rcases (consistent.delivered receipt.sending.kind).first _ _ _ stream _ opened smaller with
    before | cancelled
  · left
    obtain ⟨earlier, member, same⟩ := List.mem_map.mp before
    obtain ⟨member, kind⟩ := List.mem_filter.mp member
    obtain ⟨other, sentOther, carries⟩ := consistent.got earlier
      (split ▸ List.mem_append_left _ member)
    have identical : other = operation := by
      refine consistent.operation_unique sentOther sent ?_ (carries.notifier.symm.trans same)
      exact carries.kind.symm.trans ((beq_iff_eq.mp kind).trans ofKind.symm)
    exact ⟨earlier, member, identical ▸ carries⟩
  · right
    obtain ⟨⟨notifier, record⟩, member, same⟩ := List.mem_map.mp cancelled
    obtain ⟨settled, isCancel⟩ := List.mem_filter.mp member
    refine ⟨record, ?_, isCancel⟩
    rw [system.world.firings_eq, ofKind]
    exact List.mem_map.mpr ⟨(notifier, record), List.mem_filter.mpr ⟨settled, by simpa using same⟩,
      rfl⟩

/-- Over all connections, an operation is received only after every earlier operation of
its kind, unless the earlier one was cancelled: the earlier ones have all been sent. -/
theorem delivery_first (maxPkid : PacketIdentifier) (events : List SystemEvent)
    (system : System) (ran : System.run (.new maxPkid) events = .ok system) :
    ∀ early receipt late, system.received = early ++ receipt :: late →
      (∀ operation ∈ system.world.operations, operation.kind = receipt.sending.kind →
        operation.notifier < receipt.sending.notifier →
        (∃ earlier ∈ early, earlier.sending.Carries earlier.connection operation) ∨
        ∃ record ∈ system.world.firings operation.kind operation.notifier,
          record.firing.isCancel = true) ∧
      ∀ waiting ∈ system.world.session.ch.queued receipt.sending.kind,
        receipt.sending.notifier < waiting := by
  have consistent := System.consistent_run ran
  intro early receipt late split
  refine ⟨fun operation sent ofKind smaller => ?_, fun waiting queued => ?_⟩
  · exact received_first consistent split sent ofKind smaller
  · have ordered := (consistent.sound receipt.sending.kind).ordered
    rw [List.pairwise_append] at ordered
    obtain ⟨operation, sent, carries⟩ := consistent.got receipt (by simp [split])
    refine ordered.2.2 _ ?_ waiting queued
    refine List.mem_map.mpr ⟨(operation.connection, operation.notifier), ?_, carries.notifier.symm⟩
    exact List.mem_map.mpr ⟨operation,
      List.mem_filter.mpr ⟨sent, beq_iff_eq.mpr carries.kind.symm⟩, rfl⟩

theorem delivery_first_repeated :
    ∃ system, System.run (.new .one) repeatedDelivery = .ok system ∧
      ∀ early receipt late, system.received = early ++ receipt :: late →
        (∀ operation ∈ system.world.operations, operation.kind = receipt.sending.kind →
          operation.notifier < receipt.sending.notifier →
          (∃ earlier ∈ early, earlier.sending.Carries earlier.connection operation) ∨
          ∃ record ∈ system.world.firings operation.kind operation.notifier,
            record.firing.isCancel = true) ∧
        ∀ waiting ∈ system.world.session.ch.queued receipt.sending.kind,
          receipt.sending.notifier < waiting :=
  ⟨_, rfl, delivery_first .one repeatedDelivery _ rfl⟩

/-- On a connection every operation in flight is in exactly one place: on its way to the
server, received and not answered, answered with the answer on its way, or yet to be sent
again. No operation is lost and none is in two places. -/
theorem delivery_placed (maxPkid : PacketIdentifier) (events : List SystemEvent)
    (system : System) (ran : System.run (.new maxPkid) events = .ok system)
    (live : system.world.session.isConnected = true) (kind : OpKind) :
    (Sending.notifiers kind system.wire ++ system.world.session.inflight.waiting kind).Perm
        ((system.world.session.inflight.stored kind).map Prod.snd) ∧
      ((system.world.session.inflight.stored kind).map Prod.snd).Nodup := by
  have consistent := System.consistent_run ran
  refine ⟨?_, (consistent.sound kind).held_nodup⟩
  simpa [System.wire, System.courier] using (consistent.sound kind).placed live

theorem delivery_placed_repeated :
    ∃ system, System.run (.new .one) (repeatedDelivery.take 8) = .ok system ∧
      system.owed.length = 1 ∧
      (Sending.notifiers .publishQoS1 system.wire ++
          system.world.session.inflight.waiting .publishQoS1).Perm
        ((system.world.session.inflight.stored .publishQoS1).map Prod.snd) ∧
      ((system.world.session.inflight.stored .publishQoS1).map Prod.snd).Nodup :=
  ⟨_, rfl, by decide, delivery_placed .one (repeatedDelivery.take 8) _ rfl rfl .publishQoS1⟩

/-- An acknowledgement of an operation in flight is no error. -/
theorem Session.completeInflight_accepted {session : Session} {ack : Acknowledgement}
    {notifier : Notifier}
    (held : (ack.packetIdentifier, notifier) ∈ session.inflight.stored ack.kind) :
    ∃ handled, session.completeInflight ack.operation = .ok handled ∧
      handled.result = .ok () := by
  cases ack with
  | subAck packet =>
    have found : session.inflight.subscribe.get? packet.packetIdentifier = some notifier :=
      IndexMap.get?_eq_some_iff.mpr held
    refine ⟨_, rfl, ?_⟩
    rw [found]
    rfl
  | unsubAck packet =>
    have found : session.inflight.unsubscribe.get? packet.packetIdentifier = some notifier :=
      IndexMap.get?_eq_some_iff.mpr held
    refine ⟨_, rfl, ?_⟩
    rw [found]
    rfl
  | pubAck packet =>
    obtain ⟨entry, member, same⟩ := List.mem_map.mp held
    have key : entry.1 = packet.packetIdentifier := congrArg Prod.fst same
    have found : session.inflight.publishQoS1.get? packet.packetIdentifier = some entry.2 :=
      IndexMap.get?_eq_some_iff.mpr (key ▸ member)
    refine ⟨_, rfl, ?_⟩
    rw [found]
    rfl
  | pubRec packet =>
    obtain ⟨entry, member, same⟩ := List.mem_map.mp held
    have key : entry.1 = packet.packetIdentifier := congrArg Prod.fst same
    have found : session.inflight.publishQoS2.get? packet.packetIdentifier = some entry.2 :=
      IndexMap.get?_eq_some_iff.mpr (key ▸ member)
    simp only [Acknowledgement.operation, Session.completeInflight, found, Option.map_some]
    split
    · exact ⟨_, rfl, rfl⟩
    · exact ⟨_, rfl, rfl⟩

/-- Every acknowledgement of the server is accepted, and completes the operation whose
packet it answers. -/
theorem delivery_accepted (maxPkid : PacketIdentifier) (events : List SystemEvent)
    (system : System) (ran : System.run (.new maxPkid) events = .ok system)
    (live : system.world.session.isConnected = true) (answer : Reply) (rest : List Reply)
    (head : system.toClient = answer :: rest) :
    ∃ handled, system.world.session.completeInflight answer.ack.operation = .ok handled ∧
      handled.result = .ok () ∧ handled.fired = [answer.ack.fire answer.sending.notifier] := by
  have consistent := System.consistent_run ran
  obtain ⟨held, ofKind, pkid⟩ := consistent.answered live head
  have found := filter_key_eq (system.world.session.inflight.stored_keys_nodup _) held
  rw [← ofKind, ← pkid] at held found
  obtain ⟨handled, completed, result⟩ := Session.completeInflight_accepted held
  refine ⟨handled, completed, result, ?_⟩
  rw [(Session.completeInflight_spec completed).2, found]
  rfl

theorem delivery_accepted_repeated :
    ∃ system answer, System.run (.new .one) (repeatedDelivery.take 9) = .ok system ∧
      system.toClient = [answer] ∧
      ∃ handled, system.world.session.completeInflight answer.ack.operation = .ok handled ∧
        handled.result = .ok () ∧ handled.fired = [answer.ack.fire answer.sending.notifier] :=
  ⟨_, _, rfl, rfl, delivery_accepted .one (repeatedDelivery.take 9) _ rfl rfl _ [] rfl⟩

end MqttClient.Client
