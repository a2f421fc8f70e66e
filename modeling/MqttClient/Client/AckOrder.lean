import MqttClient.Client.SessionSpec

/-! The order of PUBACKs within a session: deliveries become ready in any order and
leave in the order of their arrival. -/

namespace MqttClient.Client

open MqttClient.Proto

/-- The request a used token submits. -/
def TokenUse.request (use : TokenUse) : AcknowledgementRequest :=
  .pubAck use.notifier use.puback use.token.epoch

/-- A delivery that waits for its PUBACK: the token made for it, the identifier it
arrived with, and whether the application has answered. -/
structure Slot where
  serial : Nat
  pkid : PacketIdentifier
  state : PendingAcknowledgement

def Slot.arrival (slot : Slot) : Nat × PacketIdentifier := (slot.serial, slot.pkid)

/-- The pending acknowledgements of a session are these slots. A slot is ready only
through its own token, and every token of this connection that the session has yet to
hear from has a slot. -/
structure Slotted (uses : List TokenUse) (outstanding : List PubAckToken) (session : Session)
    (slots : List Slot) : Prop where
  entries : session.inApplication.entries = slots.map fun slot => (slot.pkid, slot.state)
  ready : ∀ slot ∈ slots, ∀ request, slot.state = .ready request →
    ∃ use ∈ uses, use.token.serial = slot.serial ∧
      use.token.epoch = session.connectionEpoch ∧ request = use.request
  outstanding : ∀ token ∈ outstanding, token.epoch = session.connectionEpoch →
    ⟨token.serial, token.pkid, .notReady⟩ ∈ slots

namespace Slotted

variable {uses : List TokenUse} {outstanding : List PubAckToken} {session after : Session}
  {slots : List Slot}

theorem congr (slotted : Slotted uses outstanding session slots)
    (pending : after.inApplication = session.inApplication)
    (epoch : after.connectionEpoch = session.connectionEpoch) :
    Slotted uses outstanding after slots where
  entries := by rw [pending, slotted.entries]
  ready := by
    rw [epoch]
    exact slotted.ready
  outstanding := by
    rw [epoch]
    exact slotted.outstanding

theorem forget {fewer : List PubAckToken} (slotted : Slotted uses outstanding session slots)
    (subset : ∀ token ∈ fewer, token ∈ outstanding) : Slotted uses fewer session slots :=
  ⟨slotted.entries, slotted.ready,
    fun token member => slotted.outstanding token (subset token member)⟩

/-- No pending acknowledgement of the current connection is stale. -/
theorem dropWhile_stale (slotted : Slotted uses outstanding session slots) :
    session.inApplication.dropWhile (Session.isStale session.connectionEpoch) =
      session.inApplication := by
  apply IndexMap.ext
  simp only [IndexMap.dropWhile, slotted.entries]
  cases slots with
  | nil => rfl
  | cons slot rest =>
    have fresh : Session.isStale session.connectionEpoch (slot.pkid, slot.state) = false := by
      cases state : slot.state with
      | notReady => rfl
      | ready request =>
        obtain ⟨use, _, _, epoch, rfl⟩ := slotted.ready slot List.mem_cons_self request state
        simp [Session.isStale, TokenUse.request, epoch]
    simp [fresh]

/-- A slot that leaves is the oldest one, and it was ready. -/
theorem takeReady (slotted : Slotted uses outstanding session slots) :
    (session.takeReady = (none, session)) ∨
      ∃ slot rest use, slots = slot :: rest ∧ use ∈ uses ∧ use.token.serial = slot.serial ∧
        session.takeReady.1 = some use.request ∧
        Slotted uses outstanding session.takeReady.2 rest ∧
        session.takeReady.2 =
          { session with inApplication := session.takeReady.2.inApplication } := by
  simp only [Session.takeReady, slotted.dropWhile_stale]
  cases slots with
  | nil =>
    left
    simp [IndexMap.first?, slotted.entries]
  | cons slot rest =>
    have first : session.inApplication.first? = some (slot.pkid, slot.state) := by
      simp [IndexMap.first?, slotted.entries]
    cases state : slot.state with
    | notReady =>
      left
      simp [first, state]
    | ready request =>
      right
      obtain ⟨use, used, serial, epoch, rfl⟩ := slotted.ready slot List.mem_cons_self request state
      refine ⟨slot, rest, use, rfl, used, serial, by simp [first, state], ?_, by simp [first, state]⟩
      simp only [first, state]
      refine ⟨?_, fun other member => slotted.ready other (List.mem_cons_of_mem _ member), ?_⟩
      · simp [IndexMap.dropFirst, slotted.entries]
      · intro token member same
        have held := slotted.outstanding token member same
        rcases List.mem_cons.mp held with head | later
        · rw [← head] at state
          cases state
        · exact later

/-- An answer of the application makes the slot of its own token ready. -/
theorem markReady {use : TokenUse} {later : List PubAckToken}
    (slotted : Slotted uses (use.token :: later) session slots) (used : use ∈ uses)
    (named : use.puback.packetIdentifier = use.token.pkid)
    (epoch : use.token.epoch = session.connectionEpoch)
    (distinct : ∀ token ∈ later, token.serial ≠ use.token.serial) :
    ∃ marked readied, session.markReady use.request = .ok marked ∧
      marked = { session with inApplication := marked.inApplication } ∧
      Slotted uses later marked readied ∧
      readied.map Slot.arrival = slots.map Slot.arrival := by
  have held := slotted.outstanding use.token List.mem_cons_self epoch
  obtain ⟨left, right, rfl⟩ := List.append_of_mem held
  have split := slotted.entries
  rw [List.map_append, List.map_cons] at split
  have replaced := IndexMap.entries_insert_split split (.ready use.request)
  have found : session.inApplication.get? use.token.pkid = some .notReady :=
    IndexMap.get?_eq_some_iff.mpr (by rw [split]; simp)
  have identifier : Session.AcknowledgementRequest.packetIdentifier use.request =
      use.token.pkid := named
  refine ⟨{ session with inApplication :=
      session.inApplication.insert use.token.pkid (.ready use.request) },
    left ++ ⟨use.token.serial, use.token.pkid, .ready use.request⟩ :: right, ?_, rfl, ?_, ?_⟩
  · simp [Session.markReady, identifier, found]
  · refine ⟨?_, ?_, ?_⟩
    · rw [replaced]
      simp
    · intro slot member request state
      rcases List.mem_append.mp member with early | here
      · exact slotted.ready slot (List.mem_append_left _ early) request state
      · rcases List.mem_cons.mp here with rfl | late
        · cases state
          exact ⟨use, used, rfl, epoch, rfl⟩
        · exact slotted.ready slot
            (List.mem_append_right _ (List.mem_cons_of_mem _ late)) request state
    · intro token member same
      have held := slotted.outstanding token (List.mem_cons_of_mem _ member) same
      rcases List.mem_append.mp held with early | here
      · exact List.mem_append_left _ early
      · rcases List.mem_cons.mp here with head | late
        · exact absurd (congrArg Slot.serial head) (distinct token member)
        · exact List.mem_append_right _ (List.mem_cons_of_mem _ late)
  · simp [Slot.arrival]

end Slotted

namespace Session

variable {session after : Session}

/-- A poll of the channels takes the oldest answer of the application or none. -/
inductive PolledAck (session : Session) : Option OutgoingPacketRequest → Session → Prop where
  | ack (request : AcknowledgementRequest) (rest : List AcknowledgementRequest)
      (after : Session) (head : session.ch.ackRx = request :: rest)
      (queue : after.ch.ackRx = rest) (pending : after.inApplication = session.inApplication)
      (epoch : after.connectionEpoch = session.connectionEpoch) :
      PolledAck session (some (.acknowledgementRequest request)) after
  | other (request : Option OutgoingPacketRequest) (after : Session)
      (noAck : ∀ ack, request ≠ some (.acknowledgementRequest ack))
      (queue : after.ch.ackRx = session.ch.ackRx)
      (pending : after.inApplication = session.inApplication)
      (epoch : after.connectionEpoch = session.connectionEpoch) :
      PolledAck session request after

private theorem pollRequests_ack {ready : Readiness} {now : Nat} {request : OutgoingPacketRequest}
    (polled : session.pollRequests ready now = some (request, after)) :
    PolledAck session (some request) after := by
  simp only [pollRequests, Option.or_eq_some_iff] at polled
  rcases polled with ack | ⟨-, auth | ⟨-, ping | ⟨-, sub | ⟨-, pubQ0 | ⟨-, pubQ12 | ⟨-, timer⟩⟩⟩⟩⟩⟩
  · obtain ⟨⟨item, rest⟩, received, same⟩ := Option.map_eq_some_iff.mp ack
    obtain ⟨rfl, rfl⟩ := Prod.mk.inj same
    exact .ack item rest _ (pollRecv_eq_some received) rfl rfl rfl
  · obtain ⟨⟨item, rest⟩, received, same⟩ := Option.map_eq_some_iff.mp auth
    obtain ⟨rfl, rfl⟩ := Prod.mk.inj same
    exact .other _ _ (by simp) rfl rfl rfl
  · obtain ⟨⟨item, rest⟩, received, same⟩ := Option.map_eq_some_iff.mp ping
    obtain ⟨rfl, rfl⟩ := Prod.mk.inj same
    exact .other _ _ (by simp) rfl rfl rfl
  · obtain ⟨⟨item, rest⟩, received, same⟩ := Option.bind_eq_some_iff.mp sub
    obtain ⟨⟨pkid, pool⟩, leased, same⟩ := Option.map_eq_some_iff.mp same
    obtain ⟨rfl, rfl⟩ := Prod.mk.inj same
    exact .other _ _ (by simp) rfl rfl rfl
  · obtain ⟨⟨item, rest⟩, received, same⟩ := Option.map_eq_some_iff.mp pubQ0
    obtain ⟨rfl, rfl⟩ := Prod.mk.inj same
    exact .other _ _ (by simp) rfl rfl rfl
  · obtain ⟨⟨item, rest⟩, received, same⟩ := Option.bind_eq_some_iff.mp pubQ12
    obtain ⟨⟨pkid, pool⟩, leased, same⟩ := Option.map_eq_some_iff.mp same
    obtain ⟨rfl, rfl⟩ := Prod.mk.inj same
    exact .other _ _ (by simp) rfl rfl rfl
  · unfold pollTimer at timer
    split at timer
    · split at timer
      · cases timer
        exact .other _ _ (by simp) rfl rfl rfl
      · cases timer
    · cases timer

theorem pollForOutgoingRequest_ack (ready : Readiness) (now : Nat) (session : Session) :
    PolledAck session (session.pollForOutgoingRequest ready now).1
      (session.pollForOutgoingRequest ready now).2 := by
  have closed : ∀ {disconnect middle}, session.pollDisconnect ready.disconnect =
      (disconnect, middle) → middle.ch.ackRx = session.ch.ackRx ∧
        middle.inApplication = session.inApplication ∧
        middle.connectionEpoch = session.connectionEpoch := by
    intro disconnect middle polled
    unfold pollDisconnect at polled
    split at polled <;> cases polled <;> exact ⟨rfl, rfl, rfl⟩
  unfold pollForOutgoingRequest
  split
  · rename_i disconnect middle polled
    obtain ⟨queue, pending, epoch⟩ := closed polled
    exact .other _ _ (by simp) queue pending epoch
  · rename_i middle polled
    obtain ⟨queue, pending, epoch⟩ := closed polled
    split
    · rename_i request final taken
      cases pollRequests_ack taken with
      | ack request rest _ head queue' pending' epoch' =>
        exact .ack request rest final (queue ▸ head) queue' (pending'.trans pending)
          (epoch'.trans epoch)
      | other _ _ noAck queue' pending' epoch' =>
        exact .other _ _ noAck (queue'.trans queue) (pending'.trans pending) (epoch'.trans epoch)
    · exact .other _ _ (by simp) queue pending epoch

variable {uses queued : List TokenUse} {tokens : List PubAckToken} {slots : List Slot}

/-- What the request loop does to the slots: it hands out the PUBACK of the oldest one,
or leaves them all in place. The answers it takes are the oldest ones. -/
def Sequenced (uses queued : List TokenUse) (tokens : List PubAckToken) (slots : List Slot)
    (request : Option OutgoingPacketRequest) (after : Session) : Prop :=
  ∃ queued' slots', 
    queued' <:+ queued ∧ after.ch.ackRx = queued'.map TokenUse.request ∧
    Slotted uses (queued'.map TokenUse.token ++ tokens) after slots' ∧
    ((∃ use ∈ uses, ∃ pkid, request = some (.acknowledgementRequest use.request) ∧
        slots.map Slot.arrival = (use.token.serial, pkid) :: slots'.map Slot.arrival) ∨
      (∀ ack, request ≠ some (.acknowledgementRequest ack)) ∧
        slots'.map Slot.arrival = slots.map Slot.arrival)

/-- A PUBACK that is ready is handed out at once. -/
private theorem handed (now : Nat) (polls : List Readiness)
    (slotted : Slotted uses (queued.map TokenUse.token ++ tokens) session slots)
    (queue : session.ch.ackRx = queued.map TokenUse.request) :
    session.takeReady = (none, session) ∨
      ∃ request after, nextOutgoingRequest now polls session = .ok (request, after) ∧
        after.connectionEpoch = session.connectionEpoch ∧
        Sequenced uses queued tokens slots request after := by
  rcases slotted.takeReady with idle | ⟨slot, rest, use, rfl, member, serial, taken, after, frame⟩
  · exact .inl idle
  · right
    unfold nextOutgoingRequest
    rw [show session.takeReady = (some use.request, session.takeReady.2) from
      Prod.ext taken rfl]
    refine ⟨_, _, rfl, by rw [frame], ⟨queued, rest, List.suffix_rfl, by rw [frame]; exact queue,
      after, .inl ⟨use, member, slot.pkid, rfl, ?_⟩⟩⟩
    simp [Slot.arrival, serial]

/-- The answer of a token of this connection finds its slot; that of an earlier one is
dropped. -/
private theorem routed {use : TokenUse} {later : List PubAckToken}
    (slotted : Slotted uses (use.token :: later) session slots) (used : use ∈ uses)
    (named : use.puback.packetIdentifier = use.token.pkid)
    (distinct : use.token.serial ∉ later.map PubAckToken.serial) :
    ∃ marked readied, session.routeAcknowledgement use.request = .ok (none, marked) ∧
      marked.ch.ackRx = session.ch.ackRx ∧ marked.connectionEpoch = session.connectionEpoch ∧
      Slotted uses later marked readied ∧ readied.map Slot.arrival = slots.map Slot.arrival := by
  by_cases current : use.token.epoch = session.connectionEpoch
  · obtain ⟨marked, readied, succeeded, frame, moved, arrivals⟩ :=
      slotted.markReady used named current
        (fun token member same => distinct (List.mem_map.mpr ⟨token, member, same⟩))
    refine ⟨marked, readied, ?_, by rw [frame], by rw [frame], moved, arrivals⟩
    rw [TokenUse.request] at succeeded ⊢
    simp only [routeAcknowledgement, current, if_true] at succeeded ⊢
    rw [succeeded]
    rfl
  · refine ⟨session, slots, ?_, rfl, rfl,
      slotted.forget fun token member => List.mem_cons_of_mem _ member, rfl⟩
    simp [routeAcknowledgement, TokenUse.request, current]

/-- The request loop never finds an answer without its slot. -/
theorem nextOutgoingRequest_sequenced (now : Nat) (polls : List Readiness)
    (slotted : Slotted uses (queued.map TokenUse.token ++ tokens) session slots)
    (queue : session.ch.ackRx = queued.map TokenUse.request) (used : ∀ use ∈ queued, use ∈ uses)
    (named : ∀ use ∈ uses, use.puback.packetIdentifier = use.token.pkid)
    (distinct : ((queued.map TokenUse.token ++ tokens).map PubAckToken.serial).Nodup) :
    ∃ request after, nextOutgoingRequest now polls session = .ok (request, after) ∧
      after.connectionEpoch = session.connectionEpoch ∧
      Sequenced uses queued tokens slots request after := by
  induction polls generalizing session queued slots with
  | nil =>
    rcases handed now [] slotted queue with idle | handed
    · unfold nextOutgoingRequest
      rw [idle]
      exact ⟨_, _, rfl, rfl, ⟨queued, slots, List.suffix_rfl, queue, slotted, .inr ⟨by simp, rfl⟩⟩⟩
    · exact handed
  | cons ready later ih =>
    rcases handed now (ready :: later) slotted queue with idle | handed
    · unfold nextOutgoingRequest
      rw [idle]
      have polled := pollForOutgoingRequest_ack ready now session
      simp only
      generalize session.pollForOutgoingRequest ready now = outcome at polled
      obtain ⟨request, middle⟩ := outcome
      simp only at polled
      cases polled with
      | other _ _ noAck queue' pending epoch =>
        have final : Sequenced uses queued tokens slots request middle :=
          ⟨queued, slots, List.suffix_rfl, queue'.trans queue, slotted.congr pending epoch,
            .inr ⟨noAck, rfl⟩⟩
        cases request with
        | none => exact ⟨_, _, rfl, epoch, final⟩
        | some request =>
          cases request with
          | acknowledgementRequest ack => exact absurd rfl (noAck ack)
          | _ => exact ⟨_, _, rfl, epoch, final⟩
      | ack request rest _ head queue' pending epoch =>
        rw [queue] at head
        cases queued with
        | nil => cases head
        | cons use queued =>
          rw [List.map_cons, List.cons.injEq] at head
          obtain ⟨rfl, rfl⟩ := head
          have moved : Slotted uses (use.token :: (queued.map TokenUse.token ++ tokens)) middle
              slots := slotted.congr pending epoch
          have fewer : ∀ other ∈ queued, other ∈ uses :=
            fun other member => used other (List.mem_cons_of_mem _ member)
          have mine := used use List.mem_cons_self
          simp only [List.map_cons, List.cons_append, List.nodup_cons] at distinct
          obtain ⟨marked, readied, routed, kept, sameEpoch, readied', arrivals⟩ :=
            routed moved mine (named use mine) distinct.1
          obtain ⟨final, last, ran, lastEpoch, ⟨queued', slots', suffix, queued'', slotted',
            outcome⟩⟩ := ih readied' (kept.trans queue') fewer distinct.2
          refine ⟨final, last, ?_, lastEpoch.trans (sameEpoch.trans epoch), ⟨queued', slots',
            suffix.trans (List.suffix_cons _ _), queued'', slotted', ?_⟩⟩
          · simp only [routed]
            exact ran
          · rw [← arrivals]
            exact outcome
    · exact handed

end Session

end MqttClient.Client
