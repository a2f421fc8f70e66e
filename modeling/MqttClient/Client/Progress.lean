import MqttClient.Client.AckOrderRuns

/-! Progress: a poll that is pending leaves nothing that could be sent, and every packet sent
leaves less to send. -/

namespace MqttClient.Client

open MqttClient.Proto

/-- What a request takes off the load. The ping of the timer takes nothing. -/
def OutgoingPacketRequest.weight : OutgoingPacketRequest → Nat
  | .pingReq none => 0
  | _ => 1

theorem OutgoingPacketRequest.weight_le (request : OutgoingPacketRequest) : request.weight ≤ 1 := by
  unfold weight
  split
  · exact Nat.zero_le 1
  · exact Nat.le_refl 1

def PendingAcknowledgement.request? : PendingAcknowledgement → Option AcknowledgementRequest
  | .ready request => some request
  | .notReady => none

namespace Session

/-- Nothing can be sent: where a channel wakes up, it holds no request that can be taken. -/
structure Quiet (ready : Readiness) (now : Nat) (session : Session) : Prop where
  replay : session.inflight.packetsToReplay = []
  turn : ∀ pkid request, session.inApplication.first? ≠ some (pkid, .ready request)
  disconnect : ready.disconnect = true →
    ∀ disconnect, session.ch.disconnectRx ≠ some (.requested disconnect)
  ack : ready.ack = true → session.ch.ackRx = []
  auth : ready.auth = true → session.ch.authRx = []
  ping : ready.ping = true → session.ch.pingRx = []
  sub : ready.sub = true → session.ch.subRx = [] ∨ session.pkidPool.leaseNextPkid = none
  pubQ0 : ready.pubQ0 = true → session.ch.oPubQ0Rx = []
  pubQ12 : ready.pubQ12 = true → session.ch.oPubQ12Rx = [] ∨ session.pkidPool.leaseNextPkid = none
  timer : ready.timer = true → ∀ timer, session.pingreqTimer = some timer → now < timer.deadline

theorem pollRecv_eq_none {α : Type} {ready : Bool} {queue : List α}
    (polled : pollRecv ready queue = none) (awake : ready = true) : queue = [] := by
  subst awake
  cases queue with
  | nil => rfl
  | cons item rest => cases polled

theorem takeReady_none {session middle : Session} (taken : session.takeReady = (none, middle)) :
    (∀ pkid request, middle.inApplication.first? ≠ some (pkid, .ready request)) ∧
      middle.ch = session.ch ∧ middle.inflight = session.inflight := by
  simp only [takeReady] at taken
  split at taken
  · cases taken
  · rename_i other
    cases taken
    refine ⟨?_, rfl, rfl⟩
    intro pkid request found
    exact other pkid request found

theorem pollDisconnect_none {ready : Bool} {session middle : Session}
    (polled : session.pollDisconnect ready = (none, middle)) :
    (∃ disconnectRx, middle = { session with ch := { session.ch with disconnectRx } }) ∧
      (ready = true → ∀ disconnect, middle.ch.disconnectRx ≠ some (.requested disconnect)) := by
  unfold pollDisconnect at polled
  split at polled
  · cases polled
  · cases polled
    exact ⟨⟨_, rfl⟩, by simp⟩
  · rename_i other closed
    cases polled
    refine ⟨⟨_, rfl⟩, ?_⟩
    intro awake disconnect found
    exact other disconnect awake found

/-- A pending poll of the channels. -/
theorem pollForOutgoingRequest_none {ready : Readiness} {now : Nat} {session after : Session}
    (polled : session.pollForOutgoingRequest ready now = (none, after))
    (drained : session.inflight.packetsToReplay = [])
    (turn : ∀ pkid request, session.inApplication.first? ≠ some (pkid, .ready request)) :
    after.Quiet ready now := by
  unfold pollForOutgoingRequest at polled
  split at polled
  · cases polled
  · rename_i middle nothing
    obtain ⟨⟨disconnectRx, rfl⟩, silent⟩ := pollDisconnect_none nothing
    split at polled
    · cases polled
    · rename_i idle
      cases polled
      simp only [pollRequests, Option.or_eq_none_iff, pollAck, pollAuth, pollPing, pollSub,
        pollPubQ0, pollPubQ12, Option.map_eq_none_iff] at idle
      obtain ⟨ack, auth, ping, sub, pubQ0, pubQ12, timer⟩ := idle
      have leased {α β : Type} {queue : List α} {ready : Bool} {pool : PkidPool}
          {take : α × List α → PacketIdentifier × PkidPool → β}
          (nothing : (pollRecv ready queue).bind
            (fun taken => pool.leaseNextPkid.map (take taken)) = none) (awake : ready = true) :
          queue = [] ∨ pool.leaseNextPkid = none := by
        have none := Option.bind_eq_none_iff.mp nothing
        cases queue with
        | nil => exact .inl rfl
        | cons item rest =>
          subst awake
          exact .inr (Option.map_eq_none_iff.mp (none (item, rest) rfl))
      constructor
      · exact drained
      · exact turn
      · exact silent
      · exact pollRecv_eq_none ack
      · exact pollRecv_eq_none auth
      · exact pollRecv_eq_none ping
      · exact leased sub
      · exact pollRecv_eq_none pubQ0
      · exact leased pubQ12
      · intro awake started found
        have pending : session.pingreqTimer = some started := found
        by_contra late
        have due : started.deadline ≤ now := by omega
        simp [pollTimer, pending, awake, due] at timer

/-! ### What is left to send -/

/-- Whether the application asked for a disconnect. -/
def disconnects (session : Session) : Nat :=
  match session.ch.disconnectRx with
  | some (.requested _) => 1
  | _ => 0

/-- What is left to send, apart from the ping of the timer. -/
def load (session : Session) : Nat :=
  session.inflight.packetsToReplay.length + session.disconnects + session.acks.length +
    session.ch.authRx.length + session.ch.pingRx.length + session.ch.subRx.length +
    session.ch.oPubQ0Rx.length + session.ch.oPubQ12Rx.length

def Due (session : Session) (now : Nat) : Prop :=
  ∃ timer, session.pingreqTimer = some timer ∧ timer.deadline ≤ now

/-- What a step of the request loop leaves, after it took this request or none. -/
structure Spends (session : Session) (now : Nat) (request : Option OutgoingPacketRequest)
    (after : Session) : Prop where
  load : after.load + (request.elim 0 OutgoingPacketRequest.weight) ≤ session.load
  timer : after.pingreqTimer = session.pingreqTimer
  inflight : after.inflight = session.inflight
  queue : after.ch.ackRx.length ≤ session.ch.ackRx.length
  due : request = some (.pingReq none) → session.Due now

theorem Spends.trans {session middle after : Session} {now : Nat}
    {request : Option OutgoingPacketRequest} (early : middle.load ≤ session.load)
    (timer : middle.pingreqTimer = session.pingreqTimer)
    (inflight : middle.inflight = session.inflight)
    (queue : middle.ch.ackRx.length ≤ session.ch.ackRx.length)
    (late : Spends middle now request after) : Spends session now request after := by
  refine ⟨late.load.trans early, late.timer.trans timer, late.inflight.trans inflight,
    late.queue.trans queue, ?_⟩
  intro pinged
  obtain ⟨started, found, passed⟩ := late.due pinged
  exact ⟨started, timer ▸ found, passed⟩

theorem acks_eq (session : Session) :
    session.acks = session.ch.ackRx ++
      session.inApplication.values.filterMap PendingAcknowledgement.request? := rfl

/-- The load counts the acknowledgements that are ready in the application. -/
theorem load_pending (session : Session)
    (inApplication : IndexMap PacketIdentifier PendingAcknowledgement) :
    { session with inApplication := inApplication }.load +
        (session.inApplication.values.filterMap PendingAcknowledgement.request?).length =
      session.load + (inApplication.values.filterMap PendingAcknowledgement.request?).length := by
  simp only [load, disconnects, acks_eq, List.length_append]
  omega

theorem takeReady_spends (session : Session) (now : Nat) :
    Spends session now (session.takeReady.1.map .acknowledgementRequest) session.takeReady.2 := by
  have dropped := session.inApplication.values_dropWhile_sublist (isStale session.connectionEpoch)
  simp only [takeReady]
  generalize session.inApplication.dropWhile (isStale session.connectionEpoch) = pending at dropped
  have counted := (dropped.filterMap PendingAcknowledgement.request?).length_le
  split
  · rename_i pkid request first
    obtain ⟨rest, entries⟩ := List.head?_eq_some_iff.mp first
    have values : pending.values = .ready request :: pending.dropFirst.values := by
      simp [IndexMap.values, IndexMap.dropFirst, entries]
    have taken : (pending.values.filterMap PendingAcknowledgement.request?).length =
        (pending.dropFirst.values.filterMap PendingAcknowledgement.request?).length + 1 := by
      rw [values]
      rfl
    have loads := load_pending session pending.dropFirst
    refine ⟨?_, rfl, rfl, Nat.le_refl _, by simp⟩
    simp only [Option.map_some, Option.elim_some, OutgoingPacketRequest.weight]
    omega
  · have loads := load_pending session pending
    refine ⟨?_, rfl, rfl, Nat.le_refl _, by simp⟩
    simp only [Option.map_none, Option.elim_none]
    omega

theorem pollRecv_length {α : Type} {ready : Bool} {queue rest : List α} {item : α}
    (received : pollRecv ready queue = some (item, rest)) : queue.length = rest.length + 1 := by
  rw [pollRecv_eq_some received, List.length_cons]

/-- A request of the application is one less to send. -/
theorem Spends.taken {session after : Session} {now : Nat} {request : OutgoingPacketRequest}
    (timer : after.pingreqTimer = session.pingreqTimer)
    (inflight : after.inflight = session.inflight)
    (queue : after.ch.ackRx.length ≤ session.ch.ackRx.length) (asked : request ≠ .pingReq none)
    (lighter : after.load + 1 ≤ session.load) : Spends session now (some request) after := by
  refine ⟨Nat.le_trans (Nat.add_le_add_left ?_ _) lighter, timer, inflight, queue, ?_⟩
  · rw [Option.elim_some]
    exact request.weight_le
  · intro pinged
    exact absurd (Option.some.inj pinged) asked

theorem pollRequests_spends {ready : Readiness} {now : Nat} {session after : Session}
    {request : OutgoingPacketRequest}
    (polled : session.pollRequests ready now = some (request, after)) :
    Spends session now (some request) after := by
  simp only [pollRequests, Option.or_eq_some_iff] at polled
  rcases polled with ack | ⟨-, auth | ⟨-, ping | ⟨-, sub | ⟨-, pubQ0 | ⟨-, pubQ12 | ⟨-, timer⟩⟩⟩⟩⟩⟩
  · obtain ⟨⟨item, rest⟩, received, same⟩ := Option.map_eq_some_iff.mp ack
    obtain ⟨rfl, rfl⟩ := Prod.mk.inj same
    have length := pollRecv_length received
    refine .taken rfl rfl (Nat.le_of_succ_le length.ge) (by simp) ?_
    simp only [load, disconnects, acks, List.length_append]
    omega
  · obtain ⟨⟨item, rest⟩, received, same⟩ := Option.map_eq_some_iff.mp auth
    obtain ⟨rfl, rfl⟩ := Prod.mk.inj same
    have length := pollRecv_length received
    refine .taken rfl rfl (Nat.le_refl _) (by simp) ?_
    simp only [load, disconnects, acks]
    omega
  · obtain ⟨⟨item, rest⟩, received, same⟩ := Option.map_eq_some_iff.mp ping
    obtain ⟨rfl, rfl⟩ := Prod.mk.inj same
    have length := pollRecv_length received
    refine .taken rfl rfl (Nat.le_refl _) (by simp) ?_
    simp only [load, disconnects, acks]
    omega
  · obtain ⟨⟨item, rest⟩, received, same⟩ := Option.bind_eq_some_iff.mp sub
    obtain ⟨⟨pkid, pool⟩, leased, same⟩ := Option.map_eq_some_iff.mp same
    obtain ⟨rfl, rfl⟩ := Prod.mk.inj same
    have length := pollRecv_length received
    refine .taken rfl rfl (Nat.le_refl _) (by simp) ?_
    simp only [load, disconnects, acks]
    omega
  · obtain ⟨⟨item, rest⟩, received, same⟩ := Option.map_eq_some_iff.mp pubQ0
    obtain ⟨rfl, rfl⟩ := Prod.mk.inj same
    have length := pollRecv_length received
    refine .taken rfl rfl (Nat.le_refl _) (by simp) ?_
    simp only [load, disconnects, acks]
    omega
  · obtain ⟨⟨item, rest⟩, received, same⟩ := Option.bind_eq_some_iff.mp pubQ12
    obtain ⟨⟨pkid, pool⟩, leased, same⟩ := Option.map_eq_some_iff.mp same
    obtain ⟨rfl, rfl⟩ := Prod.mk.inj same
    have length := pollRecv_length received
    refine .taken rfl rfl (Nat.le_refl _) (by simp) ?_
    simp only [load, disconnects, acks]
    omega
  · unfold pollTimer at timer
    split at timer
    · rename_i started found
      split at timer
      · rename_i due
        cases timer
        refine ⟨Nat.le_refl _, rfl, rfl, Nat.le_refl _, fun _ => ⟨started, found, ?_⟩⟩
        simp only [Bool.and_eq_true, decide_eq_true_eq] at due
        exact due.2
      · cases timer
    · cases timer

theorem pollForOutgoingRequest_spends {ready : Readiness} {now : Nat} {session after : Session}
    {request : Option OutgoingPacketRequest}
    (polled : session.pollForOutgoingRequest ready now = (request, after)) :
    Spends session now request after := by
  have closed : ∀ {middle}, session.pollDisconnect ready.disconnect = (none, middle) →
      middle.load ≤ session.load ∧ middle.pingreqTimer = session.pingreqTimer ∧
        middle.inflight = session.inflight ∧ middle.ch.ackRx = session.ch.ackRx := by
    intro middle polled
    unfold pollDisconnect at polled
    split at polled
    · cases polled
    · cases polled
      refine ⟨?_, rfl, rfl, rfl⟩
      simp only [load, disconnects, acks]
      omega
    · cases polled
      exact ⟨Nat.le_refl _, rfl, rfl, rfl⟩
  unfold pollForOutgoingRequest at polled
  split at polled
  · rename_i disconnect middle taken
    cases polled
    unfold pollDisconnect at taken
    split at taken
    · rename_i _ asked held
      cases taken
      refine ⟨?_, rfl, rfl, Nat.le_refl _, by simp⟩
      simp only [load, disconnects, acks, held, Option.elim, OutgoingPacketRequest.weight]
      omega
    · cases taken
    · cases taken
  · rename_i middle nothing
    obtain ⟨early, timer, inflight, queue⟩ := closed nothing
    have queued := Nat.le_of_eq (congrArg List.length queue)
    split at polled
    · rename_i found final taken
      cases polled
      exact (pollRequests_spends taken).trans early timer inflight queued
    · cases polled
      exact ⟨early, timer, inflight, queued, by simp⟩

/-- An acknowledgement that has to wait for its turn is back in the load. -/
theorem routeAcknowledgement_load {session after : Session} {request : AcknowledgementRequest}
    {returned : Option AcknowledgementRequest}
    (routed : session.routeAcknowledgement request = .ok (returned, after)) :
    after.load + returned.toList.length ≤ session.load + 1 ∧
      after.pingreqTimer = session.pingreqTimer ∧ after.inflight = session.inflight ∧
      after.ch = session.ch := by
  have marked {outcome : Except Panic Session} (found : session.markReady request = outcome)
      (mapped : outcome.map (none, ·) =
        (.ok (returned, after) : Except Panic (Option AcknowledgementRequest × Session))) :
      after.load + returned.toList.length ≤ session.load + 1 ∧
        after.pingreqTimer = session.pingreqTimer ∧ after.inflight = session.inflight ∧
        after.ch = session.ch := by
    cases outcome with
    | error panic => cases mapped
    | ok next =>
      cases mapped
      simp only [markReady] at found
      split at found
      · rename_i pending stored
        cases found
        refine ⟨?_, rfl, rfl, rfl⟩
        obtain ⟨left, right, before, after⟩ := IndexMap.entries_insert_present
          (IndexMap.get?_eq_some_iff.mp stored) (.ready request)
        have loads := load_pending session (session.inApplication.insert
          (AcknowledgementRequest.packetIdentifier request) (.ready request))
        simp only [IndexMap.values, before, after, List.map_append, List.map_cons,
          List.filterMap_append, List.length_append] at loads
        have one : (List.filterMap PendingAcknowledgement.request?
            (.ready request :: right.map Prod.snd)).length =
            (List.filterMap PendingAcknowledgement.request? (right.map Prod.snd)).length + 1 := rfl
        have rest := ((List.sublist_cons_self pending (right.map Prod.snd)).filterMap
          PendingAcknowledgement.request?).length_le
        simp only [Option.toList_none, List.length_nil]
        omega
      · cases found
  unfold routeAcknowledgement at routed
  split at routed
  · split at routed
    · exact marked rfl routed
    · cases routed
      exact ⟨Nat.le_succ _, rfl, rfl, rfl⟩
  · cases routed
    exact ⟨Nat.le_refl _, rfl, rfl, rfl⟩
  · exact marked rfl routed

theorem nextOutgoingRequest_spends {now : Nat} {polls : List Readiness} {session after : Session}
    {request : Option OutgoingPacketRequest}
    (polled : nextOutgoingRequest now polls session = .ok (request, after)) :
    Spends session now request after := by
  induction polls generalizing session with
  | nil =>
    have spends := takeReady_spends session now
    unfold nextOutgoingRequest at polled
    split at polled
    · rename_i acknowledgement middle taken
      rw [taken] at spends
      cases polled
      exact spends
    · rename_i middle taken
      rw [taken] at spends
      cases polled
      exact spends
  | cons ready later ih =>
    have early := takeReady_spends session now
    unfold nextOutgoingRequest at polled
    split at polled
    · rename_i acknowledgement middle taken
      rw [taken] at early
      cases polled
      exact early
    · rename_i first taken
      rw [taken] at early
      have fewer : first.load ≤ session.load := early.load
      simp only at polled
      split at polled
      · rename_i middle pending
        cases polled
        exact (pollForOutgoingRequest_spends pending).trans fewer early.timer early.inflight
          early.queue
      · rename_i acknowledgement middle received
        have taken := (pollForOutgoingRequest_spends received).trans fewer early.timer
          early.inflight early.queue
        have weighed := taken.load
        simp only [Option.elim_some, OutgoingPacketRequest.weight] at weighed
        split at polled
        · cases polled
        · rename_i returned third routed
          obtain ⟨load, timer, inflight, channels⟩ := routeAcknowledgement_load routed
          cases polled
          refine ⟨?_, timer.trans taken.timer, inflight.trans taken.inflight, ?_, by simp⟩
          swap
          · rw [channels]
            exact taken.queue
          simp only [Option.toList_some, List.length_singleton] at load
          simp only [Option.elim_some, OutgoingPacketRequest.weight]
          omega
        · rename_i third routed
          obtain ⟨load, timer, inflight, channels⟩ := routeAcknowledgement_load routed
          simp only [Option.toList_none, List.length_nil] at load
          exact (ih polled).trans (by omega) (timer.trans taken.timer)
            (inflight.trans taken.inflight) (channels ▸ taken.queue)
      · rename_i other received
        cases polled
        exact (pollForOutgoingRequest_spends received).trans fewer early.timer early.inflight
          early.queue

theorem pollForOutgoingRequest_ackRx {ready : Readiness} {now : Nat} {session after : Session}
    {request : AcknowledgementRequest}
    (polled : session.pollForOutgoingRequest ready now =
      (some (.acknowledgementRequest request), after)) :
    session.ch.ackRx = request :: after.ch.ackRx := by
  have taken := pollForOutgoingRequest_ack ready now session
  rw [polled] at taken
  cases taken with
  | ack _ rest _ head queue => exact queue ▸ head
  | other _ _ noAck => exact absurd rfl (noAck request)

/-- A pending poll leaves nothing that could be sent. Each turn of the loop takes an
acknowledgement off its channel. -/
theorem nextOutgoingRequest_none {now : Nat} {polls : List Readiness} {session after : Session}
    (polled : nextOutgoingRequest now polls session = .ok (none, after))
    (drained : session.inflight.packetsToReplay = [])
    (enough : session.ch.ackRx.length < polls.length) :
    ∃ ready ∈ polls, after.Quiet ready now := by
  induction polls generalizing session with
  | nil => cases enough
  | cons ready later ih =>
    unfold nextOutgoingRequest at polled
    split at polled
    · cases polled
    · rename_i first taken
      obtain ⟨turn, channels, inflight⟩ := takeReady_none taken
      simp only at polled
      split at polled
      · rename_i middle pending
        cases polled
        exact ⟨ready, List.mem_cons_self,
          pollForOutgoingRequest_none pending (inflight ▸ drained) turn⟩
      · rename_i request middle received
        have held := (pollForOutgoingRequest_spends received).inflight
        have head := pollForOutgoingRequest_ackRx received
        split at polled
        · cases polled
        · cases polled
        · rename_i third routed
          obtain ⟨_, _, kept, unread⟩ := routeAcknowledgement_load routed
          have shorter : third.ch.ackRx.length < later.length := by
            rw [channels] at head
            rw [unread]
            rw [head] at enough
            simpa using enough
          obtain ⟨last, member, quiet⟩ := ih polled (by rw [kept, held, inflight, drained]) shorter
          exact ⟨last, List.mem_cons_of_mem _ member, quiet⟩
      · cases polled

/-! ### The next packet -/

/-- Whether the ping of the timer is due. -/
def pingDue (session : Session) (now : Nat) : Nat :=
  match session.pingreqTimer with
  | some timer => if timer.deadline ≤ now then 1 else 0
  | none => 0

/-- Everything that is left to send. -/
def backlog (session : Session) (now : Nat) : Nat := session.load + session.pingDue now

/-- The timer runs for some time when it is reset. -/
def Lasting (session : Session) : Prop :=
  ∀ timer, session.pingreqTimer = some timer → 0 < timer.duration

theorem issue_load {session after : Session} {now : Nat} {request : OutgoingPacketRequest}
    {packet : Packet} {fired : List Firing}
    (issued : session.issue now request = .ok (packet, after, fired)) :
    after.load = session.load ∧ after.pingreqTimer = session.pingreqTimer ∧
      after.ch = session.ch ∧ after.inApplication = session.inApplication ∧
      after.connectionEpoch = session.connectionEpoch := by
  cases request with
  | acknowledgementRequest request =>
    cases request <;> cases issued <;> exact ⟨rfl, rfl, rfl, rfl, rfl⟩
  | subscriptionRequest request pkid =>
    cases request <;> cases issued <;> exact ⟨rfl, rfl, rfl, rfl, rfl⟩
  | publishRequest request =>
    cases request <;> cases issued <;> exact ⟨rfl, rfl, rfl, rfl, rfl⟩
  | reauthRequest request =>
    simp only [issue] at issued
    split at issued
    · cases issued
      exact ⟨rfl, rfl, rfl, rfl, rfl⟩
    · cases issued
  | disconnectRequest disconnect =>
    cases issued
    exact ⟨rfl, rfl, rfl, rfl, rfl⟩
  | pingReq notifier =>
    cases issued
    exact ⟨rfl, rfl, rfl, rfl, rfl⟩

/-- The outcomes of a poll of the next packet. -/
inductive Advances (session : Session) (now : Nat) (polls : List Readiness) :
    Option Outgoing → Session → Prop where
  | replay (packet : Packet) (rest : List Packet)
      (head : session.inflight.packetsToReplay = packet :: rest) :
      Advances session now polls (some ⟨Packet.setDup packet, none⟩)
        (resetPingreqTimer
          { session with inflight := { session.inflight with packetsToReplay := rest } } now)
  | pending (after : Session) (drained : session.inflight.packetsToReplay = [])
      (requested : nextOutgoingRequest now polls session = .ok (none, after)) :
      Advances session now polls none after
  | issued (request : OutgoingPacketRequest) (taken after : Session) (packet : Packet)
      (fired : List Firing)
      (requested : nextOutgoingRequest now polls session = .ok (some request, taken))
      (issued : taken.issue now request = .ok (packet, after, fired)) :
      Advances session now polls (some ⟨packet, some request⟩) (after.resetPingreqTimer now)

theorem nextOutgoingPacket_advances {session after : Session} {now : Nat} {polls : List Readiness}
    {outgoing : Option Outgoing} {fired : List Firing}
    (polled : session.nextOutgoingPacket now polls = .ok (outgoing, after, fired)) :
    Advances session now polls outgoing after := by
  unfold nextOutgoingPacket at polled
  split at polled
  · split at polled
    · rename_i packet rest head
      cases polled
      exact .replay packet rest head
    · rename_i drained
      cases requested : nextOutgoingRequest now polls session with
      | error panic => simp [requested] at polled
      | ok outcome =>
        obtain ⟨request, taken⟩ := outcome
        cases request with
        | none =>
          simp only [requested, Except.ok.injEq, Prod.mk.injEq] at polled
          obtain ⟨rfl, rfl, -⟩ := polled
          exact .pending _ drained requested
        | some request =>
          simp only [requested] at polled
          cases issued : taken.issue now request with
          | error panic => simp [issued] at polled
          | ok outcome =>
            obtain ⟨packet, final, effects⟩ := outcome
            simp only [issued, Except.ok.injEq, Prod.mk.injEq] at polled
            obtain ⟨rfl, rfl, -⟩ := polled
            exact .issued request taken final packet effects requested issued
  · cases polled

/-- The timer is reset with every packet, and its own ping is sent when it is due. -/
theorem Advances.timer {session after : Session} {now : Nat} {polls : List Readiness}
    {outgoing : Option Outgoing} (advances : Advances session now polls outgoing after) :
    (outgoing = none → after.pingreqTimer = session.pingreqTimer) ∧
      ∀ sent, outgoing = some sent →
        after.pingreqTimer = session.pingreqTimer.map (·.reset now) ∧
          (sent.request = some (.pingReq none) → session.Due now) := by
  cases advances with
  | replay packet rest head =>
    refine ⟨by simp, ?_⟩
    intro sent same
    cases same
    exact ⟨rfl, by simp⟩
  | pending _ drained requested =>
    exact ⟨fun _ => (nextOutgoingRequest_spends requested).timer, by simp⟩
  | issued request taken final packet fired requested issued =>
    have spends := nextOutgoingRequest_spends requested
    have timer := (issue_load issued).2.1
    refine ⟨by simp, ?_⟩
    intro sent same
    cases same
    exact ⟨congrArg (Option.map _) (timer.trans spends.timer), spends.due⟩

theorem backlog_reset {session : Session} (lasting : session.Lasting) (now : Nat) :
    (session.resetPingreqTimer now).backlog now = session.load := by
  suffices spent : (session.resetPingreqTimer now).pingDue now = 0 by
    rw [backlog, spent]
    rfl
  cases found : session.pingreqTimer with
  | none => simp [pingDue, resetPingreqTimer, found]
  | some timer =>
    have positive := lasting timer found
    have later : ¬ now + timer.duration ≤ now := by omega
    simp [pingDue, resetPingreqTimer, found, Timer.reset, later]

/-- A request takes something off the load, unless it is the ping that was due. -/
theorem Spends.lt_backlog {session after : Session} {now : Nat} {request : OutgoingPacketRequest}
    (spends : Spends session now (some request) after) : after.load < session.backlog now := by
  have fewer := spends.load
  rw [backlog]
  by_cases pinged : request = .pingReq none
  · obtain ⟨timer, found, passed⟩ := spends.due (congrArg some pinged)
    have due : session.pingDue now = 1 := by simp [pingDue, found, passed]
    omega
  · have heavy : request.weight = 1 := by
      cases request with
      | pingReq notifier =>
        cases notifier with
        | none => exact absurd rfl pinged
        | some notifier => rfl
      | _ => rfl
    simp only [Option.elim_some] at fewer
    omega

/-- Every packet leaves less to send. -/
theorem Advances.backlog_lt {session after : Session} {now : Nat} {polls : List Readiness}
    {sent : Outgoing} (advances : Advances session now polls (some sent) after)
    (lasting : session.Lasting) :
    after.backlog now < session.backlog now ∧
      after.ch.ackRx.length ≤ session.ch.ackRx.length := by
  cases advances with
  | replay packet rest head =>
    have reset := @backlog_reset { session with
      inflight := { session.inflight with packetsToReplay := rest } } lasting now
    refine ⟨?_, Nat.le_refl _⟩
    rw [reset, backlog]
    simp only [load, disconnects, acks, head, List.length_cons]
    omega
  | issued request taken final packet fired requested issued =>
    have spends := nextOutgoingRequest_spends requested
    obtain ⟨load, timer, channels, -⟩ := issue_load issued
    have same := timer.trans spends.timer
    constructor
    · rw [backlog_reset (fun started found => lasting started (same ▸ found)) now, load]
      exact spends.lt_backlog
    · have queue : (final.resetPingreqTimer now).ch = taken.ch := channels
      rw [queue]
      exact spends.queue

/-- A pending poll with enough turns leaves nothing that could be sent. -/
theorem Advances.quiet {session after : Session} {now : Nat} {polls : List Readiness}
    (advances : Advances session now polls none after)
    (enough : session.ch.ackRx.length < polls.length) :
    (∃ ready ∈ polls, after.Quiet ready now) ∧ after.backlog now ≤ session.backlog now ∧
      after.ch.ackRx.length ≤ session.ch.ackRx.length := by
  cases advances with
  | pending _ drained requested =>
    have spends := nextOutgoingRequest_spends requested
    have fewer : after.load ≤ session.load := spends.load
    refine ⟨nextOutgoingRequest_none requested drained enough, ?_, spends.queue⟩
    rw [backlog, backlog, pingDue, pingDue, spends.timer]
    exact Nat.add_le_add_right fewer _

end Session

end MqttClient.Client
