import MqttClient.Client.Provenance
import MqttClient.Client.Wire

/-! What a server hears on a connection: a CONNECT, AUTH until it accepts the connection, then
what a client may say, and nothing after a DISCONNECT. -/

namespace MqttClient.Client

open MqttClient.Proto

/-- What a client may say on an accepted connection, as far as the application has operations
for it: no QoS 2, one filter in each subscription, and a method in each AUTH. -/
def Packet.isSpoken : Packet → Bool
  | .publish publish =>
    match publish.packetIdentifierDupQoS with
    | .exactlyOnce _ _ => false
    | _ => true
  | .subscribe subscribe => subscribe.subscribeTo.length == 1
  | .unsubscribe unsubscribe => unsubscribe.unsubscribeFrom.length == 1
  | .auth auth => auth.authentication.isSome
  | .pubAck _ | .pingReq | .disconnect _ => true
  | _ => false

/-- Where a server is with a client. -/
inductive Dialogue where
  | silent
  /-- A CONNECT with this method has been heard, and not been answered with a CONNACK. -/
  | greeting (method : Option ByteStr)
  | established
  | closed
  deriving DecidableEq

namespace Dialogue

/-- A packet of the client, unless it has no place here. -/
def hears : Dialogue → Packet → Option Dialogue
  | .silent, .connect connect =>
    some (.greeting (connect.otherProperties.authentication.map (·.method)))
  | .greeting (some method), .auth auth =>
    if auth.reasonCode = .continueAuthentication ∧
        auth.authentication.map (·.method) = some method then
      some (.greeting (some method))
    else none
  | .established, .disconnect _ => some .closed
  | .established, packet => if Packet.isSpoken packet then some .established else none
  | _, _ => none

def hearsAll (dialogue : Dialogue) (packets : List Packet) : Option Dialogue :=
  packets.foldlM hears dialogue

theorem hearsAll_snoc (dialogue : Dialogue) (packets : List Packet) (packet : Packet) :
    dialogue.hearsAll (packets ++ [packet]) =
      (dialogue.hearsAll packets).bind (·.hears packet) := by
  simp only [hearsAll, List.foldlM_append, List.foldlM_cons, List.foldlM_nil, bind_pure]
  rfl

/-- On an accepted connection everything has its place that a client may say, up to one
DISCONNECT. -/
theorem hearsAll_established {packets : List Packet}
    (spoken : ∀ packet ∈ packets, Packet.isSpoken packet = true)
    (last : ∀ early disconnect late,
      packets = early ++ .disconnect disconnect :: late → late = []) :
    ∃ dialogue, established.hearsAll packets = some dialogue ∧
      (dialogue = .closed ↔ ∃ disconnect, .disconnect disconnect ∈ packets) := by
  induction packets with
  | nil => exact ⟨.established, rfl, by simp⟩
  | cons packet packets ih =>
    obtain ⟨first, further⟩ := List.forall_mem_cons.mp spoken
    by_cases ends : ∃ disconnect, packet = .disconnect disconnect
    · obtain ⟨disconnect, rfl⟩ := ends
      obtain rfl : packets = [] := last [] disconnect packets rfl
      exact ⟨.closed, rfl, by simp⟩
    · have goes : established.hears packet = some .established := by
        cases packet with
        | disconnect disconnect => exact absurd ⟨disconnect, rfl⟩ ends
        | _ => simp [hears, first]
      obtain ⟨dialogue, heard, closed⟩ := ih further fun early disconnect late split =>
        last (packet :: early) disconnect late (by rw [split]; rfl)
      refine ⟨dialogue, ?_, ?_⟩
      · rw [hearsAll, List.foldlM_cons, goes]
        exact heard
      · rw [closed]
        constructor
        · rintro ⟨disconnect, member⟩
          exact ⟨disconnect, List.mem_cons_of_mem _ member⟩
        · rintro ⟨disconnect, member⟩
          rcases List.mem_cons.mp member with rfl | later
          · exact absurd ⟨disconnect, rfl⟩ ends
          · exact ⟨disconnect, later⟩

end Dialogue

/-! ### What a session says -/

theorem AppEvent.Builds.isSpoken {event : AppEvent} {packet : Packet}
    (built : event.Builds packet) : Packet.isSpoken packet = true := by
  cases built <;> rfl

theorem poll_isSpoken {session after : Session} {now : Nat} {polls : List Readiness}
    {outgoing : Option Outgoing} {fired : List Firing}
    (holds : Holds (Packet.isSpoken · = true) session) (only : QoS1Only session)
    (polled : session.nextOutgoingPacket now polls = .ok (outgoing, after, fired)) :
    ∀ sent ∈ outgoing, Packet.isSpoken sent.packet = true := by
  have asked := (holds.poll only polled).2
  cases Session.nextOutgoingPacket_cases polled with
  | replay packet rest head =>
    intro sent member
    cases member
    exact holds.replays packet (head ▸ List.mem_cons_self)
  | pending _ drained frame =>
    intro sent member
    cases member
  | issued middle taken after request packet fired drained frame requested issued =>
    intro sent member
    have request := asked sent member
    cases member
    cases requested with
    | disconnect disconnect _ _ =>
      cases issued
      rfl
    | ack acknowledgement _ _ pending =>
      obtain ⟨notifier, puback, epoch, rfl⟩ := (only.ofAckFrame frame).acks acknowledgement pending
      cases issued
      rfl
    | auth reauth rest head =>
      simp only [Session.issue] at issued
      split at issued
      · rename_i authentication given
        cases issued
        simp [Packet.isSpoken, given]
      · cases issued
    | ping notifier rest head =>
      cases issued
      rfl
    | subscription subscription rest pkid pool head leased =>
      cases subscription <;> cases issued <;> exact request rfl
    | publishQoS0 publish rest head =>
      cases issued
      exact request rfl
    | publish publish rest pkid pool head leased =>
      cases publish <;> cases issued <;> exact request rfl
    | timer =>
      cases issued
      rfl

/-- In every run, everything that a session sends is what a client may say. -/
theorem emissions_isSpoken {maxPkid : PacketIdentifier} {calls : List Event} {world : World}
    (ran : World.run (.new maxPkid) calls = .ok world) :
    ∀ emission ∈ world.emissions, Packet.isSpoken emission.outgoing.packet = true := by
  have always : Holds (Packet.isSpoken · = true) world.session ∧ QoS1Only world.session ∧
      ∀ emission ∈ world.emissions, Packet.isSpoken emission.outgoing.packet = true := by
    refine Transition.exec_always (fun world : World =>
      Holds (Packet.isSpoken · = true) world.session ∧ QoS1Only world.session ∧
        ∀ emission ∈ world.emissions, Packet.isSpoken emission.outgoing.packet = true)
      ⟨.new maxPkid, .new maxPkid, by simp [World.new]⟩ ?_ ran
    rintro world event next ⟨holds, only, spoken⟩ stepped
    refine ⟨holds.step only (fun _ _ _ built => built.isSpoken) stepped, only.step stepped, ?_⟩
    by_cases polled : ∃ polls, event = .poll polls
    · obtain ⟨polls, rfl⟩ := polled
      cases World.step_cases stepped with
      | polled _ outgoing session fired live polled =>
        intro emission member
        rcases List.mem_append.mp member with earlier | new
        · exact spoken emission earlier
        · obtain ⟨outgoing, present, rfl⟩ := List.mem_map.mp new
          exact poll_isSpoken holds only polled outgoing (Option.mem_toList.mp present)
    · rw [World.step_emissions stepped fun polls same => polled ⟨polls, same⟩]
      exact spoken
  exact always.2.2

/-! ### Behind the CONNECT -/

/-- The options of an attempt. -/
def Phase.options? : Phase → Option ConnectOptions
  | .connecting options => some options
  | .challenged options => some options
  | _ => none

theorem Phase.options?_isSome (phase : Phase) :
    phase.options?.isSome = true ↔ phase.stage = .opening := by
  cases phase <;> simp [options?, stage]

namespace Machine

theorem receiveResponse_options {machine : Machine} {options kept : ConnectOptions}
    {response : Response}
    (attempts : (machine.receiveResponse options response).phase.options? = some kept) :
    kept = options := by
  cases response with
  | packet packet =>
    cases packet with
    | connAck connack =>
      simp only [receiveResponse] at attempts
      split at attempts <;> cases attempts
    | auth auth =>
      simp only [receiveResponse] at attempts
      split at attempts
      · split at attempts
        · cases attempts
          rfl
        · cases attempts
      · cases attempts
    | _ => cases attempts
  | failed error => cases attempts
  | timeout => cases attempts

/-- An attempt goes on with its own options, as long as the writer is not used. -/
theorem step_options {machine next : Machine} {event : MachineEvent}
    (apart : event.writes = false) (stepped : machine.step event = .ok next)
    {options : ConnectOptions} (attempts : next.phase.options? = some options) :
    machine.phase.options? = some options := by
  have opening : next.phase.stage = .opening :=
    next.phase.options?_isSome.mp (Option.isSome_of_eq_some attempts)
  cases event with
  | app event =>
    cases stepped
    exact attempts
  | elapse duration =>
    cases stepped
    exact attempts
  | connect other sent =>
    cases sent with
    | true => cases apart
    | false =>
      simp only [step] at stepped
      split at stepped
      · cases stepped
        exact attempts
      · cases stepped
  | response response =>
    simp only [step] at stepped
    split at stepped
    · rename_i other waiting
      cases stepped
      rw [waiting, receiveResponse_options attempts]
      rfl
    · cases stepped
  | continueAuth sent => cases apart
  | wake polls read expired =>
    cases step_moves stepped with
    | kept _ _ _ stage =>
      simp only [step] at stepped
      split at stepped
      · rename_i loop running
        rw [stage, running] at opening
        cases opening
      · cases stepped
    | ended _ _ stage => cases stage.symm.trans opening
    | woken _ _ _ _ _ _ stage => cases stage.symm.trans opening
  | written sent polls => cases apart
  | flushed sent => cases apart

end Machine

section

open Io

variable {O : Type}

namespace Wired

/-- What was written before the CONNACK is what a server expects there. -/
structure Greets (wired : Wired O) : Prop where
  attempt : ∀ options, wired.machine.phase.options? = some options →
    Dialogue.silent.hearsAll wired.opening = some (.greeting options.method)
  accepted : ∀ await, wired.machine.phase.stage = .running await →
    ∃ method, Dialogue.silent.hearsAll wired.opening = some (.greeting method)

variable {wired next : Wired O}

theorem Greets.of_idle (idle : next.machine.phase.stage = .idle) : Greets next where
  attempt options attempts := by
    have opening := next.machine.phase.options?_isSome.mp (Option.isSome_of_eq_some attempts)
    cases idle.symm.trans opening
  accepted await running := by cases idle.symm.trans running

/-- The loop goes on. -/
theorem Greets.of_running (greets : Greets wired) {before after : Await}
    (ran : wired.machine.phase.stage = .running before)
    (runs : next.machine.phase.stage = .running after) (same : next.opening = wired.opening) :
    Greets next where
  attempt options attempts := by
    have opening := next.machine.phase.options?_isSome.mp (Option.isSome_of_eq_some attempts)
    cases runs.symm.trans opening
  accepted _ _ := by
    rw [same]
    exact greets.accepted before ran

theorem Greets.client (greets : Greets wired) {event : MachineEvent} {machine : Machine}
    (apart : event.writes = false) (stepped : wired.machine.step event = .ok machine) :
    Greets { wired with machine := machine } where
  attempt options attempts := greets.attempt options (Machine.step_options apart stepped attempts)
  accepted await running := by
    cases Machine.step_moves stepped with
    | kept _ _ _ stage => exact greets.accepted await (stage.symm.trans running)
    | ended _ _ stage => cases stage.symm.trans running
    | opened response _ before =>
      obtain ⟨options, attempts⟩ :=
        Option.isSome_iff_exists.mp (wired.machine.phase.options?_isSome.mpr before)
      exact ⟨_, greets.attempt options attempts⟩
    | woken _ _ _ _ _ before => exact greets.accepted _ before
    | attempted _ _ stage => cases stage.symm.trans running
    | answered _ _ stage => cases stage.symm.trans running
    | wrote => cases apart
    | wroteDisconnect => cases apart
    | flushed => cases apart
    | flushedDisconnect => cases apart

/-- A packet of the loop is written or flushed. -/
theorem Greets.writes (greets : Greets wired) {usage : Usage (EitherAccumulator O)}
    {event : Bool → MachineEvent}
    (inside : ∀ sent, (∃ polls, event sent = .written sent polls) ∨ event sent = .flushed sent)
    (stepped : wired.goOn usage wired.opening event = .ok next) : Greets next := by
  obtain ⟨sent, _, rebuilt, moved⟩ := goOn_ok stepped
  have same : next.opening = wired.opening := by rw [rebuilt]
  rcases inside sent with ⟨polls, called⟩ | called
  · rw [called] at moved
    cases Machine.step_moves moved with
    | kept _ _ apart => cases apart
    | ended _ _ stage => exact .of_idle stage
    | wrote _ _ _ _ before _ stage => exact greets.of_running before stage same
    | wroteDisconnect _ _ _ before stage => exact greets.of_running before stage same
  · rw [called] at moved
    cases Machine.step_moves moved with
    | kept _ _ apart => cases apart
    | ended _ _ stage => exact .of_idle stage
    | flushed _ before stage => exact greets.of_running before stage same
    | flushedDisconnect _ _ _ stage => exact .of_idle stage

theorem Greets.connect {options : ConnectOptions} {usage : Usage (EitherAccumulator O)}
    (stepped : wired.goOn usage [.connect options.mqttConnect] (.connect options) = .ok next) :
    Greets next := by
  obtain ⟨machine, after, opening⟩ := next
  obtain ⟨sent, _, rebuilt, moved⟩ := goOn_ok stepped
  cases rebuilt
  simp only [Machine.step] at moved
  split at moved
  · rename_i idle
    cases sent with
    | true =>
      cases moved
      refine ⟨?_, by rintro await ⟨⟩⟩
      rintro other ⟨⟩
      rfl
    | false =>
      cases moved
      exact .of_idle (congrArg Phase.stage idle)
  · cases moved

theorem Greets.continueAuth (greets : Greets wired) {options : ConnectOptions}
    (challenged : wired.machine.phase = .challenged options) {method : ByteStr}
    (named : options.method = some method) {arguments : AuthArguments}
    {usage : Usage (EitherAccumulator O)}
    (stepped : wired.goOn usage
      (wired.opening ++ [.auth (arguments.auth .continueAuthentication method)]) .continueAuth =
        .ok next) : Greets next := by
  obtain ⟨machine, after, opening⟩ := next
  obtain ⟨sent, _, rebuilt, moved⟩ := goOn_ok stepped
  cases rebuilt
  simp only [Machine.step, challenged] at moved
  cases sent with
  | true =>
    cases moved
    refine ⟨?_, by rintro await ⟨⟩⟩
    rintro other ⟨⟩
    have before := greets.attempt options (by rw [challenged]; rfl)
    rw [Dialogue.hearsAll_snoc, before, named]
    simp [Dialogue.hears, AuthArguments.auth]
  | false =>
    cases moved
    exact .of_idle rfl

theorem Greets.step [LawfulOwned O] {event : WireEvent O} (greets : Greets wired)
    (stepped : wired.step event = .ok next) : Greets next := by
  cases event with
  | client event =>
    obtain ⟨apart, machine, moved, rfl⟩ := Wired.step_client stepped
    exact greets.client apart moved
  | connect options buf write flush => exact Greets.connect stepped
  | continueAuth arguments write flush =>
    simp only [Wired.step] at stepped
    split at stepped
    · rename_i options challenged
      split at stepped
      · rename_i method named
        exact greets.continueAuth challenged named stepped
      · cases stepped
    · cases stepped
  | written answers polls =>
    simp only [Wired.step] at stepped
    split at stepped
    · exact greets.writes (fun sent => .inl ⟨polls, rfl⟩) stepped
    · cases stepped
  | flushed answers => exact greets.writes (fun sent => .inr rfl) stepped

theorem greets_run [LawfulOwned O] {maxPkid : PacketIdentifier} {events : List (WireEvent O)}
    {wired : Wired O} (ran : run (.new maxPkid) events = .ok wired) : Greets wired :=
  Transition.exec_always Greets (.of_idle rfl) (fun _ _ _ greets stepped => greets.step stepped) ran

end Wired

/-- Whatever the application, the server and the transport do, a server hears only what has its
place: before its CONNACK a CONNECT and then AUTH with the method of the CONNECT, on the accepted
connection what a client may say, and nothing behind a DISCONNECT. Once it has been said, the
client does nothing but send it. -/
theorem conversation_exact [LawfulOwned O] (maxPkid : PacketIdentifier)
    (events : List (WireEvent O)) (wired : Wired O)
    (ran : Wired.run (.new maxPkid) events = .ok wired) :
    (∀ options, wired.machine.phase.options? = some options →
      Dialogue.silent.hearsAll wired.opening = some (.greeting options.method)) ∧
      (∀ loop, wired.machine.phase = .running loop →
        ∃ method, Dialogue.silent.hearsAll wired.opening = some (.greeting method)) ∧
      (∀ connection, ∃ dialogue,
        Dialogue.established.hearsAll (wired.machine.world.packetsOn connection) = some dialogue ∧
          (dialogue = .closed ↔
            ∃ disconnect, .disconnect disconnect ∈ wired.machine.world.packetsOn connection)) ∧
      ∀ loop disconnect, wired.machine.phase = .running loop →
        .disconnect disconnect ∈ wired.machine.world.packetsOn wired.machine.world.connections →
        loop.await = .write (.disconnect disconnect) ∨
          loop.await = .flushDisconnect disconnect := by
  have holds := Wired.holds_run ran
  have greets := Wired.greets_run ran
  refine ⟨greets.attempt, ?_, ?_, ?_⟩
  · intro loop running
    exact greets.accepted loop.await (by rw [running, Phase.stage])
  · intro connection
    apply Dialogue.hearsAll_established _ (holds.closing.last connection)
    intro packet member
    obtain ⟨emission, sent, rfl⟩ := List.mem_map.mp member
    exact emissions_isSpoken holds.sound.ran emission (List.mem_filter.mp sent).1
  · intro loop disconnect running said
    exact holds.closing.current loop.await disconnect (by rw [running, Phase.stage]) said

/-- The method `a`, without data. -/
def plainMethod : Authentication := ⟨⟨⟨[0, 1, 0x61]⟩⟩, none⟩

/-- A connection with enhanced authentication, of which one challenge is answered, and a ping. -/
def challengedThenPing : List (WireEvent BytesMut) :=
  [.connect { cleanStart := true, keepAlive := .infinite, authentication := some plainMethod }
      ⟨.single .new, rfl⟩ [] [.accepts 100, .accepts 0],
    .client (.response (.packet (.auth ⟨.continueAuthentication, some plainMethod, none, []⟩))),
    .continueAuth {} [] [.accepts 100, .accepts 0],
    .client (.response (.packet (.connAck
      ⟨.success false, { authentication := some plainMethod }⟩))),
    .client (.app .ping), .client (.wake [{}] .pending false)]

theorem conversation_exact_challenged :
    ∃ wired loop method, Wired.run (.new .one) challengedThenPing = .ok wired ∧
      wired.machine.phase = .running loop ∧ wired.opening.length = 2 ∧
      wired.machine.world.packetsOn wired.machine.world.connections = [.pingReq] ∧
      Dialogue.silent.hearsAll wired.opening = some (.greeting method) := by
  have reached : ∃ wired loop, Wired.run (.new .one) challengedThenPing = .ok wired ∧
      wired.machine.phase = .running loop ∧ wired.opening.length = 2 ∧
      wired.machine.world.packetsOn wired.machine.world.connections = [.pingReq] :=
    ⟨_, _, rfl, rfl, rfl, rfl⟩
  obtain ⟨wired, loop, ran, running, opening, pinged⟩ := reached
  obtain ⟨method, heard⟩ :=
    (@conversation_exact BytesMut inferInstance .one challengedThenPing wired ran).2.1 loop running
  exact ⟨wired, loop, method, ran, running, opening, pinged, heard⟩

end

end MqttClient.Client
