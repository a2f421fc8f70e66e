import MqttClient.Client.Connection
import MqttClient.Client.WorldSpec

/-! The loop of a connection refines the session: each step of the client is a list of
calls into the session, made in an order the session may rely on. -/

namespace MqttClient.Client

open MqttClient.Proto

def Phase.isRunning : Phase → Bool
  | .running _ => true
  | _ => false

/-- The session has nothing to send. -/
def Machine.isQuiet (machine : Machine) (polls : List Readiness) : Bool :=
  match machine.world.poll polls with
  | .ok (none, _) => true
  | _ => false

/-- The condition the loop establishes: a packet of the server is handled only when no
packet waits to be sent again. -/
def Drained (world : World) : Event → Prop
  | .incoming _ => world.session.inflight.packetsToReplay = []
  | _ => True

/-- Calls that neither open nor end a connection. -/
def Event.isInside : Event → Bool
  | .connack _ _ _ _ => false
  | .disconnected _ => false
  | _ => true

namespace World

theorem poll_step {world next : World} {polls : List Readiness} {packet : Option Packet}
    (live : world.session.isConnected = true) (polled : world.poll polls = .ok (packet, next)) :
    world.step (.poll polls) = .ok next := by
  simp [step, live, polled, Except.mapError, Except.map]

theorem incoming_step {world next : World} {packet : Incoming}
    {result : Except ProtocolError Unit} (live : world.session.isConnected = true)
    (handled : world.incoming packet = .ok (next, result)) :
    world.step (.incoming packet) = .ok next := by
  simp [step, live, handled, Except.mapError, Except.map]

theorem disconnected_step {world : World} (live : world.session.isConnected = true)
    (disconnection : Disconnection) :
    world.step (.disconnected disconnection) = .ok (world.disconnected disconnection) := by
  simp [step, live]

/-- A poll that yields no packet leaves nothing to send again. -/
theorem poll_none_drained {world next : World} {polls : List Readiness}
    (polled : world.poll polls = .ok (none, next)) :
    next.session.inflight.packetsToReplay = [] := by
  unfold poll at polled
  split at polled
  · cases polled
  · rename_i outgoing session fired taken
    cases outgoing with
    | some sent => simp at polled
    | none =>
      cases polled
      cases Session.nextOutgoingPacket_cases taken with
      | pending _ drained frame => exact frame.op.packetsToReplay.trans drained

theorem inside_sameConnection {world next : World} {event : Event}
    (inside : event.isInside = true) (stepped : world.step event = .ok next) :
    SameConnection world next := by
  apply step_sameConnection stepped
  · rintro connack keepAlive authMethod interval rfl
    simp [Event.isInside] at inside
  · rintro disconnection rfl
    simp [Event.isInside] at inside

end World

namespace Machine

/-- What a step of the client does to its session. -/
inductive Effect (machine : Machine) (event : MachineEvent) (next : Machine) : Prop where
  | inside (added : List Event) (calls : next.calls = machine.calls ++ added)
      (ran : World.run machine.world added = .ok next.world)
      (drained : Transition.Along World.step Drained machine.world added)
      (quiet : ∀ call ∈ added, call.isInside = true)
      (phase : next.phase.isRunning = machine.phase.isRunning)
  | answered (options : ConnectOptions) (connack : ConnAck)
      (waiting : machine.phase = .connecting options)
      (received : event = .response (.packet (.connAck connack)))
      (called : next = machine.receiveResponse options (.packet (.connAck connack)))
  | ended (added : List Event) (disconnection : Disconnection) (last : World)
      (running : machine.phase.isRunning = true)
      (calls : next.calls = machine.calls ++ added ++ [.disconnected disconnection])
      (ran : World.run machine.world added = .ok last)
      (drained : Transition.Along World.step Drained machine.world added)
      (quiet : ∀ call ∈ added, call.isInside = true)
      (applied : next.world = last.disconnected disconnection) (phase : next.phase = .idle)
      (flushed : ∀ disconnect, disconnection = .client disconnect ↔
        ∃ loop, machine.phase = .running loop ∧ loop.await = .flushDisconnect disconnect ∧
          event = .flushed true)

namespace Effect

variable {machine next : Machine} {event : MachineEvent}

/-- A step that makes no call. -/
theorem silent (calls : next.calls = machine.calls) (world : next.world = machine.world)
    (phase : next.phase.isRunning = machine.phase.isRunning) : Effect machine event next :=
  .inside [] (by simp [calls]) (by rw [world]; rfl) trivial (by simp) phase

/-- A step that makes one call inside a connection. -/
theorem call (call : Event) (stepped : machine.world.step call = .ok next.world)
    (calls : next.calls = machine.calls ++ [call]) (drained : Drained machine.world call)
    (inside : call.isInside = true) (phase : next.phase.isRunning = machine.phase.isRunning) :
    Effect machine event next := by
  refine .inside [call] calls ?_ ((Transition.Along.cons_ok stepped).mpr ⟨drained, trivial⟩)
    (by simpa using inside) phase
  rw [World.run, Transition.exec_cons_ok stepped]
  rfl

/-- The connection ends after these calls, and not with a flushed DISCONNECT. -/
theorem stop (added : List Event) (last : Machine)
    (ended : Except InnerConnectionError InnerDisconnect) {loop : Loop}
    (running : machine.phase = .running loop) (calls : last.calls = machine.calls ++ added)
    (ran : World.run machine.world added = .ok last.world)
    (drained : Transition.Along World.step Drained machine.world added)
    (quiet : ∀ call ∈ added, call.isInside = true)
    (unflushed : ∀ disconnect, ended ≠ .ok (.application disconnect))
    (notFlushed : event ≠ .flushed true) :
    Effect machine event (last.runUntilDisconnect ended) := by
  refine .ended added _ last.world (by rw [running]; rfl) (by
    simp only [runUntilDisconnect, moveTo, after]
    rw [calls]) ran drained quiet rfl rfl ?_
  intro disconnect
  constructor
  · intro same
    split at same
    · rename_i sent
      exact absurd rfl (unflushed sent)
    · cases same
    · cases same
    · cases same
  · rintro ⟨_, _, _, same⟩
    exact absurd same notFlushed

end Effect

@[simp] theorem startWrite_world (machine : Machine) (loop : Loop) (packet : Packet) :
    (machine.startWrite loop packet).world = machine.world := by
  unfold startWrite
  split <;> rfl

@[simp] theorem startWrite_calls (machine : Machine) (loop : Loop) (packet : Packet) :
    (machine.startWrite loop packet).calls = machine.calls := by
  unfold startWrite
  split <;> rfl

theorem startWrite_running (machine : Machine) (loop : Loop) (packet : Packet) :
    (machine.startWrite loop packet).phase.isRunning = true := by
  unfold startWrite
  split <;> rfl

section Step

variable {machine next : Machine} {event : MachineEvent} {loop : Loop}

/-- A poll followed by what it leads to. -/
private theorem pollRan {polls : List Readiness} {world : World} {packet : Option Packet}
    (live : machine.world.session.isConnected = true)
    (polled : machine.world.poll polls = .ok (packet, world)) :
    World.run machine.world [.poll polls] = .ok world ∧
      Transition.Along World.step Drained machine.world [.poll polls] := by
  have stepped := World.poll_step live polled
  refine ⟨?_, (Transition.Along.cons_ok stepped).mpr ⟨trivial, trivial⟩⟩
  rw [World.run, Transition.exec_cons_ok stepped]
  rfl

private theorem dispatch_effect {polls : List Readiness} {world : World} {inner : Loop}
    {packet : Incoming} (running : machine.phase = .running loop)
    (live : machine.world.session.isConnected = true)
    (polled : machine.world.poll polls = .ok (none, world)) (notFlushed : event ≠ .flushed true)
    (dispatched : (machine.after (.poll polls) world).dispatch inner packet = .ok next) :
    Effect machine event next := by
  obtain ⟨first, _⟩ := pollRan live polled
  have liveAfter : world.session.isConnected = true :=
    (World.inside_sameConnection rfl (World.poll_step live polled)).isConnected.trans live
  unfold dispatch at dispatched
  have both : ∀ {reached result}, world.incoming packet = .ok (reached, result) →
      World.run machine.world [.poll polls, .incoming packet] = .ok reached ∧
        Transition.Along World.step Drained machine.world [.poll polls, .incoming packet] := by
    intro reached result handled
    have stepped := World.incoming_step liveAfter handled
    refine ⟨?_, ?_⟩
    · have whole := Transition.exec_snoc first stepped
      exact whole
    · refine (Transition.Along.cons_ok (World.poll_step live polled)).mpr ⟨trivial, ?_⟩
      exact (Transition.Along.cons_ok stepped).mpr ⟨World.poll_none_drained polled, trivial⟩
  split at dispatched
  · cases dispatched
  · rename_i reached handled
    cases dispatched
    obtain ⟨ran, drained⟩ := both handled
    exact .inside [.poll polls, .incoming packet] (by simp [after, moveTo]) ran drained
      (by simp [Event.isInside]) (by rw [running]; rfl)
  · rename_i reached error handled
    cases dispatched
    obtain ⟨ran, drained⟩ := both handled
    exact .stop [.poll polls, .incoming packet]
      ((machine.after (.poll polls) world).after (.incoming packet) reached) _ running
      (by simp [after]) ran drained (by simp [Event.isInside]) (by simp) notFlushed

private theorem handle_effect {polls : List Readiness} {world : World} {packet : Packet}
    (running : machine.phase = .running loop) (live : machine.world.session.isConnected = true)
    (polled : machine.world.poll polls = .ok (none, world)) (notFlushed : event ≠ .flushed true)
    (handled : (machine.after (.poll polls) world).handle loop packet = .ok next) :
    Effect machine event next := by
  obtain ⟨ran, drained⟩ := pollRan live polled
  have ends : ∀ {ended}, (∀ disconnect, ended ≠ .ok (.application disconnect)) →
      .ok ((machine.after (.poll polls) world).runUntilDisconnect ended) =
        (.ok next : Except Panic Machine) → Effect machine event next := by
    rintro ended unflushed ⟨⟩
    exact .stop [.poll polls] _ _ running rfl ran drained (by simp [Event.isInside])
      unflushed notFlushed
  unfold handle at handled
  split at handled
  · exact dispatch_effect running live polled notFlushed handled
  · exact dispatch_effect running live polled notFlushed handled
  · exact dispatch_effect running live polled notFlushed handled
  · exact dispatch_effect running live polled notFlushed handled
  · exact dispatch_effect running live polled notFlushed handled
  · exact ends (by simp) handled
  · exact dispatch_effect running live polled notFlushed handled
  · exact dispatch_effect running live polled notFlushed handled
  · exact ends (by simp) handled

private theorem wake_effect {polls : List Readiness} {read : Read} {expired : Bool}
    (running : machine.phase = .running loop) (live : machine.world.session.isConnected = true)
    (notFlushed : event ≠ .flushed true)
    (woke : machine.wake loop polls read expired = .ok next) : Effect machine event next := by
  have isRunning : machine.phase.isRunning = true := by rw [running]; rfl
  unfold wake at woke
  split at woke
  · cases woke
  · rename_i packet world polled
    cases woke
    refine .call (.poll polls) ?_ (by simp [after]) trivial rfl ?_
    · simpa [after] using World.poll_step live polled
    · exact (startWrite_running _ _ _).trans isRunning.symm
  · rename_i world polled
    obtain ⟨ran, drained⟩ := pollRan live polled
    have ends : ∀ {ended}, (∀ disconnect, ended ≠ .ok (.application disconnect)) →
        .ok ((machine.after (.poll polls) world).runUntilDisconnect ended) =
          (.ok next : Except Panic Machine) → Effect machine event next := by
      rintro ended unflushed ⟨⟩
      exact .stop [.poll polls] _ _ running rfl ran drained (by simp [Event.isInside])
        unflushed notFlushed
    simp only at woke
    split at woke
    · exact handle_effect running live polled notFlushed woke
    · exact ends (by simp) woke
    · split at woke
      · exact ends (by simp) woke
      · cases woke
        exact .call _ (World.poll_step live polled) rfl trivial rfl rfl

private theorem written_effect {polls : List Readiness} {packet : Packet}
    (running : machine.phase = .running loop) (live : machine.world.session.isConnected = true)
    (wrote : machine.written loop packet polls = .ok next) : Effect machine event next := by
  have isRunning : machine.phase.isRunning = true := by rw [running]; rfl
  unfold written at wrote
  split at wrote
  · cases wrote
    exact .silent rfl rfl isRunning.symm
  · split at wrote
    · cases wrote
    · rename_i packet world polled
      cases wrote
      refine .call (.poll polls) ?_ (by simp [after]) trivial rfl ?_
      · simpa [after] using World.poll_step live polled
      · exact (startWrite_running _ _ _).trans isRunning.symm
    · rename_i world polled
      cases wrote
      exact .call _ (World.poll_step live polled) rfl trivial rfl isRunning.symm

theorem liftPanic_ok {outcome : Except Panic Machine}
    (lifted : liftPanic outcome = .ok next) : outcome = .ok next := by
  cases outcome with
  | error panic => cases lifted
  | ok machine =>
    cases lifted
    rfl

theorem step_effect (live : machine.phase.isRunning = machine.world.session.isConnected)
    (stepped : machine.step event = .ok next) : Effect machine event next := by
  cases event with
  | app event =>
    cases stepped
    exact .call _ rfl rfl trivial rfl rfl
  | elapse duration =>
    cases stepped
    exact .call _ rfl rfl trivial rfl rfl
  | connect options sent =>
    simp only [step] at stepped
    split at stepped
    · rename_i idle
      cases stepped
      cases sent with
      | true => exact .silent rfl rfl (by rw [idle]; rfl)
      | false => exact .silent rfl rfl rfl
    · cases stepped
  | response response =>
    simp only [step] at stepped
    split at stepped
    · rename_i options waiting
      cases stepped
      have failed : Effect machine (.response response) (machine.moveTo .idle) :=
        .silent rfl rfl (by rw [waiting]; rfl)
      cases response with
      | packet packet =>
        cases packet with
        | connAck connack => exact .answered options connack waiting rfl rfl
        | auth auth =>
          simp only [receiveResponse]
          split
          · split
            · exact .silent rfl rfl (by rw [waiting]; rfl)
            · exact failed
          · exact failed
        | _ => exact failed
      | failed error => exact failed
      | timeout => exact failed
    · cases stepped
  | continueAuth sent =>
    simp only [step] at stepped
    split at stepped
    · rename_i options challenged
      cases stepped
      refine .silent rfl rfl ?_
      rw [challenged]
      cases sent <;> rfl
    · cases stepped
  | wake polls read expired =>
    simp only [step] at stepped
    split at stepped
    · rename_i loop running
      have connected : machine.world.session.isConnected = true := by rw [← live, running]; rfl
      split at stepped
      · exact wake_effect running connected (by simp) (liftPanic_ok stepped)
      · cases stepped
    · cases stepped
  | written sent polls =>
    simp only [step] at stepped
    split at stepped
    · rename_i loop running
      have connected : machine.world.session.isConnected = true := by rw [← live, running]; rfl
      split at stepped
      · split at stepped
        · exact written_effect running connected (liftPanic_ok stepped)
        · cases stepped
          exact .stop [] _ _ running (by simp) rfl trivial (by simp) (by simp) (by simp)
      · cases stepped
    · cases stepped
  | flushed sent =>
    simp only [step] at stepped
    split at stepped
    · rename_i loop running
      split at stepped
      · cases stepped
        cases sent with
        | true => exact .silent rfl rfl (by rw [running]; rfl)
        | false =>
          exact .stop [] _ (.error .io) running (by simp) rfl trivial (by simp)
            (by simp) (by simp)
      · rename_i disconnect flushing
        cases stepped
        cases sent with
        | false =>
          exact .stop [] _ _ running (by simp) rfl trivial (by simp) (by simp) (by simp)
        | true =>
          refine .ended [] (.client disconnect) machine.world (by rw [running]; rfl)
            (by simp [runUntilDisconnect, after, moveTo]) rfl trivial (by simp) rfl rfl ?_
          intro other
          constructor
          · intro same
            cases same
            exact ⟨loop, running, flushing, rfl⟩
          · rintro ⟨other', running', flushing', _⟩
            rw [running] at running'
            cases running'
            rw [flushing] at flushing'
            cases flushing'
            rfl
      · cases stepped
    · cases stepped

end Step

/-- The calls of the client are a run of the session in which packets of the server
are handled only with nothing left to send again, and the loop runs exactly while the
session is connected. -/
structure Sound (maxPkid : PacketIdentifier) (machine : Machine) : Prop where
  ran : World.run (.new maxPkid) machine.calls = .ok machine.world
  drained : Transition.Along World.step Drained (.new maxPkid) machine.calls
  live : machine.phase.isRunning = machine.world.session.isConnected

theorem sound_new (maxPkid : PacketIdentifier) : Sound maxPkid (.new maxPkid) :=
  ⟨rfl, trivial, rfl⟩

/-- Calls inside a connection stay on it. -/
theorem run_sameConnection {world next : World} {calls : List Event}
    (ran : World.run world calls = .ok next) (quiet : ∀ call ∈ calls, call.isInside = true) :
    World.SameConnection world next := by
  induction calls generalizing world with
  | nil =>
    cases ran
    exact .refl _
  | cons call rest ih =>
    simp only [World.run, Transition.exec] at ran
    split at ran
    · rename_i middle stepped
      have later := ih ran (fun later member => quiet later (List.mem_cons_of_mem _ member))
      exact (World.inside_sameConnection (quiet call List.mem_cons_self) stepped).trans later
    · cases ran

theorem Sound.extend {maxPkid : PacketIdentifier} {machine : Machine} {added : List Event}
    {world : World} (sound : Sound maxPkid machine)
    (ran : World.run machine.world added = .ok world)
    (drained : Transition.Along World.step Drained machine.world added) :
    World.run (.new maxPkid) (machine.calls ++ added) = .ok world ∧
      Transition.Along World.step Drained (.new maxPkid) (machine.calls ++ added) :=
  ⟨(Transition.exec_append sound.ran added).trans ran,
    (Transition.Along.append sound.ran).mpr ⟨sound.drained, drained⟩⟩

/-- A step of the client keeps the refinement. -/
theorem Sound.step {maxPkid : PacketIdentifier} {machine next : Machine} {event : MachineEvent}
    (sound : Sound maxPkid machine) (stepped : machine.step event = .ok next) :
    Sound maxPkid next := by
  cases step_effect sound.live stepped with
  | inside added calls ran drained quiet phase =>
    obtain ⟨whole, along⟩ := sound.extend ran drained
    refine ⟨calls ▸ whole, calls ▸ along, ?_⟩
    rw [phase, sound.live, (run_sameConnection ran quiet).isConnected]
  | ended added disconnection last running calls ran drained quiet applied phase flushed =>
    have live : last.session.isConnected = true :=
      (run_sameConnection ran quiet).isConnected.trans (sound.live.symm.trans running)
    have ended := World.disconnected_step live disconnection
    have all : World.run machine.world (added ++ [.disconnected disconnection]) =
        .ok (last.disconnected disconnection) := Transition.exec_snoc ran ended
    have along : Transition.Along World.step Drained machine.world
        (added ++ [.disconnected disconnection]) :=
      (Transition.Along.append ran).mpr ⟨drained, trivial, fun _ _ => trivial⟩
    obtain ⟨whole, along⟩ := sound.extend all along
    rw [List.append_assoc] at calls
    refine ⟨applied ▸ calls ▸ whole, calls ▸ along, ?_⟩
    rw [phase, applied, World.disconnected_isConnected]
    rfl
  | answered options connack waiting received called =>
    subst called
    have idle : machine.world.session.isConnected = false := by
      rw [← sound.live, waiting]
      rfl
    generalize attempted : machine.world.connack connack options.keepAlive.toKeepAlive
      options.authMethod options.properties.sessionExpiryInterval = outcome
    have stepped : machine.world.step (.connack connack options.keepAlive.toKeepAlive
        options.authMethod options.properties.sessionExpiryInterval) = .ok outcome.1 := by
      simp [World.step, idle, attempted]
    have ran : World.run machine.world [.connack connack options.keepAlive.toKeepAlive
        options.authMethod options.properties.sessionExpiryInterval] = .ok outcome.1 := by
      rw [World.run, Transition.exec_cons_ok stepped]
      rfl
    obtain ⟨whole, along⟩ := sound.extend ran
      ((Transition.Along.cons_ok stepped).mpr ⟨trivial, trivial⟩)
    simp only [receiveResponse, attempted]
    rcases machine.world.connack_cases connack options.keepAlive.toKeepAlive options.authMethod
      options.properties.sessionExpiryInterval with ⟨result, same, refused⟩ | ⟨sessionPresent, code, success⟩
    · rw [attempted] at same
      subst same
      refine ⟨?_, ?_, ?_⟩
      · split <;> exact whole
      · split <;> exact along
      · split
        · rename_i succeeded code
          exact absurd succeeded (refused _ code)
        · exact idle.symm
    · rw [attempted] at success
      subst success
      simp only [code]
      exact ⟨whole, along, rfl⟩

/-- Calls are only ever added. -/
theorem step_calls {machine next : Machine} {event : MachineEvent}
    (live : machine.phase.isRunning = machine.world.session.isConnected)
    (stepped : machine.step event = .ok next) : machine.calls <+: next.calls := by
  cases step_effect live stepped with
  | inside added calls => exact ⟨added, calls.symm⟩
  | answered options connack waiting received called =>
    subst called
    simp only [receiveResponse]
    split <;> exact List.prefix_append _ _
  | ended added disconnection last running calls =>
    exact ⟨added ++ [.disconnected disconnection], by rw [calls, List.append_assoc]⟩

/-- Connections are only ever added. -/
theorem Sound.connections_le {maxPkid : PacketIdentifier} {machine next : Machine}
    {event : MachineEvent} (sound : Sound maxPkid machine)
    (stepped : machine.step event = .ok next) :
    machine.world.connections ≤ next.world.connections := by
  obtain ⟨added, calls⟩ := step_calls sound.live stepped
  have ran := (sound.step stepped).ran
  rw [← calls, World.run, Transition.exec_append sound.ran] at ran
  exact World.run_connections ran

theorem sound_run {maxPkid : PacketIdentifier} {events : List MachineEvent} {machine : Machine}
    (ran : run (.new maxPkid) events = .ok machine) : Sound maxPkid machine :=
  Transition.exec_always (Sound maxPkid) (sound_new maxPkid)
    (fun _ _ _ sound stepped => sound.step stepped) ran

end Machine

end MqttClient.Client
