import MqttClient.Client.PingTimeout

/-! The deadline of the loop against the PINGREQs that wait for an answer, and how soon a
server that stops answering is noticed. -/

namespace MqttClient.Client

open MqttClient.Proto

/-- The client, with the times at which the unanswered PINGREQs of its connection were sent,
oldest first, as an observer of its packets knows them. -/
structure Watched where
  machine : Machine
  unanswered : List Nat := []

namespace Watched

def new (maxPkid : PacketIdentifier) : Watched where
  machine := .new maxPkid

/-- What waits after a step on a connection: a PINGRESP answers the oldest PINGREQ. -/
def observe (watched : Watched) : PingAction → List Nat
  | .emit => watched.unanswered ++ [watched.machine.world.now]
  | .answer => watched.unanswered.tail
  | .other => watched.unanswered

/-- Between connections nothing waits. -/
def note (watched : Watched) (event : MachineEvent) : List Nat :=
  if watched.machine.phase.isRunning then watched.observe (watched.machine.pingAction event)
  else []

def step (watched : Watched) (event : MachineEvent) : Except Stop Watched :=
  (watched.machine.step event).map fun next => ⟨next, watched.note event⟩

abbrev run (start : Watched) (events : List MachineEvent) : Except Stop Watched :=
  Transition.exec step start events

/-- A connection with a response timeout has a PINGREQ without an answer. -/
structure Waits (watched : Watched) (loop : Loop) (timeout oldest : Nat) : Prop where
  running : watched.machine.phase = .running loop
  limited : loop.cfgPingrespTimeout = some timeout
  first : watched.unanswered.head? = some oldest

/-- The loop waits until a response timeout after the oldest unanswered PINGREQ, or less
long. -/
def PingDeadline (watched : Watched) : Prop :=
  ∀ loop timeout oldest, watched.Waits loop timeout oldest →
    ∃ timer, loop.pingrespTimer = some timer ∧ timer.deadline ≤ oldest + timeout

/-- With a response timeout, no PINGREQ is sent later than one that waits for its answer,
and no PINGRESP arrives while more than one waits. -/
def PingsApart (watched : Watched) (event : MachineEvent) : Prop :=
  ∀ loop timeout, watched.machine.phase = .running loop →
    loop.cfgPingrespTimeout = some timeout →
    match watched.machine.pingAction event with
    | .emit => ∀ oldest ∈ watched.unanswered.head?, watched.machine.world.now ≤ oldest
    | .answer => watched.unanswered.length ≤ 1
    | .other => True

variable {watched next : Watched} {event : MachineEvent}

theorem step_ok (stepped : watched.step event = .ok next) :
    watched.machine.step event = .ok next.machine ∧ next.unanswered = watched.note event := by
  cases ran : watched.machine.step event with
  | error stop => simp [step, ran, Except.map] at stepped
  | ok machine =>
    simp only [step, ran, Except.map, Except.ok.injEq] at stepped
    subst stepped
    exact ⟨rfl, rfl⟩

/-- What a step means for the observer. -/
inductive Observed (watched : Watched) (event : MachineEvent) (next : Watched) : Prop where
  | elapsed (duration : Nat) (event : event = .elapse duration)
      (phase : next.machine.phase = watched.machine.phase)
      (clock : next.machine.world.now = watched.machine.world.now + duration)
      (unanswered : watched.machine.phase.isRunning = true →
        next.unanswered = watched.unanswered)
      (pings : next.machine.world.pings = watched.machine.world.pings)
  | instant (instant : ∀ duration, event ≠ .elapse duration)
      (pings : Machine.PingStep watched.machine next.machine (watched.machine.pingAction event))
      (unanswered : next.unanswered = watched.note event)

theorem step_observed {maxPkid : PacketIdentifier}
    (sound : Machine.Sound maxPkid watched.machine) (stepped : watched.step event = .ok next) :
    Observed watched event next := by
  obtain ⟨ran, noted⟩ := step_ok stepped
  by_cases instant : ∀ duration, event ≠ .elapse duration
  · have replayable := (replayable_run sound.ran sound.drained).2.1
    exact .instant instant (Machine.step_pings replayable (Machine.pings_idle sound) instant ran)
      noted
  · obtain ⟨duration, same⟩ : ∃ duration, event = .elapse duration := by simpa using instant
    subst same
    have moved : next.machine = watched.machine.after (.elapse duration)
        { watched.machine.world with now := watched.machine.world.now + duration } :=
      (Except.ok.inj ran).symm
    refine .elapsed duration rfl (by rw [moved]; rfl) (by rw [moved]; rfl) ?_ (by rw [moved]; rfl)
    intro running
    simp [noted, note, observe, running, Machine.pingAction]

/-- The observer knows the PINGREQs that the session waits for. -/
def Agrees (watched : Watched) : Prop :=
  watched.machine.phase.isRunning = true → watched.unanswered = watched.machine.world.pings

theorem Agrees.step (agrees : watched.Agrees) (observed : Observed watched event next) :
    next.Agrees := by
  cases observed with
  | elapsed duration same phase clock unanswered pings =>
    intro running
    rw [phase] at running
    rw [unanswered running, pings]
    exact agrees running
  | instant instant pings unanswered =>
    intro live
    generalize acts : watched.machine.pingAction event = action at pings
    have known {loop : Loop} (running : watched.machine.phase = .running loop) :
        watched.unanswered = watched.machine.world.pings ∧
          watched.machine.phase.isRunning = true := by
      have running : watched.machine.phase.isRunning = true := by rw [running]; rfl
      exact ⟨agrees running, running⟩
    cases pings with
    | kept before after running goes clock timeout timer pings =>
      obtain ⟨same, running⟩ := known running
      simp [unanswered, note, observe, running, acts, same, pings]
    | emitted before after running goes clock timeout timer pings =>
      obtain ⟨same, running⟩ := known running
      simp [unanswered, note, observe, running, acts, same, pings]
    | answered before after running goes clock timeout timer pings =>
      obtain ⟨same, running⟩ := known running
      simp [unanswered, note, observe, running, acts, same, pings]
    | opened closed pings => simp [unanswered, note, closed, pings]
    | idle stopped => simp [stopped] at live

/-- Time passes for a loop that waits. -/
private theorem Waits.elapsed {loop : Loop} {timeout oldest : Nat}
    (phase : next.machine.phase = watched.machine.phase)
    (unanswered : watched.machine.phase.isRunning = true →
      next.unanswered = watched.unanswered) :
    next.Waits loop timeout oldest ↔ watched.Waits loop timeout oldest := by
  constructor
  · rintro ⟨running, limited, first⟩
    rw [phase] at running
    exact ⟨running, limited, unanswered (by rw [running]; rfl) ▸ first⟩
  · rintro ⟨running, limited, first⟩
    exact ⟨phase.trans running, limited, (unanswered (by rw [running]; rfl)).symm ▸ first⟩

/-- When the PINGREQs are apart, a PINGRESP leaves none of them without an answer. -/
private theorem PingsApart.last (apart : watched.PingsApart event) {loop : Loop} {timeout : Nat}
    (running : watched.machine.phase = .running loop)
    (limited : loop.cfgPingrespTimeout = some timeout)
    (acts : watched.machine.pingAction event = .answer) :
    watched.observe .answer = [] := by
  have few := apart loop timeout running limited
  simp only [acts] at few
  apply List.eq_nil_of_length_eq_zero
  rw [observe, List.length_tail]
  omega

/-- A deadline that has passed ends the connection at the next idle poll. -/
theorem PingDeadline.ends (met : watched.PingDeadline) {loop : Loop} {timeout oldest : Nat}
    {polls : List Readiness} {world : World} (waits : watched.Waits loop timeout oldest)
    (selecting : loop.await = .select) (passed : oldest + timeout ≤ watched.machine.world.now)
    (quiet : watched.machine.world.poll polls = .ok (none, world)) :
    watched.machine.step (.wake polls .pending true) =
      .ok ((watched.machine.after (.poll polls) world).runUntilDisconnect (.ok .pingTimeout)) := by
  obtain ⟨timer, armed, bound⟩ := met loop timeout oldest waits
  have clock : world.now = watched.machine.world.now := by
    unfold World.poll at quiet
    split at quiet
    · cases quiet
    · rename_i outgoing session fired taken
      cases outgoing with
      | some sent => cases quiet
      | none =>
        cases quiet
        rfl
  have expired : Machine.pingrespExpired loop world.now true = true := by
    simp only [Machine.pingrespExpired, armed, Bool.true_and, decide_eq_true_eq, clock]
    omega
  simp [Machine.step, waits.running, selecting, Machine.wake, quiet, expired, Machine.liftPanic,
    Except.mapError]

/-- What holds of every state that is reached. -/
structure Valid (maxPkid : PacketIdentifier) (watched : Watched) : Prop where
  sound : Machine.Sound maxPkid watched.machine
  agrees : watched.Agrees

theorem Valid.step {maxPkid : PacketIdentifier} (valid : Valid maxPkid watched)
    (stepped : watched.step event = .ok next) : Valid maxPkid next where
  sound := valid.sound.step (step_ok stepped).1
  agrees := valid.agrees.step (step_observed valid.sound stepped)

theorem valid_new (maxPkid : PacketIdentifier) : Valid maxPkid (.new maxPkid) where
  sound := Machine.sound_new maxPkid
  agrees live := by cases live

end Watched

end MqttClient.Client
