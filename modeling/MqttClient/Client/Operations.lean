import MqttClient.Lib.Ledger
import MqttClient.Client.DisciplineRuns

/-! Operations from their request to the notifier that fires: each step of the session
is a step of the ledger of each kind of operation. -/

namespace MqttClient.Client

open MqttClient.Proto

def Firing.notifier : Firing → Notifier
  | .publishQoS0 notifier _ => notifier
  | .publishQoS1 notifier _ => notifier
  | .publishQoS2 notifier _ => notifier
  | .subscribe notifier _ => notifier
  | .unsubscribe notifier _ => notifier
  | .pubAck notifier _ => notifier
  | .pubRecAccept notifier _ => notifier
  | .pubRecReject notifier _ => notifier
  | .pubRel notifier _ => notifier
  | .pubComp notifier _ => notifier
  | .reauth notifier _ => notifier
  | .ping notifier _ => notifier

namespace OpKind

/-- The cancellation of an operation. -/
def cancel (kind : OpKind) (reason : String) (notifier : Notifier) : Firing :=
  match kind with
  | .publishQoS1 => .publishQoS1 notifier (.cancel reason)
  | .publishQoS2 => .publishQoS2 notifier (.cancel reason)
  | .subscribe => .subscribe notifier (.cancel reason)
  | .unsubscribe => .unsubscribe notifier (.cancel reason)

/-- Operations that survive a connection. -/
def isPublish : OpKind → Bool
  | .publishQoS1 | .publishQoS2 => true
  | .subscribe | .unsubscribe => false

@[simp] theorem notifier_cancel (kind : OpKind) (reason : String) (notifier : Notifier) :
    (kind.cancel reason notifier).notifier = notifier := by
  cases kind <;> rfl

end OpKind

@[simp] theorem Acknowledgement.notifier_fire (ack : Acknowledgement) (notifier : Notifier) :
    (ack.fire notifier).notifier = notifier := by
  cases ack <;> rfl

/-- Notifiers of requests that wait in their channel. -/
def Channels.queued (ch : Channels) : OpKind → List Notifier
  | .subscribe => ch.subRx.filterMap fun
    | .subscribe notifier _ _ _ => some notifier
    | .unsubscribe _ _ _ => none
  | .unsubscribe => ch.subRx.filterMap fun
    | .subscribe _ _ _ _ => none
    | .unsubscribe notifier _ _ => some notifier
  | .publishQoS1 => ch.oPubQ12Rx.filterMap fun
    | .publishQoS1 request => some request.notifier
    | .publishQoS2 _ => none
  | .publishQoS2 => ch.oPubQ12Rx.filterMap fun
    | .publishQoS1 _ => none
    | .publishQoS2 request => some request.notifier

/-- An operation taken from its request channel and sent. -/
structure Operation where
  kind : OpKind
  pkid : PacketIdentifier
  notifier : Notifier
  connection : Nat
  packet : Packet
  deriving DecidableEq

def Emission.operation? (emission : Emission) : Option Operation :=
  emission.outgoing.opens.map fun (kind, pkid, notifier) =>
    ⟨kind, pkid, notifier, emission.connection, emission.outgoing.packet⟩

namespace World

/-- The operations sent so far, in the order of their first emission. -/
def operations (world : World) : List Operation := world.emissions.filterMap Emission.operation?

def opened (world : World) (kind : OpKind) : List (Ledger.Entry Operation) :=
  (world.operations.filter (fun operation => operation.kind == kind)).map fun operation =>
    ⟨operation.notifier, operation⟩

/-- The notifiers of a kind that fired, each with the record of its firing. -/
def settled (world : World) (kind : OpKind) : List (Notifier × Fired) :=
  world.fired.filterMap fun record =>
    if record.firing.kind? = some kind then some (record.firing.notifier, record) else none

end World

/-- A firing that the operation may end with. -/
def Resolves (operation : Operation) (record : Fired) : Prop :=
  (∃ ack : Acknowledgement, ack.kind = operation.kind ∧
      ack.packetIdentifier = operation.pkid ∧ record.event = .incoming (.ack ack) ∧
      record.firing = ack.fire operation.notifier) ∨
    (∃ reason, record.firing = operation.kind.cancel reason operation.notifier) ∧
      if operation.kind.isPublish then
        ((∃ disconnection, record.event = .disconnected disconnection) ∧
          record.expiryInterval = .duration 0) ∨
        ∃ connack keepAlive authMethod interval,
          record.event = .connack connack keepAlive authMethod interval ∧
          connack.reasonCode = .success false
      else
        (∃ disconnection, record.event = .disconnected disconnection) ∧
          record.connection = operation.connection

/-- What a step does to the operations of one kind. -/
inductive KindStep (kind : OpKind) (before after : World) : Prop where
  | idle (fresh : before.fresh ≤ after.fresh)
      (queued : after.session.ch.queued kind = before.session.ch.queued kind)
      (stored : after.session.inflight.stored kind = before.session.inflight.stored kind)
      (opened : after.opened kind = before.opened kind)
      (settled : after.settled kind = before.settled kind)
  | submit (fresh : after.fresh = before.fresh + 1)
      (queued : after.session.ch.queued kind =
        before.session.ch.queued kind ++ [before.fresh])
      (stored : after.session.inflight.stored kind = before.session.inflight.stored kind)
      (opened : after.opened kind = before.opened kind)
      (settled : after.settled kind = before.settled kind)
  | open (operation : Operation) (ofKind : operation.kind = kind)
      (current : operation.connection = before.connections)
      (live : before.session.isConnected = true)
      (emitted : Packet.operationIdentifier operation.packet = some operation.pkid)
      (fresh : after.fresh = before.fresh)
      (queued : before.session.ch.queued kind =
        operation.notifier :: after.session.ch.queued kind)
      (stored : after.session.inflight.stored kind =
        before.session.inflight.stored kind ++ [(operation.pkid, operation.notifier)])
      (opened : after.opened kind =
        before.opened kind ++ [⟨operation.notifier, operation⟩])
      (settled : after.settled kind = before.settled kind)
  | settle (due : PacketIdentifier × Notifier → Bool) (record : Notifier → Fired)
      (fresh : after.fresh = before.fresh)
      (queued : after.session.ch.queued kind = before.session.ch.queued kind)
      (stored : after.session.inflight.stored kind =
        (before.session.inflight.stored kind).filter (fun entry => !due entry))
      (opened : after.opened kind = before.opened kind)
      (settled : after.settled kind = before.settled kind ++
        ((before.session.inflight.stored kind).filter due).map
          (fun entry => (entry.2, record entry.2)))
      (legit : ∀ operation : Operation, operation.kind = kind →
        (operation.pkid, operation.notifier) ∈ before.session.inflight.stored kind →
        due (operation.pkid, operation.notifier) = true →
        (kind.isPublish = false → operation.connection = before.connections) →
        Resolves operation (record operation.notifier))

namespace World

theorem opened_congr {before after : World} (same : after.emissions = before.emissions)
    (kind : OpKind) : after.opened kind = before.opened kind := by
  simp only [opened, operations, same]

theorem settled_congr {before after : World} (same : after.fired = before.fired)
    (kind : OpKind) : after.settled kind = before.settled kind := by
  simp only [settled, same]

/-- The record of a firing at an event that leaves `session`. -/
def recordOf (world : World) (event : Event) (session : Session) (firing : Firing) : Fired :=
  ⟨firing, event, world.connections, session.expiryInterval⟩

theorem settled_record (world : World) (event : Event) (session : Session) (fired : List Firing)
    (kind : OpKind) :
    (world.record event session fired).settled kind = world.settled kind ++
      (fired.filter (fun firing => decide (firing.kind? = some kind))).map
        (fun firing => (firing.notifier, world.recordOf event session firing)) := by
  simp only [settled, record, List.filterMap_append, List.filterMap_map]
  congr 1
  induction fired with
  | nil => rfl
  | cons firing rest ih =>
    by_cases ofKind : firing.kind? = some kind
    · simpa [ofKind, recordOf] using ih
    · simpa [ofKind] using ih

/-- A poll fires no notifier of an operation. -/
theorem settled_afterPoll (world : World) (polls : List Readiness) (outgoing : Option Outgoing)
    (session : Session) (fired : List Firing) (kind : OpKind)
    (silent : ∀ firing ∈ fired, firing.kind? = none) :
    (world.afterPoll polls outgoing session fired).settled kind = world.settled kind := by
  have same : (world.afterPoll polls outgoing session fired).settled kind =
      (world.record (.poll polls) session fired).settled kind := rfl
  rw [same, settled_record]
  have empty : fired.filter (fun firing => decide (firing.kind? = some kind)) = [] := by
    rw [List.filter_eq_nil_iff]
    intro firing member
    simp [silent firing member]
  simp [empty]

end World

namespace KindStep

variable {kind : OpKind} {before after : World}

/-- A step that opens and fires nothing of the kind. -/
theorem ofQuiet (fresh : before.fresh ≤ after.fresh)
    (queued : after.session.ch.queued kind = before.session.ch.queued kind)
    (inflight : after.session.inflight.stored kind = before.session.inflight.stored kind)
    (emissions : after.emissions = before.emissions)
    (settled : after.settled kind = before.settled kind) : KindStep kind before after :=
  .idle fresh queued inflight (World.opened_congr emissions kind) settled

theorem app (world : World) (event : AppEvent) : KindStep kind world (world.app event) := by
  obtain ⟨emissions, fired, _, fresh⟩ := world.app_history event
  obtain ⟨ch, same, _⟩ := world.app_session event
  have inflight : (world.app event).session.inflight = world.session.inflight := by rw [same]
  have stored := congrArg (InflightTracker.stored · kind) inflight
  have opened := World.opened_congr emissions kind
  have settled := World.settled_congr fired kind
  have quiet : (world.app event).session.ch.queued kind = world.session.ch.queued kind →
      KindStep kind world (world.app event) :=
    fun queued => .idle fresh queued stored opened settled
  have used : ∀ serial reasonCode otherProperties,
      (world.useToken serial reasonCode otherProperties).session.ch.queued kind =
        world.session.ch.queued kind := by
    intro serial reasonCode otherProperties
    unfold World.useToken
    split <;> cases kind <;> rfl
  cases event with
  | subscribe topicFilter options otherProperties =>
    cases kind with
    | subscribe =>
      refine .submit rfl ?_ stored opened settled
      simp [World.app, World.submit, World.withChannels, Channels.queued]
    | unsubscribe =>
      apply quiet
      simp [World.app, World.submit, World.withChannels, Channels.queued]
    | publishQoS1 => exact quiet rfl
    | publishQoS2 => exact quiet rfl
  | unsubscribe topicFilter otherProperties =>
    cases kind with
    | subscribe =>
      apply quiet
      simp [World.app, World.submit, World.withChannels, Channels.queued]
    | unsubscribe =>
      refine .submit rfl ?_ stored opened settled
      simp [World.app, World.submit, World.withChannels, Channels.queued]
    | publishQoS1 => exact quiet rfl
    | publishQoS2 => exact quiet rfl
  | publishQoS1 topicName payload retain otherProperties =>
    cases kind with
    | subscribe => exact quiet rfl
    | unsubscribe => exact quiet rfl
    | publishQoS1 =>
      refine .submit rfl ?_ stored opened settled
      simp [World.app, World.submit, World.withChannels, Channels.queued]
    | publishQoS2 =>
      apply quiet
      simp [World.app, World.submit, World.withChannels, Channels.queued]
  | acknowledge serial reasonCode otherProperties => exact quiet (used _ _ _)
  | dropToken serial => exact quiet (used _ _ _)
  | disconnect disconnect =>
    apply quiet
    simp only [World.app, World.withChannels]
    split <;> cases kind <;> rfl
  | dropDisconnectHandle =>
    apply quiet
    simp only [World.app, World.withChannels]
    split <;> cases kind <;> rfl
  | _ => apply quiet; cases kind <;> rfl

private theorem opened_afterPoll (world : World) (polls : List Readiness)
    (outgoing : Option Outgoing) (session : Session) (fired : List Firing) (kind : OpKind) :
    (world.afterPoll polls outgoing session fired).opened kind =
      world.opened kind ++ (outgoing.bind fun sent => match sent.opens with
        | some (opens, pkid, notifier) => if opens = kind then
            some ⟨notifier, ⟨opens, pkid, notifier, world.connections, sent.packet⟩⟩ else none
        | none => none).toList := by
  simp only [World.opened, World.operations, World.afterPoll, List.filterMap_append, List.filter_append,
    List.map_append]
  congr 1
  cases outgoing with
  | none => rfl
  | some sent =>
    simp only [Option.toList_some, List.map_cons, List.map_nil, List.filterMap_cons,
      List.filterMap_nil, Emission.operation?, Option.bind_some]
    cases sent.opens with
    | none => rfl
    | some opens =>
      obtain ⟨opens, pkid, notifier⟩ := opens
      by_cases same : opens = kind
      · simp [same]
      · simp [same]

private theorem pollOpens {world : World} {polls : List Readiness} {session : Session}
    {sent : Outgoing} {opens : OpKind} {pkid : PacketIdentifier} {notifier : Notifier}
    (live : world.session.isConnected = true)
    (named : sent.opens = some (opens, pkid, notifier))
    (identified : Packet.operationIdentifier sent.packet = some pkid)
    (stored : ∀ kind, session.inflight.stored kind =
      world.session.inflight.stored kind ++ if kind = opens then [(pkid, notifier)] else [])
    (queued : ∀ kind, world.session.ch.queued kind =
      (if kind = opens then [notifier] else []) ++ session.ch.queued kind) :
    KindStep kind world (world.afterPoll polls (some sent) session []) := by
  have opened := opened_afterPoll world polls (some sent) session [] kind
  have settled := world.settled_afterPoll polls (some sent) session [] kind (by simp)
  simp only [Option.bind_some, named] at opened
  have storedKind := stored kind
  have queuedKind := queued kind
  by_cases same : opens = kind
  · subst same
    simp only [if_true] at storedKind queuedKind
    refine .open ⟨opens, pkid, notifier, world.connections, sent.packet⟩ rfl rfl live identified rfl
      queuedKind storedKind ?_ settled
    simpa using opened
  · have different : kind ≠ opens := fun reversed => same reversed.symm
    simp only [different, if_false, List.append_nil, List.nil_append] at storedKind queuedKind
    refine .idle (Nat.le_refl _) queuedKind.symm storedKind ?_ settled
    simpa [same] using opened

theorem poll {world : World} {polls : List Readiness} {session : Session} {fired : List Firing}
    {outgoing : Option Outgoing} (disciplined : Disciplined world.session)
    (live : world.session.isConnected = true)
    (effect : Session.PollEffect world.session outgoing session fired) :
    KindStep kind world (world.afterPoll polls outgoing session fired) := by
  have opensOf : ∀ {sent opens pkid notifier}, outgoing = some sent →
      sent.opens = some (opens, pkid, notifier) →
      Packet.operationIdentifier sent.packet = some pkid → sent.request ≠ none →
      ∀ kind, session.inflight.stored kind =
        world.session.inflight.stored kind ++ if kind = opens then [(pkid, notifier)] else [] := by
    rintro sent opens pkid notifier rfl named identified answered
    rcases disciplined.poll_stored effect with ⟨_, _, plain⟩ |
      ⟨_, _, _, _, ⟨⟩, renamed, _, _, stored⟩
    · simp [plain sent rfl answered] at identified
    · rw [named] at renamed
      cases renamed
      exact stored
  cases effect with
  | quiet outgoing after fired drained frame silent plain =>
    refine .idle (Nat.le_refl _) ?_ (frame.stored kind) ?_ (world.settled_afterPoll _ _ _ _ _ silent)
    · cases kind <;> simp [World.afterPoll, World.record, Channels.queued, frame.subRx, frame.oPubQ12Rx]
    · rw [opened_afterPoll]
      cases outgoing with
      | none => simp
      | some sent => simp [(plain sent rfl).2.1]
  | replay packet rest after head frame =>
    refine .idle (Nat.le_refl _) ?_ ((frame.stored kind).trans ?_) ?_
      (world.settled_afterPoll _ _ _ _ _ (by simp))
    · cases kind <;> simp [World.afterPoll, World.record, Channels.queued, frame.subRx, frame.oPubQ12Rx]
    · cases kind <;> rfl
    · rw [opened_afterPoll]
      simp [Outgoing.opens]
  | subscribe notifier topicFilter options otherProperties rest pkid pool after drained head leased
      frame =>
    refine pollOpens live rfl rfl (opensOf rfl rfl rfl (by simp)) (fun kind => ?_)
    cases kind <;> simp [Channels.queued, frame.subRx, frame.oPubQ12Rx, head]
  | unsubscribe notifier topicFilter otherProperties rest pkid pool after drained head leased
      frame =>
    refine pollOpens live rfl rfl (opensOf rfl rfl rfl (by simp)) (fun kind => ?_)
    cases kind <;> simp [Channels.queued, frame.subRx, frame.oPubQ12Rx, head]
  | publishQoS1 request rest pkid pool after drained head leased frame =>
    refine pollOpens live rfl rfl (opensOf rfl rfl rfl (by simp)) (fun kind => ?_)
    cases kind <;> simp [Channels.queued, frame.subRx, frame.oPubQ12Rx, head]
  | publishQoS2 request rest pkid pool after drained head leased frame =>
    refine pollOpens live rfl rfl (opensOf rfl rfl rfl (by simp)) (fun kind => ?_)
    cases kind <;> simp [Channels.queued, frame.subRx, frame.oPubQ12Rx, head]

/-- A step that fires the operations of the kind that are due and removes them. -/
theorem ofDue {session : Session} {fired : List Firing} {event : Event}
    (due : PacketIdentifier × Notifier → Bool) (fire : Notifier → Firing)
    (named : ∀ notifier, (fire notifier).notifier = notifier)
    (reached : after.session = session) (fresh : after.fresh = before.fresh)
    (emissions : after.emissions = before.emissions)
    (history : after.fired = (before.record event session fired).fired)
    (queued : session.ch.queued kind = before.session.ch.queued kind)
    (stored : session.inflight.stored kind =
      (before.session.inflight.stored kind).filter (fun entry => !due entry))
    (firings : fired.filter (fun firing => decide (firing.kind? = some kind)) =
      ((before.session.inflight.stored kind).filter due).map (fun entry => fire entry.2))
    (legit : ∀ operation : Operation, operation.kind = kind →
      due (operation.pkid, operation.notifier) = true →
      (kind.isPublish = false → operation.connection = before.connections) →
      Resolves operation (before.recordOf event session (fire operation.notifier))) :
    KindStep kind before after := by
  refine .settle due (fun notifier => before.recordOf event session (fire notifier)) fresh
    (reached ▸ queued) (reached ▸ stored) (World.opened_congr emissions kind) ?_
    (fun operation ofKind _ => legit operation ofKind)
  rw [World.settled_congr history, World.settled_record, firings]
  simp [named]

/-- A step that fires no notifier of the kind. -/
theorem ofSilent {session : Session} {fired : List Firing} {event : Event}
    (reached : after.session = session) (fresh : after.fresh = before.fresh)
    (emissions : after.emissions = before.emissions)
    (history : after.fired = (before.record event session fired).fired)
    (queued : session.ch.queued kind = before.session.ch.queued kind)
    (stored : session.inflight.stored kind = before.session.inflight.stored kind)
    (firings : fired.filter (fun firing => decide (firing.kind? = some kind)) = []) :
    KindStep kind before after := by
  refine .ofQuiet (Nat.le_of_eq fresh.symm) (reached ▸ queued) (reached ▸ stored) emissions ?_
  rw [World.settled_congr history, World.settled_record, firings]
  simp

theorem acked {world : World} {ack : Acknowledgement} {handled : Handled}
    (completed : world.session.completeInflight ack.operation = .ok handled) :
    KindStep kind world
      (world.record (.incoming (.ack ack)) handled.session handled.fired) := by
  obtain ⟨session, fired⟩ := Session.completeInflight_spec completed
  have queued : handled.session.ch.queued kind = world.session.ch.queued kind := by rw [session]
  have stored : handled.session.inflight.stored kind =
      (ack.removeFrom world.session.inflight).stored kind := by rw [session]
  rw [ack.stored_removeFrom] at stored
  by_cases own : kind = ack.kind
  · subst own
    rw [if_pos rfl] at stored
    refine .ofDue (fun entry => entry.1 == ack.packetIdentifier) ack.fire ack.notifier_fire rfl rfl
      rfl rfl queued stored ?_ ?_
    · rw [fired, List.filter_eq_self.mpr]
      intro firing member
      obtain ⟨entry, _, rfl⟩ := List.mem_map.mp member
      cases ack <;> rfl
    · intro operation ofKind due _
      exact .inl ⟨ack, ofKind.symm, (beq_iff_eq.mp due).symm, rfl, rfl⟩
  · rw [if_neg own] at stored
    refine .ofSilent rfl rfl rfl rfl queued stored ?_
    rw [fired, List.filter_eq_nil_iff]
    intro firing member
    obtain ⟨entry, _, rfl⟩ := List.mem_map.mp member
    cases ack <;> simpa [Acknowledgement.fire, Firing.kind?, Acknowledgement.kind, eq_comm] using own

end KindStep

namespace Session

variable (session : Session) (kind : OpKind)

private theorem filter_fired {α : Type} (values : List α) (fire : α → Firing)
    (ofKind : OpKind) (named : ∀ value, (fire value).kind? = some ofKind) :
    (values.map fire).filter (fun firing => decide (firing.kind? = some kind)) =
      if ofKind = kind then values.map fire else [] := by
  split
  · rename_i same
    exact List.filter_eq_self.mpr (by simp [named, same])
  · rename_i different
    exact List.filter_eq_nil_iff.mpr (by simp [named, different])

private theorem filter_other {α : Type} (values : List α) (fire : α → Firing)
    (named : ∀ value, (fire value).kind? = none) :
    (values.map fire).filter (fun firing => decide (firing.kind? = some kind)) = [] :=
  List.filter_eq_nil_iff.mpr (by simp [named])

/-- An expiry removes every publish in flight. -/
theorem stored_sessionExpired :
    session.sessionExpired.1.inflight.stored kind =
      if kind.isPublish then [] else session.inflight.stored kind := by
  cases kind <;> rfl

/-- An expiry cancels every publish in flight. -/
theorem fired_sessionExpired :
    session.sessionExpired.2.filter (fun firing => decide (firing.kind? = some kind)) =
      if kind.isPublish then
        (session.inflight.stored kind).map (fun entry => kind.cancel "MQTT session expired" entry.2)
      else [] := by
  simp only [sessionExpired, List.filter_append]
  rw [filter_fired kind _ _ .publishQoS1 (fun _ => rfl),
    filter_fired kind _ _ .publishQoS2 (fun _ => rfl), filter_other kind _ _ (fun _ => rfl),
    filter_other kind _ _ (fun _ => rfl)]
  cases kind <;>
    simp [OpKind.isPublish, InflightTracker.stored, IndexMap.values, OpKind.cancel,
      Function.comp_def]

/-- A closed connection removes every subscribe and unsubscribe in flight. -/
theorem stored_disconnected :
    session.disconnected.1.inflight.stored kind =
      if kind.isPublish then session.inflight.stored kind else [] := by
  cases kind <;> rfl

/-- A closed connection cancels every subscribe and unsubscribe in flight. -/
theorem fired_disconnected :
    session.disconnected.2.filter (fun firing => decide (firing.kind? = some kind)) =
      if kind.isPublish then []
      else (session.inflight.stored kind).map
        (fun entry => kind.cancel "Client disconnected" entry.2) := by
  simp only [disconnected, List.filter_append]
  rw [filter_fired kind _ _ .subscribe (fun _ => rfl),
    filter_fired kind _ _ .unsubscribe (fun _ => rfl), filter_other kind _ _ (fun _ => rfl),
    filter_other kind _ _ (fun _ => rfl)]
  cases kind <;>
    simp [OpKind.isPublish, InflightTracker.stored, IndexMap.values, OpKind.cancel,
      Function.comp_def]

theorem stored_ended (interval : SessionExpiryInterval) :
    (session.ended interval).1.inflight.stored kind =
      if kind.isPublish ∧ interval ≠ .duration 0 then session.inflight.stored kind else [] := by
  have closed := session.stored_disconnected kind
  simp only [ended, expireIfZero]
  by_cases zero : interval = .duration 0
  · simp only [zero, if_true, stored_sessionExpired, ne_eq, not_true, and_false, if_false]
    split
    · rfl
    · rename_i other
      exact closed.trans (by simp [other])
  · simpa [zero] using closed

theorem fired_ended (interval : SessionExpiryInterval) :
    (session.ended interval).2.filter (fun firing => decide (firing.kind? = some kind)) =
      if kind.isPublish then
        if interval = .duration 0 then
          (session.inflight.stored kind).map
            (fun entry => kind.cancel "MQTT session expired" entry.2)
        else []
      else (session.inflight.stored kind).map
        (fun entry => kind.cancel "Client disconnected" entry.2) := by
  have closed := session.stored_disconnected kind
  simp only [ended, expireIfZero, List.filter_append, fired_disconnected]
  by_cases zero : interval = .duration 0
  · simp only [zero, if_true, fired_sessionExpired]
    split
    · rename_i publish
      simp only [publish, if_true] at closed
      simp [closed]
    · simp
  · cases kind <;> simp [zero, OpKind.isPublish]

end Session

namespace KindStep

variable {kind : OpKind} {before after : World}

theorem established {world : World} {connack : ConnAck} {keepAlive : KeepAlive}
    {authMethod : Option Bytes} {interval : SessionExpiryInterval} {sessionPresent : Bool}
    (code : connack.reasonCode = .success sessionPresent) :
    KindStep kind world
      (world.established connack keepAlive authMethod interval sessionPresent) := by
  cases sessionPresent with
  | true => exact .ofSilent rfl rfl rfl rfl (by cases kind <;> rfl) rfl rfl
  | false =>
    have stored := world.session.stored_sessionExpired kind
    have fired := world.session.fired_sessionExpired kind
    cases publish : kind.isPublish with
    | true =>
      simp only [publish, if_true] at stored fired
      refine .ofDue (fun _ => true) (kind.cancel "MQTT session expired")
        (kind.notifier_cancel _) rfl rfl rfl rfl (by cases kind <;> rfl) ?_ ?_ ?_
      · exact stored.trans (by simp)
      · exact fired.trans (by simp)
      · rintro operation rfl _ _
        refine .inr ⟨⟨_, rfl⟩, ?_⟩
        rw [if_pos publish]
        exact .inr ⟨connack, keepAlive, authMethod, interval, rfl, code⟩
    | false =>
      simp only [publish, Bool.false_eq_true, if_false] at stored fired
      exact .ofSilent rfl rfl rfl rfl (by cases kind <;> rfl) stored fired

theorem disconnected (world : World) (disconnection : Disconnection) :
    KindStep kind world (world.disconnected disconnection) := by
  rw [world.disconnected_eq]
  generalize effective : disconnection.expiryInterval world.session = interval
  have stored := world.session.stored_ended kind interval
  have fired := world.session.fired_ended kind interval
  have queued : (world.session.ended interval).1.ch.queued kind =
      world.session.ch.queued kind := by
    simp only [Session.ended, Session.expireIfZero]
    split <;> rfl
  have final : (world.session.ended interval).1.expiryInterval = interval := by
    simp only [Session.ended, Session.expireIfZero]
    split <;> rfl
  cases publish : kind.isPublish with
  | true =>
    by_cases zero : interval = .duration 0
    · simp only [publish, zero, ne_eq, not_true, and_false, if_false, if_true] at stored fired
      refine .ofDue (fun _ => true) (kind.cancel "MQTT session expired")
        (kind.notifier_cancel _) rfl rfl rfl rfl queued ?_ ?_ ?_
      · exact zero ▸ stored.trans (by simp)
      · exact zero ▸ fired.trans (by simp)
      · rintro operation rfl _ _
        refine .inr ⟨⟨_, rfl⟩, ?_⟩
        rw [if_pos publish]
        exact .inl ⟨⟨disconnection, rfl⟩, final.trans zero⟩
    · simp only [publish, zero, ne_eq, not_false_eq_true, and_self, if_false, if_true]
        at stored fired
      exact .ofSilent rfl rfl rfl rfl queued stored fired
  | false =>
    simp only [publish, Bool.false_eq_true, false_and, if_false] at stored fired
    refine .ofDue (fun _ => true) (kind.cancel "Client disconnected")
      (kind.notifier_cancel _) rfl rfl rfl rfl queued ?_ ?_ ?_
    · exact stored.trans (by simp)
    · exact fired.trans (by simp)
    · rintro operation rfl _ current
      refine .inr ⟨⟨_, rfl⟩, ?_⟩
      rw [if_neg (by simp [publish])]
      exact ⟨⟨disconnection, rfl⟩, (current publish).symm⟩

/-- Every step of the session is a step of each kind of operation. Only a poll relies on
the discipline. -/
theorem ofStep {event : Event}
    (disciplined : ∀ polls, event = .poll polls → Disciplined before.session)
    (stepped : before.step event = .ok after) : KindStep kind before after := by
  cases World.step_cases stepped with
  | app event => exact .app before event
  | elapse duration => exact .ofQuiet (Nat.le_refl _) rfl rfl rfl rfl
  | refused => exact .ofQuiet (Nat.le_refl _) rfl rfl rfl rfl
  | established connack keepAlive authMethod interval sessionPresent idle code =>
    exact .established code
  | polled polls outgoing session fired live polled =>
    exact .poll (disciplined polls rfl) live (Session.nextOutgoingPacket_effect polled)
  | acked ack handled live completed => exact .acked completed
  | delivered publish next live delivered =>
    obtain ⟨emissions, fired, _, fresh⟩ := World.incomingPublish_history delivered
    obtain ⟨ackRx, inApplication, same⟩ := World.incomingPublish_session delivered
    refine .ofQuiet fresh ?_ ?_ emissions (World.settled_congr fired kind)
    · rw [same]
      cases kind <;> rfl
    · rw [same]
  | authenticated auth live =>
    obtain ⟨⟨exchange, same⟩, silent⟩ := before.session.incomingAuth_frame auth
    rw [same]
    refine .ofSilent rfl rfl rfl rfl rfl (by cases kind <;> rfl) ?_
    rw [List.filter_eq_nil_iff]
    intro firing member
    simp [silent firing member]
  | ponged live =>
    obtain ⟨⟨rest, same⟩, silent⟩ := before.session.incomingPingresp_frame before.now
    rw [same]
    refine .ofSilent rfl rfl rfl rfl rfl (by cases kind <;> rfl) ?_
    rw [List.filter_eq_nil_iff]
    intro firing member
    simp [silent firing member]
  | disconnected disconnection live => exact .disconnected before disconnection

end KindStep

end MqttClient.Client
