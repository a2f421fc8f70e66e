import MqttClient.Lib.Ledger
import MqttClient.Client.Exchanges

/-! The completions of re-authentications. The session has one slot for the AUTH in flight,
which the next AUTH takes over. -/

namespace MqttClient.Client

open MqttClient.Proto

/-- A re-authentication whose AUTH was sent on the connection with this number. -/
structure Reauthentication where
  notifier : Notifier
  auth : Auth
  connection : Nat
  deriving DecidableEq

def Emission.reauthentication? (emission : Emission) : Option Reauthentication :=
  emission.reauth?.map fun request => ⟨request.notifier, request.auth, emission.connection⟩

/-- The notifier that an AUTH of the server completes. -/
def Fired.answered? (record : Fired) : Option Notifier :=
  match record.firing with
  | .reauth notifier (.complete _) => some notifier
  | _ => none

/-- A firing that the re-authentication may end with: an AUTH of the server, or the end of the
connection that its AUTH was sent on. -/
def Reauthentication.Resolves (operation : Reauthentication) (record : Fired) : Prop :=
  record.connection = operation.connection ∧
    ((∃ auth result, record.event = .incoming (.auth auth) ∧
        (result = .success auth ∨ ∃ method, result = .continue auth method) ∧
        record.firing = .reauth operation.notifier (.complete result)) ∨
      ∃ disconnection reason, record.event = .disconnected disconnection ∧
        record.firing = .reauth operation.notifier (.cancel reason))

namespace World

/-- The re-authentications in the order in which their AUTH packets were sent. -/
def reauths (world : World) : List Reauthentication :=
  world.emissions.filterMap Emission.reauthentication?

/-- The notifiers of the re-authentications sent on a connection, in order. -/
def requested (world : World) (connection : Nat) : List Notifier :=
  (world.reauths.filter fun operation => operation.connection == connection).map (·.notifier)

/-- The notifiers that AUTH packets of the server completed on a connection, in order. -/
def answered (world : World) (connection : Nat) : List Notifier :=
  (world.fired.filter fun record => record.connection == connection).filterMap Fired.answered?

/-- The notifier of the AUTH in flight. -/
def pendingReauth (world : World) : List Notifier :=
  world.session.inflight.auth.toList.map Prod.snd

/-- The notifiers of re-authentications that fired, each with the record of its firing. -/
def reauthRecords (world : World) : List (Notifier × Fired) :=
  world.fired.filterMap fun record => record.firing.reauth?.map (·, record)

def reauthFirings (world : World) (notifier : Notifier) : List Fired :=
  world.fired.filter fun record => record.firing.reauth? == some notifier

theorem reauthFirings_eq (world : World) (notifier : Notifier) :
    world.reauthFirings notifier =
      ((world.reauthRecords).filter (fun record => record.1 == notifier)).map Prod.snd := by
  unfold reauthFirings reauthRecords
  induction world.fired with
  | nil => rfl
  | cons record rest ih =>
    cases held : record.firing.reauth? with
    | none => simpa [held] using ih
    | some named =>
      by_cases same : named = notifier
      · simpa [held, same] using ih
      · simpa [held, same] using ih

end World

/-- The session takes a request for an AUTH out of its channel at this poll. -/
def Session.TakesReauth (session : Session) (now : Nat) (polls : List Readiness) : Prop :=
  session.inflight.packetsToReplay = [] ∧ ∃ request after,
    Session.nextOutgoingRequest now polls session = .ok (some (.reauthRequest request), after)

/-- No request for an AUTH is taken while another AUTH is in flight. -/
def OneReauth (world : World) : Event → Prop
  | .poll polls =>
    world.session.TakesReauth world.now polls → world.session.inflight.auth = none
  | _ => True

/-- Every re-authentication that was sent is in flight and has not fired, or has fired once,
with its own answer or at the end of its connection. The answers of a connection are taken in
the order in which the AUTH packets were sent. -/
structure ReauthsComplete (world : World) : Prop where
  once : ∀ operation ∈ world.reauths,
    (operation.notifier ∈ world.pendingReauth ∧
      world.reauthFirings operation.notifier = []) ∨
    (operation.notifier ∉ world.pendingReauth ∧ ∃ record,
      world.reauthFirings operation.notifier = [record] ∧ operation.Resolves record)
  ordered : ∀ connection, world.answered connection <+: world.requested connection

/-- A ledger that describes the re-authentications in a world. -/
structure ReauthTracks (world : World) (ledger : Ledger Reauthentication Fired) : Prop where
  fresh : ledger.fresh = world.fresh
  queued : ledger.queued = world.session.ch.authRx.map (·.notifier)
  stored : ledger.stored.map (·.ticket) = world.pendingReauth
  opened : ledger.opened = world.reauths.map fun operation => ⟨operation.notifier, operation⟩
  settled : ledger.settled = world.reauthRecords
  current : ∀ entry ∈ ledger.stored,
    world.session.isConnected = true ∧ entry.data.connection = world.connections

/-- What holds as long as no AUTH takes over the slot of another. -/
structure ReauthInvariant (world : World) : Prop where
  tracked : ∃ ledger, ReauthTracks world ledger ∧ ledger.Balanced Reauthentication.Resolves
  sent : SentBefore world
  ordered : ∀ connection, world.answered connection <+: world.requested connection
  current : world.session.isConnected = true →
    world.requested world.connections = world.answered world.connections ++ world.pendingReauth

namespace World

variable {world next : World} {emissions : List Emission} {fired : List Fired}

theorem Adds.reauths (adds : Adds world next emissions fired) :
    next.reauths = world.reauths ++ emissions.filterMap Emission.reauthentication? := by
  obtain ⟨added, same, rfl⟩ := adds.emissions
  rw [World.reauths, World.reauths, same, List.filterMap_append, List.filterMap_filter]
  congr 2
  funext emission
  cases held : emission.reauth? <;> simp [Emission.reauthentication?, held]

theorem Adds.reauthRecords (adds : Adds world next emissions fired) :
    next.reauthRecords = world.reauthRecords ++
      fired.filterMap fun record => record.firing.reauth?.map (·, record) := by
  obtain ⟨added, same, rfl⟩ := adds.fired
  rw [World.reauthRecords, World.reauthRecords, same, List.filterMap_append,
    List.filterMap_filter]
  congr 2
  funext record
  cases record.firing.reauth? <;> simp

theorem Adds.requested (adds : Adds world next emissions fired) (connection : Nat) :
    next.requested connection = world.requested connection ++
      ((emissions.filterMap Emission.reauthentication?).filter fun operation =>
        operation.connection == connection).map (·.notifier) := by
  rw [World.requested, adds.reauths, List.filter_append, List.map_append]
  rfl

theorem Adds.answered (adds : Adds world next emissions fired) (connection : Nat) :
    next.answered connection = world.answered connection ++
      (fired.filter fun record => record.connection == connection).filterMap
        Fired.answered? := by
  obtain ⟨added, same, rfl⟩ := adds.fired
  rw [World.answered, World.answered, same, List.filter_append, List.filterMap_append]
  congr 1
  rw [List.filter_filter, List.filterMap_filter, List.filterMap_filter]
  congr 1
  funext record
  obtain ⟨firing, event, number, interval⟩ := record
  cases firing with
  | reauth notifier completion => simp [Firing.reauth?]
  | _ => simp [Fired.answered?]

end World

namespace Session

/-- A request for an AUTH that is taken is the request of the packet that is sent. -/
theorem takesReauth_iff {session after : Session} {now : Nat} {polls : List Readiness}
    {outgoing : Option Outgoing} {fired : List Firing}
    (polled : session.nextOutgoingPacket now polls = .ok (outgoing, after, fired)) :
    session.TakesReauth now polls ↔
      ∃ sent ∈ outgoing, ∃ request, sent.request = some (.reauthRequest request) := by
  unfold nextOutgoingPacket at polled
  split at polled
  · split at polled
    · rename_i packet rest head
      cases polled
      simp [TakesReauth, head]
    · rename_i drained
      cases requested : nextOutgoingRequest now polls session with
      | error panic => simp [requested] at polled
      | ok taken =>
        obtain ⟨request, middle⟩ := taken
        simp only [requested] at polled
        cases request with
        | none =>
          cases polled
          simp [TakesReauth, requested]
        | some request =>
          simp only at polled
          split at polled
          · cases polled
          · cases polled
            cases request <;> simp [TakesReauth, drained, requested]
  · cases polled

end Session

namespace World

variable {world next : World}

/-- The one way in which a request for an AUTH leaves its channel. -/
theorem sendAuth_iff {polls : List Readiness} (stepped : world.step (.poll polls) = .ok next) :
    world.session.TakesReauth world.now polls ↔
      ∃ request authentication, world.session.ch.authRx = request :: next.session.ch.authRx ∧
        next.session.inflight.auth = some (authentication, request.notifier) ∧
        next.reauthRecords = world.reauthRecords := by
  cases step_cases stepped with
  | polled polls outgoing session fired live polled =>
    rw [Session.takesReauth_iff polled]
    cases Session.nextOutgoingPacket_exchange polled with
    | other outgoing after fired frame silent plain =>
      constructor
      · rintro ⟨sent, held, request, answered⟩
        exact absurd answered ((plain sent held).1 request)
      · rintro ⟨request, authentication, head, -⟩
        have same : session.ch.authRx = world.session.ch.authRx := frame.authRx
        exact absurd (same ▸ head : session.ch.authRx = request :: session.ch.authRx)
          (List.ne_cons_self)
    | auth request authentication after head carried auth pingRx pingreq =>
      refine ⟨fun _ => ⟨request, authentication.method, head, auth, ?_⟩,
        fun _ => ⟨_, rfl, request, rfl⟩⟩
      simp [reauthRecords, afterPoll, record]
    | ping notifier after authRx auth pingRx pingreq =>
      constructor
      · rintro ⟨sent, ⟨⟩, request, ⟨⟩⟩
      · rintro ⟨request, authentication, head, -⟩
        have same : session.ch.authRx = world.session.ch.authRx := authRx
        exact absurd (same ▸ head : session.ch.authRx = request :: session.ch.authRx)
          (List.ne_cons_self)

end World

namespace World

theorem reauths_subset {world next : World} {event : Event}
    (stepped : world.step event = .ok next) : world.reauths ⊆ next.reauths := by
  obtain ⟨emissions, fired, adds⟩ := (step_exchange stepped).history
  rw [adds.reauths]
  exact List.subset_append_left _ _

/-- A notifier leaves the channel only with an AUTH that is sent. -/
theorem reauth_leaves {world next : World} {event : Event} (stepped : world.step event = .ok next)
    {request : ReauthRequest} (queued : request ∈ world.session.ch.authRx)
    (left : request ∉ next.session.ch.authRx) :
    (⟨request.notifier, request.auth, world.connections⟩ : Reauthentication) ∈ next.reauths := by
  cases step_exchange stepped with
  | idle event next frame same fresh adds other => exact absurd (frame.authRx ▸ queued) left
  | established event next frame before after connections fresh adds other =>
    exact absurd (frame.authRx ▸ queued) left
  | requestAuth event request next named authRx auth pingRx pingreq same fresh adds =>
    rw [authRx] at left
    exact absurd (List.mem_append_left _ queued) left
  | requestPing event next authRx auth pingRx pingreq same fresh adds =>
    exact absurd (authRx ▸ queued) left
  | sendAuth polls sent authentication next live head auth pingRx pingreq same fresh adds =>
    rw [head] at queued
    rcases List.mem_cons.mp queued with rfl | later
    · rw [adds.reauths]
      exact List.mem_append_right _ (List.mem_singleton_self _)
    · exact absurd later left
  | sendPing polls notifier next live authRx auth pingRx pingreq same fresh adds =>
    exact absurd (authRx ▸ queued) left
  | answerAuth auth method notifier result next live held answer authRx cleared pingRx pingreq same
      fresh adds =>
    exact absurd (authRx ▸ queued) left
  | pong next live authRx auth pingRx pingreq same fresh unsolicited adds =>
    exact absurd (authRx ▸ queued) left
  | ended disconnection next live after authRx cleared pingRx pingreq connections fresh adds =>
    exact absurd (authRx ▸ queued) left

end World

namespace ReauthTracks

variable {world next : World} {ledger : Ledger Reauthentication Fired}

/-- A step that leaves re-authentications alone. -/
theorem quiet (tracks : ReauthTracks world ledger)
    (authRx : next.session.ch.authRx = world.session.ch.authRx)
    (auth : next.session.inflight.auth = world.session.inflight.auth)
    (connected : ledger.stored ≠ [] → next.session.isConnected = true ∧
      next.connections = world.connections)
    (reauths : next.reauths = world.reauths) (records : next.reauthRecords = world.reauthRecords) :
    ReauthTracks next { ledger with fresh := next.fresh } where
  fresh := rfl
  queued := tracks.queued.trans (by rw [authRx])
  stored := tracks.stored.trans (by rw [World.pendingReauth, World.pendingReauth, auth])
  opened := tracks.opened.trans (by rw [reauths])
  settled := tracks.settled.trans (by rw [records])
  current := by
    intro entry member
    obtain ⟨live, connections⟩ := connected (List.ne_nil_of_mem member)
    exact ⟨live, (tracks.current entry member).2.trans connections.symm⟩

end ReauthTracks

namespace ReauthInvariant

variable {world next : World}

theorem initial (maxPkid : PacketIdentifier) : ReauthInvariant (.new maxPkid) where
  tracked := ⟨.empty, ⟨rfl, rfl, rfl, rfl, rfl, by simp [Ledger.empty]⟩, Ledger.balanced_empty⟩
  sent := by simp [SentBefore, World.new]
  ordered _ := List.prefix_rfl
  current _ := rfl

/-- Between connections no AUTH is in flight. -/
theorem idle (invariant : ReauthInvariant world) (between : world.session.isConnected = false) :
    world.session.inflight.auth = none := by
  obtain ⟨ledger, tracks, -⟩ := invariant.tracked
  cases held : world.session.inflight.auth with
  | none => rfl
  | some entry =>
    have stored : ledger.stored.map (·.ticket) = [entry.2] := by
      rw [tracks.stored, World.pendingReauth, held]
      rfl
    obtain ⟨first, rest, same⟩ := List.exists_cons_of_ne_nil
      (show ledger.stored ≠ [] from fun none => by simp [none] at stored)
    have live := (tracks.current first (same ▸ List.mem_cons_self)).1
    exact absurd live (by simp [between])

/-- Nothing was requested or answered on a connection that is yet to be made. -/
theorem unused (invariant : ReauthInvariant world) :
    world.requested (world.connections + 1) = [] ∧ world.answered (world.connections + 1) = [] := by
  have requested : world.requested (world.connections + 1) = [] := by
    rw [World.requested, List.map_eq_nil_iff, List.filter_eq_nil_iff]
    intro operation member
    obtain ⟨emission, sent, made⟩ := List.mem_filterMap.mp member
    obtain ⟨request, -, rfl⟩ := Option.map_eq_some_iff.mp made
    have early := invariant.sent emission sent
    simp only [beq_iff_eq]
    omega
  have prefixed := invariant.ordered (world.connections + 1)
  rw [requested] at prefixed
  exact ⟨requested, List.prefix_nil.mp prefixed⟩

/-- A step on the same connection that leaves re-authentications alone. -/
theorem quiet (invariant : ReauthInvariant world) (sent : SentBefore next)
    (authRx : next.session.ch.authRx = world.session.ch.authRx)
    (auth : next.session.inflight.auth = world.session.inflight.auth)
    (same : World.SameConnection world next) (fresh : world.fresh ≤ next.fresh)
    (reauths : next.reauths = world.reauths) (records : next.reauthRecords = world.reauthRecords)
    (answered : ∀ connection, next.answered connection = world.answered connection) :
    ReauthInvariant next := by
  have requested : ∀ connection, next.requested connection = world.requested connection := by
    intro connection
    rw [World.requested, World.requested, reauths]
  have pending : next.pendingReauth = world.pendingReauth := by
    rw [World.pendingReauth, World.pendingReauth, auth]
  refine ⟨?_, sent, ?_, ?_⟩
  · obtain ⟨ledger, tracks, balanced⟩ := invariant.tracked
    refine ⟨_, tracks.quiet authRx auth ?_ reauths records,
      balanced.step (.wait ledger next.fresh (tracks.fresh ▸ fresh))⟩
    intro some
    obtain ⟨first, rest, split⟩ := List.exists_cons_of_ne_nil some
    exact ⟨same.isConnected.trans (tracks.current first (split ▸ List.mem_cons_self)).1,
      same.connections⟩
  · intro connection
    rw [answered, requested]
    exact invariant.ordered connection
  · intro live
    rw [same.connections, requested, answered, pending]
    exact invariant.current (same.isConnected ▸ live)

theorem established (invariant : ReauthInvariant world) (sent : SentBefore next)
    (frame : Session.ExchangeFrame world.session next.session)
    (between : world.session.isConnected = false)
    (connections : next.connections = world.connections + 1) (fresh : next.fresh = world.fresh)
    (adds : World.Adds world next [] []) : ReauthInvariant next := by
  have none := invariant.idle between
  have requested : ∀ connection, next.requested connection = world.requested connection := by
    intro connection
    simpa using adds.requested connection
  have answered : ∀ connection, next.answered connection = world.answered connection := by
    intro connection
    simpa using adds.answered connection
  obtain ⟨noRequest, noAnswer⟩ := invariant.unused
  refine ⟨?_, sent, ?_, ?_⟩
  · obtain ⟨ledger, tracks, balanced⟩ := invariant.tracked
    refine ⟨_, tracks.quiet frame.authRx frame.auth ?_ (by simpa using adds.reauths)
      (by simpa using adds.reauthRecords),
      balanced.step (.wait ledger next.fresh (by rw [tracks.fresh, fresh]))⟩
    intro some
    have stored := tracks.stored
    rw [World.pendingReauth, none] at stored
    exact absurd (List.map_eq_nil_iff.mp stored) some
  · intro connection
    rw [answered, requested]
    exact invariant.ordered connection
  · intro live
    rw [connections, requested, answered, noRequest, noAnswer, World.pendingReauth, frame.auth,
      none]
    rfl

theorem requestAuth (invariant : ReauthInvariant world) (sent : SentBefore next)
    {request : ReauthRequest} (named : request.notifier = world.fresh)
    (authRx : next.session.ch.authRx = world.session.ch.authRx ++ [request])
    (auth : next.session.inflight.auth = world.session.inflight.auth)
    (same : World.SameConnection world next) (fresh : next.fresh = world.fresh + 1)
    (adds : World.Adds world next [] []) : ReauthInvariant next := by
  have reauths : next.reauths = world.reauths := by simpa using adds.reauths
  have pending : next.pendingReauth = world.pendingReauth := by
    rw [World.pendingReauth, World.pendingReauth, auth]
  have requested : ∀ connection, next.requested connection = world.requested connection := by
    intro connection
    simpa using adds.requested connection
  have answered : ∀ connection, next.answered connection = world.answered connection := by
    intro connection
    simpa using adds.answered connection
  refine ⟨?_, sent, ?_, ?_⟩
  · obtain ⟨ledger, tracks, balanced⟩ := invariant.tracked
    refine ⟨_, ⟨?_, ?_, ?_, ?_, ?_, ?_⟩, balanced.step (.submit ledger)⟩
    · rw [fresh, tracks.fresh]
    · rw [authRx, List.map_append, tracks.queued, tracks.fresh, ← named]
      rfl
    · exact tracks.stored.trans pending.symm
    · rw [reauths]
      exact tracks.opened
    · exact tracks.settled.trans (by simpa using adds.reauthRecords.symm)
    · intro entry member
      obtain ⟨live, connection⟩ := tracks.current entry member
      exact ⟨same.isConnected.trans live, connection.trans same.connections.symm⟩
  · intro connection
    rw [answered, requested]
    exact invariant.ordered connection
  · intro live
    rw [same.connections, requested, answered, pending]
    exact invariant.current (same.isConnected ▸ live)

theorem sendAuth (invariant : ReauthInvariant world) (sent : SentBefore next)
    {request : ReauthRequest} {authentication : Authentication}
    (live : world.session.isConnected = true)
    (free : world.session.inflight.auth = none)
    (head : world.session.ch.authRx = request :: next.session.ch.authRx)
    (auth : next.session.inflight.auth = some (authentication.method, request.notifier))
    (same : World.SameConnection world next) (fresh : next.fresh = world.fresh)
    (adds : World.Adds world next
      [⟨world.connections, .auth request.auth, some (.reauthRequest request)⟩] []) :
    ReauthInvariant next := by
  have reauths : next.reauths =
      world.reauths ++ [⟨request.notifier, request.auth, world.connections⟩] := adds.reauths
  have before : world.pendingReauth = [] := by
    rw [World.pendingReauth, free]
    rfl
  have after : next.pendingReauth = [request.notifier] := by
    rw [World.pendingReauth, auth]
    rfl
  have answered : ∀ connection, next.answered connection = world.answered connection := by
    intro connection
    simpa using adds.answered connection
  refine ⟨?_, sent, ?_, ?_⟩
  · obtain ⟨ledger, tracks, balanced⟩ := invariant.tracked
    have empty : ledger.stored = [] := by
      have stored := tracks.stored
      rw [before] at stored
      exact List.map_eq_nil_iff.mp stored
    have queued : ledger.queued =
        request.notifier :: next.session.ch.authRx.map (·.notifier) := by
      rw [tracks.queued, head]
      rfl
    refine ⟨_, ⟨?_, rfl, ?_, ?_, ?_, ?_⟩, balanced.step (.open ledger request.notifier _
      ⟨request.notifier, request.auth, world.connections⟩ queued)⟩
    · exact tracks.fresh.trans fresh.symm
    · simp [empty, after]
    · simp [reauths, tracks.opened]
    · exact tracks.settled.trans (by simpa using adds.reauthRecords.symm)
    · intro entry member
      simp only [empty, List.nil_append, List.mem_singleton] at member
      rw [member]
      exact ⟨same.isConnected.trans live, same.connections.symm⟩
  · intro connection
    rw [answered, adds.requested]
    exact (invariant.ordered connection).trans (List.prefix_append _ _)
  · intro _
    have current := invariant.current live
    rw [before, List.append_nil] at current
    rw [same.connections, answered, adds.requested, current, after]
    simp [Emission.reauthentication?, Emission.reauth?]

/-- The AUTH in flight is settled, if there is one. -/
theorem settle (invariant : ReauthInvariant world) (record : Notifier → Fired)
    (authRx : next.session.ch.authRx = world.session.ch.authRx)
    (cleared : next.session.inflight.auth = none) (fresh : next.fresh = world.fresh)
    (reauths : next.reauths = world.reauths)
    (records : next.reauthRecords =
      world.reauthRecords ++ world.pendingReauth.map fun notifier => (notifier, record notifier))
    (legit : ∀ operation : Reauthentication, operation.connection = world.connections →
      operation.notifier ∈ world.pendingReauth →
      operation.Resolves (record operation.notifier)) :
    ∃ ledger, ReauthTracks next ledger ∧ ledger.Balanced Reauthentication.Resolves := by
  obtain ⟨ledger, tracks, balanced⟩ := invariant.tracked
  have named : ∀ entry ∈ ledger.stored, entry.ticket = entry.data.notifier := by
    intro entry member
    have opened := (balanced.mem_stored.mp member).1
    rw [tracks.opened] at opened
    obtain ⟨operation, -, rfl⟩ := List.mem_map.mp opened
    rfl
  have stepped : Ledger.Step Reauthentication.Resolves ledger _ :=
    .settle ledger (fun _ => true) (fun entry => record entry.ticket) (by
      intro entry member _
      have held : entry.ticket ∈ world.pendingReauth :=
        tracks.stored ▸ List.mem_map_of_mem member
      rw [named entry member] at held ⊢
      exact legit entry.data (tracks.current entry member).2 held)
  refine ⟨_, ⟨?_, ?_, ?_, ?_, ?_, by simp⟩, balanced.step stepped⟩
  · exact tracks.fresh.trans fresh.symm
  · exact tracks.queued.trans (by rw [authRx])
  · simp [World.pendingReauth, cleared]
  · exact tracks.opened.trans (by rw [reauths])
  · simp [records, tracks.settled, ← tracks.stored, List.map_map, Function.comp_def]

theorem answerAuth (invariant : ReauthInvariant world) (sent : SentBefore next) {auth : Auth}
    {method : ByteStr} {notifier : Notifier} {result : ReauthResult}
    (live : world.session.isConnected = true)
    (held : world.session.inflight.auth = some (method, notifier))
    (answer : result = .success auth ∨ result = .continue auth method)
    (authRx : next.session.ch.authRx = world.session.ch.authRx)
    (cleared : next.session.inflight.auth = none)
    (same : World.SameConnection world next) (fresh : next.fresh = world.fresh)
    (adds : World.Adds world next [] [⟨.reauth notifier (.complete result),
      .incoming (.auth auth), world.connections, world.session.expiryInterval⟩]) :
    ReauthInvariant next := by
  have reauths : next.reauths = world.reauths := by simpa using adds.reauths
  have pending : world.pendingReauth = [notifier] := by
    rw [World.pendingReauth, held]
    rfl
  have requested : ∀ connection, next.requested connection = world.requested connection := by
    intro connection
    simpa using adds.requested connection
  have whole : next.answered world.connections = world.requested world.connections := by
    rw [adds.answered, invariant.current live, pending]
    simp [Fired.answered?]
  refine ⟨?_, sent, ?_, ?_⟩
  · refine invariant.settle (fun notifier => ⟨.reauth notifier (.complete result),
      .incoming (.auth auth), world.connections, world.session.expiryInterval⟩) authRx cleared
      fresh reauths ?_ ?_
    · rw [adds.reauthRecords, pending]
      rfl
    · intro operation current _
      refine ⟨current.symm, .inl ⟨auth, result, rfl, ?_, rfl⟩⟩
      exact answer.imp id fun continued => ⟨method, continued⟩
  · intro connection
    by_cases current : connection = world.connections
    · rw [current, whole, requested]
    · have elsewhere : next.answered connection = world.answered connection := by
        rw [adds.answered]
        simp [Ne.symm current]
      rw [elsewhere, requested]
      exact invariant.ordered connection
  · intro _
    rw [same.connections, requested, whole, World.pendingReauth, cleared]
    simp

theorem ended (invariant : ReauthInvariant world) (sent : SentBefore next)
    {disconnection : Disconnection} (after : next.session.isConnected = false)
    (authRx : next.session.ch.authRx = world.session.ch.authRx)
    (cleared : next.session.inflight.auth = none) (fresh : next.fresh = world.fresh)
    (adds : World.Adds world next []
      ((world.session.inflight.auth.toList.map fun entry =>
          ⟨.reauth entry.2 (.cancel "Client disconnected"), .disconnected disconnection,
            world.connections, next.session.expiryInterval⟩) ++
        (world.session.inflight.pingreq.filterMap Prod.snd).map fun notifier =>
          ⟨.ping notifier (.cancel "Client disconnected"), .disconnected disconnection,
            world.connections, next.session.expiryInterval⟩)) :
    ReauthInvariant next := by
  have reauths : next.reauths = world.reauths := by simpa using adds.reauths
  have requested : ∀ connection, next.requested connection = world.requested connection := by
    intro connection
    simpa using adds.requested connection
  have answered : ∀ connection, next.answered connection = world.answered connection := by
    intro connection
    rw [adds.answered]
    simp [List.filterMap_filter, List.filterMap_map, Fired.answered?]
  refine ⟨?_, sent, ?_, ?_⟩
  · refine invariant.settle (fun notifier => ⟨.reauth notifier (.cancel "Client disconnected"),
      .disconnected disconnection, world.connections, next.session.expiryInterval⟩) authRx cleared
      fresh reauths ?_ ?_
    · rw [adds.reauthRecords]
      simp [List.filterMap_map, Function.comp_def, Firing.reauth?, World.pendingReauth]
    · intro operation current _
      exact ⟨current.symm, .inr ⟨disconnection, _, rfl, rfl⟩⟩
  · intro connection
    rw [answered, requested]
    exact invariant.ordered connection
  · intro live
    rw [after] at live
    cases live

/-- A step that takes no request while an AUTH is in flight keeps the account. -/
theorem step {event : Event} (invariant : ReauthInvariant world) (one : OneReauth world event)
    (stepped : world.step event = .ok next) : ReauthInvariant next := by
  have sent := invariant.sent.step stepped
  cases World.step_exchange stepped with
  | idle event next frame same fresh adds other =>
    exact invariant.quiet sent frame.authRx frame.auth same fresh (by simpa using adds.reauths)
      (by simpa using adds.reauthRecords) (fun connection => by simpa using adds.answered connection)
  | established event next frame before after connections fresh adds other =>
    exact invariant.established sent frame before connections fresh adds
  | requestAuth event request next named authRx auth pingRx pingreq same fresh adds =>
    exact invariant.requestAuth sent named authRx auth same fresh adds
  | requestPing event next authRx auth pingRx pingreq same fresh adds =>
    exact invariant.quiet sent authRx auth same (fresh ▸ Nat.le_succ _) (by simpa using adds.reauths)
      (by simpa using adds.reauthRecords) (fun connection => by simpa using adds.answered connection)
  | sendAuth polls request authentication next live head auth pingRx pingreq same fresh adds =>
    have free := one ((World.sendAuth_iff stepped).mpr
      ⟨request, _, head, auth, by simpa using adds.reauthRecords⟩)
    exact invariant.sendAuth sent live free head auth same fresh adds
  | sendPing polls notifier next live authRx auth pingRx pingreq same fresh adds =>
    refine invariant.quiet sent authRx auth same (Nat.le_of_eq fresh.symm) ?_
      (by simpa using adds.reauthRecords) (fun connection => by simpa using adds.answered connection)
    rw [adds.reauths]
    simp [Emission.reauthentication?, Emission.reauth?]
  | answerAuth auth method notifier result next live held answer authRx cleared pingRx pingreq same
      fresh adds =>
    exact invariant.answerAuth sent live held answer authRx cleared same fresh adds
  | pong next live authRx auth pingRx pingreq same fresh unsolicited adds =>
    refine invariant.quiet sent authRx auth same (Nat.le_of_eq fresh.symm)
      (by simpa using adds.reauths) ?_ ?_
    · rw [adds.reauthRecords]
      simp [List.filterMap_flatMap, List.filterMap_map, Firing.reauth?]
    · intro connection
      rw [adds.answered]
      simp [List.filterMap_filter, List.filterMap_flatMap, List.filterMap_map, Fired.answered?]
  | ended disconnection next live after authRx cleared pingRx pingreq connections fresh adds =>
    exact invariant.ended sent after authRx cleared fresh adds

theorem complete (invariant : ReauthInvariant world) : ReauthsComplete world := by
  refine ⟨?_, invariant.ordered⟩
  intro operation sent
  obtain ⟨ledger, tracks, balanced⟩ := invariant.tracked
  have opened : (⟨operation.notifier, operation⟩ : Ledger.Entry Reauthentication) ∈
      ledger.opened := by
    rw [tracks.opened]
    exact List.mem_map_of_mem sent
  have pending : operation.notifier ∈ world.pendingReauth ↔
      (⟨operation.notifier, operation⟩ : Ledger.Entry Reauthentication) ∈ ledger.stored := by
    rw [← tracks.stored]
    constructor
    · intro member
      obtain ⟨entry, stored, same⟩ := List.mem_map.mp member
      have identical := balanced.entry_unique (balanced.mem_stored.mp stored).1 opened same
      exact identical ▸ stored
    · exact fun stored => List.mem_map_of_mem stored
  have firings := world.reauthFirings_eq operation.notifier
  rw [← tracks.settled] at firings
  rcases balanced.exactly_once opened with ⟨stored, none⟩ | ⟨gone, cause, one, legit⟩
  · exact .inl ⟨pending.mpr stored, by rw [firings, none]; rfl⟩
  · exact .inr ⟨fun member => gone (pending.mp member), cause, by rw [firings, one]; rfl, legit⟩

/-- A request that is taken while an AUTH is in flight drops the notifier of that AUTH. -/
theorem needed {event : Event} (invariant : ReauthInvariant world)
    (stepped : world.step event = .ok next) (complete : ReauthsComplete next) :
    OneReauth world event := by
  cases event with
  | poll polls =>
    intro takes
    obtain ⟨request, method, head, auth, records⟩ := (World.sendAuth_iff stepped).mp takes
    cases held : world.session.inflight.auth with
    | none => rfl
    | some entry =>
      exfalso
      obtain ⟨ledger, tracks, balanced⟩ := invariant.tracked
      have pending : entry.2 ∈ ledger.stored.map (·.ticket) := by
        rw [tracks.stored, World.pendingReauth, held]
        exact List.mem_singleton_self _
      obtain ⟨stored, member, named⟩ := List.mem_map.mp pending
      obtain ⟨opened, unsettled⟩ := balanced.mem_stored.mp member
      have sent : ∃ operation ∈ world.reauths, operation.notifier = entry.2 := by
        rw [tracks.opened] at opened
        obtain ⟨operation, sent, rfl⟩ := List.mem_map.mp opened
        exact ⟨operation, sent, named⟩
      obtain ⟨operation, sent, same⟩ := sent
      -- The notifier is no longer in the slot, and it has not fired either.
      have other : request.notifier ≠ entry.2 := by
        intro equal
        have distinct := (List.nodup_append.mp balanced.distinct).2.2
        refine distinct entry.2 (named ▸ List.mem_map_of_mem opened) request.notifier ?_ equal.symm
        rw [tracks.queued, head]
        exact List.mem_cons_self
      have silent : next.reauthFirings operation.notifier = [] := by
        rw [World.reauthFirings_eq, records, ← tracks.settled, same, List.map_eq_nil_iff,
          List.filter_eq_nil_iff]
        intro record fired equal
        refine unsettled (named ▸ ?_)
        exact beq_iff_eq.mp equal ▸ List.mem_map_of_mem fired
      rcases complete.once operation (World.reauths_subset stepped sent) with
        ⟨kept, -⟩ | ⟨-, record, fired, -⟩
      · rw [World.pendingReauth, auth, same] at kept
        exact other (List.mem_singleton.mp kept).symm
      · rw [silent] at fired
        cases fired
  | _ => trivial

end ReauthInvariant

/-- In every run, a notifier that leaves the channel belongs to an AUTH that is sent, and all
re-authentications complete exactly if no request is taken while an AUTH is in flight. -/
theorem reauthsComplete_iff (maxPkid : PacketIdentifier) (events : List Event) (final : World)
    (ran : World.run (.new maxPkid) events = .ok final) :
    (∀ early event late before after, events = early ++ event :: late →
      World.run (.new maxPkid) early = .ok before → before.step event = .ok after →
      ∀ request ∈ before.session.ch.authRx, request ∉ after.session.ch.authRx →
        (⟨request.notifier, request.auth, before.connections⟩ : Reauthentication) ∈
          after.reauths) ∧
    ((∀ early late middle, events = early ++ late →
        World.run (.new maxPkid) early = .ok middle → ReauthsComplete middle) ↔
      Transition.Along World.step OneReauth (.new maxPkid) events) := by
  refine ⟨?_, ?_⟩
  · intro early event late before after _ _ stepped request queued left
    exact World.reauth_leaves stepped queued left
  · exact Transition.along_iff_goal ReauthInvariant ReauthsComplete
      (fun _ _ _ invariant one stepped => invariant.step one stepped)
      (fun _ _ _ invariant stepped complete => invariant.needed stepped complete)
      (fun _ invariant => invariant.complete) (.initial maxPkid) ran

/-- Two calls of `reauth` for this method, each with an answer of the server behind it or not. -/
def reauthCalls (first : List Event) : List Event :=
  [.connack ⟨.success false, {}⟩ .infinite none .infinite,
    .app (.reauth .reAuthenticate ⟨⟨⟨[0, 1, 0x61]⟩⟩, none⟩ none []), .poll [{}]] ++ first ++
  [.app (.reauth .reAuthenticate ⟨⟨⟨[0, 1, 0x61]⟩⟩, none⟩ none []), .poll [{}],
    .disconnected .transport]

/-- The AUTH of a server that accepts. -/
def authSuccess : Event :=
  .incoming (.auth ⟨.success, some ⟨⟨⟨[0, 1, 0x61]⟩⟩, none⟩, none, []⟩)

theorem reauthsComplete_answered :
    ∃ final, World.run (.new .one) (reauthCalls [authSuccess]) = .ok final ∧
      final.reauths.length = 2 ∧ ReauthsComplete final := by
  have along : Transition.Along World.step OneReauth (.new .one) (reauthCalls [authSuccess]) := by
    refine (Transition.Along.cons_ok rfl).mpr ⟨trivial, ?_⟩
    refine (Transition.Along.cons_ok rfl).mpr ⟨trivial, ?_⟩
    refine (Transition.Along.cons_ok rfl).mpr ⟨fun _ => rfl, ?_⟩
    refine (Transition.Along.cons_ok rfl).mpr ⟨trivial, ?_⟩
    refine (Transition.Along.cons_ok rfl).mpr ⟨trivial, ?_⟩
    refine (Transition.Along.cons_ok rfl).mpr ⟨fun _ => rfl, ?_⟩
    exact (Transition.Along.cons_ok rfl).mpr ⟨trivial, trivial⟩
  have ran : ∃ final, World.run (.new .one) (reauthCalls [authSuccess]) = .ok final ∧
      final.reauths.length = 2 := ⟨_, rfl, by decide⟩
  obtain ⟨final, ran, sent⟩ := ran
  have complete := (reauthsComplete_iff .one (reauthCalls [authSuccess]) final ran).2.mpr along
  exact ⟨final, ran, sent, complete _ [] final (List.append_nil _).symm ran⟩

/-- The second call is sent before the first is answered: the first notifier is dropped. -/
theorem reauth_dropped :
    ∃ final, World.run (.new .one) (reauthCalls []) = .ok final ∧ ¬ ReauthsComplete final := by
  have ran : ∃ final, World.run (.new .one) (reauthCalls []) = .ok final ∧
      (∃ operation ∈ final.reauths, operation.notifier ∉ final.pendingReauth ∧
        final.reauthFirings operation.notifier = []) :=
    ⟨_, rfl, by decide⟩
  obtain ⟨final, ran, operation, sent, gone, silent⟩ := ran
  refine ⟨final, ran, fun complete => ?_⟩
  rcases complete.once operation sent with ⟨kept, -⟩ | ⟨-, record, fired, -⟩
  · exact gone kept
  · rw [silent] at fired
    cases fired

end MqttClient.Client
