import MqttClient.Client.World

/-! What the handlers of the session leave behind when they fail. -/

namespace MqttClient.Client

open MqttClient.Proto

namespace CompletedOperation

def packetIdentifier : CompletedOperation → PacketIdentifier
  | .publishQoS1 puback => puback.packetIdentifier
  | .publishQoS2 pubrec => pubrec.packetIdentifier
  | .pubRec pubrel => pubrel.packetIdentifier
  | .pubRel pubcomp => pubcomp.packetIdentifier
  | .subscribe suback => suback.packetIdentifier
  | .unsubscribe unsuback => unsuback.packetIdentifier

/-- Whether the handler gives the identifier back to the pool. -/
def releases : CompletedOperation → Bool
  | .publishQoS2 pubrec => !pubrec.reasonCode.isSuccess
  | .pubRec _ => false
  | _ => true

/-- The identifiers in flight of the kind that the response completes. -/
def keys (inflight : InflightTracker) : CompletedOperation → List PacketIdentifier
  | .publishQoS1 _ => inflight.publishQoS1.keys
  | .publishQoS2 _ => inflight.publishQoS2.keys
  | .pubRec _ => inflight.pubrec.keys
  | .pubRel _ => inflight.pubrel.keys
  | .subscribe _ => inflight.subscribe.keys
  | .unsubscribe _ => inflight.unsubscribe.keys

/-- The notifier of the operation that the response completes. -/
def entry (inflight : InflightTracker) : CompletedOperation → Option Notifier
  | .publishQoS1 puback => (inflight.publishQoS1.get? puback.packetIdentifier).map Prod.snd
  | .publishQoS2 pubrec => (inflight.publishQoS2.get? pubrec.packetIdentifier).map Prod.snd
  | .pubRec pubrel => (inflight.pubrec.get? pubrel.packetIdentifier).map Prod.snd
  | .pubRel pubcomp => (inflight.pubrel.get? pubcomp.packetIdentifier).map Prod.snd
  | .subscribe suback => inflight.subscribe.get? suback.packetIdentifier
  | .unsubscribe unsuback => inflight.unsubscribe.get? unsuback.packetIdentifier

theorem entry_eq_none_iff (operation : CompletedOperation) (inflight : InflightTracker) :
    operation.entry inflight = none ↔ operation.packetIdentifier ∉ operation.keys inflight := by
  cases operation <;>
    simp only [entry, keys, packetIdentifier, Option.map_eq_none_iff, IndexMap.get?_eq_none_iff]

end CompletedOperation

namespace PkidPool

/-- Only a leased identifier makes a difference to the pool. -/
theorem releasePkid_eq_self_iff (pool : PkidPool) (pkid : PacketIdentifier) :
    pool.releasePkid pkid = pool ↔ pkid ∉ pool.leased := by
  constructor
  · intro same member
    have leased := congrArg PkidPool.leased same
    rw [← leased] at member
    simp [releasePkid] at member
  · intro absent
    cases pool
    simpa [releasePkid] using absent

end PkidPool

namespace Session

theorem releasePkid_eq_self_iff (session : Session) (pkid : PacketIdentifier) :
    session.releasePkid pkid = session ↔ pkid ∉ session.pkidPool.leased := by
  rw [← session.pkidPool.releasePkid_eq_self_iff]
  cases session
  simp [releasePkid]

/-- The calls that handle a packet of the server and may fail. -/
inductive HandlerCall where
  | completeInflight (operation : CompletedOperation)
  | incomingAuth (auth : Auth)
  | incomingConnack (now : Nat) (connack : ConnAck) (clientKeepAlive : KeepAlive)
      (clientAuthMethod : Option Bytes) (clientSessionExpiryInterval : SessionExpiryInterval)

def handle (session : Session) : HandlerCall → Except Panic Handled
  | .completeInflight operation => session.completeInflight operation
  | .incomingAuth auth => .ok (session.incomingAuth auth)
  | .incomingConnack now connack keepAlive authMethod interval =>
    .ok (session.incomingConnack now connack keepAlive authMethod interval)

/-- The outcomes that have to leave no trace: an error, and a CONNACK that refuses the
connection. -/
def HandlerCall.Fails (call : HandlerCall) (handled : Handled) : Prop :=
  (∃ error, handled.result = .error error) ∨
    ∃ now connack keepAlive authMethod interval reason,
      call = .incomingConnack now connack keepAlive authMethod interval ∧
        connack.reasonCode = .refused reason

/-- A call that fails changes nothing and fires nothing. -/
def Atomic (session : Session) (call : HandlerCall) : Prop :=
  ∀ handled, session.handle call = .ok handled → call.Fails handled →
    handled.session = session ∧ handled.fired = []

/-- A response that gives a leased identifier back is for an operation of its kind. -/
def Matched (session : Session) : HandlerCall → Prop
  | .completeInflight operation => operation.releases = true →
      operation.packetIdentifier ∈ session.pkidPool.leased →
      operation.packetIdentifier ∈ operation.keys session.inflight
  | _ => True

/-- Every response goes through the same tail, after the identifier has been released. -/
theorem completeInflight_eq {session : Session} {operation : CompletedOperation}
    {handled : Handled} (completed : session.completeInflight operation = .ok handled) :
    ∃ remove fire, handled =
      (if operation.releases then session.releasePkid operation.packetIdentifier
        else session).completeEntry (operation.entry session.inflight) remove fire := by
  cases operation with
  | publishQoS2 pubrec =>
    simp only [completeInflight] at completed
    cases success : pubrec.reasonCode.isSuccess with
    | true =>
      simp only [success, if_true] at completed
      split at completed
      · cases completed
      · rename_i notifier found
        cases completed
        exact ⟨_, _, by simp [CompletedOperation.releases, CompletedOperation.entry, success]; rfl⟩
    | false =>
      simp only [success, Bool.false_eq_true, if_false] at completed
      cases completed
      exact ⟨_, _, by simp [CompletedOperation.releases, CompletedOperation.entry, success]; rfl⟩
  | _ =>
    cases completed
    exact ⟨_, _, rfl⟩

/-- A response that fails is for an operation that is not in flight. -/
theorem completeInflight_error {session : Session} {operation : CompletedOperation}
    {handled : Handled} (completed : session.completeInflight operation = .ok handled) :
    (∃ error, handled.result = .error error) ↔
      operation.packetIdentifier ∉ operation.keys session.inflight := by
  obtain ⟨remove, fire, rfl⟩ := completeInflight_eq completed
  rw [← operation.entry_eq_none_iff]
  cases operation.entry session.inflight <;> simp [completeEntry]

/-- What a response that fails leaves behind. -/
theorem completeInflight_missing {session : Session} {operation : CompletedOperation}
    {handled : Handled} (completed : session.completeInflight operation = .ok handled)
    (missing : operation.packetIdentifier ∉ operation.keys session.inflight) :
    handled.fired = [] ∧ handled.session =
      if operation.releases then session.releasePkid operation.packetIdentifier else session := by
  obtain ⟨remove, fire, rfl⟩ := completeInflight_eq completed
  rw [(operation.entry_eq_none_iff _).mpr missing]
  exact ⟨rfl, rfl⟩

/-- A response that is not a PUBREC with success is always handled. -/
theorem completeInflight_of_releases (session : Session) {operation : CompletedOperation}
    (releases : operation.releases = true) :
    ∃ handled, session.completeInflight operation = .ok handled := by
  cases operation with
  | publishQoS2 pubrec =>
    have failure : pubrec.reasonCode.isSuccess = false := by
      simpa [CompletedOperation.releases] using releases
    simp [completeInflight, failure]
  | _ => exact ⟨_, rfl⟩

theorem incomingAuth_error {session : Session} {auth : Auth} {error : ProtocolError}
    (failed : (session.incomingAuth auth).result = .error error) :
    (session.incomingAuth auth).session = session ∧ (session.incomingAuth auth).fired = [] := by
  unfold incomingAuth at failed ⊢
  split at failed
  · exact ⟨rfl, rfl⟩
  · split at failed
    · split at failed
      · cases failed
      · cases failed
      · simp_all
    · simp_all

theorem incomingConnack_error {session : Session} {now : Nat} {connack : ConnAck}
    {keepAlive : KeepAlive} {authMethod : Option Bytes} {interval : SessionExpiryInterval}
    (failed : (∃ error, (session.incomingConnack now connack keepAlive authMethod interval).result =
      .error error) ∨ ∃ reason, connack.reasonCode = .refused reason) :
    (session.incomingConnack now connack keepAlive authMethod interval).session = session ∧
      (session.incomingConnack now connack keepAlive authMethod interval).fired = [] := by
  cases code : connack.reasonCode with
  | refused reason =>
    simp only [incomingConnack, code]
    split <;> exact ⟨rfl, rfl⟩
  | success sessionPresent =>
    by_cases matched : authenticationMethodMatches connack.otherProperties.authentication
        authMethod = true
    · rcases failed with ⟨error, failed⟩ | ⟨reason, refused⟩
      · simp [incomingConnack, code, matched] at failed
      · rw [code] at refused
        cases refused
    · simp [incomingConnack, code, matched]

/-- A call of a handler leaves no trace when it fails, exactly if a response that gives a
leased identifier back is for an operation in flight of its own kind. -/
theorem atomic_iff_matched (session : Session) (call : HandlerCall) :
    session.Atomic call ↔ session.Matched call := by
  cases call with
  | completeInflight operation =>
    constructor
    · intro atomic releases leased
      by_contra missing
      obtain ⟨handled, completed⟩ := session.completeInflight_of_releases releases
      have kept := (atomic handled completed (.inl ((completeInflight_error completed).mpr missing))).1
      rw [(completeInflight_missing completed missing).2, if_pos releases,
        releasePkid_eq_self_iff] at kept
      exact kept leased
    · intro matched handled completed fails
      have missing : operation.packetIdentifier ∉ operation.keys session.inflight := by
        rcases fails with failed | ⟨_, _, _, _, _, _, other, _⟩
        · exact (completeInflight_error completed).mp failed
        · cases other
      obtain ⟨silent, left⟩ := completeInflight_missing completed missing
      refine ⟨?_, silent⟩
      rw [left]
      split
      · rename_i releases
        rw [releasePkid_eq_self_iff]
        exact fun leased => missing (matched releases leased)
      · rfl
  | incomingAuth auth =>
    refine ⟨fun _ => trivial, ?_⟩
    rintro - handled ⟨⟩ (⟨error, failed⟩ | ⟨_, _, _, _, _, _, other, _⟩)
    · exact incomingAuth_error failed
    · cases other
  | incomingConnack now connack keepAlive authMethod interval =>
    refine ⟨fun _ => trivial, ?_⟩
    rintro - handled ⟨⟩ (failed | ⟨_, _, _, _, _, reason, same, refused⟩)
    · exact incomingConnack_error (.inl failed)
    · cases same
      exact incomingConnack_error (.inr ⟨reason, refused⟩)

/-- A QoS 1 PUBLISH is in flight under identifier 1. -/
def publishInFlight : List Event :=
  [.connack ⟨.success false, {}⟩ .infinite none .infinite,
    .app (.publishQoS1 ⟨⟨⟨[0, 1, 97]⟩⟩⟩ [] false {}), .poll [{}]]

/-- A SUBACK for that identifier is an error, and the identifier is free afterwards. -/
theorem atomic_crossedSubAck :
    ∃ final, World.run (.new .one) publishInFlight = .ok final ∧
      ¬ final.session.Atomic (.completeInflight (.subscribe ⟨.one, [.grantedQoS0], {}⟩)) := by
  refine ⟨_, rfl, ?_⟩
  intro atomic
  have kept := (atomic _ rfl (.inl ⟨.unexpectedPacket, rfl⟩)).1
  have leased := congrArg (fun session : Session => decide (.one ∈ session.pkidPool.leased)) kept
  revert leased
  decide

end Session

end MqttClient.Client
