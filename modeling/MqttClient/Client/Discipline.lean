import MqttClient.Client.SessionSpec

/-! Packet identifiers of operations in flight: leased, and never shared. -/

namespace MqttClient.Client

open MqttClient.Proto

namespace InflightTracker

/-- The identifier and notifier of each operation of a kind, oldest first. -/
def stored (inflight : InflightTracker) : OpKind → List (PacketIdentifier × Notifier)
  | .publishQoS1 => inflight.publishQoS1.entries.map fun entry => (entry.1, entry.2.2)
  | .publishQoS2 => inflight.publishQoS2.entries.map fun entry => (entry.1, entry.2.2)
  | .subscribe => inflight.subscribe.entries
  | .unsubscribe => inflight.unsubscribe.entries

/-- The identifiers held by operations of a kind. -/
def keys (inflight : InflightTracker) : OpKind → List PacketIdentifier
  | .publishQoS1 => inflight.publishQoS1.keys
  | .publishQoS2 => inflight.publishQoS2.keys
  | .subscribe => inflight.subscribe.keys
  | .unsubscribe => inflight.unsubscribe.keys

theorem keys_eq_map_stored (inflight : InflightTracker) (kind : OpKind) :
    inflight.keys kind = (inflight.stored kind).map Prod.fst := by
  cases kind <;> simp [keys, stored, IndexMap.keys, Function.comp_def]

end InflightTracker

/-- The identifiers in flight are leased, and no two operations share one. -/
structure Disciplined (session : Session) : Prop where
  disjoint : ∀ left right pkid, left ≠ right →
    pkid ∈ session.inflight.keys left → pkid ∉ session.inflight.keys right
  leased : ∀ kind pkid, pkid ∈ session.inflight.keys kind → pkid ∈ session.pkidPool.leased

namespace Session

theorem mem_leased_releaseAll {pool : PkidPool} {pkids : List PacketIdentifier}
    {pkid : PacketIdentifier} :
    pkid ∈ (releaseAll pool pkids).leased ↔ pkid ∈ pool.leased ∧ pkid ∉ pkids := by
  induction pkids generalizing pool with
  | nil => simp [releaseAll]
  | cons first rest ih =>
    have unfolded : releaseAll pool (first :: rest) = releaseAll (pool.releasePkid first) rest :=
      rfl
    rw [unfolded, ih]
    simp [and_left_comm, and_assoc]

end Session

namespace Disciplined

variable {session after : Session}

theorem congr (disciplined : Disciplined session)
    (inflight : ∀ kind, after.inflight.keys kind = session.inflight.keys kind)
    (pool : after.pkidPool = session.pkidPool) : Disciplined after where
  disjoint left right pkid different member := by
    rw [inflight] at member ⊢
    exact disciplined.disjoint left right pkid different member
  leased kind pkid member := by
    rw [inflight] at member
    exact pool ▸ disciplined.leased kind pkid member

/-- Dropping identifiers of some kinds and giving back what they held. -/
theorem release (disciplined : Disciplined session)
    (kept : ∀ kind pkid, pkid ∈ after.inflight.keys kind → pkid ∈ session.inflight.keys kind)
    (released : ∀ kind pkid, pkid ∈ after.inflight.keys kind → pkid ∈ session.pkidPool.leased →
      pkid ∈ after.pkidPool.leased) : Disciplined after where
  disjoint left right pkid different member other :=
    disciplined.disjoint left right pkid different (kept left pkid member) (kept right pkid other)
  leased kind pkid member :=
    released kind pkid member (disciplined.leased kind pkid (kept kind pkid member))

/-- A new operation under an identifier that was free before its lease. -/
theorem lease {pool : PkidPool} {pkid : PacketIdentifier} (kind : OpKind)
    (disciplined : Disciplined session)
    (leased : session.pkidPool.leaseNextPkid = some (pkid, pool))
    (opened : ∀ other, after.inflight.keys other =
      if other = kind then session.inflight.keys other ++ [pkid] else session.inflight.keys other)
    (samePool : after.pkidPool = pool) : Disciplined after := by
  obtain ⟨free, marked⟩ := PkidPool.leaseNextPkid_spec leased
  have unheld : ∀ other, pkid ∉ session.inflight.keys other :=
    fun other member => free (disciplined.leased other pkid member)
  have cases : ∀ {other pkid'}, pkid' ∈ after.inflight.keys other →
      pkid' ∈ session.inflight.keys other ∨ (other = kind ∧ pkid' = pkid) := by
    intro other pkid' member
    rw [opened] at member
    split at member
    · rename_i same
      rcases List.mem_append.mp member with old | new
      · exact .inl old
      · exact .inr ⟨same, List.mem_singleton.mp new⟩
    · exact .inl member
  constructor
  · intro left right pkid' different member other
    rcases cases member with old | ⟨rfl, rfl⟩
    · rcases cases other with old' | ⟨rfl, rfl⟩
      · exact disciplined.disjoint left right pkid' different old old'
      · exact unheld left old
    · rcases cases other with old' | ⟨rfl, _⟩
      · exact unheld right old'
      · exact different rfl
  · intro other pkid' member
    rw [samePool, marked]
    rcases cases member with old | ⟨_, rfl⟩
    · exact Finset.mem_insert_of_mem (disciplined.leased other pkid' old)
    · exact Finset.mem_insert_self _ _

/-- An identifier about to be leased is held by no operation. -/
theorem unheld {pool : PkidPool} {pkid : PacketIdentifier} (disciplined : Disciplined session)
    (leased : session.pkidPool.leaseNextPkid = some (pkid, pool)) (kind : OpKind) :
    pkid ∉ session.inflight.keys kind :=
  fun member => (PkidPool.leaseNextPkid_spec leased).1 (disciplined.leased kind pkid member)

theorem sessionExpired (disciplined : Disciplined session) :
    Disciplined session.sessionExpired.1 := by
  apply disciplined.release
  · intro kind pkid member
    cases kind with
    | publishQoS1 => cases member
    | publishQoS2 => cases member
    | subscribe => exact member
    | unsubscribe => exact member
  · intro kind pkid member leased
    have unpublished : ∀ other, kind = .subscribe ∨ kind = .unsubscribe →
        other = .publishQoS1 ∨ other = .publishQoS2 → pkid ∉ session.inflight.keys other := by
      intro other here there
      have held : pkid ∈ session.inflight.keys kind := by
        rcases here with rfl | rfl <;> exact member
      apply disciplined.disjoint kind other pkid _ held
      rcases here with rfl | rfl <;> rcases there with rfl | rfl <;> decide
    have final : kind = .subscribe ∨ kind = .unsubscribe →
        pkid ∈ session.sessionExpired.1.pkidPool.leased := by
      intro here
      simp only [Session.sessionExpired, Session.mem_leased_releaseAll]
      exact ⟨⟨leased, unpublished .publishQoS1 here (.inl rfl)⟩,
        unpublished .publishQoS2 here (.inr rfl)⟩
    cases kind with
    | publishQoS1 => cases member
    | publishQoS2 => cases member
    | subscribe => exact final (.inl rfl)
    | unsubscribe => exact final (.inr rfl)

theorem disconnected (disciplined : Disciplined session) :
    Disciplined session.disconnected.1 := by
  apply disciplined.release
  · intro kind pkid member
    cases kind with
    | publishQoS1 => exact member
    | publishQoS2 => exact member
    | subscribe => cases member
    | unsubscribe => cases member
  · intro kind pkid member leased
    have unsubscribed : ∀ other, kind = .publishQoS1 ∨ kind = .publishQoS2 →
        other = .subscribe ∨ other = .unsubscribe → pkid ∉ session.inflight.keys other := by
      intro other here there
      have held : pkid ∈ session.inflight.keys kind := by
        rcases here with rfl | rfl <;> exact member
      apply disciplined.disjoint kind other pkid _ held
      rcases here with rfl | rfl <;> rcases there with rfl | rfl <;> decide
    have final : kind = .publishQoS1 ∨ kind = .publishQoS2 →
        pkid ∈ session.disconnected.1.pkidPool.leased := by
      intro here
      simp only [Session.disconnected, Session.mem_leased_releaseAll]
      exact ⟨⟨leased, unsubscribed .subscribe here (.inl rfl)⟩,
        unsubscribed .unsubscribe here (.inr rfl)⟩
    cases kind with
    | publishQoS1 => exact final (.inl rfl)
    | publishQoS2 => exact final (.inr rfl)
    | subscribe => cases member
    | unsubscribe => cases member

theorem expireIfZero (disciplined : Disciplined session) :
    Disciplined session.expireIfZero.1 := by
  unfold Session.expireIfZero
  split
  · exact disciplined.sessionExpired
  · exact disciplined

end Disciplined

/-- Whether handling the packet gives its identifier back to the pool. A PUBREC that
reports success keeps it for the PUBREL. -/
def Acknowledgement.releases : Acknowledgement → Bool
  | .pubRec packet => !packet.reasonCode.isSuccess
  | _ => true

/-- Take the identifier of the packet out of the map of its own kind. -/
def Acknowledgement.removeFrom (ack : Acknowledgement) (inflight : InflightTracker) :
    InflightTracker :=
  match ack with
  | .subAck packet =>
    { inflight with subscribe := inflight.subscribe.shiftRemove packet.packetIdentifier }
  | .unsubAck packet =>
    { inflight with unsubscribe := inflight.unsubscribe.shiftRemove packet.packetIdentifier }
  | .pubAck packet =>
    { inflight with publishQoS1 := inflight.publishQoS1.shiftRemove packet.packetIdentifier }
  | .pubRec packet =>
    { inflight with publishQoS2 := inflight.publishQoS2.shiftRemove packet.packetIdentifier }

/-- The completion of an operation by its acknowledgement. -/
def Acknowledgement.fire (ack : Acknowledgement) (notifier : Notifier) : Firing :=
  match ack with
  | .subAck packet => .subscribe notifier (.complete packet)
  | .unsubAck packet => .unsubscribe notifier (.complete packet)
  | .pubAck packet => .publishQoS1 notifier (.complete packet)
  | .pubRec packet => .publishQoS2 notifier (.complete packet)

theorem Acknowledgement.stored_removeFrom (ack : Acknowledgement) (inflight : InflightTracker)
    (kind : OpKind) :
    (ack.removeFrom inflight).stored kind =
      if kind = ack.kind then
        (inflight.stored kind).filter (fun entry => !(entry.1 == ack.packetIdentifier))
      else inflight.stored kind := by
  cases ack <;> cases kind <;>
    simp [removeFrom, InflightTracker.stored, Acknowledgement.kind, IndexMap.shiftRemove,
      Acknowledgement.packetIdentifier, List.filter_map, Function.comp_def]

namespace Session

/-- An acknowledgement takes its identifier out of its own map and, when it releases,
out of the pool. It fires the operation of its kind under that identifier, if there is
one, and is an error if there is none. -/
theorem completeInflight_spec {session : Session} {ack : Acknowledgement} {handled : Handled}
    (completed : session.completeInflight ack.operation = .ok handled) :
    handled.session =
      { session with
        pkidPool := if ack.releases then session.pkidPool.releasePkid ack.packetIdentifier
          else session.pkidPool
        inflight := ack.removeFrom session.inflight } ∧
    handled.fired =
      ((session.inflight.stored ack.kind).filter (fun entry =>
        entry.1 == ack.packetIdentifier)).map (fun entry => ack.fire entry.2) := by
  cases ack with
  | subAck packet =>
    simp only [Acknowledgement.operation, completeInflight, Except.ok.injEq] at completed
    subst completed
    simp only [Acknowledgement.kind, Acknowledgement.packetIdentifier, InflightTracker.stored,
      IndexMap.filter_key]
    cases found : session.inflight.subscribe.get? packet.packetIdentifier with
    | none =>
      have absent := IndexMap.shiftRemove_of_not_mem (IndexMap.get?_eq_none_iff.mp found)
      simp [completeEntry, Acknowledgement.removeFrom, absent, releasePkid,
        Acknowledgement.releases]
    | some notifier =>
      simp [completeEntry, Acknowledgement.removeFrom, releasePkid, Acknowledgement.releases,
        Acknowledgement.fire]
  | unsubAck packet =>
    simp only [Acknowledgement.operation, completeInflight, Except.ok.injEq] at completed
    subst completed
    simp only [Acknowledgement.kind, Acknowledgement.packetIdentifier, InflightTracker.stored,
      IndexMap.filter_key]
    cases found : session.inflight.unsubscribe.get? packet.packetIdentifier with
    | none =>
      have absent := IndexMap.shiftRemove_of_not_mem (IndexMap.get?_eq_none_iff.mp found)
      simp [completeEntry, Acknowledgement.removeFrom, absent, releasePkid,
        Acknowledgement.releases]
    | some notifier =>
      simp [completeEntry, Acknowledgement.removeFrom, releasePkid, Acknowledgement.releases,
        Acknowledgement.fire]
  | pubAck packet =>
    simp only [Acknowledgement.operation, completeInflight, Except.ok.injEq] at completed
    subst completed
    simp only [Acknowledgement.kind, Acknowledgement.packetIdentifier, InflightTracker.stored,
      List.filter_map, Function.comp_def, IndexMap.filter_key]
    cases found : session.inflight.publishQoS1.get? packet.packetIdentifier with
    | none =>
      have absent := IndexMap.shiftRemove_of_not_mem (IndexMap.get?_eq_none_iff.mp found)
      simp [completeEntry, Acknowledgement.removeFrom, absent, releasePkid,
        Acknowledgement.releases]
    | some entry =>
      simp [completeEntry, Acknowledgement.removeFrom, releasePkid, Acknowledgement.releases,
        Acknowledgement.fire]
  | pubRec packet =>
    simp only [Acknowledgement.operation, completeInflight] at completed
    simp only [Acknowledgement.kind, Acknowledgement.packetIdentifier, InflightTracker.stored,
      List.filter_map, Function.comp_def, IndexMap.filter_key]
    cases found : session.inflight.publishQoS2.get? packet.packetIdentifier with
    | none =>
      have absent := IndexMap.shiftRemove_of_not_mem (IndexMap.get?_eq_none_iff.mp found)
      cases success : packet.reasonCode.isSuccess with
      | true => simp [found, success] at completed
      | false =>
        simp only [found, success, Bool.false_eq_true, if_false, Except.ok.injEq] at completed
        subst completed
        simp [completeEntry, Acknowledgement.removeFrom, absent, releasePkid,
          Acknowledgement.releases, success]
    | some entry =>
      cases success : packet.reasonCode.isSuccess with
      | true =>
        simp only [found, success, if_true, Option.map_some, Except.ok.injEq] at completed
        subst completed
        simp [completeEntry, Acknowledgement.removeFrom, Acknowledgement.releases, success,
          Acknowledgement.fire]
      | false =>
        simp only [found, success, Bool.false_eq_true, if_false, Except.ok.injEq] at completed
        subst completed
        simp [completeEntry, Acknowledgement.removeFrom, releasePkid, Acknowledgement.releases,
          success, Acknowledgement.fire]

/-- The identifiers in flight after an acknowledgement. -/
theorem completeInflight_keys {session : Session} {ack : Acknowledgement} {handled : Handled}
    (completed : session.completeInflight ack.operation = .ok handled) (kind : OpKind) :
    handled.session.inflight.keys kind =
      if kind = ack.kind then
        (session.inflight.keys kind).filter (fun other => !(other == ack.packetIdentifier))
      else session.inflight.keys kind := by
  rw [(completeInflight_spec completed).1]
  simp only [InflightTracker.keys_eq_map_stored, Acknowledgement.stored_removeFrom]
  split
  · simp [List.filter_map, Function.comp_def]
  · rfl

/-- The pool after an acknowledgement. -/
theorem completeInflight_pool {session : Session} {ack : Acknowledgement} {handled : Handled}
    (completed : session.completeInflight ack.operation = .ok handled) :
    handled.session.pkidPool =
      if ack.releases then session.pkidPool.releasePkid ack.packetIdentifier
      else session.pkidPool := by
  rw [(completeInflight_spec completed).1]

end Session

/-- The packet does not give back an identifier that an operation of another kind
holds. -/
def ReleasesOwn (session : Session) (ack : Acknowledgement) : Prop :=
  ack.releases = true → ∀ kind, kind ≠ ack.kind →
    ack.packetIdentifier ∉ session.inflight.keys kind

namespace Disciplined

variable {session after : Session}

theorem completeInflight {ack : Acknowledgement} {handled : Handled}
    (disciplined : Disciplined session) (own : ReleasesOwn session ack)
    (completed : session.completeInflight ack.operation = .ok handled) :
    Disciplined handled.session := by
  have keys := Session.completeInflight_keys completed
  have pool := Session.completeInflight_pool completed
  apply disciplined.release
  · intro kind pkid member
    rw [keys] at member
    split at member
    · exact (List.mem_filter.mp member).1
    · exact member
  · intro kind pkid member leased
    rw [pool]
    split
    · rename_i releases
      rw [PkidPool.leased_releasePkid, Finset.mem_erase]
      refine ⟨?_, leased⟩
      rintro rfl
      rw [keys] at member
      split at member
      · simp at member
      · rename_i other
        exact own releases kind other member
    · exact leased

/-- Giving back an identifier that another operation holds breaks the discipline. -/
theorem completeInflight_iff {ack : Acknowledgement} {handled : Handled}
    (disciplined : Disciplined session)
    (completed : session.completeInflight ack.operation = .ok handled) :
    Disciplined handled.session ↔ ReleasesOwn session ack := by
  refine ⟨?_, fun own => disciplined.completeInflight own completed⟩
  intro final releases kind other member
  have keys := Session.completeInflight_keys completed
  have pool := Session.completeInflight_pool completed
  have held : ack.packetIdentifier ∈ handled.session.inflight.keys kind := by
    rw [keys, if_neg other]
    exact member
  have leased := final.leased kind _ held
  rw [pool, if_pos releases, PkidPool.leased_releasePkid] at leased
  exact absurd rfl (Finset.ne_of_mem_erase leased)

end Disciplined

end MqttClient.Client
