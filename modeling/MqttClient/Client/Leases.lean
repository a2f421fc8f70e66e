import MqttClient.Client.DisciplineRuns
import MqttClient.Client.QoS1

/-! Every leased identifier belongs to an operation in flight. -/

namespace MqttClient.Client

open MqttClient.Proto

namespace PkidPool

/-- The identifiers of so many leases in a row. -/
def leaseMany : Nat → PkidPool → List PacketIdentifier
  | 0, _ => []
  | count + 1, pool =>
    match pool.leaseNextPkid with
    | none => []
    | some (identifier, after) => identifier :: leaseMany count after

/-- A free identifier is leased by the time all free ones are. -/
theorem mem_leaseMany {pool : PkidPool} {identifier : PacketIdentifier}
    (free : identifier ∉ pool.leased) (inRange : identifier.get.toNat ≤ pool.maxPkid.get.toNat)
    {count : Nat} (enough : pool.maxPkid.get.toNat ≤ pool.leased.card + count) :
    identifier ∈ pool.leaseMany count := by
  induction count generalizing pool with
  | zero =>
    obtain ⟨found, after, leased⟩ := exists_lease free inRange
    have full : pool.leaseNextPkid = none := by
      have bound := pool.card_le
      exact pool.leaseNextPkid_eq_none_iff.mpr (by omega)
    rw [leased] at full
    cases full
  | succ count ih =>
    obtain ⟨found, after, leased⟩ := exists_lease free inRange
    obtain ⟨fresh, marked⟩ := leaseNextPkid_spec leased
    simp only [leaseMany, leased]
    by_cases same : identifier = found
    · exact same ▸ List.mem_cons_self
    · refine List.mem_cons_of_mem _ (ih ?_ ?_ ?_)
      · rw [marked, Finset.mem_insert]
        exact fun member => member.elim same free
      · rw [leaseNextPkid_maxPkid leased]
        exact inRange
      · rw [leaseNextPkid_maxPkid leased, marked, Finset.card_insert_of_notMem fresh]
        omega

end PkidPool

/-- The pool leases identifiers up to `maxPkid`, and the leased ones are in flight. -/
structure Held (maxPkid : PacketIdentifier) (session : Session) : Prop where
  range : session.pkidPool.maxPkid = maxPkid
  held : ∀ pkid ∈ session.pkidPool.leased, ∃ kind, pkid ∈ session.inflight.keys kind

namespace Held

variable {maxPkid : PacketIdentifier} {session after : Session}

theorem congr (held : Held maxPkid session)
    (keys : ∀ kind, after.inflight.keys kind = session.inflight.keys kind)
    (pool : after.pkidPool = session.pkidPool) : Held maxPkid after where
  range := pool ▸ held.range
  held := by
    intro pkid leased
    obtain ⟨kind, member⟩ := held.held pkid (pool ▸ leased)
    exact ⟨kind, keys kind ▸ member⟩

/-- What leaves the maps leaves the pool. -/
private theorem release (held : Held maxPkid session)
    (range : after.pkidPool.maxPkid = session.pkidPool.maxPkid)
    (fewer : after.pkidPool.leased ⊆ session.pkidPool.leased)
    (kept : ∀ kind pkid, pkid ∈ session.inflight.keys kind → pkid ∈ after.pkidPool.leased →
      pkid ∈ after.inflight.keys kind) : Held maxPkid after where
  range := range.trans held.range
  held := by
    intro pkid leased
    obtain ⟨kind, member⟩ := held.held pkid (fewer leased)
    exact ⟨kind, kept kind pkid member leased⟩

/-- A leased identifier is filed under the kind of its operation. -/
private theorem lease {pool : PkidPool} {pkid : PacketIdentifier} (kind : OpKind)
    (held : Held maxPkid session) (leased : session.pkidPool.leaseNextPkid = some (pkid, pool))
    (samePool : after.pkidPool = pool) (filed : pkid ∈ after.inflight.keys kind)
    (kept : ∀ other, session.inflight.keys other ⊆ after.inflight.keys other) :
    Held maxPkid after where
  range := by rw [samePool, PkidPool.leaseNextPkid_maxPkid leased, held.range]
  held := by
    intro other member
    rw [samePool, (PkidPool.leaseNextPkid_spec leased).2] at member
    rcases Finset.mem_insert.mp member with rfl | earlier
    · exact ⟨kind, filed⟩
    · obtain ⟨kind, present⟩ := held.held other earlier
      exact ⟨kind, kept kind present⟩

private theorem releaseAll_maxPkid (pool : PkidPool) (pkids : List PacketIdentifier) :
    (Session.releaseAll pool pkids).maxPkid = pool.maxPkid := by
  induction pkids generalizing pool with
  | nil => rfl
  | cons first rest ih => exact ih (pool.releasePkid first)

theorem sessionExpired (held : Held maxPkid session) : Held maxPkid session.sessionExpired.1 := by
  refine held.release ?_ ?_ ?_
  · simp only [Session.sessionExpired, releaseAll_maxPkid]
  · intro pkid leased
    exact (Session.mem_leased_releaseAll.mp (Session.mem_leased_releaseAll.mp leased).1).1
  · intro kind pkid member leased
    obtain ⟨first, notQoS2⟩ := Session.mem_leased_releaseAll.mp leased
    have notQoS1 := (Session.mem_leased_releaseAll.mp first).2
    cases kind with
    | publishQoS1 => exact absurd member notQoS1
    | publishQoS2 => exact absurd member notQoS2
    | subscribe => exact member
    | unsubscribe => exact member

theorem disconnected (held : Held maxPkid session) : Held maxPkid session.disconnected.1 := by
  refine held.release ?_ ?_ ?_
  · simp only [Session.disconnected, releaseAll_maxPkid]
  · intro pkid leased
    exact (Session.mem_leased_releaseAll.mp (Session.mem_leased_releaseAll.mp leased).1).1
  · intro kind pkid member leased
    obtain ⟨first, notUnsubscribe⟩ := Session.mem_leased_releaseAll.mp leased
    have notSubscribe := (Session.mem_leased_releaseAll.mp first).2
    cases kind with
    | publishQoS1 => exact member
    | publishQoS2 => exact member
    | subscribe => exact absurd member notSubscribe
    | unsubscribe => exact absurd member notUnsubscribe

theorem ended (held : Held maxPkid session) (interval : SessionExpiryInterval) :
    Held maxPkid (session.ended interval).1 := by
  have closed : Held maxPkid { session.disconnected.1 with expiryInterval := interval } :=
    held.disconnected.congr (fun _ => rfl) rfl
  simp only [Session.ended, Session.expireIfZero]
  split
  · exact closed.sessionExpired
  · exact closed

/-- Without QoS 2, an acknowledgement that is handled releases what it removes, and may
release more. -/
theorem completeInflight {ack : Acknowledgement} {handled : Handled} (held : Held maxPkid session)
    (only : QoS1Only session) (completed : session.completeInflight ack.operation = .ok handled) :
    Held maxPkid handled.session := by
  have keys := Session.completeInflight_keys completed
  have pool := Session.completeInflight_pool completed
  by_cases releases : ack.releases = true
  · rw [if_pos releases] at pool
    refine held.release ?_ ?_ ?_
    · rw [pool]
      rfl
    · rw [pool]
      exact Finset.erase_subset _ _
    · intro kind pkid member leased
      rw [pool, PkidPool.leased_releasePkid, Finset.mem_erase] at leased
      rw [keys]
      split
      · exact List.mem_filter.mpr ⟨member, by simpa using leased.1⟩
      · exact member
  · -- A PUBREC that keeps its identifier completes a QoS 2 publish, and there is none.
    rw [if_neg releases] at pool
    refine held.congr (fun kind => ?_) pool
    rw [keys]
    split
    · rename_i same
      cases ack with
      | pubRec pubrec =>
        rw [same]
        simp [Acknowledgement.kind, InflightTracker.keys, only.publishQoS2]
      | _ => simp [Acknowledgement.releases] at releases
    · rfl

theorem poll {outgoing : Option Outgoing} {fired : List Firing} (held : Held maxPkid session)
    (effect : Session.PollEffect session outgoing after fired) : Held maxPkid after := by
  have insert_subset : ∀ {V : Type} (map : IndexMap PacketIdentifier V) pkid value,
      map.keys ⊆ (map.insert pkid value).keys :=
    fun map pkid value other member => IndexMap.mem_keys_insert.mpr (.inl member)
  have opens (kind : OpKind) {before : Session} {pkid : PacketIdentifier}
      (leased : session.pkidPool.leaseNextPkid = some (pkid, before.pkidPool))
      (frame : Session.OpFrame before after) (opened : pkid ∈ before.inflight.keys kind)
      (kept : ∀ other, session.inflight.keys other ⊆ before.inflight.keys other) :
      Held maxPkid after := by
    refine held.lease kind leased frame.pkidPool ?_ ?_
    · rw [frame.keys]
      exact opened
    · intro other
      rw [frame.keys]
      exact kept other
  cases effect with
  | quiet outgoing after fired drained frame => exact held.congr frame.keys frame.pkidPool
  | replay packet rest after head frame =>
    exact held.congr (fun kind => (frame.keys kind).trans (by cases kind <;> rfl)) frame.pkidPool
  | subscribe notifier _ _ _ rest pkid pool after drained head leased frame =>
    refine opens .subscribe leased frame (IndexMap.mem_keys_insert.mpr (.inr rfl)) ?_
    intro other
    cases other with
    | subscribe => exact insert_subset _ _ _
    | _ => exact fun _ => id
  | unsubscribe notifier _ _ rest pkid pool after drained head leased frame =>
    refine opens .unsubscribe leased frame (IndexMap.mem_keys_insert.mpr (.inr rfl)) ?_
    intro other
    cases other with
    | unsubscribe => exact insert_subset _ _ _
    | _ => exact fun _ => id
  | publishQoS1 request rest pkid pool after drained head leased frame =>
    refine opens .publishQoS1 leased frame (IndexMap.mem_keys_insert.mpr (.inr rfl)) ?_
    intro other
    cases other with
    | publishQoS1 => exact insert_subset _ _ _
    | _ => exact fun _ => id
  | publishQoS2 request rest pkid pool after drained head leased frame =>
    refine opens .publishQoS2 leased frame (IndexMap.mem_keys_insert.mpr (.inr rfl)) ?_
    intro other
    cases other with
    | publishQoS2 => exact insert_subset _ _ _
    | _ => exact fun _ => id

theorem step {world next : World} {event : Event} (held : Held maxPkid world.session)
    (only : QoS1Only world.session) (stepped : world.step event = .ok next) :
    Held maxPkid next.session := by
  cases World.step_cases stepped with
  | app event =>
    obtain ⟨ch, same, _⟩ := world.app_session event
    rw [same]
    exact held.congr (fun _ => rfl) rfl
  | elapse duration => exact held
  | refused => exact held
  | established connack keepAlive authMethod interval sessionPresent idle code =>
    cases sessionPresent with
    | true => exact held.congr (fun _ => rfl) rfl
    | false => exact held.sessionExpired.congr (fun _ => rfl) rfl
  | polled polls outgoing session fired live polled =>
    exact held.poll (Session.nextOutgoingPacket_effect polled)
  | acked ack handled live completed => exact held.completeInflight only completed
  | delivered publish next live delivered =>
    obtain ⟨ackRx, inApplication, same⟩ := World.incomingPublish_session delivered
    rw [same]
    exact held.congr (fun _ => rfl) rfl
  | authenticated auth live =>
    obtain ⟨exchange, same⟩ := (world.session.incomingAuth_frame auth).1
    rw [World.record, same]
    exact held.congr (fun _ => rfl) rfl
  | ponged live =>
    obtain ⟨rest, same⟩ := (world.session.incomingPingresp_frame world.now).1
    rw [World.record, same]
    exact held.congr (fun _ => rfl) rfl
  | disconnected disconnection live =>
    rw [world.disconnected_eq]
    exact held.ended _

end Held

/-- In every state of every run, a leased identifier is in flight. So a lease fails only
when every identifier is in flight, and an identifier that is not in flight is leased
again within one round. -/
theorem leased_inFlight (maxPkid : PacketIdentifier) (events : List Event) (final : World)
    (ran : World.run (.new maxPkid) events = .ok final) :
    (∀ pkid ∈ final.session.pkidPool.leased, ∃ kind, pkid ∈ final.session.inflight.keys kind) ∧
    (final.session.pkidPool.leaseNextPkid = none →
      ∀ pkid : PacketIdentifier, pkid.get.toNat ≤ maxPkid.get.toNat →
        ∃ kind, pkid ∈ final.session.inflight.keys kind) ∧
    (∀ pkid : PacketIdentifier, pkid.get.toNat ≤ maxPkid.get.toNat →
      (∀ kind, pkid ∉ final.session.inflight.keys kind) →
      pkid ∈ final.session.pkidPool.leaseMany maxPkid.get.toNat) := by
  have initial : Held maxPkid (World.new maxPkid).session :=
    ⟨rfl, by simp [World.new, Session.new]⟩
  obtain ⟨held, _⟩ := Transition.exec_always
    (fun world => Held maxPkid world.session ∧ QoS1Only world.session)
    ⟨initial, .new maxPkid⟩
    (fun _ _ _ both stepped => ⟨both.1.step both.2 stepped, both.2.step stepped⟩) ran
  refine ⟨held.held, ?_, ?_⟩
  · intro failed pkid inRange
    by_contra unheld
    have free : pkid ∉ final.session.pkidPool.leased :=
      fun leased => unheld (held.held pkid leased)
    obtain ⟨found, after, leased⟩ := PkidPool.exists_lease free (held.range ▸ inRange)
    rw [leased] at failed
    cases failed
  · intro pkid inRange unheld
    have free : pkid ∉ final.session.pkidPool.leased := by
      intro leased
      obtain ⟨kind, member⟩ := held.held pkid leased
      exact unheld kind member
    refine PkidPool.mem_leaseMany free (held.range ▸ inRange) ?_
    rw [held.range]
    exact Nat.le_add_left _ _

/-- A publish is sent under the only identifier. -/
def exhaustingPublish : List Event :=
  [.connack ⟨.success false, {}⟩ .infinite none .infinite,
    .app (.publishQoS1 ⟨⟨⟨[0, 1, 97]⟩⟩⟩ [] false {}), .poll [{}]]

theorem leased_inFlight_exhausted :
    ∃ final, World.run (.new .one) exhaustingPublish = .ok final ∧
      .one ∈ final.session.pkidPool.leased ∧ final.session.pkidPool.leaseNextPkid = none ∧
      ∃ kind, .one ∈ final.session.inflight.keys kind := by
  have ran : ∃ final, World.run (.new .one) exhaustingPublish = .ok final ∧
      .one ∈ final.session.pkidPool.leased ∧ final.session.pkidPool.leaseNextPkid = none :=
    ⟨_, rfl, by decide, rfl⟩
  obtain ⟨final, ran, leased, full⟩ := ran
  obtain ⟨_, exhausted, _⟩ := leased_inFlight .one exhaustingPublish final ran
  exact ⟨final, ran, leased, full, exhausted full .one (Nat.le_refl _)⟩

end MqttClient.Client
