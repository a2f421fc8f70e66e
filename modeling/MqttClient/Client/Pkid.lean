import Mathlib.Data.Finset.Card
import Mathlib.Order.Interval.Finset.Nat
import MqttClient.Lib.Rounds
import MqttClient.Proto.Packet

/-! Leasing of packet identifiers from a cyclic range. -/

namespace MqttClient.Client

open MqttClient.Proto Lib

/-- Iterator over the identifiers from `current` to `last`. -/
structure PkidRange where
  current : PacketIdentifier
  last : PacketIdentifier
  finished : Bool
  deriving DecidableEq

namespace PkidRange

def new (start last : PacketIdentifier) : PkidRange := ⟨start, last, false⟩

def next (range : PkidRange) : Option (PacketIdentifier × PkidRange) :=
  if range.finished then none
  else if range.current = range.last then
    some (range.current, { range with finished := true })
  else
    some (range.current, { range with current := range.current.add 1 })

end PkidRange

/-- A range restarted from its original each time it runs out. -/
structure PkidCycle where
  orig : PkidRange
  iter : PkidRange
  deriving DecidableEq

namespace PkidCycle

def new (range : PkidRange) : PkidCycle := ⟨range, range⟩

def next (cycle : PkidCycle) : Option (PacketIdentifier × PkidCycle) :=
  match cycle.iter.next with
  | some (identifier, iter) => some (identifier, { cycle with iter := iter })
  | none => cycle.orig.next.map (fun (identifier, iter) => (identifier, { cycle with iter := iter }))

/-- The cycle runs through `1..=bound`. -/
structure Within (cycle : PkidCycle) (bound : PacketIdentifier) : Prop where
  orig : cycle.orig = .new .one bound
  last : cycle.iter.last = bound
  current : cycle.iter.current.get.toNat ≤ bound.get.toNat

/-- The number the next call produces. -/
def position (cycle : PkidCycle) : Nat :=
  if cycle.iter.finished then 1 else cycle.iter.current.get.toNat

theorem within_new (bound : PacketIdentifier) : (new (.new .one bound)).Within bound where
  orig := rfl
  last := rfl
  current := bound.toNat_pos

private theorem range_next_of_le {range : PkidRange}
    (within : range.current.get.toNat ≤ range.last.get.toNat) (active : range.finished = false) :
    ∃ iter, range.next = some (range.current, iter) ∧ iter.last = range.last ∧
      iter.current.get.toNat ≤ range.last.get.toNat ∧
      (if iter.finished then 1 else iter.current.get.toNat) =
        range.current.get.toNat % range.last.get.toNat + 1 := by
  by_cases done : range.current = range.last
  · refine ⟨{ range with finished := true }, ?_, rfl, within, ?_⟩
    · simp [PkidRange.next, active, done]
    · simp [done]
  · have below : range.current.get.toNat < range.last.get.toNat := by
      have different : range.current.get.toNat ≠ range.last.get.toNat :=
        fun same => done (PacketIdentifier.ext_toNat same)
      omega
    have successor := PacketIdentifier.toNat_add_one below
    refine ⟨{ range with current := range.current.add 1 }, ?_, rfl, ?_, ?_⟩
    · simp [PkidRange.next, active, done]
    · simp only [successor]
      omega
    · simp [active, successor, Nat.mod_eq_of_lt below]

/-- Every call produces the identifier at the position and moves on cyclically. -/
theorem next_eq {cycle : PkidCycle} {bound : PacketIdentifier} (within : cycle.Within bound) :
    ∃ identifier after, cycle.next = some (identifier, after) ∧
      identifier.get.toNat = cycle.position ∧ after.Within bound ∧
      after.position = cycle.position % bound.get.toNat + 1 := by
  cases active : cycle.iter.finished with
  | false =>
    obtain ⟨iter, advanced, last, current, moved⟩ :=
      range_next_of_le (within.last ▸ within.current) active
    refine ⟨cycle.iter.current, { cycle with iter := iter }, ?_, ?_, ?_, ?_⟩
    · simp [next, advanced]
    · simp [position, active]
    · exact ⟨within.orig, last.trans within.last, within.last ▸ current⟩
    · simp only [position, active] at moved ⊢
      simpa [within.last] using moved
  | true =>
    have start : cycle.orig.current.get.toNat ≤ cycle.orig.last.get.toNat := by
      rw [within.orig]
      exact bound.toNat_pos
    have fresh : cycle.orig.finished = false := by rw [within.orig]; rfl
    obtain ⟨iter, advanced, last, current, moved⟩ := range_next_of_le start fresh
    have exhausted : cycle.iter.next = none := by simp [PkidRange.next, active]
    have origLast : cycle.orig.last = bound := by rw [within.orig]; rfl
    have origFirst : cycle.orig.current.get.toNat = 1 := by rw [within.orig]; rfl
    refine ⟨cycle.orig.current, { cycle with iter := iter }, ?_, ?_, ?_, ?_⟩
    · simp [next, exhausted, advanced]
    · simp [position, active, origFirst]
    · exact ⟨within.orig, last.trans origLast, origLast ▸ current⟩
    · simp only [position, active, origLast, origFirst] at moved ⊢
      simpa using moved

end PkidCycle

/-- The identifiers in use and the cycle that proposes the next one. Leased
identifiers lie in the range the cycle runs through. -/
structure PkidPool where
  leased : Finset PacketIdentifier
  cycle : PkidCycle
  maxPkid : PacketIdentifier
  within : cycle.Within maxPkid
  bounded : ∀ identifier ∈ leased, identifier.get.toNat ≤ maxPkid.get.toNat

namespace PkidPool

def new (maxPkid : PacketIdentifier) : PkidPool where
  leased := ∅
  cycle := .new (.new .one maxPkid)
  maxPkid := maxPkid
  within := PkidCycle.within_new maxPkid
  bounded := by simp

/-- The loop of `leaseNextPkid`: the first identifier of the cycle that is not leased. -/
def search (leased : Finset PacketIdentifier) : Nat → PkidCycle →
    Option (PacketIdentifier × PkidCycle)
  | 0, _ => none
  | fuel + 1, cycle =>
    match cycle.next with
    | none => none
    | some (identifier, after) =>
      if identifier ∈ leased then search leased fuel after else some (identifier, after)

private theorem search_spec {leased : Finset PacketIdentifier} {bound : PacketIdentifier}
    {fuel : Nat} {cycle after : PkidCycle} {identifier : PacketIdentifier}
    (within : cycle.Within bound) (found : search leased fuel cycle = some (identifier, after)) :
    identifier ∉ leased ∧ after.Within bound ∧
      (cycle.position ≤ bound.get.toNat → identifier.get.toNat ≤ bound.get.toNat) := by
  induction fuel generalizing cycle with
  | zero => simp [search] at found
  | succ fuel ih =>
    obtain ⟨proposed, next, advanced, number, nextWithin, moved⟩ := PkidCycle.next_eq within
    simp only [search, advanced] at found
    by_cases used : proposed ∈ leased
    · rw [if_pos used] at found
      obtain ⟨fresh, inside, below⟩ := ih nextWithin found
      refine ⟨fresh, inside, fun _ => below ?_⟩
      rw [moved]
      exact Nat.mod_lt _ bound.toNat_pos
    · rw [if_neg used] at found
      simp only [Option.some.injEq, Prod.mk.injEq] at found
      obtain ⟨rfl, rfl⟩ := found
      exact ⟨used, nextWithin, fun below => number ▸ below⟩

theorem position_le (pool : PkidPool) : pool.cycle.position ≤ pool.maxPkid.get.toNat := by
  unfold PkidCycle.position
  split
  · exact pool.maxPkid.toNat_pos
  · exact pool.within.current

theorem position_pos (cycle : PkidCycle) : 0 < cycle.position := by
  unfold PkidCycle.position
  split
  · exact Nat.one_pos
  · exact PacketIdentifier.toNat_pos _

/-- Lease the next identifier that is not in use, or nothing when all are. -/
def leaseNextPkid (pool : PkidPool) : Option (PacketIdentifier × PkidPool) :=
  if pool.leased.card = pool.maxPkid.get.toNat then none
  else
    match found : search pool.leased pool.maxPkid.get.toNat pool.cycle with
    | none => none
    | some (identifier, cycle) =>
      some (identifier,
        { leased := insert identifier pool.leased
          cycle := cycle
          maxPkid := pool.maxPkid
          within := (search_spec pool.within found).2.1
          bounded := by
            intro other member
            rcases Finset.mem_insert.mp member with same | earlier
            · subst same
              exact (search_spec pool.within found).2.2 pool.position_le
            · exact pool.bounded other earlier })

/-- Give an identifier back. Releasing one that is not leased changes nothing. -/
def releasePkid (pool : PkidPool) (identifier : PacketIdentifier) : PkidPool where
  leased := pool.leased.erase identifier
  cycle := pool.cycle
  maxPkid := pool.maxPkid
  within := pool.within
  bounded other member := pool.bounded other (Finset.mem_of_mem_erase member)

@[simp] theorem leased_new (maxPkid : PacketIdentifier) : (new maxPkid).leased = ∅ := rfl

@[simp] theorem leased_releasePkid (pool : PkidPool) (identifier : PacketIdentifier) :
    (pool.releasePkid identifier).leased = pool.leased.erase identifier := rfl

/-- A lease hands out what the search finds, and marks exactly it. -/
theorem leaseNextPkid_found {pool after : PkidPool} {identifier : PacketIdentifier}
    (leased : pool.leaseNextPkid = some (identifier, after)) :
    search pool.leased pool.maxPkid.get.toNat pool.cycle = some (identifier, after.cycle) ∧
      after.leased = insert identifier pool.leased ∧ after.maxPkid = pool.maxPkid := by
  unfold leaseNextPkid at leased
  split at leased
  · cases leased
  · split at leased
    · cases leased
    · rename_i found
      cases leased
      exact ⟨found, rfl, rfl⟩

theorem leaseNextPkid_spec {pool after : PkidPool} {identifier : PacketIdentifier}
    (leased : pool.leaseNextPkid = some (identifier, after)) :
    identifier ∉ pool.leased ∧ after.leased = insert identifier pool.leased := by
  obtain ⟨found, marked, _⟩ := leaseNextPkid_found leased
  exact ⟨(search_spec pool.within found).1, marked⟩

theorem leaseNextPkid_maxPkid {pool after : PkidPool} {identifier : PacketIdentifier}
    (leased : pool.leaseNextPkid = some (identifier, after)) : after.maxPkid = pool.maxPkid :=
  (leaseNextPkid_found leased).2.2

/-- Searching for as many steps as there are positions up to a free identifier finds one. -/
private theorem search_isSome {leased : Finset PacketIdentifier} {bound free : PacketIdentifier}
    (unused : free ∉ leased) (distance : Nat)
    {cycle : PkidCycle} (within : cycle.Within bound)
    (reached : (cycle.position - 1 + distance) % bound.get.toNat + 1 = free.get.toNat)
    (start : 1 ≤ cycle.position ∧ cycle.position ≤ bound.get.toNat) {fuel : Nat}
    (enough : distance < fuel) :
    (search leased fuel cycle).isSome := by
  induction fuel generalizing cycle distance with
  | zero => omega
  | succ fuel ih =>
    obtain ⟨proposed, next, advanced, number, nextWithin, moved⟩ := PkidCycle.next_eq within
    simp only [search, advanced]
    by_cases used : proposed ∈ leased
    · rw [if_pos used]
      cases distance with
      | zero =>
        have same : proposed = free := by
          apply PacketIdentifier.ext_toNat
          rw [number, ← reached, Nat.add_zero, Nat.mod_eq_of_lt (by omega)]
          omega
        exact absurd (same ▸ used) unused
      | succ distance =>
        have positive : 0 < bound.get.toNat := bound.toNat_pos
        have below := Nat.mod_lt cycle.position positive
        refine ih distance nextWithin ?_ ⟨by omega, by omega⟩ (by omega)
        rw [moved, ← reached, Nat.add_sub_cancel, Nat.mod_add_mod]
        congr 2
        omega
    · rw [if_neg used]
      rfl

private theorem card_image_toNat (leased : Finset PacketIdentifier) :
    (leased.image (fun identifier => identifier.get.toNat)).card = leased.card :=
  Finset.card_image_of_injective _ (fun _ _ same => PacketIdentifier.ext_toNat same)

private theorem image_subset (pool : PkidPool) :
    pool.leased.image (fun identifier => identifier.get.toNat) ⊆
      Finset.Icc 1 pool.maxPkid.get.toNat := by
  intro number member
  obtain ⟨identifier, leased, rfl⟩ := Finset.mem_image.mp member
  exact Finset.mem_Icc.mpr ⟨identifier.toNat_pos, pool.bounded identifier leased⟩

theorem card_le (pool : PkidPool) : pool.leased.card ≤ pool.maxPkid.get.toNat := by
  rw [← card_image_toNat]
  simpa using Finset.card_le_card pool.image_subset

/-- An identifier of the range that is free, when not all are leased. -/
theorem exists_free {pool : PkidPool} (room : pool.leased.card ≠ pool.maxPkid.get.toNat) :
    ∃ free : PacketIdentifier, free ∉ pool.leased ∧ free.get.toNat ≤ pool.maxPkid.get.toNat := by
  have fewer : (pool.leased.image (fun identifier => identifier.get.toNat)).card <
      (Finset.Icc 1 pool.maxPkid.get.toNat).card := by
    rw [card_image_toNat]
    have bound := pool.card_le
    simp only [Nat.card_Icc]
    omega
  obtain ⟨number, inside, outside⟩ := Finset.exists_mem_notMem_of_card_lt_card fewer
  obtain ⟨positive, below⟩ := Finset.mem_Icc.mp inside
  have small : number < 65536 := lt_of_le_of_lt below pool.maxPkid.get.toNat_lt
  have value : (UInt16.ofNat number).toNat = number := UInt16.toNat_ofNat_of_lt' small
  have nonzero : UInt16.ofNat number ≠ 0 := by
    intro zero
    rw [zero] at value
    simp at value
    omega
  refine ⟨⟨UInt16.ofNat number, nonzero⟩, ?_, ?_⟩
  · intro leased
    exact outside (Finset.mem_image.mpr ⟨_, leased, value⟩)
  · exact value.le.trans below

/-- The search ends within one round of the cycle, so a lease fails exactly when
every identifier is in use. -/
theorem leaseNextPkid_eq_none_iff (pool : PkidPool) :
    pool.leaseNextPkid = none ↔ pool.leased.card = pool.maxPkid.get.toNat := by
  constructor
  · intro failed
    by_contra room
    obtain ⟨free, unused, inRange⟩ := exists_free room
    have positive := free.toNat_pos
    obtain ⟨turn, later, short, same⟩ := Rounds.exists_turn
      (show free.get.toNat - 1 < pool.maxPkid.get.toNat by omega) (pool.cycle.position - 1)
    have reached : (pool.cycle.position - 1 + (turn - (pool.cycle.position - 1))) %
        pool.maxPkid.get.toNat + 1 = free.get.toNat := by
      rw [Nat.add_sub_cancel' later, same]
      omega
    have found := search_isSome unused _ pool.within reached
      ⟨position_pos pool.cycle, pool.position_le⟩ (Nat.sub_lt_left_of_lt_add later short)
    unfold leaseNextPkid at failed
    rw [if_neg room] at failed
    split at failed
    · rename_i missing
      simp [missing] at found
    · cases failed
  · intro full
    simp [leaseNextPkid, full]

/-- A pool with a free identifier has one to lease. -/
theorem exists_lease {pool : PkidPool} {identifier : PacketIdentifier}
    (free : identifier ∉ pool.leased) (inRange : identifier.get.toNat ≤ pool.maxPkid.get.toNat) :
    ∃ found after, pool.leaseNextPkid = some (found, after) := by
  cases next : pool.leaseNextPkid with
  | some outcome => exact ⟨outcome.1, outcome.2, rfl⟩
  | none =>
    have full := pool.leaseNextPkid_eq_none_iff.mp next
    have fresh : (insert identifier pool.leased).card = pool.leased.card + 1 :=
      Finset.card_insert_of_notMem free
    let more : PkidPool :=
      { pool with
        leased := insert identifier pool.leased
        bounded := by
          intro other member
          rcases Finset.mem_insert.mp member with rfl | earlier
          · exact inRange
          · exact pool.bounded other earlier }
    have bound : (insert identifier pool.leased).card ≤ pool.maxPkid.get.toNat := more.card_le
    omega

end PkidPool

end MqttClient.Client
