import MqttClient.Client.Pkid

/-! A pool of identifiers over its whole life: any leases, and releases of any identifiers. -/

namespace MqttClient.Client

open MqttClient.Proto Lib

namespace PkidPool

/-- What the loop of `leaseNextPkid` takes from the cycle. -/
def searched (leased : Finset PacketIdentifier) : Nat → PkidCycle → List PacketIdentifier
  | 0, _ => []
  | fuel + 1, cycle =>
    match cycle.next with
    | none => []
    | some (identifier, after) =>
      if identifier ∈ leased then identifier :: searched leased fuel after else [identifier]

/-- One search: leased identifiers in the order of the cycle, and the first that is free. -/
structure Searched (leased : Finset PacketIdentifier) (bound : PacketIdentifier) (cycle : PkidCycle)
    (skipped : List PacketIdentifier) (identifier : PacketIdentifier) (after : PkidCycle) :
    Prop where
  numbers : ∀ index number, ((skipped ++ [identifier]).map (·.get.toNat))[index]? = some number →
    number = (cycle.position - 1 + index) % bound.get.toNat + 1
  passed : ∀ other ∈ skipped, other ∈ leased
  free : identifier ∉ leased
  position : after.position = (cycle.position + skipped.length) % bound.get.toNat + 1
  loop : ∀ fuel, search leased fuel cycle =
    if skipped.length < fuel then some (identifier, after) else none

theorem searched_spec {leased : Finset PacketIdentifier} {bound : PacketIdentifier} {fuel : Nat}
    {cycle after : PkidCycle} {identifier : PacketIdentifier} (within : cycle.Within bound)
    (positive : 0 < cycle.position) (most : cycle.position ≤ bound.get.toNat)
    (found : search leased fuel cycle = some (identifier, after)) :
    ∃ skipped, searched leased fuel cycle = skipped ++ [identifier] ∧ skipped.length < fuel ∧
      Searched leased bound cycle skipped identifier after := by
  induction fuel generalizing cycle with
  | zero => cases found
  | succ fuel ih =>
    obtain ⟨proposed, next, advanced, number, nextWithin, moved⟩ := PkidCycle.next_eq within
    have here : proposed.get.toNat = (cycle.position - 1) % bound.get.toNat + 1 := by
      rw [number, Nat.mod_eq_of_lt (by omega)]
      omega
    simp only [search, searched, advanced] at found ⊢
    by_cases used : proposed ∈ leased
    · rw [if_pos used] at found ⊢
      have below := Nat.mod_lt cycle.position bound.toNat_pos
      obtain ⟨skipped, taken, short, spec⟩ := ih nextWithin (by omega) (by omega) found
      refine ⟨proposed :: skipped, by rw [taken]; rfl, Nat.succ_lt_succ short, ?_⟩
      constructor
      case numbers =>
        intro index value at_
        cases index with
        | zero =>
          cases at_
          exact here
        | succ index =>
          rw [spec.numbers index value at_, moved, Nat.add_sub_cancel, Nat.mod_add_mod]
          congr 2
          omega
      case passed => exact List.forall_mem_cons.mpr ⟨used, spec.passed⟩
      case free => exact spec.free
      case position =>
        rw [spec.position, moved, List.length_cons]
        congr 1
        rw [Nat.add_assoc, Nat.mod_add_mod]
        congr 1
        omega
      case loop =>
        intro fuel
        cases fuel with
        | zero => rfl
        | succ fuel =>
          simp only [search, advanced, if_pos used, spec.loop fuel, List.length_cons,
            Nat.add_lt_add_iff_right]
    · rw [if_neg used] at found ⊢
      cases found
      refine ⟨[], rfl, Nat.succ_pos _, ?_⟩
      constructor
      case numbers =>
        intro index value at_
        cases index with
        | zero =>
          cases at_
          exact here
        | succ index => simp at at_
      case passed => simp
      case free => exact used
      case position => simpa using moved
      case loop =>
        intro fuel
        cases fuel with
        | zero => rfl
        | succ fuel => simp [search, advanced, used]

/-- The identifiers that the next lease takes from the cycle. -/
def turns (pool : PkidPool) : List PacketIdentifier :=
  searched pool.leased pool.maxPkid.get.toNat pool.cycle

/-- A lease ends within a round, at the first identifier of the cycle that is free. -/
theorem leaseNextPkid_searched {pool after : PkidPool} {identifier : PacketIdentifier}
    (leased : pool.leaseNextPkid = some (identifier, after)) :
    ∃ skipped, pool.turns = skipped ++ [identifier] ∧
      skipped.length < pool.maxPkid.get.toNat ∧
      Searched pool.leased pool.maxPkid pool.cycle skipped identifier after.cycle := by
  obtain ⟨found, _⟩ := leaseNextPkid_found leased
  exact searched_spec pool.within (position_pos pool.cycle) pool.position_le found

/-- A lease fails exactly when every identifier of the range is leased. -/
theorem leaseNextPkid_none_iff_all (pool : PkidPool) :
    pool.leaseNextPkid = none ↔
      ∀ identifier : PacketIdentifier, identifier.get.toNat ≤ pool.maxPkid.get.toNat →
        identifier ∈ pool.leased := by
  constructor
  · intro failed identifier inRange
    by_contra free
    obtain ⟨found, after, leased⟩ := exists_lease free inRange
    rw [leased] at failed
    cases failed
  · intro full
    rw [leaseNextPkid_eq_none_iff]
    by_contra room
    obtain ⟨free, unused, inRange⟩ := exists_free room
    exact unused (full free inRange)

end PkidPool

/-- A call of the pool. -/
inductive PkidCall where
  | lease
  | release (identifier : PacketIdentifier)

/-- What a call was answered with. A lease notes how many identifiers the cycle has produced
by then. -/
inductive PkidEvent where
  | leased (identifier : PacketIdentifier) (turn : Nat)
  | exhausted
  | released (identifier : PacketIdentifier) (held : Bool)
  deriving DecidableEq

/-- A pool, all that its cycle has produced, and the answers it has given. -/
structure PkidHistory where
  pool : PkidPool
  produced : List PacketIdentifier
  events : List PkidEvent

namespace PkidHistory

def new (maxPkid : PacketIdentifier) : PkidHistory := ⟨.new maxPkid, [], []⟩

def call (history : PkidHistory) : PkidCall → PkidHistory
  | .lease =>
    match history.pool.leaseNextPkid with
    | none => { history with events := history.events ++ [.exhausted] }
    | some (identifier, pool) =>
      let produced := history.produced ++ history.pool.turns
      ⟨pool, produced, history.events ++ [.leased identifier produced.length]⟩
  | .release identifier =>
    { history with
      pool := history.pool.releasePkid identifier
      events := history.events ++
        [.released identifier (decide (identifier ∈ history.pool.leased))] }

def run (history : PkidHistory) (calls : List PkidCall) : PkidHistory := calls.foldl call history

/-- The number that the cycle has produced last, if it has produced any. -/
def lastProduced (history : PkidHistory) : Nat :=
  (history.produced.getLast?.map (·.get.toNat)).getD 0

/-- Between two leases of an identifier it was released, and the cycle has come round. -/
def Reused (maxPkid : PacketIdentifier) (history : PkidHistory) : Prop :=
  ∀ before between after identifier first second,
    history.events = before ++ .leased identifier first :: between ++
      .leased identifier second :: after →
    .released identifier true ∈ between ∧
      ∀ other : PacketIdentifier, other.get.toNat ≤ maxPkid.get.toNat →
        other ∈ (history.produced.take second).drop first

/-- The invariant of a pool and its history. -/
structure Cyclic (maxPkid : PacketIdentifier) (history : PkidHistory) : Prop where
  range : history.pool.maxPkid = maxPkid
  rounds : Rounds maxPkid.get.toNat (history.produced.map (·.get.toNat))
  position : history.pool.cycle.position = history.produced.length % maxPkid.get.toNat + 1
  turns : ∀ identifier turn, .leased identifier turn ∈ history.events →
    ∃ index, turn = index + 1 ∧ history.produced[index]? = some identifier
  held : ∀ before after identifier turn, history.events = before ++ .leased identifier turn :: after →
    .released identifier true ∉ after → identifier ∈ history.pool.leased
  reused : Reused maxPkid history

namespace Cyclic

variable {maxPkid : PacketIdentifier} {history : PkidHistory}

theorem new (maxPkid : PacketIdentifier) : Cyclic maxPkid (.new maxPkid) where
  range := rfl
  rounds := .nil
  position := by
    show 1 = 0 % maxPkid.get.toNat + 1
    rw [Nat.zero_mod]
  turns := by simp [PkidHistory.new]
  held := by simp [PkidHistory.new]
  reused := by simp [Reused, PkidHistory.new]

/-- An answer that is no lease, with no identifier given back but the one that it names. -/
private theorem snoc {pool : PkidPool} {event : PkidEvent} (cyclic : Cyclic maxPkid history)
    (range : pool.maxPkid = history.pool.maxPkid) (cycle : pool.cycle = history.pool.cycle)
    (kept : ∀ identifier ∈ history.pool.leased, event ≠ .released identifier true →
      identifier ∈ pool.leased)
    (other : ∀ identifier turn, event ≠ .leased identifier turn) :
    Cyclic maxPkid ⟨pool, history.produced, history.events ++ [event]⟩ := by
  constructor
  case range => exact range.trans cyclic.range
  case rounds => exact cyclic.rounds
  case position =>
    show pool.cycle.position = _
    rw [cycle]
    exact cyclic.position
  case turns =>
    intro identifier turn member
    rcases List.mem_append.mp member with early | last
    · exact cyclic.turns identifier turn early
    · exact absurd (List.mem_singleton.mp last).symm (other identifier turn)
  case held =>
    intro before after identifier turn split unreleased
    rcases snoc_split split with ⟨-, last, -⟩ | ⟨shorter, rfl, early⟩
    · exact absurd last (other identifier turn)
    · rw [List.mem_append, not_or] at unreleased
      refine kept identifier (cyclic.held before shorter identifier turn early unreleased.1) ?_
      intro same
      exact unreleased.2 (List.mem_singleton.mpr same.symm)
  case reused =>
    intro before between after identifier first second split
    rcases snoc_split split with ⟨-, last, -⟩ | ⟨shorter, -, early⟩
    · exact absurd last (other identifier second)
    · exact cyclic.reused before between shorter identifier first second early

/-- What the cycle produces for a lease goes on where it stood. -/
private theorem rounds_lease {skipped : List PacketIdentifier} {identifier : PacketIdentifier}
    {after : PkidCycle} (cyclic : Cyclic maxPkid history)
    (spec : PkidPool.Searched history.pool.leased history.pool.maxPkid history.pool.cycle skipped
      identifier after) :
    Rounds maxPkid.get.toNat
      ((history.produced ++ (skipped ++ [identifier])).map (·.get.toNat)) := by
  rw [List.map_append]
  apply cyclic.rounds.append
  intro index number found
  rw [spec.numbers index number found, cyclic.position, cyclic.range, Nat.add_sub_cancel,
    Nat.mod_add_mod, List.length_map]

/-- A leased identifier was leased before only if it was released since, a whole round ago. -/
private theorem reused_lease {skipped : List PacketIdentifier} {identifier : PacketIdentifier}
    {after : PkidCycle} (cyclic : Cyclic maxPkid history)
    (spec : PkidPool.Searched history.pool.leased history.pool.maxPkid history.pool.cycle skipped
      identifier after)
    {before between : List PkidEvent} {first : Nat}
    (early : history.events = before ++ .leased identifier first :: between) :
    let produced := history.produced ++ (skipped ++ [identifier])
    .released identifier true ∈ between ∧
      ∀ other : PacketIdentifier, other.get.toNat ≤ maxPkid.get.toNat →
        other ∈ (produced.take produced.length).drop first := by
  intro produced
  constructor
  · by_contra unreleased
    exact spec.free (cyclic.held before between identifier first early unreleased)
  · intro other inRange
    have rounds := cyclic.rounds_lease spec
    obtain ⟨index, rfl, found⟩ := cyclic.turns identifier first (by simp [early])
    have inside := (List.getElem?_eq_some_iff.mp found).1
    have size : produced.length = history.produced.length + skipped.length + 1 := by
      simp [produced, Nat.add_assoc]
    have old : (produced.map (·.get.toNat))[index]? = some identifier.get.toNat := by
      rw [List.getElem?_map, List.getElem?_append_left inside, found]
      rfl
    have new : (produced.map (·.get.toNat))[produced.length - 1]? = some identifier.get.toNat := by
      rw [List.getElem?_map, ← List.getLast?_eq_getElem?]
      simp [produced]
    have apart := rounds.apart old new (by omega)
    obtain ⟨turn, low, high, number⟩ := rounds.mem_part other.toNat_pos inRange
      (show index + 1 + maxPkid.get.toNat ≤ produced.length by omega) (by simp [produced])
    rw [List.getElem?_map, Option.map_eq_some_iff] at number
    obtain ⟨same, turned, equal⟩ := number
    obtain rfl := PacketIdentifier.ext_toNat equal
    exact mem_part_of_getElem? low high turned

theorem lease {identifier : PacketIdentifier} {pool : PkidPool} (cyclic : Cyclic maxPkid history)
    (leased : history.pool.leaseNextPkid = some (identifier, pool)) :
    Cyclic maxPkid ⟨pool, history.produced ++ history.pool.turns, history.events ++
      [.leased identifier (history.produced ++ history.pool.turns).length]⟩ := by
  obtain ⟨skipped, turned, -, spec⟩ := PkidPool.leaseNextPkid_searched leased
  have marked := (PkidPool.leaseNextPkid_spec leased).2
  have longer {items : List PacketIdentifier} {index : Nat} {item : PacketIdentifier}
      (found : history.produced[index]? = some item) :
      (history.produced ++ items)[index]? = some item := by
    rw [List.getElem?_append_left (List.getElem?_eq_some_iff.mp found).1]
    exact found
  rw [turned]
  constructor
  case range => exact (PkidPool.leaseNextPkid_maxPkid leased).trans cyclic.range
  case rounds => exact cyclic.rounds_lease spec
  case position =>
    show pool.cycle.position = _
    rw [spec.position, cyclic.position, cyclic.range, Nat.add_assoc, Nat.mod_add_mod]
    congr 2
    simp only [List.length_append, List.length_singleton]
    omega
  case turns =>
    intro other turn member
    rcases List.mem_append.mp member with early | last
    · obtain ⟨index, same, found⟩ := cyclic.turns other turn early
      exact ⟨index, same, longer found⟩
    · cases List.mem_singleton.mp last
      refine ⟨(history.produced ++ skipped).length, by simp [Nat.add_assoc], ?_⟩
      simp [← List.append_assoc]
  case held =>
    intro before after other turn split unreleased
    show other ∈ pool.leased
    rw [marked, Finset.mem_insert]
    rcases snoc_split split with ⟨-, last, -⟩ | ⟨shorter, rfl, early⟩
    · cases last
      exact .inl rfl
    · rw [List.mem_append, not_or] at unreleased
      exact .inr (cyclic.held before shorter other turn early unreleased.1)
  case reused =>
    intro before between after other first second split
    rcases snoc_split split with ⟨early, last, -⟩ | ⟨shorter, -, early⟩
    · cases last
      exact cyclic.reused_lease spec early
    · obtain ⟨index, rfl, found⟩ := cyclic.turns other second (by simp [early])
      have inside := (List.getElem?_eq_some_iff.mp found).1
      obtain ⟨released, round⟩ := cyclic.reused before between shorter other first _ early
      refine ⟨released, ?_⟩
      rw [List.take_append_of_le_length (Nat.succ_le_of_lt inside)]
      exact round

theorem call (cyclic : Cyclic maxPkid history) (call : PkidCall) :
    Cyclic maxPkid (history.call call) := by
  cases call with
  | lease =>
    rw [PkidHistory.call]
    cases next : history.pool.leaseNextPkid with
    | none => exact cyclic.snoc rfl rfl (fun _ member _ => member) (by simp)
    | some outcome => exact cyclic.lease next
  | release identifier =>
    refine cyclic.snoc rfl rfl ?_ (by simp)
    intro other member different
    rw [PkidPool.leased_releasePkid, Finset.mem_erase]
    refine ⟨?_, member⟩
    rintro rfl
    simp [member] at different

theorem run (cyclic : Cyclic maxPkid history) (calls : List PkidCall) :
    Cyclic maxPkid (history.run calls) := by
  induction calls generalizing history with
  | nil => exact cyclic
  | cons call calls ih => exact ih (cyclic.call call)

/-- The cycle goes on behind what it has produced last. -/
private theorem lastProduced_add (cyclic : Cyclic maxPkid history) (index : Nat) :
    (history.lastProduced + index) % maxPkid.get.toNat =
      (history.produced.length + index) % maxPkid.get.toNat := by
  rw [PkidHistory.lastProduced]
  rcases List.eq_nil_or_concat history.produced with none | ⟨front, last, split⟩
  · rw [none]
    rfl
  · rw [List.concat_eq_append] at split
    have number := cyclic.rounds front.length last.get.toNat (by simp [split])
    rw [split, List.getLast?_concat, Option.map_some, Option.getD_some, number, Nat.add_assoc,
      Nat.mod_add_mod, List.length_append, List.length_singleton, Nat.add_assoc]

/-- A lease takes the first free number behind the last that was produced. -/
theorem first_free {identifier : PacketIdentifier} {next : PkidPool}
    (cyclic : Cyclic maxPkid history)
    (leased : history.pool.leaseNextPkid = some (identifier, next)) :
    ∃ skipped, history.pool.turns = skipped ++ [identifier] ∧
      (skipped ++ [identifier]).map (·.get.toNat) = (List.range (skipped.length + 1)).map
        (fun index => (history.lastProduced + index) % maxPkid.get.toNat + 1) ∧
      (∀ other ∈ skipped, other ∈ history.pool.leased) ∧ identifier ∉ history.pool.leased ∧
      skipped.length + 1 ≤ maxPkid.get.toNat ∧
      ∀ fuel, PkidPool.search history.pool.leased fuel history.pool.cycle =
        if skipped.length < fuel then some (identifier, next.cycle) else none := by
  obtain ⟨skipped, turned, short, spec⟩ := PkidPool.leaseNextPkid_searched leased
  refine ⟨skipped, turned, ?_, spec.passed, spec.free, cyclic.range ▸ short, spec.loop⟩
  apply List.ext_getElem?
  intro index
  by_cases inside : index < (skipped ++ [identifier]).length
  · have found : ((skipped ++ [identifier]).map (·.get.toNat))[index]? = some _ :=
      List.getElem?_eq_getElem (by simpa using inside)
    have number := spec.numbers index _ found
    rw [cyclic.position, cyclic.range, Nat.add_sub_cancel, Nat.mod_add_mod,
      ← cyclic.lastProduced_add] at number
    rw [found, number, List.getElem?_map, List.getElem?_range (by simpa using inside)]
    rfl
  · rw [List.getElem?_eq_none (by simpa using inside), List.getElem?_eq_none (by simpa using inside)]

end Cyclic

end PkidHistory

/-- Over any leases and any releases: the leased identifiers are in the range; a lease fails
exactly when all of the range is leased, and then changes nothing; any other takes the first
free identifier behind the last that the cycle has produced, within one round; a release makes
just its identifier free; and no identifier is leased again before it is released and the cycle
has come round. -/
theorem pkidPool_cyclic (maxPkid : PacketIdentifier) (calls : List PkidCall) :
    let history := (PkidHistory.new maxPkid).run calls
    (∀ identifier ∈ history.pool.leased,
      1 ≤ identifier.get.toNat ∧ identifier.get.toNat ≤ maxPkid.get.toNat) ∧
    (history.pool.leaseNextPkid = none ↔
      ∀ identifier : PacketIdentifier, identifier.get.toNat ≤ maxPkid.get.toNat →
        identifier ∈ history.pool.leased) ∧
    (history.pool.leaseNextPkid = none →
      history.call .lease = { history with events := history.events ++ [.exhausted] }) ∧
    (∀ identifier next, history.pool.leaseNextPkid = some (identifier, next) →
      next.leased = insert identifier history.pool.leased ∧
      ∃ skipped, history.pool.turns = skipped ++ [identifier] ∧
        (skipped ++ [identifier]).map (·.get.toNat) = (List.range (skipped.length + 1)).map
          (fun index => (history.lastProduced + index) % maxPkid.get.toNat + 1) ∧
        (∀ other ∈ skipped, other ∈ history.pool.leased) ∧ identifier ∉ history.pool.leased ∧
        skipped.length + 1 ≤ maxPkid.get.toNat ∧
        ∀ fuel, PkidPool.search history.pool.leased fuel history.pool.cycle =
          if skipped.length < fuel then some (identifier, next.cycle) else none) ∧
    (∀ identifier,
      (history.pool.releasePkid identifier).leased = history.pool.leased.erase identifier) ∧
    PkidHistory.Reused maxPkid history := by
  intro history
  have cyclic : PkidHistory.Cyclic maxPkid history := (PkidHistory.Cyclic.new maxPkid).run calls
  refine ⟨?_, ?_, ?_, ?_, history.pool.leased_releasePkid, cyclic.reused⟩
  · intro identifier member
    exact ⟨identifier.toNat_pos, cyclic.range ▸ history.pool.bounded identifier member⟩
  · rw [history.pool.leaseNextPkid_none_iff_all, cyclic.range]
  · intro full
    rw [PkidHistory.call, full]
  · intro identifier next leased
    exact ⟨(PkidPool.leaseNextPkid_spec leased).2, cyclic.first_free leased⟩

end MqttClient.Client
