import MqttClient.Lib.Chunks
import MqttClient.Proto.Primitive

/-! The accumulators that hold encoded packets until the writer has sent them. -/

namespace MqttClient.Io

open Lib Proto

/-- A buffer: a filled region, and the unfilled region behind it. -/
class Owned (O : Type) where
  filled : O → Bytes
  unfilledLen : O → Nat
  /-- The buffer with its unfilled region ready to be written to, for which it may grow. -/
  unfilledMut : O → O
  /-- Write to the start of the unfilled region and move that into the filled region. -/
  fill : O → Bytes → O
  /-- Remove bytes from the start of the filled region. -/
  drain : O → Nat → O
  /-- The range `0..i` and the range `i..` -/
  splitTo : O → Nat → O × O
  reserve : O → Nat → Option O

/-- A buffer that does what its operations promise. -/
class LawfulOwned (O : Type) extends Owned O where
  filled_unfilledMut : ∀ owned, filled (unfilledMut owned) = filled owned
  unfilledLen_unfilledMut : ∀ owned, unfilledLen owned ≤ unfilledLen (unfilledMut owned)
  filled_fill : ∀ owned src, src.length ≤ unfilledLen owned →
    filled (fill owned src) = filled owned ++ src
  unfilledLen_fill : ∀ owned src, src.length ≤ unfilledLen owned →
    unfilledLen (fill owned src) = unfilledLen owned - src.length
  filled_drain : ∀ owned n, n ≤ (filled owned).length →
    filled (drain owned n) = (filled owned).drop n
  filled_splitTo : ∀ owned i, i ≤ (filled owned).length →
    filled (splitTo owned i).1 = (filled owned).take i ∧
      filled (splitTo owned i).2 = (filled owned).drop i
  unfilledLen_splitTo : ∀ owned i, i ≤ (filled owned).length →
    unfilledLen (splitTo owned i).2 = unfilledLen owned
  filled_reserve : ∀ owned additional next, reserve owned additional = some next →
    filled next = filled owned ∧ additional ≤ unfilledLen next

/-- A buffer of the heap. Its room is known, its address is not. -/
structure BytesMut where
  filled : Bytes := []
  unfilledLen : Nat := 0
  deriving DecidableEq, Repr

namespace BytesMut

/-- The unfilled region is never empty when it is asked for. -/
def chunkMut (buffer : BytesMut) : BytesMut :=
  if buffer.unfilledLen = 0 then { buffer with unfilledLen := 64 } else buffer

instance : LawfulOwned BytesMut where
  filled := filled
  unfilledLen := unfilledLen
  unfilledMut := chunkMut
  fill buffer src := ⟨buffer.filled ++ src, buffer.unfilledLen - src.length⟩
  drain buffer n := { buffer with filled := buffer.filled.drop n }
  splitTo buffer i :=
    (⟨buffer.filled.take i, i - buffer.filled.length⟩,
      ⟨buffer.filled.drop i, buffer.unfilledLen - (i - buffer.filled.length)⟩)
  reserve buffer additional :=
    some { buffer with unfilledLen := max buffer.unfilledLen additional }
  filled_unfilledMut buffer := by
    unfold chunkMut
    split <;> rfl
  unfilledLen_unfilledMut buffer := by
    unfold chunkMut
    split <;> simp_all
  filled_fill _ _ _ := rfl
  unfilledLen_fill _ _ _ := rfl
  filled_drain _ _ _ := rfl
  filled_splitTo _ _ _ := ⟨rfl, rfl⟩
  unfilledLen_splitTo buffer i inside := by simp [Nat.sub_eq_zero_of_le inside]
  filled_reserve buffer additional next reserved := by
    cases reserved
    exact ⟨rfl, Nat.le_max_right _ _⟩

end BytesMut

/-- What an accumulator offers for writing. -/
structure Iovecs where
  slices : List Bytes
  totalLen : Nat

def Iovecs.numIovecs (iovecs : Iovecs) : Nat := iovecs.slices.length

/-- The side of an accumulator that the writer drains. An operation without a result has
failed an assertion. -/
class BytesAccumulator (A : Type) extends Accumulator A UInt8 where
  canAcceptMore : A → Bool
  reserve : A → Nat → Option A
  toIovecs : A → Nat → Option Iovecs
  drain : A → Nat → Option A

/-- An accumulator that gives back what was put into it. It is settled when all of that is
committed. -/
class LawfulBytesAccumulator (A : Type) extends LawfulAccumulator A UInt8, BytesAccumulator A where
  Settled : A → Prop
  putDone_settled : ∀ dst room, HasRoom dst room → Settled (putDone dst)
  reserve_ok : ∀ dst additional next, Settled dst → reserve dst additional = some next →
    HasRoom next additional ∧ contents next = contents dst
  toIovecs_ok : ∀ dst limit, Settled dst → 0 < limit → ∃ iovecs,
    toIovecs dst limit = some iovecs ∧ iovecs.totalLen = iovecs.slices.flatten.length ∧
      Chunks.Filled iovecs.slices ∧ iovecs.slices.flatten <+: contents dst ∧
      (iovecs.slices = [] → contents dst = [])
  canAcceptMore_ok : ∀ dst, Settled dst → contents dst = [] → canAcceptMore dst = true
  drain_ok : ∀ dst n, Settled dst → n ≤ (contents dst).length → ∃ next,
    drain dst n = some next ∧ Settled next ∧ contents next = (contents dst).drop n

structure IovecsAccumulator (O : Type) where
  owned : O
  chunks : List Bytes := []
  totalSize : Nat := 0

namespace IovecsAccumulator

variable {O : Type}

def new (owned : O) : IovecsAccumulator O := { owned }

section

variable [Owned O]

def canAcceptMore (acc : IovecsAccumulator O) : Bool := acc.chunks.length < 128 - 10

def reserve (acc : IovecsAccumulator O) (additional : Nat) : Option (IovecsAccumulator O) := do
  return { acc with owned := ← Owned.reserve acc.owned additional }

def putDone (acc : IovecsAccumulator O) : IovecsAccumulator O :=
  if Owned.filled acc.owned = [] then acc
  else
    let (split, owned) := Owned.splitTo acc.owned (Owned.filled acc.owned).length
    let shared := Owned.filled split
    { owned, chunks := acc.chunks ++ [shared], totalSize := acc.totalSize + shared.length }

/-- An empty buffer would become an empty slice, whose write looks like an end of file. -/
def putShared (acc : IovecsAccumulator O) (src : Bytes) : IovecsAccumulator O :=
  if src = [] then acc
  else
    let acc := acc.putDone
    { acc with totalSize := acc.totalSize + src.length, chunks := acc.chunks ++ [src] }

def tryPutSlice (acc : IovecsAccumulator O) (src : Bytes) : Option (IovecsAccumulator O) :=
  let dst := Owned.unfilledMut acc.owned
  if src.length ≤ Owned.unfilledLen dst then some { acc with owned := Owned.fill dst src }
  else none

def toIovecs (acc : IovecsAccumulator O) (limit : Nat) : Option Iovecs :=
  if Owned.filled acc.owned = [] then
    let slices := acc.chunks.take limit
    some ⟨slices, (slices.map List.length).sum⟩
  else none

/-- The loop over the chunks, with the total of those that are left. -/
def drainSlow : List Bytes → Nat → Nat → Option (List Bytes × Nat)
  | [], totalSize, n => if n = 0 then some ([], totalSize) else none
  | chunk :: rest, totalSize, n =>
    if totalSize < chunk.length then none
    else
      let totalSize := totalSize - chunk.length
      if chunk.length ≤ n then drainSlow rest totalSize (n - chunk.length)
      else
        let chunk := chunk.drop n
        some (chunk :: rest, totalSize + chunk.length)

def drain (acc : IovecsAccumulator O) (n : Nat) : Option (IovecsAccumulator O) :=
  if acc.totalSize = n then some { acc with totalSize := 0, chunks := [] }
  else do
    let (chunks, totalSize) ← drainSlow acc.chunks acc.totalSize n
    return { acc with chunks, totalSize }

instance : BytesAccumulator (IovecsAccumulator O) where
  tryPutSlice := tryPutSlice
  putShared := putShared
  putDone := putDone
  canAcceptMore := canAcceptMore
  reserve := reserve
  toIovecs := toIovecs
  drain := drain

end

/-- The total is that of the chunks, none of which is empty. -/
structure Valid (acc : IovecsAccumulator O) : Prop where
  total : acc.totalSize = acc.chunks.flatten.length
  filled : Chunks.Filled acc.chunks

section

variable [LawfulOwned O]

def contents (acc : IovecsAccumulator O) : Bytes := acc.chunks.flatten ++ Owned.filled acc.owned

theorem filled_splitTo (owned : O) :
    Owned.filled (Owned.splitTo owned (Owned.filled owned).length).1 = Owned.filled owned ∧
      Owned.filled (Owned.splitTo owned (Owned.filled owned).length).2 = [] := by
  obtain ⟨front, back⟩ := LawfulOwned.filled_splitTo owned _ (Nat.le_refl _)
  exact ⟨by rw [front, List.take_length], by rw [back, List.drop_length]⟩

theorem valid_putDone {acc : IovecsAccumulator O} (valid : acc.Valid) : acc.putDone.Valid := by
  unfold putDone
  split
  · exact valid
  · rename_i present
    have split := (filled_splitTo acc.owned).1
    constructor
    · simp [valid.total]
    · exact valid.filled.snoc (by rw [split]; exact present)

theorem contents_putDone (acc : IovecsAccumulator O) : acc.putDone.contents = acc.contents := by
  unfold putDone contents
  split
  · rfl
  · obtain ⟨split, rest⟩ := filled_splitTo acc.owned
    simp [split, rest]

theorem filled_putDone (acc : IovecsAccumulator O) : Owned.filled acc.putDone.owned = [] := by
  unfold putDone
  split
  · assumption
  · exact (filled_splitTo acc.owned).2

theorem unfilledLen_putDone (acc : IovecsAccumulator O) :
    Owned.unfilledLen acc.putDone.owned = Owned.unfilledLen acc.owned := by
  unfold putDone
  split
  · rfl
  · exact LawfulOwned.unfilledLen_splitTo acc.owned _ (Nat.le_refl _)

theorem valid_putShared {acc : IovecsAccumulator O} (valid : acc.Valid) (src : Bytes) :
    (acc.putShared src).Valid := by
  unfold putShared
  split
  · exact valid
  · rename_i present
    have done := valid_putDone valid
    constructor
    · simp [done.total]
    · exact done.filled.snoc present

theorem contents_putShared (acc : IovecsAccumulator O) (src : Bytes) :
    (acc.putShared src).contents = acc.contents ++ src := by
  unfold putShared
  split
  · simp_all
  · rw [← contents_putDone acc]
    simp [contents, filled_putDone]

theorem unfilledLen_putShared (acc : IovecsAccumulator O) (src : Bytes) :
    Owned.unfilledLen (acc.putShared src).owned = Owned.unfilledLen acc.owned := by
  unfold putShared
  split
  · rfl
  · exact unfilledLen_putDone acc

theorem tryPutSlice_ok (acc : IovecsAccumulator O) (src : Bytes)
    (room : src.length ≤ Owned.unfilledLen acc.owned) : ∃ next,
    acc.tryPutSlice src = some next ∧ next.contents = acc.contents ++ src ∧
      Owned.unfilledLen acc.owned - src.length ≤ Owned.unfilledLen next.owned ∧
      next.chunks = acc.chunks ∧ next.totalSize = acc.totalSize := by
  have grown := LawfulOwned.unfilledLen_unfilledMut acc.owned
  have fits : src.length ≤ Owned.unfilledLen (Owned.unfilledMut acc.owned) := by omega
  refine ⟨_, if_pos fits, ?_, ?_, rfl, rfl⟩
  · simp [contents, LawfulOwned.filled_fill _ _ fits, LawfulOwned.filled_unfilledMut]
  · have left := LawfulOwned.unfilledLen_fill _ _ fits
    dsimp only
    omega

omit [LawfulOwned O] in
/-- The slow path is the advance of the chunks, with their total kept. -/
theorem drainSlow_advance {chunks rest : List Bytes} {n : Nat}
    (advanced : Chunks.advance chunks n = some rest) :
    drainSlow chunks chunks.flatten.length n = some (rest, rest.flatten.length) := by
  induction chunks generalizing n with
  | nil =>
    simp only [Chunks.advance, Option.ite_none_right_eq_some, Option.some.injEq] at advanced
    simp [drainSlow, advanced.1, ← advanced.2]
  | cons chunk others ih =>
    have covered : ¬ (chunk :: others).flatten.length < chunk.length := by simp
    have left : (chunk :: others).flatten.length - chunk.length = others.flatten.length := by simp
    simp only [drainSlow, covered, if_false, left]
    by_cases whole : chunk.length ≤ n
    · simp only [Chunks.advance, whole, if_true] at advanced ⊢
      exact ih advanced
    · simp only [Chunks.advance, whole, if_false, Option.some.injEq] at advanced ⊢
      simp [← advanced, Nat.add_comm]

omit [LawfulOwned O] in
theorem drain_valid {acc : IovecsAccumulator O} (valid : acc.Valid) {n : Nat}
    (enough : n ≤ acc.chunks.flatten.length) : ∃ next,
    acc.drain n = some next ∧ next.Valid ∧ next.owned = acc.owned ∧
      next.chunks.flatten = acc.chunks.flatten.drop n := by
  by_cases all : acc.totalSize = n
  · refine ⟨{ acc with totalSize := 0, chunks := [] }, if_pos all, ⟨rfl, .nil⟩, rfl, ?_⟩
    rw [← all, valid.total]
    simp
  · obtain ⟨rest, advanced, held⟩ := Chunks.advance_ok acc.chunks n enough
    refine ⟨{ acc with chunks := rest, totalSize := rest.flatten.length }, ?_,
      ⟨rfl, valid.filled.advance advanced⟩, rfl, held⟩
    have slow : drainSlow acc.chunks acc.totalSize n = some (rest, rest.flatten.length) := by
      rw [valid.total]
      exact drainSlow_advance advanced
    simp [drain, all, slow]

instance : LawfulBytesAccumulator (IovecsAccumulator O) where
  contents := contents
  HasRoom acc room := acc.Valid ∧ room ≤ Owned.unfilledLen acc.owned
  Settled acc := acc.Valid ∧ Owned.filled acc.owned = []
  putSlice_ok acc room items := by
    rintro ⟨valid, covered⟩ fits
    obtain ⟨next, put, held, left, chunks, total⟩ :=
      tryPutSlice_ok acc items (Nat.le_trans fits covered)
    refine ⟨next, put, held, ⟨?_, ?_⟩, by omega⟩
    · rw [total, chunks]
      exact valid.total
    · rw [chunks]
      exact valid.filled
  putShared_ok acc room items := by
    rintro ⟨valid, covered⟩
    refine ⟨contents_putShared acc items, valid_putShared valid items, ?_⟩
    exact Nat.le_trans covered (Nat.le_of_eq (unfilledLen_putShared acc items).symm)
  putDone_ok acc room := by
    rintro ⟨valid, covered⟩
    refine ⟨contents_putDone acc, valid_putDone valid, ?_⟩
    exact Nat.le_trans covered (Nat.le_of_eq (unfilledLen_putDone acc).symm)
  putDone_settled acc room := by
    rintro ⟨valid, _⟩
    exact ⟨valid_putDone valid, filled_putDone acc⟩
  reserve_ok acc additional next := by
    rintro ⟨valid, _⟩ reserved
    obtain ⟨owned, grown, same⟩ := Option.bind_eq_some_iff.mp reserved
    cases same
    obtain ⟨same, room⟩ := LawfulOwned.filled_reserve _ _ _ grown
    exact ⟨⟨⟨valid.total, valid.filled⟩, room⟩, by simp [contents, same]⟩
  toIovecs_ok acc limit := by
    rintro ⟨valid, committed⟩ positive
    refine ⟨_, if_pos committed, by simp, valid.filled.take limit, ?_, ?_⟩
    · simp only [contents, committed, List.append_nil]
      exact ⟨(acc.chunks.drop limit).flatten, by
        rw [← List.flatten_append, List.take_append_drop]⟩
    · intro nothing
      have none : acc.chunks = [] := by
        rcases List.take_eq_nil_iff.mp nothing with zero | none
        · omega
        · exact none
      simp [contents, committed, none]
  canAcceptMore_ok acc := by
    rintro ⟨valid, _⟩ nothing
    have none : acc.chunks = [] := valid.filled.eq_nil (List.append_eq_nil_iff.mp nothing).1
    exact decide_eq_true (by rw [none]; decide)
  drain_ok acc n := by
    rintro ⟨valid, committed⟩ enough
    simp only [contents, committed, List.append_nil] at enough ⊢
    obtain ⟨next, drained, kept, owned, held⟩ := drain_valid valid enough
    exact ⟨next, drained, ⟨kept, by rw [owned]; exact committed⟩, by
      rw [owned, committed, List.append_nil]; exact held⟩

end

end IovecsAccumulator

/-- An accumulator of one buffer, which grows as needed. -/
structure SingleAccumulator where
  buffer : Bytes := []

namespace SingleAccumulator

def new : SingleAccumulator := {}

def toIovecs (acc : SingleAccumulator) (limit : Nat) : Iovecs :=
  if limit = 0 then ⟨[], 0⟩
  else if acc.buffer = [] then ⟨[], 0⟩
  else ⟨[acc.buffer], acc.buffer.length⟩

instance : BytesAccumulator SingleAccumulator where
  tryPutSlice acc src := some ⟨acc.buffer ++ src⟩
  putShared acc src := ⟨acc.buffer ++ src⟩
  putDone acc := acc
  canAcceptMore _ := true
  reserve acc _ := some acc
  toIovecs acc limit := some (acc.toIovecs limit)
  drain acc n := if n ≤ acc.buffer.length then some ⟨acc.buffer.drop n⟩ else none

instance : LawfulBytesAccumulator SingleAccumulator where
  contents := buffer
  HasRoom _ _ := True
  Settled _ := True
  putSlice_ok acc _ items _ _ := ⟨⟨acc.buffer ++ items⟩, rfl, rfl, trivial⟩
  putShared_ok _ _ _ _ := ⟨rfl, trivial⟩
  putDone_ok _ _ _ := ⟨rfl, trivial⟩
  putDone_settled _ _ _ := trivial
  reserve_ok acc additional next _ reserved := by
    cases reserved
    exact ⟨trivial, rfl⟩
  toIovecs_ok acc limit _ positive := by
    refine ⟨acc.toIovecs limit, rfl, ?_⟩
    have some : limit ≠ 0 := Nat.ne_of_gt positive
    by_cases nothing : acc.buffer = []
    · simp [toIovecs, some, nothing, Chunks.Filled.nil]
    · simp [toIovecs, some, nothing, Chunks.Filled]
  canAcceptMore_ok _ _ _ := rfl
  drain_ok acc n _ enough := ⟨⟨acc.buffer.drop n⟩, if_pos enough, trivial, rfl⟩

end SingleAccumulator

inductive EitherAccumulator (O : Type) where
  | iovecs (ba : IovecsAccumulator O)
  | single (ba : SingleAccumulator)

namespace EitherAccumulator

variable {O : Type}

instance [Owned O] : BytesAccumulator (EitherAccumulator O) where
  tryPutSlice
    | .iovecs ba, src => (Accumulator.tryPutSlice ba src).map .iovecs
    | .single ba, src => (Accumulator.tryPutSlice ba src).map .single
  putShared
    | .iovecs ba, src => .iovecs (Accumulator.putShared ba src)
    | .single ba, src => .single (Accumulator.putShared ba src)
  putDone
    | .iovecs ba => .iovecs (Accumulator.putDone ba)
    | .single ba => .single (Accumulator.putDone ba)
  canAcceptMore
    | .iovecs ba => BytesAccumulator.canAcceptMore ba
    | .single ba => BytesAccumulator.canAcceptMore ba
  reserve
    | .iovecs ba, additional => (BytesAccumulator.reserve ba additional).map .iovecs
    | .single ba, additional => (BytesAccumulator.reserve ba additional).map .single
  toIovecs
    | .iovecs ba, limit => BytesAccumulator.toIovecs ba limit
    | .single ba, limit => BytesAccumulator.toIovecs ba limit
  drain
    | .iovecs ba, n => (BytesAccumulator.drain ba n).map .iovecs
    | .single ba, n => (BytesAccumulator.drain ba n).map .single

instance [LawfulOwned O] : LawfulBytesAccumulator (EitherAccumulator O) where
  contents
    | .iovecs ba => LawfulAccumulator.contents ba
    | .single ba => LawfulAccumulator.contents ba
  HasRoom
    | .iovecs ba, room => LawfulAccumulator.HasRoom ba room
    | .single ba, room => LawfulAccumulator.HasRoom ba room
  Settled
    | .iovecs ba => LawfulBytesAccumulator.Settled ba
    | .single ba => LawfulBytesAccumulator.Settled ba
  putSlice_ok acc room items covered fits := by
    cases acc with
    | iovecs ba =>
      obtain ⟨next, put, holds⟩ := LawfulAccumulator.putSlice_ok ba room items covered fits
      exact ⟨.iovecs next, congrArg (Option.map _) put, holds⟩
    | single ba =>
      obtain ⟨next, put, holds⟩ := LawfulAccumulator.putSlice_ok ba room items covered fits
      exact ⟨.single next, congrArg (Option.map _) put, holds⟩
  putShared_ok acc room items covered := by
    cases acc with
    | iovecs ba => exact LawfulAccumulator.putShared_ok ba room items covered
    | single ba => exact LawfulAccumulator.putShared_ok ba room items covered
  putDone_ok acc room covered := by
    cases acc with
    | iovecs ba => exact LawfulAccumulator.putDone_ok ba room covered
    | single ba => exact LawfulAccumulator.putDone_ok ba room covered
  putDone_settled acc room covered := by
    cases acc with
    | iovecs ba => exact LawfulBytesAccumulator.putDone_settled ba room covered
    | single ba => exact LawfulBytesAccumulator.putDone_settled ba room covered
  reserve_ok acc additional next settled reserved := by
    cases acc with
    | iovecs ba =>
      obtain ⟨grown, found, rfl⟩ := Option.map_eq_some_iff.mp reserved
      exact LawfulBytesAccumulator.reserve_ok ba additional grown settled found
    | single ba =>
      obtain ⟨grown, found, rfl⟩ := Option.map_eq_some_iff.mp reserved
      exact LawfulBytesAccumulator.reserve_ok ba additional grown settled found
  toIovecs_ok acc limit settled positive := by
    cases acc with
    | iovecs ba => exact LawfulBytesAccumulator.toIovecs_ok ba limit settled positive
    | single ba => exact LawfulBytesAccumulator.toIovecs_ok ba limit settled positive
  canAcceptMore_ok acc settled nothing := by
    cases acc with
    | iovecs ba => exact LawfulBytesAccumulator.canAcceptMore_ok ba settled nothing
    | single ba => exact LawfulBytesAccumulator.canAcceptMore_ok ba settled nothing
  drain_ok acc n settled enough := by
    cases acc with
    | iovecs ba =>
      obtain ⟨next, drained, holds⟩ := LawfulBytesAccumulator.drain_ok ba n settled enough
      exact ⟨.iovecs next, congrArg (Option.map _) drained, holds⟩
    | single ba =>
      obtain ⟨next, drained, holds⟩ := LawfulBytesAccumulator.drain_ok ba n settled enough
      exact ⟨.single next, congrArg (Option.map _) drained, holds⟩

end EitherAccumulator

end MqttClient.Io
