import Mathlib.Algebra.GroupWithZero.Nat
import Mathlib.Data.List.Basic

/-! Encoders as the sequence of what they do to an accumulator. An accumulator can only
refuse a slice for want of room, so an encoder is the list of its puts, up to the fault
that ends it. -/

namespace MqttClient.Lib

/-- One step of an encoder. A refused slice ends it with the fault `full`. -/
inductive Put (σ ε : Type) where
  | slice (items : List σ) (full : ε)
  | shared (items : List σ)
  | done
  | fail (fault : ε)

namespace Put

variable {σ ε : Type}

def items : Put σ ε → List σ
  | .slice items _ => items
  | .shared items => items
  | .done | .fail _ => []

/-- The room a put needs. -/
def room : Put σ ε → Nat
  | .slice items _ => items.length
  | _ => 0

def mapError (f : ε → ε) : Put σ ε → Put σ ε
  | .slice items full => .slice items (f full)
  | .shared items => .shared items
  | .done => .done
  | .fail fault => .fail (f fault)

/-- The fault that a put can end with. -/
def fault? : Put σ ε → Option ε
  | .slice _ full => some full
  | .fail fault => some fault
  | .shared _ | .done => none

@[simp] theorem items_mapError (f : ε → ε) (put : Put σ ε) : (put.mapError f).items = put.items := by
  cases put <;> rfl

end Put

/-- The steps of an encoder in order. Those after a fault are not taken. -/
structure Encoder (σ ε : Type) where
  puts : List (Put σ ε)

/-- A destination of puts. -/
class Accumulator (A : Type) (σ : outParam Type) where
  tryPutSlice : A → List σ → Option A
  putShared : A → List σ → A
  putDone : A → A

/-- An accumulator that holds what was put, in order, and accepts slices while it has
room for them. -/
class LawfulAccumulator (A : Type) (σ : outParam Type) extends Accumulator A σ where
  contents : A → List σ
  HasRoom : A → Nat → Prop
  putSlice_ok : ∀ dst room items, HasRoom dst room → items.length ≤ room →
    ∃ next, tryPutSlice dst items = some next ∧ contents next = contents dst ++ items ∧
      HasRoom next (room - items.length)
  putShared_ok : ∀ dst room items, HasRoom dst room →
    contents (putShared dst items) = contents dst ++ items ∧ HasRoom (putShared dst items) room
  putDone_ok : ∀ dst room, HasRoom dst room →
    contents (putDone dst) = contents dst ∧ HasRoom (putDone dst) room

namespace Encoder

variable {σ ε : Type}

def skip : Encoder σ ε := ⟨[]⟩

def fail (fault : ε) : Encoder σ ε := ⟨[.fail fault]⟩

def put (put : Put σ ε) : Encoder σ ε := ⟨[put]⟩

instance : Append (Encoder σ ε) := ⟨fun first last => ⟨first.puts ++ last.puts⟩⟩

def mapError (f : ε → ε) (encoder : Encoder σ ε) : Encoder σ ε :=
  ⟨encoder.puts.map (Put.mapError f)⟩

/-- One encoder for each item of a list. -/
def forEach {α : Type} (items : List α) (encode : α → Encoder σ ε) : Encoder σ ε :=
  ⟨items.flatMap fun item => (encode item).puts⟩

def runPut {A : Type} [Accumulator A σ] (dst : A) : Put σ ε → Except ε A
  | .slice items full =>
    match Accumulator.tryPutSlice dst items with
    | some next => .ok next
    | none => .error full
  | .shared items => .ok (Accumulator.putShared dst items)
  | .done => .ok (Accumulator.putDone dst)
  | .fail fault => .error fault

def run {A : Type} [Accumulator A σ] (encoder : Encoder σ ε) (dst : A) : Except ε A :=
  encoder.puts.foldlM runPut dst

/-- All that is put, were it not for faults. -/
def items (encoder : Encoder σ ε) : List σ := encoder.puts.flatMap Put.items

/-- The number of symbols put. -/
def size (encoder : Encoder σ ε) : Nat := encoder.items.length

/-- The room all slices need. -/
def room (encoder : Encoder σ ε) : Nat := (encoder.puts.map Put.room).sum

/-- No step is a fault. -/
def Succeeds (encoder : Encoder σ ε) : Prop := ∀ fault, Put.fail fault ∉ encoder.puts

/-- The encoder succeeds, given room, and puts exactly `code`. -/
def Emits (encoder : Encoder σ ε) (code : List σ) : Prop :=
  encoder.Succeeds ∧ encoder.items = code

theorem append_def (first last : Encoder σ ε) : first ++ last = ⟨first.puts ++ last.puts⟩ := rfl

theorem append_assoc (first middle last : Encoder σ ε) :
    first ++ middle ++ last = first ++ (middle ++ last) := by
  simp [append_def]

@[simp] theorem skip_append (encoder : Encoder σ ε) : skip ++ encoder = encoder := rfl

@[simp] theorem append_skip (encoder : Encoder σ ε) : encoder ++ skip = encoder := by
  simp [append_def, skip]

@[simp] theorem forEach_nil {α : Type} (encode : α → Encoder σ ε) : forEach [] encode = skip :=
  rfl

@[simp] theorem forEach_cons {α : Type} (head : α) (tail : List α) (encode : α → Encoder σ ε) :
    forEach (head :: tail) encode = encode head ++ forEach tail encode :=
  rfl

theorem forEach_append {α : Type} (front back : List α) (encode : α → Encoder σ ε) :
    forEach (front ++ back) encode = forEach front encode ++ forEach back encode := by
  simp [forEach, append_def]

theorem forEach_flatMap {α β : Type} (values : List α) (parts : α → List β)
    (encode : β → Encoder σ ε) :
    forEach (values.flatMap parts) encode = forEach values fun value => forEach (parts value) encode := by
  simp [forEach, List.flatMap_assoc]

@[simp] theorem size_skip : (skip : Encoder σ ε).size = 0 := rfl

@[simp] theorem size_fail (fault : ε) : (fail fault : Encoder σ ε).size = 0 := rfl

@[simp] theorem size_append (first last : Encoder σ ε) :
    (first ++ last).size = first.size + last.size := by
  simp [size, items, append_def]

@[simp] theorem size_mapError (f : ε → ε) (encoder : Encoder σ ε) :
    (encoder.mapError f).size = encoder.size := by
  simp [size, items, mapError, List.flatMap_map]

theorem size_forEach {α : Type} (values : List α) (encode : α → Encoder σ ε) :
    (forEach values encode).size = (values.map fun value => (encode value).size).sum := by
  induction values with
  | nil => rfl
  | cons head tail ih => simp [ih]

@[simp] theorem succeeds_skip : (skip : Encoder σ ε).Succeeds := by simp [Succeeds, skip]

@[simp] theorem not_succeeds_fail (fault : ε) : ¬ (fail fault : Encoder σ ε).Succeeds := by
  simp [Succeeds, fail]

@[simp] theorem succeeds_slice (items : List σ) (full : ε) :
    (put (.slice items full)).Succeeds := by
  simp [Succeeds, put]

@[simp] theorem succeeds_shared (items : List σ) : (put (.shared items) : Encoder σ ε).Succeeds := by
  simp [Succeeds, put]

@[simp] theorem succeeds_done : (put .done : Encoder σ ε).Succeeds := by simp [Succeeds, put]

@[simp] theorem succeeds_append (first last : Encoder σ ε) :
    (first ++ last).Succeeds ↔ first.Succeeds ∧ last.Succeeds := by
  simp only [Succeeds, append_def, List.mem_append, not_or]
  exact forall_and

@[simp] theorem succeeds_mapError (f : ε → ε) (encoder : Encoder σ ε) :
    (encoder.mapError f).Succeeds ↔ encoder.Succeeds := by
  constructor
  · intro succeeds fault member
    exact succeeds (f fault) (List.mem_map.mpr ⟨_, member, rfl⟩)
  · intro succeeds fault member
    obtain ⟨put, present, same⟩ := List.mem_map.mp member
    cases put with
    | fail original => exact succeeds original present
    | _ => cases same

@[simp] theorem succeeds_forEach {α : Type} (values : List α) (encode : α → Encoder σ ε) :
    (forEach values encode).Succeeds ↔ ∀ value ∈ values, (encode value).Succeeds := by
  induction values with
  | nil => simp
  | cons head tail ih => simp [ih]

/-- Where no slice is refused, only a fault ends an encoder. -/
theorem run_isOk_iff {A : Type} [Accumulator A σ]
    (accepts : ∀ (dst : A) (items : List σ), (Accumulator.tryPutSlice dst items).isSome = true)
    (encoder : Encoder σ ε) (dst : A) : (encoder.run dst).isOk = true ↔ encoder.Succeeds := by
  obtain ⟨puts⟩ := encoder
  simp only [run, Succeeds]
  induction puts generalizing dst with
  | nil => simp [pure, Except.pure, Except.isOk, Except.toBool]
  | cons head tail ih =>
    have taken : (∃ fault, head = .fail fault) ∨
        ∃ next, (runPut dst head : Except ε A) = .ok next ∧ ∀ fault, head ≠ .fail fault := by
      cases head with
      | slice items full =>
        obtain ⟨next, accepted⟩ := Option.isSome_iff_exists.mp (accepts dst items)
        exact .inr ⟨next, by simp [runPut, accepted], by simp⟩
      | shared items => exact .inr ⟨_, rfl, by simp⟩
      | done => exact .inr ⟨_, rfl, by simp⟩
      | fail fault => exact .inl ⟨fault, rfl⟩
    rw [List.foldlM_cons]
    rcases taken with ⟨fault, rfl⟩ | ⟨next, ran, different⟩
    · constructor
      · intro ok
        cases ok
      · intro succeeds
        exact absurd List.mem_cons_self (succeeds fault)
    · rw [ran]
      refine (ih next).trans ⟨fun succeeds fault member => ?_, fun succeeds fault member => ?_⟩
      · rcases List.mem_cons.mp member with same | later
        · exact different fault same.symm
        · exact succeeds fault later
      · exact succeeds fault (List.mem_cons_of_mem _ member)

/-- An encoder with a fault fails on any accumulator, there or at a slice before it. -/
theorem run_error {A : Type} [Accumulator A σ] {encoder : Encoder σ ε}
    (fails : ¬ encoder.Succeeds) (dst : A) :
    ∃ put ∈ encoder.puts, ∃ fault, put.fault? = some fault ∧ encoder.run dst = .error fault := by
  obtain ⟨puts⟩ := encoder
  simp only [Succeeds, not_forall, not_not] at fails
  obtain ⟨fault, member⟩ := fails
  simp only [run]
  induction puts generalizing dst with
  | nil => cases member
  | cons head tail ih =>
    rw [List.foldlM_cons]
    cases ran : (runPut dst head : Except ε A) with
    | error refused =>
      refine ⟨head, List.mem_cons_self, refused, ?_, rfl⟩
      cases head with
      | slice items full =>
        simp only [runPut] at ran
        split at ran
        · cases ran
        · cases ran
          rfl
      | shared items => cases ran
      | done => cases ran
      | fail fault =>
        cases ran
        rfl
    | ok next =>
      rcases List.mem_cons.mp member with rfl | later
      · cases ran
      · obtain ⟨put, inTail, refused, ofPut, failed⟩ := ih next later
        exact ⟨put, List.mem_cons_of_mem _ inTail, refused, ofPut, failed⟩

/-- Two encoders that succeed together and put the same, in steps of their own. -/
structure SameCode (first last : Encoder σ ε) : Prop where
  succeeds : first.Succeeds ↔ last.Succeeds
  items : first.items = last.items

theorem SameCode.refl (encoder : Encoder σ ε) : SameCode encoder encoder := ⟨Iff.rfl, rfl⟩

theorem SameCode.append {first last before after : Encoder σ ε} (front : SameCode first before)
    (back : SameCode last after) : SameCode (first ++ last) (before ++ after) := by
  constructor
  · rw [succeeds_append, succeeds_append, front.succeeds, back.succeeds]
  · have fronts := front.items
    have backs := back.items
    simp only [Encoder.items, append_def, List.flatMap_append] at fronts backs ⊢
    rw [fronts, backs]

theorem SameCode.size {first last : Encoder σ ε} (same : SameCode first last) :
    first.size = last.size :=
  congrArg List.length same.items

/-- The encoder has this part, with something before and behind it. -/
def Contains (encoder part : Encoder σ ε) : Prop :=
  ∃ before after, encoder = before ++ part ++ after

theorem Contains.refl (encoder : Encoder σ ε) : Contains encoder encoder := by
  refine ⟨skip, skip, ?_⟩
  rw [append_skip, skip_append]

theorem Contains.left {first part : Encoder σ ε} (contains : Contains first part)
    (last : Encoder σ ε) : Contains (first ++ last) part := by
  obtain ⟨before, after, rfl⟩ := contains
  exact ⟨before, after ++ last, append_assoc _ _ _⟩

theorem Contains.right {last part : Encoder σ ε} (contains : Contains last part)
    (first : Encoder σ ε) : Contains (first ++ last) part := by
  obtain ⟨before, after, rfl⟩ := contains
  refine ⟨first ++ before, after, ?_⟩
  rw [append_assoc, append_assoc, append_assoc]

theorem Contains.succeeds {encoder part : Encoder σ ε} (contains : Contains encoder part)
    (succeeds : encoder.Succeeds) : part.Succeeds := by
  obtain ⟨before, after, rfl⟩ := contains
  rw [succeeds_append, succeeds_append] at succeeds
  exact succeeds.1.2

theorem Contains.items {encoder part : Encoder σ ε} (contains : Contains encoder part) :
    ∃ before after, encoder.items = before ++ part.items ++ after := by
  obtain ⟨before, after, rfl⟩ := contains
  exact ⟨before.items, after.items, by simp [Encoder.items, append_def]⟩

theorem Emits.skip : Emits (Encoder.skip : Encoder σ ε) [] := ⟨by simp [Succeeds, Encoder.skip], rfl⟩

theorem Emits.slice (items : List σ) (full : ε) : Emits (.put (.slice items full)) items :=
  ⟨by simp [Succeeds, put], by simp [put, Encoder.items, Put.items]⟩

theorem Emits.shared (items : List σ) : Emits (.put (.shared items) : Encoder σ ε) items :=
  ⟨by simp [Succeeds, put], by simp [put, Encoder.items, Put.items]⟩

theorem Emits.done : Emits (.put .done : Encoder σ ε) [] := ⟨by simp [Succeeds, put], rfl⟩

theorem Emits.append {first last : Encoder σ ε} {front back : List σ} (before : Emits first front)
    (after : Emits last back) : Emits (first ++ last) (front ++ back) := by
  refine ⟨(succeeds_append first last).mpr ⟨before.1, after.1⟩, ?_⟩
  rw [← before.2, ← after.2]
  simp [items, append_def]

theorem Emits.mapError {encoder : Encoder σ ε} {code : List σ} (f : ε → ε)
    (emits : Emits encoder code) : Emits (encoder.mapError f) code := by
  refine ⟨(succeeds_mapError f encoder).mpr emits.1, ?_⟩
  rw [← emits.2]
  simp [items, Encoder.mapError, List.flatMap_map]

theorem Emits.forEach {α : Type} {values : List α} {encode : α → Encoder σ ε}
    {code : α → List σ} (each : ∀ value ∈ values, Emits (encode value) (code value)) :
    Emits (Encoder.forEach values encode) (values.flatMap code) := by
  induction values with
  | nil => exact .skip
  | cons head tail ih =>
    rw [List.flatMap_cons]
    exact (each head (by simp)).append (ih fun value member => each value (by simp [member]))

theorem runPut_room {A : Type} [LawfulAccumulator A σ] (put : Put σ ε) (dst : A) (spare : Nat)
    (succeeds : ∀ fault, put ≠ .fail fault)
    (room : LawfulAccumulator.HasRoom dst (put.room + spare)) :
    ∃ next, (runPut dst put : Except ε A) = .ok next ∧
      LawfulAccumulator.contents next = LawfulAccumulator.contents dst ++ put.items ∧
      LawfulAccumulator.HasRoom next spare := by
  cases put with
  | slice items full =>
    obtain ⟨next, accepted, holds, left⟩ := LawfulAccumulator.putSlice_ok dst _ items room
      (Nat.le_add_right _ _)
    rw [Put.room, Nat.add_sub_cancel_left] at left
    exact ⟨next, by simp [runPut, accepted], holds, left⟩
  | shared items =>
    obtain ⟨holds, left⟩ := LawfulAccumulator.putShared_ok dst _ items room
    exact ⟨_, rfl, holds, by simpa [Put.room] using left⟩
  | done =>
    obtain ⟨holds, left⟩ := LawfulAccumulator.putDone_ok dst _ room
    exact ⟨_, rfl, by simpa [Put.items] using holds, by simpa [Put.room] using left⟩
  | fail fault => exact absurd rfl (succeeds fault)

theorem foldlM_room {A : Type} [LawfulAccumulator A σ] (puts : List (Put σ ε)) (dst : A)
    (spare : Nat) (succeeds : ∀ fault, Put.fail fault ∉ puts)
    (room : LawfulAccumulator.HasRoom dst ((puts.map Put.room).sum + spare)) :
    ∃ next, puts.foldlM runPut dst = (.ok next : Except ε A) ∧
      LawfulAccumulator.contents next = LawfulAccumulator.contents dst ++ puts.flatMap Put.items ∧
      LawfulAccumulator.HasRoom next spare := by
  induction puts generalizing dst with
  | nil => exact ⟨dst, rfl, by simp, by simpa using room⟩
  | cons head tail ih =>
    simp only [List.map_cons, List.sum_cons, Nat.add_assoc] at room
    obtain ⟨middle, ran, holds, left⟩ := runPut_room head dst _
      (fun fault same => succeeds fault (by simp [same])) room
    obtain ⟨next, rest, contents, spared⟩ := ih middle
      (fun fault member => succeeds fault (by simp [member])) left
    refine ⟨next, ?_, by simp [contents, holds], spared⟩
    simp only [List.foldlM_cons, ran]
    exact rest

/-- Given room for its slices, an encoder that emits `code` appends it. -/
theorem Emits.run {A : Type} [LawfulAccumulator A σ] {encoder : Encoder σ ε} {code : List σ}
    (emits : Emits encoder code) (dst : A)
    (room : LawfulAccumulator.HasRoom dst encoder.room) :
    ∃ next, encoder.run dst = .ok next ∧
      LawfulAccumulator.contents next = LawfulAccumulator.contents dst ++ code := by
  obtain ⟨next, ran, contents, _⟩ := foldlM_room encoder.puts dst 0 emits.1 room
  exact ⟨next, ran, by rw [contents, ← emits.2]; rfl⟩

end Encoder

end MqttClient.Lib
