import Mathlib.Algebra.GroupWithZero.Nat
import Mathlib.Data.List.Forall2
import Mathlib.Data.Option.Basic

/-! Conversions that may fail, of all that a list or an option holds: when they succeed,
and what the result has in common with what was converted. -/

namespace MqttClient.Lib

variable {α β : Type} {f : α → Option β}

theorem mapM_cons_some {head : α} {tail : List α} {results : List β} :
    (head :: tail).mapM f = some results ↔
      ∃ first rest, f head = some first ∧ tail.mapM f = some rest ∧ results = first :: rest := by
  simp only [List.mapM_cons, Option.bind_eq_bind, Option.bind_eq_some_iff, Option.pure_def,
    Option.some.injEq]
  constructor
  · rintro ⟨first, found, rest, others, rfl⟩
    exact ⟨first, rest, found, others, rfl⟩
  · rintro ⟨first, rest, found, others, rfl⟩
    exact ⟨first, found, rest, others, rfl⟩

theorem forall₂_of_mapM {values : List α} {results : List β}
    (converted : values.mapM f = some results) :
    List.Forall₂ (fun value result => f value = some result) values results := by
  induction values generalizing results with
  | nil =>
    cases converted
    exact .nil
  | cons head tail ih =>
    obtain ⟨first, rest, found, others, rfl⟩ := mapM_cons_some.mp converted
    exact .cons found (ih others)

theorem isSome_mapM (values : List α) :
    (values.mapM f).isSome = true ↔ ∀ value ∈ values, (f value).isSome = true := by
  simp only [Option.isSome_iff_exists]
  induction values with
  | nil => simp
  | cons head tail ih =>
    rw [List.forall_mem_cons, ← ih]
    constructor
    · rintro ⟨results, converted⟩
      obtain ⟨first, rest, found, others, -⟩ := mapM_cons_some.mp converted
      exact ⟨⟨first, found⟩, rest, others⟩
    · rintro ⟨⟨first, found⟩, rest, others⟩
      exact ⟨_, mapM_cons_some.mpr ⟨first, rest, found, others, rfl⟩⟩

theorem optional_some {value : Option α} {result : Option β} :
    value.mapM f = some result ↔
      (value = none ∧ result = none) ∨
        ∃ held wire, value = some held ∧ result = some wire ∧ f held = some wire := by
  cases value with
  | none => simp [eq_comm]
  | some held =>
    simp only [Option.mapM_some, Option.map_eq_map, Option.map_eq_some_iff, reduceCtorEq,
      false_and, Option.some.injEq, false_or]
    constructor
    · rintro ⟨wire, found, rfl⟩
      exact ⟨held, wire, rfl, rfl, found⟩
    · rintro ⟨_, wire, rfl, rfl, found⟩
      exact ⟨wire, found, rfl⟩

theorem isSome_optional (value : Option α) :
    (value.mapM f).isSome = true ↔ ∀ held ∈ value, (f held).isSome = true := by
  cases value <;> simp

/-- A measure of each value that its conversion keeps. -/
theorem sum_of_forall₂ {values : List α} {results : List β} {before : α → Nat} {after : β → Nat}
    (converted : List.Forall₂ (fun value result => f value = some result) values results)
    (same : ∀ value result, f value = some result → after result = before value) :
    (results.map after).sum = (values.map before).sum := by
  induction converted with
  | nil => rfl
  | cons found _ ih =>
    simp only [List.map_cons, List.sum_cons, ih, same _ _ found]

theorem elim_of_optional {value : Option α} {result : Option β} {before : α → Nat}
    {after : β → Nat} (converted : value.mapM f = some result)
    (same : ∀ held wire, f held = some wire → after wire = before held) :
    result.elim 0 after = value.elim 0 before := by
  rcases optional_some.mp converted with ⟨rfl, rfl⟩ | ⟨held, wire, rfl, rfl, found⟩
  · rfl
  · exact same held wire found

/-- A property of each value that its conversion keeps. -/
theorem forall_of_forall₂ {values : List α} {results : List β} {before : α → Prop}
    {after : β → Prop}
    (converted : List.Forall₂ (fun value result => f value = some result) values results)
    (same : ∀ value result, f value = some result → (after result ↔ before value)) :
    (∀ result ∈ results, after result) ↔ ∀ value ∈ values, before value := by
  induction converted with
  | nil => simp
  | cons found _ ih => simp only [List.forall_mem_cons, ih, same _ _ found]

theorem forall_of_optional {value : Option α} {result : Option β} {before : α → Prop}
    {after : β → Prop} (converted : value.mapM f = some result)
    (same : ∀ held wire, f held = some wire → (after wire ↔ before held)) :
    (∀ wire ∈ result, after wire) ↔ ∀ held ∈ value, before held := by
  rcases optional_some.mp converted with ⟨rfl, rfl⟩ | ⟨held, wire, rfl, rfl, found⟩
  · simp
  · simpa using same held wire found

theorem forall_converted {value : Option α} {result : Option β} {after : β → Prop}
    (converted : value.mapM f = some result) (each : ∀ held wire, f held = some wire → after wire) :
    ∀ wire ∈ result, after wire := by
  rcases optional_some.mp converted with ⟨rfl, rfl⟩ | ⟨held, wire, rfl, rfl, found⟩
  · simp
  · simpa using each held wire found

/-- A conversion of several parts succeeds if that of each part does. -/
theorem isSome_bind {value : Option α} :
    (value.bind f).isSome = true ↔ ∃ held, value = some held ∧ (f held).isSome = true := by
  cases value <;> simp

/-! ### There and back -/

section Back

variable {g : β → Option α}

/-- What is converted each in turn is converted back each in turn. -/
theorem mapM_back (back : ∀ value result, f value = some result → g result = some value)
    {values : List α} {results : List β} (converted : values.mapM f = some results) :
    results.mapM g = some values := by
  induction values generalizing results with
  | nil =>
    cases converted
    rfl
  | cons head tail ih =>
    obtain ⟨first, rest, found, others, rfl⟩ := mapM_cons_some.mp converted
    exact mapM_cons_some.mpr ⟨head, tail, back head first found, ih others, rfl⟩

theorem optional_back (back : ∀ value result, f value = some result → g result = some value)
    {value : Option α} {result : Option β} (converted : value.mapM f = some result) :
    result.mapM g = some value := by
  rcases optional_some.mp converted with ⟨rfl, rfl⟩ | ⟨held, wire, rfl, rfl, found⟩
  · rfl
  · exact optional_some.mpr (.inr ⟨wire, held, rfl, rfl, back held wire found⟩)

/-- Where every result comes from a value, all of them together do. -/
theorem mapM_source {formed : β → Prop}
    (source : ∀ result, formed result → ∃ value, g result = some value ∧ f value = some result)
    {results : List β} (all : ∀ result ∈ results, formed result) :
    ∃ values, results.mapM g = some values ∧ values.mapM f = some results := by
  induction results with
  | nil => exact ⟨[], rfl, rfl⟩
  | cons head tail ih =>
    obtain ⟨first, others⟩ := List.forall_mem_cons.mp all
    obtain ⟨value, found, back⟩ := source head first
    obtain ⟨values, rest, again⟩ := ih others
    exact ⟨value :: values, mapM_cons_some.mpr ⟨value, values, found, rest, rfl⟩,
      mapM_cons_some.mpr ⟨head, tail, back, again, rfl⟩⟩

theorem optional_source {formed : β → Prop}
    (source : ∀ result, formed result → ∃ value, g result = some value ∧ f value = some result)
    {result : Option β} (all : ∀ held ∈ result, formed held) :
    ∃ value, result.mapM g = some value ∧ value.mapM f = some result := by
  cases result with
  | none => exact ⟨none, rfl, rfl⟩
  | some held =>
    obtain ⟨value, found, back⟩ := source held (all held rfl)
    exact ⟨some value, optional_some.mpr (.inr ⟨held, value, rfl, rfl, found⟩),
      optional_some.mpr (.inr ⟨value, held, rfl, rfl, back⟩)⟩

end Back

end MqttClient.Lib
