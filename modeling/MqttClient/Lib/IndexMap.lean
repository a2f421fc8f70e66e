import Mathlib.Data.List.Nodup
import Mathlib.Data.List.Basic

/-! Insertion-ordered maps with distinct keys. Replacing a present key keeps its
position; removing one keeps the order of the others. -/

/-- An association list whose keys are distinct, in insertion order. -/
structure IndexMap (K : Type) (V : Type) where
  entries : List (K × V)
  distinct : (entries.map Prod.fst).Nodup
  deriving DecidableEq

namespace IndexMap

variable {K V : Type}

def empty : IndexMap K V := ⟨[], List.nodup_nil⟩

instance : Inhabited (IndexMap K V) := ⟨empty⟩

def keys (map : IndexMap K V) : List K := map.entries.map Prod.fst

def values (map : IndexMap K V) : List V := map.entries.map Prod.snd

def first? (map : IndexMap K V) : Option (K × V) := map.entries.head?

/-- Remove the entry at position zero. -/
def dropFirst (map : IndexMap K V) : IndexMap K V :=
  ⟨map.entries.tail, by
    rw [List.map_tail]
    exact map.distinct.sublist (List.tail_sublist _)⟩

/-- Remove entries from the front as long as they satisfy the condition. -/
def dropWhile (map : IndexMap K V) (condition : K × V → Bool) : IndexMap K V :=
  ⟨map.entries.dropWhile condition,
    map.distinct.sublist ((List.dropWhile_sublist condition).map Prod.fst)⟩

theorem values_dropWhile_sublist (map : IndexMap K V) (condition : K × V → Bool) :
    (map.dropWhile condition).values.Sublist map.values :=
  (List.dropWhile_sublist condition).map Prod.snd

theorem values_dropFirst_sublist (map : IndexMap K V) :
    map.dropFirst.values.Sublist map.values :=
  (List.tail_sublist _).map Prod.snd

@[ext] theorem ext {left right : IndexMap K V} (same : left.entries = right.entries) :
    left = right := by
  cases left
  cases right
  simp_all

@[simp] theorem entries_empty : (empty : IndexMap K V).entries = [] := rfl

@[simp] theorem keys_empty : (empty : IndexMap K V).keys = [] := rfl

variable [DecidableEq K]

def get? (map : IndexMap K V) (key : K) : Option V :=
  (map.entries.find? (fun entry => entry.1 == key)).map Prod.snd

private theorem keys_replace (entries : List (K × V)) (key : K) (value : V) :
    (entries.map (fun entry => if entry.1 = key then (key, value) else entry)).map Prod.fst =
      entries.map Prod.fst := by
  induction entries with
  | nil => rfl
  | cons entry rest ih =>
    by_cases same : entry.1 = key
    · simp only [List.map_cons, same, if_true, ih]
    · simp only [List.map_cons, same, if_false, ih]

/-- Replace the value of a present key in place, else append a new entry. -/
def insert (map : IndexMap K V) (key : K) (value : V) : IndexMap K V :=
  if present : key ∈ map.keys then
    ⟨map.entries.map (fun entry => if entry.1 = key then (key, value) else entry), by
      rw [keys_replace]
      exact map.distinct⟩
  else
    ⟨map.entries ++ [(key, value)], by
      rw [List.map_append, List.map_cons, List.map_nil, List.nodup_append]
      refine ⟨map.distinct, List.nodup_singleton _, ?_⟩
      intro earlier member later single same
      rw [List.mem_singleton] at single
      subst single
      subst same
      exact present member⟩

/-- Remove a key, keeping the order of the remaining entries. -/
def shiftRemove (map : IndexMap K V) (key : K) : IndexMap K V :=
  ⟨map.entries.filter (fun entry => !(entry.1 == key)),
    map.distinct.sublist (List.filter_sublist.map Prod.fst)⟩

omit [DecidableEq K] in
theorem keys_nodup (map : IndexMap K V) : map.keys.Nodup := map.distinct

omit [DecidableEq K] in
theorem mem_keys_of_mem {map : IndexMap K V} {entry : K × V} (member : entry ∈ map.entries) :
    entry.1 ∈ map.keys :=
  List.mem_map.mpr ⟨entry, member, rfl⟩

omit [DecidableEq K] in
theorem exists_of_mem_keys {map : IndexMap K V} {key : K} (member : key ∈ map.keys) :
    ∃ value, (key, value) ∈ map.entries := by
  obtain ⟨⟨_, value⟩, present, same⟩ := List.mem_map.mp member
  exact ⟨value, same ▸ present⟩

omit [DecidableEq K] in
/-- Distinct keys make the value of a key unique. -/
theorem value_unique {map : IndexMap K V} {key : K} {left right : V}
    (first : (key, left) ∈ map.entries) (second : (key, right) ∈ map.entries) : left = right := by
  have same := List.inj_on_of_nodup_map map.distinct first second rfl
  exact (Prod.mk.inj same).2

theorem get?_eq_some_iff {map : IndexMap K V} {key : K} {value : V} :
    map.get? key = some value ↔ (key, value) ∈ map.entries := by
  unfold get?
  constructor
  · intro found
    obtain ⟨⟨other, stored⟩, located, same⟩ := Option.map_eq_some_iff.mp found
    have matched : other = key := by simpa using List.find?_some located
    have member := List.mem_of_find?_eq_some located
    rw [matched] at member
    exact same ▸ member
  · intro member
    cases located : map.entries.find? (fun entry => entry.1 == key) with
    | none =>
      have missing := List.find?_eq_none.mp located (key, value) member
      simp at missing
    | some entry =>
      have matched : entry.1 = key := by simpa using List.find?_some located
      have present := List.mem_of_find?_eq_some located
      have same : (key, entry.2) ∈ map.entries := matched ▸ present
      simp [value_unique same member]

theorem get?_eq_none_iff {map : IndexMap K V} {key : K} :
    map.get? key = none ↔ key ∉ map.keys := by
  constructor
  · intro missing member
    obtain ⟨value, present⟩ := exists_of_mem_keys member
    rw [get?_eq_some_iff.mpr present] at missing
    cases missing
  · intro absent
    cases found : map.get? key with
    | none => rfl
    | some value => exact absurd (mem_keys_of_mem (get?_eq_some_iff.mp found)) absent

private theorem filter_key_list {entries : List (K × V)} (distinct : (entries.map Prod.fst).Nodup)
    (key : K) :
    entries.filter (fun entry => entry.1 == key) =
      (entries.find? (fun entry => entry.1 == key)).toList := by
  induction entries with
  | nil => rfl
  | cons entry rest ih =>
    obtain ⟨fresh, distinct⟩ := List.nodup_cons.mp distinct
    by_cases same : entry.1 = key
    · have absent : rest.filter (fun entry => entry.1 == key) = [] := by
        rw [List.filter_eq_nil_iff]
        intro other member matched
        have equal : other.1 = key := by simpa using matched
        exact fresh (same ▸ equal ▸ List.mem_map.mpr ⟨other, member, rfl⟩)
      simp [same, absent]
    · simp [same, ih distinct]

/-- The entries with a key are its value, if it has one. -/
theorem filter_key (map : IndexMap K V) (key : K) :
    map.entries.filter (fun entry => entry.1 == key) =
      (map.get? key).toList.map (fun value => (key, value)) := by
  rw [filter_key_list map.distinct, get?]
  cases located : map.entries.find? (fun entry => entry.1 == key) with
  | none => rfl
  | some entry =>
    have matched : entry.1 = key := by simpa using List.find?_some located
    simp [← matched]

@[simp] theorem keys_shiftRemove (map : IndexMap K V) (key : K) :
    (map.shiftRemove key).keys = map.keys.filter (fun other => !(other == key)) := by
  simp only [keys, shiftRemove, List.filter_map]
  rfl

theorem mem_keys_shiftRemove {map : IndexMap K V} {key other : K} :
    other ∈ (map.shiftRemove key).keys ↔ other ∈ map.keys ∧ other ≠ key := by
  simp

theorem mem_shiftRemove {map : IndexMap K V} {key : K} {entry : K × V} :
    entry ∈ (map.shiftRemove key).entries ↔ entry ∈ map.entries ∧ entry.1 ≠ key := by
  simp [shiftRemove]

theorem shiftRemove_of_not_mem {map : IndexMap K V} {key : K} (absent : key ∉ map.keys) :
    map.shiftRemove key = map := by
  apply ext
  apply List.filter_eq_self.mpr
  intro entry member
  have different : entry.1 ≠ key := fun same => absent (same ▸ mem_keys_of_mem member)
  simpa using different

/-- A fresh key is appended after every earlier entry. -/
theorem entries_insert_fresh {map : IndexMap K V} {key : K} (fresh : key ∉ map.keys) (value : V) :
    (map.insert key value).entries = map.entries ++ [(key, value)] := by
  simp [insert, fresh]

theorem keys_insert_fresh {map : IndexMap K V} {key : K} (fresh : key ∉ map.keys) (value : V) :
    (map.insert key value).keys = map.keys ++ [key] := by
  simp [keys, entries_insert_fresh fresh]

theorem keys_insert_present {map : IndexMap K V} {key : K} (present : key ∈ map.keys) (value : V) :
    (map.insert key value).keys = map.keys := by
  unfold insert
  rw [dif_pos present]
  exact keys_replace _ _ _

private theorem replace_absent {entries : List (K × V)} {key : K} (value : V)
    (absent : key ∉ entries.map Prod.fst) :
    entries.map (fun entry => if entry.1 = key then (key, value) else entry) = entries := by
  conv_rhs => rw [← List.map_id entries]
  apply List.map_congr_left
  intro entry member
  have different : entry.1 ≠ key := fun same => absent (same ▸ List.mem_map_of_mem member)
  simp [different]

/-- The value of a present key is replaced where it stands. -/
theorem entries_insert_split {map : IndexMap K V} {key : K} {old : V} {left right : List (K × V)}
    (split : map.entries = left ++ (key, old) :: right) (value : V) :
    (map.insert key value).entries = left ++ (key, value) :: right := by
  have present : key ∈ map.keys := by simp [keys, split]
  have distinct := map.distinct
  rw [split, List.map_append, List.map_cons, List.nodup_append, List.nodup_cons] at distinct
  obtain ⟨_, ⟨later, _⟩, apart⟩ := distinct
  have earlier : key ∉ left.map Prod.fst :=
    fun member => apart key member key List.mem_cons_self rfl
  unfold insert
  rw [dif_pos present]
  simp only [split, List.map_append, List.map_cons, if_true, replace_absent value earlier,
    replace_absent value later]

theorem entries_insert_present {map : IndexMap K V} {key : K} {old : V}
    (present : (key, old) ∈ map.entries) (value : V) :
    ∃ left right, map.entries = left ++ (key, old) :: right ∧
      (map.insert key value).entries = left ++ (key, value) :: right := by
  obtain ⟨left, right, split⟩ := List.append_of_mem present
  exact ⟨left, right, split, entries_insert_split split value⟩

/-- An insertion changes no entry but the inserted one. -/
theorem mem_entries_insert {map : IndexMap K V} {key : K} {value : V} {entry : K × V}
    (member : entry ∈ (map.insert key value).entries) :
    entry = (key, value) ∨ entry ∈ map.entries := by
  by_cases present : key ∈ map.keys
  · obtain ⟨old, held⟩ := exists_of_mem_keys present
    obtain ⟨left, right, split, replaced⟩ := entries_insert_present held value
    rw [replaced] at member
    rw [split]
    rcases List.mem_append.mp member with before | here
    · exact .inr (List.mem_append_left _ before)
    · rcases List.mem_cons.mp here with same | after
      · exact .inl same
      · exact .inr (List.mem_append_right _ (List.mem_cons_of_mem _ after))
  · rw [entries_insert_fresh present] at member
    rcases List.mem_append.mp member with before | here
    · exact .inr before
    · exact .inl (List.mem_singleton.mp here)

theorem mem_values_insert {map : IndexMap K V} {key : K} {value stored : V}
    (member : stored ∈ (map.insert key value).values) : stored = value ∨ stored ∈ map.values := by
  obtain ⟨entry, present, rfl⟩ := List.mem_map.mp member
  rcases mem_entries_insert present with same | earlier
  · exact .inl (congrArg Prod.snd same)
  · exact .inr (List.mem_map_of_mem earlier)

theorem mem_keys_insert {map : IndexMap K V} {key other : K} {value : V} :
    other ∈ (map.insert key value).keys ↔ other ∈ map.keys ∨ other = key := by
  by_cases present : key ∈ map.keys
  · rw [keys_insert_present present]
    constructor
    · exact Or.inl
    · rintro (member | same)
      · exact member
      · exact same ▸ present
  · rw [keys_insert_fresh present]
    simp

end IndexMap
