import Mathlib.Data.Nat.ModEq
import Mathlib.Data.List.Basic

/-! Counting in rounds, and what a list of events looks like around one of them. -/

namespace MqttClient.Lib

/-- The numbers from one up to the bound, over and over. -/
def Rounds (bound : Nat) (numbers : List Nat) : Prop :=
  ∀ index number, numbers[index]? = some number → number = index % bound + 1

namespace Rounds

variable {bound : Nat} {numbers : List Nat}

theorem nil : Rounds bound [] := by
  intro index number found
  simp at found

theorem append {more : List Nat} (rounds : Rounds bound numbers)
    (later : ∀ index number, more[index]? = some number →
      number = (numbers.length + index) % bound + 1) :
    Rounds bound (numbers ++ more) := by
  intro index number found
  by_cases early : index < numbers.length
  · rw [List.getElem?_append_left early] at found
    exact rounds index number found
  · rw [List.getElem?_append_right (Nat.le_of_not_lt early)] at found
    have value := later _ _ found
    rwa [Nat.add_sub_cancel' (Nat.le_of_not_lt early)] at value

/-- A number comes again a whole round later, or more. -/
theorem apart (rounds : Rounds bound numbers) {first second number : Nat}
    (early : numbers[first]? = some number) (late : numbers[second]? = some number)
    (before : first < second) : first + bound ≤ second := by
  have same : first % bound = second % bound := by
    have here := rounds first number early
    have there := rounds second number late
    omega
  have divides : bound ∣ second - first :=
    (Nat.modEq_iff_dvd' (Nat.le_of_lt before)).mp same
  have step := Nat.le_of_dvd (Nat.sub_pos_of_lt before) divides
  omega

/-- In every round there is a turn for each remainder. -/
theorem exists_turn {value : Nat} (small : value < bound) (start : Nat) :
    ∃ turn, start ≤ turn ∧ turn < start + bound ∧ turn % bound = value := by
  have positive : 0 < bound := Nat.lt_of_le_of_lt (Nat.zero_le _) small
  have below := Nat.mod_lt start positive
  refine ⟨start + (value + (bound - start % bound)) % bound, Nat.le_add_right _ _, ?_, ?_⟩
  · exact Nat.add_lt_add_left (Nat.mod_lt _ positive) _
  · calc (start + (value + (bound - start % bound)) % bound) % bound
        = (start % bound + (value + (bound - start % bound))) % bound := by
          rw [Nat.add_mod_mod, Nat.mod_add_mod]
      _ = (value + bound) % bound := by
          congr 1
          omega
      _ = value := by rw [Nat.add_mod_right, Nat.mod_eq_of_lt small]

/-- Each number stands in a part of the list that is at least as long as a round. -/
theorem mem_part (rounds : Rounds bound numbers) {start stop value : Nat} (positive : 0 < value)
    (small : value ≤ bound) (long : start + bound ≤ stop) (inside : stop ≤ numbers.length) :
    ∃ turn, start ≤ turn ∧ turn < stop ∧ numbers[turn]? = some value := by
  obtain ⟨turn, after, before, same⟩ := exists_turn (show value - 1 < bound by omega) start
  have present : turn < numbers.length := by omega
  refine ⟨turn, after, by omega, ?_⟩
  have found := List.getElem?_eq_getElem present
  have number := rounds turn _ found
  rw [found, number, same]
  congr 1
  omega

end Rounds

theorem mem_part_of_getElem? {α : Type} {items : List α} {item : α} {start turn stop : Nat}
    (after : start ≤ turn) (before : turn < stop) (found : items[turn]? = some item) :
    item ∈ (items.take stop).drop start := by
  apply List.mem_of_getElem?
  rw [List.getElem?_drop, Nat.add_sub_cancel' after, List.getElem?_take_of_lt before]
  exact found

/-- An item of a list that grows at its end is the new one, or was there before. -/
theorem snoc_split {α : Type} {items before after : List α} {last item : α}
    (split : items ++ [last] = before ++ item :: after) :
    (items = before ∧ last = item ∧ after = []) ∨
      ∃ shorter, after = shorter ++ [last] ∧ items = before ++ item :: shorter := by
  rcases List.eq_nil_or_concat after with rfl | ⟨shorter, final, rfl⟩
  · obtain ⟨same, single⟩ := List.append_inj' split rfl
    exact .inl ⟨same, (List.cons.inj single).1, rfl⟩
  · rw [List.concat_eq_append, ← List.cons_append, ← List.append_assoc] at split
    obtain ⟨same, single⟩ := List.append_inj' split rfl
    rw [(List.cons.inj single).1]
    exact .inr ⟨shorter, List.concat_eq_append, same⟩

end MqttClient.Lib
