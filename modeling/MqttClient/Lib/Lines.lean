import Mathlib.Data.List.Basic

/-! Lines: symbols up to one that stops them. -/

namespace MqttClient.Lib

variable {σ : Type} [DecidableEq σ] {stop : σ}

/-- The symbols up to the first that stops the line, with it, or all of them. -/
def takeLine (stop : σ) : List σ → List σ
  | [] => []
  | first :: rest => if first = stop then [first] else first :: takeLine stop rest

/-- A line with the symbol that stops it. -/
def IsLine (stop : σ) (line : List σ) : Prop := ∃ body, stop ∉ body ∧ line = body ++ [stop]

omit [DecidableEq σ] in
theorem IsLine.ne_nil {line : List σ} (complete : IsLine stop line) : line ≠ [] := by
  obtain ⟨body, -, rfl⟩ := complete
  simp

theorem takeLine_stop (rest : List σ) : takeLine stop (stop :: rest) = [stop] := by
  simp [takeLine]

theorem takeLine_other {first : σ} (other : first ≠ stop) (rest : List σ) :
    takeLine stop (first :: rest) = first :: takeLine stop rest := by
  simp [takeLine, other]

/-- A line stands at the front, and is complete unless nothing stops it. -/
theorem takeLine_cases (stop : σ) (source : List σ) :
    (IsLine stop (takeLine stop source) ∧
        ∃ rest, source = takeLine stop source ++ rest) ∨
      stop ∉ source ∧ takeLine stop source = source := by
  induction source with
  | nil => exact .inr ⟨by simp, rfl⟩
  | cons first rest ih =>
    by_cases stops : first = stop
    · subst stops
      rw [takeLine_stop]
      exact .inl ⟨⟨[], by simp, rfl⟩, rest, rfl⟩
    · rw [takeLine_other stops]
      rcases ih with ⟨⟨body, single, line⟩, later, split⟩ | ⟨single, same⟩
      · refine .inl ⟨⟨first :: body, ?_, by rw [line]; rfl⟩, later, ?_⟩
        · rw [List.mem_cons, not_or]
          exact ⟨Ne.symm stops, single⟩
        · rw [List.cons_append, ← split]
      · refine .inr ⟨?_, by rw [same]⟩
        rw [List.mem_cons, not_or]
        exact ⟨Ne.symm stops, single⟩

theorem takeLine_append {line : List σ} (complete : IsLine stop line) (rest : List σ) :
    takeLine stop (line ++ rest) = line := by
  obtain ⟨body, single, rfl⟩ := complete
  induction body with
  | nil => exact takeLine_stop rest
  | cons first body ih =>
    rw [List.mem_cons, not_or] at single
    rw [List.cons_append, List.cons_append, takeLine_other (Ne.symm single.1), ih single.2]

theorem takeLine_take (source : List σ) (limit : Nat) :
    takeLine stop (source.take limit) = (takeLine stop source).take limit := by
  induction source generalizing limit with
  | nil => simp [takeLine]
  | cons first rest ih =>
    cases limit with
    | zero => rfl
    | succ limit =>
      rw [List.take_succ_cons]
      by_cases stops : first = stop
      · subst stops
        rw [takeLine_stop, takeLine_stop, List.take_succ_cons, List.take_nil]
      · rw [takeLine_other stops, takeLine_other stops, List.take_succ_cons, ih]

theorem takeLine_length_le (stop : σ) (source : List σ) :
    (takeLine stop source).length ≤ source.length := by
  rcases takeLine_cases stop source with ⟨-, rest, split⟩ | ⟨-, same⟩
  · have length := congrArg List.length split
    rw [List.length_append] at length
    omega
  · exact Nat.le_of_eq (congrArg List.length same)

omit [DecidableEq σ] in
theorem IsLine.getLast? {line : List σ} (complete : IsLine stop line) :
    line.getLast? = some stop := by
  obtain ⟨body, -, rfl⟩ := complete
  simp

end MqttClient.Lib
