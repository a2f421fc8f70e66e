import Mathlib.Data.List.Basic

/-! A sequence held in chunks, and the chunks that are left of it when symbols are taken
off its front. -/

namespace MqttClient.Lib.Chunks

variable {σ : Type}

/-- Take `n` symbols off the front, which there must be. -/
def advance : List (List σ) → Nat → Option (List (List σ))
  | [], n => if n = 0 then some [] else none
  | chunk :: rest, n =>
    if chunk.length ≤ n then advance rest (n - chunk.length) else some (chunk.drop n :: rest)

/-- No chunk is empty. -/
def Filled (chunks : List (List σ)) : Prop := ∀ chunk ∈ chunks, chunk ≠ []

theorem Filled.nil : Filled ([] : List (List σ)) := by
  intro chunk member
  cases member

theorem Filled.of_cons {chunk : List σ} {rest : List (List σ)} (filled : Filled (chunk :: rest)) :
    Filled rest :=
  fun other member => filled other (List.mem_cons_of_mem _ member)

theorem Filled.snoc {chunks : List (List σ)} {chunk : List σ} (filled : Filled chunks)
    (present : chunk ≠ []) : Filled (chunks ++ [chunk]) := by
  intro other member
  rcases List.mem_append.mp member with early | last
  · exact filled other early
  · rw [List.mem_singleton.mp last]
    exact present

theorem Filled.take {chunks : List (List σ)} (filled : Filled chunks) (count : Nat) :
    Filled (chunks.take count) :=
  fun chunk member => filled chunk (List.mem_of_mem_take member)

/-- Chunks that hold nothing are no chunks. -/
theorem Filled.eq_nil {chunks : List (List σ)} (filled : Filled chunks)
    (nothing : chunks.flatten = []) : chunks = [] := by
  cases chunks with
  | nil => rfl
  | cons chunk rest =>
    rw [List.flatten_cons, List.append_eq_nil_iff] at nothing
    exact absurd nothing.1 (filled chunk List.mem_cons_self)

theorem advance_ok (chunks : List (List σ)) (n : Nat) (enough : n ≤ chunks.flatten.length) :
    ∃ rest, advance chunks n = some rest ∧ rest.flatten = chunks.flatten.drop n := by
  induction chunks generalizing n with
  | nil =>
    have none : n = 0 := by simpa using enough
    exact ⟨[], by simp [advance, none], by simp⟩
  | cons chunk rest ih =>
    rw [List.flatten_cons, List.length_append] at enough
    by_cases whole : chunk.length ≤ n
    · obtain ⟨left, advanced, held⟩ := ih (n - chunk.length) (by omega)
      refine ⟨left, by simp [advance, whole, advanced], ?_⟩
      rw [held, List.flatten_cons, List.drop_append, List.drop_eq_nil_of_le whole,
        List.nil_append]
    · refine ⟨chunk.drop n :: rest, by simp [advance, whole], ?_⟩
      rw [List.flatten_cons, List.flatten_cons, List.drop_append_of_le_length (by omega)]

theorem Filled.advance {chunks rest : List (List σ)} {n : Nat} (filled : Filled chunks)
    (advanced : advance chunks n = some rest) : Filled rest := by
  induction chunks generalizing n with
  | nil =>
    simp only [Chunks.advance, Option.ite_none_right_eq_some, Option.some.injEq] at advanced
    rw [← advanced.2]
    exact .nil
  | cons chunk others ih =>
    by_cases whole : chunk.length ≤ n
    · simp only [Chunks.advance, whole, if_true] at advanced
      exact ih filled.of_cons advanced
    · simp only [Chunks.advance, whole, if_false, Option.some.injEq] at advanced
      subst rest
      intro other member
      rcases List.mem_cons.mp member with rfl | later
      · simp only [ne_eq, List.drop_eq_nil_iff]
        exact whole
      · exact filled.of_cons other later

end MqttClient.Lib.Chunks
