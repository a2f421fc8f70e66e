import Mathlib.Data.List.Basic

/-! Framing: a stream is cut into values by taking one off its front as long as there is
one. What is taken is decided by the symbols seen, not by those to come. -/

namespace MqttClient.Lib

/-- What the front of a stream holds. -/
inductive Frame (σ α : Type) where
  | incomplete
  | invalid
  | complete (value : α) (rest : List σ)

structure Framer (σ α : Type) where
  next : List σ → Frame σ α
  shorter : ∀ src value rest, next src = .complete value rest → rest.length < src.length
  complete_append : ∀ src value rest more, next src = .complete value rest →
    next (src ++ more) = .complete value (rest ++ more)
  invalid_append : ∀ src more, next src = .invalid → next (src ++ more) = .invalid

namespace Framer

variable {σ α : Type} (framer : Framer σ α)

def framingLoop : Nat → List σ → List α × List σ
  | 0, src => ([], src)
  | fuel + 1, src =>
    match framer.next src with
    | .complete value rest =>
      let (values, left) := framingLoop fuel rest
      (value :: values, left)
    | _ => ([], src)

/-- The values of a stream, and what is left where no further one is complete. -/
def framing (src : List σ) : List α × List σ := framer.framingLoop src.length src

/-- The stream starts with these values, before the rest. -/
inductive Takes : List σ → List α → List σ → Prop where
  | nil (src : List σ) : Takes src [] src
  | snoc {src middle rest : List σ} {values : List α} {value : α} (early : Takes src values middle)
    (last : framer.next middle = .complete value rest) : Takes src (values ++ [value]) rest

variable {framer}

theorem framingLoop_enough {src : List σ} {fuel : Nat} (enough : src.length ≤ fuel) :
    framer.framingLoop fuel src = framer.framing src := by
  have steady : ∀ (fuel : Nat) (src : List σ), src.length ≤ fuel →
      framer.framingLoop (fuel + 1) src = framer.framingLoop fuel src := by
    intro fuel
    induction fuel with
    | zero =>
      intro src empty
      simp only [framingLoop]
      split
      · rename_i value rest next
        have shorter := framer.shorter _ _ _ next
        omega
      · rfl
    | succ fuel ih =>
      intro src enough
      rw [framingLoop]
      conv => rhs; rw [framingLoop]
      split
      · rename_i value rest next
        have shorter := framer.shorter _ _ _ next
        rw [ih rest (by omega)]
      · rfl
  induction enough with
  | refl => rfl
  | step enough ih => rw [steady _ src enough, ih]

theorem framing_complete {src rest : List σ} {value : α}
    (next : framer.next src = .complete value rest) :
    framer.framing src = (value :: (framer.framing rest).1, (framer.framing rest).2) := by
  have shorter := framer.shorter _ _ _ next
  rw [← framingLoop_enough (Nat.le_succ src.length), framingLoop, next]
  simp only [framingLoop_enough (Nat.le_of_lt shorter)]

theorem framing_stop {src : List σ} (stop : ∀ value rest, framer.next src ≠ .complete value rest) :
    framer.framing src = ([], src) := by
  rw [← framingLoop_enough (Nat.le_succ src.length), framingLoop]
  split
  · rename_i value rest next
    exact absurd next (stop value rest)
  · rfl

/-- A stream is one value and nothing else when its front holds that and leaves nothing. -/
theorem framing_eq_singleton {src : List σ} {value : α} :
    framer.framing src = ([value], []) ↔ framer.next src = .complete value [] := by
  constructor
  · intro framed
    cases next : framer.next src with
    | complete first rest =>
      rw [framing_complete next, Prod.mk.injEq, List.cons.injEq] at framed
      obtain ⟨⟨rfl, none⟩, left⟩ := framed
      cases after : framer.next rest with
      | complete second more => simp [framing_complete after] at none
      | incomplete =>
        rw [framing_stop (by simp [after])] at left
        exact congrArg _ left
      | invalid =>
        rw [framing_stop (by simp [after])] at left
        exact congrArg _ left
    | incomplete =>
      rw [framing_stop (by simp [next])] at framed
      simp at framed
    | invalid =>
      rw [framing_stop (by simp [next])] at framed
      simp at framed
  · intro next
    have stop : ∀ other rest, framer.next [] ≠ .complete other rest := by
      intro other rest complete
      exact absurd (framer.shorter _ _ _ complete) (Nat.not_lt_zero _)
    rw [framing_complete next, framing_stop stop]

theorem Takes.framing {src rest : List σ} {values : List α} (takes : framer.Takes src values rest) :
    framer.framing src = (values ++ (framer.framing rest).1, (framer.framing rest).2) := by
  induction takes with
  | nil => rfl
  | snoc early last ih =>
    rw [ih, framing_complete last]
    simp

theorem Takes.isPrefix {src rest : List σ} {values : List α} (takes : framer.Takes src values rest) :
    values <+: (framer.framing src).1 := by
  rw [takes.framing]
  exact List.prefix_append _ _

/-- Where the framing stops, it is the values taken and the rest. -/
theorem Takes.framing_eq {src rest : List σ} {values : List α}
    (takes : framer.Takes src values rest)
    (stop : ∀ value rest', framer.next rest ≠ .complete value rest') :
    framer.framing src = (values, rest) := by
  rw [takes.framing, framing_stop stop]
  simp

/-! ### Streams of code words -/

/-- A proper part of a code word is incomplete. -/
theorem next_of_part {whole part : List σ} {value : α}
    (word : framer.next whole = .complete value []) (inside : part <+: whole)
    (proper : part ≠ whole) : framer.next part = .incomplete := by
  obtain ⟨more, rfl⟩ := inside
  cases next : framer.next part with
  | incomplete => rfl
  | invalid =>
    rw [framer.invalid_append part more next] at word
    cases word
  | complete other rest =>
    rw [framer.complete_append part other rest more next, Frame.complete.injEq] at word
    obtain ⟨_, none⟩ := word
    rw [(List.append_eq_nil_iff.mp none).2, List.append_nil] at proper
    exact absurd rfl proper

/-- The stream holds the first of these code words as a whole, and a proper part of the
next one. -/
inductive Words {β : Type} (framer : Framer σ α) (word : β → List σ) (value : β → α) :
    List σ → List β → Prop where
  | all (items : List β) (framed : framer.framing (items.flatMap word) = (items.map value, [])) :
      Words framer word value (items.flatMap word) items
  | part (early : List β) (item : β) (late : List β) (left : List σ)
      (inside : left <+: word item) (proper : left ≠ word item)
      (incomplete : framer.next left = .incomplete)
      (framed : framer.framing (early.flatMap word ++ left) = (early.map value, left)) :
      Words framer word value (early.flatMap word ++ left) (early ++ item :: late)

theorem words_of_prefix {β : Type} {word : β → List σ} {value : β → α} {items : List β}
    (coded : ∀ item ∈ items, framer.next (word item) = .complete (value item) [])
    {src : List σ} (front : src <+: items.flatMap word) : Words framer word value src items := by
  induction items generalizing src with
  | nil =>
    obtain rfl : src = [] := List.prefix_nil.mp front
    refine .all [] (framing_stop fun other rest complete => ?_)
    exact absurd (framer.shorter _ _ _ complete) (Nat.not_lt_zero _)
  | cons item rest ih =>
    have first := coded item List.mem_cons_self
    rw [List.flatMap_cons] at front
    have split : word item <+: src ∨ (src <+: word item ∧ src ≠ word item) := by
      by_cases same : src = word item
      · exact .inl (same ▸ List.prefix_rfl)
      · rcases List.prefix_or_prefix_of_prefix (List.prefix_append (word item) _) front with
          whole | inside
        · exact .inl whole
        · exact .inr ⟨inside, same⟩
    rcases split with whole | ⟨inside, proper⟩
    · obtain ⟨later, rfl⟩ := whole
      have next := framer.complete_append _ _ _ later first
      rw [List.nil_append] at next
      cases ih (fun other member => coded other (List.mem_cons_of_mem _ member))
        ((List.prefix_append_right_inj _).mp front) with
      | all _ framed =>
        rw [← List.flatMap_cons]
        refine .all (item :: rest) ?_
        rw [List.flatMap_cons, framing_complete next, framed, List.map_cons]
      | part early other late left inside proper incomplete framed =>
        rw [← List.append_assoc, ← List.flatMap_cons]
        refine .part (item :: early) other late left inside proper incomplete ?_
        rw [List.flatMap_cons, List.append_assoc, framing_complete next, framed, List.map_cons]
    · have incomplete := next_of_part first inside proper
      exact .part [] item rest src inside proper incomplete (framing_stop (by simp [incomplete]))

/-- The values of the stream are those of the first words, and they are all of them where the
stream is all words. -/
theorem Words.framing {β : Type} {word : β → List σ} {value : β → α} {items : List β}
    {src : List σ} (words : Words framer word value src items) :
    ∃ early late left, items = early ++ late ∧ framer.framing src = (early.map value, left) ∧
      (left = [] ∨ framer.next left = .incomplete) ∧
      (src = items.flatMap word → late = [] ∧ left = []) := by
  cases words with
  | all _ framed => exact ⟨items, [], [], by simp, framed, .inl rfl, fun _ => ⟨rfl, rfl⟩⟩
  | part early item late left inside proper incomplete framed =>
    refine ⟨early, item :: late, left, rfl, framed, .inr incomplete, fun same => ?_⟩
    rw [List.flatMap_append, List.flatMap_cons, List.append_cancel_left_eq] at same
    have short := inside.length_le
    rw [same, List.length_append] at short
    have none : late.flatMap word = [] := List.length_eq_zero_iff.mp (by omega)
    rw [none, List.append_nil] at same
    exact absurd same proper

end Framer

end MqttClient.Lib
