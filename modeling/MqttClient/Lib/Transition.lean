import Mathlib.Data.List.Induction

/-! Runs of a machine whose step may fail, with the induction rules for
invariants of every reached state. -/

namespace Transition

variable {State Event Fault : Type} (step : State → Event → Except Fault State)

/-- Execute a list of events; the first failing step ends the run. -/
def exec : State → List Event → Except Fault State
  | state, [] => .ok state
  | state, event :: rest =>
    match step state event with
    | .ok next => exec next rest
    | .error fault => .error fault

/-- A condition on every step of a run, read at the state the step starts from. -/
def Along (condition : State → Event → Prop) : State → List Event → Prop
  | _, [] => True
  | state, event :: rest => condition state event ∧
      ∀ next, step state event = .ok next → Along condition next rest

/-- A history variable beside the state of a run: what an observer of its steps has noted. -/
def observe {History : Type} (note : State → Event → State → History → History) :
    State → History → List Event → History
  | _, history, [] => history
  | state, history, event :: rest =>
    match step state event with
    | .ok next => observe note next (note state event next history) rest
    | .error _ => history

variable {step}

@[simp] theorem exec_nil (state : State) : exec step state [] = .ok state := rfl

theorem exec_cons_ok {state next : State} {event : Event} (stepped : step state event = .ok next)
    (rest : List Event) : exec step state (event :: rest) = exec step next rest := by
  simp [exec, stepped]

theorem exec_append {start middle : State} {early : List Event}
    (first : exec step start early = .ok middle) (late : List Event) :
    exec step start (early ++ late) = exec step middle late := by
  induction early generalizing start with
  | nil =>
    cases first
    rfl
  | cons event rest ih =>
    simp only [List.cons_append, exec] at first ⊢
    cases stepped : step start event with
    | error fault => simp [stepped] at first
    | ok next =>
      simp only [stepped] at first ⊢
      exact ih first

/-- A completed run has completed on each of its prefixes. -/
theorem exec_append_ok {start final : State} {early late : List Event}
    (ran : exec step start (early ++ late) = .ok final) :
    ∃ middle, exec step start early = .ok middle ∧ exec step middle late = .ok final := by
  induction early generalizing start with
  | nil => exact ⟨start, rfl, ran⟩
  | cons event rest ih =>
    simp only [List.cons_append, exec] at ran ⊢
    cases stepped : step start event with
    | error fault => simp [stepped] at ran
    | ok next =>
      simp only [stepped] at ran ⊢
      exact ih ran

theorem exec_snoc {start middle final : State} {early : List Event} {event : Event}
    (first : exec step start early = .ok middle) (stepped : step middle event = .ok final) :
    exec step start (early ++ [event]) = .ok final := by
  rw [exec_append first, exec_cons_ok stepped]
  rfl

theorem exec_snoc_ok {start final : State} {early : List Event} {event : Event}
    (ran : exec step start (early ++ [event]) = .ok final) :
    ∃ middle, exec step start early = .ok middle ∧ step middle event = .ok final := by
  obtain ⟨middle, first, last⟩ := exec_append_ok ran
  refine ⟨middle, first, ?_⟩
  cases stepped : step middle event with
  | error fault => simp [exec, stepped] at last
  | ok next => simpa [exec, stepped] using last

/-- A failed run has completed up to the step that failed. -/
theorem exec_error {start : State} {fault : Fault} {events : List Event}
    (failed : exec step start events = .error fault) :
    ∃ early event middle, exec step start early = .ok middle ∧ step middle event = .error fault := by
  induction events generalizing start with
  | nil => cases failed
  | cons event rest ih =>
    simp only [exec] at failed
    cases stepped : step start event with
    | error other =>
      simp only [stepped] at failed
      exact ⟨[], event, start, rfl, failed ▸ stepped⟩
    | ok next =>
      simp only [stepped] at failed
      obtain ⟨early, last, middle, ran, ends⟩ := ih failed
      exact ⟨event :: early, last, middle, by rw [exec_cons_ok stepped, ran], ends⟩

theorem Along.cons_ok {condition : State → Event → Prop} {state next : State} {event : Event}
    {rest : List Event} (stepped : step state event = .ok next) :
    Along step condition state (event :: rest) ↔
      condition state event ∧ Along step condition next rest := by
  simp [Along, stepped]

theorem Along.append {condition : State → Event → Prop} {start middle : State}
    {early late : List Event} (first : exec step start early = .ok middle) :
    Along step condition start (early ++ late) ↔
      Along step condition start early ∧ Along step condition middle late := by
  induction early generalizing start with
  | nil =>
    cases first
    simp [Along]
  | cons event rest ih =>
    simp only [exec] at first
    cases stepped : step start event with
    | error fault => simp [stepped] at first
    | ok next =>
      simp only [stepped] at first
      simp only [List.cons_append, Along, stepped, Except.ok.injEq, forall_eq', ih first, and_assoc]

/-- The condition of a run at its last step. -/
theorem Along.last {condition : State → Event → Prop} {start middle : State}
    {early : List Event} {event : Event} (first : exec step start early = .ok middle)
    (along : Along step condition start (early ++ [event])) :
    Along step condition start early ∧ condition middle event := by
  obtain ⟨before, after⟩ := (Along.append first).mp along
  exact ⟨before, after.1⟩

/-- What holds at the start and survives every step that meets the condition
holds at the end of every run whose steps meet it. The run so far is visible
to the invariant. -/
theorem exec_induction (Inv : List Event → State → Prop) {condition : State → Event → Prop}
    {start : State} (initial : Inv [] start)
    (preserved : ∀ events state event next, exec step start events = .ok state →
      Inv events state → condition state event → step state event = .ok next →
      Inv (events ++ [event]) next)
    {events : List Event} {final : State} (along : Along step condition start events)
    (ran : exec step start events = .ok final) : Inv events final := by
  induction events using List.reverseRecOn generalizing final with
  | nil =>
    cases ran
    exact initial
  | append_singleton early event ih =>
    obtain ⟨middle, first, last⟩ := exec_snoc_ok ran
    obtain ⟨before, here⟩ := along.last first
    exact preserved early middle event final first (ih before first) here last

theorem along_of_forall {condition : State → Event → Prop} (always : ∀ state event, condition state event)
    (start : State) (events : List Event) : Along step condition start events := by
  induction events generalizing start with
  | nil => trivial
  | cons event rest ih => exact ⟨always start event, fun next _ => ih next⟩

/-- State invariants under a condition on the steps. -/
theorem exec_invariant (Inv : State → Prop) {condition : State → Event → Prop} {start : State}
    (initial : Inv start)
    (preserved : ∀ state event next, Inv state → condition state event →
      step state event = .ok next → Inv next)
    {events : List Event} {final : State} (along : Along step condition start events)
    (ran : exec step start events = .ok final) : Inv final :=
  exec_induction (fun _ state => Inv state) initial
    (fun _ state event next _ valid here stepped => preserved state event next valid here stepped)
    along ran

/-- State invariants of every run. -/
theorem exec_always (Inv : State → Prop) {start : State} (initial : Inv start)
    (preserved : ∀ state event next, Inv state → step state event = .ok next → Inv next)
    {events : List Event} {final : State} (ran : exec step start events = .ok final) : Inv final :=
  exec_invariant Inv initial
    (fun state event next valid _ stepped => preserved state event next valid stepped)
    (along_of_forall (fun _ _ => trivial) start events) ran

/-- Invariants that tie a state to the history noted so far. -/
theorem observe_always {History : Type} {note : State → Event → State → History → History}
    (Inv : State → History → Prop)
    (preserved : ∀ state history event next, Inv state history → step state event = .ok next →
      Inv next (note state event next history))
    {start final : State} {history : History} (initial : Inv start history)
    {events : List Event} (ran : exec step start events = .ok final) :
    Inv final (observe step note start history events) := by
  induction events generalizing start history with
  | nil =>
    cases ran
    exact initial
  | cons event rest ih =>
    simp only [exec] at ran
    cases stepped : step start event with
    | error fault => simp [stepped] at ran
    | ok next =>
      simp only [stepped] at ran
      simp only [observe, stepped]
      exact ih (preserved start history event next initial stepped) ran

/-- Where every step that is not yet done lowers a measure, the same event over and over leads
to a state that is done. -/
theorem exec_drains {event : Event} {measure : State → Nat} {Inv Done : State → Prop}
    (progress : ∀ state, Inv state → Done state ∨
      ∃ next, step state event = .ok next ∧ Inv next ∧ measure next < measure state)
    {start : State} (initial : Inv start) :
    ∃ count final, count ≤ measure start ∧
      exec step start (List.replicate count event) = .ok final ∧ Done final := by
  induction bound : measure start using Nat.strongRecOn generalizing start with
  | ind size ih =>
    rcases progress start initial with done | ⟨next, stepped, valid, lower⟩
    · exact ⟨0, start, Nat.zero_le _, rfl, done⟩
    · obtain ⟨count, final, few, ran, done⟩ := ih (measure next) (bound ▸ lower) valid rfl
      refine ⟨count + 1, final, by omega, ?_, done⟩
      rw [List.replicate_succ, exec_cons_ok stepped]
      exact ran

/-- When the condition is what a step needs to keep the invariant, and to reach the goal
that the invariant implies, a completed run reaches the goal in all its states exactly if all
its steps meet the condition. What is assumed of every step may be used throughout. -/
theorem along_iff_goal_assuming (Inv Goal : State → Prop) {assumed condition : State → Event → Prop}
    (kept : ∀ state event next, Inv state → assumed state event → condition state event →
      step state event = .ok next → Inv next)
    (needed : ∀ state event next, Inv state → step state event = .ok next → Goal next →
      condition state event)
    (enough : ∀ state, Inv state → Goal state)
    {start final : State} (initial : Inv start) {events : List Event}
    (given : Along step assumed start events) (ran : exec step start events = .ok final) :
    (∀ early late middle, events = early ++ late → exec step start early = .ok middle →
      Goal middle) ↔ Along step condition start events := by
  induction events generalizing start with
  | nil =>
    refine ⟨fun _ => trivial, fun _ early late middle split first => ?_⟩
    obtain ⟨rfl, rfl⟩ := List.append_eq_nil_iff.mp split.symm
    cases first
    exact enough start initial
  | cons event rest ih =>
    simp only [exec] at ran
    cases stepped : step start event with
    | error fault => simp [stepped] at ran
    | ok next =>
      simp only [stepped] at ran
      have later := given.2 next stepped
      constructor
      · intro everywhere
        have here : condition start event := by
          refine needed start event next initial stepped (everywhere [event] rest next rfl ?_)
          rw [exec_cons_ok stepped]
          rfl
        refine ⟨here, ?_⟩
        intro other same
        obtain rfl := Except.ok.inj (stepped.symm.trans same)
        refine (ih (kept start event next initial given.1 here stepped) later ran).mp
          fun early late middle split first => ?_
        exact everywhere (event :: early) late middle (by rw [split]; rfl)
          (by rw [exec_cons_ok stepped]; exact first)
      · rintro ⟨here, along⟩ early late middle split first
        cases early with
        | nil =>
          cases first
          exact enough start initial
        | cons other early =>
          simp only [List.cons_append, List.cons.injEq] at split
          obtain ⟨rfl, split⟩ := split
          rw [exec_cons_ok stepped] at first
          exact (ih (kept start event next initial given.1 here stepped) later ran).mpr
            (along next stepped) early late middle split first

theorem along_iff_goal (Inv Goal : State → Prop) {condition : State → Event → Prop}
    (kept : ∀ state event next, Inv state → condition state event →
      step state event = .ok next → Inv next)
    (needed : ∀ state event next, Inv state → step state event = .ok next → Goal next →
      condition state event)
    (enough : ∀ state, Inv state → Goal state)
    {start final : State} (initial : Inv start) {events : List Event}
    (ran : exec step start events = .ok final) :
    (∀ early late middle, events = early ++ late → exec step start early = .ok middle →
      Goal middle) ↔ Along step condition start events :=
  along_iff_goal_assuming Inv Goal
    (fun state event next valid _ here stepped => kept state event next valid here stepped)
    needed enough initial (along_of_forall (fun _ _ => trivial) start events) ran

/-- When a step keeps the invariant exactly if it meets the condition, a completed run
satisfies the invariant in all its states exactly if all its steps meet the condition. -/
theorem along_iff_invariant (Inv : State → Prop) {condition : State → Event → Prop}
    (exact : ∀ state event next, Inv state → step state event = .ok next →
      (Inv next ↔ condition state event))
    {start final : State} (initial : Inv start) {events : List Event}
    (ran : exec step start events = .ok final) :
    (∀ early late middle, events = early ++ late → exec step start early = .ok middle →
      Inv middle) ↔ Along step condition start events :=
  along_iff_goal Inv Inv
    (fun state event next valid here stepped => (exact state event next valid stepped).mpr here)
    (fun state event next valid stepped => (exact state event next valid stepped).mp)
    (fun _ => id) initial ran

end Transition
