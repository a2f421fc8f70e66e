import Mathlib.Data.List.Basic

/-! Decoders that consume symbols from the front of a buffer. `Reads` says what a decoder
makes of an encoding, `Ensures` what its results and the symbols it used satisfy. -/

namespace MqttClient.Lib

/-- A decoder yields a value and the symbols it leaves, or a fault. -/
def Decoder (σ ε α : Type) : Type := List σ → Except ε (α × List σ)

namespace Decoder

variable {σ ε α β : Type}

instance : Monad (Decoder σ ε) where
  pure value := fun src => .ok (value, src)
  bind decoder next := fun src =>
    match decoder src with
    | .ok (value, rest) => next value rest
    | .error fault => .error fault

theorem pure_apply (value : α) (src : List σ) :
    (pure value : Decoder σ ε α) src = .ok (value, src) :=
  rfl

theorem bind_apply (decoder : Decoder σ ε α) (next : α → Decoder σ ε β) (src : List σ) :
    (decoder >>= next) src =
      match decoder src with
      | .ok (value, rest) => next value rest
      | .error fault => .error fault :=
  rfl

def fail (fault : ε) : Decoder σ ε α := fun _ => .error fault

def ofExcept : Except ε α → Decoder σ ε α
  | .ok value => pure value
  | .error fault => fail fault

/-- Decode a block of its own, whatever of it is left over. -/
def nested (decoder : Decoder σ ε α) (block : List σ) : Decoder σ ε α :=
  ofExcept ((decoder block).map Prod.fst)

/-- The symbols that are left. -/
def input : Decoder σ ε (List σ) := fun src => .ok (src, src)

def isEmpty : Decoder σ ε Bool := do
  let src ← input
  return src.isEmpty

/-- Decode items until no symbol is left. An item may depend on those before it. The fuel
of the loop is the input, so an item that consumes nothing runs into `stuck`. -/
def collectLoop (stuck : ε) (item : List α → Decoder σ ε α) :
    Nat → List α → Decoder σ ε (List α)
  | 0, seen => fun src => if src.isEmpty then .ok (seen, src) else .error stuck
  | fuel + 1, seen => fun src =>
    if src.isEmpty then .ok (seen, src)
    else
      match item seen src with
      | .ok (value, rest) => collectLoop stuck item fuel (seen ++ [value]) rest
      | .error fault => .error fault

def collect (stuck : ε) (item : List α → Decoder σ ε α) : Decoder σ ε (List α) := fun src =>
  collectLoop stuck item src.length [] src

/-- The decoder takes exactly `code`, whatever follows, for `value`. -/
def Reads (decoder : Decoder σ ε α) (code : List σ) (value : α) : Prop :=
  ∀ rest, decoder (code ++ rest) = .ok (value, rest)

/-- The decoder takes an input that is exactly `code` for `value`. -/
def ReadsAll (decoder : Decoder σ ε α) (code : List σ) (value : α) : Prop :=
  decoder code = .ok (value, [])

/-- Every result satisfies the postcondition, which also speaks of the number of symbols
used. -/
def Ensures (decoder : Decoder σ ε α) (post : α → Nat → Prop) : Prop :=
  ∀ src value rest, decoder src = .ok (value, rest) →
    ∃ used, src.length = used + rest.length ∧ post value used

theorem Reads.pure (value : α) : Reads (Pure.pure value : Decoder σ ε α) [] value :=
  fun _ => rfl

theorem Reads.bind {decoder : Decoder σ ε α} {next : α → Decoder σ ε β} {first last : List σ}
    {value : α} {result : β} (read : Reads decoder first value)
    (later : Reads (next value) last result) : Reads (decoder >>= next) (first ++ last) result := by
  intro rest
  rw [List.append_assoc, bind_apply, read]
  exact later rest

theorem Reads.bindAll {decoder : Decoder σ ε α} {next : α → Decoder σ ε β} {first last : List σ}
    {value : α} {result : β} (read : Reads decoder first value)
    (later : ReadsAll (next value) last result) :
    ReadsAll (decoder >>= next) (first ++ last) result := by
  rw [ReadsAll, bind_apply, read]
  exact later

/-- A last step that consumes nothing. -/
theorem Reads.finish {decoder : Decoder σ ε α} {next : α → Decoder σ ε β} {code : List σ}
    {value : α} {result : β} (read : Reads decoder code value)
    (later : Reads (next value) [] result) : Reads (decoder >>= next) code result := by
  simpa using read.bind later

theorem Reads.all {decoder : Decoder σ ε α} {code : List σ} {value : α}
    (read : Reads decoder code value) : ReadsAll decoder code value := by
  simpa [ReadsAll] using read []

theorem ReadsAll.finish {decoder : Decoder σ ε α} {next : α → Decoder σ ε β} {code : List σ}
    {value : α} {result : β} (read : ReadsAll decoder code value)
    (later : Reads (next value) [] result) : ReadsAll (decoder >>= next) code result := by
  rw [ReadsAll, bind_apply, read]
  exact later []

theorem Ensures.pure {post : α → Nat → Prop} {value : α} (holds : post value 0) :
    Ensures (Pure.pure value : Decoder σ ε α) post := by
  intro src result rest decoded
  rw [pure_apply] at decoded
  cases decoded
  exact ⟨0, by simp, holds⟩

theorem Ensures.fail {post : α → Nat → Prop} {fault : ε} :
    Ensures (Decoder.fail fault : Decoder σ ε α) post := by
  intro src result rest decoded
  cases decoded

theorem Ensures.bind {decoder : Decoder σ ε α} {next : α → Decoder σ ε β}
    {middle : α → Nat → Prop} {post : β → Nat → Prop} (first : Ensures decoder middle)
    (last : ∀ value used, middle value used →
      Ensures (next value) fun result more => post result (used + more)) :
    Ensures (decoder >>= next) post := by
  intro src result rest decoded
  rw [bind_apply] at decoded
  cases step : decoder src with
  | error fault => simp [step] at decoded
  | ok outcome =>
    obtain ⟨value, left⟩ := outcome
    simp only [step] at decoded
    obtain ⟨used, length, holds⟩ := first src value left step
    obtain ⟨more, later, finished⟩ := last value used holds left result rest decoded
    exact ⟨used + more, by omega, finished⟩

theorem Ensures.mono {decoder : Decoder σ ε α} {weak strong : α → Nat → Prop}
    (ensured : Ensures decoder strong) (implied : ∀ value used, strong value used → weak value used) :
    Ensures decoder weak := by
  intro src result rest decoded
  obtain ⟨used, length, holds⟩ := ensured src result rest decoded
  exact ⟨used, length, implied result used holds⟩

/-- A step that uses nothing. -/
theorem Ensures.bindExcept {outcome : Except ε α} {next : α → Decoder σ ε β}
    {post : β → Nat → Prop} (last : ∀ value, outcome = .ok value → Ensures (next value) post) :
    Ensures (Decoder.ofExcept outcome >>= next) post := by
  intro src result rest decoded
  cases outcome with
  | error fault => cases decoded
  | ok value => exact last value rfl src result rest decoded

theorem Reads.ofExcept {outcome : Except ε α} {value : α} (same : outcome = .ok value) :
    Reads (Decoder.ofExcept outcome : Decoder σ ε α) [] value := by
  rw [same]
  exact .pure value

/-- A nested block uses nothing of the input around it. -/
theorem Ensures.nested {decoder : Decoder σ ε α} {post : α → Nat → Prop}
    (ensured : Ensures decoder post) (block : List σ) :
    Ensures (Decoder.nested decoder block : Decoder σ ε α) fun value used =>
      used = 0 ∧ ∃ inner, inner ≤ block.length ∧ post value inner := by
  intro src value rest decoded
  cases ran : decoder block with
  | error fault =>
    rw [Decoder.nested, ran] at decoded
    cases decoded
  | ok outcome =>
    obtain ⟨found, left⟩ := outcome
    rw [Decoder.nested, ran] at decoded
    cases decoded
    obtain ⟨inner, length, holds⟩ := ensured block found left ran
    exact ⟨0, by simp, rfl, inner, by omega, holds⟩

/-- Looking at the input uses none of it. -/
theorem Ensures.bindInput {next : List σ → Decoder σ ε β} {post : β → Nat → Prop}
    (last : ∀ src, Ensures (next src) post) : Ensures (Decoder.input >>= next) post :=
  fun src result rest decoded => last src src result rest decoded

theorem Ensures.bindIsEmpty {next : Bool → Decoder σ ε β} {post : β → Nat → Prop}
    (last : ∀ empty, Ensures (next empty) post) : Ensures (Decoder.isEmpty >>= next) post :=
  fun src result rest decoded => last src.isEmpty src result rest decoded

theorem collectLoop_nil (stuck : ε) (item : List α → Decoder σ ε α) (fuel : Nat) (seen : List α) :
    collectLoop stuck item fuel seen [] = .ok (seen, []) := by
  cases fuel <;> simp [collectLoop]

theorem collectLoop_cons {stuck : ε} {item : List α → Decoder σ ε α} {code : List σ} {value : α}
    {seen : List α} (nonempty : code ≠ []) (read : Reads (item seen) code value) (fuel : Nat)
    (rest : List σ) :
    collectLoop stuck item (fuel + 1) seen (code ++ rest) =
      collectLoop stuck item fuel (seen ++ [value]) rest := by
  simp only [collectLoop, List.isEmpty_iff, List.append_eq_nil_iff, nonempty, false_and, if_false,
    read rest]

/-- Encodings in a row are read back as the row, if each is read after those before it. -/
theorem collectLoop_readsAll {stuck : ε} {item : List α → Decoder σ ε α} {code : α → List σ}
    (values seen : List α) (fuel : Nat) (enough : (values.flatMap code).length ≤ fuel)
    (reads : ∀ before value after, values = before ++ value :: after →
      code value ≠ [] ∧ Reads (item (seen ++ before)) (code value) value) :
    collectLoop stuck item fuel seen (values.flatMap code) = .ok (seen ++ values, []) := by
  induction values generalizing seen fuel with
  | nil => simpa using collectLoop_nil stuck item fuel seen
  | cons head tail ih =>
    obtain ⟨nonempty, read⟩ := reads [] head tail rfl
    have positive : 0 < (code head).length := List.length_pos_iff.mpr nonempty
    rw [List.flatMap_cons, List.length_append] at enough
    obtain ⟨fuel, rfl⟩ : ∃ less, fuel = less + 1 := ⟨fuel - 1, by omega⟩
    rw [List.append_nil] at read
    rw [List.flatMap_cons, collectLoop_cons nonempty read]
    have rest := ih (seen ++ [head]) fuel (by omega) (by
      intro before value after split
      simpa using reads (head :: before) value after (by simp [split]))
    simpa using rest

theorem collect_readsAll {stuck : ε} {item : List α → Decoder σ ε α} {code : α → List σ}
    (values : List α)
    (reads : ∀ before value after, values = before ++ value :: after →
      code value ≠ [] ∧ Reads (item before) (code value) value) :
    ReadsAll (collect stuck item) (values.flatMap code) values := by
  have looped : collectLoop stuck item (values.flatMap code).length [] (values.flatMap code) =
      .ok ([] ++ values, []) :=
    collectLoop_readsAll values [] _ (Nat.le_refl _) (by simpa using reads)
  simpa [ReadsAll, collect] using looped

/-- An invariant of the collected values and the symbols used, kept by each item. -/
theorem collectLoop_ensures {stuck : ε} {item : List α → Decoder σ ε α}
    {inv : List α → Nat → Prop}
    (kept : ∀ seen used, inv seen used →
      Ensures (item seen) fun value more => inv (seen ++ [value]) (used + more))
    (fuel : Nat) (seen : List α) (before : Nat) (holds : inv seen before) :
    Ensures (collectLoop stuck item fuel seen) fun values used => inv values (before + used) := by
  induction fuel generalizing seen before with
  | zero =>
    intro src values rest decoded
    simp only [collectLoop] at decoded
    split at decoded
    · cases decoded
      exact ⟨0, by simp, holds⟩
    · cases decoded
  | succ fuel ih =>
    intro src values rest decoded
    simp only [collectLoop] at decoded
    split at decoded
    · cases decoded
      exact ⟨0, by simp, holds⟩
    · cases step : item seen src with
      | error fault => simp [step] at decoded
      | ok outcome =>
        obtain ⟨value, left⟩ := outcome
        simp only [step] at decoded
        obtain ⟨used, length, next⟩ := kept seen before holds src value left step
        obtain ⟨more, later, finished⟩ := ih (seen ++ [value]) _ next left values rest decoded
        exact ⟨used + more, by omega, by simpa only [Nat.add_assoc] using finished⟩

theorem collect_ensures {stuck : ε} {item : List α → Decoder σ ε α} {inv : List α → Nat → Prop}
    (start : inv [] 0)
    (kept : ∀ seen used, inv seen used →
      Ensures (item seen) fun value more => inv (seen ++ [value]) (used + more)) :
    Ensures (collect stuck item) inv := by
  intro src values rest decoded
  simpa using collectLoop_ensures kept src.length [] 0 start src values rest decoded

/-- Each value is admitted after those before it. -/
def AdmitsAll (admits : List α → α → Prop) : List α → List α → Prop
  | _, [] => True
  | seen, value :: later => admits seen value ∧ AdmitsAll admits (seen ++ [value]) later

/-- Codes in a row are collected if their values are all admitted, and refused otherwise. -/
theorem collectLoop_codes {ι : Type} {stuck : ε} {item : List α → Decoder σ ε α}
    {admits : List α → α → Prop} {code : ι → List σ} {value : ι → α}
    (nonempty : ∀ index, code index ≠ [])
    (accepts : ∀ seen index, admits seen (value index) →
      Reads (item seen) (code index) (value index))
    (refuses : ∀ seen index, ¬ admits seen (value index) →
      ∀ rest, ∃ fault, item seen (code index ++ rest) = .error fault)
    (indices : List ι) (seen : List α) (fuel : Nat)
    (enough : (indices.flatMap code).length ≤ fuel) :
    (AdmitsAll admits seen (indices.map value) →
      collectLoop stuck item fuel seen (indices.flatMap code) =
        .ok (seen ++ indices.map value, [])) ∧
      (¬ AdmitsAll admits seen (indices.map value) →
        ∃ fault, collectLoop stuck item fuel seen (indices.flatMap code) = .error fault) := by
  induction indices generalizing seen fuel with
  | nil =>
    refine ⟨fun _ => ?_, fun refused => absurd trivial refused⟩
    simpa using collectLoop_nil stuck item fuel seen
  | cons head tail ih =>
    have positive : 0 < (code head).length := List.length_pos_iff.mpr (nonempty head)
    rw [List.flatMap_cons, List.length_append] at enough
    obtain ⟨fuel, rfl⟩ : ∃ less, fuel = less + 1 := ⟨fuel - 1, by omega⟩
    rw [List.flatMap_cons, List.map_cons, AdmitsAll]
    by_cases admitted : admits seen (value head)
    · rw [collectLoop_cons (nonempty head) (accepts seen head admitted)]
      obtain ⟨all, fails⟩ := ih (seen ++ [value head]) fuel (by omega)
      refine ⟨fun whole => ?_, fun refused => ?_⟩
      · simpa using all whole.2
      · apply fails
        intro later
        exact refused ⟨admitted, later⟩
    · refine ⟨fun whole => absurd whole.1 admitted, fun _ => ?_⟩
      obtain ⟨fault, failed⟩ := refuses seen head admitted (tail.flatMap code)
      refine ⟨fault, ?_⟩
      simp only [collectLoop, List.isEmpty_iff, List.append_eq_nil_iff, nonempty head, false_and,
        if_false, failed]

/-- What the decoder makes of an input that starts with `code` does not depend on the rest,
of which it takes nothing. -/
def Settles (decoder : Decoder σ ε α) (code : List σ) : Prop :=
  ∃ outcome : Except ε α, ∀ rest, decoder (code ++ rest) = outcome.map fun value => (value, rest)

theorem Reads.settles {decoder : Decoder σ ε α} {code : List σ} {value : α}
    (read : Reads decoder code value) : Settles decoder code :=
  ⟨.ok value, read⟩

theorem Settles.pure (value : α) : Settles (Pure.pure value : Decoder σ ε α) [] :=
  (Reads.pure value).settles

theorem Settles.fail (fault : ε) (code : List σ) :
    Settles (Decoder.fail fault : Decoder σ ε α) code :=
  ⟨.error fault, fun _ => rfl⟩

theorem Settles.ofExcept (outcome : Except ε α) :
    Settles (Decoder.ofExcept outcome : Decoder σ ε α) [] := by
  cases outcome with
  | ok value => exact .pure value
  | error fault => exact .fail fault []

theorem Settles.bind {decoder : Decoder σ ε α} {next : α → Decoder σ ε β} {first last : List σ}
    (settled : Settles decoder first) (later : ∀ value, Settles (next value) last) :
    Settles (decoder >>= next) (first ++ last) := by
  obtain ⟨outcome, same⟩ := settled
  cases outcome with
  | error fault =>
    refine ⟨.error fault, fun rest => ?_⟩
    rw [List.append_assoc, bind_apply, same]
    rfl
  | ok value =>
    obtain ⟨result, ends⟩ := later value
    refine ⟨result, fun rest => ?_⟩
    rw [List.append_assoc, bind_apply, same]
    exact ends rest

/-- A last step that looks at nothing. -/
theorem Settles.finish {decoder : Decoder σ ε α} {next : α → Decoder σ ε β} {code : List σ}
    (settled : Settles decoder code) (later : ∀ value, Settles (next value) []) :
    Settles (decoder >>= next) code := by
  simpa using settled.bind later

/-- The decoder makes the same of both inputs, up to the fault that it ends with. -/
def Alike (decoder : Decoder σ ε α) (first second : List σ) : Prop :=
  (decoder first).toOption = (decoder second).toOption

theorem Alike.fail {fault : ε} {first second : List σ} :
    Alike (Decoder.fail fault : Decoder σ ε α) first second :=
  rfl

theorem Alike.bind {decoder : Decoder σ ε α} {next : α → Decoder σ ε β} {first second : List σ}
    (alike : Alike decoder first second) : Alike (decoder >>= next) first second := by
  unfold Alike at alike ⊢
  rw [bind_apply, bind_apply]
  cases left : decoder first with
  | error fault =>
    cases right : decoder second with
    | error other => rfl
    | ok outcome =>
      rw [left, right] at alike
      cases alike
  | ok outcome =>
    cases right : decoder second with
    | error other =>
      rw [left, right] at alike
      cases alike
    | ok other =>
      rw [left, right] at alike
      cases alike
      rfl

/-- Inputs that differ only behind what a decoder takes. -/
theorem Alike.behind {decoder : Decoder σ ε α} {next : α → Decoder σ ε β} {code : List σ}
    (settled : Settles decoder code) {first second : List σ}
    (later : ∀ value, Alike (next value) first second) :
    Alike (decoder >>= next) (code ++ first) (code ++ second) := by
  obtain ⟨outcome, same⟩ := settled
  unfold Alike at later ⊢
  rw [bind_apply, bind_apply, same, same]
  cases outcome with
  | error fault => rfl
  | ok value => exact later value

/-- Inputs that differ only behind the code of a value. -/
theorem Alike.read {decoder : Decoder σ ε α} {next : α → Decoder σ ε β} {code : List σ} {value : α}
    (read : Reads decoder code value) {first second : List σ}
    (later : Alike (next value) first second) :
    Alike (decoder >>= next) (code ++ first) (code ++ second) := by
  unfold Alike at later ⊢
  rw [bind_apply, bind_apply, read, read]
  exact later

theorem Alike.map_fst {decoder : Decoder σ ε α} {first second : List σ}
    (alike : Alike decoder first second) :
    ((decoder first).map Prod.fst).toOption = ((decoder second).map Prod.fst).toOption := by
  have commutes (outcome : Except ε (α × List σ)) :
      (outcome.map Prod.fst).toOption = outcome.toOption.map Prod.fst := by
    cases outcome <;> rfl
  rw [commutes, commutes, alike]

theorem Alike.bindIsEmpty {next : Bool → Decoder σ ε β} {first second : List σ}
    (some : first ≠ []) (other : second ≠ []) (later : Alike (next false) first second) :
    Alike (Decoder.isEmpty >>= next) first second := by
  have left : first.isEmpty = false := by simpa using some
  have right : second.isEmpty = false := by simpa using other
  unfold Alike at later ⊢
  simpa only [bind_apply, Decoder.isEmpty, Decoder.input, pure_apply, left, right] using later

/-- No input makes the decoder end with a fault of this kind. -/
def Avoids (decoder : Decoder σ ε α) (bad : ε → Prop) : Prop :=
  ∀ src fault, decoder src = .error fault → ¬ bad fault

section Avoids

variable {bad : ε → Prop}

theorem Avoids.pure (value : α) : Avoids (Pure.pure value : Decoder σ ε α) bad := by
  intro src fault failed
  cases failed

theorem Avoids.fail {fault : ε} (fine : ¬ bad fault) :
    Avoids (Decoder.fail fault : Decoder σ ε α) bad := by
  intro src other failed
  cases failed
  exact fine

theorem Avoids.bind {decoder : Decoder σ ε α} {next : α → Decoder σ ε β}
    (first : Avoids decoder bad) (last : ∀ value, Avoids (next value) bad) :
    Avoids (decoder >>= next) bad := by
  intro src fault failed
  rw [bind_apply] at failed
  cases step : decoder src with
  | error other =>
    simp only [step] at failed
    cases failed
    exact first src _ step
  | ok outcome =>
    obtain ⟨value, rest⟩ := outcome
    simp only [step] at failed
    exact last value rest fault failed

/-- What is known of a value helps the steps behind it. -/
theorem Avoids.bindEnsured {decoder : Decoder σ ε α} {next : α → Decoder σ ε β}
    {post : α → Nat → Prop} (first : Avoids decoder bad) (ensured : Ensures decoder post)
    (last : ∀ value used, post value used → Avoids (next value) bad) :
    Avoids (decoder >>= next) bad := by
  intro src fault failed
  rw [bind_apply] at failed
  cases step : decoder src with
  | error other =>
    simp only [step] at failed
    cases failed
    exact first src _ step
  | ok outcome =>
    obtain ⟨value, rest⟩ := outcome
    simp only [step] at failed
    obtain ⟨used, -, holds⟩ := ensured src value rest step
    exact last value used holds rest fault failed

theorem Avoids.ofExcept {outcome : Except ε α} (fine : ∀ fault, outcome = .error fault → ¬ bad fault) :
    Avoids (Decoder.ofExcept outcome : Decoder σ ε α) bad := by
  intro src fault failed
  cases outcome with
  | error other =>
    cases failed
    exact fine _ rfl
  | ok value => cases failed

theorem Avoids.nested {decoder : Decoder σ ε α} (avoids : Avoids decoder bad) (block : List σ) :
    Avoids (Decoder.nested decoder block : Decoder σ ε α) bad := by
  intro src fault failed
  cases ran : decoder block with
  | error other =>
    rw [Decoder.nested, ran] at failed
    cases failed
    exact avoids block _ ran
  | ok outcome =>
    rw [Decoder.nested, ran] at failed
    cases failed

theorem Avoids.bindIsEmpty {next : Bool → Decoder σ ε β} (last : ∀ empty, Avoids (next empty) bad) :
    Avoids (Decoder.isEmpty >>= next) bad :=
  fun src fault failed => last src.isEmpty src fault failed

theorem Avoids.bindInput {next : List σ → Decoder σ ε β} (last : ∀ src, Avoids (next src) bad) :
    Avoids (Decoder.input >>= next) bad :=
  fun src fault failed => last src src fault failed

/-- Items that use something are collected without getting stuck. -/
theorem Avoids.collectLoop {stuck : ε} {item : List α → Decoder σ ε α}
    (items : ∀ seen, Avoids (item seen) bad)
    (progress : ∀ seen, Ensures (item seen) fun _ used => 0 < used)
    (fuel : Nat) (seen : List α) {src : List σ} (enough : src.length ≤ fuel) {fault : ε}
    (failed : collectLoop stuck item fuel seen src = .error fault) : ¬ bad fault := by
  induction fuel generalizing seen src with
  | zero =>
    rw [List.length_eq_zero_iff.mp (Nat.le_zero.mp enough), collectLoop_nil] at failed
    cases failed
  | succ fuel ih =>
    simp only [Decoder.collectLoop] at failed
    split at failed
    · cases failed
    · cases step : item seen src with
      | error other =>
        simp only [step] at failed
        cases failed
        exact items seen src _ step
      | ok outcome =>
        obtain ⟨value, rest⟩ := outcome
        simp only [step] at failed
        obtain ⟨used, length, positive⟩ := progress seen src value rest step
        exact ih (seen ++ [value]) (by omega) failed

theorem Avoids.collect {stuck : ε} {item : List α → Decoder σ ε α}
    (items : ∀ seen, Avoids (item seen) bad)
    (progress : ∀ seen, Ensures (item seen) fun _ used => 0 < used) :
    Avoids (Decoder.collect stuck item) bad :=
  fun src _ failed => Avoids.collectLoop items progress src.length [] (Nat.le_refl _) failed

end Avoids

end Decoder

end MqttClient.Lib
