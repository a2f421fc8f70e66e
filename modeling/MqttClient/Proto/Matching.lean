import MqttClient.Proto.CodecSpec

/-! Which topics a filter matches: the levels of both are compared from left to right. -/

namespace MqttClient.Proto

def singleLevelMatchStr : Bytes := [singleLevelMatch]
def multiLevelMatchStr : Bytes := [multiLevelMatch]

/-- The levels between the separators, of which there is one more than separators. -/
def levels : Bytes → List Bytes
  | [] => [[]]
  | c :: rest =>
    if c = separator then [] :: levels rest
    else
      match levels rest with
      | [] => [[c]]
      | level :: others => (c :: level) :: others

def startsWithDollar (level : Bytes) : Bool := level.head? == some dollarSign

/-- The loop over the levels of the filter and of the topic. -/
def matchLevels : List Bytes → List Bytes → Bool
  | filterLevel :: filterIter, topicLevel :: topicIter =>
    if !startsWithDollar topicLevel && filterLevel == multiLevelMatchStr then true
    else if !startsWithDollar topicLevel && filterLevel == singleLevelMatchStr then
      matchLevels filterIter topicIter
    else if filterLevel ≠ topicLevel then false
    else matchLevels filterIter topicIter
  | [], [] => true
  | _, _ => false

/-- A slice of a string, whose ends have to be between characters. -/
def strRange (text : Bytes) (start stop : Nat) : Except Fault Bytes := do
  let rest ← strFrom text start
  let _ ← strFrom text stop
  if start ≤ stop then return rest.take (stop - start) else .error .panic

inductive ClassifiedFilter where
  | regular (filter : Bytes)
  | dollar (filter : Bytes)
  | shared (groupName filter : Bytes)
  deriving DecidableEq, Repr

namespace Filter

def classify (filter : Filter) : Except Fault ClassifiedFilter := do
  let text ← filter.inner.tryAsStr
  match filter.kind with
  | .regular => return .regular text
  | .dollar => return .dollar text
  | .shared index =>
    let rest ← strFrom text (index + 1)
    let groupName ← strRange text sharedSubscriptionPrefix.length index
    return .shared groupName rest

def matchesTopic (filter : Filter) (topic : Topic) : Except Fault Bool := do
  let name ← topic.inner.tryAsStr
  match ← filter.classify with
  | .dollar text | .regular text => return matchLevels (levels text) (levels name)
  | .shared _ rest => return matchLevels (levels rest) (levels name)

end Filter

/-! The relation of the standard. -/

def Wildcard (level : Bytes) : Prop := level = singleLevelMatchStr ∨ level = multiLevelMatchStr

instance (level : Bytes) : Decidable (Wildcard level) := inferInstanceAs (Decidable (_ ∨ _))

/-- Levels match one by one. A final `#` stands for any number of further levels, and also
for none, the parent level itself, if `parent` is set. -/
inductive LevelsMatch (parent : Bool) : List Bytes → List Bytes → Prop where
  | exhausted : LevelsMatch parent [] []
  | literal {level : Bytes} {filter topic : List Bytes} (plain : ¬Wildcard level)
    (rest : LevelsMatch parent filter topic) : LevelsMatch parent (level :: filter) (level :: topic)
  | single {level : Bytes} {filter topic : List Bytes} (rest : LevelsMatch parent filter topic) :
    LevelsMatch parent (singleLevelMatchStr :: filter) (level :: topic)
  | multi {topic : List Bytes} (covered : parent = true ∨ topic ≠ []) :
    LevelsMatch parent [multiLevelMatchStr] topic

/-- The levels match, and a filter that starts with a wildcard does not match a topic that
starts with a dollar sign. -/
structure TopicMatch (parent : Bool) (filter topic : Bytes) : Prop where
  levels : LevelsMatch parent (levels filter) (levels topic)
  dollar : ∀ level ∈ (Proto.levels filter).head?, Wildcard level → topic.head? ≠ some dollarSign

/-- The part of a filter that topics are matched with. -/
inductive Pattern : Bytes → Bytes → Prop where
  | shared {group filter : Bytes} (named : group ≠ []) (single : separator ∉ group) :
    Pattern (sharedSubscriptionPrefix ++ group ++ separator :: filter) filter
  | plain {filter : Bytes} (ordinary : ¬ sharedSubscriptionPrefix <+: filter) : Pattern filter filter

theorem Pattern.shape {text filter : Bytes} (part : Pattern text filter) :
    (∃ group, separator ∉ group ∧ text = sharedSubscriptionPrefix ++ (group ++ separator :: filter)) ∨
      ¬ sharedSubscriptionPrefix <+: text ∧ filter = text := by
  cases part with
  | shared named single => exact .inl ⟨_, single, List.append_assoc _ _ _⟩
  | plain ordinary => exact .inr ⟨ordinary, rfl⟩

/-- What comes after the first separator is determined by the text. -/
theorem after_separator {group other first second : Bytes} (single : separator ∉ group)
    (otherSingle : separator ∉ other)
    (same : group ++ separator :: first = other ++ separator :: second) : first = second := by
  induction group generalizing other with
  | nil =>
    cases other with
    | nil => exact (List.cons.inj same).2
    | cons c other => exact absurd (by simp [(List.cons.inj same).1]) otherSingle
  | cons c group ih =>
    cases other with
    | nil => exact absurd (by simp [(List.cons.inj same).1]) single
    | cons d other =>
      exact ih (fun inside => single (List.mem_cons_of_mem _ inside))
        (fun inside => otherSingle (List.mem_cons_of_mem _ inside)) (List.cons.inj same).2

theorem Pattern.unique {text first second : Bytes} (one : Pattern text first)
    (other : Pattern text second) : first = second := by
  rcases one.shape with ⟨group, single, rfl⟩ | ⟨ordinary, rfl⟩
  · rcases other.shape with ⟨otherGroup, otherSingle, same⟩ | ⟨ordinary, -⟩
    · rw [List.append_cancel_left_eq] at same
      exact after_separator single otherSingle same
    · exact absurd (List.prefix_append _ _) ordinary
  · rcases other.shape with ⟨group, _, rfl⟩ | ⟨_, rfl⟩
    · exact absurd (List.prefix_append _ _) ordinary
    · rfl

theorem levels_ne_nil (text : Bytes) : levels text ≠ [] := by
  cases text with
  | nil => simp [levels]
  | cons c rest =>
    rw [levels]
    split
    · simp
    · split <;> simp

theorem levels_separator (rest : Bytes) : levels (separator :: rest) = [] :: levels rest := by
  simp [levels]

theorem levels_other {c : UInt8} (other : c ≠ separator) {rest level : Bytes} {others : List Bytes}
    (split : levels rest = level :: others) : levels (c :: rest) = (c :: level) :: others := by
  simp [levels, other, split]

/-- A symbol of a level is one of the text. -/
theorem mem_of_levels {text level : Bytes} {c : UInt8} (member : level ∈ levels text)
    (inside : c ∈ level) : c ∈ text := by
  induction text generalizing level with
  | nil =>
    rw [levels, List.mem_singleton] at member
    rw [member] at inside
    cases inside
  | cons first rest ih =>
    by_cases ends : first = separator
    · subst ends
      rw [levels_separator] at member
      rcases List.mem_cons.mp member with rfl | later
      · cases inside
      · exact List.mem_cons_of_mem _ (ih later inside)
    · obtain ⟨head, others, split⟩ := List.exists_cons_of_ne_nil (levels_ne_nil rest)
      rw [levels_other ends split] at member
      rcases List.mem_cons.mp member with rfl | later
      · rcases List.mem_cons.mp inside with rfl | later
        · exact List.mem_cons_self
        · exact List.mem_cons_of_mem _ (ih (by simp [split]) later)
      · exact List.mem_cons_of_mem _ (ih (by simp [split, later]) inside)

/-- The first level starts with a dollar sign when the text does. -/
theorem startsWithDollar_levels {text level : Bytes} {others : List Bytes}
    (split : levels text = level :: others) :
    startsWithDollar level = true ↔ text.head? = some dollarSign := by
  cases text with
  | nil =>
    cases split
    simp [startsWithDollar]
  | cons c rest =>
    by_cases ends : c = separator
    · subst ends
      rw [levels_separator] at split
      cases split
      simp [startsWithDollar, separator, dollarSign]
    · obtain ⟨head, tail, inner⟩ := List.exists_cons_of_ne_nil (levels_ne_nil rest)
      rw [levels_other ends inner] at split
      cases split
      simp [startsWithDollar]

/-- No wildcard character occurs. -/
def Plain (level : Bytes) : Prop := singleLevelMatch ∉ level ∧ multiLevelMatch ∉ level

theorem Plain.not_wildcard {level : Bytes} (plain : Plain level) : ¬Wildcard level := by
  rintro (rfl | rfl)
  · exact plain.1 (by simp [singleLevelMatchStr])
  · exact plain.2 (by simp [multiLevelMatchStr])

/-- Each level is `+`, or a final `#`, or without wildcard characters. -/
def LevelRule : List Bytes → Prop
  | [] => True
  | level :: rest =>
    (level = singleLevelMatchStr ∨ level = multiLevelMatchStr ∧ rest = [] ∨ Plain level) ∧
      LevelRule rest

/-- What is to come after the characters that led to a state. -/
def Filter.ParseState.Continues : ParseState → List Bytes → Prop
  | .separator, rest => LevelRule rest
  | .literal, level :: rest => Plain level ∧ LevelRule rest
  | .single, level :: rest => level = [] ∧ LevelRule rest
  | .multiple, rest => rest = [[]]
  | _, [] => False

namespace Filter

theorem plain_cons (c : UInt8) (level : Bytes) :
    Plain (c :: level) ↔ (c ≠ singleLevelMatch ∧ c ≠ multiLevelMatch) ∧ Plain level := by
  simp only [Plain, List.mem_cons, not_or]
  exact ⟨fun ⟨⟨a, b⟩, d, e⟩ => ⟨⟨Ne.symm a, Ne.symm d⟩, b, e⟩,
    fun ⟨⟨a, d⟩, b, e⟩ => ⟨⟨Ne.symm a, b⟩, Ne.symm d, e⟩⟩

/-- The state machine accepts what is left of a filter exactly if the level rule does. -/
theorem parse_iff (filter text : Bytes) (state : ParseState) :
    parse filter state text = .ok () ↔ state.Continues (levels text) := by
  have distinct : singleLevelMatch ≠ multiLevelMatch := by decide
  induction text generalizing state with
  | nil => cases state <;> simp [parse, levels, ParseState.Continues, LevelRule, Plain]
  | cons c rest ih =>
    obtain ⟨level, others, split⟩ := List.exists_cons_of_ne_nil (levels_ne_nil rest)
    by_cases ends : c = Proto.separator
    · subst ends
      cases state <;>
        simp [parse, ih, levels_separator, ParseState.Continues, LevelRule, Plain, levels_ne_nil]
    · rw [levels_other ends split]
      have single : c :: level = singleLevelMatchStr ↔ c = singleLevelMatch ∧ level = [] := by
        simp [singleLevelMatchStr]
      have multi : c :: level = multiLevelMatchStr ↔ c = multiLevelMatch ∧ level = [] := by
        simp [multiLevelMatchStr]
      cases state with
      | multiple => simp [parse, ParseState.Continues]
      | single => simp [parse, ends, ParseState.Continues]
      | literal =>
        by_cases wild : c = singleLevelMatch ∨ c = multiLevelMatch
        · rcases wild with rfl | rfl <;> simp [parse, ends, ParseState.Continues, plain_cons]
        · simp [parse, ends, ih, split, ParseState.Continues, plain_cons, not_or.mp wild]
      | separator =>
        simp only [ParseState.Continues, LevelRule, single, multi, plain_cons]
        by_cases plus : c = singleLevelMatch
        · subst plus
          simp [parse, ends, ih, split, ParseState.Continues, distinct]
        · by_cases hash : c = multiLevelMatch
          · subst hash
            have last : level = [] ∧ others = [] ↔ (level = [] ∧ others = []) ∧ LevelRule others := by
              constructor
              · rintro ⟨rfl, rfl⟩
                exact ⟨⟨rfl, rfl⟩, trivial⟩
              · exact And.left
            simpa [parse, ends, ih, split, ParseState.Continues, distinct.symm] using last
          · simp [parse, ends, plus, hash, ih, split, ParseState.Continues]

end Filter

/-- What the loop matches is a match of the levels. -/
theorem matchLevels_sound {filter topic : List Bytes} (rule : LevelRule filter)
    (name : ∀ level ∈ topic, Plain level) (matched : matchLevels filter topic = true) :
    LevelsMatch false filter topic := by
  induction filter generalizing topic with
  | nil =>
    cases topic with
    | nil => exact .exhausted
    | cons level rest => cases matched
  | cons level filter ih =>
    cases topic with
    | nil => cases matched
    | cons other topic =>
      obtain ⟨shape, rule⟩ := rule
      have named := name other List.mem_cons_self
      have later := @ih topic rule (fun level member => name level (List.mem_cons_of_mem _ member))
      -- A wildcard opposite a dollar sign is compared as a literal, and a topic has none.
      have literal (wild : Wildcard level) : level ≠ other :=
        fun same => named.not_wildcard (same ▸ wild)
      rw [matchLevels] at matched
      rcases shape with rfl | ⟨rfl, rfl⟩ | plain
      · split at matched
        · rename_i hash
          simp [singleLevelMatchStr, multiLevelMatchStr, singleLevelMatch, multiLevelMatch] at hash
        · split at matched
          · exact .single (later matched)
          · rw [if_pos (literal (.inl rfl))] at matched
            cases matched
      · exact .multi (.inr (List.cons_ne_nil _ _))
      · obtain ⟨single, multi⟩ := not_or.mp plain.not_wildcard
        simp only [beq_iff_eq, Bool.and_eq_true, single, multi, and_false, if_false] at matched
        split at matched
        · cases matched
        · rename_i same
          obtain rfl := not_not.mp same
          exact .literal plain.not_wildcard (later matched)

/-- Where no wildcard stands opposite a level that starts with a dollar sign, the loop finds
every match of the levels. -/
theorem matchLevels_complete {filter topic : List Bytes} (same : LevelsMatch false filter topic)
    (clear : ∀ pair ∈ filter.zip topic, Wildcard pair.1 → startsWithDollar pair.2 = false) :
    matchLevels filter topic = true := by
  have distinct : singleLevelMatchStr ≠ multiLevelMatchStr := by decide
  induction same with
  | exhausted => rfl
  | @literal level filter topic plain rest ih =>
    obtain ⟨single, multi⟩ := not_or.mp plain
    simp only [matchLevels, beq_iff_eq, Bool.and_eq_true, single, multi, and_false, if_false]
    simpa using ih fun pair member => clear pair (List.mem_cons_of_mem _ member)
  | @single level filter topic rest ih =>
    have ordinary := clear (singleLevelMatchStr, level) (by simp) (.inl rfl)
    simp only [matchLevels, ordinary, distinct, beq_iff_eq, Bool.not_false, Bool.true_and,
      if_true, if_false]
    exact ih fun pair member => clear pair (List.mem_cons_of_mem _ member)
  | @multi topic covered =>
    cases topic with
    | nil => simp at covered
    | cons level topic =>
      have ordinary := clear (multiLevelMatchStr, level) (by simp) (.inr rfl)
      simp only [matchLevels, ordinary, beq_self_eq_true, Bool.not_false, Bool.true_and, if_true]

/-- No wildcard after the first level stands opposite a level that starts with a dollar
sign. -/
def Unobstructed (filter topic : Bytes) : Prop :=
  ∀ pair ∈ ((levels filter).zip (levels topic)).tail,
    Wildcard pair.1 → startsWithDollar pair.2 = false

instance (filter topic : Bytes) : Decidable (Unobstructed filter topic) :=
  inferInstanceAs (Decidable (∀ _ ∈ _, _))

/-- A filter that starts with a wildcard does not match a topic that starts with a dollar
sign. -/
private theorem matchLevels_dollar {filter topic first : Bytes} {filterRest : List Bytes}
    (split : levels filter = first :: filterRest) (wild : Wildcard first)
    (special : topic.head? = some dollarSign) :
    matchLevels (levels filter) (levels topic) = false := by
  obtain ⟨level, topicRest, topicSplit⟩ := List.exists_cons_of_ne_nil (levels_ne_nil topic)
  have special := (startsWithDollar_levels topicSplit).mpr special
  have differs : first ≠ level := by
    rintro rfl
    rcases wild with rfl | rfl <;> exact absurd special (by decide)
  rw [split, topicSplit, matchLevels]
  simp [special, differs]

/-- What the loop matches is a match; and where nothing is obstructed it finds every match. -/
theorem matchLevels_topicMatch {filter topic : Bytes} (rule : LevelRule (levels filter))
    (name : Plain topic) :
    (matchLevels (levels filter) (levels topic) = true → TopicMatch false filter topic) ∧
      (Unobstructed filter topic → TopicMatch false filter topic →
        matchLevels (levels filter) (levels topic) = true) := by
  obtain ⟨first, filterRest, filterSplit⟩ := List.exists_cons_of_ne_nil (levels_ne_nil filter)
  obtain ⟨level, topicRest, topicSplit⟩ := List.exists_cons_of_ne_nil (levels_ne_nil topic)
  have names : ∀ level ∈ levels topic, Plain level := fun level member =>
    ⟨fun inside => name.1 (mem_of_levels member inside),
      fun inside => name.2 (mem_of_levels member inside)⟩
  constructor
  · intro matched
    refine ⟨matchLevels_sound rule names matched, fun other found wild special => ?_⟩
    rw [filterSplit, List.head?_cons, Option.mem_some_iff] at found
    simp [matchLevels_dollar filterSplit (found ▸ wild) special] at matched
  · intro clear same
    apply matchLevels_complete same.levels
    intro pair member wild
    rw [Unobstructed, filterSplit, topicSplit] at clear
    rw [filterSplit, topicSplit] at member
    rcases List.mem_cons.mp member with rfl | later
    · refine Bool.eq_false_iff.mpr fun special => ?_
      exact same.dollar first (by simp [filterSplit]) wild
        ((startsWithDollar_levels topicSplit).mp special)
    · exact clear pair later wild

theorem sliceFrom_ok {bytes rest : Bytes} {index : Nat} (sliced : sliceFrom bytes index = .ok rest) :
    index ≤ bytes.length ∧ rest = bytes.drop index := by
  unfold sliceFrom at sliced
  split at sliced
  · rename_i inside
    cases sliced
    exact ⟨inside, rfl⟩
  · cases sliced

theorem strFrom_ok {text rest : Bytes} {index : Nat} (sliced : strFrom text index = .ok rest) :
    rest = text.drop index := by
  simp only [strFrom, bind, Except.bind] at sliced
  split at sliced
  · cases sliced
  · rename_i tail found
    obtain ⟨-, rfl⟩ := sliceFrom_ok found
    split at sliced
    · cases sliced
      rfl
    · split at sliced
      · cases sliced
      · cases sliced
        rfl

/-- A slice that starts at a character. -/
theorem strFrom_append {front : Bytes} {byte : UInt8} {rest : Bytes}
    (start : isContinuation byte = false) :
    strFrom (front ++ byte :: rest) front.length = .ok (byte :: rest) := by
  simp [strFrom, sliceFrom, bind, Except.bind, start, pure, Except.pure]

theorem decodeUtf8_start {byte : UInt8} {rest : Bytes} {decoded : Char × Nat}
    (found : decodeUtf8 (byte :: rest) = some decoded) : isContinuation byte = false := by
  have inside : ∀ n : Fin 256, isContinuation (.ofFin n) = true →
      ¬ UInt8.ofFin n < 0x80 ∧ UInt8.ofFin n < 0xC2 := by decide +kernel
  by_cases continued : isContinuation byte = true
  · obtain ⟨high, low⟩ := inside byte.toFin continued
    have high : ¬ byte < 0x80 := high
    have low : byte < 0xC2 := low
    simp [decodeUtf8, high, low] at found
  · exact Bool.eq_false_iff.mpr continued

section

variable [UnicodeGeneralCategory]

/-- Validation goes on behind a character, and it has looked at the start of one. -/
theorem validateLoop_cons {fuel : Nat} {byte : UInt8} {rest : Bytes}
    (valid : validateLoop fuel (byte :: rest) = .ok ()) :
    isContinuation byte = false ∧
      (byte < 0x80 → ∃ fuel, validateLoop fuel rest = .ok ()) := by
  cases fuel with
  | zero => simp [validateLoop] at valid
  | succ fuel =>
    simp only [validateLoop, List.isEmpty_cons, Bool.false_eq_true, if_false] at valid
    cases found : decodeUtf8 (byte :: rest) with
    | none => simp [found] at valid
    | some decoded =>
      refine ⟨decodeUtf8_start found, fun ascii => ⟨fuel, ?_⟩⟩
      obtain ⟨c, length⟩ := decoded
      simp only [decodeUtf8, ascii, if_true, Option.some.injEq, Prod.mk.injEq] at found
      obtain ⟨-, rfl⟩ := found
      simp only [decodeUtf8, ascii, if_true] at valid
      split at valid
      · cases valid
      · split at valid
        · cases valid
        · split at valid
          · cases valid
          · simpa [sliceFrom, bind, Except.bind] using valid

omit [UnicodeGeneralCategory] in
theorem sharedSubscriptionPrefix_ascii : ∀ byte ∈ sharedSubscriptionPrefix, byte < 0x80 := by
  simp [sharedSubscriptionPrefix]

theorem validateLoop_append {front rest : Bytes} (ascii : ∀ byte ∈ front, byte < 0x80) {fuel : Nat}
    (valid : validateLoop fuel (front ++ rest) = .ok ()) :
    ∃ fuel, validateLoop fuel rest = .ok () := by
  induction front generalizing fuel with
  | nil => exact ⟨fuel, valid⟩
  | cons byte front ih =>
    obtain ⟨next, further⟩ := (validateLoop_cons valid).2 (ascii byte List.mem_cons_self)
    exact ih (fun other member => ascii other (List.mem_cons_of_mem _ member)) further

end

namespace Filter

/-- The group name ends at the first separator, and has no wildcards. -/
theorem groupNameEnd_some {inner slice : Bytes} {start index : Nat}
    (found : groupNameEnd inner start slice = .ok (some index)) :
    ∃ group rest, slice = group ++ Proto.separator :: rest ∧ index = start + group.length ∧
      Proto.separator ∉ group ∧ Plain group := by
  induction slice generalizing start with
  | nil => cases found
  | cons c slice ih =>
    simp only [groupNameEnd] at found
    split at found
    · cases found
    · rename_i plain
      split at found
      · rename_i ends
        cases found
        exact ⟨[], slice, by simp [ends], rfl, by simp, by simp [Plain]⟩
      · rename_i other
        obtain ⟨group, rest, rfl, rfl, single, named⟩ := ih found
        refine ⟨c :: group, rest, rfl, by simp only [List.length_cons]; omega, ?_, ?_⟩
        · simp only [List.mem_cons, not_or]
          exact ⟨Ne.symm other, single⟩
        · exact (plain_cons c group).mpr ⟨not_or.mp plain, named⟩

/-- The scan passes over what belongs to the name. -/
theorem groupNameEnd_front (inner : Bytes) {front : Bytes} (single : Proto.separator ∉ front)
    (plain : Plain front) (index : Nat) (rest : Bytes) :
    groupNameEnd inner index (front ++ rest) =
      groupNameEnd inner (index + front.length) rest := by
  induction front generalizing index with
  | nil => rfl
  | cons c front ih =>
    obtain ⟨wild, later⟩ := (plain_cons c front).mp plain
    rw [List.mem_cons, not_or] at single
    rw [List.cons_append, groupNameEnd, if_neg (not_or.mpr wild), if_neg (Ne.symm single.1),
      ih single.2 later, List.length_cons, Nat.add_assoc, Nat.add_comm 1]

/-- The kind of a filter, with the part that topics are matched with. -/
theorem classifyNew_ok {text pattern : Bytes} {kind : FilterKind}
    (classified : classifyNew text = .ok (kind, pattern)) :
    ((kind = .regular ∨ kind = .dollar) ∧ pattern = text ∧ ¬ sharedSubscriptionPrefix <+: text) ∨
      ∃ group, group ≠ [] ∧ Proto.separator ∉ group ∧ Plain group ∧
        text = sharedSubscriptionPrefix ++ group ++ Proto.separator :: pattern ∧
        kind = .shared (sharedSubscriptionPrefix ++ group).length ∧
        strFrom text ((sharedSubscriptionPrefix ++ group).length + 1) = .ok pattern := by
  unfold classifyNew at classified
  split at classified
  · cases classified
  · rename_i first head
    split at classified
    · split at classified
      · rename_i starts
        obtain ⟨slice, rfl⟩ := List.isPrefixOf_iff_prefix.mp starts
        simp only [List.drop_left, bind, Except.bind] at classified
        split at classified
        · cases classified
        · rename_i found ended
          split at classified
          · cases classified
          · cases classified
          · rename_i index
            split at classified
            · cases classified
            · rename_i rest sliced
              split at classified
              · cases classified
              · cases classified
                obtain ⟨group, tail, rfl, length, single, plain⟩ := groupNameEnd_some ended
                have named : group ≠ [] := by
                  rintro rfl
                  simp at length
                have size : sharedSubscriptionPrefix.length + (index + 1) =
                    (sharedSubscriptionPrefix ++ group).length := by
                  rw [List.length_append]
                  omega
                rw [size] at sliced
                have same := strFrom_ok sliced
                have whole : (sharedSubscriptionPrefix ++ (group ++ Proto.separator :: tail)).drop
                    ((sharedSubscriptionPrefix ++ group).length + 1) = tail := by
                  rw [← List.append_assoc, ← List.drop_drop, List.drop_left]
                  rfl
                rw [whole] at same
                subst same
                exact .inr ⟨group, named, single, plain, by simp, by rw [size], sliced⟩
      · rename_i other
        cases classified
        refine .inl ⟨.inr rfl, rfl, fun starts => other ?_⟩
        exact List.isPrefixOf_iff_prefix.mpr starts
    · rename_i ordinary
      cases classified
      refine .inl ⟨.inl rfl, rfl, ?_⟩
      rintro ⟨rest, rfl⟩
      simp only [sharedSubscriptionPrefix, List.cons_append, List.head?_cons,
        Option.some.injEq] at head
      exact ordinary head.symm

section

variable [UnicodeGeneralCategory]

theorem new_ok {inner : ByteStr} {filter : Filter} (created : Filter.new inner = .ok filter) :
    ∃ text pattern, inner.tryAsStr = .ok text ∧ filter.inner = inner ∧
      validateMqttString text = .ok () ∧ classifyNew text = .ok (filter.kind, pattern) ∧
      parse pattern .separator pattern = .ok () := by
  simp only [Filter.new, bind, Except.bind] at created
  split at created
  · cases created
  · rename_i text found
    split at created
    · cases created
    · split at created
      · cases created
      · split at created
        · cases created
        · rename_i valid
          split at created
          · cases created
          · rename_i classified same
            obtain ⟨kind, pattern⟩ := classified
            split at created
            · cases created
            · split at created
              · cases created
              · rename_i parsed
                cases created
                exact ⟨text, pattern, found, rfl, valid, same, parsed⟩

/-- An accepted filter is compared with topics by its pattern, and without a panic. -/
theorem matchesTopic_ok {inner : ByteStr} {filter : Filter} (created : Filter.new inner = .ok filter) :
    ∃ text pattern, inner.tryAsStr = .ok text ∧ Pattern text pattern ∧ LevelRule (levels pattern) ∧
      ∀ topic name, topic.inner.tryAsStr = .ok name →
        filter.matchesTopic topic = .ok (matchLevels (levels pattern) (levels name)) := by
  obtain ⟨text, pattern, found, same, valid, classified, parsed⟩ := new_ok created
  have rule : LevelRule (levels pattern) := (parse_iff _ _ _).mp parsed
  rcases classifyNew_ok classified with
    ⟨kind, rfl, ordinary⟩ | ⟨group, named, single, -, rfl, kind, slice⟩
  · refine ⟨pattern, pattern, found, .plain ordinary, rule, fun topic name read => ?_⟩
    rcases kind with kind | kind <;>
      simp [matchesTopic, classify, same, found, kind, read, bind, Except.bind, pure, Except.pure]
  · refine ⟨_, pattern, found, .shared named single, rule, fun topic name read => ?_⟩
    obtain ⟨byte, rest, rfl⟩ := List.exists_cons_of_ne_nil named
    -- The group name starts at a character, for the text is valid.
    have start : isContinuation byte = false := by
      rw [List.append_assoc] at valid
      obtain ⟨fuel, further⟩ := validateLoop_append sharedSubscriptionPrefix_ascii valid
      exact (validateLoop_cons further).1
    have fromGroup : strFrom (sharedSubscriptionPrefix ++ (byte :: rest) ++ Proto.separator :: pattern)
        sharedSubscriptionPrefix.length = .ok ((byte :: rest) ++ Proto.separator :: pattern) := by
      rw [List.append_assoc]
      exact strFrom_append start
    have toGroup : strFrom (sharedSubscriptionPrefix ++ (byte :: rest) ++ Proto.separator :: pattern)
        (sharedSubscriptionPrefix ++ byte :: rest).length = .ok (Proto.separator :: pattern) :=
      strFrom_append (by decide)
    have inOrder : sharedSubscriptionPrefix.length ≤ (sharedSubscriptionPrefix ++ byte :: rest).length := by
      rw [List.length_append]
      exact Nat.le_add_right _ _
    simp only [matchesTopic, classify, strRange, same, found, kind, read, slice, fromGroup, toGroup,
      inOrder, if_true, bind, Except.bind, pure, Except.pure]

end

end Filter

section

variable [UnicodeGeneralCategory]

theorem Topic.new_ok {inner : ByteStr} {topic : Topic} (created : Topic.new inner = .ok topic) :
    ∃ name, inner.tryAsStr = .ok name ∧ topic.inner = inner ∧ Plain name := by
  simp only [Topic.new, bind, Except.bind] at created
  split at created
  · cases created
  · rename_i name found
    split at created
    · cases created
    · split at created
      · cases created
      · split at created
        · cases created
        · split at created
          · cases created
          · rename_i plain
            cases created
            refine ⟨name, found, rfl, fun inside => plain ?_, fun inside => plain ?_⟩
            · exact List.any_eq_true.mpr ⟨_, inside, by decide⟩
            · exact List.any_eq_true.mpr ⟨_, inside, by decide⟩

/-- Filters match as the standard says, but that a final `#` does not stand for the parent
level itself. A shared filter matches as its pattern does. Every match that is reported is
one; where nothing is obstructed, every match is reported. -/
theorem Filter.matchesTopic_iff {inner name : ByteStr} {filter : Filter} {topic : Topic}
    {text pattern topicText : Bytes} (accepted : Filter.new inner = .ok filter)
    (valid : Topic.new name = .ok topic) (filterRead : inner.tryAsStr = .ok text)
    (topicRead : name.tryAsStr = .ok topicText) (part : Pattern text pattern) :
    ∃ answer, filter.matchesTopic topic = .ok answer ∧
      (answer = true → TopicMatch false pattern topicText) ∧
      (Unobstructed pattern topicText → (answer = true ↔ TopicMatch false pattern topicText)) := by
  obtain ⟨sameText, samePattern, found, samePart, rule, answers⟩ := matchesTopic_ok accepted
  obtain ⟨sameTopic, read, rfl, plain⟩ := Topic.new_ok valid
  cases found.symm.trans filterRead
  cases read.symm.trans topicRead
  obtain rfl := part.unique samePart
  obtain ⟨sound, complete⟩ := matchLevels_topicMatch rule plain
  exact ⟨_, answers topic topicText read, sound, fun clear => ⟨sound, complete clear⟩⟩

end

/-- The string with these bytes. -/
def byteStr (text : Bytes) : ByteStr := ⟨⟨u16ToBeBytes (.ofNat text.length) ++ text⟩⟩

/-- `sport` -/
def sport : Bytes := [0x73, 0x70, 0x6F, 0x72, 0x74]

/-- `sport/#` -/
def sportHash : Bytes := sport ++ [separator, multiLevelMatch]

/-- `$share/g/sport/#` -/
def sharedSportHash : Bytes := sharedSubscriptionPrefix ++ [0x67] ++ separator :: sportHash

/-- `sport/tennis`, but shorter -/
def sportT : Bytes := sport ++ [separator, 0x74]

theorem Filter.matchesTopic_sharedSportHash :
    Pattern sharedSportHash sportHash ∧ ∃ answer,
      (⟨byteStr sharedSportHash, .shared 8⟩ : Filter).matchesTopic ⟨byteStr sportT⟩ = .ok answer ∧
        (answer = true ↔ TopicMatch false sportHash sportT) := by
  have part : Pattern sharedSportHash sportHash := .shared (by decide) (by decide)
  obtain ⟨answer, found, _, decided⟩ := @Filter.matchesTopic_iff asciiCategory
    (byteStr sharedSportHash) (byteStr sportT) ⟨byteStr sharedSportHash, .shared 8⟩
    ⟨byteStr sportT⟩ _ _ _ rfl rfl rfl rfl part
  exact ⟨part, answer, found, decided (by decide)⟩

/-- A filter does not match the parent level of its `#`, as it would by the standard. -/
theorem Filter.matchesTopic_parent :
    @Filter.new asciiCategory (byteStr sportHash) = .ok ⟨byteStr sportHash, .regular⟩ ∧
      @Topic.new asciiCategory (byteStr sport) = .ok ⟨byteStr sport⟩ ∧
      Pattern sportHash sportHash ∧ TopicMatch true sportHash sport ∧
      (⟨byteStr sportHash, .regular⟩ : Filter).matchesTopic ⟨byteStr sport⟩ = .ok false := by
  refine ⟨rfl, rfl, .plain (by decide), ⟨?_, ?_⟩, rfl⟩
  · exact .literal (by decide) (.multi (.inl rfl))
  · intro level found wild
    decide

end MqttClient.Proto
