import MqttClient.Api.Characters
import MqttClient.Api.Conversion
import MqttClient.Proto.Total

/-! Topic filters as strings: which strings are filters, and what the filter inside a shared
subscription is. -/

namespace MqttClient.Api

open Proto

theorem asBytes_utf8 (text : String) : asBytes text = utf8 text.toList := asBytes_eq text

theorem levels_append {front : Bytes} (single : separator ∉ front) (rest : Bytes) :
    levels (front ++ rest) = (levels rest).modifyHead (front ++ ·) := by
  induction front with
  | nil =>
    rw [List.nil_append]
    cases levels rest <;> rfl
  | cons c front ih =>
    rw [List.mem_cons, not_or] at single
    obtain ⟨level, others, split⟩ := List.exists_cons_of_ne_nil (levels_ne_nil rest)
    rw [List.cons_append, levels_other (Ne.symm single.1) (by rw [ih single.2, split]; rfl), split]
    rfl

/-- The levels of a text are those between its separating characters. -/
theorem levels_utf8 (chars : List Char) : levels (utf8 chars) = (chars.splitOn '/').map utf8 := by
  induction chars with
  | nil => rfl
  | cons c chars ih =>
    obtain ⟨level, others, split⟩ :=
      List.exists_cons_of_ne_nil (List.splitOn_ne_nil '/' chars)
    rw [List.splitOn_cons_eq_if_modifyHead]
    by_cases ends : c = '/'
    · subst ends
      rw [beq_self_eq_true, if_pos rfl, List.map_cons, ← ih]
      exact levels_separator (utf8 chars)
    · have other : separator ∉ String.utf8EncodeChar c := by
        intro inside
        have alone := encodeChar_ascii inside (by decide)
        exact ends (encodeChar_injective (alone.trans (by decide)))
      rw [if_neg (by simpa using ends), utf8_cons, levels_append other, ih, split]
      rfl

/-- The bytes of a character that is none of these three are none of theirs. -/
theorem encodeChar_ordinary {c : Char} (ends : c ≠ '/') (plus : c ≠ '+') (hash : c ≠ '#') :
    separator ∉ String.utf8EncodeChar c ∧ Plain (String.utf8EncodeChar c) := by
  have other {d : Char} {byte : UInt8} (single : String.utf8EncodeChar d = [byte])
      (ascii : byte.toNat < 0x80) (differs : c ≠ d) : byte ∉ String.utf8EncodeChar c := by
    intro inside
    exact differs (encodeChar_injective ((encodeChar_ascii inside ascii).trans single.symm))
  exact ⟨other (d := '/') (by decide) (by decide) ends,
    other (d := '+') (by decide) (by decide) plus, other (d := '#') (by decide) (by decide) hash⟩

/-- The transitions of the state machine, character by character. -/
def parseChars (filter : Bytes) : Filter.ParseState → List Char → Except Fault Unit
  | _, [] => .ok ()
  | .multiple, _ :: _ => .error (.error (.invalidFilter filter))
  | state, c :: rest =>
    if c = '/' then parseChars filter .separator rest
    else
      match state with
      | .separator =>
        if c = '+' then parseChars filter .single rest
        else if c = '#' then parseChars filter .multiple rest
        else parseChars filter .literal rest
      | .literal =>
        if c = '+' ∨ c = '#' then .error (.error (.invalidFilter filter))
        else parseChars filter .literal rest
      | _ => .error (.error (.invalidFilter filter))

theorem parse_literal (filter : Bytes) {front : Bytes} (single : separator ∉ front)
    (plain : Plain front) (rest : Bytes) :
    Filter.parse filter .literal (front ++ rest) = Filter.parse filter .literal rest := by
  induction front with
  | nil => rfl
  | cons c front ih =>
    obtain ⟨wild, later⟩ := (Filter.plain_cons c front).mp plain
    rw [List.mem_cons, not_or] at single
    rw [List.cons_append, Filter.parse]
    simp only [Ne.symm single.1, wild.1, wild.2, or_self, if_false]
    exact ih single.2 later

/-- The loop over the bytes is the loop over the characters. -/
theorem parse_utf8 (filter : Bytes) (state : Filter.ParseState) (chars : List Char) :
    Filter.parse filter state (utf8 chars) = parseChars filter state chars := by
  induction chars generalizing state with
  | nil => cases state <;> rfl
  | cons c chars ih =>
    rw [utf8_cons]
    by_cases ends : c = '/'
    · subst ends
      cases state with
      | multiple => rfl
      | _ => exact ih .separator
    · by_cases plus : c = '+'
      · subst plus
        cases state with
        | separator => exact ih .single
        | _ => rfl
      · by_cases hash : c = '#'
        · subst hash
          cases state with
          | separator => exact ih .multiple
          | _ => rfl
        · obtain ⟨single, plain⟩ := encodeChar_ordinary ends plus hash
          obtain ⟨first, more, split⟩ := List.exists_cons_of_ne_nil
            (String.utf8EncodeChar_ne_nil : String.utf8EncodeChar c ≠ [])
          rw [split] at single plain ⊢
          obtain ⟨wild, later⟩ := (Filter.plain_cons first more).mp plain
          rw [List.mem_cons, not_or] at single
          have behind := parse_literal filter single.2 later (utf8 chars)
          rw [ih .literal] at behind
          cases state <;>
            simp only [List.cons_append, Filter.parse, parseChars, Ne.symm single.1, wild.1, wild.2,
              ends, plus, hash, or_self, if_false, behind]

/-- The scan for the end of the group name, by the byte index of each character. -/
def groupNameEndChars (inner : Bytes) (index : Nat) : List Char → Except Fault (Option Nat)
  | [] => .ok none
  | c :: rest =>
    if c = '+' ∨ c = '#' then .error (.error (.invalidFilter inner))
    else if c = '/' then .ok (some index)
    else groupNameEndChars inner (index + c.utf8Size) rest

theorem groupNameEnd_utf8 (inner : Bytes) (index : Nat) (chars : List Char) :
    Filter.groupNameEnd inner index (utf8 chars) = groupNameEndChars inner index chars := by
  induction chars generalizing index with
  | nil => rfl
  | cons c chars ih =>
    rw [utf8_cons, groupNameEndChars]
    by_cases wild : c = '+' ∨ c = '#'
    · rw [if_pos wild]
      rcases wild with rfl | rfl <;> rfl
    · rw [if_neg wild]
      by_cases ends : c = '/'
      · subst ends
        rfl
      · obtain ⟨plus, hash⟩ := not_or.mp wild
        obtain ⟨single, plain⟩ := encodeChar_ordinary ends plus hash
        rw [if_neg ends, Filter.groupNameEnd_front inner single plain, String.length_utf8EncodeChar, ih]

/-- Between the separators stands a `+`, or a `#` at the end, or neither of the two. -/
def FilterLevels (filter : List Char) : Prop :=
  ∀ before level after, filter.splitOn '/' = before ++ level :: after →
    level = ['+'] ∨ level = ['#'] ∧ after = [] ∨ '+' ∉ level ∧ '#' ∉ level

theorem levelRule_iff (levels : List Bytes) :
    LevelRule levels ↔ ∀ before level after, levels = before ++ level :: after →
      level = singleLevelMatchStr ∨ level = multiLevelMatchStr ∧ after = [] ∨ Plain level := by
  induction levels with
  | nil => simp [LevelRule]
  | cons head tail ih =>
    rw [LevelRule, ih]
    constructor
    · rintro ⟨first, rest⟩ before level after same
      cases before with
      | nil =>
        cases same
        exact first
      | cons other before =>
        obtain ⟨rfl, later⟩ := List.cons.inj same
        exact rest before level after later
    · intro each
      refine ⟨each [] head tail rfl, fun before level after same => ?_⟩
      exact each (head :: before) level after (by rw [same]; rfl)

theorem levelRule_utf8 (chars : List Char) :
    LevelRule (levels (utf8 chars)) ↔ FilterLevels chars := by
  have plain (level : List Char) : Plain (utf8 level) ↔ '+' ∉ level ∧ '#' ∉ level := by
    rw [Plain, mem_utf8 (by decide : String.utf8EncodeChar '+' = [singleLevelMatch]) (by decide),
      mem_utf8 (by decide : String.utf8EncodeChar '#' = [multiLevelMatch]) (by decide)]
  have shape (level : List Char) (after : List (List Char)) :
      (utf8 level = singleLevelMatchStr ∨
        utf8 level = multiLevelMatchStr ∧ after.map utf8 = [] ∨ Plain (utf8 level)) ↔
      level = ['+'] ∨ level = ['#'] ∧ after = [] ∨ '+' ∉ level ∧ '#' ∉ level := by
    rw [singleLevelMatchStr, multiLevelMatchStr,
      utf8_eq_singleton (by decide : String.utf8EncodeChar '+' = [singleLevelMatch]),
      utf8_eq_singleton (by decide : String.utf8EncodeChar '#' = [multiLevelMatch]), plain,
      List.map_eq_nil_iff]
  rw [levelRule_iff, levels_utf8]
  constructor
  · intro each before level after same
    exact (shape level after).mp (each _ _ _ (by rw [same, List.map_append, List.map_cons]))
  · intro each before level after same
    obtain ⟨front, back, split, rfl, later⟩ := List.map_eq_append_iff.mp same
    obtain ⟨found, rest, rfl, rfl, rfl⟩ := List.map_eq_cons_iff.mp later
    exact (shape found rest).mpr (each front found rest split)

/-- The characters of `$share/`. -/
def sharedPrefix : List Char := "$share/".toList

theorem utf8_sharedPrefix : utf8 sharedPrefix = sharedSubscriptionPrefix := by decide

theorem sharedPrefix_iff (chars : List Char) :
    sharedSubscriptionPrefix <+: utf8 chars ↔ sharedPrefix <+: chars := by
  rw [← utf8_sharedPrefix]
  constructor
  · rintro ⟨rest, same⟩
    obtain ⟨back, rfl, -⟩ := utf8_front same.symm
    exact List.prefix_append _ _
  · rintro ⟨back, rfl⟩
    rw [utf8_append]
    exact List.prefix_append _ _

/-- The name of a group has no separator and no wildcard. -/
def GroupName (group : List Char) : Prop :=
  group ≠ [] ∧ '/' ∉ group ∧ '+' ∉ group ∧ '#' ∉ group

/-- A filter of levels, or one behind `$share/`, a group and a separator. -/
def FilterGrammar (text : List Char) : Prop :=
  (sharedPrefix <+: text → ∃ group filter, text = sharedPrefix ++ (group ++ '/' :: filter) ∧
    GroupName group ∧ filter ≠ [] ∧ FilterLevels filter) ∧
    (¬ sharedPrefix <+: text → FilterLevels text)

theorem groupName_utf8 (group : List Char) :
    GroupName group ↔ utf8 group ≠ [] ∧ separator ∉ utf8 group ∧ Plain (utf8 group) := by
  rw [GroupName, Plain,
    mem_utf8 (by decide : String.utf8EncodeChar '+' = [singleLevelMatch]) (by decide),
    mem_utf8 (by decide : String.utf8EncodeChar '#' = [multiLevelMatch]) (by decide),
    mem_utf8 (by decide : String.utf8EncodeChar '/' = [separator]) (by decide)]
  have empty : utf8 group = [] ↔ group = [] := ⟨utf8_eq_nil, fun none => by rw [none]; rfl⟩
  rw [Ne, Ne, empty]

/-- The bytes of a shared subscription. -/
theorem utf8_shared (group filter : List Char) :
    utf8 (sharedPrefix ++ (group ++ '/' :: filter)) =
      sharedSubscriptionPrefix ++ utf8 group ++ separator :: utf8 filter := by
  rw [utf8_append, utf8_append, utf8_sharedPrefix, List.append_assoc]
  rfl

/-- A shared subscription is cut behind its group, which ends with a character. -/
theorem classifyNew_shared {group : List Char} (named : GroupName group) (filter : List Char)
    (present : filter ≠ []) :
    Filter.classifyNew (utf8 (sharedPrefix ++ (group ++ '/' :: filter))) =
      .ok (.shared (sharedSubscriptionPrefix ++ utf8 group).length, utf8 filter) := by
  obtain ⟨nonempty, single, plain⟩ := (groupName_utf8 group).mp named
  obtain ⟨length, size⟩ : ∃ length, (utf8 group).length = length + 1 :=
    ⟨(utf8 group).length - 1, by have := List.length_pos_of_ne_nil nonempty; omega⟩
  have cut := strFrom_utf8 (sharedSubscriptionPrefix ++ utf8 group ++ [separator]) filter
  have whole : sharedSubscriptionPrefix ++ utf8 group ++ separator :: utf8 filter =
      sharedSubscriptionPrefix ++ utf8 group ++ [separator] ++ utf8 filter := by
    simp
  have index : (sharedSubscriptionPrefix ++ utf8 group ++ [separator]).length =
      sharedSubscriptionPrefix.length + (length + 1) + 1 := by
    simp only [List.length_append, size, List.length_singleton]
  have behind : utf8 filter ≠ [] := fun empty => present (utf8_eq_nil empty)
  have starts : sharedSubscriptionPrefix.isPrefixOf
      (sharedSubscriptionPrefix ++ utf8 group ++ separator :: utf8 filter) = true := by
    rw [List.append_assoc]
    exact List.isPrefixOf_iff_prefix.mpr (List.prefix_append _ _)
  have ends : Filter.groupNameEnd (sharedSubscriptionPrefix ++ utf8 group ++ separator :: utf8 filter)
      0 (utf8 group ++ separator :: utf8 filter) = .ok (some (length + 1)) := by
    rw [Filter.groupNameEnd_front _ single plain, size, Nat.zero_add]
    rfl
  have head : (sharedSubscriptionPrefix ++ utf8 group ++ separator :: utf8 filter).head? =
      some dollarSign := rfl
  have rest : (sharedSubscriptionPrefix ++ utf8 group ++ separator :: utf8 filter).drop
      sharedSubscriptionPrefix.length = utf8 group ++ separator :: utf8 filter := by
    rw [List.append_assoc, List.drop_left]
  rw [← whole, index] at cut
  rw [utf8_shared, Filter.classifyNew, head]
  simp only [if_true, starts, rest, ends, cut, bind, Except.bind, List.isEmpty_iff, behind, if_false,
    List.length_append, size]

theorem classifyNew_plain {text : Bytes} (nonempty : text ≠ [])
    (ordinary : ¬ sharedSubscriptionPrefix <+: text) :
    ∃ kind, (kind = .regular ∨ kind = .dollar) ∧ Filter.classifyNew text = .ok (kind, text) := by
  obtain ⟨first, rest, rfl⟩ := List.exists_cons_of_ne_nil nonempty
  rw [← List.isPrefixOf_iff_prefix] at ordinary
  rw [Filter.classifyNew, List.head?_cons]
  by_cases dollar : first = dollarSign
  · refine ⟨.dollar, .inr rfl, ?_⟩
    simp only [dollar, if_true]
    rw [if_neg (dollar ▸ ordinary)]
  · exact ⟨.regular, .inl rfl, by simp only [dollar, if_false]⟩

/-- The part of a filter that is matched, in its characters. -/
theorem classifyNew_chars {chars : List Char} {kind : FilterKind} {pattern : Bytes}
    (classified : Filter.classifyNew (utf8 chars) = .ok (kind, pattern)) :
    ((kind = .regular ∨ kind = .dollar) ∧ pattern = utf8 chars ∧ ¬ sharedPrefix <+: chars) ∨
      ∃ group filter, chars = sharedPrefix ++ (group ++ '/' :: filter) ∧ GroupName group ∧
        pattern = utf8 filter ∧
        kind = .shared (sharedSubscriptionPrefix ++ utf8 group).length := by
  rcases Filter.classifyNew_ok classified with
    ⟨kind, whole, ordinary⟩ | ⟨group, named, single, plain, split, kind, -⟩
  · rw [sharedPrefix_iff] at ordinary
    exact .inl ⟨kind, whole, ordinary⟩
  · obtain ⟨before, c, filter, rfl, slash, front, rfl⟩ := utf8_split split (by decide)
    rw [← utf8_sharedPrefix] at front
    obtain ⟨group, rfl, rfl⟩ := utf8_front front
    obtain rfl : c = '/' := encodeChar_injective (slash.trans (by decide))
    refine .inr ⟨group, filter, List.append_assoc _ _ _, ?_, rfl, kind⟩
    exact (groupName_utf8 group).mpr ⟨named, single, plain⟩

section

variable [UnicodeGeneralCategory]

/-- A string that is not empty, not too long, valid, and a filter by the grammar. -/
def FilterText (text : String) : Prop :=
  text ≠ "" ∧ (asBytes text).length ≤ 65535 ∧ validateMqttString (asBytes text) = .ok () ∧
    FilterGrammar text.toList

omit [UnicodeGeneralCategory] in
theorem asBytes_ne_nil (text : String) : asBytes text ≠ [] ↔ text ≠ "" := by
  rw [asBytes_utf8]
  constructor
  · rintro some rfl
    exact some rfl
  · intro some empty
    exact some (String.toList_eq_nil_iff.mp (utf8_eq_nil empty))

theorem check_filterText (text : String) :
    (∃ kind, Filter.check (asBytes text) = .ok kind) ↔ FilterText text := by
  simp only [Filter.check_iff, FilterText, asBytes_ne_nil]
  constructor
  · rintro ⟨kind, nonempty, short, valid, pattern, classified, present, rule⟩
    refine ⟨nonempty, short, valid, ?_⟩
    rw [asBytes_utf8] at classified
    rcases classifyNew_chars classified with
      ⟨-, rfl, ordinary⟩ | ⟨group, filter, split, named, rfl, -⟩
    · exact ⟨fun starts => absurd starts ordinary, fun _ => (levelRule_utf8 _).mp rule⟩
    · rw [split]
      refine ⟨fun _ => ⟨group, filter, rfl, named, ?_, (levelRule_utf8 _).mp rule⟩, ?_⟩
      · rintro rfl
        exact present rfl
      · intro ordinary
        exact absurd (List.prefix_append _ _) ordinary
  · rintro ⟨nonempty, short, valid, shared, plain⟩
    by_cases starts : sharedPrefix <+: text.toList
    · obtain ⟨group, filter, split, named, present, rule⟩ := shared starts
      have classified := classifyNew_shared named filter present
      rw [← split, ← asBytes_utf8] at classified
      exact ⟨_, nonempty, short, valid, utf8 filter, classified,
        fun empty => present (utf8_eq_nil empty), (levelRule_utf8 _).mpr rule⟩
    · have some := (asBytes_ne_nil text).mpr nonempty
      obtain ⟨kind, -, classified⟩ := classifyNew_plain some (by
        rwa [asBytes_utf8, sharedPrefix_iff])
      refine ⟨kind, nonempty, short, valid, asBytes text, classified, some, ?_⟩
      rw [asBytes_utf8]
      exact (levelRule_utf8 _).mpr (plain starts)

theorem new_check {inner : ByteStr} {text : Bytes} (read : inner.tryAsStr = .ok text)
    {filter : Filter} :
    Filter.new inner = .ok filter ↔ filter.inner = inner ∧ Filter.check text = .ok filter.kind := by
  rw [Filter.new_eq_check read]
  cases Filter.check text with
  | error fault => simp [Except.map]
  | ok kind =>
    obtain ⟨found, foundKind⟩ := filter
    simp only [Except.map, Except.ok.injEq, Proto.Filter.mk.injEq]
    exact and_congr_left' eq_comm

theorem exists_new {inner : ByteStr} {text : Bytes} (read : inner.tryAsStr = .ok text) :
    (∃ filter, Filter.new inner = .ok filter) ↔ ∃ kind, Filter.check text = .ok kind := by
  constructor
  · rintro ⟨filter, created⟩
    exact ⟨filter.kind, ((new_check read).mp created).2⟩
  · rintro ⟨kind, accepted⟩
    exact ⟨⟨inner, kind⟩, (new_check read).mpr ⟨rfl, accepted⟩⟩

/-- A string is accepted as a filter exactly if the grammar has it, and so is the wire's form
of it. -/
theorem filter_new_iff (text : String) :
    ((∃ kind, Filter.check (asBytes text) = .ok kind) ↔ FilterText text) ∧
      ∀ inner : ByteStr, inner.tryAsStr = .ok (asBytes text) →
        ((∃ filter, Filter.new inner = .ok filter) ↔ FilterText text) := by
  refine ⟨check_filterText text, fun inner read => ?_⟩
  rw [exists_new read, check_filterText text]

/-- The filter `filter`, shared in `group`. -/
def sharedText (group filter : String) : String := "$share/" ++ group ++ "/" ++ filter

omit [UnicodeGeneralCategory] in
theorem toList_sharedText (group filter : String) :
    (sharedText group filter).toList =
      sharedPrefix ++ (group.toList ++ '/' :: filter.toList) := by
  rw [sharedText, String.toList_append, String.toList_append, String.toList_append,
    List.append_assoc, List.append_assoc]
  rfl

omit [UnicodeGeneralCategory] in
/-- The stored index cuts a shared filter into its group and its filter, both at characters. -/
theorem classify_shared (group filter : List Char) {inner : ByteStr}
    (read : inner.tryAsStr = .ok (utf8 (sharedPrefix ++ (group ++ '/' :: filter)))) :
    (⟨inner, .shared (sharedSubscriptionPrefix ++ utf8 group).length⟩ : Filter).classify =
      .ok (.shared (utf8 group) (utf8 filter)) := by
  generalize whole : sharedSubscriptionPrefix ++ utf8 group ++ separator :: utf8 filter = text
  have front : strFrom text sharedSubscriptionPrefix.length =
      .ok (utf8 group ++ separator :: utf8 filter) := by
    rw [← whole, List.append_assoc]
    have cut := strFrom_utf8 sharedSubscriptionPrefix (group ++ '/' :: filter)
    rwa [utf8_append] at cut
  have middle : strFrom text (sharedSubscriptionPrefix ++ utf8 group).length =
      .ok (separator :: utf8 filter) := by
    rw [← whole]
    exact strFrom_utf8 _ ('/' :: filter)
  have back : strFrom text ((sharedSubscriptionPrefix ++ utf8 group).length + 1) =
      .ok (utf8 filter) := by
    have cut := strFrom_utf8 (sharedSubscriptionPrefix ++ utf8 group ++ [separator]) filter
    rwa [List.append_assoc _ [separator], List.length_append, List.singleton_append, whole] at cut
  have inOrder : sharedSubscriptionPrefix.length ≤
      (sharedSubscriptionPrefix ++ utf8 group).length := by
    rw [List.length_append]
    exact Nat.le_add_right _ _
  have range : (utf8 group ++ separator :: utf8 filter).take
      ((sharedSubscriptionPrefix ++ utf8 group).length - sharedSubscriptionPrefix.length) =
      utf8 group := by
    rw [List.length_append, Nat.add_sub_cancel_left, List.take_left]
  rw [utf8_shared, whole] at read
  simp only [Filter.classify, strRange, read, front, middle, back, inOrder, if_true, bind,
    Except.bind, pure, Except.pure, range]

omit [UnicodeGeneralCategory] in
/-- A filter without a group is matched as it stands. -/
theorem matchesTopic_plain {filter : Filter} {text : Bytes}
    (kind : filter.kind = .regular ∨ filter.kind = .dollar)
    (read : filter.inner.tryAsStr = .ok text) (topic : Topic) :
    filter.matchesTopic topic =
      topic.inner.tryAsStr.map fun name => matchLevels (levels text) (levels name) := by
  unfold Filter.matchesTopic Filter.classify
  cases topic.inner.tryAsStr with
  | error fault => rfl
  | ok name =>
    rcases kind with kind | kind
    · simp only [read, kind, bind, Except.bind, pure, Except.pure, Except.map]
    · simp only [read, kind, bind, Except.bind, pure, Except.pure, Except.map]

omit [UnicodeGeneralCategory] in
theorem matchesTopic_shared {filter : Filter} {group text : Bytes}
    (classified : filter.classify = .ok (.shared group text)) (topic : Topic) :
    filter.matchesTopic topic =
      topic.inner.tryAsStr.map fun name => matchLevels (levels text) (levels name) := by
  unfold Filter.matchesTopic
  cases topic.inner.tryAsStr with
  | error fault => rfl
  | ok name => simp only [classified, bind, Except.bind, pure, Except.pure, Except.map]

omit [UnicodeGeneralCategory] in
theorem asBytes_sharedText (group filter : String) :
    asBytes (sharedText group filter) =
      sharedSubscriptionPrefix ++ asBytes group ++ separator :: asBytes filter := by
  rw [asBytes_utf8, toList_sharedText, utf8_shared, ← asBytes_utf8, ← asBytes_utf8]

/-- A shared filter is checked by its levels. -/
theorem check_shared {group filter : String} (named : GroupName group.toList)
    (valid : validateMqttString (asBytes (sharedText group filter)) = .ok ())
    (short : (asBytes (sharedText group filter)).length ≤ 65535) (kind : FilterKind) :
    Filter.check (asBytes (sharedText group filter)) = .ok kind ↔
      kind = .shared (sharedSubscriptionPrefix ++ asBytes group).length ∧
        asBytes filter ≠ [] ∧ LevelRule (levels (asBytes filter)) := by
  obtain ⟨nonempty, single, -⟩ := (groupName_utf8 _).mp named
  have classified (present : filter.toList ≠ []) := classifyNew_shared named filter.toList present
  have part : Pattern (asBytes (sharedText group filter)) (asBytes filter) := by
    rw [asBytes_sharedText, asBytes_utf8 group]
    exact .shared nonempty single
  rw [← toList_sharedText, ← asBytes_utf8, ← asBytes_utf8, ← asBytes_utf8] at classified
  rw [Filter.check_iff]
  constructor
  · rintro ⟨-, -, -, pattern, found, present, rule⟩
    obtain rfl : pattern = asBytes filter := by
      rcases Filter.classifyNew_ok found with
        ⟨-, rfl, ordinary⟩ | ⟨other, otherNamed, otherSingle, -, split, -⟩
      · exact Pattern.unique (.plain ordinary) part
      · refine Pattern.unique ?_ part
        rw [split]
        exact .shared otherNamed otherSingle
    have same := classified (by
      intro empty
      rw [asBytes_utf8, empty] at present
      exact present rfl)
    rw [found] at same
    cases same
    exact ⟨rfl, present, rule⟩
  · rintro ⟨rfl, present, rule⟩
    refine ⟨?_, short, valid, asBytes filter, classified ?_, present, rule⟩
    · rw [asBytes_sharedText]
      simp
    · intro empty
      rw [asBytes_utf8, empty] at present
      exact present rfl

theorem check_plain {filter : String} (ordinary : ¬ sharedPrefix <+: filter.toList)
    (valid : validateMqttString (asBytes filter) = .ok ())
    (short : (asBytes filter).length ≤ 65535) :
    (∃ kind, Filter.check (asBytes filter) = .ok kind) ↔
      asBytes filter ≠ [] ∧ LevelRule (levels (asBytes filter)) := by
  rw [← sharedPrefix_iff, ← asBytes_utf8] at ordinary
  simp only [Filter.check_iff]
  constructor
  · rintro ⟨kind, nonempty, -, -, pattern, found, -, rule⟩
    obtain ⟨other, -, classified⟩ := classifyNew_plain nonempty ordinary
    rw [found] at classified
    cases classified
    exact ⟨nonempty, rule⟩
  · rintro ⟨nonempty, rule⟩
    obtain ⟨kind, -, classified⟩ := classifyNew_plain nonempty ordinary
    exact ⟨kind, nonempty, short, valid, asBytes filter, classified, nonempty, rule⟩

/-- Sharing a filter in a group changes neither whether it is accepted nor what it matches,
and the group and the filter are found again. -/
theorem filter_shared_transparent (group filter : String) (named : GroupName group.toList)
    (ordinary : ¬ sharedPrefix <+: filter.toList)
    (valid : validateMqttString (asBytes (sharedText group filter)) = .ok ())
    (short : (asBytes (sharedText group filter)).length ≤ 65535) (inner alone : ByteStr)
    (read : inner.tryAsStr = .ok (asBytes (sharedText group filter)))
    (readAlone : alone.tryAsStr = .ok (asBytes filter)) :
    ((∃ shared, Filter.new inner = .ok shared) ↔ ∃ plain, Filter.new alone = .ok plain) ∧
      ∀ shared plain, Filter.new inner = .ok shared → Filter.new alone = .ok plain →
        shared.classify = .ok (.shared (asBytes group) (asBytes filter)) ∧
          ∀ topic, shared.matchesTopic topic = plain.matchesTopic topic := by
  have validAlone : validateMqttString (asBytes filter) = .ok () := by
    rw [validateMqttString_iff, toList_sharedText] at valid
    rw [validateMqttString_iff]
    intro c member
    exact valid c (by simp [member])
  have shortAlone : (asBytes filter).length ≤ 65535 := by
    rw [asBytes_sharedText] at short
    simp only [List.length_append, List.length_cons] at short
    omega
  refine ⟨?_, fun shared plain created createdAlone => ?_⟩
  · rw [exists_new read, exists_new readAlone, check_plain ordinary validAlone shortAlone]
    simp only [check_shared named valid short]
    exact ⟨fun ⟨_, _, accepted⟩ => accepted, fun accepted => ⟨_, rfl, accepted⟩⟩
  · obtain ⟨same, accepted⟩ := (new_check read).mp created
    obtain ⟨sameAlone, acceptedAlone⟩ := (new_check readAlone).mp createdAlone
    obtain ⟨kind, -, -⟩ := (check_shared named valid short _).mp accepted
    obtain ⟨nonempty, -, -, pattern, found, -⟩ := Filter.check_iff.mp acceptedAlone
    have kindAlone : plain.kind = .regular ∨ plain.kind = .dollar := by
      rw [← sharedPrefix_iff, ← asBytes_utf8] at ordinary
      obtain ⟨other, either, classified⟩ := classifyNew_plain nonempty ordinary
      rw [found] at classified
      cases classified
      exact either
    have classified : shared.classify = .ok (.shared (asBytes group) (asBytes filter)) := by
      obtain ⟨found, foundKind⟩ := shared
      obtain rfl : found = inner := same
      obtain rfl : foundKind = _ := kind
      rw [asBytes_utf8, toList_sharedText] at read
      rw [asBytes_utf8 group, asBytes_utf8 filter]
      exact classify_shared _ _ read
    refine ⟨classified, fun topic => ?_⟩
    rw [matchesTopic_shared classified, matchesTopic_plain kindAlone (sameAlone ▸ readAlone)]

end

/-- The filter `$a/+`, shared in the group `g`. -/
theorem filter_shared_dollar :
    letI := latinCategory
    Filter.new (byteStr (asBytes "$share/g/$a/+")) =
        .ok ⟨byteStr (asBytes "$share/g/$a/+"), .shared 8⟩ ∧
      Filter.new (byteStr (asBytes "$a/+")) = .ok ⟨byteStr (asBytes "$a/+"), .dollar⟩ ∧
      (⟨byteStr (asBytes "$share/g/$a/+"), .shared 8⟩ : Filter).classify =
        .ok (.shared (asBytes "g") (asBytes "$a/+")) ∧
      ∀ topic, (⟨byteStr (asBytes "$share/g/$a/+"), .shared 8⟩ : Filter).matchesTopic topic =
        (⟨byteStr (asBytes "$a/+"), .dollar⟩ : Filter).matchesTopic topic := by
  let := latinCategory
  have shared : Filter.new (byteStr (asBytes "$share/g/$a/+")) =
      .ok ⟨byteStr (asBytes "$share/g/$a/+"), .shared 8⟩ := by decide +kernel
  have plain : Filter.new (byteStr (asBytes "$a/+")) =
      .ok ⟨byteStr (asBytes "$a/+"), .dollar⟩ := by decide +kernel
  have named : GroupName "g".toList := ⟨by decide, by decide, by decide, by decide⟩
  have transparent := filter_shared_transparent "g" "$a/+" named (by decide) (by decide +kernel)
    (by decide +kernel) (byteStr (asBytes "$share/g/$a/+")) (byteStr (asBytes "$a/+"))
    (by decide +kernel) (by decide +kernel)
  exact ⟨shared, plain, transparent.2 _ _ shared plain⟩

end MqttClient.Api
