import MqttClient.Proto.PrimitiveSpec

/-! UTF-8 as the validation of strings reads it: one character after another, each in its
shortest form. -/

namespace MqttClient.Proto

theorem isContinuation_iff (byte : UInt8) : isContinuation byte = true ↔ byte.toNat / 64 = 2 := by
  have each : ∀ n : Fin 256, isContinuation (.ofFin n) = true ↔ n.val / 64 = 2 := by decide +kernel
  exact each byte.toFin

theorem toNat_masks (byte : UInt8) :
    (byte &&& 0x3F).toNat = byte.toNat % 64 ∧ (byte &&& 0x1F).toNat = byte.toNat % 32 ∧
      (byte &&& 0x0F).toNat = byte.toNat % 16 ∧ (byte &&& 0x07).toNat = byte.toNat % 8 :=
  ⟨Nat.and_two_pow_sub_one_eq_mod _ 6, Nat.and_two_pow_sub_one_eq_mod _ 5,
    Nat.and_two_pow_sub_one_eq_mod _ 4, Nat.and_two_pow_sub_one_eq_mod _ 3⟩

theorem byte_eq {byte : UInt8} {n : Nat} (same : byte.toNat = n) : .ofNat n = byte := by
  apply UInt8.toNat_inj.mp
  have bound := byte.toNat_lt
  rw [UInt8.toNat_ofNat', ← same, Nat.mod_eq_of_lt bound]

theorem toNat_val_ofNat {code : Nat} (scalar : code.isValidChar) :
    (Char.ofNat code).val.toNat = code := by
  rw [Char.ofNat, dif_pos scalar]
  rfl

section

variable {lead second third fourth : UInt8} {code : Nat}

theorem encodeChar_one (first : lead.toNat = code) (above : code < 0x80) :
    String.utf8EncodeChar (Char.ofNat code) = [lead] := by
  have value := toNat_val_ofNat (show code.isValidChar from .inl (by omega))
  simp only [String.utf8EncodeChar, value, if_pos (show code ≤ 0x7F by omega)]
  rw [byte_eq first]

theorem encodeChar_two (first : lead.toNat = code / 64 % 32 + 0xC0)
    (tail : second.toNat = code % 64 + 0x80) (below : 0x80 ≤ code) (above : code < 0x800) :
    String.utf8EncodeChar (Char.ofNat code) = [lead, second] := by
  have value := toNat_val_ofNat (show code.isValidChar from .inl (by omega))
  simp only [String.utf8EncodeChar, value, if_neg (show ¬ code ≤ 0x7F by omega),
    if_pos (show code ≤ 0x7FF by omega)]
  rw [byte_eq first, byte_eq tail]

theorem encodeChar_three (first : lead.toNat = code / 4096 % 16 + 0xE0)
    (middle : second.toNat = code / 64 % 64 + 0x80) (tail : third.toNat = code % 64 + 0x80)
    (below : 0x800 ≤ code) (above : code < 0x10000) (scalar : code < 0xD800 ∨ 0xDFFF < code) :
    String.utf8EncodeChar (Char.ofNat code) = [lead, second, third] := by
  have value := toNat_val_ofNat (show code.isValidChar from scalar.imp id fun high => by omega)
  simp only [String.utf8EncodeChar, value, if_neg (show ¬ code ≤ 0x7F by omega),
    if_neg (show ¬ code ≤ 0x7FF by omega), if_pos (show code ≤ 0xFFFF by omega)]
  rw [byte_eq first, byte_eq middle, byte_eq tail]

theorem encodeChar_four (first : lead.toNat = code / 262144 % 8 + 0xF0)
    (upper : second.toNat = code / 4096 % 64 + 0x80) (lower : third.toNat = code / 64 % 64 + 0x80)
    (tail : fourth.toNat = code % 64 + 0x80) (below : 0x10000 ≤ code) (above : code ≤ 0x10FFFF) :
    String.utf8EncodeChar (Char.ofNat code) = [lead, second, third, fourth] := by
  have value := toNat_val_ofNat (show code.isValidChar from .inr (by omega))
  simp only [String.utf8EncodeChar, value, if_neg (show ¬ code ≤ 0x7F by omega),
    if_neg (show ¬ code ≤ 0x7FF by omega), if_neg (show ¬ code ≤ 0xFFFF by omega)]
  rw [byte_eq first, byte_eq upper, byte_eq lower, byte_eq tail]

end

theorem isContinuation_of {byte : UInt8} {low : Nat} (tail : byte.toNat = low % 64 + 0x80) :
    isContinuation byte = true := by
  rw [isContinuation_iff]
  omega

/-- The thresholds that tell how many bytes a character has. -/
theorem byte_thresholds (byte : UInt8) :
    (byte < 0x80 ↔ byte.toNat < 128) ∧ (byte < 0xC2 ↔ byte.toNat < 194) ∧
      (byte < 0xE0 ↔ byte.toNat < 224) ∧ (byte < 0xF0 ↔ byte.toNat < 240) ∧
      (byte < 0xF5 ↔ byte.toNat < 245) :=
  ⟨Iff.rfl, Iff.rfl, Iff.rfl, Iff.rfl, Iff.rfl⟩

section

variable {lead second third fourth : UInt8} {rest : Bytes} {code : Nat}

theorem decodeUtf8_one (first : lead.toNat = code) (above : code < 0x80) :
    decodeUtf8 (lead :: rest) = some (Char.ofNat code, 1) := by
  obtain ⟨ascii, -⟩ := byte_thresholds lead
  simp only [decodeUtf8, ascii, first, above, if_true]

theorem decodeUtf8_two (first : lead.toNat = code / 64 % 32 + 0xC0)
    (tail : second.toNat = code % 64 + 0x80) (below : 0x80 ≤ code) (above : code < 0x800) :
    decodeUtf8 (lead :: second :: rest) = some (Char.ofNat code, 2) := by
  obtain ⟨one, none, two, -⟩ := byte_thresholds lead
  rw [first] at one none two
  have whole : lead.toNat % 32 * 64 + second.toNat % 64 = code := by omega
  simp only [decodeUtf8, one, none, two, if_neg (show ¬ code / 64 % 32 + 0xC0 < 128 by omega),
    if_neg (show ¬ code / 64 % 32 + 0xC0 < 194 by omega),
    if_pos (show code / 64 % 32 + 0xC0 < 224 by omega), isContinuation_of tail, if_true,
    (toNat_masks lead).2.1, (toNat_masks second).1, whole]

theorem decodeUtf8_three (first : lead.toNat = code / 4096 % 16 + 0xE0)
    (middle : second.toNat = code / 64 % 64 + 0x80) (tail : third.toNat = code % 64 + 0x80)
    (below : 0x800 ≤ code) (above : code < 0x10000) (scalar : code < 0xD800 ∨ 0xDFFF < code) :
    decodeUtf8 (lead :: second :: third :: rest) = some (Char.ofNat code, 3) := by
  obtain ⟨one, none, two, three, -⟩ := byte_thresholds lead
  rw [first] at one none two three
  have whole : lead.toNat % 16 * 4096 + second.toNat % 64 * 64 + third.toNat % 64 = code := by
    omega
  have surrogate : (!(decide (0xD800 ≤ code) && decide (code ≤ 0xDFFF))) = true := by
    rcases scalar with low | high
    · simp only [Bool.not_eq_true', Bool.and_eq_false_iff, decide_eq_false_iff_not]
      omega
    · simp only [Bool.not_eq_true', Bool.and_eq_false_iff, decide_eq_false_iff_not]
      omega
  simp only [decodeUtf8, one, none, two, three,
    if_neg (show ¬ code / 4096 % 16 + 0xE0 < 128 by omega),
    if_neg (show ¬ code / 4096 % 16 + 0xE0 < 194 by omega),
    if_neg (show ¬ code / 4096 % 16 + 0xE0 < 224 by omega),
    if_pos (show code / 4096 % 16 + 0xE0 < 240 by omega), isContinuation_of middle,
    isContinuation_of tail, (toNat_masks lead).2.2.1, (toNat_masks second).1, (toNat_masks third).1,
    whole, surrogate, below, decide_true, Bool.and_self, if_true]

theorem decodeUtf8_four (first : lead.toNat = code / 262144 % 8 + 0xF0)
    (upper : second.toNat = code / 4096 % 64 + 0x80) (lower : third.toNat = code / 64 % 64 + 0x80)
    (tail : fourth.toNat = code % 64 + 0x80) (below : 0x10000 ≤ code) (above : code ≤ 0x10FFFF) :
    decodeUtf8 (lead :: second :: third :: fourth :: rest) = some (Char.ofNat code, 4) := by
  obtain ⟨one, none, two, three, four⟩ := byte_thresholds lead
  rw [first] at one none two three four
  have whole : lead.toNat % 8 * 262144 + second.toNat % 64 * 4096 + third.toNat % 64 * 64 +
      fourth.toNat % 64 = code := by
    omega
  simp only [decodeUtf8, one, none, two, three, four,
    if_neg (show ¬ code / 262144 % 8 + 0xF0 < 128 by omega),
    if_neg (show ¬ code / 262144 % 8 + 0xF0 < 194 by omega),
    if_neg (show ¬ code / 262144 % 8 + 0xF0 < 224 by omega),
    if_neg (show ¬ code / 262144 % 8 + 0xF0 < 240 by omega),
    if_pos (show code / 262144 % 8 + 0xF0 < 245 by omega), isContinuation_of upper,
    isContinuation_of lower, isContinuation_of tail, (toNat_masks lead).2.2.2,
    (toNat_masks second).1, (toNat_masks third).1, (toNat_masks fourth).1, whole, below, above,
    decide_true, Bool.and_self, if_true]

end

/-- The bytes of a character are read as that character. -/
theorem decodeUtf8_encodeChar (c : Char) (rest : Bytes) :
    decodeUtf8 (String.utf8EncodeChar c ++ rest) =
      some (c, (String.utf8EncodeChar c).length) := by
  have scalar : c.val.toNat < 0xD800 ∨ 0xDFFF < c.val.toNat ∧ c.val.toNat < 0x110000 := c.valid
  have byte : ∀ n : Nat, n < 256 → (UInt8.ofNat n).toNat = n := by
    intro n small
    rw [UInt8.toNat_ofNat']
    exact Nat.mod_eq_of_lt small
  have same : Char.ofNat c.val.toNat = c := c.ofNat_toNat
  generalize size : c.val.toNat = code at scalar same
  simp only [String.utf8EncodeChar, size]
  by_cases one : code ≤ 0x7F
  · rw [if_pos one, List.singleton_append, decodeUtf8_one (byte _ (by omega)) (by omega), same]
    rfl
  · rw [if_neg one]
    by_cases two : code ≤ 0x7FF
    · rw [if_pos two]
      refine (decodeUtf8_two (byte _ (by omega)) (byte _ (by omega)) (by omega) (by omega)).trans ?_
      rw [same]
      rfl
    · rw [if_neg two]
      by_cases three : code ≤ 0xFFFF
      · rw [if_pos three]
        refine (decodeUtf8_three (byte _ (by omega)) (byte _ (by omega)) (byte _ (by omega))
          (by omega) (by omega) (by omega)).trans ?_
        rw [same]
        rfl
      · rw [if_neg three]
        refine (decodeUtf8_four (byte _ (by omega)) (byte _ (by omega)) (byte _ (by omega))
          (byte _ (by omega)) (by omega) (by omega)).trans ?_
        rw [same]
        rfl

/-- What is read as a character is the encoding of that character. -/
theorem decodeUtf8_sound {text : Bytes} {c : Char} {length : Nat}
    (found : decodeUtf8 text = some (c, length)) :
    ∃ rest, text = String.utf8EncodeChar c ++ rest ∧ length = (String.utf8EncodeChar c).length := by
  cases text with
  | nil => cases found
  | cons lead rest =>
    simp only [decodeUtf8, toNat_masks] at found
    split at found
    · rename_i one
      have one : lead.toNat < 128 := one
      cases found
      rw [encodeChar_one rfl one]
      exact ⟨rest, rfl, rfl⟩
    · rename_i many
      have many : ¬ lead.toNat < 128 := many
      split at found
      · cases found
      · rename_i below
        have below : ¬ lead.toNat < 194 := below
        split at found
        · rename_i two
          have two : lead.toNat < 224 := two
          split at found
          · rename_i second rest
            split at found
            · rename_i tail
              have tail := (isContinuation_iff second).mp tail
              cases found
              have same : String.utf8EncodeChar
                  (Char.ofNat (lead.toNat % 32 * 64 + second.toNat % 64)) = [lead, second] :=
                encodeChar_two (by omega) (by omega) (by omega) (by omega)
              rw [same]
              exact ⟨rest, rfl, rfl⟩
            · cases found
          · cases found
        · rename_i above
          have above : ¬ lead.toNat < 224 := above
          split at found
          · rename_i three
            have three : lead.toNat < 240 := three
            split at found
            · rename_i second third rest
              split at found
              · rename_i tail
                simp only [Bool.and_eq_true, isContinuation_iff, decide_eq_true_eq,
                  Bool.not_eq_true', Bool.and_eq_false_iff, decide_eq_false_iff_not] at tail
                obtain ⟨⟨⟨middle, tail⟩, low⟩, scalar⟩ := tail
                cases found
                have same : String.utf8EncodeChar (Char.ofNat (lead.toNat % 16 * 4096 +
                    second.toNat % 64 * 64 + third.toNat % 64)) = [lead, second, third] :=
                  encodeChar_three (by omega) (by omega) (by omega) (by omega) (by omega)
                    (by omega)
                rw [same]
                exact ⟨rest, rfl, rfl⟩
              · cases found
            · cases found
          · rename_i past
            have past : ¬ lead.toNat < 240 := past
            split at found
            · rename_i four
              have four : lead.toNat < 245 := four
              split at found
              · rename_i second third fourth rest
                split at found
                · rename_i tail
                  simp only [Bool.and_eq_true, isContinuation_iff, decide_eq_true_eq] at tail
                  obtain ⟨⟨⟨upper, lower⟩, tail⟩, low, high⟩ := tail
                  cases found
                  have same : String.utf8EncodeChar (Char.ofNat (lead.toNat % 8 * 262144 +
                      second.toNat % 64 * 4096 + third.toNat % 64 * 64 + fourth.toNat % 64)) =
                      [lead, second, third, fourth] :=
                    encodeChar_four (by omega) (by omega) (by omega) (by omega) (by omega)
                      (by omega)
                  rw [same]
                  exact ⟨rest, rfl, rfl⟩
                · cases found
              · cases found
            · cases found

/-- A character is one byte of ASCII, or it has none. It starts with a byte that does not
continue another character. -/
theorem encodeChar_bytes (c : Char) :
    (∃ byte : UInt8, String.utf8EncodeChar c = [byte] ∧ byte.toNat < 0x80) ∨
      (∀ byte ∈ String.utf8EncodeChar c, 0x80 ≤ byte.toNat) ∧
        ∃ lead rest, String.utf8EncodeChar c = lead :: rest ∧ 0xC0 ≤ lead.toNat := by
  generalize size : c.val.toNat = code
  have byte : ∀ n : Nat, n < 256 → (UInt8.ofNat n).toNat = n := by
    intro n small
    rw [UInt8.toNat_ofNat', Nat.mod_eq_of_lt small]
  have lead : ∀ n : Nat, n < 0x40 → 0xC0 ≤ (UInt8.ofNat (n + 0xC0)).toNat := by
    intro n small
    rw [byte _ (by omega)]
    omega
  have tail : ∀ n : Nat, 0x80 ≤ (UInt8.ofNat (n % 64 + 0x80)).toNat := by
    intro n
    rw [byte _ (by omega)]
    omega
  simp only [String.utf8EncodeChar, size]
  by_cases one : code ≤ 0x7F
  · rw [if_pos one]
    exact .inl ⟨_, rfl, by rw [byte _ (by omega)]; omega⟩
  · rw [if_neg one]
    by_cases two : code ≤ 0x7FF
    · rw [if_pos two]
      have first := lead (code / 64 % 32) (by omega)
      refine .inr ⟨?_, _, _, rfl, first⟩
      simp only [List.forall_mem_cons, tail, true_and]
      exact ⟨Nat.le_trans (by decide) first, nofun⟩
    · rw [if_neg two]
      by_cases three : code ≤ 0xFFFF
      · rw [if_pos three]
        have first := lead (code / 4096 % 16 + 0x20) (by omega)
        refine .inr ⟨?_, _, _, rfl, first⟩
        simp only [List.forall_mem_cons, tail, true_and]
        exact ⟨Nat.le_trans (by decide) first, nofun⟩
      · rw [if_neg three]
        have first := lead (code / 262144 % 8 + 0x30) (by omega)
        refine .inr ⟨?_, _, _, rfl, first⟩
        simp only [List.forall_mem_cons, tail, true_and]
        exact ⟨Nat.le_trans (by decide) first, nofun⟩

theorem encodeChar_ascii {c : Char} {byte : UInt8} (member : byte ∈ String.utf8EncodeChar c)
    (ascii : byte.toNat < 0x80) : String.utf8EncodeChar c = [byte] := by
  rcases encodeChar_bytes c with ⟨only, same, -⟩ | ⟨high, -⟩
  · rw [same, List.mem_singleton] at member
    rw [same, member]
  · have above := high byte member
    omega

theorem encodeChar_start {c : Char} {byte : UInt8} {rest : Bytes}
    (same : String.utf8EncodeChar c = byte :: rest) : isContinuation byte = false := by
  have outside : ¬ byte.toNat / 64 = 2 := by
    rcases encodeChar_bytes c with ⟨only, single, low⟩ | ⟨-, lead, others, split, high⟩
    · obtain ⟨rfl, -⟩ := List.cons.inj (single.symm.trans same)
      omega
    · obtain ⟨rfl, -⟩ := List.cons.inj (split.symm.trans same)
      omega
  rw [Bool.eq_false_iff]
  exact fun continued => outside ((isContinuation_iff byte).mp continued)

/-- The UTF-8 of some characters. -/
def utf8 (chars : List Char) : Bytes := chars.flatMap String.utf8EncodeChar

@[simp] theorem utf8_nil : utf8 [] = [] := rfl

@[simp] theorem utf8_cons (c : Char) (chars : List Char) :
    utf8 (c :: chars) = String.utf8EncodeChar c ++ utf8 chars := rfl

@[simp] theorem utf8_append (front back : List Char) :
    utf8 (front ++ back) = utf8 front ++ utf8 back :=
  List.flatMap_append

theorem utf8_start {chars : List Char} {byte : UInt8} {rest : Bytes}
    (same : utf8 chars = byte :: rest) : isContinuation byte = false := by
  cases chars with
  | nil => cases same
  | cons c chars =>
    obtain ⟨lead, others, split⟩ := List.exists_cons_of_ne_nil
      (String.utf8EncodeChar_ne_nil : String.utf8EncodeChar c ≠ [])
    rw [utf8_cons, split] at same
    obtain ⟨rfl, -⟩ := List.cons.inj same
    exact encodeChar_start split

theorem encodeChar_injective {first second : Char}
    (same : String.utf8EncodeChar first = String.utf8EncodeChar second) : first = second := by
  have left := decodeUtf8_encodeChar first []
  rw [same, decodeUtf8_encodeChar second []] at left
  simpa using left.symm

theorem utf8_eq_nil {chars : List Char} (empty : utf8 chars = []) : chars = [] := by
  cases chars with
  | nil => rfl
  | cons c chars =>
    rw [utf8_cons, List.append_eq_nil_iff] at empty
    exact absurd empty.1 String.utf8EncodeChar_ne_nil

/-- A text whose bytes start with those of another starts with its characters. -/
theorem utf8_front {front chars : List Char} {rest : Bytes}
    (same : utf8 chars = utf8 front ++ rest) : ∃ back, chars = front ++ back ∧ utf8 back = rest := by
  induction front generalizing chars with
  | nil => exact ⟨chars, rfl, same⟩
  | cons c front ih =>
    rw [utf8_cons, List.append_assoc] at same
    have first := decodeUtf8_encodeChar c (utf8 front ++ rest)
    rw [← same] at first
    cases chars with
    | nil => cases first
    | cons d chars =>
      rw [utf8_cons, decodeUtf8_encodeChar] at first
      obtain rfl : d = c := congrArg Prod.fst (Option.some.inj first)
      obtain ⟨back, rfl, ends⟩ := ih (List.append_cancel_left same)
      exact ⟨back, rfl, ends⟩

/-- Two texts with the same bytes have the same characters. -/
theorem utf8_injective {first second : List Char} (same : utf8 first = utf8 second) :
    first = second := by
  rw [← List.append_nil (utf8 second)] at same
  obtain ⟨back, rfl, empty⟩ := utf8_front same
  rw [utf8_eq_nil empty, List.append_nil]

/-- A character of ASCII stands in a text where its byte does. -/
theorem mem_utf8 {c : Char} {byte : UInt8} (single : String.utf8EncodeChar c = [byte])
    (ascii : byte.toNat < 0x80) (chars : List Char) : byte ∈ utf8 chars ↔ c ∈ chars := by
  constructor
  · intro member
    obtain ⟨other, present, within⟩ := List.mem_flatMap.mp member
    obtain rfl := encodeChar_injective ((encodeChar_ascii within ascii).trans single.symm)
    exact present
  · intro present
    exact List.mem_flatMap.mpr ⟨c, present, by simp [single]⟩

theorem utf8_eq_singleton {c : Char} {byte : UInt8} (single : String.utf8EncodeChar c = [byte])
    (chars : List Char) : utf8 chars = [byte] ↔ chars = [c] := by
  constructor
  · intro same
    apply utf8_injective
    rw [same, utf8_cons, single]
    rfl
  · rintro rfl
    rw [utf8_cons, single]
    rfl

/-- A byte of ASCII is a character, so a text can be cut there. -/
theorem utf8_split {chars : List Char} {front rest : Bytes} {byte : UInt8}
    (same : utf8 chars = front ++ byte :: rest) (ascii : byte.toNat < 0x80) :
    ∃ before c after, chars = before ++ c :: after ∧ String.utf8EncodeChar c = [byte] ∧
      utf8 before = front ∧ utf8 after = rest := by
  induction chars generalizing front with
  | nil =>
    rw [utf8_nil] at same
    exact absurd same.symm (by simp)
  | cons c chars ih =>
    rw [utf8_cons] at same
    -- The byte is behind the first character, or in it.
    have behind : ∀ more, front = String.utf8EncodeChar c ++ more →
        utf8 chars = more ++ byte :: rest → ∃ before other after,
          c :: chars = before ++ other :: after ∧ String.utf8EncodeChar other = [byte] ∧
            utf8 before = front ∧ utf8 after = rest := by
      rintro more rfl later
      obtain ⟨before, other, after, rfl, single, rfl, ends⟩ := ih later
      exact ⟨c :: before, other, after, rfl, single, rfl, ends⟩
    rcases List.append_eq_append_iff.mp same with ⟨more, split, later⟩ | ⟨more, split, later⟩
    · exact behind more split later
    · cases more with
      | nil =>
        rw [List.append_nil] at split
        exact behind [] (by rw [List.append_nil, split]) later.symm
      | cons first more =>
        obtain ⟨rfl, remains⟩ := List.cons.inj later
        have single := encodeChar_ascii (by rw [split]; simp) ascii
        have short := congrArg List.length (split.symm.trans single)
        simp only [List.length_append, List.length_cons, List.length_nil] at short
        obtain rfl : front = [] := List.length_eq_zero_iff.mp (by omega)
        obtain rfl : more = [] := List.length_eq_zero_iff.mp (by omega)
        exact ⟨[], c, chars, rfl, single, rfl, remains.symm⟩

/-- A slice between characters. -/
theorem strFrom_utf8 (front : Bytes) (chars : List Char) :
    strFrom (front ++ utf8 chars) front.length = .ok (utf8 chars) := by
  simp only [strFrom, sliceFrom, List.length_append, Nat.le_add_right, if_true, List.drop_left,
    bind, Except.bind, pure, Except.pure]
  cases same : utf8 chars with
  | nil => rfl
  | cons byte rest => simp [utf8_start same]

/-- The characters of a text, one after another. Its fuel is the length of the text. -/
def fromUtf8Loop : Nat → Bytes → Option (List Char)
  | 0, text => if text.isEmpty then some [] else none
  | fuel + 1, text =>
    if text.isEmpty then some []
    else
      match decodeUtf8 text with
      | none => none
      | some (c, length) => (fromUtf8Loop fuel (text.drop length)).map (c :: ·)

/-- `str::from_utf8` -/
def fromUtf8 (text : Bytes) : Option (List Char) := fromUtf8Loop text.length text

theorem fromUtf8Loop_utf8 (chars : List Char) (fuel : Nat) (enough : (utf8 chars).length ≤ fuel) :
    fromUtf8Loop fuel (utf8 chars) = some chars := by
  induction chars generalizing fuel with
  | nil => cases fuel <;> rfl
  | cons c chars ih =>
    have positive : 0 < (String.utf8EncodeChar c).length :=
      List.length_pos_of_ne_nil String.utf8EncodeChar_ne_nil
    rw [utf8_cons, List.length_append] at enough
    obtain ⟨less, rfl⟩ : ∃ less, fuel = less + 1 := ⟨fuel - 1, by omega⟩
    have nonempty : (String.utf8EncodeChar c ++ utf8 chars).isEmpty = false := by simp
    rw [utf8_cons, fromUtf8Loop, nonempty]
    simp only [Bool.false_eq_true, if_false, decodeUtf8_encodeChar, List.drop_left,
      ih less (by omega), Option.map_some]

theorem utf8_of_fromUtf8Loop {fuel : Nat} {text : Bytes} {chars : List Char}
    (found : fromUtf8Loop fuel text = some chars) : text = utf8 chars := by
  induction fuel generalizing text chars with
  | zero =>
    cases text with
    | nil =>
      cases found
      rfl
    | cons byte rest => cases found
  | succ fuel ih =>
    cases text with
    | nil =>
      cases found
      rfl
    | cons byte rest =>
      simp only [fromUtf8Loop, List.isEmpty_cons, Bool.false_eq_true, if_false] at found
      cases step : decodeUtf8 (byte :: rest) with
      | none =>
        rw [step] at found
        cases found
      | some decoded =>
        obtain ⟨c, length⟩ := decoded
        obtain ⟨later, same, rfl⟩ := decodeUtf8_sound step
        simp only [step] at found
        rw [same, List.drop_left] at found
        obtain ⟨others, read, rfl⟩ := Option.map_eq_some_iff.mp found
        rw [same, ih read, utf8_cons]

theorem fromUtf8_iff (text : Bytes) (chars : List Char) :
    fromUtf8 text = some chars ↔ text = utf8 chars := by
  constructor
  · exact utf8_of_fromUtf8Loop
  · rintro rfl
    exact fromUtf8Loop_utf8 chars _ (Nat.le_refl _)

section

variable [UnicodeGeneralCategory]

/-- A text that is valid is UTF-8. -/
theorem validateLoop_utf8 {fuel : Nat} {text : Bytes} (valid : validateLoop fuel text = .ok ()) :
    ∃ chars, text = utf8 chars := by
  induction fuel generalizing text with
  | zero =>
    cases text with
    | nil => exact ⟨[], rfl⟩
    | cons byte rest => simp [validateLoop] at valid
  | succ fuel ih =>
    cases text with
    | nil => exact ⟨[], rfl⟩
    | cons byte rest =>
      simp only [validateLoop, List.isEmpty_cons, Bool.false_eq_true, if_false] at valid
      cases found : decodeUtf8 (byte :: rest) with
      | none => simp [found] at valid
      | some decoded =>
        obtain ⟨c, length⟩ := decoded
        obtain ⟨later, same, rfl⟩ := decodeUtf8_sound found
        simp only [found] at valid
        rw [same] at valid ⊢
        split at valid
        · cases valid
        · split at valid
          · cases valid
          · split at valid
            · cases valid
            · simp only [sliceFrom, List.length_append, Nat.le_add_right, if_true,
                List.drop_left, bind, Except.bind] at valid
              obtain ⟨chars, rfl⟩ := ih valid
              exact ⟨c :: chars, rfl⟩

end

end MqttClient.Proto
