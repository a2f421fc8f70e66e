import MqttClient.Api.Text

/-! Which characters the strings of the protocol may contain, by the ranges of the standard
and by the categories of Unicode. -/

namespace MqttClient.Api

open Proto

/-- The code points that are no characters: a block of thirty-two, and the last two of each
plane. -/
def Noncharacter (c : Char) : Prop :=
  0xFDD0 ≤ c.toNat ∧ c.toNat ≤ 0xFDEF ∨ 0xFFFE ≤ c.toNat % 0x10000

instance (c : Char) : Decidable (Noncharacter c) := inferInstanceAs (Decidable (_ ∨ _))

/-- The controls of ASCII and of Latin-1, the null character among them. -/
def Control (c : Char) : Prop := c.toNat ≤ 0x1F ∨ 0x7F ≤ c.toNat ∧ c.toNat ≤ 0x9F

instance (c : Char) : Decidable (Control c) := inferInstanceAs (Decidable (_ ∨ _))

/-- A text of characters that the standard permits. -/
def Permitted (text : Bytes) : Prop :=
  ∃ chars, text = utf8 chars ∧ ∀ c ∈ chars, ¬ Control c ∧ ¬ Noncharacter c

/-- What Unicode says of its categories: there are no other controls, and no category is
assigned to what is no character. -/
structure UnicodeTable [UnicodeGeneralCategory] : Prop where
  control : ∀ c, UnicodeGeneralCategory.generalCategory c = .control ↔ Control c
  unassigned : ∀ c, Noncharacter c → UnicodeGeneralCategory.generalCategory c = .unassigned

section

variable [UnicodeGeneralCategory]

/-- A code point that is kept for a character to come. -/
def Reserved (c : Char) : Prop :=
  UnicodeGeneralCategory.generalCategory c = .unassigned ∧ ¬ Noncharacter c

theorem UnicodeTable.allowed_iff (table : UnicodeTable) (c : Char) :
    Allowed c ↔ (¬ Control c ∧ ¬ Noncharacter c) ∧ ¬ Reserved c := by
  have null : c = '\x00' → Control c := by
    rintro rfl
    decide
  constructor
  · rintro ⟨-, control, assigned⟩
    rw [Ne, table.control] at control
    exact ⟨⟨control, fun none => assigned (table.unassigned c none)⟩, fun kept => assigned kept.1⟩
  · rintro ⟨⟨control, character⟩, current⟩
    refine ⟨fun zero => control (null zero), ?_, fun kept => current ⟨kept, character⟩⟩
    rw [Ne, table.control]
    exact control

/-- Validation accepts the UTF-8 of allowed characters, and nothing else. -/
theorem validateMqttString_bytes (text : Bytes) :
    validateMqttString text = .ok () ↔ ∃ chars, text = utf8 chars ∧ ∀ c ∈ chars, Allowed c := by
  constructor
  · intro valid
    obtain ⟨chars, rfl⟩ := validateLoop_utf8 valid
    exact ⟨chars, rfl, (validateLoop_iff chars _ (Nat.le_refl _)).mp valid⟩
  · rintro ⟨chars, rfl, allowed⟩
    exact (validateLoop_iff chars _ (Nat.le_refl _)).mpr allowed

/-- A text of permitted characters, of which some are only reserved. -/
def HoldsReserved (text : Bytes) : Prop :=
  ∃ chars, text = utf8 chars ∧ (∀ c ∈ chars, ¬ Control c ∧ ¬ Noncharacter c) ∧
    ∃ c ∈ chars, Reserved c

/-- Validation is exact but for reserved code points, which it takes for non-characters. -/
theorem validate_permitted_iff (table : UnicodeTable) (text : Bytes) :
    (validateMqttString text = .ok () ↔ Permitted text) ↔ ¬ HoldsReserved text := by
  rw [validateMqttString_bytes]
  constructor
  · rintro exact ⟨chars, rfl, permitted, c, member, kept⟩
    obtain ⟨found, same, allowed⟩ := exact.mpr ⟨chars, rfl, permitted⟩
    obtain rfl := utf8_injective same
    exact ((table.allowed_iff c).mp (allowed c member)).2 kept
  · intro current
    constructor
    · rintro ⟨chars, rfl, allowed⟩
      exact ⟨chars, rfl, fun c member => ((table.allowed_iff c).mp (allowed c member)).1⟩
    · rintro ⟨chars, rfl, permitted⟩
      refine ⟨chars, rfl, fun c member => ?_⟩
      rw [table.allowed_iff]
      exact ⟨permitted c member, fun kept => current ⟨chars, rfl, permitted, c, member, kept⟩⟩

end

/-- The characters of ASCII that are no controls, in ranges of one category. -/
def latinRanges : List (Nat × Nat × GeneralCategory) :=
  [(0x20, 0x20, .spaceSeparator), (0x21, 0x23, .otherPunctuation), (0x24, 0x24, .currencySymbol),
    (0x25, 0x27, .otherPunctuation), (0x28, 0x28, .openPunctuation),
    (0x29, 0x29, .closePunctuation), (0x2A, 0x2A, .otherPunctuation), (0x2B, 0x2B, .mathSymbol),
    (0x2C, 0x2C, .otherPunctuation), (0x2D, 0x2D, .dashPunctuation),
    (0x2E, 0x2F, .otherPunctuation), (0x30, 0x39, .decimalNumber), (0x3A, 0x3B, .otherPunctuation),
    (0x3C, 0x3E, .mathSymbol), (0x3F, 0x40, .otherPunctuation), (0x41, 0x5A, .uppercaseLetter),
    (0x5B, 0x5B, .openPunctuation), (0x5C, 0x5C, .otherPunctuation),
    (0x5D, 0x5D, .closePunctuation), (0x5E, 0x5E, .modifierSymbol),
    (0x5F, 0x5F, .connectorPunctuation), (0x60, 0x60, .modifierSymbol),
    (0x61, 0x7A, .lowercaseLetter), (0x7B, 0x7B, .openPunctuation), (0x7C, 0x7C, .mathSymbol),
    (0x7D, 0x7D, .closePunctuation), (0x7E, 0x7E, .mathSymbol)]

def latinAssigned (code : Nat) : GeneralCategory :=
  match latinRanges.find? fun range => range.1 ≤ code && code ≤ range.2.1 with
  | some range => range.2.2
  | none => .otherLetter

/-- Categories that agree with Unicode on ASCII, on the controls, on the non-characters and
on the two reserved code points that follow U+0377. -/
def latinCategoryOf (c : Char) : GeneralCategory :=
  if Control c then .control
  else if Noncharacter c ∨ c.toNat = 0x378 ∨ c.toNat = 0x379 then .unassigned
  else latinAssigned c.toNat

theorem latinAssigned_ne_control (code : Nat) : latinAssigned code ≠ .control := by
  have each : ∀ range ∈ latinRanges, range.2.2 ≠ .control := by decide
  rw [latinAssigned]
  split
  · rename_i range found
    exact each range (List.mem_of_find?_eq_some found)
  · decide

@[reducible] def latinCategory : UnicodeGeneralCategory where
  generalCategory := latinCategoryOf
  capital c low high := by
    have least : 65 ≤ c.toNat := low
    have most : c.toNat ≤ 90 := high
    have each : ∀ code : Fin 128, 65 ≤ code.val → code.val ≤ 90 →
        latinAssigned code.val = .uppercaseLetter := by
      decide +kernel
    have control : ¬ Control c := by
      unfold Control
      omega
    have assigned : ¬ (Noncharacter c ∨ c.toNat = 0x378 ∨ c.toNat = 0x379) := by
      unfold Noncharacter
      omega
    rw [latinCategoryOf, if_neg control, if_neg assigned]
    exact each ⟨c.toNat, by omega⟩ least most

theorem latinCategory_table : @UnicodeTable latinCategory := by
  let := latinCategory
  refine ⟨fun c => ?_, fun c none => ?_⟩
  · show latinCategoryOf c = .control ↔ Control c
    by_cases control : Control c
    · simp only [latinCategoryOf, control, if_true]
    · refine iff_of_false ?_ control
      rw [latinCategoryOf, if_neg control]
      by_cases unassigned : Noncharacter c ∨ c.toNat = 0x378 ∨ c.toNat = 0x379
      · rw [if_pos unassigned]
        decide
      · rw [if_neg unassigned]
        exact latinAssigned_ne_control _
  · show latinCategoryOf c = .unassigned
    have control : ¬ Control c := by
      unfold Control
      unfold Noncharacter at none
      omega
    rw [latinCategoryOf, if_neg control, if_pos (.inl none)]

/-- U+0378 is no control and no non-character, but it is rejected as one. -/
theorem validate_reserved :
    letI := latinCategory
    UnicodeTable ∧ ¬ (validateMqttString [0xCD, 0xB8] = .ok () ↔ Permitted [0xCD, 0xB8]) := by
  let := latinCategory
  refine ⟨latinCategory_table, fun exact => ?_⟩
  have permitted : Permitted [0xCD, 0xB8] := by
    refine ⟨['\u0378'], by decide, fun c member => ?_⟩
    rw [List.mem_singleton.mp member]
    decide
  have rejected : validateMqttString [0xCD, 0xB8] =
      .error (.error (.invalidByteStr "contains non-character codepoint")) := by
    decide +kernel
  rw [rejected] at exact
  cases exact.mpr permitted

/-- Plain text is validated exactly. -/
theorem validate_permitted_text :
    letI := latinCategory
    validateMqttString [0x61, 0x2F, 0x62] = .ok () ↔ Permitted [0x61, 0x2F, 0x62] := by
  let := latinCategory
  refine (validate_permitted_iff latinCategory_table _).mpr ?_
  rintro ⟨chars, same, -, c, member, kept, -⟩
  obtain rfl : chars = ['a', '/', 'b'] :=
    utf8_injective (same.symm.trans (by decide : [0x61, 0x2F, 0x62] = utf8 ['a', '/', 'b']))
  have assigned : latinCategoryOf 'a' ≠ .unassigned ∧ latinCategoryOf '/' ≠ .unassigned ∧
      latinCategoryOf 'b' ≠ .unassigned := by decide
  simp only [List.mem_cons, List.not_mem_nil, or_false] at member
  rcases member with rfl | rfl | rfl
  · exact assigned.1 kept
  · exact assigned.2.1 kept
  · exact assigned.2.2 kept

end MqttClient.Api
