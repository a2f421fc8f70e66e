import MqttClient.Proto.Utf8

/-! Texts of the application. A `String` is a sequence of characters, and the wire carries
its UTF-8, which the codec reads one character after another. -/

namespace MqttClient.Api

open Proto

/-- `str::as_bytes` -/
def asBytes (text : String) : Bytes := text.toUTF8.data.toList

theorem asBytes_eq (text : String) :
    asBytes text = text.toList.flatMap String.utf8EncodeChar := by
  rw [asBytes, String.toUTF8_eq_toByteArray, ← String.utf8Encode_toList, List.utf8Encode,
    List.data_toByteArray]

section

variable [UnicodeGeneralCategory]

/-- A character that strings of the protocol may contain. -/
def Allowed (c : Char) : Prop :=
  c ≠ '\x00' ∧ UnicodeGeneralCategory.generalCategory c ≠ .control ∧
    UnicodeGeneralCategory.generalCategory c ≠ .unassigned

/-- Validation of the UTF-8 of some characters accepts exactly those that are allowed. -/
theorem validateLoop_iff (chars : List Char) (fuel : Nat)
    (enough : (chars.flatMap String.utf8EncodeChar).length ≤ fuel) :
    validateLoop fuel (chars.flatMap String.utf8EncodeChar) = .ok () ↔
      ∀ c ∈ chars, Allowed c := by
  induction chars generalizing fuel with
  | nil => cases fuel <;> simp [validateLoop]
  | cons c chars ih =>
    have some : 0 < (String.utf8EncodeChar c).length :=
      List.length_pos_of_ne_nil String.utf8EncodeChar_ne_nil
    simp only [List.flatMap_cons, List.length_append] at enough ⊢
    obtain ⟨less, rfl⟩ : ∃ less, fuel = less + 1 := ⟨fuel - 1, by omega⟩
    have nonempty : (String.utf8EncodeChar c ++ chars.flatMap String.utf8EncodeChar).isEmpty =
        false := by
      simp
    rw [validateLoop, nonempty]
    simp only [Bool.false_eq_true, if_false, decodeUtf8_encodeChar, List.forall_mem_cons]
    by_cases zero : c = '\x00'
    · simp [zero, Allowed]
    · by_cases control : UnicodeGeneralCategory.generalCategory c = .control
      · simp [zero, control, Allowed]
      · by_cases unassigned : UnicodeGeneralCategory.generalCategory c = .unassigned
        · simp [zero, unassigned, Allowed]
        · have allowed : Allowed c := ⟨zero, control, unassigned⟩
          have rest := ih less (by omega)
          simpa [zero, control, unassigned, sliceFrom, allowed, bind, Except.bind] using rest

theorem validateMqttString_iff (text : String) :
    validateMqttString (asBytes text) = .ok () ↔ ∀ c ∈ text.toList, Allowed c := by
  rw [validateMqttString, asBytes_eq]
  exact validateLoop_iff text.toList _ (Nat.le_refl _)

end

end MqttClient.Api
