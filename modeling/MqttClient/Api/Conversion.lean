import MqttClient.Api.Values
import MqttClient.Proto.Matching

/-! What the conversions to the types of the codec keep, and when they panic. -/

namespace MqttClient.Proto

theorem BinaryData.isSome_ofSlice (bytes : Bytes) :
    (BinaryData.ofSlice bytes).isSome = true ↔ bytes.length ≤ 65535 := by
  unfold ofSlice
  split
  · simp
    omega
  · simp
    omega

/-- The bytes behind their length. -/
theorem BinaryData.ofSlice_spec {bytes : Bytes} {data : BinaryData}
    (converted : BinaryData.ofSlice bytes = some data) :
    data.asBytes = bytes ∧ data.WellFormed ∧ data.shared.length = 2 + bytes.length := by
  unfold ofSlice at converted
  split at converted
  · rename_i short
    cases converted
    have content : (⟨u16ToBeBytes (.ofNat bytes.length) ++ bytes⟩ : BinaryData).asBytes = bytes :=
      rfl
    refine ⟨content, ⟨?_, ?_⟩, ?_⟩
    · rw [content]
      omega
    · rw [content]
    · simp [u16ToBeBytes]
      omega
  · cases converted

namespace ByteStr

theorem isSome_ofStr (text : String) :
    (ofStr text).isSome = true ↔ (Api.asBytes text).length ≤ 65535 := by
  rw [ofStr, Option.isSome_map, BinaryData.isSome_ofSlice]

variable {text : String} {wire : ByteStr}

theorem ofStr_spec (converted : ofStr text = some wire) :
    wire.asBytes = Api.asBytes text ∧ wire.data.WellFormed ∧
      wire.data.shared.length = 2 + (Api.asBytes text).length := by
  obtain ⟨data, sliced, rfl⟩ := Option.map_eq_some_iff.mp converted
  exact BinaryData.ofSlice_spec sliced

/-- The text of a string is one that the wire can carry if its characters are allowed. -/
theorem wellFormed_ofStr [UnicodeGeneralCategory] (converted : ofStr text = some wire) :
    wire.WellFormed ↔ ∀ c ∈ text.toList, Api.Allowed c := by
  obtain ⟨content, formed, -⟩ := ofStr_spec converted
  rw [WellFormed, content, Api.validateMqttString_iff]
  exact and_iff_right formed

end ByteStr

section

variable [UnicodeGeneralCategory]

/-- A topic of the wire is checked as the string it was made of. -/
theorem Topic.new_eq_check {inner : ByteStr} (formed : inner.data.WellFormed) :
    Topic.new inner = (Topic.check inner.asBytes).map fun _ => ⟨inner⟩ := by
  have content : inner.tryAsStr = .ok inner.asBytes := formed.tryAsBytes
  simp only [Topic.new, Topic.check, content, bind, Except.bind]
  generalize inner.asBytes = text
  by_cases empty : text.isEmpty = true
  · simp only [empty, if_true, Except.map]
  · by_cases long : 65535 < text.length
    · simp only [empty, long, if_true, Bool.false_eq_true, if_false, Except.map]
    · simp only [empty, long, Bool.false_eq_true, if_false]
      cases validateMqttString text with
      | error fault => rfl
      | ok _ =>
        simp only
        split <;> rfl

theorem Topic.check_ok {text : Bytes} (valid : Topic.check text = .ok ()) :
    text.length ≤ 65535 ∧ validateMqttString text = .ok () := by
  simp only [Topic.check, bind, Except.bind] at valid
  split at valid
  · cases valid
  · split at valid
    · cases valid
    · rename_i short
      split at valid
      · cases valid
      · rename_i validated
        exact ⟨by omega, validated⟩

theorem Filter.new_eq_check {inner : ByteStr} {text : Bytes} (content : inner.tryAsStr = .ok text) :
    Filter.new inner = (Filter.check text).map fun kind => ⟨inner, kind⟩ := by
  simp only [Filter.new, Filter.check, content, bind, Except.bind]
  by_cases empty : text.isEmpty = true
  · simp only [empty, if_true, Except.map]
  · by_cases long : 65535 < text.length
    · simp only [empty, long, if_true, Bool.false_eq_true, if_false, Except.map]
    · simp only [empty, long, Bool.false_eq_true, if_false]
      cases validateMqttString text with
      | error fault => rfl
      | ok _ =>
        cases Filter.classifyNew text with
        | error fault => rfl
        | ok classified =>
          obtain ⟨kind, filter⟩ := classified
          simp only
          split
          · rfl
          · cases Filter.parse filter .separator filter <;> rfl

theorem Filter.check_iff {text : Bytes} {kind : FilterKind} :
    Filter.check text = .ok kind ↔
      text ≠ [] ∧ text.length ≤ 65535 ∧ validateMqttString text = .ok () ∧
        ∃ pattern, classifyNew text = .ok (kind, pattern) ∧ pattern ≠ [] ∧
          LevelRule (levels pattern) := by
  simp only [Filter.check, bind, Except.bind]
  by_cases empty : text = []
  · simp [empty]
  · by_cases long : 65535 < text.length
    · simp [empty, long]
    · rw [if_neg (by simpa using empty), if_neg long]
      cases validateMqttString text with
      | error fault => simp
      | ok _ =>
        cases Filter.classifyNew text with
        | error fault => simp
        | ok classified =>
          obtain ⟨found, pattern⟩ := classified
          have rule := Filter.parse_iff pattern pattern .separator
          rw [Filter.ParseState.Continues] at rule
          by_cases none : pattern = []
          · simp [none]
          · cases parsed : Filter.parse pattern .separator pattern with
            | error fault => simp_all
            | ok _ => simp_all

theorem Filter.check_ok {text : Bytes} {kind : FilterKind} (valid : Filter.check text = .ok kind) :
    text.length ≤ 65535 ∧ validateMqttString text = .ok () :=
  have accepted := Filter.check_iff.mp valid
  ⟨accepted.2.1, accepted.2.2.1⟩

end

end MqttClient.Proto

namespace MqttClient.Api

open Proto

section

variable [UnicodeGeneralCategory]

/-- A topic name is converted to a topic that the wire can carry. -/
theorem TopicName.into_some (name : TopicName) : ∃ topic, name.into = some topic ∧
    topic.WellFormed ∧ topic.inner.data.shared.length = 2 + (asBytes name.text).length := by
  obtain ⟨short, valid⟩ := Topic.check_ok name.valid
  obtain ⟨inner, converted⟩ := Option.isSome_iff_exists.mp ((ByteStr.isSome_ofStr _).mpr short)
  obtain ⟨content, formed, length⟩ := ByteStr.ofStr_spec converted
  refine ⟨⟨inner⟩, by rw [TopicName.into, converted]; rfl, ⟨⟨formed, content ▸ valid⟩, ?_⟩, length⟩
  rw [Topic.new_eq_check formed, content, name.valid]
  rfl

theorem TopicFilter.into_some (filter : TopicFilter) : ∃ wire, filter.into = some wire ∧
    wire.WellFormed ∧ wire.kind = filter.kind ∧
    wire.inner.data.shared.length = 2 + (asBytes filter.text).length := by
  obtain ⟨short, valid⟩ := Filter.check_ok filter.valid
  obtain ⟨inner, converted⟩ := Option.isSome_iff_exists.mp ((ByteStr.isSome_ofStr _).mpr short)
  obtain ⟨content, formed, length⟩ := ByteStr.ofStr_spec converted
  refine ⟨⟨inner, filter.kind⟩, by rw [TopicFilter.into, converted]; rfl,
    ⟨⟨formed, content ▸ valid⟩, ?_⟩, rfl, length⟩
  rw [Filter.new_eq_check formed.tryAsBytes]
  change (Filter.check inner.asBytes).map _ = _
  rw [content, filter.valid]
  rfl

end

end MqttClient.Api
