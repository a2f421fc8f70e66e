import MqttClient.Proto.Total

/-! The order of the properties in a block does not matter, but for those that may be
repeated. -/

namespace MqttClient.Proto

open Lib Decoding

namespace Property

/-- The property may stand behind those already seen. -/
def Admits (single repeated : List PropertyKind) (seen : List Property) (property : Property) :
    Prop :=
  property.kind ∈ repeated ∨ property.kind ∈ single ∧ property.kind ∉ seen.map kind

theorem admitsAll_iff (single repeated : List PropertyKind) (seen properties : List Property) :
    Decoder.AdmitsAll (Admits single repeated) seen properties ↔
      Accepted single repeated properties ∧
        ∀ property ∈ properties, property.kind ∉ repeated → property.kind ∉ seen.map kind := by
  induction properties generalizing seen with
  | nil => simp [Decoder.AdmitsAll, Accepted]
  | cons head tail ih =>
    simp only [Decoder.AdmitsAll, ih, Accepted, Admits, List.mem_cons, List.pairwise_cons,
      List.map_append, List.mem_append, List.map_cons, List.map_nil]
    constructor
    · rintro ⟨first, ⟨listed, ordered⟩, fresh⟩
      refine ⟨⟨?_, ?_, ordered⟩, ?_⟩
      · rintro property (rfl | later)
        · exact first.imp id And.left
        · exact listed property later
      · intro property later same
        by_contra once
        apply fresh property later once
        exact .inr (.inl same.symm)
      · rintro property (rfl | later) once
        · exact (first.resolve_left once).2
        · intro earlier
          exact fresh property later once (.inl earlier)
    · rintro ⟨⟨listed, distinct, ordered⟩, fresh⟩
      refine ⟨?_, ⟨fun property later => listed property (.inr later), ordered⟩, ?_⟩
      · by_cases many : head.kind ∈ repeated
        · exact .inl many
        · exact .inr ⟨(listed head (.inl rfl)).resolve_left many, fresh head (.inl rfl) many⟩
      · intro property later once earlier
        rcases earlier with earlier | same | none
        · exact fresh property (.inr later) once earlier
        · exact once (distinct property later same.symm)
        · cases none

theorem accepted_perm {single repeated : List PropertyKind} {properties reordered : List Property}
    (perm : reordered.Perm properties) (accepted : Accepted single repeated properties) :
    Accepted single repeated reordered := by
  refine ⟨fun property member => accepted.1 property (perm.mem_iff.mp member), ?_⟩
  refine (perm.pairwise_iff ?_).mpr accepted.2
  intro first second once same
  rw [same] at once
  exact once rfl

/-- Without a kind twice that may stand once, and with none that the packet does not have, a
block is accepted. -/
theorem accepted_of_count {single repeated : List PropertyKind} {properties : List Property}
    (listed : ∀ property ∈ properties, property.kind ∈ repeated ∨ property.kind ∈ single)
    (once : ∀ kind ∈ single, (properties.map Property.kind).count kind ≤ 1) :
    Accepted single repeated properties := by
  refine ⟨listed, ?_⟩
  induction properties with
  | nil => exact .nil
  | cons head tail ih =>
    rw [List.pairwise_cons]
    constructor
    · intro property later same
      by_contra many
      have alone := once _ ((listed property (.tail _ later)).resolve_left many)
      have present : 0 < (tail.map Property.kind).count property.kind :=
        List.count_pos_iff.mpr (List.mem_map_of_mem later)
      rw [List.map_cons, List.count_cons, same, beq_self_eq_true, if_pos rfl] at alone
      omega
    · apply ih
      · exact fun property later => listed property (.tail _ later)
      · intro kind member
        have alone := once kind member
        rw [List.map_cons, List.count_cons] at alone
        omega

end Property

namespace Binding

theorem value_eq {α : Type} (binding : Binding α) (properties : List Property) :
    binding.value properties = (binding.values properties).head? := by
  rw [value, values, List.head?_filterMap]

/-- The values come from the properties of the kind. -/
theorem values_filter {α : Type} (binding : Binding α) (properties : List Property) :
    binding.values (properties.filter fun property => property.kind = binding.kind) =
      binding.values properties := by
  induction properties with
  | nil => rfl
  | cons head tail ih =>
    simp only [values] at ih ⊢
    by_cases same : head.kind = binding.kind
    · simp [same, List.filterMap_cons, ih]
    · have unread : binding.read head = none := by
        rw [Option.eq_none_iff_forall_ne_some]
        intro value found
        apply same
        rw [binding.property_of_read head value found, binding.kind_property]
      simp [same, unread, ih]

/-- A property that may stand once has one value at most. -/
theorem values_length {α : Type} (binding : Binding α) {single repeated : List PropertyKind}
    {properties : List Property} (accepted : Property.Accepted single repeated properties)
    (once : binding.kind ∉ repeated) : (binding.values properties).length ≤ 1 := by
  have alone : (properties.filter fun property => property.kind = binding.kind).length ≤ 1 := by
    have ordered := accepted.2.filter fun property => decide (property.kind = binding.kind)
    match found : properties.filter fun property => decide (property.kind = binding.kind) with
    | [] => simp [found]
    | [_] => simp [found]
    | first :: second :: rest =>
      have same : ∀ property ∈ first :: second :: rest, property.kind = binding.kind := by
        intro property member
        rw [← found] at member
        simpa using (List.mem_filter.mp member).2
      rw [found, List.pairwise_cons] at ordered
      have clash := ordered.1 second (by simp)
      rw [same first (by simp), same second (by simp)] at clash
      exact absurd (clash rfl) once
  rw [← values_filter]
  exact Nat.le_trans (List.length_filterMap_le _ _) alone

end Binding

section

variable [UnicodeGeneralCategory]

/-- A property with bytes that are read as it. -/
structure CodedProperty where
  code : Bytes
  property : Property
  reads : Property.decode.Reads code property

namespace CodedProperty

def bytes (properties : List CodedProperty) : Bytes := properties.flatMap code

def kinds (properties : List CodedProperty) : List PropertyKind :=
  properties.map fun coded => coded.property.kind

/-- The properties of one kind, in the order of the block. -/
def ofKind (kind : PropertyKind) (properties : List CodedProperty) : List Property :=
  (properties.map property).filter fun property => property.kind = kind

/-- Another order of the same properties, which keeps that of the user properties and that
of the subscription identifiers. -/
structure Reordered (properties reordered : List CodedProperty) : Prop where
  perm : reordered.Perm properties
  userProperties : ofKind .userProperty reordered = ofKind .userProperty properties
  subscriptionIdentifiers :
    ofKind .subscriptionIdentifier reordered = ofKind .subscriptionIdentifier properties

theorem nonempty (coded : CodedProperty) : coded.code ≠ [] := by
  intro empty
  have read := coded.reads []
  rw [empty] at read
  cases read

theorem reads_next {single repeated : List PropertyKind} (seen : List Property)
    (coded : CodedProperty) (admitted : Property.Admits single repeated seen coded.property) :
    (Property.decodeNext single repeated seen).Reads coded.code coded.property := by
  refine coded.reads.finish ?_
  by_cases many : coded.property.kind ∈ repeated
  · rw [if_pos many]
    exact .pure _
  · obtain ⟨listed, fresh⟩ := admitted.resolve_left many
    rw [if_neg many, if_pos listed, if_neg fresh]
    exact .pure _

theorem next_refuses {single repeated : List PropertyKind} (seen : List Property)
    (coded : CodedProperty) (refused : ¬ Property.Admits single repeated seen coded.property)
    (rest : Bytes) :
    ∃ fault, Property.decodeNext single repeated seen (coded.code ++ rest) = .error fault := by
  obtain ⟨rare, clash⟩ := not_or.mp refused
  rw [Property.decodeNext, Decoder.bind_apply, coded.reads]
  simp only [if_neg rare]
  by_cases listed : coded.property.kind ∈ single
  · rw [if_pos listed, if_pos (by_contra fun fresh => clash ⟨listed, fresh⟩)]
    exact ⟨_, rfl⟩
  · rw [if_neg listed]
    exact ⟨_, rfl⟩

/-- The loop of a block ends with its properties if they are accepted, and with an error
otherwise. -/
theorem collect_bytes (single repeated : List PropertyKind) (properties : List CodedProperty) :
    (Property.Accepted single repeated (properties.map property) →
      Decoder.collect .diverge (Property.decodeNext single repeated) (bytes properties) =
        .ok (properties.map property, [])) ∧
      (¬ Property.Accepted single repeated (properties.map property) →
        ∃ fault, Decoder.collect .diverge (Property.decodeNext single repeated)
          (bytes properties) = .error fault) := by
  have refuses : ∀ (seen : List Property) (coded : CodedProperty),
      ¬ Property.Admits single repeated seen coded.property → ∀ rest, ∃ fault,
        Property.decodeNext single repeated seen (coded.code ++ rest) = .error fault := next_refuses
  have loop : _ ∧ (_ → ∃ fault, Decoder.collectLoop Fault.diverge _ _ _ _ = .error fault) :=
    Decoder.collectLoop_codes nonempty reads_next refuses properties []
      (bytes properties).length (Nat.le_refl _)
  rw [Property.admitsAll_iff] at loop
  simpa [Decoder.collect, bytes] using loop

end CodedProperty

/-- The bytes of a block are decoded alone, behind their length. -/
theorem Property.decodeAll_block {single repeated : List PropertyKind} {length block : Bytes}
    (counted : decodeRemainingLength.Reads length (some block.length)) (rest : Bytes) :
    decodeAll single repeated (length ++ block ++ rest) =
      (Decoder.collect .diverge (decodeNext single repeated) block).map
        fun outcome => (outcome.1, rest) := by
  have header : (scan (required decodeRemainingLength)).Reads length block.length :=
    reads_scan (counted.finish (.pure _))
  rw [decodeAll, List.append_assoc, Decoder.bind_apply, header]
  simp only [Decoder.bind_apply, Decoder.input, splitTo, List.length_append, Nat.le_add_right,
    Nat.not_lt.mpr (Nat.le_add_right _ _), if_true, if_false, List.take_left, List.drop_left,
    Decoder.nested]
  cases Decoder.collect .diverge (decodeNext single repeated) block <;> rfl

theorem Property.settles_all {single repeated : List PropertyKind} {length block : Bytes}
    (counted : decodeRemainingLength.Reads length (some block.length)) :
    (decodeAll single repeated).Settles (length ++ block) := by
  refine ⟨(Decoder.collect .diverge (decodeNext single repeated) block).map Prod.fst, ?_⟩
  intro rest
  rw [decodeAll_block counted]
  cases Decoder.collect .diverge (decodeNext single repeated) block <;> rfl

/-- Every value that a packet reads from the properties is the same. -/
def Property.Agree (first second : List Property) : Prop :=
  ∀ (α : Type) (binding : Binding α), binding.values first = binding.values second

namespace CodedProperty

theorem Reordered.agree {properties reordered : List CodedProperty}
    (same : Reordered properties reordered) {single repeated : List PropertyKind}
    (accepted : Property.Accepted single repeated (properties.map property))
    (ordered : ∀ kind ∈ repeated, kind = .userProperty ∨ kind = .subscriptionIdentifier) :
    Property.Agree (reordered.map property) (properties.map property) := by
  intro α binding
  by_cases many : binding.kind ∈ repeated
  · rw [← binding.values_filter, ← binding.values_filter (properties.map property)]
    rcases ordered _ many with kind | kind
    · rw [kind]
      exact congrArg binding.values same.userProperties
    · rw [kind]
      exact congrArg binding.values same.subscriptionIdentifiers
  · have perm : (binding.values (reordered.map property)).Perm
        (binding.values (properties.map property)) := (same.perm.map property).filterMap _
    have single := binding.values_length accepted many
    match found : binding.values (properties.map property), single with
    | [], _ =>
      rw [found] at perm
      exact perm.eq_nil
    | [value], _ =>
      rw [found] at perm
      exact List.perm_singleton.mp perm

variable {length : Bytes} {properties reordered : List CodedProperty}
  (counted : decodeRemainingLength.Reads length (some (bytes properties).length))

theorem Reordered.length_eq (same : Reordered properties reordered) :
    (bytes reordered).length = (bytes properties).length :=
  (same.perm.flatMap_right code).length_eq

include counted in
/-- A decoder that uses the properties only through their values takes one order for another. -/
theorem Reordered.alike_all (same : Reordered properties reordered)
    {single repeated : List PropertyKind}
    (ordered : ∀ kind ∈ repeated, kind = .userProperty ∨ kind = .subscriptionIdentifier)
    {β : Type} {next : List Property → Decoding β}
    (depends : ∀ first second, Property.Agree first second → next first = next second)
    (rest : Bytes) :
    (Property.decodeAll single repeated >>= next).Alike (length ++ bytes properties ++ rest)
      (length ++ bytes reordered ++ rest) := by
  have other : decodeRemainingLength.Reads length (some (bytes reordered).length) :=
    same.length_eq ▸ counted
  obtain ⟨reads, fails⟩ := collect_bytes single repeated properties
  obtain ⟨otherReads, otherFails⟩ := collect_bytes single repeated reordered
  rw [Decoder.Alike, Decoder.bind_apply, Decoder.bind_apply, Property.decodeAll_block counted,
    Property.decodeAll_block other]
  by_cases accepted : Property.Accepted single repeated (properties.map property)
  · rw [reads accepted, otherReads (Property.accepted_perm (same.perm.map property) accepted)]
    simp only [Except.map]
    rw [depends _ _ (same.agree accepted ordered)]
  · have refused : ¬ Property.Accepted single repeated (reordered.map property) := by
      intro whole
      exact accepted (Property.accepted_perm (same.perm.symm.map property) whole)
    obtain ⟨fault, failed⟩ := fails accepted
    obtain ⟨otherFault, otherFailed⟩ := otherFails refused
    rw [failed, otherFailed]
    rfl

include counted in
/-- Properties that are only read are refused only when they are not accepted. -/
theorem refused_of_all {single repeated : List PropertyKind} {β : Type}
    {make : List Property → β} {rest : Bytes} {fault : Fault}
    (failed : (Property.decodeAll single repeated >>= fun properties => pure (make properties))
      (length ++ bytes properties ++ rest) = .error fault) :
    ¬ Property.Accepted single repeated (properties.map property) := by
  intro accepted
  rw [Decoder.bind_apply, Property.decodeAll_block counted,
    (collect_bytes single repeated properties).1 accepted] at failed
  cases failed

/-- Data for an authentication, of which the method is not given. -/
def DataAlone (properties : List CodedProperty) : Prop :=
  .authenticationData ∈ kinds properties ∧ .authenticationMethod ∉ kinds properties

include counted in
/-- Properties with an authentication are also refused when its method is not given. -/
theorem refused_of_authentication {single repeated : List PropertyKind} {β : Type}
    {make : List Property → Option Authentication → β} {rest : Bytes} {fault : Fault}
    (failed : (do
        let properties ← Property.decodeAll single repeated
        let authentication ← Authentication.of
          (Binding.authenticationMethod.value properties)
          (Binding.authenticationData.value properties)
        return make properties authentication : Decoding β)
      (length ++ bytes properties ++ rest) = .error fault) :
    ¬ Property.Accepted single repeated (properties.map property) ∨ DataAlone properties := by
  by_cases accepted : Property.Accepted single repeated (properties.map property)
  · right
    rw [Decoder.bind_apply, Property.decodeAll_block counted,
      (collect_bytes single repeated properties).1 accepted] at failed
    simp only [Except.map] at failed
    cases method : Binding.authenticationMethod.value (properties.map property) with
    | some text =>
      rw [method] at failed
      cases failed
    | none =>
      cases data : Binding.authenticationData.value (properties.map property) with
      | none =>
        rw [method, data] at failed
        cases failed
      | some bytes =>
        constructor
        · obtain ⟨property, member, read⟩ := List.exists_of_findSome?_eq_some data
          obtain ⟨coded, present, rfl⟩ := List.mem_map.mp member
          refine List.mem_map.mpr ⟨coded, present, ?_⟩
          rw [Binding.authenticationData.property_of_read _ _ read]
          rfl
        · intro given
          obtain ⟨coded, present, kind⟩ := List.mem_map.mp given
          have unread := List.findSome?_eq_none_iff.mp method coded.property
            (List.mem_map_of_mem present)
          cases same : coded.property with
          | authenticationMethod text =>
            rw [same] at unread
            cases unread
          | _ =>
            rw [same] at kind
            cases kind
  · exact .inl accepted

/-- A kind that the packet does not have, or one twice that it has once. -/
def Misplaced (single repeated : List PropertyKind) (properties : List CodedProperty) : Prop :=
  (∃ kind ∈ kinds properties, kind ∉ single ∧ kind ∉ repeated) ∨
    ∃ kind ∈ single, 1 < (kinds properties).count kind

theorem misplaced_of_refused {single repeated : List PropertyKind}
    (refused : ¬ Property.Accepted single repeated (properties.map property)) :
    Misplaced single repeated properties := by
  by_contra fine
  obtain ⟨listed, once⟩ := not_or.mp fine
  apply refused
  have kinds_map : (properties.map property).map Property.kind = kinds properties := List.map_map
  refine Property.accepted_of_count ?_ ?_
  · intro property member
    by_contra unlisted
    obtain ⟨rare, none⟩ := not_or.mp unlisted
    refine listed ⟨property.kind, ?_, none, rare⟩
    rw [← kinds_map]
    exact List.mem_map_of_mem member
  · intro kind member
    rw [kinds_map]
    by_contra twice
    exact once ⟨kind, member, by omega⟩

end CodedProperty

end

end MqttClient.Proto
