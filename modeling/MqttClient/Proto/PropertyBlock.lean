import MqttClient.Proto.PropertySpec

/-! Blocks of properties: what a packet puts into its block is what it reads from it, and
what it read is put again into no more bytes. -/

namespace MqttClient.Proto

open Lib Decoding Encoding

namespace Property

/-- A property is left out or put as it is, but for the interval of a CONNECT. -/
theorem onWire_cases (property : Property) :
    property.onWire = [] ∨ property.onWire = [property] ∨
      ∃ interval, property = .connectSessionExpiryInterval interval ∧
        property.onWire = [.sessionExpiryInterval interval] := by
  cases property with
  | connectSessionExpiryInterval interval =>
    simp only [onWire]
    split
    · exact .inr (.inr ⟨interval, rfl, rfl⟩)
    · exact .inl rfl
  | _ =>
    first
    | exact .inr (.inl rfl)
    | dsimp only [onWire]
      split
      · exact .inr (.inl rfl)
      · exact .inl rfl

theorem length_onWire (property : Property) : property.onWire.length ≤ 1 := by
  rcases property.onWire_cases with none | same | ⟨interval, -, session⟩
  · simp [none]
  · simp [same]
  · simp [session]

theorem onWire_of_mem {property shown : Property} (member : shown ∈ property.onWire) :
    shown.onWire = [shown] := by
  rcases property.onWire_cases with none | same | ⟨interval, -, session⟩
  · simp [none] at member
  · rw [same, List.mem_singleton] at member
    rw [member, same]
  · rw [session, List.mem_singleton] at member
    rw [member]
    rfl

theorem kind_of_mem_onWire {property shown : Property} (member : shown ∈ property.onWire)
    (plain : property.kind ≠ .connectSessionExpiryInterval) : shown.kind = property.kind := by
  rcases property.onWire_cases with none | same | ⟨interval, rfl, session⟩
  · simp [none] at member
  · rw [same, List.mem_singleton] at member
    rw [member]
  · exact absurd rfl plain

theorem WellFormed.of_mem_onWire [UnicodeGeneralCategory] {property shown : Property}
    (formed : property.WellFormed) (member : shown ∈ property.onWire) : shown.WellFormed := by
  rcases property.onWire_cases with none | same | ⟨interval, rfl, session⟩
  · simp [none] at member
  · rw [same, List.mem_singleton] at member
    exact member ▸ formed
  · rw [session, List.mem_singleton] at member
    exact member ▸ formed

theorem forEach_onWire (properties : List Property) :
    Encoder.forEach properties encode = Encoder.forEach (properties.flatMap onWire) encode := by
  rw [Encoder.forEach_flatMap]
  exact congrArg _ (funext encode_onWire)

theorem encodeAll_onWire (properties : List Property) :
    encodeAll properties = encodeAll (properties.flatMap onWire) := by
  rw [encodeAll, forEach_onWire]
  rfl

/-- The bytes that properties take in a block. -/
def weight (properties : List Property) : Nat :=
  (properties.map fun property => property.encode.size).sum

theorem weight_append (front back : List Property) :
    weight (front ++ back) = weight front + weight back := by
  simp [weight]

theorem weight_le_of_sublist {some all : List Property} (sublist : some.Sublist all) :
    weight some ≤ weight all := by
  induction sublist with
  | slnil => exact Nat.le_refl 0
  | cons head _ ih =>
    simp only [weight, List.map_cons, List.sum_cons] at ih ⊢
    omega
  | cons_cons head _ ih =>
    simp only [weight, List.map_cons, List.sum_cons] at ih ⊢
    omega

theorem weight_filter (properties : List Property) (holds : Property → Bool) :
    weight (properties.filter holds) + weight (properties.filter fun property => !holds property) =
      weight properties := by
  induction properties with
  | nil => rfl
  | cons head tail ih =>
    simp only [weight] at ih ⊢
    cases chosen : holds head <;> simp [chosen] <;> omega

theorem size_forEach (properties : List Property) :
    (Encoder.forEach properties encode).size = weight properties :=
  Encoder.size_forEach properties encode

theorem weight_onWire (properties : List Property) :
    weight (properties.flatMap onWire) = weight properties := by
  rw [← size_forEach, ← forEach_onWire, size_forEach]

/-- Properties of the kinds that a packet has, none twice that may stand once. -/
def Accepted (single repeated : List PropertyKind) (properties : List Property) : Prop :=
  (∀ property ∈ properties, property.kind ∈ repeated ∨ property.kind ∈ single) ∧
    properties.Pairwise fun first second => first.kind = second.kind → second.kind ∈ repeated

section

variable [UnicodeGeneralCategory] {single repeated : List PropertyKind}

theorem encode_ne_nil {property : Property} (formed : property.WellFormed)
    (shown : property.onWire = [property]) : property.encode.items ≠ [] := by
  intro empty
  have read := (roundTrips formed shown).2 []
  rw [empty] at read
  cases read

theorem roundTrips_next {seen : List Property} {property : Property}
    (formed : property.WellFormed) (shown : property.onWire = [property])
    (listed : property.kind ∈ repeated ∨ property.kind ∈ single)
    (fresh : property.kind ∉ repeated → property.kind ∉ seen.map kind) :
    RoundTrips property.encode (decodeNext single repeated seen) property := by
  refine (roundTrips formed shown).finish ?_
  by_cases many : property.kind ∈ repeated
  · simpa [many] using Decoder.Reads.pure property
  · rw [if_neg many, if_pos (listed.resolve_left many), if_neg (fresh many)]
    exact .pure property

theorem ensures_next (seen : List Property) :
    (decodeNext single repeated seen).Ensures fun property used =>
      property.WellFormed ∧ property.encode.size ≤ used ∧
        (property.kind ∈ repeated ∨ property.kind ∈ single) ∧
        (property.kind ∉ repeated → property.kind ∉ seen.map kind) := by
  refine ensures.bind fun property used holds => ?_
  split
  · rename_i many
    exact .pure ⟨holds.1, holds.2, .inl many, fun other => absurd many other⟩
  · split
    · rename_i listed
      split
      · exact .fail
      · rename_i fresh
        exact .pure ⟨holds.1, holds.2, .inr listed, fun _ => fresh⟩
    · exact .fail

theorem readsAll_collect {properties : List Property}
    (formed : ∀ property ∈ properties, property.WellFormed)
    (shown : ∀ property ∈ properties, property.onWire = [property])
    (accepted : Accepted single repeated properties) :
    (Decoder.collect .diverge (decodeNext single repeated)).ReadsAll
      (properties.flatMap fun property => property.encode.items) properties := by
  refine Decoder.collect_readsAll properties fun before property after split => ?_
  have member : property ∈ properties := by simp [split]
  have ordered := accepted.2
  rw [split, List.pairwise_append] at ordered
  refine ⟨encode_ne_nil (formed property member) (shown property member), ?_⟩
  refine (roundTrips_next (formed property member) (shown property member)
    (accepted.1 property member) fun single earlier => ?_).2
  obtain ⟨first, present, same⟩ := List.mem_map.mp earlier
  exact single (ordered.2.2 first present property List.mem_cons_self same)

theorem emits_forEach {properties : List Property}
    (formed : ∀ property ∈ properties, property.WellFormed)
    (shown : ∀ property ∈ properties, property.onWire = [property]) :
    (Encoder.forEach properties encode).Emits
      (properties.flatMap fun property => property.encode.items) :=
  .forEach fun property member => (roundTrips (formed property member) (shown property member)).emits

omit [UnicodeGeneralCategory] in
theorem length_items (properties : List Property) :
    (properties.flatMap fun property => property.encode.items).length = weight properties := by
  simp only [weight, List.length_flatMap]
  rfl

/-- The counting pass succeeds for what is well formed, so the block stands behind its length. -/
theorem encodeAll_eq {properties : List Property}
    (formed : ∀ property ∈ properties, property.WellFormed) :
    encodeAll properties =
      encodeRemainingLength (weight properties) ++ Encoder.forEach properties encode := by
  have emits : (Encoder.forEach (properties.flatMap onWire) encode).Emits _ := emits_forEach
    (by
      intro shown member
      obtain ⟨property, present, within⟩ := List.mem_flatMap.mp member
      exact (formed property present).of_mem_onWire within)
    (by
      intro shown member
      obtain ⟨property, -, within⟩ := List.mem_flatMap.mp member
      exact onWire_of_mem within)
  rw [← forEach_onWire] at emits
  simp only [encodeAll, run_byteCounter emits 0, length_items, weight_onWire, Nat.zero_add]

/-- A block of properties is read back. -/
theorem roundTrips_all {properties : List Property}
    (formed : ∀ property ∈ properties, property.WellFormed)
    (shown : ∀ property ∈ properties, property.onWire = [property])
    (accepted : Accepted single repeated properties) (small : weight properties < 268435456) :
    RoundTrips (encodeAll properties) (decodeAll single repeated) properties := by
  rw [encodeAll_eq formed]
  refine (roundTrips_scan (roundTrips_required (roundTrips_remainingLength small))).append
    ((emits_forEach formed shown).roundTrips fun rest => ?_)
  have collected := readsAll_collect formed shown accepted
  rw [Decoder.ReadsAll] at collected
  have length := length_items properties
  have enough : ¬ ((properties.flatMap fun property => property.encode.items) ++ rest).length <
      weight properties := by
    simp [length]
  simp only [Decoder.bind_apply, Decoder.input, enough, if_false]
  simp [splitTo, ← length, Decoder.nested, collected, Decoder.ofExcept, Except.map,
    Decoder.pure_apply]

/-- What is known of the properties of a block that was read from so many bytes: they, or
any smaller block, take no more bytes when they are put. -/
structure Read (single repeated : List PropertyKind) (properties : List Property) (used : Nat) :
    Prop where
  formed : ∀ property ∈ properties, property.WellFormed
  accepted : Accepted single repeated properties
  size : ∀ lighter ≤ weight properties, (encodeRemainingLength lighter).size + lighter ≤ used

/-- The properties read so far are accepted and take no more bytes than were used. -/
theorem ensures_collect :
    (Decoder.collect .diverge (decodeNext single repeated)).Ensures fun properties used =>
      (∀ property ∈ properties, property.WellFormed) ∧ Accepted single repeated properties ∧
        weight properties ≤ used := by
  refine Decoder.collect_ensures ⟨by simp, ⟨by simp, .nil⟩, Nat.le_refl 0⟩ fun seen used holds => ?_
  obtain ⟨formed, accepted, small⟩ := holds
  refine (ensures_next seen).mono fun property more next => ?_
  obtain ⟨valid, size, listed, fresh⟩ := next
  refine ⟨?_, ⟨?_, ?_⟩, ?_⟩
  · intro other member
    rcases List.mem_append.mp member with earlier | last
    · exact formed other earlier
    · exact List.mem_singleton.mp last ▸ valid
  · intro other member
    rcases List.mem_append.mp member with earlier | last
    · exact accepted.1 other earlier
    · exact List.mem_singleton.mp last ▸ listed
  · refine List.pairwise_append.mpr ⟨accepted.2, List.pairwise_singleton _ _, ?_⟩
    intro first earlier second last same
    rw [List.mem_singleton] at last
    subst last
    by_contra single
    exact fresh single (List.mem_map.mpr ⟨first, earlier, same⟩)
  · simp only [weight, List.map_append, List.sum_append, List.map_cons, List.map_nil,
      List.sum_singleton]
    exact Nat.add_le_add small size

theorem ensures_all : (decodeAll single repeated).Ensures (Read single repeated) := by
  refine (ensures_scan (ensures_required ensures_remainingLength)).bind fun length header holds => ?_
  obtain ⟨positive, -, fits⟩ := holds
  refine .bindInput fun src => ?_
  split
  · exact .fail
  · refine (ensures_splitTo length).bind fun block used taken => ?_
    refine (Decoder.Ensures.nested ensures_collect block).mono fun properties none found => ?_
    obtain ⟨rfl, inner, within, formed, accepted, small⟩ := found
    refine ⟨formed, accepted, fun lighter less => ?_⟩
    have short := size_remainingLength_le positive (by omega : lighter < 128 ^ header)
    omega

end

end Property

namespace Binding

/-- Only the default is left out of a block. -/
def Omits {α : Type} (binding : Binding α) (default : α) : Prop :=
  ∀ value, (binding.property value).onWire = [binding.property value] ∨
    (binding.property value).onWire = [] ∧ value = default

theorem omits_maximumPacketSize : maximumPacketSize.Omits .max := by
  intro value
  by_cases below : value.get < 4294967295
  · exact .inl (if_pos below)
  · refine .inr ⟨if_neg below, ?_⟩
    have largest : value.get = 4294967295 := by
      refine UInt32.toNat_inj.mp ?_
      have bound := value.get.toNat_lt
      rw [UInt32.lt_iff_toNat_lt] at below
      simp only [UInt32.reduceToNat] at below ⊢
      omega
    obtain ⟨value, nonzero⟩ := value
    exact NonZeroU32.mk.injEq .. ▸ largest

theorem omits_receiveMaximum : receiveMaximum.Omits .max := by
  intro value
  by_cases below : value.get < 65535
  · exact .inl (if_pos below)
  · refine .inr ⟨if_neg below, ?_⟩
    have largest : value.get = 65535 := by
      refine UInt16.toNat_inj.mp ?_
      have bound := value.get.toNat_lt
      rw [UInt16.lt_iff_toNat_lt] at below
      simp only [UInt16.reduceToNat] at below ⊢
      omega
    obtain ⟨value, nonzero⟩ := value
    exact NonZeroU16.mk.injEq .. ▸ largest

theorem omits_maximumQoS : maximumQoS.Omits .exactlyOnce := by
  intro qos
  cases qos with
  | exactlyOnce => exact .inr ⟨rfl, rfl⟩
  | _ => exact .inl rfl

theorem omits_topicAliasMaximum : topicAliasMaximum.Omits 0 := by
  intro value
  by_cases above : 0 < value
  · exact .inl (if_pos above)
  · exact .inr ⟨if_neg above, by simpa using above⟩

theorem omits_willDelayInterval : willDelayInterval.Omits 0 := by
  intro value
  by_cases above : 0 < value
  · exact .inl (if_pos above)
  · exact .inr ⟨if_neg above, by simpa using above⟩

theorem omits_flag {binding : Binding Bool} {default : Bool}
    (hidden : (binding.property default).onWire = [])
    (shown : (binding.property !default).onWire = [binding.property !default]) :
    binding.Omits default := by
  intro flag
  by_cases same : flag = default
  · exact .inr ⟨same ▸ hidden, same⟩
  · rw [Bool.eq_not.mpr same]
    exact .inl shown

end Binding

namespace Slot

/-- What a slot puts on the wire. -/
def onWire (slot : Slot) : List Property := slot.properties.flatMap Property.onWire

/-- Every property that the slot puts is well formed. -/
def WellFormed [UnicodeGeneralCategory] (slot : Slot) : Prop :=
  ∀ property ∈ slot.properties, property.WellFormed

/-- The slot puts properties of one kind, which the packet reads: many of a kind that may
be repeated, at most one of another. -/
structure Fits (single repeated : List PropertyKind) (slot : Slot) : Prop where
  kind : ∀ property ∈ slot.onWire, property.kind = slot.kind
  listed : slot.kind ∈ repeated ∨ slot.kind ∈ single ∧ slot.onWire.length ≤ 1

end Slot

/-- What the slots of a packet put on the wire. -/
def wire (slots : List Slot) : List Property := slots.flatMap Slot.onWire

/-- The slots of a packet whose block has properties of these kinds. -/
structure Layout (single repeated : List PropertyKind) (slots : List Slot) : Prop where
  distinct : (slots.map Slot.kind).Nodup
  fits : ∀ slot ∈ slots, slot.Fits single repeated

namespace Layout

variable {single repeated : List PropertyKind} {slots : List Slot}

theorem accepted (layout : Layout single repeated slots) :
    Property.Accepted single repeated (wire slots) := by
  constructor
  · intro property member
    obtain ⟨slot, present, within⟩ := List.mem_flatMap.mp member
    have fits := layout.fits slot present
    rw [fits.kind property within]
    exact fits.listed.imp_right And.left
  · refine List.pairwise_flatMap.mpr ⟨fun slot present => ?_, ?_⟩
    · have fits := layout.fits slot present
      rcases fits.listed with many | ⟨-, once⟩
      · refine List.pairwise_of_forall_mem_list fun first _ second within _ => ?_
        rwa [fits.kind second within]
      · match slot.onWire, once with
        | [], _ => exact .nil
        | [property], _ => exact List.pairwise_singleton _ _
    · refine (List.pairwise_map.mp layout.distinct).imp_of_mem ?_
      intro first second earlier later different property within other found same
      rw [(layout.fits first earlier).kind property within,
        (layout.fits second later).kind other found] at same
      exact absurd same different

/-- Slots of other kinds hold no value of a kind. -/
theorem values_eq_nil {α : Type} {binding : Binding α}
    (fits : ∀ slot ∈ slots, slot.Fits single repeated)
    (other : ∀ slot ∈ slots, slot.kind ≠ binding.kind) :
    binding.values (wire slots) = [] := by
  refine List.filterMap_eq_nil_iff.mpr fun property member => ?_
  obtain ⟨slot, present, within⟩ := List.mem_flatMap.mp member
  cases found : binding.read property with
  | none => rfl
  | some value =>
    have kind := (fits slot present).kind property within
    rw [binding.property_of_read property value found, binding.kind_property] at kind
    exact absurd kind.symm (other slot present)

/-- The values of a kind are those of its slot. -/
theorem values_eq {α : Type} {binding : Binding α} {slot : Slot}
    (layout : Layout single repeated slots) (member : slot ∈ slots)
    (same : slot.kind = binding.kind) :
    binding.values (wire slots) = binding.values slot.onWire := by
  obtain ⟨before, after, rfl⟩ := List.append_of_mem member
  have distinct := layout.distinct
  rw [List.map_append, List.map_cons, List.nodup_append, List.nodup_cons] at distinct
  obtain ⟨-, ⟨fresh, -⟩, apart⟩ := distinct
  have front : binding.values (wire before) = [] := by
    refine values_eq_nil (fun slot present => layout.fits slot (by simp [present])) ?_
    intro other present equal
    exact apart other.kind (List.mem_map_of_mem present) slot.kind List.mem_cons_self
      (equal.trans same.symm)
  have back : binding.values (wire after) = [] := by
    refine values_eq_nil (fun slot present => layout.fits slot (by simp [present])) ?_
    intro other present equal
    exact fresh (same.trans equal.symm ▸ List.mem_map_of_mem present)
  simp only [Binding.values, wire] at front back ⊢
  simp [front, back]

theorem value_eq {α : Type} {binding : Binding α} {slot : Slot}
    (layout : Layout single repeated slots) (member : slot ∈ slots)
    (same : slot.kind = binding.kind) :
    binding.value (wire slots) = binding.value slot.onWire := by
  simp only [Binding.value, ← List.head?_filterMap]
  exact congrArg List.head? (layout.values_eq member same)

theorem value_optional {α : Type} {binding : Binding α} {value : Option α}
    (layout : Layout single repeated slots) (member : binding.optional value ∈ slots)
    (shown : ∀ value, (binding.property value).onWire = [binding.property value]) :
    binding.value (wire slots) = value := by
  rw [layout.value_eq member rfl]
  cases value with
  | none => rfl
  | some value => simp [Binding.value, Slot.onWire, Binding.optional, shown, binding.read_property]

theorem value_once {α : Type} {binding : Binding α} {value default : α}
    (layout : Layout single repeated slots) (member : binding.once value ∈ slots)
    (omits : binding.Omits default) :
    (binding.value (wire slots)).getD default = value := by
  rw [layout.value_eq member rfl]
  rcases omits value with shown | ⟨omitted, rfl⟩
  · simp [Binding.value, Slot.onWire, Binding.once, shown, binding.read_property]
  · simp [Binding.value, Slot.onWire, Binding.once, omitted]

theorem values_repeated {α : Type} {binding : Binding α} {values : List α}
    (layout : Layout single repeated slots) (member : binding.repeated values ∈ slots)
    (shown : ∀ value, (binding.property value).onWire = [binding.property value]) :
    binding.values (wire slots) = values := by
  rw [layout.values_eq member rfl]
  simp [Binding.values, Slot.onWire, Binding.repeated, List.flatMap_map, shown,
    List.filterMap_map, ← List.map_eq_flatMap, binding.read_property]

variable [UnicodeGeneralCategory]

/-- The block of a packet is read back as what its slots put on the wire. -/
theorem roundTrips (layout : Layout single repeated slots)
    (formed : ∀ slot ∈ slots, slot.WellFormed)
    (small : (encodeProperties slots).size ≤ 268435455) :
    RoundTrips (encodeProperties slots) (Property.decodeAll single repeated)
      (wire slots) := by
  have valid : ∀ property ∈ slots.flatMap Slot.properties, property.WellFormed := by
    intro property member
    obtain ⟨slot, present, within⟩ := List.mem_flatMap.mp member
    exact formed slot present property within
  have flat : (slots.flatMap Slot.properties).flatMap Property.onWire = wire slots := by
    rw [List.flatMap_assoc]
    rfl
  have light : Property.weight (wire slots) < 268435456 := by
    rw [encodeProperties, Property.encodeAll_eq valid, Encoder.size_append,
      Property.size_forEach] at small
    rw [← flat, Property.weight_onWire]
    omega
  rw [encodeProperties, Property.encodeAll_onWire, flat]
  refine Property.roundTrips_all ?_ ?_ layout.accepted light
  · intro shown member
    rw [← flat] at member
    obtain ⟨property, present, within⟩ := List.mem_flatMap.mp member
    exact (valid property present).of_mem_onWire within
  · intro shown member
    rw [← flat] at member
    obtain ⟨property, -, within⟩ := List.mem_flatMap.mp member
    exact Property.onWire_of_mem within

theorem items_ne_nil (layout : Layout single repeated slots)
    (formed : ∀ slot ∈ slots, slot.WellFormed)
    (small : (encodeProperties slots).size ≤ 268435455) : (encodeProperties slots).items ≠ [] := by
  intro empty
  have read := (layout.roundTrips formed small).2 []
  rw [empty] at read
  cases read

end Layout

namespace Slot

variable {single repeated : List PropertyKind} {α : Type} {binding : Binding α}

theorem fits_optional {value : Option α} (listed : binding.kind ∈ single)
    (plain : binding.kind ≠ .connectSessionExpiryInterval) :
    (binding.optional value).Fits single repeated := by
  cases value with
  | none => exact ⟨by simp [onWire, Binding.optional], .inr ⟨listed, by simp [onWire, Binding.optional]⟩⟩
  | some value =>
    have wire : (binding.optional (some value)).onWire = (binding.property value).onWire := by
      simp [onWire, Binding.optional]
    refine ⟨fun property member => ?_, .inr ⟨listed, ?_⟩⟩
    · rw [wire] at member
      exact (Property.kind_of_mem_onWire member (binding.kind_property value ▸ plain)).trans
        (binding.kind_property value)
    · rw [wire]
      exact Property.length_onWire _

theorem fits_once {value : α} (listed : binding.kind ∈ single)
    (plain : binding.kind ≠ .connectSessionExpiryInterval) :
    (binding.once value).Fits single repeated := by
  have fits : (binding.optional (some value)).Fits single repeated := fits_optional listed plain
  exact fits

theorem fits_repeated {values : List α} (listed : binding.kind ∈ repeated)
    (plain : binding.kind ≠ .connectSessionExpiryInterval) :
    (binding.repeated values).Fits single repeated := by
  refine ⟨fun shown member => ?_, .inl listed⟩
  obtain ⟨property, present, within⟩ := List.mem_flatMap.mp member
  obtain ⟨value, -, rfl⟩ := List.mem_map.mp present
  exact (Property.kind_of_mem_onWire within (binding.kind_property value ▸ plain)).trans
    (binding.kind_property value)

variable [UnicodeGeneralCategory]

/-- A slot that was filled from the properties of a block. -/
structure Drawn (properties : List Property) (slot : Slot) : Prop where
  formed : slot.WellFormed
  light : Property.weight slot.properties ≤
    Property.weight (properties.filter fun property => property.kind = slot.kind)

theorem drawn_of_sublist {properties : List Property} {slot : Slot}
    (formed : ∀ property ∈ properties, property.WellFormed)
    (sublist : slot.properties.Sublist
      (properties.filter fun property => property.kind = slot.kind)) : slot.Drawn properties := by
  refine ⟨fun property member => ?_, Property.weight_le_of_sublist sublist⟩
  exact formed property (List.mem_filter.mp (sublist.subset member)).1

theorem drawn_optional {properties : List Property}
    (formed : ∀ property ∈ properties, property.WellFormed) :
    (binding.optional (binding.value properties)).Drawn properties := by
  refine drawn_of_sublist formed ?_
  cases found : binding.value properties with
  | none => exact List.nil_sublist _
  | some value =>
    obtain ⟨source, member, read⟩ := List.exists_of_findSome?_eq_some found
    obtain rfl := binding.property_of_read source value read
    exact List.singleton_sublist.mpr
      (List.mem_filter.mpr ⟨member, by simp [Binding.optional, binding.kind_property]⟩)

/-- A default takes no bytes. -/
theorem drawn_once {properties : List Property} {default : α}
    (formed : ∀ property ∈ properties, property.WellFormed)
    (valid : (binding.property default).WellFormed)
    (omitted : (binding.property default).encode = .skip) :
    (binding.once ((binding.value properties).getD default)).Drawn properties := by
  cases found : binding.value properties with
  | none =>
    refine ⟨by simpa [WellFormed, Binding.once] using valid, ?_⟩
    simp [Binding.once, Property.weight, omitted]
  | some value =>
    have drawn : (binding.optional (binding.value properties)).Drawn properties :=
      drawn_optional formed
    rw [found] at drawn
    exact drawn

theorem drawn_repeated {properties : List Property}
    (formed : ∀ property ∈ properties, property.WellFormed) :
    (binding.repeated (binding.values properties)).Drawn properties := by
  refine drawn_of_sublist formed ?_
  clear formed
  induction properties with
  | nil => exact .slnil
  | cons head tail ih =>
    simp only [Binding.repeated, Binding.values] at ih ⊢
    cases read : binding.read head with
    | none =>
      rw [List.filterMap_cons_none read]
      exact ih.trans ((List.sublist_cons_self head tail).filter _)
    | some value =>
      obtain rfl := binding.property_of_read head value read
      rw [List.filterMap_cons_some read, List.map_cons,
        List.filter_cons_of_pos (by simp [binding.kind_property])]
      exact ih.cons_cons _

/-- Slots of distinct kinds that were filled from a block take no more bytes than it. -/
theorem weight_drawn {properties : List Property} {slots : List Slot}
    (distinct : (slots.map Slot.kind).Nodup) (drawn : ∀ slot ∈ slots, slot.Drawn properties) :
    Property.weight (slots.flatMap Slot.properties) ≤ Property.weight properties := by
  induction slots generalizing properties with
  | nil => exact Nat.zero_le _
  | cons head tail ih =>
    rw [List.map_cons, List.nodup_cons] at distinct
    -- The other slots are filled from the properties of the other kinds.
    have others : ∀ slot ∈ tail,
        slot.Drawn (properties.filter fun property => !decide (property.kind = head.kind)) := by
      intro slot member
      refine ⟨(drawn slot (by simp [member])).formed, ?_⟩
      have different : slot.kind ≠ head.kind := fun same =>
        distinct.1 (same ▸ List.mem_map_of_mem member)
      rw [List.filter_filter]
      convert (drawn slot (by simp [member])).light using 3
      funext property
      by_cases same : property.kind = slot.kind <;> simp [same, different]
    have rest := ih distinct.2 others
    have own := (drawn head List.mem_cons_self).light
    rw [List.flatMap_cons, Property.weight_append,
      ← Property.weight_filter properties fun property => property.kind = head.kind]
    omega

/-- What was read from a block is well formed and is put again into no more bytes. -/
theorem drawn_fits {properties : List Property} {slots : List Slot} {used : Nat}
    (read : Property.Read single repeated properties used)
    (distinct : (slots.map Slot.kind).Nodup) (drawn : ∀ slot ∈ slots, slot.Drawn properties) :
    (∀ slot ∈ slots, slot.WellFormed) ∧ (encodeProperties slots).size ≤ used := by
  have formed : ∀ slot ∈ slots, slot.WellFormed := fun slot member => (drawn slot member).formed
  refine ⟨formed, ?_⟩
  have valid : ∀ property ∈ slots.flatMap Slot.properties, property.WellFormed := by
    intro property member
    obtain ⟨slot, present, within⟩ := List.mem_flatMap.mp member
    exact formed slot present property within
  rw [encodeProperties, Property.encodeAll_eq valid, Encoder.size_append, Property.size_forEach]
  exact read.size _ (weight_drawn distinct drawn)

end Slot

namespace Authentication

theorem reads_of (authentication : Option Authentication) :
    (of (intoParts authentication).1 (intoParts authentication).2).Reads [] authentication := by
  cases authentication with
  | none => exact .pure none
  | some authentication => exact .pure (some authentication)

/-- The parts of an authentication are the properties it was made of. -/
theorem ensures_of (method : Option ByteStr) (data : Option BinaryData) :
    (of method data).Ensures fun authentication used =>
      intoParts authentication = (method, data) ∧ used = 0 := by
  cases method with
  | some method => exact .pure ⟨rfl, rfl⟩
  | none =>
    cases data with
    | some data => exact .fail
    | none => exact .pure ⟨rfl, rfl⟩

end Authentication

end MqttClient.Proto
