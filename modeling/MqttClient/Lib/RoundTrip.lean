import MqttClient.Lib.Decoder
import MqttClient.Lib.Encoder

/-! Encoders and decoders that agree: what is put is read back. The rules follow the shape
of a decoder, one for each step of it. -/

namespace MqttClient.Lib

variable {σ ε φ α β : Type}

/-- The encoder succeeds and the decoder takes what it puts for `value`. -/
def RoundTrips (encoder : Encoder σ ε) (decoder : Decoder σ φ α) (value : α) : Prop :=
  encoder.Succeeds ∧ decoder.Reads encoder.items value

/-- The same for a decoder that takes all of its input. -/
def RoundTripsAll (encoder : Encoder σ ε) (decoder : Decoder σ φ α) (value : α) : Prop :=
  encoder.Succeeds ∧ decoder.ReadsAll encoder.items value

theorem Encoder.Emits.roundTrips {encoder : Encoder σ ε} {decoder : Decoder σ φ α}
    {code : List σ} {value : α} (emits : encoder.Emits code) (reads : decoder.Reads code value) :
    RoundTrips encoder decoder value :=
  ⟨emits.1, emits.2 ▸ reads⟩

theorem Encoder.Emits.roundTripsAll {encoder : Encoder σ ε} {decoder : Decoder σ φ α}
    {code : List σ} {value : α} (emits : encoder.Emits code)
    (reads : decoder.ReadsAll code value) : RoundTripsAll encoder decoder value :=
  ⟨emits.1, emits.2 ▸ reads⟩

namespace RoundTrips

theorem emits {encoder : Encoder σ ε} {decoder : Decoder σ φ α} {value : α}
    (trips : RoundTrips encoder decoder value) : encoder.Emits encoder.items :=
  ⟨trips.1, rfl⟩

theorem all {encoder : Encoder σ ε} {decoder : Decoder σ φ α} {value : α}
    (trips : RoundTrips encoder decoder value) : RoundTripsAll encoder decoder value :=
  ⟨trips.1, trips.2.all⟩

theorem append {first last : Encoder σ ε} {decoder : Decoder σ φ α}
    {next : α → Decoder σ φ β} {value : α} {result : β} (trips : RoundTrips first decoder value)
    (later : RoundTrips last (next value) result) :
    RoundTrips (first ++ last) (decoder >>= next) result :=
  (trips.emits.append later.emits).roundTrips (trips.2.bind later.2)

theorem appendAll {first last : Encoder σ ε} {decoder : Decoder σ φ α}
    {next : α → Decoder σ φ β} {value : α} {result : β} (trips : RoundTrips first decoder value)
    (later : RoundTripsAll last (next value) result) :
    RoundTripsAll (first ++ last) (decoder >>= next) result := by
  have emits : last.Emits last.items := ⟨later.1, rfl⟩
  exact (trips.emits.append emits).roundTripsAll (trips.2.bindAll later.2)

/-- A last step that consumes nothing. -/
theorem finish {encoder : Encoder σ ε} {decoder : Decoder σ φ α} {next : α → Decoder σ φ β}
    {value : α} {result : β} (trips : RoundTrips encoder decoder value)
    (later : (next value).Reads [] result) : RoundTrips encoder (decoder >>= next) result :=
  ⟨trips.1, trips.2.finish later⟩

/-- A step that consumes nothing and has nothing put for it. -/
theorem skip {decoder : Decoder σ φ α} {value : α} (reads : decoder.Reads [] value) :
    RoundTrips (Encoder.skip : Encoder σ ε) decoder value :=
  Encoder.Emits.skip.roundTrips reads

/-- A first step that consumes nothing. -/
theorem pass {encoder : Encoder σ ε} {decoder : Decoder σ φ α} {next : α → Decoder σ φ β}
    {value : α} {result : β} (reads : decoder.Reads [] value)
    (later : RoundTrips encoder (next value) result) :
    RoundTrips encoder (decoder >>= next) result :=
  (skip reads).append later

/-- An encoding that is not empty is not taken for the end of the input. -/
theorem bindIsEmpty {encoder : Encoder σ ε} {next : Bool → Decoder σ φ β} {result : β}
    (nonempty : encoder.items ≠ []) (trips : RoundTrips encoder (next false) result) :
    RoundTrips encoder (Decoder.isEmpty >>= next) result := by
  refine ⟨trips.1, fun rest => ?_⟩
  have more : (encoder.items ++ rest).isEmpty = false := by simp [nonempty]
  have same : (Decoder.isEmpty >>= next) (encoder.items ++ rest) =
      next (encoder.items ++ rest).isEmpty (encoder.items ++ rest) := rfl
  rw [same, more]
  exact trips.2 rest

end RoundTrips

namespace RoundTripsAll

theorem pass {encoder : Encoder σ ε} {decoder : Decoder σ φ α} {next : α → Decoder σ φ β}
    {value : α} {result : β} (reads : decoder.Reads [] value)
    (later : RoundTripsAll encoder (next value) result) :
    RoundTripsAll encoder (decoder >>= next) result :=
  (RoundTrips.skip reads).appendAll later

/-- Nothing is put, and the decoder is at the end of its input. -/
theorem atEnd {decoder : Decoder σ φ α} {value : α} (reads : decoder.ReadsAll [] value) :
    RoundTripsAll (Encoder.skip : Encoder σ ε) decoder value :=
  Encoder.Emits.skip.roundTripsAll reads

theorem finish {encoder : Encoder σ ε} {decoder : Decoder σ φ α} {next : α → Decoder σ φ β}
    {value : α} {result : β} (trips : RoundTripsAll encoder decoder value)
    (later : (next value).Reads [] result) : RoundTripsAll encoder (decoder >>= next) result :=
  ⟨trips.1, trips.2.finish later⟩

end RoundTripsAll

end MqttClient.Lib
