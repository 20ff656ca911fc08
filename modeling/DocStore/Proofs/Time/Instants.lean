import DocStore.Decode.Shape
import DocStore.Proofs.Binary64.Value
import DocStore.Proofs.Value.Canonical

/-! # Instants as seconds

A timestamp is encoded as a double number of seconds and decoded to the nearest microsecond. Four
roundings lie between: of the fraction, of the sum, of the product with a million, and to an
integer. Within `2 ^ 32` seconds of the epoch the first three come to less than half a microsecond,
which the last one takes away again, so the instant comes back. Beyond, doubles are too far apart:
the error grows to a millisecond. -/
set_option autoImplicit false

namespace DocStore

/-! ## Microseconds of a double -/

namespace Binary64

def million : Binary64 := ofInt 1000000

theorem finite_million : million.IsFinite ∧ million.value = 1000000 := by
  have exact := finite_ofInt (i := 1000000) (by decide)
  rwa [Int.cast_ofNat] at exact

theorem secondsToMicros_eq (x : Binary64) : x.secondsToMicros = (x.mul million).roundToInt64 := rfl

theorem rounds_mul_million {x : Binary64} (hx : x.IsFinite) :
    Rounds (x.mul million) (x.value * 1000000) := by
  have rounds := rounds_mul hx finite_million.1
  rwa [finite_million.2] at rounds

end Binary64

namespace Timestamp

open Binary64

/-! ## Whole microseconds -/

/-- The whole microseconds from the epoch, rounded down. -/
def micros (t : Timestamp) : Int := t.seconds * 1000000 + (t.nanos / 1000 : Nat)

/-- The timestamp without the nanoseconds beyond a whole microsecond. -/
def truncated (t : Timestamp) : Timestamp :=
  { t with nanos := t.nanos / 1000 * 1000, inRange := by have := t.inRange; omega }

theorem ofMicros?_micros {t : Timestamp} (plain : t.nanos < 1000000000) :
    ofMicros? t.micros = some t.truncated := by
  have seconds : t.micros / 1000000 = t.seconds := by
    rw [micros]
    omega
  have rest : (t.micros % 1000000).toNat = t.nanos / 1000 := by
    rw [micros]
    omega
  rw [ofMicros?, seconds, rest]
  exact dif_pos t.truncated.inRange

theorem micros_bounds {t : Timestamp} (plain : t.nanos < 1000000000) :
    -8334601228800000000 ≤ t.micros ∧ t.micros < 8210266876800000000 := by
  have := t.inRange
  rw [micros]
  omega

/-! ## Errors -/

theorem epochSeconds_eq (t : Timestamp) : t.epochSeconds =
    (ofInt t.seconds).add ((ofInt ((t.nanos / 1000 : Nat) : Int)).div million) :=
  rfl

theorem fraction_near {m : Int} (least : 0 ≤ m) (greatest : m < 1000000) :
    ((ofInt m).div million).IsFinite ∧
      |((ofInt m).div million).value - m / 1000000| ≤ 1 / 2 ^ 54 := by
  obtain ⟨finite, exact⟩ := finite_ofInt (i := m) (by rw [abs_lt]; omega)
  have quotient := rounds_div finite finite_million.1 (by decide +kernel)
  rw [exact, finite_million.2] at quotient
  have positive : (0 : ℚ) ≤ m := by exact_mod_cast least
  have below : (m : ℚ) < 1000000 := by exact_mod_cast greatest
  have size : |(m : ℚ) / 1000000| < 2 ^ 0 := by
    rw [abs_of_nonneg (div_nonneg positive (by norm_num))]
    linarith
  obtain ⟨finite, near⟩ := quotient.near 0 (by omega) size
  exact ⟨finite, by simpa using near⟩

theorem micros_div (t : Timestamp) :
    (t.micros : ℚ) / 1000000 = t.seconds + ((t.nanos / 1000 : Nat) : Int) / 1000000 := by
  rw [micros]
  push_cast
  ring

/-- The fraction and the sum are each rounded once. -/
theorem epochSeconds_near {t : Timestamp} (plain : t.nanos < 1000000000) {e : Nat} (he : e ≤ 43)
    (bound : |t.micros| < 2 ^ e * 1000000) :
    t.epochSeconds.IsFinite ∧
      |t.epochSeconds.value - t.micros / 1000000| ≤ (2 ^ e + 1) / 2 ^ 54 := by
  obtain ⟨seconds_finite, seconds⟩ := finite_ofInt (i := t.seconds)
    (by have := t.inRange; rw [abs_lt]; omega)
  have whole := t.micros_div
  rw [epochSeconds_eq]
  generalize hm : ((t.nanos / 1000 : Nat) : Int) = m at whole ⊢
  obtain ⟨fraction_finite, fraction⟩ := fraction_near (m := m) (by omega) (by omega)
  set q := (ofInt m).div million with hq
  have sum := rounds_add seconds_finite fraction_finite
  rw [seconds] at sum
  have inside : |(t.micros : ℚ) / 1000000| ≤ 2 ^ e - 1 / 1000000 := by
    have less : |t.micros| + 1 ≤ 2 ^ e * 1000000 := bound
    have less : |(t.micros : ℚ)| + 1 ≤ 2 ^ e * 1000000 := by exact_mod_cast less
    rw [abs_div, abs_of_pos (by norm_num : (0 : ℚ) < 1000000)]
    linarith
  have apart : |(t.seconds : ℚ) + q.value - t.micros / 1000000| ≤ 1 / 2 ^ 54 := by
    rw [whole, add_sub_add_left_eq_sub]
    exact fraction
  have size : |(t.seconds : ℚ) + q.value| < 2 ^ e := by
    have := abs_sub_abs_le_abs_sub ((t.seconds : ℚ) + q.value) (t.micros / 1000000)
    have : (1 : ℚ) / 2 ^ 54 < 1 / 1000000 := by norm_num
    linarith
  obtain ⟨finite, rounded⟩ := sum.near e (by omega) size
  refine ⟨finite, ?_⟩
  calc |((ofInt t.seconds).add q).value - t.micros / 1000000|
      ≤ |((ofInt t.seconds).add q).value - (t.seconds + q.value)| +
          |(t.seconds : ℚ) + q.value - t.micros / 1000000| := abs_sub_le ..
    _ ≤ 2 ^ e / 2 ^ 54 + 1 / 2 ^ 54 := add_le_add rounded apart
    _ = (2 ^ e + 1) / 2 ^ 54 := (add_div ..).symm

/-- The product with a million is rounded once more. -/
theorem secondsToMicros_epochSeconds {t : Timestamp} (plain : t.nanos < 1000000000) {e : Nat}
    (he : e ≤ 43) (bound : |t.micros| < 2 ^ e * 1000000) {d : Int} (hd : d ≤ 1000)
    (room : ((2 : ℚ) ^ e + 1) / 2 ^ 54 * 1000000 + 2 ^ (e + 20) / 2 ^ 54 < d + 1 / 2) :
    |t.epochSeconds.secondsToMicros - t.micros| ≤ d := by
  obtain ⟨finite, near⟩ := epochSeconds_near plain he bound
  generalize t.epochSeconds = x at finite near ⊢
  have scaled : |x.value * 1000000 - t.micros| ≤ (2 ^ e + 1) / 2 ^ 54 * 1000000 := by
    have same : x.value * 1000000 - t.micros = (x.value - t.micros / 1000000) * 1000000 := by ring
    rw [same, abs_mul, abs_of_pos (by norm_num : (0 : ℚ) < 1000000)]
    exact mul_le_mul_of_nonneg_right near (by norm_num)
  have size : |x.value * 1000000| < 2 ^ (e + 20) := by
    have less : |(t.micros : ℚ)| < 2 ^ e * 1000000 := by exact_mod_cast bound
    have := abs_sub_abs_le_abs_sub (x.value * 1000000) t.micros
    have one_le : (1 : ℚ) ≤ 2 ^ e := one_le_pow₀ (by norm_num)
    have lost : ((2 : ℚ) ^ e + 1) / 2 ^ 54 * 1000000 ≤ 2 ^ e * 10 := by
      rw [div_mul_eq_mul_div, div_le_iff₀ (by norm_num)]
      linarith
    rw [pow_add]
    linarith
  obtain ⟨product, rounded⟩ := (rounds_mul_million finite).near (e + 20) (by omega) size
  have := micros_bounds plain
  rw [secondsToMicros_eq]
  refine abs_roundToInt64_sub product ?_ (by omega) (by omega)
  calc |(x.mul million).value - t.micros|
      ≤ |(x.mul million).value - x.value * 1000000| + |x.value * 1000000 - t.micros| :=
        abs_sub_le ..
    _ < d + 1 / 2 := by linarith

/-! ## Encoding and decoding -/

theorem toJson_timestamp (transforms : Transforms) {t : Timestamp}
    (finite : t.epochSeconds.IsFinite) :
    (Value.timestamp t).toJson transforms = .ok (.number (.float t.epochSeconds finite)) := by
  have encoded := Value.encodeWithin_plain transforms 100 (o := {}) ⟨rfl, rfl⟩ (.timestamp t)
  refine encoded.trans ?_
  rw [Value.encodeBuiltin, Value.encodeFloat, Number.ofBinary64?, dif_pos finite]

theorem decode_number (n : Number) :
    Shape.timestamp.decode (.number n) =
      Shape.orUnexpected "timestamp" (.number n) (ofMicros? n.toBinary64.secondsToMicros) :=
  rfl

/-- A timestamp that is no leap second is encoded as a number. Within `2 ^ 32` seconds of the epoch
the number is decoded to the same instant, truncated to whole microseconds. Farther away it is
decoded as an instant at most a millisecond from there, if that instant is a timestamp. -/
theorem decode_epochSeconds (transforms : Transforms) (t : Timestamp)
    (plain : t.nanos < 1000000000) :
    ∃ j, (Value.timestamp t).toJson transforms = .ok j ∧
      (|t.micros| < 2 ^ 32 * 1000000 → Shape.timestamp.decode j = .ok t.truncated) ∧
      ∃ micros, |micros - t.micros| ≤ 1000 ∧
        Shape.timestamp.decode j = Shape.orUnexpected "timestamp" j (ofMicros? micros) := by
  have anywhere : |t.micros| < 2 ^ 43 * 1000000 := by
    have := micros_bounds plain
    rw [abs_lt]
    omega
  obtain ⟨finite, -⟩ := epochSeconds_near plain (Nat.le_refl 43) anywhere
  have decoded := decode_number (.float t.epochSeconds finite)
  rw [Number.toBinary64] at decoded
  refine ⟨_, toJson_timestamp transforms finite, fun close => ?_,
    t.epochSeconds.secondsToMicros, ?_, decoded⟩
  · have same : t.epochSeconds.secondsToMicros = t.micros := by
      have := secondsToMicros_epochSeconds plain (by omega) close (d := 0) (by omega) (by norm_num)
      rw [abs_le] at this
      omega
    rw [decoded, same, ofMicros?_micros plain]
    rfl
  · exact secondsToMicros_epochSeconds plain (Nat.le_refl 43) anywhere (by omega) (by norm_num)

/-- In the last minutes of 1969. -/
def beforeEpoch : Timestamp := ⟨-600, 123456789, by decide⟩

theorem decode_epochSeconds_beforeEpoch :
    beforeEpoch.nanos < 1000000000 ∧ |beforeEpoch.micros| < 2 ^ 32 * 1000000 ∧
    ∃ j, (Value.timestamp beforeEpoch).toJson noTransforms = .ok j ∧
      Shape.timestamp.decode j = .ok ⟨-600, 123456000, by decide⟩ := by
  have plain : beforeEpoch.nanos < 1000000000 := by decide
  have close : |beforeEpoch.micros| < 2 ^ 32 * 1000000 := by decide
  obtain ⟨j, encoded, decoded, -⟩ := decode_epochSeconds noTransforms beforeEpoch plain
  exact ⟨plain, close, j, encoded, decoded close⟩

/-! ## Too far from the epoch -/

/-- `2 ^ 32` seconds and 11 microseconds after the epoch, in February 2106. -/
def tooLate : Timestamp := ⟨4294967296, 11000, by decide⟩

/-- The last microsecond. -/
def last : Timestamp := ⟨8210266876799, 999999000, by decide⟩

/-- From `2 ^ 32` seconds on an instant may come back a microsecond late, and the last one does not
come back at all. -/
theorem decode_epochSeconds_tooLate :
    (∃ j, (Value.timestamp tooLate).toJson noTransforms = .ok j ∧
      Shape.timestamp.decode j = .ok ⟨4294967296, 12000, by decide⟩) ∧
    ∃ j, (Value.timestamp last).toJson noTransforms = .ok j ∧
      Shape.timestamp.decode j = .error (.unexpected "timestamp" j) := by
  have decoded (t : Timestamp) (finite : t.epochSeconds.IsFinite) {micros : Int}
      (read : t.epochSeconds.secondsToMicros = micros) :
      ∃ j, (Value.timestamp t).toJson noTransforms = .ok j ∧
        Shape.timestamp.decode j = Shape.orUnexpected "timestamp" j (ofMicros? micros) := by
    have decoded := decode_number (.float t.epochSeconds finite)
    rw [Number.toBinary64, read] at decoded
    exact ⟨_, toJson_timestamp noTransforms finite, decoded⟩
  have first := decoded tooLate (by decide +kernel)
    (by decide +kernel : _ = (4294967296000012 : Int))
  have second := decoded last (by decide +kernel)
    (by decide +kernel : _ = (8210266876800000000 : Int))
  exact ⟨first, second⟩

end Timestamp
end DocStore
