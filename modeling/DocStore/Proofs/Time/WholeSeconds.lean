import DocStore.Proofs.Time.Instants

/-! # Whole seconds

A number of seconds is read as microseconds: it is multiplied by a million, rounded to a double, and
clamped to 64 bits. So an integer is read exactly if its microseconds are such a double
(`ExactSeconds`), which holds up to half a trillion seconds. Of any other integer no shape of time
makes what it says, and a duration is read nevertheless. -/
set_option autoImplicit false

namespace DocStore

open Binary64

variable {n : Int} {j : Json}

/-! ## Exact seconds -/

/-- Whether some seconds are a number of microseconds that is a double below `2 ^ 63`: at most 53
bits and a factor of a power of two. -/
def ExactSeconds (n : Int) : Prop :=
  ∃ k ≤ 10, (2 ^ k : Int) ∣ n * 1000000 ∧ |n * 1000000| < 2 ^ (k + 53)

theorem exactSeconds_of_le (h : |n| ≤ 576460752303) : ExactSeconds n := by
  refine ⟨6, by omega, ⟨n * 15625, by ring⟩, ?_⟩
  rw [abs_mul, abs_of_pos (by decide : (0 : Int) < 1000000)]
  omega

theorem ExactSeconds.lt (h : ExactSeconds n) : |n * 1000000| < 2 ^ 63 := by
  obtain ⟨k, hk, -, below⟩ := h
  exact below.trans_le (pow_le_pow_right₀ (by decide) (by omega))

theorem rounds_seconds (h : |n * 1000000| < 2 ^ 63) :
    Rounds ((ofInt n).mul million) (n * 1000000 : Int) := by
  have small : |n| < 2 ^ 53 := by
    rw [abs_mul, abs_of_pos (by decide : (0 : Int) < 1000000)] at h
    omega
  obtain ⟨finite, value⟩ := finite_ofInt small
  have rounds := rounds_mul_million finite
  rw [value] at rounds
  exact_mod_cast rounds

theorem ExactSeconds.secondsToMicros (h : ExactSeconds n) :
    (ofInt n).secondsToMicros = n * 1000000 := by
  have rounds := rounds_seconds h.lt
  have range := abs_lt.mp h.lt
  obtain ⟨k, hk, ⟨m, multiple⟩, below⟩ := h
  have size : |((n * 1000000 : Int) : ℚ)| < 2 ^ (k + 53) := by exact_mod_cast below
  have value := rounds.exact (k + 53) (by omega) size ⟨m, by
    rw [multiple, pow_add]
    push_cast
    ring⟩
  have near := abs_roundToInt64_sub (rounds.near (k + 53) (by omega) size).1 (i := n * 1000000)
    (d := 0) (by rw [value, sub_self, abs_zero]; norm_num) (by omega) (by omega)
  rw [secondsToMicros_eq]
  rw [abs_le] at near
  omega

/-- An integer of 54 to 63 bits stands between two powers of two. -/
theorem exists_between_powers {a : Int} (large : 2 ^ 53 ≤ |a|) (small : |a| < 2 ^ 63) :
    ∃ k ≤ 10, 2 ^ (k + 52) ≤ |a| ∧ |a| < 2 ^ (k + 53) := by
  rw [Int.abs_eq_natAbs] at *
  have nonzero : a.natAbs ≠ 0 := by omega
  have below : a.natAbs.log2 < 63 := (Nat.log2_lt nonzero).mpr (by omega)
  have above : 53 ≤ a.natAbs.log2 := (Nat.le_log2 nonzero).mpr (by omega)
  obtain ⟨k, hk⟩ : ∃ k, a.natAbs.log2 = k + 52 := ⟨a.natAbs.log2 - 52, by omega⟩
  refine ⟨k, by omega, ?_, ?_⟩
  · exact_mod_cast hk ▸ Nat.log2_self_le nonzero
  · have := (Nat.log2_lt nonzero).mp (Nat.lt_succ_self _)
    rw [hk] at this
    exact_mod_cast this

theorem exactSeconds_of_secondsToMicros (h : (ofInt n).secondsToMicros = n * 1000000) :
    ExactSeconds n := by
  rw [secondsToMicros_eq] at h
  have clamped := roundToInt64_bounds ((ofInt n).mul million)
  -- Neither end of the range is a whole number of seconds.
  have range : |n * 1000000| < 2 ^ 63 := by
    rw [abs_lt]
    omega
  by_cases few : |n * 1000000| < 2 ^ 53
  · exact ⟨0, by omega, one_dvd _, few⟩
  · obtain ⟨k, hk, large, below⟩ := exists_between_powers (not_lt.mp few) range
    have rounds := rounds_seconds range
    have size : |((n * 1000000 : Int) : ℚ)| < 2 ^ (k + 53) := by exact_mod_cast below
    obtain ⟨finite, -⟩ := rounds.near (k + 53) (by omega) size
    obtain ⟨m, value⟩ := rounds.grid k (by exact_mod_cast large)
      (size.trans (pow_lt_pow_right₀ (by norm_num) (by omega)))
    have whole : ((ofInt n).mul million).roundToInt = n * 1000000 := by
      rw [finite.roundToInt64] at h
      have := abs_lt.mp range
      omega
    have near := roundToInt_near ((ofInt n).mul million)
    rw [whole, value] at near
    have apart : |n * 1000000 - m * 2 ^ k| < 1 := by
      have : |((n * 1000000 - m * 2 ^ k : Int) : ℚ)| < 1 := by
        push_cast at near ⊢
        linarith
      exact_mod_cast this
    rw [Int.abs_lt_one_iff, sub_eq_zero] at apart
    exact ⟨k, hk, ⟨m, apart.trans (mul_comm ..)⟩, below⟩

theorem secondsToMicros_ofInt_eq_iff : (ofInt n).secondsToMicros = n * 1000000 ↔ ExactSeconds n :=
  ⟨exactSeconds_of_secondsToMicros, ExactSeconds.secondsToMicros⟩

/-- Seconds that are not clamped are off by the rounding alone. -/
theorem secondsToMicros_ofInt_near (h : |n| ≤ 9223372036854) :
    |(ofInt n).secondsToMicros - n * 1000000| ≤ 512 := by
  have range : |n * 1000000| < 2 ^ 63 := by
    rw [abs_mul, abs_of_pos (by decide : (0 : Int) < 1000000)]
    omega
  have size : |((n * 1000000 : Int) : ℚ)| < 2 ^ 63 := by exact_mod_cast range
  obtain ⟨finite, near⟩ := (rounds_seconds range).near 63 (by omega) size
  rw [secondsToMicros_eq]
  rw [abs_le] at h
  exact abs_roundToInt64_sub finite (near.trans_lt (by norm_num)) (by omega) (by omega)

/-- More seconds than that are clamped: neither rounding brings them back into the range. -/
theorem secondsToMicros_ofInt_clamped (inRange : |n| ≤ 2 ^ 64) (large : 9223372036854 < |n|) :
    (ofInt n).secondsToMicros =
      if n < 0 then -9223372036854775808 else 9223372036854775807 := by
  have least : (9223372036855 : ℚ) ≤ |(n : ℚ)| := by exact_mod_cast large
  have greatest : |(n : ℚ)| ≤ 2 ^ 64 := by exact_mod_cast inRange
  obtain ⟨finite, near⟩ := (rounds_ofInt n).relative (by linarith)
    (greatest.trans_lt (by norm_num))
  have product := rounds_mul_million finite
  rw [secondsToMicros_eq]
  generalize (ofInt n).value = v at near product
  rw [abs_le] at near
  by_cases negative : n < 0
  · have sign : (n : ℚ) < 0 := by exact_mod_cast negative
    rw [abs_of_neg sign] at least greatest near
    have size : |v * 1000000| = -(v * 1000000) := abs_of_neg (by linarith)
    obtain ⟨finite, near⟩ := product.relative (by rw [size]; linarith) (by rw [size]; linarith)
    rw [size, abs_le] at near
    rw [if_pos negative]
    exact roundToInt64_of_ge finite (by linarith)
  · have sign : (0 : ℚ) ≤ n := by exact_mod_cast not_lt.mp negative
    rw [abs_of_nonneg sign] at least greatest near
    have size : |v * 1000000| = v * 1000000 := abs_of_nonneg (by linarith)
    obtain ⟨finite, near⟩ := product.relative (by rw [size]; linarith) (by rw [size]; linarith)
    rw [size, abs_le] at near
    rw [if_neg negative]
    exact roundToInt64_of_le finite (by linarith)

/-! ## What a duration is encoded as -/

theorem add_zero_of_nonzero {x : Binary64} (finite : x.IsFinite) (nonzero : x.isZero = false) :
    x.add (ofRank false 0) = x := by
  have positive := unitCount_pos nonzero
  have none : (ofRank false 0).units = 0 := rfl
  have units : x.units ≠ 0 := by
    rw [Binary64.units]
    split <;> omega
  have same : ofUnits x.units = x := by
    have sign : decide (x.units < 0) = x.negative := by
      rw [Binary64.units]
      cases x.negative with
      | false => simp
      | true => simpa using positive
    have size : x.units.natAbs = x.unitCount := by
      rw [Binary64.units]
      split <;> omega
    rw [ofUnits, sign, size, nearest_unitCount finite]
  rw [add, finite.isNaN, finite.isInfinite, none, Int.add_zero, if_neg units]
  exact same

theorem value_of_isZero {x : Binary64} (zero : x.isZero = true) : x.value = 0 := by
  have rank : x.rank.val = 0 := beq_iff_eq.mp zero
  have count : x.unitCount = 0 := by
    rw [unitCount, rank]
    rfl
  rw [value_eq, count, Nat.cast_zero, zero_div, mul_zero]

theorem ofInt_nonzero (nonzero : n ≠ 0) (inRange : |n| ≤ 2 ^ 64) :
    (ofInt n).IsFinite ∧ (ofInt n).isZero = false := by
  by_cases small : |n| < 2 ^ 53
  · obtain ⟨finite, value⟩ := finite_ofInt small
    refine ⟨finite, Bool.eq_false_iff.mpr fun zero => nonzero ?_⟩
    rw [value_of_isZero zero] at value
    exact_mod_cast value.symm
  · have below : |(n : ℚ)| < 2 ^ 65 := by
      have : |(n : ℚ)| ≤ 2 ^ 64 := by exact_mod_cast inRange
      linarith
    obtain ⟨finite, near⟩ := (rounds_ofInt n).near 65 (by omega) below
    refine ⟨finite, Bool.eq_false_iff.mpr fun zero => small ?_⟩
    rw [value_of_isZero zero, zero_sub, abs_neg] at near
    have : |(n : ℚ)| < 2 ^ 53 := near.trans_lt (by norm_num)
    exact_mod_cast this

/-- Nothing is lost when a zero is added to an integer. -/
theorem ofInt_add_zero (inRange : |n| ≤ 2 ^ 64) : (ofInt n).add (ofRank false 0) = ofInt n := by
  by_cases zero : n = 0
  · subst zero
    decide +kernel
  · obtain ⟨finite, nonzero⟩ := ofInt_nonzero zero inRange
    exact add_zero_of_nonzero finite nonzero

theorem totalSeconds_whole {d : Duration} (whole : d.nanos = n * 1000000000) :
    d.totalSeconds = (ofInt n).add (ofRank false 0) := by
  have seconds : d.wholeSeconds = n := by
    rw [Duration.wholeSeconds, whole]
    exact Int.mul_tdiv_cancel n (by decide)
  have rest : d.restNanos = 0 := by
    rw [Duration.restNanos, whole]
    exact Int.mul_tmod_left n 1000000000
  have zero : (ofInt 0).div (ofInt 1000000000) = ofRank false 0 := by decide +kernel
  rw [Duration.totalSeconds, seconds, rest, zero]

theorem toJson_duration (transforms : Transforms) {d : Duration}
    (finite : d.totalSeconds.IsFinite) :
    (Value.duration d).toJson transforms = .ok (.number (.float d.totalSeconds finite)) := by
  have encoded := Value.encodeWithin_plain transforms 100 (o := {}) ⟨rfl, rfl⟩ (.duration d)
  refine encoded.trans ?_
  rw [Value.encodeBuiltin, Value.encodeFloat, Number.ofBinary64?, dif_pos finite]

/-! ## What is read -/

/-- What the shapes of time make of a number that is read as some microseconds: those microseconds,
or an error of a shape that cannot hold them. -/
structure ReadsMicros (j : Json) (micros : Int) : Prop where
  duration : ∃ d : Duration, Shape.duration.decode j = .ok d ∧ d.nanos = micros * 1000
  elapsed : Shape.elapsed.decode j =
    if micros < 0 then .error (.unexpected "non-negative duration" j) else .ok ⟨micros.toNat⟩
  timestamp : Shape.timestamp.decode j =
    Shape.orUnexpected "timestamp" j (Timestamp.ofMicros? micros)

theorem nanos_ofMicros {micros : Int} (least : -9223372036854775808 ≤ micros)
    (greatest : micros ≤ 9223372036854775807) :
    (Duration.ofMicros micros).nanos = micros * 1000 := by
  have inRange : -9223372036854775807000000 ≤ micros * 1000 ∧
      micros * 1000 ≤ 9223372036854775807000000 := by omega
  rw [Duration.ofMicros, Duration.clamp, Duration.ofNanos?, dif_pos inRange]
  rfl

theorem readsMicros_number (number : Number) :
    ReadsMicros (.number number) number.toBinary64.secondsToMicros where
  duration := by
    obtain ⟨least, greatest⟩ := roundToInt64_bounds (number.toBinary64.mul million)
    exact ⟨_, rfl, nanos_ofMicros least greatest⟩
  elapsed := rfl
  timestamp := rfl

/-- An integer number of seconds is read as a number of microseconds, and a duration of as many
seconds is encoded as a number that is read as the same one. It is exactly the seconds if and only
if their microseconds are a double below `2 ^ 63`, as they are for up to half a trillion seconds.
Else it is off by the rounding, at most 512 microseconds, or the end of the 64-bit range. -/
theorem decode_wholeSeconds (transforms : Transforms) (n : Int)
    (inRange : -9223372036854775808 ≤ n ∧ n < 18446744073709551616) :
    ∃ micros, ReadsMicros (.number (.int n inRange)) micros ∧
      (∀ d : Duration, d.nanos = n * 1000000000 →
        ∃ j, (Value.duration d).toJson transforms = .ok j ∧ ReadsMicros j micros) ∧
      (micros = n * 1000000 ↔ ExactSeconds n) ∧
      (|n| ≤ 576460752303 → micros = n * 1000000) ∧
      (|n| ≤ 9223372036854 → |micros - n * 1000000| ≤ 512) ∧
      (9223372036854 < |n| →
        micros = if n < 0 then -9223372036854775808 else 9223372036854775807) := by
  have bound : |n| ≤ 2 ^ 64 := by
    rw [abs_le]
    omega
  have finite : (ofInt n).IsFinite := by
    by_cases zero : n = 0
    · subst zero
      decide +kernel
    · exact (ofInt_nonzero zero bound).1
  refine ⟨_, readsMicros_number _, fun d whole => ?_, secondsToMicros_ofInt_eq_iff,
    fun few => (exactSeconds_of_le few).secondsToMicros, secondsToMicros_ofInt_near,
    secondsToMicros_ofInt_clamped bound⟩
  have total : d.totalSeconds = ofInt n := (totalSeconds_whole whole).trans (ofInt_add_zero bound)
  have read := readsMicros_number (.float (ofInt n) finite)
  have encoded := toJson_duration transforms (d := d) (by rw [total]; exact finite)
  simp only [total] at encoded
  exact ⟨_, encoded, read⟩

/-- A minute and a half, backwards. -/
theorem decode_wholeSeconds_negative :
    (-9223372036854775808 ≤ (-90 : Int) ∧ (-90 : Int) < 18446744073709551616) ∧
    Shape.duration.decode (.number (.int (-90) (by decide))) = .ok ⟨-90000000000, by decide⟩ ∧
    Shape.elapsed.decode (.number (.int (-90) (by decide))) =
      .error (.unexpected "non-negative duration" (.number (.int (-90) (by decide)))) ∧
    Shape.timestamp.decode (.number (.int (-90) (by decide))) = .ok ⟨-90, 0, by decide⟩ ∧
    ∃ j, (Value.duration ⟨-90000000000, by decide⟩).toJson noTransforms = .ok j ∧
      Shape.duration.decode j = .ok ⟨-90000000000, by decide⟩ := by
  have inRange : -9223372036854775808 ≤ (-90 : Int) ∧ (-90 : Int) < 18446744073709551616 := by
    decide
  obtain ⟨micros, read, encoded, -, few, -⟩ := decode_wholeSeconds noTransforms (-90) inRange
  obtain rfl : micros = -90000000 := few (by decide)
  obtain ⟨j, text, readAgain⟩ := encoded ⟨-90000000000, by decide⟩ rfl
  have duration {j : Json} (read : ReadsMicros j (-90000000)) :
      Shape.duration.decode j = .ok ⟨-90000000000, by decide⟩ := by
    obtain ⟨⟨nanos, _⟩, decoded, rfl⟩ := read.duration
    exact decoded
  exact ⟨inRange, duration read, read.elapsed, read.timestamp, j, text, duration readAgain⟩

/-! ## Too many seconds -/

/-- Ten trillion seconds are read as the greatest 64-bit number of microseconds, and an instant of
some more than half a trillion seconds is rounded. -/
theorem decode_wholeSeconds_clamped :
    (∃ d : Duration, Shape.duration.decode (.number (.int 10000000000000 (by decide))) = .ok d ∧
      d.nanos = 9223372036854775807000) ∧
    Shape.elapsed.decode (.number (.int 10000000000000 (by decide))) =
      .ok ⟨9223372036854775807⟩ ∧
    Shape.timestamp.decode (.number (.int 576460752305 (by decide))) =
      .ok ⟨576460752304, 999936000, by decide⟩ := by
  have large := readsMicros_number (.int 10000000000000 (by decide))
  have small := readsMicros_number (.int 576460752305 (by decide))
  have clamped : (ofInt 10000000000000).secondsToMicros = 9223372036854775807 := by
    decide +kernel
  have rounded : (ofInt 576460752305).secondsToMicros = 576460752304999936 := by
    decide +kernel
  rw [Number.toBinary64, clamped] at large
  rw [Number.toBinary64, rounded] at small
  exact ⟨large.duration, large.elapsed, small.timestamp⟩

end DocStore
