import DocStore.Proofs.Binary64.Shortest
import Mathlib.Algebra.Order.Archimedean.Basic
import Mathlib.Algebra.Order.Field.Basic
import Mathlib.Algebra.Order.Ring.Abs
import Mathlib.Data.Rat.Cast.Order
import Mathlib.Tactic.Linarith
import Mathlib.Tactic.LinearCombination
import Mathlib.Tactic.Positivity

/-! # How far rounding moves a value

The value of a finite double is a rational number. The result of an operation is what the exact
result is rounded to (`Rounds`): how far away that is depends only on the size of the exact result,
and it is no way at all if the exact result is a double. So the error of several operations one
after another is found by adding bounds. -/
set_option autoImplicit false

namespace DocStore

/-! ## Quotients -/

theorem roundQuotient_cases (tie : Tie) (num den : Nat) :
    roundQuotient tie num den = num / den ∧ 2 * (num % den) ≤ den ∨
      roundQuotient tie num den = num / den + 1 ∧ den ≤ 2 * (num % den) := by
  unfold roundQuotient
  by_cases below : 2 * (num % den) < den
  · exact .inl ⟨if_pos below, Nat.le_of_lt below⟩
  · rw [if_neg below]
    by_cases above : den < 2 * (num % den)
    · exact .inr ⟨if_pos above, Nat.le_of_lt above⟩
    · rw [if_neg above]
      cases tie with
      | awayFromZero => exact .inr ⟨rfl, Nat.not_lt.mp below⟩
      | toEven =>
        rcases Nat.mod_two_eq_zero_or_one (num / den) with even | odd
        · exact .inl ⟨by simp [even], Nat.not_lt.mp above⟩
        · exact .inr ⟨by simp [odd], Nat.not_lt.mp below⟩

/-- A rounded quotient is at most one half away. -/
theorem roundQuotient_near (tie : Tie) (num : Nat) {den : Nat} (hd : 0 < den) :
    2 * (roundQuotient tie num den * den) ≤ 2 * num + den ∧
      2 * num ≤ 2 * (roundQuotient tie num den * den) + den := by
  have split : num / den * den + num % den = num := Nat.div_add_mod' num den
  have rest : num % den < den := Nat.mod_lt num hd
  rcases roundQuotient_cases tie num den with ⟨rounded, half⟩ | ⟨rounded, half⟩
  · rw [rounded]
    omega
  · rw [rounded, Nat.add_mul, Nat.one_mul]
    omega

theorem roundQuotient_bounds (tie : Tie) (num den : Nat) :
    num / den ≤ roundQuotient tie num den ∧ roundQuotient tie num den ≤ num / den + 1 := by
  rcases roundQuotient_cases tie num den with ⟨rounded, -⟩ | ⟨rounded, -⟩
  · omega
  · omega

theorem log2_div_lt_iff {num den k : Nat} (hd : 0 < den) (hk : 0 < k) :
    (num / den).log2 < k ↔ num < den * 2 ^ k := by
  by_cases zero : num / den = 0
  · have small := (Nat.div_eq_zero_iff.mp zero).resolve_left hd.ne'
    rw [zero, Nat.log2_zero]
    exact iff_of_true hk (small.trans_le (Nat.le_mul_of_pos_right den (Nat.two_pow_pos _)))
  · rw [Nat.log2_lt zero, Nat.div_lt_iff_lt_mul hd, Nat.mul_comm]

namespace Binary64

theorem unitsOfRank_shift {shift q : Nat} (most : q ≤ 2 * binade)
    (normal : shift = 0 ∨ binade ≤ q) : unitsOfRank (shift * binade + q) = q * 2 ^ shift := by
  have positive : 0 < binade := by decide
  by_cases small : q < binade
  · obtain rfl : shift = 0 := normal.resolve_right (by omega)
    rw [Nat.zero_mul, Nat.zero_add, unitsOfRank_of_lt small, Nat.pow_zero, Nat.mul_one]
  · rw [unitsOfRank_of_le (by omega)]
    obtain rfl | below := Nat.eq_or_lt_of_le most
    · have rank : shift * binade + 2 * binade = (shift + 2) * binade :=
        (Nat.add_mul shift 2 binade).symm
      rw [rank, Nat.mul_mod_left, Nat.mul_div_cancel _ positive, Nat.add_zero,
        show shift + 2 - 1 = shift + 1 by omega]
      ring
    · have rank : shift * binade + q = (q - binade) + binade * (shift + 1) := by
        rw [Nat.mul_succ, Nat.mul_comm binade]
        omega
      have rest : q - binade < binade := by omega
      rw [rank, Nat.add_mul_mod_self_left, Nat.add_mul_div_left _ _ positive,
        Nat.mod_eq_of_lt rest, Nat.div_eq_of_lt rest, Nat.zero_add, Nat.add_sub_cancel,
        Nat.add_sub_cancel' (Nat.not_lt.mp small)]

/-- A magnitude below `2 ^ (k + 53)` units is rounded to a multiple of some `2 ^ shift`, of 53 bits
or with no shift at all. -/
theorem exists_shift {num den k : Nat} (hd : 0 < den) (hk : k < 2045)
    (h : num < den * 2 ^ (k + 53)) :
    ∃ shift ≤ k, num < den * 2 ^ (shift + 53) ∧ rankNearest num den < infinityRank ∧
      unitsOfRank (rankNearest num den) =
        roundQuotient .toEven num (den * 2 ^ shift) * 2 ^ shift := by
  have log := (log2_div_lt_iff hd (Nat.succ_pos _)).mpr h
  set shift := (num / den).log2 - 52 with hs
  have below : num < den * 2 ^ (shift + 53) :=
    (log2_div_lt_iff hd (Nat.succ_pos _)).mp (by omega)
  have scale : 0 < den * 2 ^ shift := Nat.mul_pos hd (Nat.two_pow_pos _)
  obtain ⟨low, high⟩ := roundQuotient_bounds .toEven num (den * 2 ^ shift)
  set q := roundQuotient .toEven num (den * 2 ^ shift) with hq
  have most : q ≤ 2 * binade := by
    have whole : num / (den * 2 ^ shift) < 2 * binade := by
      rw [Nat.div_lt_iff_lt_mul scale, binade_eq]
      calc num < den * 2 ^ (shift + 53) := below
        _ = 2 * 2 ^ 52 * (den * 2 ^ shift) := by rw [Nat.pow_add]; ring
    omega
  have normal : shift = 0 ∨ binade ≤ q := by
    rw [or_iff_not_imp_left]
    intro shifted
    have zero : num / den ≠ 0 := by
      intro zero
      rw [zero, Nat.log2_zero] at hs
      exact shifted hs
    have exponent : 52 + shift = (num / den).log2 := by omega
    have whole : binade ≤ num / (den * 2 ^ shift) := by
      rw [← Nat.div_div_eq_div_mul, Nat.le_div_iff_mul_le (Nat.two_pow_pos _), binade_eq,
        ← Nat.pow_add, exponent]
      exact Nat.log2_self_le zero
    exact whole.trans low
  have least : shift ≤ k := by omega
  have rank : shift * binade + q < infinityRank := by
    have positive : 0 < binade := by decide
    have top : infinityRank = 2047 * binade := rfl
    have shifted : shift * binade ≤ 2044 * binade := Nat.mul_le_mul_right _ (by omega)
    omega
  have same : rankNearest num den = shift * binade + q := by
    rw [rankNearest_eq]
    exact Nat.min_eq_right rank.le
  rw [same]
  exact ⟨shift, least, below, rank, unitsOfRank_shift most normal⟩

/-- The nearest double to a magnitude below `2 ^ (k + 53)` units is at most half of `2 ^ k` units
away, and no way at all if the magnitude is a multiple of `2 ^ k` units. -/
theorem unitsOfRank_rankNearest {num den k : Nat} (hd : 0 < den) (hk : k < 2045)
    (h : num < den * 2 ^ (k + 53)) :
    rankNearest num den < infinityRank ∧
      2 * (unitsOfRank (rankNearest num den) * den) ≤ 2 * num + den * 2 ^ k ∧
      2 * num ≤ 2 * (unitsOfRank (rankNearest num den) * den) + den * 2 ^ k ∧
      (den * 2 ^ k ∣ num → unitsOfRank (rankNearest num den) * den = num) := by
  obtain ⟨shift, least, -, rank, units⟩ := exists_shift hd hk h
  have scale : 0 < den * 2 ^ shift := Nat.mul_pos hd (Nat.two_pow_pos _)
  have whole : unitsOfRank (rankNearest num den) * den =
      roundQuotient .toEven num (den * 2 ^ shift) * (den * 2 ^ shift) := by
    rw [units]
    ring
  have coarser : den * 2 ^ shift ≤ den * 2 ^ k :=
    Nat.mul_le_mul_left den (Nat.pow_le_pow_right (by decide) least)
  obtain ⟨above, below⟩ := roundQuotient_near .toEven num scale
  refine ⟨rank, by omega, by omega, fun multiple => ?_⟩
  have finer : den * 2 ^ shift ∣ num :=
    (Nat.mul_dvd_mul_left den (Nat.pow_dvd_pow 2 least)).trans multiple
  obtain ⟨q, rfl⟩ := finer
  rw [whole, Nat.mul_comm _ q, roundQuotient_of_dvd .toEven q scale]

/-- The nearest double to a magnitude of at least `2 ^ (k + 52)` units is a multiple of `2 ^ k`
units. -/
theorem pow_dvd_unitsOfRank {num den k top : Nat} (hd : 0 < den) (ht : top < 2045)
    (h : num < den * 2 ^ (top + 53)) (large : den * 2 ^ (k + 52) ≤ num) :
    2 ^ k ∣ unitsOfRank (rankNearest num den) := by
  obtain ⟨shift, -, below, -, units⟩ := exists_shift hd ht h
  have less : 2 ^ (k + 52) < 2 ^ (shift + 53) :=
    Nat.lt_of_mul_lt_mul_left (Nat.lt_of_le_of_lt large below)
  have coarse : k ≤ shift := by
    have := (Nat.pow_lt_pow_iff_right (by decide)).mp less
    omega
  rw [units]
  exact (Nat.pow_dvd_pow 2 coarse).mul_left _

/-! ## Values -/

/-- The value of a finite number. -/
def value (x : Binary64) : ℚ := x.units / one

def sign (negative : Bool) : ℚ := if negative then -1 else 1

theorem one_cast_pos : (0 : ℚ) < one := Nat.cast_pos.mpr one_pos

theorem abs_sign (negative : Bool) : |sign negative| = 1 := by
  cases negative with
  | false => exact abs_one
  | true => exact (abs_neg 1).trans abs_one

theorem value_eq (x : Binary64) : x.value = sign x.negative * (x.unitCount / one) := by
  rw [value, units, sign]
  cases x.negative with
  | false => rw [if_neg Bool.false_ne_true, if_neg Bool.false_ne_true, one_mul, Int.cast_natCast]
  | true => rw [if_pos rfl, if_pos rfl, Int.cast_neg, Int.cast_natCast, neg_div, neg_one_mul]

/-- Whether a double is what a number is rounded to: if the number is below a power of two, its
distance is at most half of the last of 53 bits, and it is the number itself if the number has no
further bits. A double has no further bits. -/
structure Rounds (x : Binary64) (r : ℚ) : Prop where
  near : ∀ e ≤ 900, |r| < 2 ^ e → x.IsFinite ∧ |x.value - r| ≤ 2 ^ e / 2 ^ 54
  exact : ∀ e ≤ 900, |r| < 2 ^ e → (∃ m : ℤ, r * 2 ^ 53 = m * 2 ^ e) → x.value = r
  grid : ∀ k, 2 ^ (k + 52) ≤ |r| → |r| < 2 ^ 900 → ∃ m : ℤ, x.value = m * 2 ^ k

/-- A number of at least one is rounded by at most the last of its 53 bits. -/
theorem Rounds.relative {x : Binary64} {r : ℚ} (h : Rounds x r) (least : 1 ≤ |r|)
    (greatest : |r| < 2 ^ 100) : x.IsFinite ∧ |x.value - r| ≤ |r| / 2 ^ 53 := by
  obtain ⟨e, above, below⟩ := exists_nat_pow_near least one_lt_two
  have small : e < 100 := (pow_lt_pow_iff_right₀ one_lt_two).mp (above.trans_lt greatest)
  obtain ⟨finite, near⟩ := h.near (e + 1) (by omega) below
  refine ⟨finite, near.trans ?_⟩
  rw [div_le_div_iff₀ (by norm_num) (by norm_num), pow_succ]
  linarith

theorem unitCount_nearest {negative : Bool} {num den : Nat}
    (h : rankNearest num den < infinityRank) :
    (nearest negative num den).unitCount = unitsOfRank (rankNearest num den) := by
  have top : infinityRank < 9223372036854775808 := by decide
  rw [unitCount, nearest, ofRank, Fin.val_ofNat, Nat.mod_eq_of_lt (h.trans top)]

theorem isFinite_nearest {negative : Bool} {num den : Nat}
    (h : rankNearest num den < infinityRank) : (nearest negative num den).IsFinite := by
  have top : infinityRank < 9223372036854775808 := by decide
  rw [IsFinite, nearest, ofRank, Fin.val_ofNat, Nat.mod_eq_of_lt (h.trans top)]
  exact h

/-! ## Ratios of units -/

/-- A ratio as a number of units. -/
def ratio (negative : Bool) (num den : Nat) : ℚ := sign negative * (num / (den * one))

section Nearest

variable {negative : Bool} {num den : Nat}

/-- What is lost when a ratio is rounded. -/
theorem value_nearest_sub (hd : 0 < den) (h : rankNearest num den < infinityRank) :
    (nearest negative num den).value - ratio negative num den =
      sign negative * ((unitsOfRank (rankNearest num den) * den - num) / (den * one)) := by
  have den_pos : (0 : ℚ) < den := Nat.cast_pos.mpr hd
  have same : (nearest negative num den).negative = negative := rfl
  rw [ratio, value_eq, unitCount_nearest h, same, ← mul_sub, sub_div, mul_comm (den : ℚ),
    mul_div_mul_right _ _ den_pos.ne']

theorem scale_pos (hd : 0 < den) : (0 : ℚ) < den * one :=
  mul_pos (Nat.cast_pos.mpr hd) one_cast_pos

theorem abs_ratio (hd : 0 < den) : |ratio negative num den| = num / (den * one) := by
  rw [ratio, abs_mul, abs_sign, one_mul,
    abs_of_nonneg (div_nonneg num.cast_nonneg (scale_pos hd).le)]

/-! The exponent `n` of a unit is a variable, so that no power of it is computed. -/

variable {n e : Nat}

theorem one_cast (hn : n = 1074) : (one : ℚ) = 2 ^ n := by
  rw [one_eq hn, Nat.cast_pow, Nat.cast_ofNat]

theorem num_lt (hd : 0 < den) (hn : n = 1074) (h : |ratio negative num den| < 2 ^ e) :
    num < den * 2 ^ (e + n - 53 + 53) := by
  have exponent : e + n - 53 + 53 = n + e := by omega
  rw [abs_ratio hd, div_lt_iff₀ (scale_pos hd), one_cast hn] at h
  rw [exponent, ← Nat.cast_lt (α := ℚ)]
  push_cast
  rw [pow_add]
  linarith

theorem nearest_near (hd : 0 < den) (hn : n = 1074) (he : e ≤ 900)
    (h : |ratio negative num den| < 2 ^ e) :
    (nearest negative num den).IsFinite ∧
      |(nearest negative num den).value - ratio negative num den| ≤ 2 ^ e / 2 ^ 54 := by
  obtain ⟨rank, above, below, -⟩ := unitsOfRank_rankNearest hd (by omega) (num_lt hd hn h)
  refine ⟨isFinite_nearest rank, ?_⟩
  rw [value_nearest_sub hd rank, abs_mul, abs_sign, one_mul, abs_div, abs_of_pos (scale_pos hd),
    div_le_div_iff₀ (scale_pos hd) (by positivity), one_cast hn]
  have above : 2 * ((unitsOfRank (rankNearest num den) : ℚ) * den) ≤
      2 * num + den * 2 ^ (e + n - 53) := by exact_mod_cast above
  have below : 2 * (num : ℚ) ≤ 2 * ((unitsOfRank (rankNearest num den) : ℚ) * den) +
      den * 2 ^ (e + n - 53) := by exact_mod_cast below
  have half : |(unitsOfRank (rankNearest num den) : ℚ) * den - num| ≤
      den * 2 ^ (e + n - 53) / 2 := abs_le.mpr ⟨by linarith, by linarith⟩
  have power : (2 : ℚ) ^ (e + n - 53) * 2 ^ 54 = 2 * (2 ^ e * 2 ^ n) := by
    rw [← pow_add, ← pow_add, ← pow_succ']
    congr 1
    omega
  calc |(unitsOfRank (rankNearest num den) : ℚ) * den - num| * 2 ^ 54
      ≤ den * 2 ^ (e + n - 53) / 2 * 2 ^ 54 := mul_le_mul_of_nonneg_right half (by norm_num)
    _ = den * (2 ^ (e + n - 53) * 2 ^ 54) / 2 := by ring
    _ = 2 ^ e * (den * 2 ^ n) := by
      rw [power]
      ring

theorem nearest_exact (hd : 0 < den) (hn : n = 1074) (he : e ≤ 900)
    (h : |ratio negative num den| < 2 ^ e) {m : ℤ}
    (multiple : ratio negative num den * 2 ^ 53 = m * 2 ^ e) :
    (nearest negative num den).value = ratio negative num den := by
  obtain ⟨rank, -, -, exact⟩ := unitsOfRank_rankNearest hd (by omega) (num_lt hd hn h)
  have power : (2 : ℚ) ^ e * 2 ^ n = 2 ^ (e + n - 53) * 2 ^ 53 := by
    rw [← pow_add, ← pow_add]
    congr 1
    omega
  have magnitude : (num : ℚ) / (den * one) * 2 ^ 53 = m.natAbs * 2 ^ e := by
    have same := congrArg abs multiple
    have power_pos (k : ℕ) : (0 : ℚ) < 2 ^ k := pow_pos two_pos k
    rwa [abs_mul, abs_ratio hd, abs_mul, abs_of_pos (power_pos 53), abs_of_pos (power_pos e),
      ← Int.cast_abs, ← Nat.cast_natAbs] at same
  have whole : (num : ℚ) = den * 2 ^ (e + n - 53) * m.natAbs := by
    rw [div_mul_eq_mul_div, div_eq_iff (scale_pos hd).ne', one_cast hn] at magnitude
    have positive : (0 : ℚ) < 2 ^ 53 := by positivity
    refine mul_right_cancel₀ positive.ne' ?_
    rw [magnitude]
    linear_combination (m.natAbs * den : ℚ) * power
  have divides : den * 2 ^ (e + n - 53) ∣ num := ⟨m.natAbs, by exact_mod_cast whole⟩
  have zero : (unitsOfRank (rankNearest num den) : ℚ) * den - num = 0 :=
    sub_eq_zero.mpr (by exact_mod_cast exact divides)
  refine sub_eq_zero.mp ?_
  rw [value_nearest_sub hd rank, zero, zero_div, mul_zero]

theorem nearest_grid (hd : 0 < den) (hn : n = 1074) {k : Nat}
    (large : 2 ^ (k + 52) ≤ |ratio negative num den|) (h : |ratio negative num den| < 2 ^ 900) :
    ∃ m : ℤ, (nearest negative num den).value = m * 2 ^ k := by
  have above := num_lt hd hn h
  obtain ⟨rank, -⟩ := unitsOfRank_rankNearest hd (by omega) above
  have below : den * 2 ^ (k + n + 52) ≤ num := by
    rw [abs_ratio hd, le_div_iff₀ (scale_pos hd), one_cast hn] at large
    rw [← Nat.cast_le (α := ℚ), Nat.add_right_comm]
    push_cast
    rw [pow_add]
    linarith
  obtain ⟨q, multiple⟩ := pow_dvd_unitsOfRank hd (by omega) above below
  refine ⟨(if negative then -1 else 1) * q, ?_⟩
  have same : (nearest negative num den).negative = negative := rfl
  have units : ((2 ^ (k + n) * q : ℕ) : ℚ) / one = q * 2 ^ k := by
    rw [div_eq_iff one_cast_pos.ne', one_cast hn]
    push_cast
    ring
  rw [value_eq, unitCount_nearest rank, same, multiple, units, sign]
  push_cast
  ring

theorem rounds_nearest (negative : Bool) (num : Nat) (hd : 0 < den) :
    Rounds (nearest negative num den) (ratio negative num den) where
  near := fun _ he h => nearest_near hd rfl he h
  exact := fun _ he h ⟨_, multiple⟩ => nearest_exact hd rfl he h multiple
  grid := fun _ large h => nearest_grid hd rfl large h

end Nearest

/-! ## Operations -/

variable {x y : Binary64}

theorem IsFinite.isNaN (h : x.IsFinite) : x.isNaN = false :=
  decide_eq_false (Nat.lt_asymm h)

theorem IsFinite.isInfinite (h : x.IsFinite) : x.isInfinite = false :=
  beq_eq_false_iff_ne.mpr (Nat.ne_of_lt h)

theorem sign_mul_natAbs (i : Int) : sign (i < 0) * i.natAbs = i := by
  by_cases h : i < 0
  · rw [sign, if_pos (decide_eq_true h), neg_one_mul, Nat.cast_natAbs, abs_of_neg h, Int.cast_neg,
      neg_neg]
  · rw [sign, if_neg (by simpa using h), one_mul, Nat.cast_natAbs, abs_of_nonneg (not_lt.mp h)]

theorem sign_bne (a b : Bool) : sign (a != b) = sign a * sign b := by
  cases a <;> cases b <;> simp [sign]

theorem div_sign (a : ℚ) (negative : Bool) : a / sign negative = a * sign negative := by
  cases negative with
  | false => rw [sign, if_neg Bool.false_ne_true, div_one, mul_one]
  | true => rw [sign, if_pos rfl, div_neg, div_one, mul_neg_one]

theorem rounds_ofInt (i : Int) : Rounds (ofInt i) i := by
  have rounds := rounds_nearest (i < 0) (i.natAbs * one) Nat.one_pos
  have same : ratio (i < 0) (i.natAbs * one) 1 = i := by
    rw [ratio, Nat.cast_mul, Nat.cast_one, one_mul, mul_div_cancel_right₀ _ one_cast_pos.ne',
      sign_mul_natAbs]
  rwa [same] at rounds

theorem rounds_ofUnits (units : Int) : Rounds (ofUnits units) (units / one) := by
  have rounds := rounds_nearest (units < 0) units.natAbs Nat.one_pos
  rwa [ratio, Nat.cast_one, one_mul, ← mul_div_assoc, sign_mul_natAbs] at rounds

theorem rounds_zero (negative : Bool) : Rounds (ofRank negative 0) 0 := by
  have rounds := rounds_nearest negative 0 Nat.one_pos
  rwa [ratio, Nat.cast_zero, zero_div, mul_zero] at rounds

theorem rounds_add (hx : x.IsFinite) (hy : y.IsFinite) : Rounds (x.add y) (x.value + y.value) := by
  have sum : x.value + y.value = ((x.units + y.units : ℤ) : ℚ) / one := by
    rw [value, value, ← add_div, Int.cast_add]
  rw [add, hx.isNaN, hy.isNaN, hx.isInfinite, hy.isInfinite, sum]
  by_cases zero : x.units + y.units = 0
  · rw [zero, Int.cast_zero, zero_div]
    exact rounds_zero _
  · simp only [Bool.or_self, Bool.false_eq_true, if_false, if_neg zero]
    exact rounds_ofUnits _

theorem rounds_mul (hx : x.IsFinite) (hy : y.IsFinite) : Rounds (x.mul y) (x.value * y.value) := by
  have rounds := rounds_nearest (x.negative != y.negative) (x.unitCount * y.unitCount) one_pos
  have product : ratio (x.negative != y.negative) (x.unitCount * y.unitCount) one =
      x.value * y.value := by
    rw [ratio, value_eq, value_eq, sign_bne, Nat.cast_mul, mul_div_mul_comm]
    ring
  rw [product] at rounds
  rw [mul, hx.isNaN, hy.isNaN, hx.isInfinite, hy.isInfinite]
  exact rounds

theorem rounds_div (hx : x.IsFinite) (hy : y.IsFinite) (nonzero : y.isZero = false) :
    Rounds (x.div y) (x.value / y.value) := by
  have rounds := rounds_nearest (x.negative != y.negative) (x.unitCount * one)
    (unitCount_pos nonzero)
  have quotient : ratio (x.negative != y.negative) (x.unitCount * one) y.unitCount =
      x.value / y.value := by
    rw [ratio, value_eq, value_eq, sign_bne, Nat.cast_mul, mul_div_mul_right _ _ one_cast_pos.ne',
      mul_div_mul_comm, div_div_div_cancel_right₀ one_cast_pos.ne', div_sign]
  rw [quotient] at rounds
  rw [div, hx.isNaN, hy.isNaN, hx.isInfinite, hy.isInfinite, nonzero]
  exact rounds

/-! ## To integers -/

theorem roundToInt_near (x : Binary64) : |(x.roundToInt : ℚ) - x.value| ≤ 1 / 2 := by
  have near := roundQuotient_near .awayFromZero x.unitCount one_pos
  set q := roundQuotient .awayFromZero x.unitCount one with hq
  have signed : (x.roundToInt : ℚ) = sign x.negative * q := by
    rw [roundToInt, ← hq, sign]
    cases x.negative with
    | false => rw [if_neg Bool.false_ne_true, if_neg Bool.false_ne_true, one_mul, Int.cast_natCast]
    | true => rw [if_pos rfl, if_pos rfl, Int.cast_neg, Int.cast_natCast, neg_one_mul]
  have difference : (q : ℚ) - x.unitCount / one = (q * one - x.unitCount) / one := by
    rw [sub_div, mul_div_cancel_right₀ _ one_cast_pos.ne']
  rw [signed, value_eq, ← mul_sub, abs_mul, abs_sign, one_mul, difference, abs_div,
    abs_of_pos one_cast_pos, div_le_div_iff₀ one_cast_pos two_pos]
  clear_value q
  generalize one = u at near ⊢
  obtain ⟨above, below⟩ := near
  have above : 2 * ((q : ℚ) * u) ≤ 2 * x.unitCount + u := by exact_mod_cast above
  have below : 2 * (x.unitCount : ℚ) ≤ 2 * ((q : ℚ) * u) + u := by exact_mod_cast below
  have half : |(q : ℚ) * u - x.unitCount| ≤ u / 2 := abs_le.mpr ⟨by linarith, by linarith⟩
  linarith

theorem IsFinite.roundToInt64 (h : x.IsFinite) :
    x.roundToInt64 = max (-9223372036854775808) (min 9223372036854775807 x.roundToInt) := by
  unfold Binary64.roundToInt64
  rw [h.isNaN, h.isInfinite]
  rfl

theorem roundToInt64_bounds (x : Binary64) :
    -9223372036854775808 ≤ x.roundToInt64 ∧ x.roundToInt64 ≤ 9223372036854775807 := by
  unfold roundToInt64
  dsimp only
  split
  · omega
  · split
    · split <;> omega
    · omega

/-- A number that is near an integer is as near to it, up to a half, after rounding to 64 bits. -/
theorem abs_roundToInt64_sub (hx : x.IsFinite) {i d : Int} (near : |x.value - i| < d + 1 / 2)
    (least : -9223372036854775808 ≤ i - d) (greatest : i + d ≤ 9223372036854775807) :
    |x.roundToInt64 - i| ≤ d := by
  have apart : |(x.roundToInt : ℚ) - i| < d + 1 := by
    have := abs_sub_le (x.roundToInt : ℚ) x.value i
    have := roundToInt_near x
    linarith
  have inside : |x.roundToInt - i| < d + 1 := by exact_mod_cast apart
  obtain ⟨above, below⟩ := abs_le.mp (Int.le_of_lt_add_one inside)
  rw [hx.roundToInt64, abs_le]
  omega

theorem roundToInt64_of_le (hx : x.IsFinite) (large : 9223372036854775808 ≤ x.value) :
    x.roundToInt64 = 9223372036854775807 := by
  have near := abs_le.mp (roundToInt_near x)
  have beyond : ((9223372036854775807 : Int) : ℚ) ≤ x.roundToInt := by
    push_cast
    linarith
  have beyond : 9223372036854775807 ≤ x.roundToInt := by exact_mod_cast beyond
  rw [hx.roundToInt64]
  omega

theorem roundToInt64_of_ge (hx : x.IsFinite) (small : x.value ≤ -9223372036854775809) :
    x.roundToInt64 = -9223372036854775808 := by
  have near := abs_le.mp (roundToInt_near x)
  have beyond : (x.roundToInt : ℚ) ≤ ((-9223372036854775808 : Int) : ℚ) := by
    push_cast
    linarith
  have beyond : x.roundToInt ≤ -9223372036854775808 := by exact_mod_cast beyond
  rw [hx.roundToInt64]
  omega

theorem finite_ofInt {i : Int} (h : |i| < 2 ^ 53) : (ofInt i).IsFinite ∧ (ofInt i).value = i := by
  have small : |(i : ℚ)| < 2 ^ 53 := by exact_mod_cast h
  exact ⟨((rounds_ofInt i).near 53 (by decide) small).1,
    (rounds_ofInt i).exact 53 (by decide) small ⟨i, rfl⟩⟩

end Binary64
end DocStore
