import DocStore.Binary64.Arithmetic
import Mathlib.Algebra.Order.Ring.Nat

/-! # Rounding to the nearest double

The nearest double depends on the value of a ratio alone, not on how it is written, and a finite
double is nearest to its own magnitude. -/
set_option autoImplicit false

namespace DocStore

theorem roundQuotient_mul_right (tie : Tie) (num den : Nat) {k : Nat} (hk : 0 < k) :
    roundQuotient tie (num * k) (den * k) = roundQuotient tie num den := by
  have less : 2 * (num % den * k) < den * k ↔ 2 * (num % den) < den := by
    rw [← Nat.mul_assoc]
    exact Nat.mul_lt_mul_right hk
  have more : den * k < 2 * (num % den * k) ↔ den < 2 * (num % den) := by
    rw [← Nat.mul_assoc]
    exact Nat.mul_lt_mul_right hk
  simp only [roundQuotient, Nat.mul_div_mul_right num den hk, Nat.mul_mod_mul_right, less, more]

theorem roundQuotient_of_dvd (tie : Tie) (q : Nat) {den : Nat} (hd : 0 < den) :
    roundQuotient tie (q * den) den = q := by
  have div : q * den / den = q := Nat.mul_div_cancel q hd
  have mod : q * den % den = 0 := Nat.mul_mod_left q den
  simp only [roundQuotient, div, mod, Nat.mul_zero, if_pos hd]

namespace Binary64

/-! ## The value alone -/

theorem rankNearest_eq (num den : Nat) : rankNearest num den =
    min infinityRank (((num / den).log2 - 52) * binade +
      roundQuotient .toEven num (den * 2 ^ ((num / den).log2 - 52))) :=
  rfl

theorem rankNearest_mul_right (num den : Nat) {k : Nat} (hk : 0 < k) :
    rankNearest (num * k) (den * k) = rankNearest num den := by
  simp only [rankNearest_eq, Nat.mul_div_mul_right num den hk, Nat.mul_right_comm den k,
    roundQuotient_mul_right .toEven num _ hk]

/-- Equal ratios have the same nearest double. -/
theorem nearest_congr (negative : Bool) {num den num' den' : Nat} (hd : 0 < den) (hd' : 0 < den')
    (h : num * den' = num' * den) : nearest negative num den = nearest negative num' den' := by
  rw [nearest, nearest, ← rankNearest_mul_right num den hd', h, Nat.mul_comm den den',
    rankNearest_mul_right num' den' hd]

/-! ## Magnitudes of doubles -/

theorem unitsOfRank_of_lt {r : Nat} (h : r < binade) : unitsOfRank r = r := if_pos h

theorem unitsOfRank_of_le {r : Nat} (h : binade ≤ r) :
    unitsOfRank r = (binade + r % binade) * 2 ^ (r / binade - 1) :=
  if_neg (Nat.not_lt.mpr h)

theorem binade_eq : binade = 2 ^ 52 := rfl

/-- A finite double is the nearest to its own magnitude. -/
theorem rankNearest_unitsOfRank {r : Nat} (h : r < infinityRank) :
    rankNearest (unitsOfRank r) 1 = r := by
  rw [rankNearest_eq, Nat.div_one]
  by_cases small : r < binade
  · rw [unitsOfRank_of_lt small]
    have log : r.log2 - 52 = 0 := by
      by_cases zero : r = 0
      · rw [zero]
        rfl
      · have := (Nat.log2_lt zero).mpr (binade_eq ▸ small)
        omega
    have round := roundQuotient_of_dvd .toEven r Nat.one_pos
    rw [Nat.mul_one] at round
    simp only [log, Nat.zero_mul, Nat.zero_add, Nat.pow_zero, Nat.mul_one, round]
    exact Nat.min_eq_right (Nat.le_of_lt h)
  · have large : binade ≤ r := Nat.not_lt.mp small
    rw [unitsOfRank_of_le large]
    have split : binade * (r / binade) + r % binade = r := Nat.div_add_mod r binade
    have rest : r % binade < binade := Nat.mod_lt r (by decide)
    obtain ⟨e, he⟩ : ∃ e, r / binade = e + 1 :=
      Nat.exists_eq_add_one.mpr (Nat.div_pos large (by decide))
    rw [he, Nat.add_sub_cancel]
    have log : ((binade + r % binade) * 2 ^ e).log2 = 52 + e := by
      have positive : (binade + r % binade) * 2 ^ e ≠ 0 :=
        Nat.mul_ne_zero (by rw [binade_eq]; omega) (Nat.two_pow_pos e).ne'
      rw [Nat.log2_eq_iff positive, Nat.pow_succ, Nat.pow_add, ← binade_eq, Nat.mul_right_comm]
      constructor
      · exact Nat.mul_le_mul_right _ (by omega)
      · exact Nat.mul_lt_mul_of_pos_right (by omega) (Nat.two_pow_pos e)
    have round := roundQuotient_of_dvd .toEven (binade + r % binade) (Nat.two_pow_pos e)
    simp only [log, Nat.add_sub_cancel_left, Nat.one_mul, round]
    have sum : e * binade + (binade + r % binade) = r := by
      rw [he, Nat.mul_succ, Nat.mul_comm] at split
      omega
    rw [sum]
    exact Nat.min_eq_right (Nat.le_of_lt h)

/-- A finite number is the nearest to its own value. -/
theorem nearest_unitCount {x : Binary64} (h : x.IsFinite) :
    nearest x.negative x.unitCount 1 = x := by
  have same : Fin.ofNat 9223372036854775808 x.rank.val = x.rank := Fin.ofNat_val_eq_self x.rank
  rw [nearest, unitCount, rankNearest_unitsOfRank h, ofRank, same]

end Binary64
end DocStore
