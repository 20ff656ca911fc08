import DocStore.Binary64.Decimal
import DocStore.Proofs.Binary64.Rounding
import DocStore.Proofs.Text.Digits

/-! # The shortest decimal reads back

Reading a decimal depends on its value alone: digits may be moved into the exponent. So the decimal
that a double is written as, be it found on a grid or the exact expansion, reads back as that
double. -/
set_option autoImplicit false

namespace DocStore

namespace Decimal

/-! ## Powers of ten -/

theorem digitCount_mul_pow {n : Nat} (h : n ≠ 0) (k : Nat) :
    digitCount (n * 10 ^ k) = digitCount n + k := by
  have digits := congrArg List.length (Text.decimal_mul_pow h k)
  rw [List.length_append, List.length_replicate] at digits
  exact digits

theorem digitCount_le_iff {n k : Nat} (h : 0 < k) : digitCount n ≤ k ↔ n < 10 ^ k :=
  Text.length_decimal_le_iff h

theorem powerOfTen_of_nonneg {e : Int} (h : 0 ≤ e) : powerOfTen e = (10 ^ e.toNat, 1) := if_pos h

theorem powerOfTen_of_neg {e : Int} (h : ¬0 ≤ e) : powerOfTen e = (1, 10 ^ (-e).toNat) := if_neg h

theorem powerOfTen_pos (e : Int) : 0 < (powerOfTen e).2 := by
  by_cases h : 0 ≤ e
  · rw [powerOfTen_of_nonneg h]
    exact Nat.one_pos
  · rw [powerOfTen_of_neg h]
    exact Nat.pow_pos (by decide)

theorem powerOfTen_sub (e : Int) (k : Nat) :
    10 ^ k * (powerOfTen (e - k)).1 * (powerOfTen e).2 =
      (powerOfTen e).1 * (powerOfTen (e - k)).2 := by
  by_cases high : 0 ≤ e - k
  · have sum : e.toNat = k + (e - k).toNat := by omega
    rw [powerOfTen_of_nonneg high, powerOfTen_of_nonneg (by omega), sum, Nat.pow_add]
  · by_cases middle : 0 ≤ e
    · have sum : k = e.toNat + (-(e - k)).toNat := by omega
      rw [powerOfTen_of_neg high, powerOfTen_of_nonneg middle, Nat.mul_one, Nat.mul_one]
      conv_lhs => rw [sum, Nat.pow_add]
    · have sum : (-(e - k)).toNat = k + (-e).toNat := by omega
      rw [powerOfTen_of_neg high, powerOfTen_of_neg middle, sum, Nat.pow_add, Nat.mul_one,
        Nat.one_mul]

end Decimal

namespace Binary64

/-! ## The value of a decimal -/

/-- Digits may be moved into the exponent. -/
theorem ofDecimal_mul_pow (negative : Bool) (n k : Nat) (e : Int) :
    ofDecimal negative ⟨n * 10 ^ k, e - k⟩ = ofDecimal negative ⟨n, e⟩ := by
  by_cases zero : n = 0
  · simp [ofDecimal, zero]
  · have power : 0 < 10 ^ k := Nat.pow_pos (by decide)
    have zero' : n * 10 ^ k ≠ 0 := Nat.mul_ne_zero zero power.ne'
    have lead : Decimal.leadingExponent ⟨n * 10 ^ k, e - k⟩ = Decimal.leadingExponent ⟨n, e⟩ := by
      simp only [Decimal.leadingExponent, Decimal.digitCount_mul_pow zero]
      omega
    have value : nearest negative (n * 10 ^ k * (Decimal.powerOfTen (e - k)).1 * one)
          (Decimal.powerOfTen (e - k)).2 =
        nearest negative (n * (Decimal.powerOfTen e).1 * one) (Decimal.powerOfTen e).2 := by
      refine nearest_congr negative (Decimal.powerOfTen_pos _) (Decimal.powerOfTen_pos _) ?_
      have ratio := Decimal.powerOfTen_sub e k
      generalize (Decimal.powerOfTen (e - k)).1 = a at ratio ⊢
      generalize (Decimal.powerOfTen (e - k)).2 = b at ratio ⊢
      calc n * 10 ^ k * a * one * (Decimal.powerOfTen e).2
          = n * one * (10 ^ k * a * (Decimal.powerOfTen e).2) := by ring
        _ = n * one * ((Decimal.powerOfTen e).1 * b) := by rw [ratio]
        _ = n * (Decimal.powerOfTen e).1 * one * b := by ring
    simp only [ofDecimal, if_neg zero, if_neg zero', lead, value]

theorem ofDecimal_trimmed (negative : Bool) (d : Decimal) :
    ofDecimal negative d.trimmed = ofDecimal negative d := by
  have steps (fuel : Nat) (d : Decimal) :
      ofDecimal negative (Decimal.trimmed.go fuel d) = ofDecimal negative d := by
    induction fuel generalizing d with
    | zero => rfl
    | succ fuel ih =>
      rw [Decimal.trimmed.go]
      split
      · rename_i h
        obtain ⟨n, e⟩ := d
        have whole : n / 10 * 10 ^ 1 = n := by
          rw [Nat.pow_one]
          exact Nat.div_mul_cancel (Nat.dvd_of_mod_eq_zero h.1)
        have moved := ofDecimal_mul_pow negative (n / 10) 1 (e + 1)
        have back : e + 1 - ((1 : Nat) : Int) = e := by omega
        rw [whole, back] at moved
        rw [ih, ← moved]
      · rfl
  exact steps _ d

/-! ## The exact expansion -/

theorem unitCount_lt {x : Binary64} (h : x.IsFinite) {k : Nat} (hk : 2098 ≤ k) :
    x.unitCount < 2 ^ k := by
  have finite : x.rank.val < 2047 * binade := h
  rw [unitCount]
  by_cases small : x.rank.val < binade
  · rw [unitsOfRank_of_lt small]
    refine Nat.lt_of_lt_of_le small ?_
    rw [binade_eq]
    exact Nat.pow_le_pow_right (by decide) (by omega)
  · rw [unitsOfRank_of_le (Nat.not_lt.mp small)]
    have scale : x.rank.val / binade < 2047 := (Nat.div_lt_iff_lt_mul (by decide)).mpr finite
    have rest : x.rank.val % binade < binade := Nat.mod_lt _ (by decide)
    have front : binade + x.rank.val % binade < 2 ^ 53 := by
      have twice : (2 : Nat) ^ 53 = binade + binade := by decide
      omega
    have power : 2 ^ (x.rank.val / binade - 1) ≤ 2 ^ (k - 53) :=
      Nat.pow_le_pow_right (by decide) (by omega)
    calc (binade + x.rank.val % binade) * 2 ^ (x.rank.val / binade - 1)
        ≤ (binade + x.rank.val % binade) * 2 ^ (k - 53) := Nat.mul_le_mul_left _ power
      _ < 2 ^ 53 * 2 ^ (k - 53) := Nat.mul_lt_mul_of_pos_right front (Nat.two_pow_pos _)
      _ = 2 ^ k := by rw [← Nat.pow_add, Nat.add_sub_cancel' (by omega)]

theorem unitCount_pos {x : Binary64} (h : x.isZero = false) : 0 < x.unitCount := by
  have positive : 0 < x.rank.val := by
    rw [isZero, beq_eq_false_iff_ne] at h
    omega
  rw [unitCount]
  by_cases small : x.rank.val < binade
  · rw [unitsOfRank_of_lt small]
    exact positive
  · rw [unitsOfRank_of_le (Nat.not_lt.mp small)]
    refine Nat.mul_pos ?_ (Nat.two_pow_pos _)
    rw [binade_eq]
    omega

theorem one_eq {k : Nat} (hk : k = 1074) : one = 2 ^ k := by
  delta one
  generalize 1074 = n at hk ⊢
  rw [hk, Nat.pow_eq]

theorem one_pos : 0 < one := by
  obtain ⟨n, hn⟩ : ∃ n, n = 1074 := ⟨_, rfl⟩
  rw [one_eq hn]
  exact Nat.two_pow_pos n

theorem exactDecimal_eq (x : Binary64) {k : Nat} (hk : k = 1074) :
    x.exactDecimal = ⟨x.unitCount * 5 ^ k, -k⟩ := by
  have exponent : (-1074 : Int) = -(k : Int) := by omega
  rw [exactDecimal, exponent, ← hk]
  rfl

theorem ten_pow_eq (k : Nat) : 10 ^ k = 5 ^ k * 2 ^ k := by
  rw [← Nat.mul_pow]

theorem exact_lt {u k m : Nat} (h : u < 2 ^ (k + 3 * m)) : u * 5 ^ k < 10 ^ (k + m) := by
  calc u * 5 ^ k < 2 ^ (k + 3 * m) * 5 ^ k :=
        Nat.mul_lt_mul_of_pos_right h (Nat.pow_pos (by decide))
    _ = 5 ^ k * 2 ^ k * 8 ^ m := by
        rw [Nat.pow_add, Nat.pow_mul]
        ring
    _ ≤ 10 ^ k * 10 ^ m := by
        rw [← ten_pow_eq]
        exact Nat.mul_le_mul_left _ (Nat.pow_le_pow_left (by decide) m)
    _ = 10 ^ (k + m) := (Nat.pow_add ..).symm

theorem le_exact {u k m : Nat} (h : 0 < u) (hm : m ≤ k) (hk : k ≤ 3 * m) :
    10 ^ (k - m) ≤ u * 5 ^ k := by
  have half : 2 ^ (k - m) ≤ 5 ^ m := by
    calc 2 ^ (k - m) ≤ 2 ^ (2 * m) := Nat.pow_le_pow_right (by decide) (by omega)
      _ = 4 ^ m := Nat.pow_mul 2 2 m
      _ ≤ 5 ^ m := Nat.pow_le_pow_left (by decide) m
  calc 10 ^ (k - m) = 5 ^ (k - m) * 2 ^ (k - m) := ten_pow_eq _
    _ ≤ 5 ^ (k - m) * 5 ^ m := Nat.mul_le_mul_left _ half
    _ = 5 ^ k := by rw [← Nat.pow_add, Nat.sub_add_cancel hm]
    _ ≤ u * 5 ^ k := Nat.le_mul_of_pos_left _ h

theorem ofDecimal_exactDecimal {x : Binary64} (h : x.IsFinite) (hz : x.isZero = false) :
    ofDecimal x.negative x.exactDecimal = x := by
  -- The exponents are variables, so that no power of them is computed.
  obtain ⟨k, hk⟩ : ∃ k, k = 1074 := ⟨1074, rfl⟩
  obtain ⟨m, hm⟩ : ∃ m, m = 400 := ⟨400, rfl⟩
  have positive := unitCount_pos hz
  have digits : x.unitCount * 5 ^ k ≠ 0 :=
    Nat.mul_ne_zero positive.ne' (Nat.pow_pos (by decide)).ne'
  have most : Decimal.digitCount (x.unitCount * 5 ^ k) ≤ k + m :=
    (Decimal.digitCount_le_iff (by omega)).mpr (exact_lt (unitCount_lt h (by omega)))
  have least : ¬Decimal.digitCount (x.unitCount * 5 ^ k) ≤ k - m := fun few =>
    Nat.not_lt.mpr (le_exact positive (by omega) (by omega))
      ((Decimal.digitCount_le_iff (by omega)).mp few)
  have lead : Decimal.leadingExponent ⟨x.unitCount * 5 ^ k, -k⟩ =
      -k + Decimal.digitCount (x.unitCount * 5 ^ k) - 1 := rfl
  have power : Decimal.powerOfTen (-k) = (1, 10 ^ k) := by
    have exponent : (- -(k : Int)).toNat = k := by omega
    rw [Decimal.powerOfTen_of_neg (by omega), exponent]
  rw [exactDecimal_eq x hk, ofDecimal, if_neg digits, if_neg (by omega), if_neg (by omega), power]
  calc nearest x.negative (x.unitCount * 5 ^ k * 1 * one) (10 ^ k)
      = nearest x.negative x.unitCount 1 := by
        refine nearest_congr x.negative (Nat.pow_pos (by decide)) Nat.one_pos ?_
        rw [one_eq hk, ten_pow_eq]
        ring
    _ = x := nearest_unitCount h

/-! ## The shortest decimal -/

theorem ofDecimal_of_readsBackOn? {x : Binary64} {e : Int} {d : Decimal}
    (h : x.readsBackOn? e = some d) : ofDecimal x.negative d = x := by
  rw [readsBackOn?] at h
  generalize x.gridNeighbours e = neighbours at h
  obtain ⟨first, second⟩ := neighbours
  dsimp only at h
  by_cases back : ofDecimal x.negative first = x
  · rw [if_pos back] at h
    exact Option.some.inj h ▸ back
  · rw [if_neg back] at h
    by_cases back : ofDecimal x.negative second = x
    · rw [if_pos back] at h
      exact Option.some.inj h ▸ back
    · rw [if_neg back] at h
      exact absurd h (by simp)

/-- What a nonzero finite number is written as reads back as that number. -/
theorem ofDecimal_shortest {x : Binary64} (h : x.IsFinite) (hz : x.isZero = false) :
    ofDecimal x.negative x.shortest = x := by
  rw [shortest, ofDecimal_trimmed]
  cases found : ((List.range 17).map fun (places : Nat) =>
    x.leadingExponent - places).findSome? x.readsBackOn? with
  | some d =>
    obtain ⟨e, -, onGrid⟩ := List.exists_of_findSome?_eq_some found
    rw [Option.getD_some, ofDecimal_of_readsBackOn? onGrid]
  | none => rw [Option.getD_none, ofDecimal_exactDecimal h hz]

theorem digits_ne_zero_of_ofDecimal {x : Binary64} {d : Decimal} (hz : x.isZero = false)
    (h : ofDecimal x.negative d = x) : d.digits ≠ 0 := by
  intro zero
  rw [ofDecimal, if_pos zero] at h
  rw [← h] at hz
  exact absurd hz (by simp [isZero, ofRank])

end Binary64
end DocStore
