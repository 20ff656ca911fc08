import DocStore.Engine.Scalar
import DocStore.Proofs.Json.Number

/-! # Literals that the engine writes

Every number that is not a NaN is written as a literal that can be read, though not always as the
number itself: a double is cut to fifteen digits, and infinity is written as a number too large for
a double. That the fifteen digits of a double are not all zero is a matter of its exponents: the
estimate of the decimal exponent from the binary one is never more than fourteen places too high. -/
set_option autoImplicit false

namespace DocStore

namespace Binary64

/-! ## Powers of ten and of two -/

theorem ten_pow_le_two_pow {n k : Nat} (h : 10 * n ≤ 3 * k) : 10 ^ n ≤ 2 ^ k := by
  have cubes : (10 ^ n) ^ 3 ≤ (2 ^ k) ^ 3 := by
    calc (10 ^ n) ^ 3 = (10 ^ 3) ^ n := by rw [← Nat.pow_mul, ← Nat.pow_mul, Nat.mul_comm]
      _ ≤ (2 ^ 10) ^ n := Nat.pow_le_pow_left (by decide) n
      _ = 2 ^ (10 * n) := (Nat.pow_mul ..).symm
      _ ≤ 2 ^ (k * 3) := Nat.pow_le_pow_right (by decide) (by omega)
      _ = (2 ^ k) ^ 3 := Nat.pow_mul ..
  exact (Nat.pow_le_pow_iff_left (by decide)).mp cubes

theorem two_pow_le_ten_pow {n k : Nat} (h : 4 * k ≤ 13 * n) : 2 ^ k ≤ 10 ^ n := by
  have powers : (2 ^ k) ^ 4 ≤ (10 ^ n) ^ 4 := by
    calc (2 ^ k) ^ 4 = 2 ^ (4 * k) := by rw [← Nat.pow_mul, Nat.mul_comm]
      _ ≤ 2 ^ (13 * n) := Nat.pow_le_pow_right (by decide) h
      _ = (2 ^ 13) ^ n := Nat.pow_mul ..
      _ ≤ (10 ^ 4) ^ n := Nat.pow_le_pow_left (by decide) n
      _ = (10 ^ n) ^ 4 := by rw [← Nat.pow_mul, ← Nat.pow_mul, Nat.mul_comm]
  exact (Nat.pow_le_pow_iff_left (by decide)).mp powers

/-! ## Fifteen digits -/

theorem leadingExponent_le (x : Binary64) :
    100000 * (x.leadingExponent - 1) ≤ 30103 * ((x.unitCount.log2 : Int) - 1074) := by
  unfold leadingExponent
  dsimp only
  split <;> omega

/-- A unit in the grid of a power of ten is at most twice a number, if the power of ten is thirteen
places below the estimate from the binary exponent of the number. -/
theorem grid_le_of {u l k : Nat} {e : Int} (hk : k = 1074) (low : 2 ^ l ≤ u) (high : l < 2098)
    (he : 100000 * (e + 13) ≤ 30103 * ((l : Int) - 1074)) :
    (Decimal.powerOfTen e).1 * 2 ^ k ≤ 2 * (u * (Decimal.powerOfTen e).2) := by
  have twice : 2 ^ (l + 1) ≤ 2 * u := by
    rw [Nat.pow_succ, Nat.mul_comm]
    exact Nat.mul_le_mul_left 2 low
  by_cases coarse : 0 ≤ e
  · rw [Decimal.powerOfTen_of_nonneg coarse, Nat.mul_one]
    have power : 10 ^ e.toNat ≤ 2 ^ (l + 1 - k) := ten_pow_le_two_pow (by omega)
    calc 10 ^ e.toNat * 2 ^ k ≤ 2 ^ (l + 1 - k) * 2 ^ k := Nat.mul_le_mul_right _ power
      _ = 2 ^ (l + 1) := by rw [← Nat.pow_add, Nat.sub_add_cancel (by omega)]
      _ ≤ 2 * u := twice
  · rw [Decimal.powerOfTen_of_neg coarse, Nat.one_mul, ← Nat.mul_assoc]
    have power : 2 ^ (k - (l + 1)) ≤ 10 ^ (-e).toNat := two_pow_le_ten_pow (by omega)
    calc 2 ^ k ≤ 2 ^ (l + 1 + (k - (l + 1))) := Nat.pow_le_pow_right (by decide) (by omega)
      _ = 2 ^ (l + 1) * 2 ^ (k - (l + 1)) := Nat.pow_add ..
      _ ≤ 2 * u * 10 ^ (-e).toNat := Nat.mul_le_mul twice power

theorem roundQuotient_ne_zero {num den : Nat} (h : den ≤ 2 * num) :
    roundQuotient .awayFromZero num den ≠ 0 := by
  unfold roundQuotient
  dsimp only
  split_ifs with below above
  · intro zero
    have split := Nat.div_add_mod num den
    rw [zero, Nat.mul_zero, Nat.zero_add] at split
    omega
  · exact Nat.succ_ne_zero _
  · exact Nat.succ_ne_zero _

theorem digits_trimmed_ne_zero {d : Decimal} (h : d.digits ≠ 0) : d.trimmed.digits ≠ 0 := by
  have steps (fuel : Nat) (d : Decimal) (h : d.digits ≠ 0) :
      (Decimal.trimmed.go fuel d).digits ≠ 0 := by
    induction fuel generalizing d with
    | zero => exact h
    | succ fuel ih =>
      rw [Decimal.trimmed.go]
      split
      · exact ih _ (by dsimp only; omega)
      · exact h
  exact steps _ d h

/-- What holds of a decimal rounded to the grid of fifteen digits holds of the fifteen digits. The
leading place and the units of one are variables, because the checker of a proof would begin to
compute with them. -/
theorem fifteenDigits_induction {x : Binary64} {P : Decimal → Prop}
    (h : ∀ (lead : Int) (unit : Nat), x.leadingExponent = lead → one = unit →
      P (Decimal.trimmed ⟨roundQuotient .awayFromZero
        (x.unitCount * (Decimal.powerOfTen (lead - 14)).2)
        ((Decimal.powerOfTen (lead - 14)).1 * unit), lead - 14⟩)) : P x.fifteenDigits := by
  generalize opened : @fifteenDigits = f
  delta fifteenDigits at opened
  subst opened
  beta_reduce
  obtain ⟨lead, hlead⟩ : ∃ lead, x.leadingExponent = lead := ⟨_, rfl⟩
  obtain ⟨unit, hunit⟩ : ∃ unit, one = unit := ⟨_, rfl⟩
  rw [hlead, hunit]
  exact h lead unit hlead hunit

theorem digits_fifteenDigits_ne_zero {x : Binary64} (h : x.IsFinite) (hz : x.isZero = false) :
    x.fifteenDigits.digits ≠ 0 := by
  refine fifteenDigits_induction (P := fun d => d.digits ≠ 0) fun lead unit hlead hunit => ?_
  obtain ⟨k, hk⟩ : ∃ k : Nat, k = 1074 := ⟨_, rfl⟩
  obtain ⟨b, hb⟩ : ∃ b : Nat, b = 2098 := ⟨_, rfl⟩
  have positive := unitCount_pos hz
  have high : x.unitCount.log2 < b :=
    (Nat.log2_lt positive.ne').mpr (unitCount_lt h (Nat.le_of_eq hb.symm))
  have estimate := x.leadingExponent_le
  rw [hlead] at estimate
  have grid := grid_le_of (e := lead - 14) hk (Nat.log2_self_le positive.ne') (by omega)
    (by omega)
  rw [← one_eq hk, hunit] at grid
  exact digits_trimmed_ne_zero (roundQuotient_ne_zero grid)

end Binary64

namespace Engine

open NumberLiteral

/-! ## Texts of doubles -/

/-- Digits in scientific notation with a fraction read as a magnitude. -/
theorem readMagnitude?_scientificChars (negative : Bool) {n : Nat} (hn : n ≠ 0) (lead : Int) :
    ∃ l, readMagnitude? negative (Quantity.scientificChars (Text.decimal n) lead) = some l := by
  have digits := Text.isDigit_of_mem_decimal n
  have first := Text.head?_decimal_ne_zero hn
  obtain ⟨d, rest, split⟩ := List.exists_cons_of_ne_nil (Text.decimal_ne_nil n)
  rw [split] at digits first ⊢
  obtain ⟨hd, hrest⟩ := List.forall_mem_cons.mp digits
  let fraction : List Char := if (d :: rest).length = 1 then ['0'] else (d :: rest).drop 1
  have hfraction : IsDigits fraction := by
    dsimp only [fraction]
    split
    · exact isDigits_zero
    · rename_i long
      refine ⟨fun none => long ?_, hrest⟩
      rw [List.drop_one, List.tail_cons] at none
      rw [none]
      rfl
  have padded : IsDigits (Text.padZeros 2 (Text.decimal lead.natAbs)) := by
    refine ⟨?_, fun c hc => Binary64.isDigit_of_mem_padZeros hc⟩
    rw [← List.length_pos_iff, Binary64.length_padZeros]
    omega
  have exponent : ∃ e, readExponent?
      ('e' :: (if lead < 0 then '-' else '+') :: Text.padZeros 2 (Text.decimal lead.natAbs)) =
        some e := by
    by_cases below : lead < 0
    · rw [if_pos below]
      exact ⟨_, readExponentDigits?_of_isDigits true padded⟩
    · rw [if_neg below]
      exact ⟨_, readExponentDigits?_of_isDigits false padded⟩
  obtain ⟨e, he⟩ := exponent
  exact ⟨_, readMagnitude?_append (f := some fraction) negative
    ⟨List.cons_ne_nil d [], List.forall_mem_singleton.mpr hd⟩ (.inr first)
    (by rintro _ ⟨⟩; exact hfraction) he⟩

theorem exists_read?_signed {magnitude : List Char} (h : magnitude.head? ≠ some '-')
    (hm : ∀ negative, ∃ l, readMagnitude? negative magnitude = some l) (negative : Bool) :
    ∃ l, read? (if negative then '-' :: magnitude else magnitude) = some l := by
  cases negative with
  | true => exact hm true
  | false =>
    rw [if_neg Bool.false_ne_true, read?_of_unsigned h]
    exact hm false

/-- A decimal other than zero reads in the notation that the engine writes it in. -/
theorem exists_read?_decimal (negative : Bool) {d : Decimal} (hd : d.digits ≠ 0) :
    let magnitude :=
      if -4 ≤ d.leadingExponent ∧ d.leadingExponent ≤ 14 then
        Binary64.positional (Text.decimal d.digits) d.exponent
      else Quantity.scientificChars (Text.decimal d.digits) d.leadingExponent
    ∃ l, read? (if negative then '-' :: magnitude else magnitude) = some l := by
  intro magnitude
  by_cases near : -4 ≤ d.leadingExponent ∧ d.leadingExponent ≤ 14
  · rw [show magnitude = _ from if_pos near, ← Binary64.chars_positional]
    exact ⟨_, (Binary64.wellFormed_positional negative hd d.exponent).read?_chars⟩
  · rw [show magnitude = _ from if_neg near]
    refine exists_read?_signed ?_ (fun negative => readMagnitude?_scientificChars negative hd _)
      negative
    have digits := Text.isDigit_of_mem_decimal d.digits
    obtain ⟨c, rest, split⟩ := List.exists_cons_of_ne_nil (Text.decimal_ne_nil d.digits)
    rw [split] at digits ⊢
    rintro ⟨⟩
    cases digits '-' (List.mem_cons_self ..)

theorem exists_read?_realChars {x : Binary64} (h : x.IsFinite) :
    ∃ l, read? (Quantity.realChars x) = some l := by
  cases hz : x.isZero with
  | true =>
    rw [Quantity.realChars, if_pos hz]
    exact ⟨_, rfl⟩
  | false =>
    have digits := Binary64.digits_fifteenDigits_ne_zero h hz
    rw [Quantity.realChars, if_neg (Bool.eq_false_iff.mp hz)]
    exact exists_read?_decimal x.negative digits

/-- What the engine writes for a number can be read, unless the number is a NaN. -/
theorem exists_read?_literal (q : Quantity) (h : q.toBinary64.isNaN = false) :
    ∃ l, read? q.literal.toList = some l := by
  cases q with
  | integer i =>
    have read := (Number.ofInt64 i).read?_chars.1
    exact ⟨_, by rw [Quantity.literal, String.toList_ofList]; exact read⟩
  | real x =>
    rw [Quantity.literal]
    split
    · cases x.negative with
      | true => exact ⟨_, rfl⟩
      | false => exact ⟨_, rfl⟩
    · rename_i bounded
      rw [String.toList_ofList]
      refine exists_read?_realChars ?_
      have below : ¬Binary64.infinityRank < x.rank.val := of_decide_eq_false h
      have other : x.rank.val ≠ Binary64.infinityRank := by
        simpa [Binary64.isInfinite] using bounded
      rw [Binary64.IsFinite]
      omega

end Engine
end DocStore
