import DocStore.Text.Digits
import Mathlib.Tactic.Ring

/-! # Decimal digits read and written

A number in decimal reads back as itself; it begins with no zero unless it is zero; and zeros after
its digits multiply it by ten while zeros before them change nothing. -/
set_option autoImplicit false

namespace DocStore.Text

/-! ## Values of digits -/

theorem ofDigits_append (base : Nat) (a b : List Nat) :
    ofDigits base (a ++ b) = ofDigits base a * base ^ b.length + ofDigits base b := by
  have shifted (b : List Nat) (n : Nat) :
      b.foldl (fun n d => base * n + d) n = n * base ^ b.length + ofDigits base b := by
    induction b generalizing n with
    | nil => simp [ofDigits]
    | cons d b ih =>
      rw [ofDigits, List.foldl_cons, List.foldl_cons, ih, ih (base * 0 + d), List.length_cons,
        Nat.pow_succ]
      ring
  rw [ofDigits, List.foldl_append]
  exact shifted b _

theorem decimalValue_append (a b : List Char) :
    decimalValue (a ++ b) = decimalValue a * 10 ^ b.length + decimalValue b := by
  rw [decimalValue, List.map_append, ofDigits_append, List.length_map]
  rfl

theorem decimalValue_zeros (k : Nat) : decimalValue (List.replicate k '0') = 0 := by
  induction k with
  | zero => rfl
  | succ k ih =>
    rw [List.replicate_succ', decimalValue_append, ih]
    rfl

theorem decimalValue_zeros_append (k : Nat) (cs : List Char) :
    decimalValue (List.replicate k '0' ++ cs) = decimalValue cs := by
  rw [decimalValue_append, decimalValue_zeros, Nat.zero_mul, Nat.zero_add]

theorem decimalValue_append_zeros (cs : List Char) (k : Nat) :
    decimalValue (cs ++ List.replicate k '0') = decimalValue cs * 10 ^ k := by
  rw [decimalValue_append, decimalValue_zeros, List.length_replicate, Nat.add_zero]

/-! ## Digits of numbers -/

theorem decimal_of_lt {n : Nat} (h : n < 10) : decimal n = [n.digitChar] :=
  Nat.toDigits_of_lt_base h

theorem decimal_of_le {n : Nat} (h : 10 ≤ n) :
    decimal n = decimal (n / 10) ++ [(n % 10).digitChar] :=
  Nat.toDigits_of_base_le (by decide) h

/-- Induction on a number by its last decimal digit. -/
theorem decimal_induction {P : Nat → Prop} (digit : ∀ d < 10, P d)
    (more : ∀ n, 10 ≤ n → P (n / 10) → P n) (n : Nat) : P n := by
  induction n using Nat.strongRecOn with
  | ind n ih =>
    by_cases h : n < 10
    · exact digit n h
    · exact more n (by omega) (ih (n / 10) (by omega))

theorem decimalValue_digitChar : ∀ d < 10, decimalValue [d.digitChar] = d := by decide

theorem isDigit_digitChar : ∀ d < 10, isDigit d.digitChar = true := by decide

theorem digitChar_ne_zero : ∀ d < 10, d ≠ 0 → d.digitChar ≠ '0' := by decide

@[simp] theorem decimalValue_decimal (n : Nat) : decimalValue (decimal n) = n := by
  induction n using decimal_induction with
  | digit d h => rw [decimal_of_lt h, decimalValue_digitChar d h]
  | more n h ih =>
    have last : n % 10 < 10 := Nat.mod_lt n (by decide)
    rw [decimal_of_le h, decimalValue_append, ih, decimalValue_digitChar _ last]
    exact Nat.div_add_mod' n 10

theorem isDigit_of_mem_decimal (n : Nat) : ∀ c ∈ decimal n, isDigit c = true := by
  induction n using decimal_induction with
  | digit d h =>
    intro c hc
    rw [decimal_of_lt h, List.mem_singleton] at hc
    rw [hc, isDigit_digitChar d h]
  | more n h ih =>
    intro c hc
    rw [decimal_of_le h, List.mem_append, List.mem_singleton] at hc
    rcases hc with hc | rfl
    · exact ih c hc
    · exact isDigit_digitChar _ (Nat.mod_lt n (by decide))

theorem decimal_ne_nil (n : Nat) : decimal n ≠ [] := Nat.toDigits_ne_nil

theorem head?_decimal_ne_zero {n : Nat} (h : n ≠ 0) : (decimal n).head? ≠ some '0' := by
  induction n using decimal_induction with
  | digit d hd =>
    rw [decimal_of_lt hd, List.head?_cons, ne_eq, Option.some_inj]
    exact digitChar_ne_zero d hd h
  | more n hn ih =>
    obtain ⟨c, rest, e⟩ := List.exists_cons_of_ne_nil (decimal_ne_nil (n / 10))
    rw [e] at ih
    rw [decimal_of_le hn, e]
    exact ih (by omega)

/-- Multiplying by ten writes a zero after the digits. -/
theorem decimal_mul_pow {n : Nat} (h : n ≠ 0) (k : Nat) :
    decimal (n * 10 ^ k) = decimal n ++ List.replicate k '0' := by
  induction k with
  | zero => simp
  | succ k ih =>
    have positive : 0 < n * 10 ^ k := Nat.mul_pos (Nat.pos_of_ne_zero h) (Nat.pow_pos (by decide))
    have large : 10 ≤ n * 10 ^ (k + 1) := by
      rw [Nat.pow_succ, ← Nat.mul_assoc]
      omega
    have front : n * 10 ^ (k + 1) / 10 = n * 10 ^ k := by
      rw [Nat.pow_succ, ← Nat.mul_assoc, Nat.mul_div_cancel _ (by decide)]
    have last : n * 10 ^ (k + 1) % 10 = 0 := by
      rw [Nat.pow_succ, ← Nat.mul_assoc, Nat.mul_mod_left]
    rw [decimal_of_le large, front, last, ih, List.append_assoc, List.replicate_succ']
    rfl

theorem length_decimal_le_iff {n k : Nat} (h : 0 < k) : (decimal n).length ≤ k ↔ n < 10 ^ k :=
  Nat.length_toDigits_le_iff (by decide) h

end DocStore.Text
