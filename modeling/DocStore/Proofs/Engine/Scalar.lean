import DocStore.Engine.Evaluation
import DocStore.Proofs.Json.RoundTrip
import DocStore.Proofs.Outcome
import Mathlib.Data.String.Basic

/-! # Values of the engine and of JSON

Two scalars compare as equal or not in either order. A part that is taken out of a stored document
is the same scalar as the value that it stands for, bound as a parameter, if this is not a float:
numbers go through their literals, and while an integer beyond 64 signed bits comes out of its
literal as the nearest double, the literal of a double may come out as a neighbour. -/
set_option autoImplicit false

namespace DocStore.Engine

/-! ## Comparing -/

namespace Scalar

theorem compareInts_eq_iff {a b : Int} : compareInts a b = .eq ↔ a = b := by
  unfold compareInts
  split_ifs with below same
  · exact iff_of_false (by decide) (by omega)
  · exact iff_of_true rfl same
  · exact iff_of_false (by decide) same

theorem compareTexts_eq_iff {s t : String} : compareTexts s t = .eq ↔ s = t := by
  unfold compareTexts
  split_ifs with below same
  · exact iff_of_false (by decide) (ne_of_lt below)
  · exact iff_of_true rfl same
  · exact iff_of_false (by decide) same

theorem compare_self (a : Scalar) : a.compare a = .eq := by
  cases a with
  | null => rfl
  | number q => exact compareInts_eq_iff.mpr rfl
  | text s => exact compareTexts_eq_iff.mpr rfl

theorem compare_eq_comm {a b : Scalar} : a.compare b = .eq ↔ b.compare a = .eq := by
  cases a with
  | null => cases b <;> simp [compare]
  | number p =>
    cases b with
    | null => simp [compare]
    | number q => exact compareInts_eq_iff.trans (eq_comm.trans compareInts_eq_iff.symm)
    | text t => simp [compare]
  | text s =>
    cases b with
    | null => simp [compare]
    | number q => simp [compare]
    | text t => exact compareTexts_eq_iff.trans (eq_comm.trans compareTexts_eq_iff.symm)

theorem compare_beq_eq_comm (a b : Scalar) : (a.compare b == .eq) = (b.compare a == .eq) := by
  rw [Bool.eq_iff_iff, beq_iff_eq, beq_iff_eq]
  exact compare_eq_comm

end Scalar

/-! ## Integers beyond 64 signed bits -/

namespace Quantity

theorem repeat_of_fixed {α : Type} {f : α → α} {a : α} (h : f a = a) (n : Nat) :
    Nat.repeat f n a = a := by
  induction n with
  | zero => rfl
  | succ n ih => rw [Nat.repeat, ih, h]

/-- Digits that fit into 64 bits, with the last of them still to come, all count. -/
theorem foldl_takeWhole {cs : List Char} (e : Int)
    (h : Text.decimalValue cs < 10 * roomForDigit) :
    cs.foldl takeWhole ⟨0, e⟩ = ⟨Text.decimalValue cs, e⟩ := by
  induction cs using List.reverseRecOn with
  | nil => rfl
  | append_singleton cs c ih =>
    have value : Text.decimalValue (cs ++ [c]) = appendDigit (Text.decimalValue cs) c := by
      rw [Text.decimalValue_append]
      rfl
    rw [value, appendDigit] at h
    have room : Text.decimalValue cs < roomForDigit := by omega
    rw [List.foldl_append, ih (by omega), value]
    exact if_pos room

theorem significant_natLiteral {n : Nat} (h : n < 10 * roomForDigit) (negative : Bool) :
    significant ⟨negative, Text.decimal n, none, none⟩ = ⟨n, 0⟩ := by
  have read : (Text.decimal n).foldl takeWhole ⟨0, 0⟩ = ⟨n, 0⟩ := by
    have fits : Text.decimalValue (Text.decimal n) < 10 * roomForDigit := by
      rwa [Text.decimalValue_decimal]
    have all := foldl_takeWhole 0 fits
    rwa [Text.decimalValue_decimal] at all
  have multiplied : Nat.repeat multiplied 20 ⟨n, 0⟩ = ⟨n, 0⟩ := repeat_of_fixed rfl 20
  have divided : Nat.repeat divided 20 ⟨n, 0⟩ = ⟨n, 0⟩ := repeat_of_fixed rfl 20
  change Nat.repeat Quantity.divided 20 (Nat.repeat Quantity.multiplied 20
    ((Text.decimal n).foldl takeWhole ⟨0, 0⟩)) = _
  rw [read, multiplied, divided]

/-- An integer of 64 bits without a sign is read as the nearest double. -/
theorem readReal_natLiteral {n : Nat} (positive : n ≠ 0) (small : n < 2 ^ 64) :
    readReal ⟨false, Text.decimal n, none, none⟩ = .ofInt n := by
  by_cases room : n < 10 * roomForDigit
  · rw [readReal, significant_natLiteral room]
    dsimp only
    rw [if_neg positive]
    rfl
  · -- The last digit of the sixteen greatest integers does not count.
    have last : ∀ k : Fin 16, readReal
        ⟨false, Text.decimal (10 * roomForDigit + k.val), none, none⟩ =
          .ofInt (10 * roomForDigit + k.val : Nat) := by
      decide +kernel
    obtain ⟨k, rfl⟩ := Nat.exists_eq_add_of_le (Nat.le_of_not_lt room)
    have bound : 10 * roomForDigit = 18446744073709551600 := rfl
    exact last ⟨k, by omega⟩

end Quantity

/-- A number that is no float is the same as a literal and as a parameter. -/
theorem ofLiteral_literal (i : Int) (inRange : -9223372036854775808 ≤ i ∧ i < 18446744073709551616) :
    Quantity.ofLiteral (Number.int i inRange).literal = .ofNumber (.int i inRange) := by
  have integer : (Number.int i inRange).literal.isInteger = true := rfl
  have value : (Number.int i inRange).literal.toInt = i := Number.toInt_intLiteral i
  rw [Quantity.ofLiteral, integer, if_pos rfl, value, Quantity.ofNumber, Quantity.ofInt]
  cases fits : int64? i with
  | some n => rfl
  | none =>
    have large : 9223372036854775808 ≤ i := by
      by_contra low
      rw [int64?, if_pos (by omega)] at fits
      cases fits
    obtain ⟨n, rfl⟩ := Int.eq_ofNat_of_zero_le (a := i) (by omega)
    exact congrArg Quantity.real (Quantity.readReal_natLiteral (by omega) (by omega))

/-! ## Parts of documents -/

/-- A part of a document, as a scalar, is the value that it stands for, as a parameter, if that is
not a float. -/
theorem toScalar_ofNode_ofJson {j : Json} (h : ∀ x finite, j ≠ .number (.float x finite)) :
    (Datum.ofNode (.ofJson j)).toScalar = .ofJson j := by
  cases j with
  | number n =>
    cases n with
    | int i inRange =>
      obtain ⟨read, -⟩ := (Number.int i inRange).read?_chars
      rw [Node.ofJson, Datum.ofNode, String.toList_ofList, read]
      exact congrArg Scalar.number (ofLiteral_literal i inRange)
    | float x finite => exact absurd rfl (h x finite)
  | null | bool b | string s | array items | object members => rfl

/-- The text of a value is taken as the value, unless it is nested too deep. -/
theorem jsonOf_text (j : Json) : jsonOf (.scalar (.text j.text)) =
    if (Node.ofJson j).nesting ≤ Datum.maxDocumentNesting then .ok (.json (.ofJson j))
    else .error .malformedJson := by
  have read : Node.read? j.text = some (.ofJson j) := Node.read?_text (Node.written_ofJson j)
  rw [jsonOf, Datum.document?, read]
  dsimp only [Datum.document?.readable]
  split
  · rfl
  · rfl

end DocStore.Engine
