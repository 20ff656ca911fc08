import DocStore.Proofs.Binary64.Shortest
import DocStore.Proofs.Json.Literal

/-! # Numbers read back

Every number is written as a well-formed literal that stands for it: an integer as its digits, and a
finite double as a decimal that reads back, positional or scientific. -/
set_option autoImplicit false

namespace DocStore

/-! ## Doubles -/

namespace Binary64

/-- The literal of the decimal `n * 10 ^ e` in positional notation. -/
def positionalLiteral (negative : Bool) (n : Nat) (e : Int) : NumberLiteral :=
  if 0 ≤ e then
    ⟨negative, Text.decimal n ++ List.replicate e.toNat '0', some ['0'], none⟩
  else
    let padded := Text.padZeros ((-e).toNat + 1) (Text.decimal n)
    ⟨negative, padded.take (padded.length - (-e).toNat),
      some (padded.drop (padded.length - (-e).toNat)), none⟩

def scientificLiteral (negative : Bool) (digits : List Char) (lead : Int) : NumberLiteral :=
  match digits with
  | [] => ⟨negative, [], none, some lead⟩
  | [d] => ⟨negative, [d], none, some lead⟩
  | d :: rest => ⟨negative, [d], some rest, some lead⟩

/-- The literal of a decimal that is not zero, in the notation that its leading digit asks for. -/
def decimalLiteral (negative : Bool) (d : Decimal) : NumberLiteral :=
  if -5 ≤ d.leadingExponent ∧ d.leadingExponent ≤ 15 then
    positionalLiteral negative d.digits d.exponent
  else scientificLiteral negative (Text.decimal d.digits) d.leadingExponent

def literal (x : Binary64) : NumberLiteral :=
  if x.isZero then ⟨x.negative, ['0'], some ['0'], none⟩
  else decimalLiteral x.negative x.shortest

theorem chars_positional (negative : Bool) (n : Nat) (e : Int) :
    (positionalLiteral negative n e).chars =
      if negative then '-' :: positional (Text.decimal n) e
      else positional (Text.decimal n) e := by
  unfold positionalLiteral positional
  split
  · simp [NumberLiteral.chars, NumberLiteral.magnitudeChars, NumberLiteral.fractionChars,
      NumberLiteral.exponentChars]
  · simp [NumberLiteral.chars, NumberLiteral.magnitudeChars, NumberLiteral.fractionChars,
      NumberLiteral.exponentChars]

theorem chars_scientific (negative : Bool) (digits : List Char) (lead : Int) :
    (scientificLiteral negative digits lead).chars =
      if negative then '-' :: scientific digits lead else scientific digits lead := by
  match digits with
  | [] => rfl
  | [d] => rfl
  | d :: d' :: rest => cases negative <;> rfl

theorem chars_decimalLiteral (negative : Bool) (d : Decimal) :
    (decimalLiteral negative d).chars =
      let magnitude :=
        if -5 ≤ d.leadingExponent ∧ d.leadingExponent ≤ 15 then
          positional (Text.decimal d.digits) d.exponent
        else scientific (Text.decimal d.digits) d.leadingExponent
      if negative then '-' :: magnitude else magnitude := by
  unfold decimalLiteral
  split
  · exact chars_positional ..
  · exact chars_scientific ..

theorem chars_eq (x : Binary64) : x.chars = x.literal.chars := by
  rw [chars, literal]
  generalize x.shortest = d
  cases x.isZero with
  | true => rfl
  | false =>
    rw [if_neg Bool.false_ne_true, if_neg Bool.false_ne_true, chars_decimalLiteral]

/-! ## The literals are well formed -/

theorem isDigit_of_mem_padZeros {width n : Nat} {c : Char}
    (h : c ∈ Text.padZeros width (Text.decimal n)) : Text.isDigit c = true := by
  rcases List.mem_append.mp h with h | h
  · rw [List.eq_of_mem_replicate h]
    rfl
  · exact Text.isDigit_of_mem_decimal n c h

theorem length_padZeros (width : Nat) (cs : List Char) :
    (Text.padZeros width cs).length = max width cs.length := by
  rw [Text.padZeros, List.length_append, List.length_replicate]
  omega

/-- Before the last `places` digits stands a zero alone, or no zero first. -/
theorem leading_padZeros {n : Nat} (hn : n ≠ 0) (places : Nat) :
    (Text.padZeros (places + 1) (Text.decimal n)).take
        ((Text.padZeros (places + 1) (Text.decimal n)).length - places) = ['0'] ∨
      ((Text.padZeros (places + 1) (Text.decimal n)).take
        ((Text.padZeros (places + 1) (Text.decimal n)).length - places)).head? ≠ some '0' := by
  rw [length_padZeros]
  by_cases short : (Text.decimal n).length ≤ places
  · left
    obtain ⟨zeros, hz⟩ : ∃ zeros, places + 1 - (Text.decimal n).length = zeros + 1 :=
      Nat.exists_eq_add_one.mpr (by omega)
    have first : max (places + 1) (Text.decimal n).length - places = 1 := by omega
    rw [first, Text.padZeros, hz]
    rfl
  · right
    have full : Text.padZeros (places + 1) (Text.decimal n) = Text.decimal n := by
      rw [Text.padZeros, Nat.sub_eq_zero_of_le (by omega)]
      rfl
    rw [full, List.head?_take, if_neg (by omega)]
    exact Text.head?_decimal_ne_zero hn

theorem wellFormed_positional (negative : Bool) {n : Nat} (hn : n ≠ 0) (e : Int) :
    (positionalLiteral negative n e).WellFormed := by
  unfold positionalLiteral
  by_cases he : 0 ≤ e
  · rw [if_pos he]
    obtain ⟨c, rest, split⟩ := List.exists_cons_of_ne_nil (Text.decimal_ne_nil n)
    have first := Text.head?_decimal_ne_zero hn
    refine ⟨⟨by simp [split], fun c hc => ?_⟩, .inr ?_, ?_⟩
    · rcases List.mem_append.mp hc with hc | hc
      · exact Text.isDigit_of_mem_decimal n c hc
      · rw [List.eq_of_mem_replicate hc]
        rfl
    · rw [split] at first ⊢
      exact first
    · rintro digits ⟨⟩
      exact NumberLiteral.isDigits_zero
  · rw [if_neg he]
    have places : 0 < (-e).toNat := by omega
    have wide := length_padZeros ((-e).toNat + 1) (Text.decimal n)
    refine ⟨⟨?_, fun c hc => isDigit_of_mem_padZeros (List.mem_of_mem_take hc)⟩,
      leading_padZeros hn (-e).toNat, ?_⟩
    · rw [← List.length_pos_iff, List.length_take]
      omega
    · rintro digits ⟨⟩
      refine ⟨?_, fun c hc => isDigit_of_mem_padZeros (List.mem_of_mem_drop hc)⟩
      rw [← List.length_pos_iff, List.length_drop]
      omega

theorem wellFormed_scientific (negative : Bool) {n : Nat} (hn : n ≠ 0) (lead : Int) :
    (scientificLiteral negative (Text.decimal n) lead).WellFormed := by
  have digits := Text.isDigit_of_mem_decimal n
  have first := Text.head?_decimal_ne_zero hn
  match Text.decimal n, Text.decimal_ne_nil n, digits, first with
  | [d], _, digits, first =>
    refine ⟨⟨List.cons_ne_nil _ _, digits⟩, .inr first, ?_⟩
    rintro ds ⟨⟩
  | d :: d' :: rest, _, digits, first =>
    refine ⟨⟨List.cons_ne_nil _ _, ?_⟩, .inr first, ?_⟩
    · intro c hc
      exact digits c (List.mem_singleton.mp hc ▸ List.mem_cons_self ..)
    · rintro ds ⟨⟩
      exact ⟨List.cons_ne_nil _ _, fun c hc => digits c (List.mem_cons_of_mem d hc)⟩

/-! ## The literals stand for the doubles -/

theorem toBinary64_positional (negative : Bool) (n : Nat) (e : Int) :
    (positionalLiteral negative n e).toBinary64 = ofDecimal negative ⟨n, e⟩ := by
  unfold positionalLiteral
  by_cases he : 0 ≤ e
  · have value : Text.decimalValue (Text.decimal n ++ List.replicate e.toNat '0' ++ ['0']) =
        n * 10 ^ (e.toNat + 1) := by
      rw [List.append_assoc, ← List.replicate_succ', Text.decimalValue_append_zeros,
        Text.decimalValue_decimal]
    have exponent : e - ((e.toNat + 1 : Nat) : Int) = 0 - 1 := by omega
    have moved := ofDecimal_mul_pow negative n (e.toNat + 1) e
    rw [exponent] at moved
    rw [if_pos he, NumberLiteral.toBinary64, NumberLiteral.magnitude]
    simp only [Option.getD_some, Option.getD_none, value]
    exact moved
  · have value : Text.decimalValue (Text.padZeros ((-e).toNat + 1) (Text.decimal n)) = n := by
      rw [Text.padZeros, Text.decimalValue_zeros_append, Text.decimalValue_decimal]
    have wide : (-e).toNat ≤ (Text.padZeros ((-e).toNat + 1) (Text.decimal n)).length := by
      rw [length_padZeros]
      omega
    have exponent : (0 : Int) - ((-e).toNat : Int) = e := by omega
    rw [if_neg he, NumberLiteral.toBinary64, NumberLiteral.magnitude]
    simp only [Option.getD_some, Option.getD_none, List.take_append_drop, List.length_drop, value,
      Nat.sub_sub_self wide, exponent]

theorem toBinary64_scientific (negative : Bool) (d : Decimal) :
    (scientificLiteral negative (Text.decimal d.digits) d.leadingExponent).toBinary64 =
      ofDecimal negative d := by
  obtain ⟨n, e⟩ := d
  have value := Text.decimalValue_decimal n
  have lead : Decimal.leadingExponent ⟨n, e⟩ = e + (Text.decimal n).length - 1 := rfl
  rw [lead]
  dsimp only
  match Text.decimal n, Text.decimal_ne_nil n, value with
  | [c], _, value =>
    have exponent : e + ([c].length : Int) - 1 = e := by simp
    simp only [scientificLiteral, NumberLiteral.toBinary64, NumberLiteral.magnitude,
      Option.getD_none, Option.getD_some, List.append_nil, value, exponent]
    simp
  | c :: c' :: rest, _, value =>
    have exponent : e + ((c :: c' :: rest).length : Int) - 1 - ((c' :: rest).length : Int) = e := by
      simp only [List.length_cons]
      omega
    simp only [scientificLiteral, NumberLiteral.toBinary64, NumberLiteral.magnitude,
      Option.getD_some, List.cons_append, List.nil_append, value, exponent]

/-! ## The text of a double -/

theorem wellFormed_decimalLiteral (negative : Bool) {d : Decimal} (hd : d.digits ≠ 0) :
    (decimalLiteral negative d).WellFormed := by
  unfold decimalLiteral
  split
  · exact wellFormed_positional negative hd d.exponent
  · exact wellFormed_scientific negative hd d.leadingExponent

theorem toBinary64_decimalLiteral (negative : Bool) (d : Decimal) :
    (decimalLiteral negative d).toBinary64 = ofDecimal negative d := by
  unfold decimalLiteral
  split
  · exact toBinary64_positional negative d.digits d.exponent
  · exact toBinary64_scientific negative d

theorem isInteger_decimalLiteral (negative : Bool) (d : Decimal) :
    (decimalLiteral negative d).isInteger = false := by
  unfold decimalLiteral positionalLiteral scientificLiteral
  split
  · split <;> rfl
  · split <;> rfl

theorem eq_ofRank_zero {x : Binary64} (hz : x.isZero = true) : x = ofRank x.negative 0 := by
  obtain ⟨negative, rank⟩ := x
  have none : rank = 0 := Fin.ext (by simpa [isZero] using hz)
  rw [none]
  rfl

theorem literal_of_isZero {x : Binary64} (hz : x.isZero = true) :
    x.literal = ⟨x.negative, ['0'], some ['0'], none⟩ :=
  if_pos hz

theorem literal_of_not_isZero {x : Binary64} (hz : x.isZero = false) :
    x.literal = decimalLiteral x.negative x.shortest :=
  if_neg (Bool.eq_false_iff.mp hz)

theorem wellFormed_literal {x : Binary64} (h : x.IsFinite) : x.literal.WellFormed := by
  cases hz : x.isZero with
  | true =>
    rw [literal_of_isZero hz]
    refine ⟨NumberLiteral.isDigits_zero, .inl rfl, ?_⟩
    rintro digits ⟨⟩
    exact NumberLiteral.isDigits_zero
  | false =>
    rw [literal_of_not_isZero hz]
    exact wellFormed_decimalLiteral x.negative
      (digits_ne_zero_of_ofDecimal hz (ofDecimal_shortest h hz))

/-- A finite number is written as a literal that stands for it. -/
theorem toBinary64_literal {x : Binary64} (h : x.IsFinite) : x.literal.toBinary64 = x := by
  cases hz : x.isZero with
  | true =>
    rw [literal_of_isZero hz, NumberLiteral.toBinary64, NumberLiteral.magnitude]
    exact (eq_ofRank_zero hz).symm
  | false =>
    rw [literal_of_not_isZero hz, toBinary64_decimalLiteral, ofDecimal_shortest h hz]

theorem isInteger_literal (x : Binary64) : x.literal.isInteger = false := by
  cases hz : x.isZero with
  | true =>
    rw [literal_of_isZero hz]
    rfl
  | false => rw [literal_of_not_isZero hz, isInteger_decimalLiteral]

end Binary64

/-! ## Numbers -/

namespace Number

def literal : Number → NumberLiteral
  | .int i _ => ⟨i < 0, Text.decimal i.natAbs, none, none⟩
  | .float x _ => x.literal

theorem chars_eq (n : Number) : n.chars = n.literal.chars := by
  cases n with
  | int i inRange =>
    rw [chars, literal, Text.decimalInt]
    by_cases negative : i < 0
    · simp [negative, NumberLiteral.chars, NumberLiteral.magnitudeChars,
        NumberLiteral.fractionChars, NumberLiteral.exponentChars]
    · simp [negative, NumberLiteral.chars, NumberLiteral.magnitudeChars,
        NumberLiteral.fractionChars, NumberLiteral.exponentChars]
  | float x finite => exact x.chars_eq

theorem wellFormed_literal (n : Number) : n.literal.WellFormed := by
  cases n with
  | int i inRange =>
    refine ⟨NumberLiteral.isDigits_decimal i.natAbs, ?_, ?_⟩
    · by_cases zero : i.natAbs = 0
      · left
        rw [literal, zero]
        rfl
      · exact .inr (Text.head?_decimal_ne_zero zero)
    · rintro digits ⟨⟩
  | float x finite => exact Binary64.wellFormed_literal finite

theorem toInt_intLiteral (i : Int) :
    (⟨i < 0, Text.decimal i.natAbs, none, none⟩ : NumberLiteral).toInt = i := by
  rw [NumberLiteral.toInt, Text.decimalValue_decimal]
  by_cases negative : i < 0
  · rw [if_pos (by simpa using negative)]
    omega
  · rw [if_neg (by simpa using negative)]
    omega

theorem toNumber?_literal (n : Number) : n.literal.toNumber? = some n := by
  cases n with
  | int i inRange =>
    have signed : (decide (i < 0) && i == 0) = false := by
      rw [Bool.and_eq_false_iff, decide_eq_false_iff_not, beq_eq_false_iff_ne]
      omega
    rw [literal, NumberLiteral.toNumber?, toInt_intLiteral]
    simp [NumberLiteral.isInteger, signed, ofInt?, inRange]
  | float x finite =>
    rw [literal, NumberLiteral.toNumber?, Binary64.isInteger_literal,
      Binary64.toBinary64_literal finite]
    simp [ofBinary64?, finite]

/-- The text of a number reads back as its literal, which stands for the number. -/
theorem read?_chars (n : Number) :
    NumberLiteral.read? n.chars = some n.literal ∧ n.literal.toNumber? = some n := by
  rw [chars_eq]
  exact ⟨n.wellFormed_literal.read?_chars, n.toNumber?_literal⟩

end Number
end DocStore
