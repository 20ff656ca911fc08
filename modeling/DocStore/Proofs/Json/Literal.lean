import DocStore.Json.Number
import DocStore.Proofs.Text.Digits

/-! # Literals read and written

A literal is written as its sign, its whole digits, its fraction and its exponent. Where these are
digits without a leading zero, the text reads back as the literal. -/
set_option autoImplicit false

namespace DocStore.NumberLiteral

/-! ## Writing -/

def fractionChars : Option (List Char) → List Char
  | none => []
  | some digits => '.' :: digits

def exponentChars : Option Int → List Char
  | none => []
  | some e => 'e' :: (if e < 0 then '-' else '+') :: Text.decimal e.natAbs

def magnitudeChars (l : NumberLiteral) : List Char :=
  l.whole ++ (fractionChars l.fraction ++ exponentChars l.exponent)

def chars (l : NumberLiteral) : List Char :=
  if l.negative then '-' :: l.magnitudeChars else l.magnitudeChars

/-! ## Digits -/

/-- Whether a text is digits, at least one. -/
def IsDigits (cs : List Char) : Prop := cs ≠ [] ∧ ∀ c ∈ cs, Text.isDigit c = true

theorem isDigits_decimal (n : Nat) : IsDigits (Text.decimal n) :=
  ⟨Text.decimal_ne_nil n, Text.isDigit_of_mem_decimal n⟩

theorem isDigits_zero : IsDigits ['0'] :=
  ⟨List.cons_ne_nil _ _, List.forall_mem_singleton.mpr rfl⟩

/-- Whether what follows digits is no digit. -/
def EndsDigits (rest : List Char) : Prop := ∀ c ∈ rest.head?, Text.isDigit c = false

theorem spanDigits_append {ds rest : List Char} (hd : IsDigits ds) (hr : EndsDigits rest) :
    spanDigits (ds ++ rest) = (ds, rest) := by
  have none : rest.takeWhile Text.isDigit = [] ∧ rest.dropWhile Text.isDigit = rest := by
    cases rest with
    | nil => exact ⟨rfl, rfl⟩
    | cons c rest =>
      have hc : Text.isDigit c = false := hr c rfl
      simp [hc]
  rw [spanDigits, List.takeWhile_append_of_pos hd.2, List.dropWhile_append_of_pos hd.2, none.1,
    none.2, List.append_nil]

/-- An exponent begins with its mark, if it is not absent. -/
theorem eq_mark_of_readExponent? {es : List Char} {e : Option Int} (h : readExponent? es = some e) :
    ∀ c ∈ es.head?, c = 'e' ∨ c = 'E' := by
  cases es with
  | nil =>
    intro c hc
    cases hc
  | cons c es =>
    rintro _ ⟨⟩
    by_contra other
    simp [readExponent?, other] at h

theorem endsDigits_fractionChars (f : Option (List Char)) {es : List Char} {e : Option Int}
    (h : readExponent? es = some e) : EndsDigits (fractionChars f ++ es) := by
  cases f with
  | none =>
    intro c hc
    rcases eq_mark_of_readExponent? h c hc with rfl | rfl <;> rfl
  | some digits =>
    intro c hc
    cases hc
    rfl

/-! ## Reading -/

theorem readFraction?_append {f : Option (List Char)} (hf : ∀ digits ∈ f, IsDigits digits)
    {es : List Char} {e : Option Int} (h : readExponent? es = some e) :
    readFraction? (fractionChars f ++ es) = some (f, es) := by
  cases f with
  | none =>
    cases es with
    | nil => rfl
    | cons c es =>
      rcases eq_mark_of_readExponent? h c rfl with rfl | rfl <;> rfl
  | some digits =>
    obtain ⟨filled, -⟩ := hf digits rfl
    have span : spanDigits (digits ++ es) = (digits, es) :=
      spanDigits_append (hf digits rfl) (endsDigits_fractionChars none h)
    have some : digits.isEmpty = false := List.isEmpty_eq_false_iff.mpr filled
    simp [fractionChars, readFraction?, span, some]

theorem readExponentDigits?_of_isDigits (negative : Bool) {ds : List Char} (h : IsDigits ds) :
    readExponentDigits? negative ds =
      some (some (if negative then -(Text.decimalValue ds : Int) else Text.decimalValue ds)) := by
  have span : spanDigits (ds ++ []) = (ds, []) := spanDigits_append h fun c hc => by cases hc
  rw [List.append_nil] at span
  have filled : ds.isEmpty = false := List.isEmpty_eq_false_iff.mpr h.1
  simp [readExponentDigits?, span, filled]

theorem readExponent?_exponentChars (e : Option Int) :
    readExponent? (exponentChars e) = some e := by
  cases e with
  | none => rfl
  | some e =>
    have digits := isDigits_decimal e.natAbs
    by_cases negative : e < 0
    · have value : -(e.natAbs : Int) = e := by omega
      rw [exponentChars, if_pos negative, readExponent?, readExponentDigits?_of_isDigits true digits,
        if_pos rfl, Text.decimalValue_decimal, value]
      rfl
    · have value : (e.natAbs : Int) = e := by omega
      rw [exponentChars, if_neg negative, readExponent?, readExponentDigits?_of_isDigits false digits,
        if_neg Bool.false_ne_true, Text.decimalValue_decimal, value]
      rfl

/-- The parts of a magnitude, each of them as it is read alone, read as the magnitude. -/
theorem readMagnitude?_append (negative : Bool) {whole es : List Char} {f : Option (List Char)}
    {e : Option Int} (hw : IsDigits whole) (leading : whole = ['0'] ∨ whole.head? ≠ some '0')
    (hf : ∀ digits ∈ f, IsDigits digits) (he : readExponent? es = some e) :
    readMagnitude? negative (whole ++ (fractionChars f ++ es)) =
      some { negative, whole, fraction := f, exponent := e } := by
  have span := spanDigits_append hw (endsDigits_fractionChars f he)
  have first : whole = ['0'] ∨ whole ≠ [] ∧ whole.head? ≠ some '0' :=
    leading.imp_right fun first => ⟨hw.1, first⟩
  simp only [readMagnitude?, span, guard, if_pos first, Option.pure_def, Option.bind_eq_bind,
    Option.bind_some, readFraction?_append hf he, he]

/-- A literal that is written without leading zeros and with digits in each of its parts. -/
structure WellFormed (l : NumberLiteral) : Prop where
  whole : IsDigits l.whole
  leading : l.whole = ['0'] ∨ l.whole.head? ≠ some '0'
  fraction : ∀ digits ∈ l.fraction, IsDigits digits

theorem WellFormed.readMagnitude? {l : NumberLiteral} (h : l.WellFormed) :
    readMagnitude? l.negative l.magnitudeChars = some l :=
  readMagnitude?_append l.negative h.whole h.leading h.fraction
    (readExponent?_exponentChars l.exponent)

theorem read?_of_unsigned {cs : List Char} (h : cs.head? ≠ some '-') :
    read? cs = NumberLiteral.readMagnitude? false cs := by
  unfold read?
  split
  · exact absurd rfl h
  · rfl

theorem IsDigits.head?_ne {ds rest : List Char} (h : IsDigits ds) {c : Char}
    (hc : Text.isDigit c = false) : (ds ++ rest).head? ≠ some c := by
  obtain ⟨d, ds, rfl⟩ := List.exists_cons_of_ne_nil h.1
  have digit := h.2 d (List.mem_cons_self ..)
  intro e
  cases e
  rw [hc] at digit
  cases digit

/-- The text of a well-formed literal reads back as the literal. -/
theorem WellFormed.read?_chars {l : NumberLiteral} (h : l.WellFormed) : read? l.chars = some l := by
  have read := h.readMagnitude?
  rw [chars]
  cases negative : l.negative with
  | true =>
    rw [negative] at read
    rw [if_pos rfl, read?, read]
  | false =>
    have unsigned : l.magnitudeChars.head? ≠ some '-' := h.whole.head?_ne (by decide)
    rw [negative] at read
    rw [if_neg Bool.false_ne_true, read?_of_unsigned unsigned, read]

end DocStore.NumberLiteral
