import DocStore.Binary64.Decimal
import DocStore.Text.Digits

/-! # JSON numbers

A number is an integer of 64 bits, signed or unsigned, or a finite double. The two kinds stay
apart: `1` and `1.0` are different numbers. A literal is a number as it is written. -/
set_option autoImplicit false

namespace DocStore

inductive Number where
  | int (value : Int) (inRange : -9223372036854775808 ≤ value ∧ value < 18446744073709551616)
  | float (value : Binary64) (finite : value.IsFinite)
deriving DecidableEq

namespace Number

/-! ## Construction -/

def ofInt? (i : Int) : Option Number :=
  if h : -9223372036854775808 ≤ i ∧ i < 18446744073709551616 then some (.int i h) else none

def ofBinary64? (x : Binary64) : Option Number :=
  if h : x.IsFinite then some (.float x h) else none

def ofNat64 (n : UInt64) : Number :=
  .int n.toNat (by have := n.toNat_lt; omega)

def ofInt64 (i : Int64) : Number :=
  .int i.toInt (by have := i.le_toInt; have := i.toInt_lt; omega)

/-! ## Views -/

/-- The value as a signed 64-bit integer; a float has none. -/
def toInt64? : Number → Option Int
  | .int i _ => if i < 9223372036854775808 then some i else none
  | .float _ _ => none

/-- The value as an unsigned 64-bit integer; a float has none. -/
def toNat64? : Number → Option Nat
  | .int i _ => if 0 ≤ i then some i.toNat else none
  | .float _ _ => none

def toBinary64 : Number → Binary64
  | .int i _ => Binary64.ofInt i
  | .float x _ => x

/-- Equality of numbers: the kinds must agree, and floats compare by value. -/
def equals : Number → Number → Bool
  | .int i _, .int j _ => i == j
  | .float x _, .float y _ => x.equals y
  | _, _ => false

end Number

/-! ## Writing -/

namespace Binary64

/-- Decimal digits with a point after the first, if there is more than one. -/
def pointAfterFirst : List Char → List Char
  | [] => []
  | [d] => [d]
  | d :: rest => d :: '.' :: rest

/-- A decimal in positional notation with at least one digit on either side of the point. -/
def positional (digits : List Char) (exponent : Int) : List Char :=
  if 0 ≤ exponent then digits ++ List.replicate exponent.toNat '0' ++ ['.', '0']
  else
    let places := (-exponent).toNat
    let padded := Text.padZeros (places + 1) digits
    padded.take (padded.length - places) ++ '.' :: padded.drop (padded.length - places)

/-- A decimal in scientific notation; the exponent always has a sign. -/
def scientific (digits : List Char) (leading : Int) : List Char :=
  pointAfterFirst digits ++ 'e' :: (if leading < 0 then '-' else '+') :: Text.decimal leading.natAbs

/-- The shortest text of a finite number: positional from `1e-5` up to below `1e16`, scientific
outside that range. -/
def chars (x : Binary64) : List Char :=
  let magnitude :=
    if x.isZero then ['0', '.', '0']
    else
      let d := x.shortest
      let lead := d.leadingExponent
      let digits := Text.decimal d.digits
      if -5 ≤ lead ∧ lead ≤ 15 then positional digits d.exponent else scientific digits lead
  if x.negative then '-' :: magnitude else magnitude

/-- The text of any double, with `NaN`, `inf` and `-inf` for those that are not finite. -/
def text (x : Binary64) : String :=
  if x.isNaN then "NaN"
  else if x.isInfinite then (if x.negative then "-inf" else "inf")
  else String.ofList x.chars

end Binary64

def Number.chars : Number → List Char
  | .int i _ => Text.decimalInt i
  | .float x _ => x.chars

/-! ## Literals -/

/-- A number as it is written: sign, whole digits, fraction digits and exponent. -/
structure NumberLiteral where
  negative : Bool
  whole : List Char
  fraction : Option (List Char)
  exponent : Option Int

namespace NumberLiteral

def spanDigits (cs : List Char) : List Char × List Char :=
  (cs.takeWhile Text.isDigit, cs.dropWhile Text.isDigit)

def readFraction? : List Char → Option (Option (List Char) × List Char)
  | '.' :: rest =>
    let (digits, rest) := spanDigits rest
    if digits.isEmpty then none else some (some digits, rest)
  | rest => some (none, rest)

def readExponentDigits? (negative : Bool) (cs : List Char) : Option (Option Int) :=
  let (digits, rest) := spanDigits cs
  if digits.isEmpty || !rest.isEmpty then none
  else
    let value : Int := Text.decimalValue digits
    some (some (if negative then -value else value))

def readExponent? : List Char → Option (Option Int)
  | [] => some none
  | c :: rest =>
    if c = 'e' ∨ c = 'E' then
      match rest with
      | '-' :: digits => readExponentDigits? true digits
      | '+' :: digits => readExponentDigits? false digits
      | digits => readExponentDigits? false digits
    else none

def readMagnitude? (negative : Bool) (cs : List Char) : Option NumberLiteral := do
  let (whole, rest) := spanDigits cs
  guard (whole = ['0'] ∨ (whole ≠ [] ∧ whole.head? ≠ some '0'))
  let (fraction, rest) ← readFraction? rest
  let exponent ← readExponent? rest
  pure { negative, whole, fraction, exponent }

/-- Reads a whole text as a literal: no leading zeros, no leading plus, and at least one digit in
each part that is present. -/
def read? : List Char → Option NumberLiteral
  | '-' :: rest => readMagnitude? true rest
  | cs => readMagnitude? false cs

def isInteger (l : NumberLiteral) : Bool := l.fraction.isNone && l.exponent.isNone

def magnitude (l : NumberLiteral) : Decimal :=
  let places := l.fraction.getD []
  ⟨Text.decimalValue (l.whole ++ places), l.exponent.getD 0 - places.length⟩

def toBinary64 (l : NumberLiteral) : Binary64 := Binary64.ofDecimal l.negative l.magnitude

/-- The value of a literal without fraction and exponent. -/
def toInt (l : NumberLiteral) : Int :=
  let n : Int := Text.decimalValue l.whole
  if l.negative then -n else n

/-- The number a literal stands for: an integer if it is written as one and has 64 bits, else the
nearest double, which must be finite. The literal `-0` is the negative zero. That the nearest double
is read is an assumption: a reader that scales by powers of ten may come to a neighbour of it. -/
def toNumber? (l : NumberLiteral) : Option Number :=
  if l.isInteger && !(l.negative && l.toInt == 0) then
    (Number.ofInt? l.toInt).orElse fun _ => Number.ofBinary64? l.toBinary64
  else Number.ofBinary64? l.toBinary64

end NumberLiteral

/-- The double that a text stands for: a literal, `NaN`, `inf` or `-inf`. -/
def Binary64.ofText? (s : String) : Option Binary64 :=
  if s = "NaN" then some nan
  else if s = "inf" then some (infinity false)
  else if s = "-inf" then some (infinity true)
  else (NumberLiteral.read? s.toList).map NumberLiteral.toBinary64

end DocStore
