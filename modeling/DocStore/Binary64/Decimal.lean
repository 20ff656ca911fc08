import DocStore.Binary64.Arithmetic

/-! # Doubles and decimals

A decimal is a natural number of digits and a power of ten. Reading takes the double nearest to a
decimal. Writing takes the fewest digits that read back as the same double, and of those the
nearest to the value. -/
set_option autoImplicit false

namespace DocStore

/-- The magnitude `digits * 10 ^ exponent`. -/
structure Decimal where
  digits : Nat
  exponent : Int
deriving DecidableEq

namespace Decimal

/-- The number of decimal digits of a natural number, one for zero. -/
def digitCount (n : Nat) : Nat := (Nat.toDigits 10 n).length

def leadingExponent (d : Decimal) : Int := d.exponent + digitCount d.digits - 1

/-- The ratio `(num, den)` equal to `10 ^ exponent`. -/
def powerOfTen (exponent : Int) : Nat × Nat :=
  if 0 ≤ exponent then (Nat.pow 10 exponent.toNat, 1) else (1, Nat.pow 10 (-exponent).toNat)

/-- The number with its trailing decimal zeros moved into the exponent. -/
def trimmed (d : Decimal) : Decimal := go (digitCount d.digits) d
where
  go : Nat → Decimal → Decimal
    | 0, d => d
    | fuel + 1, d =>
      if d.digits % 10 = 0 ∧ d.digits ≠ 0 then go fuel ⟨d.digits / 10, d.exponent + 1⟩ else d

end Decimal

namespace Binary64

/-! ## Reading -/

/-- The double nearest to a decimal magnitude. Decimals far outside the range of doubles are not
expanded. -/
def ofDecimal (negative : Bool) (d : Decimal) : Binary64 :=
  if d.digits = 0 then ofRank negative 0
  else if 400 < d.leadingExponent then infinity negative
  else if d.leadingExponent < -400 then ofRank negative 0
  else
    let (num, den) := Decimal.powerOfTen d.exponent
    nearest negative (d.digits * num * one) den

/-! ## Writing -/

/-- The exponent of the leading decimal digit of a nonzero finite number. -/
def leadingExponent (x : Binary64) : Int :=
  let estimate : Int := ((x.unitCount.log2 : Int) - 1074) * 30103 / 100000
  let (num, den) := Decimal.powerOfTen (estimate + 1)
  if num * one ≤ x.unitCount * den then estimate + 1 else estimate

/-- The two decimals next to the magnitude of `x` on the grid of the given power of ten, the
nearer one first, a tie going to the even digit. -/
def gridNeighbours (x : Binary64) (exponent : Int) : Decimal × Decimal :=
  let (num, den) := Decimal.powerOfTen exponent
  let below := x.unitCount * den / (num * one)
  let close := roundQuotient .toEven (x.unitCount * den) (num * one)
  (⟨close, exponent⟩, ⟨if close = below then below + 1 else below, exponent⟩)

/-- A decimal on the grid of the given power of ten that reads back as `x`. -/
def readsBackOn? (x : Binary64) (exponent : Int) : Option Decimal :=
  let (first, second) := x.gridNeighbours exponent
  if ofDecimal x.negative first = x then some first
  else if ofDecimal x.negative second = x then some second
  else none

def exactDecimal (x : Binary64) : Decimal := ⟨x.unitCount * Nat.pow 5 1074, -1074⟩

/-- The shortest decimal that reads back as the nonzero finite number `x`, the nearest of those. -/
def shortest (x : Binary64) : Decimal :=
  let lead := x.leadingExponent
  let exponents := (List.range 17).map fun (places : Nat) => lead - places
  ((exponents.findSome? x.readsBackOn?).getD x.exactDecimal).trimmed

/-- The decimal with fifteen significant digits nearest to the nonzero finite number `x`, a half
going away from zero. -/
def fifteenDigits (x : Binary64) : Decimal :=
  let exponent := x.leadingExponent - 14
  let (num, den) := Decimal.powerOfTen exponent
  Decimal.trimmed ⟨roundQuotient .awayFromZero (x.unitCount * den) (num * one), exponent⟩

end Binary64
end DocStore
