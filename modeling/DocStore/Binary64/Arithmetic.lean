import DocStore.Binary64.Basic

/-! # Correctly rounded arithmetic

Each operation is the exact result rounded once, to the nearest double with ties to the even
neighbour. The exact results are ratios of natural numbers in units of `2 ^ -1074`, so no
approximation enters before the rounding. -/
set_option autoImplicit false

namespace DocStore

/-- How a quotient exactly between two integers is rounded. -/
inductive Tie where
  | toEven
  | awayFromZero
deriving DecidableEq

/-- The integer nearest to `num / den`. -/
def roundQuotient (tie : Tie) (num den : Nat) : Nat :=
  let q := num / den
  let twice := 2 * (num % den)
  if twice < den then q
  else if den < twice then q + 1
  else match tie with
    | .toEven => q + q % 2
    | .awayFromZero => q + 1

namespace Binary64

/-! ## Rounding -/

/-- The rank nearest to a magnitude of `num / den` units; a magnitude past the largest finite
number goes to infinity. -/
def rankNearest (num den : Nat) : Nat :=
  let shift := (num / den).log2 - 52
  min infinityRank (shift * binade + roundQuotient .toEven num (den * Nat.pow 2 shift))

/-- The double nearest to a magnitude of `num / den` units. -/
def nearest (negative : Bool) (num den : Nat) : Binary64 := ofRank negative (rankNearest num den)

/-- The double nearest to a number of units; an exact zero is positive. -/
def ofUnits (units : Int) : Binary64 := nearest (units < 0) units.natAbs 1

def ofInt (i : Int) : Binary64 := nearest (i < 0) (i.natAbs * one) 1

/-! ## Operations -/

def neg (x : Binary64) : Binary64 := { x with negative := !x.negative }

def add (x y : Binary64) : Binary64 :=
  if x.isNaN || y.isNaN then nan
  else if x.isInfinite then
    if y.isInfinite && x.negative != y.negative then nan else x
  else if y.isInfinite then y
  else if x.units + y.units = 0 then ofRank (x.negative && y.negative) 0
  else ofUnits (x.units + y.units)

def mul (x y : Binary64) : Binary64 :=
  let negative := x.negative != y.negative
  if x.isNaN || y.isNaN then nan
  else if x.isInfinite || y.isInfinite then
    if x.isZero || y.isZero then nan else infinity negative
  else nearest negative (x.unitCount * y.unitCount) one

def div (x y : Binary64) : Binary64 :=
  let negative := x.negative != y.negative
  if x.isNaN || y.isNaN then nan
  else if x.isInfinite then
    if y.isInfinite then nan else infinity negative
  else if y.isInfinite then ofRank negative 0
  else if y.isZero then
    if x.isZero then nan else infinity negative
  else nearest negative (x.unitCount * one) y.unitCount

/-! ## To integers -/

/-- The integer nearest to a finite number, a half going away from zero. -/
def roundToInt (x : Binary64) : Int :=
  let magnitude := roundQuotient .awayFromZero x.unitCount one
  if x.negative then -magnitude else magnitude

/-- A finite number rounded to an integer and clamped to the 64-bit signed range, with infinities
at the ends of the range and NaN at zero. -/
def roundToInt64 (x : Binary64) : Int :=
  let least : Int := -9223372036854775808
  let greatest : Int := 9223372036854775807
  if x.isNaN then 0
  else if x.isInfinite then (if x.negative then least else greatest)
  else max least (min greatest x.roundToInt)

/-! ## Single precision -/

/-- The double equal to the single-precision number nearest to `x`: 24 significant bits, no unit
below `2 ^ -149`, and infinity from `2 ^ 128` on. -/
def toSingle (x : Binary64) : Binary64 :=
  if x.isNaN || x.isInfinite then x
  else
    let leastUnit := 925
    let step := Nat.pow 2 (max leastUnit (x.unitCount.log2 - 23))
    let rounded := roundQuotient .toEven x.unitCount step * step
    if Nat.pow 2 128 * one ≤ rounded then infinity x.negative else nearest x.negative rounded 1

end Binary64
end DocStore
