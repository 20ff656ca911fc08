import DocStore.Binary64.Decimal

/-! # Extended precision

Numbers with 64 significant bits, in which a decimal may be scaled before it becomes a double. Each
product is rounded to 64 bits, and the double is the nearest to the last of them, so what comes out
need not be the double nearest to the decimal. The exponent is not bounded: what leaves the range of
the extended format lies far outside that of doubles. -/
set_option autoImplicit false

namespace DocStore

/-- The magnitude `significand * 2 ^ exponent`. -/
structure Extended where
  significand : Nat
  exponent : Int
deriving DecidableEq

namespace Extended

/-- The number nearest to `n * 2 ^ e`, a tie going to the even neighbour. -/
def round (n : Nat) (e : Int) : Extended :=
  let shift := n.log2 - 63
  ⟨roundQuotient .toEven n (Nat.pow 2 shift), e + shift⟩

def mul (x y : Extended) : Extended :=
  round (x.significand * y.significand) (x.exponent + y.exponent)

/-! ## Powers of ten -/

/-- The number nearest to `10 ^ k`. -/
def tenPow (k : Nat) : Extended := round (Nat.pow 10 k) 0

/-- The number nearest to `1 / 10 ^ k`. -/
def tenthPow (k : Nat) : Extended :=
  let places := 64 + (Nat.pow 10 k).log2
  ⟨roundQuotient .toEven (Nat.pow 2 places) (Nat.pow 10 k), -places⟩

/-- The product with `10 ^ e`, by hundreds, tens and ones of the exponent. -/
def scale (e : Int) (x : Extended) : Extended :=
  let power (k : Nat) := if e < 0 then tenthPow k else tenPow k
  let n := e.natAbs
  let hundreds := Nat.repeat (mul (power 100)) (n / 100) x
  let tens := Nat.repeat (mul (power 10)) (n % 100 / 10) hundreds
  Nat.repeat (mul (power 1)) (n % 10) tens

/-! ## As a double -/

def toBinary64 (negative : Bool) (x : Extended) : Binary64 :=
  let e := x.exponent + 1074
  if e < 0 then .nearest negative x.significand (Nat.pow 2 (-e).toNat)
  else .nearest negative (x.significand * Nat.pow 2 e.toNat) 1

end Extended
end DocStore
