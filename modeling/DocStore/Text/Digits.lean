/-! # Digits

Reading and writing natural numbers in the bases that texts use. Letters for digits above nine are
written in lower case and read in either case. -/
set_option autoImplicit false

namespace DocStore.Text

def hexValue? (c : Char) : Option Nat :=
  if '0' ≤ c ∧ c ≤ '9' then some (c.toNat - 48)
  else if 'a' ≤ c ∧ c ≤ 'f' then some (c.toNat - 87)
  else if 'A' ≤ c ∧ c ≤ 'F' then some (c.toNat - 55)
  else none

/-- The value of an ASCII digit below `base`. -/
def digitValue? (base : Nat) (c : Char) : Option Nat :=
  (hexValue? c).filter (· < base)

def isDigit (c : Char) : Bool := '0' ≤ c && c ≤ '9'

/-- The number written by digits, the most significant first. -/
def ofDigits (base : Nat) (digits : List Nat) : Nat := digits.foldl (fun n d => base * n + d) 0

/-- The number written by the characters, if there is at least one and all are digits. -/
def readNat? (base : Nat) (cs : List Char) : Option Nat :=
  if cs.isEmpty then none else (cs.mapM (digitValue? base)).map (ofDigits base)

/-- The value of decimal digits; other characters count as zero. -/
def decimalValue (cs : List Char) : Nat :=
  ofDigits 10 (cs.map fun c => (digitValue? 10 c).getD 0)

def decimal (n : Nat) : List Char := Nat.toDigits 10 n

def padZeros (width : Nat) (cs : List Char) : List Char :=
  List.replicate (width - cs.length) '0' ++ cs

def hex (n : Nat) : List Char := Nat.toDigits 16 n

/-- An integer in decimal, with a sign only when it is negative. -/
def decimalInt (i : Int) : List Char :=
  if i < 0 then '-' :: decimal i.natAbs else decimal i.natAbs

end DocStore.Text
