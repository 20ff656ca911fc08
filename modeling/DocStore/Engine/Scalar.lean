import DocStore.Binary64.Extended
import DocStore.Error
import DocStore.Json.Basic

/-! # Values of the storage engine

The engine computes with null, integers of 64 bits, doubles and texts. Numbers compare by their
exact value whatever their kind; every number comes before every text; a comparison with null has
no answer. A text counts in arithmetic by the number that it begins with.

A literal that is no integer of 64 bits is read in extended precision: of its digits as many count
as fit into 64 bits, and these are scaled by powers of ten. So the double that comes out may be a
neighbour of the one nearest to the literal. -/
set_option autoImplicit false

namespace DocStore.Engine

inductive Quantity where
  | integer (i : Int64)
  | real (x : Binary64)
deriving DecidableEq

inductive Scalar where
  | null
  | number (q : Quantity)
  | text (s : String)
deriving DecidableEq

/-! ## Numbers -/

def int64? (i : Int) : Option Int64 :=
  if -9223372036854775808 ≤ i ∧ i < 9223372036854775808 then some (Int64.ofInt i) else none

namespace Quantity

def zero : Quantity := integer 0

def ofBool (b : Bool) : Quantity := integer (if b then 1 else 0)

/-- The integer, or the nearest double if it does not have 64 bits. -/
def ofInt (i : Int) : Quantity :=
  match int64? i with
  | some n => integer n
  | none => real (.ofInt i)

def ofNumber : Number → Quantity
  | .int i _ => ofInt i
  | .float x _ => real x

def toBinary64 : Quantity → Binary64
  | integer i => .ofInt i.toInt
  | real x => x

/-- The exact value in units of `2 ^ -1074`; infinity counts as `2 ^ 1024`, beyond every finite
number. -/
def units : Quantity → Int
  | integer i => i.toInt * Binary64.one
  | real x => x.units

/-- The sum: exact if it and both numbers are integers, else rounded. -/
def add : Quantity → Quantity → Quantity
  | integer i, integer j => ofInt (i.toInt + j.toInt)
  | p, q => real (p.toBinary64.add q.toBinary64)

/-! ## Reading literals -/

/-- A significand below this bound takes one more digit. -/
def roomForDigit : Nat := 1844674407370955160

/-- A significand below this bound can be multiplied by ten. -/
def roomForTen : Nat := 1844674407370955161

def appendDigit (n : Nat) (c : Char) : Nat := n * 10 + Text.decimalValue [c]

/-- A digit before the point. One that does not count raises the exponent. -/
def takeWhole (d : Decimal) (c : Char) : Decimal :=
  if d.digits < roomForDigit then ⟨appendDigit d.digits c, d.exponent⟩
  else ⟨d.digits, d.exponent + 1⟩

/-- A digit after the point. -/
def takeFraction (d : Decimal) (c : Char) : Decimal :=
  if d.digits < roomForDigit then ⟨appendDigit d.digits c, d.exponent - 1⟩ else d

/-- The value of an exponent as it is written; from six digits on it counts as ten thousand. -/
def cappedExponent (e : Int) : Int :=
  if e.natAbs < 100000 then e else if e < 0 then -10000 else 10000

def multiplied (d : Decimal) : Decimal :=
  if 0 < d.exponent ∧ d.digits < roomForTen then ⟨d.digits * 10, d.exponent - 1⟩ else d

def divided (d : Decimal) : Decimal :=
  if d.exponent < 0 ∧ d.digits % 10 = 0 then ⟨d.digits / 10, d.exponent + 1⟩ else d

/-- The digits of a literal that count, with the exponent brought as near to zero as they allow. No
significand has more than twenty digits. -/
def significant (l : NumberLiteral) : Decimal :=
  let whole := l.whole.foldl takeWhole ⟨0, cappedExponent (l.exponent.getD 0)⟩
  let all := (l.fraction.getD []).foldl takeFraction whole
  Nat.repeat divided 20 (Nat.repeat multiplied 20 all)

def readReal (l : NumberLiteral) : Binary64 :=
  let d := significant l
  if d.digits = 0 then .ofRank l.negative 0
  else ((Extended.mk d.digits 0).scale d.exponent).toBinary64 l.negative

def ofLiteral (l : NumberLiteral) : Quantity :=
  if l.isInteger then
    match int64? l.toInt with
    | some i => integer i
    | none => real (readReal l)
  else real (readReal l)

/-! ## Writing literals -/

/-- A decimal in scientific notation with a fraction and at least two digits of exponent. -/
def scientificChars (digits : List Char) (leading : Int) : List Char :=
  let fraction := if digits.length = 1 then ['0'] else digits.drop 1
  digits.take 1 ++ '.' :: fraction ++ 'e' :: (if leading < 0 then '-' else '+') ::
    Text.padZeros 2 (Text.decimal leading.natAbs)

/-- A finite double with fifteen significant digits: positional from `1e-4` up to below `1e15`,
scientific outside that range, and always with a fraction. -/
def realChars (x : Binary64) : List Char :=
  if x.isZero then ['0', '.', '0']
  else
    let d := x.fifteenDigits
    let lead := d.leadingExponent
    let digits := Text.decimal d.digits
    let magnitude :=
      if -4 ≤ lead ∧ lead ≤ 14 then Binary64.positional digits d.exponent
      else scientificChars digits lead
    if x.negative then '-' :: magnitude else magnitude

/-- The literal that the engine writes into a document. Infinity is written as a literal too large
to be read. -/
def literal : Quantity → String
  | integer i => String.ofList (Text.decimalInt i.toInt)
  | real x =>
    if x.isInfinite then (if x.negative then "-9e999" else "9e999")
    else String.ofList (realChars x)

/-! ## Numbers at the start of texts -/

def isSpace (c : Char) : Bool := c == ' ' || (9 ≤ c.toNat && c.toNat ≤ 13)

def leadingExponent? : List Char → Option Int
  | [] => none
  | c :: rest =>
    let value (negative : Bool) (cs : List Char) : Option Int :=
      let digits := cs.takeWhile Text.isDigit
      let n : Int := Text.decimalValue digits
      if digits.isEmpty then none else some (if negative then -n else n)
    if c = 'e' ∨ c = 'E' then
      match rest with
      | '-' :: digits => value true digits
      | '+' :: digits => value false digits
      | digits => value false digits
    else none

/-- The number that digits at the start of a text stand for, given the sign before them. -/
def leadingMagnitude (negative : Bool) (cs : List Char) : Quantity :=
  let (whole, rest) := NumberLiteral.spanDigits cs
  let fraction? : Option (List Char) := match rest with
    | '.' :: rest => some (rest.takeWhile Text.isDigit)
    | _ => none
  let places := fraction?.getD []
  if whole.isEmpty && places.isEmpty then zero
  else
    let after := match rest with
      | '.' :: rest => rest.dropWhile Text.isDigit
      | rest => rest
    ofLiteral { negative, whole, fraction := fraction?, exponent := leadingExponent? after }

/-- The number at the start of a text, zero if there is none. Blanks may stand before it. -/
def leading (s : String) : Quantity :=
  match s.toList.dropWhile isSpace with
  | '-' :: rest => leadingMagnitude true rest
  | '+' :: rest => leadingMagnitude false rest
  | cs => leadingMagnitude false cs

end Quantity

/-! ## Scalars -/

namespace Scalar

/-- A parameter as the engine takes it: arrays and objects are their texts. -/
def ofJson : Json → Scalar
  | .null => null
  | .bool b => number (.ofBool b)
  | .number n => number (.ofNumber n)
  | .string s => text s
  | j => text j.text

/-- A cell of an answer; a number that is not finite becomes null. -/
def toJson : Scalar → Json
  | null => .null
  | number (.integer i) => .number (.ofInt64 i)
  | number (.real x) => ((Number.ofBinary64? x).map Json.number).getD .null
  | text s => .string s

def isNull : Scalar → Bool
  | null => true
  | _ => false

def compareInts (a b : Int) : Ordering := if a < b then .lt else if a = b then .eq else .gt

def compareTexts (s t : String) : Ordering := if s < t then .lt else if s = t then .eq else .gt

/-- The order of all scalars: null, numbers, texts. -/
def compare : Scalar → Scalar → Ordering
  | null, null => .eq
  | null, _ => .lt
  | _, null => .gt
  | number p, number q => compareInts p.units q.units
  | number _, text _ => .lt
  | text _, number _ => .gt
  | text s, text t => compareTexts s t

/-- Whether two scalars collide in a unique index: null never does. -/
def collides (a b : Scalar) : Bool := !a.isNull && a.compare b == .eq

/-- The value of a scalar in arithmetic; null has none. -/
def quantity? : Scalar → Option Quantity
  | null => none
  | number q => some q
  | text s => some (.leading s)

/-- The sum of two scalars, null if one of them is or if it is not a number. -/
def add (a b : Scalar) : Scalar :=
  match a.quantity?, b.quantity? with
  | some p, some q =>
    let sum := p.add q
    if sum.toBinary64.isNaN then null else number sum
  | _, _ => null

end Scalar

/-! ## Cells -/

/-- A cell of an answer as the engine gives it; what it calls text need not be UTF-8. -/
inductive Cell where
  | null
  | integer (i : Int64)
  | real (x : Binary64)
  | text (bytes : List UInt8)
  | blob (bytes : List UInt8)

def Cell.toJson : Cell → Except Error Json
  | null => .ok .null
  | integer i => .ok (.number (.ofInt64 i))
  | real x => .ok (Scalar.number (.real x)).toJson
  | text bytes =>
    match Utf8.decode bytes with
    | .ok s => .ok (.string s)
    | .error e => .error (.invalidText "TEXT column" (.bytes e))
  | blob bytes => .error (.decode "INTEGER, REAL or TEXT column" (.blob bytes.length))

end DocStore.Engine
