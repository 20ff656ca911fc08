import DocStore.Text.Split
import DocStore.Time.Timestamp
import DocStore.Toml.Basic

/-! # Numbers, booleans, dates and times in settings files

Each of them is a word of letters, digits and marks, and is recognised as a whole. Integers must
fit into 64 bits with sign. -/
set_option autoImplicit false

namespace DocStore.Toml

def isWordPart (c : Char) : Bool := c.isAlphanum || c ∈ ['+', '-', '_', '.', ':']

/-! ## Numbers -/

/-- Digits of a base with single underscores between them, without the underscores. -/
def digits? (base : Nat) (cs : List Char) : Option (List Char) :=
  let groups := splitBy (· == '_') cs
  if groups.all fun g => !g.isEmpty && g.all fun c => (Text.digitValue? base c).isSome then
    some groups.flatten
  else none

/-- Whether decimal digits have no needless zero in front. -/
def isPlainWhole (digits : List Char) : Bool := digits == ['0'] || digits.head? != some '0'

/-- Splits off a sign: whether the number is negative, and the rest. -/
def splitSign : List Char → Bool × List Char
  | '-' :: rest => (true, rest)
  | '+' :: rest => (false, rest)
  | cs => (false, cs)

def fits64 (i : Int) : Bool := -9223372036854775808 ≤ i && i < 9223372036854775808

def readDecimal? (cs : List Char) : Option Int := do
  let (negative, rest) := splitSign cs
  let digits ← digits? 10 rest
  guard (isPlainWhole digits)
  let n : Int := Text.decimalValue digits
  pure (if negative then -n else n)

/-- An integer in a base other than ten, after its mark. -/
def readBased? (base : Nat) (cs : List Char) : Option Int := do
  let digits ← digits? base cs
  let n ← Text.readNat? base digits
  pure (n : Int)

def readInteger? (cs : List Char) : Option Int :=
  (match cs with
    | '0' :: 'x' :: rest => readBased? 16 rest
    | '0' :: 'o' :: rest => readBased? 8 rest
    | '0' :: 'b' :: rest => readBased? 2 rest
    | _ => readDecimal? cs).filter fits64

/-- Splits a list at the first element that is a mark: what stands before it, and what follows it if
there is one. -/
def splitAtFirst (isMark : Char → Bool) (cs : List Char) : List Char × Option (List Char) :=
  (cs.takeWhile fun c => !isMark c, ((cs.dropWhile fun c => !isMark c).head?).map fun _ =>
    (cs.dropWhile fun c => !isMark c).drop 1)

/-- Whether a word is a float: a whole part and a fraction, an exponent or both. -/
def isFloat (cs : List Char) : Bool :=
  let rest := (splitSign cs).2
  if rest == "inf".toList || rest == "nan".toList then true
  else
    let (mantissa, exponent?) := splitAtFirst (fun c => c == 'e' || c == 'E') rest
    let (whole, fraction?) := splitAtFirst (· == '.') mantissa
    ((digits? 10 whole).any isPlainWhole) &&
      (fraction?.all fun f => (digits? 10 f).isSome) &&
      (exponent?.all fun e => (digits? 10 (splitSign e).2).isSome) &&
      (fraction?.isSome || exponent?.isSome)

/-! ## Dates and times -/

def skipTime? (cs : List Char) : Option (List Char) := do
  let (hour, rest) ← Timestamp.readExactly? 2 cs
  let rest ← Date.readMark? ':' rest
  let (minute, rest) ← Timestamp.readExactly? 2 rest
  let rest ← Date.readMark? ':' rest
  let (second, rest) ← Timestamp.readExactly? 2 rest
  let (_, rest) ← Timestamp.readFraction? rest
  guard (hour < 24 ∧ minute < 60 ∧ second ≤ 60)
  pure rest

def skipDate? (cs : List Char) : Option (List Char) := do
  let (year, rest) ← Timestamp.readExactly? 4 cs
  let rest ← Date.readMark? '-' rest
  let (month, rest) ← Timestamp.readExactly? 2 rest
  let rest ← Date.readMark? '-' rest
  let (day, rest) ← Timestamp.readExactly? 2 rest
  guard (1 ≤ month ∧ month ≤ 12 ∧ 1 ≤ day ∧ day ≤ Calendar.daysInMonth year month)
  pure rest

def isTimeAndOffset (cs : List Char) : Bool :=
  match skipTime? cs with
  | none => false
  | some [] => true
  | some (c :: rest) => c != '\u2212' && (Timestamp.readOffset? (c :: rest)).any fun r => r.2.isEmpty

/-- Whether a text is a time of day, a date, or both with perhaps an offset from UTC. -/
def isDateOrTime (cs : List Char) : Bool :=
  match skipDate? cs with
  | none => skipTime? cs == some []
  | some [] => true
  | some (c :: rest) => c ∈ ['T', 't', ' '] && isTimeAndOffset rest

/-! ## Words -/

def ofWord? (cs : List Char) : Option Toml :=
  match readInteger? cs with
  | some i => some (.integer i)
  | none =>
    if cs == "true".toList || cs == "false".toList || isFloat cs || isDateOrTime cs then some .other
    else none

/-- Whether a time of day follows a date after a space. -/
def goesOn (word after : List Char) : Bool :=
  skipDate? word == some [] &&
    (match after with
      | ' ' :: c :: _ => Text.isDigit c
      | _ => false)

/-- Reads the word at the start of a text as a value. A date and a time of day may have a space
between them. -/
def readWord? (cs : List Char) : Option (Toml × List Char) := do
  let word := cs.takeWhile isWordPart
  let after := cs.dropWhile isWordPart
  if goesOn word after then
    let time := (after.drop 1).takeWhile isWordPart
    let value ← ofWord? (word ++ ' ' :: time)
    pure (value, (after.drop 1).dropWhile isWordPart)
  else
    let value ← ofWord? word
    pure (value, after)

end DocStore.Toml
