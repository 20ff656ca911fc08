import DocStore.Text.Blank
import DocStore.Text.Digits

/-! # Calendar dates

Dates of the proleptic Gregorian calendar, their text `year-month-day`, and their distance from
1 January 1970 in days. -/
set_option autoImplicit false

namespace DocStore

namespace Calendar

def isLeapYear (year : Int) : Bool := year % 4 == 0 && (year % 100 != 0 || year % 400 == 0)

def daysInMonth (year : Int) (month : Nat) : Nat :=
  if month = 2 then (if isLeapYear year then 29 else 28)
  else if month ∈ [4, 6, 9, 11] then 30
  else 31

def leastYear : Int := -262143
def greatestYear : Int := 262142

/-- The dates that exist and whose year is within the supported range. -/
def IsValid (year : Int) (month day : Nat) : Prop :=
  leastYear ≤ year ∧ year ≤ greatestYear ∧ 1 ≤ month ∧ month ≤ 12 ∧
    1 ≤ day ∧ day ≤ daysInMonth year month

instance (year : Int) (month day : Nat) : Decidable (IsValid year month day) :=
  inferInstanceAs (Decidable (_ ∧ _))

/-- Days from 1 January 1970. The year is counted from March, so that the leap day is its last. -/
def daysFromEpoch (year : Int) (month day : Nat) : Int :=
  let y : Int := if month ≤ 2 then year - 1 else year
  let monthFromMarch : Int := if month ≤ 2 then month + 9 else month - 3
  let dayOfYear := (153 * monthFromMarch + 2) / 5 + day - 1
  365 * y + y / 4 - y / 100 + y / 400 + dayOfYear - 719468

end Calendar

structure Date where
  year : Int
  month : Nat
  day : Nat
  valid : Calendar.IsValid year month day
deriving DecidableEq

namespace Date

def ofParts? (year : Int) (month day : Nat) : Option Date :=
  if h : Calendar.IsValid year month day then some ⟨year, month, day, h⟩ else none

/-! ## Writing -/

/-- Four digits for the years 0 to 9999; other years carry a sign and at least four digits. -/
def yearChars (year : Int) : List Char :=
  let digits := Text.padZeros 4 (Text.decimal year.natAbs)
  if year < 0 then '-' :: digits else if 9999 < year then '+' :: digits else digits

def chars (d : Date) : List Char :=
  yearChars d.year ++ '-' :: Text.padZeros 2 (Text.decimal d.month) ++
    '-' :: Text.padZeros 2 (Text.decimal d.day)

def text (d : Date) : String := String.ofList d.chars

/-! ## Reading -/

/-- At least one and at most `width` digits, and what follows. -/
def readDigits? (width : Nat) (cs : List Char) : Option (Nat × List Char) :=
  let digits := (cs.take width).takeWhile Text.isDigit
  if digits.isEmpty then none else some (Text.decimalValue digits, cs.drop digits.length)

/-- A year: one to four digits, or a sign and any number of digits. -/
def readYear? : List Char → Option (Int × List Char)
  | '-' :: rest => (readDigits? rest.length rest).map fun (n, rest) => (-(n : Int), rest)
  | '+' :: rest => (readDigits? rest.length rest).map fun (n, rest) => ((n : Int), rest)
  | cs => (readDigits? 4 cs).map fun (n, rest) => ((n : Int), rest)

def readMark? (mark : Char) : List Char → Option (List Char)
  | c :: rest => if c = mark then some rest else none
  | [] => none

/-- Reads a whole text as year, month and day with hyphens between; blanks may stand before each
number. -/
def read? (text : String) : Option Date := do
  let (year, rest) ← readYear? (Text.trimBlankStart text.toList)
  let rest ← readMark? '-' rest
  let (month, rest) ← readDigits? 2 (Text.trimBlankStart rest)
  let rest ← readMark? '-' rest
  let (day, rest) ← readDigits? 2 (Text.trimBlankStart rest)
  guard rest.isEmpty
  ofParts? year month day

end Date
end DocStore
