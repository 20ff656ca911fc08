import DocStore.Binary64.Arithmetic
import DocStore.Time.Date

/-! # Points in time

A timestamp counts seconds from the start of 1970 in UTC, and nanoseconds within the second; a leap
second is written as nanoseconds beyond a whole second. Stored documents hold a timestamp as a
double number of seconds with microsecond precision. -/
set_option autoImplicit false

namespace DocStore

structure Timestamp where
  seconds : Int
  nanos : Nat
  inRange : -8334601228800 ≤ seconds ∧ seconds ≤ 8210266876799 ∧ nanos < 2000000000
deriving DecidableEq

namespace Timestamp

def ofParts? (seconds : Int) (nanos : Nat) : Option Timestamp :=
  if h : -8334601228800 ≤ seconds ∧ seconds ≤ 8210266876799 ∧ nanos < 2000000000 then
    some ⟨seconds, nanos, h⟩
  else none

def ofMicros? (micros : Int) : Option Timestamp :=
  ofParts? (micros / 1000000) ((micros % 1000000).toNat * 1000)

/-- Seconds from the epoch as a double, with microsecond precision. -/
def epochSeconds (t : Timestamp) : Binary64 :=
  (Binary64.ofInt t.seconds).add
    ((Binary64.ofInt (t.nanos / 1000 : Nat)).div (Binary64.ofInt 1000000))

/-! ## Internet date and time text -/

/-- Exactly `width` digits, and what follows. -/
def readExactly? (width : Nat) (cs : List Char) : Option (Nat × List Char) :=
  let digits := cs.take width
  if digits.length = width ∧ digits.all Text.isDigit then
    some (Text.decimalValue digits, cs.drop width)
  else none

/-- The fraction of a second in nanoseconds; digits beyond the ninth are ignored. -/
def readFraction? : List Char → Option (Nat × List Char)
  | '.' :: rest =>
    let digits := rest.takeWhile Text.isDigit
    if digits.isEmpty then none
    else
      let kept := digits.take 9
      some (Text.decimalValue kept * Nat.pow 10 (9 - kept.length), rest.dropWhile Text.isDigit)
  | rest => some (0, rest)

/-- The offset from UTC in seconds: `Z`, or a sign, hours, a colon and minutes. -/
def readOffset? : List Char → Option (Int × List Char)
  | [] => none
  | c :: rest =>
    if c = 'Z' ∨ c = 'z' then some (0, rest)
    else do
      let sign : Int ←
        if c = '+' then some 1 else if c = '-' ∨ c = '\u2212' then some (-1) else none
      let (hours, rest) ← readExactly? 2 rest
      let rest ← Date.readMark? ':' rest
      let (minutes, rest) ← readExactly? 2 rest
      guard (hours < 24 ∧ minutes < 60)
      some (sign * (hours * 3600 + minutes * 60), rest)

/-- Reads a whole text as date, time of day and offset, such as `2023-01-01T12:00:00.5Z`. Second 60
is a leap second. -/
def read? (text : String) : Option Timestamp := do
  let (year, rest) ← readExactly? 4 text.toList
  let rest ← Date.readMark? '-' rest
  let (month, rest) ← readExactly? 2 rest
  let rest ← Date.readMark? '-' rest
  let (day, rest) ← readExactly? 2 rest
  let (separator, rest) ← match rest with
    | c :: rest => some (c, rest)
    | [] => none
  guard (separator ∈ ['T', 't', ' '])
  let (hour, rest) ← readExactly? 2 rest
  let rest ← Date.readMark? ':' rest
  let (minute, rest) ← readExactly? 2 rest
  let rest ← Date.readMark? ':' rest
  let (second, rest) ← readExactly? 2 rest
  let (fraction, rest) ← readFraction? rest
  let (offset, rest) ← readOffset? rest
  guard rest.isEmpty
  let date ← Date.ofParts? year month day
  guard (hour < 24 ∧ minute < 60 ∧ second ≤ 60)
  let days := Calendar.daysFromEpoch date.year date.month date.day
  let leap := second = 60
  let clock : Int := hour * 3600 + minute * 60 + (if leap then 59 else second)
  ofParts? (days * 86400 + clock - offset) (if leap then fraction + 1000000000 else fraction)

end Timestamp
end DocStore
