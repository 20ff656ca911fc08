import DocStore.Binary64.Arithmetic

/-! # Durations

A duration is a signed number of nanoseconds within the range that 64-bit milliseconds allow.
Stored documents hold it as a double number of seconds. -/
set_option autoImplicit false

namespace DocStore

structure Duration where
  nanos : Int
  inRange : -9223372036854775807000000 ≤ nanos ∧ nanos ≤ 9223372036854775807000000
deriving DecidableEq

namespace Duration

def ofNanos? (nanos : Int) : Option Duration :=
  if h : -9223372036854775807000000 ≤ nanos ∧ nanos ≤ 9223372036854775807000000 then
    some ⟨nanos, h⟩
  else none

def greatest : Duration := ⟨9223372036854775807000000, by decide⟩
def least : Duration := ⟨-9223372036854775807000000, by decide⟩

def clamp (nanos : Int) : Duration :=
  (ofNanos? nanos).getD (if nanos < 0 then least else greatest)

def ofMicros (micros : Int) : Duration := clamp (micros * 1000)

/-- Whole seconds, rounded toward zero. -/
def wholeSeconds (d : Duration) : Int := d.nanos.tdiv 1000000000

/-- The nanoseconds beyond the whole seconds, with the sign of the duration. -/
def restNanos (d : Duration) : Int := d.nanos.tmod 1000000000

def totalSeconds (d : Duration) : Binary64 :=
  (Binary64.ofInt d.wholeSeconds).add
    ((Binary64.ofInt d.restNanos).div (Binary64.ofInt 1000000000))

end Duration

/-- Seconds as a whole number of microseconds, the nearest one, clamped to 64 bits. -/
def Binary64.secondsToMicros (seconds : Binary64) : Int :=
  (seconds.mul (.ofInt 1000000)).roundToInt64

end DocStore
