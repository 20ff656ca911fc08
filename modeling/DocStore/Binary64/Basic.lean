/-! # Double-precision numbers

A double is a sign and a rank: the position of its magnitude among all double magnitudes, counted
from zero. Neighbouring magnitudes have neighbouring ranks, the rank of infinity is the first one
past the finite range, and the ranks above it are the NaNs. Sign and rank together are the 64 bits
of the interchange format.

Every finite magnitude is a whole number of `2 ^ -1074`, the least positive double. `unitCount`
gives that number, so questions about values become questions about natural numbers. -/
set_option autoImplicit false

namespace DocStore

/-- A double: its sign bit and the position of its magnitude among the double magnitudes. -/
structure Binary64 where
  negative : Bool
  rank : Fin 9223372036854775808
deriving DecidableEq

namespace Binary64

/-! ## Layout -/

/-- The number of magnitudes between two neighbouring powers of two. -/
def binade : Nat := 4503599627370496

/-- The rank of infinity: 2047 binades lie below it. -/
def infinityRank : Nat := 2047 * binade

def ofRank (negative : Bool) (rank : Nat) : Binary64 :=
  ⟨negative, Fin.ofNat 9223372036854775808 rank⟩

def zero : Binary64 := ofRank false 0
def infinity (negative : Bool) : Binary64 := ofRank negative infinityRank

/-- The NaN that arithmetic produces: positive, with only the leading fraction bit set. -/
def nan : Binary64 := ofRank false (infinityRank + binade / 2)

/-! ## Classes -/

def isNaN (x : Binary64) : Bool := infinityRank < x.rank.val
def isInfinite (x : Binary64) : Bool := x.rank.val == infinityRank

/-- A finite number is neither infinite nor a NaN. -/
def IsFinite (x : Binary64) : Prop := x.rank.val < infinityRank

instance (x : Binary64) : Decidable x.IsFinite := inferInstanceAs (Decidable (_ < _))

def isZero (x : Binary64) : Bool := x.rank.val == 0

/-! ## Values -/

/-- The magnitude of the given rank in units of `2 ^ -1074`. -/
def unitsOfRank (rank : Nat) : Nat :=
  if rank < binade then rank else (binade + rank % binade) * Nat.pow 2 (rank / binade - 1)

/-- The magnitude of a finite number in units of `2 ^ -1074`. -/
def unitCount (x : Binary64) : Nat := unitsOfRank x.rank.val

/-- The value of a finite number in units of `2 ^ -1074`. -/
def units (x : Binary64) : Int := if x.negative then -x.unitCount else x.unitCount

def one : Nat := Nat.pow 2 1074

/-! ## Comparison -/

/-- Numeric equality: a NaN equals nothing, and the two zeros are equal. -/
def equals (x y : Binary64) : Bool :=
  !x.isNaN && !y.isNaN && (x == y || (x.isZero && y.isZero))

end Binary64
end DocStore
