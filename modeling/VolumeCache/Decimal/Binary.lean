namespace VolumeCache
namespace Decimal

/-!
# Exact binary values

A finite 64-bit float is a sign and a whole number times a power of two.  Here it is taken apart
from its bits, and the value is carried further as an exact quotient of natural numbers, so that
everything said about its decimal forms is said in whole numbers.
-/

/-- A finite float as sign, significand and power of two, with the information whether the gap
below it is half the gap above it. -/
structure Binary where
  negative : Bool
  significand : Nat
  exponent : Int
  narrowBelow : Bool

namespace Binary

/-- The value of 64 float bits, unless they stand for an infinity or for no number. -/
def ofBits? (bits : UInt64) : Option Binary :=
  let negative := bits >>> 63 == 1
  let stored := ((bits >>> 52) &&& 0x7ff).toNat
  let fraction := (bits &&& 0xfffffffffffff).toNat
  if stored = 0x7ff then none
  else if stored = 0 then some ⟨negative, fraction, -1074, false⟩
  else
    some ⟨negative, 0x10000000000000 + fraction, (stored : Int) - 1075,
      fraction == 0 && stored > 1⟩

end Binary

structure Quotient where
  numerator : Nat
  denominator : Nat

namespace Quotient

/-- A whole number times a power of two. -/
def ofBinary (significand : Nat) (exponent : Int) : Quotient :=
  if 0 ≤ exponent then ⟨significand * Nat.pow 2 exponent.toNat, 1⟩
  else ⟨significand, Nat.pow 2 (-exponent).toNat⟩

def shiftDown (value : Quotient) (power : Int) : Quotient :=
  if 0 ≤ power then ⟨value.numerator, value.denominator * Nat.pow 10 power.toNat⟩
  else ⟨value.numerator * Nat.pow 10 (-power).toNat, value.denominator⟩

def floor (value : Quotient) : Nat :=
  value.numerator / value.denominator

/-- The nearest whole number; a value half-way between two goes to the even one. -/
def round (value : Quotient) : Nat :=
  let below := value.numerator / value.denominator
  let twice := 2 * (value.numerator % value.denominator)
  if twice < value.denominator then below
  else if value.denominator < twice then below + 1
  else if below % 2 = 0 then below
  else below + 1

def less (first second : Quotient) : Bool :=
  first.numerator * second.denominator < second.numerator * first.denominator

end Quotient

end Decimal
end VolumeCache
