import VolumeCache.Decimal.Binary

namespace VolumeCache
namespace Decimal

/-!
# Decimals of a fixed number of places

The exact value of a float is rounded to a given number of decimal places; a value half-way
between two neighbours goes to the even one.
-/

/-- A natural number of units of the last place, written with that many places. -/
def withPlaces (units places : Nat) : String :=
  let digits := Nat.toDigits 10 units
  let padded := List.replicate (places + 1 - digits.length) '0' ++ digits
  let whole := padded.take (padded.length - places)
  if places = 0 then String.ofList whole
  else String.ofList (whole ++ '.' :: padded.drop (padded.length - places))

def fixed (value : Float) (places : Nat) : String :=
  match Binary.ofBits? value.toBits with
  | some binary =>
      let exact := Quotient.ofBinary binary.significand binary.exponent
      let units := (exact.shiftDown (-(places : Int))).round
      (if binary.negative then "-" else "") ++ withPlaces units places
  | none => if value != value then "NaN" else if value < 0 then "-inf" else "inf"

end Decimal
end VolumeCache
