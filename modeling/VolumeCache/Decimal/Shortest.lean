import VolumeCache.Decimal.Binary

namespace VolumeCache
namespace Decimal

/-!
# Shortest decimals

The decimal with the fewest digits that reads back as a given float, and of those the one nearest
to it.  The numbers that round to a float form an interval around it; its ends belong to it when
the significand is even.  If any decimal of `n` digits lies in the interval, one of the two
neighbours of the float on the grid of `n` digits does, so testing those two is enough.
-/

/-- The numbers that round to one float, with the float itself. -/
structure RoundingInterval where
  low : Quotient
  value : Quotient
  high : Quotient
  closed : Bool

namespace RoundingInterval

/-- In units of a quarter of the gap above, the interval reaches two up and two or one down. -/
def ofBinary (binary : Binary) : RoundingInterval :=
  let quarters := 4 * binary.significand
  let exponent := binary.exponent - 2
  { low := Quotient.ofBinary (quarters - if binary.narrowBelow then 1 else 2) exponent
    value := Quotient.ofBinary quarters exponent
    high := Quotient.ofBinary (quarters + 2) exponent
    closed := binary.significand % 2 == 0 }

/-- The decimal `digits` times ten to the `power` rounds to the float. -/
def holds (interval : RoundingInterval) (digits : Nat) (power : Int) : Bool :=
  let decimal : Quotient := ⟨digits, 1⟩
  let low := interval.low.shiftDown power
  let high := interval.high.shiftDown power
  if interval.closed then !decimal.less low && !high.less decimal
  else low.less decimal && decimal.less high

end RoundingInterval

/-- The power of ten of the leading digit of a positive quotient below one, counted down from
`power`. -/
def leadingPowerBelow (value : Quotient) : Nat → Int → Int
  | 0, power => power
  | steps + 1, power =>
      if (value.shiftDown power).floor = 0 then leadingPowerBelow value steps (power - 1)
      else power

def leadingPower (value : Quotient) : Int :=
  let whole := value.floor
  if whole = 0 then leadingPowerBelow value 400 (-1)
  else ((Nat.toDigits 10 whole).length : Int) - 1

/-- The first grid, from `count` digits on, on which a neighbour of the value reads back: the
digits chosen there and the power of ten of their last one. -/
def shortestFrom (interval : RoundingInterval) (leading : Int) : Nat → Nat → Nat × Int
  | 0, count =>
      let power := leading - (count : Int) + 1
      ((interval.value.shiftDown power).round, power)
  | steps + 1, count =>
      let power := leading - (count : Int) + 1
      let scaled := interval.value.shiftDown power
      let below := scaled.floor
      let hitBelow := interval.holds below power
      let hitAbove := interval.holds (below + 1) power
      if hitBelow && hitAbove then (scaled.round, power)
      else if hitBelow then (below, power)
      else if hitAbove then (below + 1, power)
      else shortestFrom interval leading steps (count + 1)

/-- Digits without trailing zeros; the power of ten grows with every zero taken away. -/
def stripZeros : Nat → Nat → Int → Nat × Int
  | 0, digits, power => (digits, power)
  | steps + 1, digits, power =>
      if digits ≠ 0 ∧ digits % 10 = 0 then stripZeros steps (digits / 10) (power + 1)
      else (digits, power)

/-- The shortest decimal of a positive float: its digits and the power of ten of the last one. -/
def shortest (binary : Binary) : Nat × Int :=
  let interval := RoundingInterval.ofBinary binary
  let chosen := shortestFrom interval (leadingPower interval.value) 16 1
  stripZeros 20 chosen.1 chosen.2

/-- Which leading powers are written without an exponent. -/
structure FloatForm where
  lowestPositional : Int
  highestPositional : Int

/-- An exponent: its sign, which is always written, and its digits without padding. -/
def exponentText (power : Int) : List Char :=
  (if power < 0 then '-' else '+') :: Nat.toDigits 10 power.natAbs

namespace FloatForm

/-- The text of a positive decimal.  A positional text always has a point and a digit after it;
a text with an exponent has a point only if it has more than one digit. -/
def decimalText (form : FloatForm) (digits : Nat) (power : Int) : List Char :=
  let figures := Nat.toDigits 10 digits
  let leading := power + (figures.length : Int) - 1
  if form.lowestPositional ≤ leading ∧ leading ≤ form.highestPositional then
    if 0 ≤ power then figures ++ List.replicate power.toNat '0' ++ ['.', '0']
    else if 0 ≤ leading then
      figures.take (leading.toNat + 1) ++ '.' :: figures.drop (leading.toNat + 1)
    else '0' :: '.' :: (List.replicate ((-leading).toNat - 1) '0' ++ figures)
  else
    let mantissa :=
      match figures with
      | first :: second :: rest => first :: '.' :: second :: rest
      | short => short
    mantissa ++ 'e' :: exponentText leading

/-- The text of a float given by its bits. -/
def text (form : FloatForm) (bits : UInt64) : String :=
  match Binary.ofBits? bits with
  | none => "null"
  | some binary =>
      let sign := if binary.negative then ['-'] else []
      if binary.significand = 0 then String.ofList (sign ++ ['0', '.', '0'])
      else
        let chosen := shortest binary
        String.ofList (sign ++ form.decimalText chosen.1 chosen.2)

end FloatForm

end Decimal
end VolumeCache
