import VolumeCache.Json.Fault
import VolumeCache.Memory

namespace VolumeCache
namespace Json

/-!
# Numbers in documents

A number without a point or an exponent is an integer where a 64-bit word holds it.  All other
numbers, and minus zero, become doubles: the leading digits are kept as long as they form a 64-bit
word, and the word is then scaled by a power of ten with one or more double operations.  The result
need not be the double nearest to the number that was written.
-/

/-- The value of a run of digits, and how many of them were taken: digits are taken onto the value
so far until the next one would leave the 64-bit words. -/
def takeDigits : Nat → List Char → Nat × Nat
  | value, [] => (value, 0)
  | value, digit :: later =>
      let longer := value * 10 + (digit.toNat - '0'.toNat)
      if longer ≤ largestWord.toNat then
        let (final, taken) := takeDigits longer later
        (final, taken + 1)
      else (value, 0)

def powerOfTen (exponent : Nat) : Float :=
  Float.ofScientific 1 false exponent

/-- A double divided by ten as often as asked, in steps of at most 308 places. -/
def shiftDown (value : Float) (places : Nat) : Float :=
  if places ≤ 308 then value / powerOfTen places
  else if value == 0 then value
  else shiftDown (value / powerOfTen 308) (places - 308)
termination_by places

/-- A double multiplied by ten as often as asked, unless the product is infinite. -/
def shiftUp (value : Float) (places : Nat) : Except Fault Float :=
  if places ≤ 308 then
    let product := value * powerOfTen places
    if product.isInf then .error .numberOutOfRange else .ok product
  else if value == 0 then .ok value
  else .error .numberOutOfRange

/-- The double for a word scaled by a power of ten. -/
def scaled (negative : Bool) (significand : Nat) (exponent : Int) : Except Fault Token :=
  let start := significand.toUInt64.toFloat
  let finish (value : Float) : Token := .float (if negative then -value else value).toBits
  if 0 ≤ exponent then (shiftUp start exponent.toNat).map finish
  else .ok (finish (shiftDown start (-exponent).toNat))

/-- The token of an integer that has been read to its end: minus zero and what lies below the
64-bit words with a sign are doubles. -/
def integerToken (negative : Bool) (value : Nat) : Token :=
  if negative then
    if value = 0 ∨ 0x8000000000000000 < value then .float (-value.toUInt64.toFloat).toBits
    else .integer (-value)
  else .integer value

/-- The exponent of a number, its letter being read already. -/
def readExponent (negative : Bool) (significand : Nat) (exponent : Int) (chars : List Char) :
    Except Fault (Token × List Char) :=
  let (lowers, digits) := match chars with
    | '-' :: rest => (true, rest)
    | '+' :: rest => (false, rest)
    | rest => (false, rest)
  match digits with
  | [] => .error .endInValue
  | first :: _ =>
      if first.isDigit then
        let amount : Nat := (digits.takeWhile Char.isDigit).foldl
          (fun value digit => value * 10 + (digit.toNat - '0'.toNat)) 0
        let final := if lowers then exponent - amount else exponent + amount
        (scaled negative significand final).map fun token =>
          (token, digits.dropWhile Char.isDigit)
      else .error .invalidNumber

/-- What may follow the digits of a number that is a double already. -/
def readScale (negative : Bool) (significand : Nat) (exponent : Int) :
    List Char → Except Fault (Token × List Char)
  | 'e' :: rest => readExponent negative significand exponent rest
  | 'E' :: rest => readExponent negative significand exponent rest
  | rest => (scaled negative significand exponent).map fun token => (token, rest)

/-- The places after the point of a number, the point being read already. -/
def readFraction (negative : Bool) (significand : Nat) (exponent : Int) :
    List Char → Except Fault (Token × List Char)
  | [] => .error .endInValue
  | first :: rest =>
      if first.isDigit then
        let digits := (first :: rest).takeWhile Char.isDigit
        let (longer, taken) := takeDigits significand digits
        readScale negative longer (exponent - taken) ((first :: rest).dropWhile Char.isDigit)
      else .error .invalidNumber

/-- What may follow the digits before the point; so many of them were left out of the word. -/
def readTail (negative : Bool) (significand dropped : Nat) :
    List Char → Except Fault (Token × List Char)
  | '.' :: rest => readFraction negative significand dropped rest
  | 'e' :: rest => readExponent negative significand dropped rest
  | 'E' :: rest => readExponent negative significand dropped rest
  | rest =>
      if dropped = 0 then .ok (integerToken negative significand, rest)
      else (scaled negative significand dropped).map fun token => (token, rest)

/-- A number, its sign being read already.  A zero at the front stands alone. -/
def readNumber (negative : Bool) (chars : List Char) : Except Fault (Token × List Char) :=
  match chars with
  | [] => .error .endInValue
  | first :: later =>
      let digits := chars.takeWhile Char.isDigit
      if digits = [] then .error .invalidNumber
      else if first = '0' then
        if (later.head?.map Char.isDigit).getD false then .error .invalidNumber
        else readTail negative 0 0 later
      else
        let (significand, taken) := takeDigits 0 digits
        readTail negative significand (digits.length - taken) (chars.dropWhile Char.isDigit)

end Json
end VolumeCache
