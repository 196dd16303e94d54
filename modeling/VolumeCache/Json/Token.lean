import VolumeCache.Decimal.Shortest
import VolumeCache.Text.Quoted

namespace VolumeCache
namespace Json

/-!
# Tokens

A reader looks at a value through the token it begins with: the whole of a word, a number or a
text, and of a list or an object the opening bracket alone.  A message that complains about a value
names it by its token.
-/

/-- The beginning of a value.  Integers are kept exactly where a 64-bit word, with or without a
sign, holds them; every other number is a float. -/
inductive Token where
  | null
  | boolean (value : Bool)
  | integer (value : Int)
  | float (bits : UInt64)
  | text (value : String)
  | sequence
  | map
deriving DecidableEq, Repr

namespace Token

/-- Numbers with a fraction keep a point; the exponent is written from ten to the sixteenth
on and below ten to the minus fifth. -/
def floatForm : Decimal.FloatForm where
  lowestPositional := -5
  highestPositional := 15

def description : Token → String
  | .null => "null"
  | .boolean value => "boolean `" ++ (if value then "true" else "false") ++ "`"
  | .integer value => "integer `" ++ toString value ++ "`"
  | .float bits => "floating point `" ++ floatForm.text bits ++ "`"
  | .text value => "string " ++ Text.quoted value
  | .sequence => "sequence"
  | .map => "map"

end Token

end Json
end VolumeCache
