import VolumeCache.Json.Text

namespace VolumeCache
namespace Json

/-!
# Writing documents

Numbers, lists and objects as they are written.  The compact form has no blanks at all; the spread
form of an object has one member a line, two blanks in front of it and one behind its colon.
-/

def natural (value : Nat) : List Char :=
  Nat.toDigits 10 value

def integer (value : Int) : List Char :=
  if value < 0 then '-' :: natural value.natAbs else natural value.natAbs

def list (values : List (List Char)) : List Char :=
  '[' :: (List.intercalate [','] values ++ [']'])

/-- A member of a compact object. -/
def member (name : String) (value : List Char) : List Char :=
  encode name ++ ':' :: value

def object (members : List (List Char)) : List Char :=
  '\x7b' :: (List.intercalate [','] members ++ ['\x7d'])

/-- A member of a spread object, on a line of its own. -/
def spreadMember (name : String) (value : List Char) : List Char :=
  '\n' :: ' ' :: ' ' :: (encode name ++ ':' :: ' ' :: value)

/-- Members on lines of their own between braces; an object without members stays on one line. -/
def spreadObject (members : List (List Char)) : List Char :=
  if members = [] then ['\x7b', '\x7d']
  else '\x7b' :: (List.intercalate [','] members ++ ['\n', '\x7d'])

end Json
end VolumeCache
