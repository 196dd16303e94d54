import VolumeCache.Json.Numeral
import VolumeCache.Json.Text

namespace VolumeCache
namespace Json

/-!
# Reading documents

A reader takes characters from the front of a document and gives back what it read and the rest.
It goes from left to right and stops at the first problem, so of two problems the earlier one is
told.  Blanks are skipped before every token and every mark, never after one.
-/

def isBlank (c : Char) : Bool :=
  c == ' ' || c == '\t' || c == '\n' || c == '\r'

def skipBlanks (chars : List Char) : List Char :=
  chars.dropWhile isBlank

/-! ## Tokens -/

/-- The remaining letters of a word that stands for a token. -/
def readWord (token : Token) : List Char → List Char → Except Fault (Token × List Char)
  | [], rest => .ok (token, rest)
  | _ :: _, [] => .error .endInValue
  | due :: later, c :: rest =>
      if c = due then readWord token later rest else .error .expectedWord

/-- The token at which a value begins, where no blank stands in front of it. -/
def readTokenHere : List Char → Except Fault (Token × List Char)
  | [] => .error .endInValue
  | 'n' :: rest => readWord .null ['u', 'l', 'l'] rest
  | 't' :: rest => readWord (.boolean true) ['r', 'u', 'e'] rest
  | 'f' :: rest => readWord (.boolean false) ['a', 'l', 's', 'e'] rest
  | '-' :: rest => readNumber true rest
  | '"' :: rest =>
      match readText rest with
      | .error fault => .error fault
      | .ok (text, left) => .ok (.text text, left)
  | '[' :: rest => .ok (.sequence, rest)
  | '\x7b' :: rest => .ok (.map, rest)
  | c :: rest => if c.isDigit then readNumber false (c :: rest) else .error .expectedValue

/-- The token at which a value begins. -/
def readToken (chars : List Char) : Except Fault (Token × List Char) :=
  readTokenHere (skipBlanks chars)

/-! ## Values of a given type -/

def Token.asWord32 : Token → Except Fault UInt32
  | .integer value =>
      if 0 ≤ value ∧ value < 0x100000000 then .ok value.toNat.toUInt32
      else .error (.wrongValue value "u32")
  | token => .error (.wrongType token "u32")

def Token.asInt64 : Token → Except Fault Int64
  | .integer value =>
      if -0x8000000000000000 ≤ value ∧ value < 0x8000000000000000 then .ok value.toInt64
      else .error (.wrongValue value "i64")
  | token => .error (.wrongType token "i64")

def Token.asText : Token → Except Fault String
  | .text value => .ok value
  | token => .error (.wrongType token "a string")

/-- A value that is told by its token alone. -/
def readAs {α : Type} (convert : Token → Except Fault α) (chars : List Char) :
    Except Fault (α × List Char) :=
  match readToken chars with
  | .error fault => .error fault
  | .ok (token, rest) =>
      match convert token with
      | .error fault => .error fault
      | .ok value => .ok (value, rest)

/-- Nothing but blanks is left. -/
def readEnd (chars : List Char) : Except Fault Unit :=
  if skipBlanks chars = [] then .ok () else .error .trailingCharacters

/-- A whole document that holds one 32-bit word. -/
def word32OfText (text : String) : Except Fault UInt32 :=
  match readAs Token.asWord32 text.toList with
  | .error fault => .error fault
  | .ok (value, rest) =>
      match readEnd rest with
      | .error fault => .error fault
      | .ok () => .ok value

/-! ## Objects -/

/-- The name of a member, its opening quote being read already. -/
def readName (chars : List Char) : Except Fault (Option String × List Char) :=
  match readText chars with
  | .error fault => .error fault
  | .ok (name, rest) => .ok (some name, rest)

/-- The name of the next member, or none at the closing brace.  Before the first member no comma
stands, before every other one a comma does. -/
def readMemberName (isFirst : Bool) (chars : List Char) :
    Except Fault (Option String × List Char) :=
  match skipBlanks chars with
  | [] => .error .endInObject
  | '\x7d' :: rest => .ok (none, rest)
  | c :: rest =>
      if isFirst then
        if c = '"' then readName rest else .error .keyMustBeText
      else if c = ',' then
        match skipBlanks rest with
        | [] => .error .endInValue
        | '"' :: left => readName left
        | '\x7d' :: _ => .error .trailingComma
        | _ => .error .keyMustBeText
      else .error .expectedObjectSeparator

def readColon (chars : List Char) : Except Fault (List Char) :=
  match skipBlanks chars with
  | [] => .error .endInObject
  | ':' :: rest => .ok rest
  | _ => .error .expectedColon

/-- The members of an object up to its closing brace, the opening one being read already.  What a
name and its value add to the state is told by `member`, which reads the colon itself.  Every
member takes at least one character, so as many rounds as there are characters suffice. -/
def readMembers {σ : Type}
    (member : σ → String → List Char → Except Fault (σ × List Char)) :
    Nat → Bool → σ → List Char → Except Fault (σ × List Char)
  | 0, _, _, _ => .error .endInObject
  | rounds + 1, isFirst, state, chars =>
      match readMemberName isFirst chars with
      | .error fault => .error fault
      | .ok (none, rest) => .ok (state, rest)
      | .ok (some name, rest) =>
          match member state name rest with
          | .error fault => .error fault
          | .ok (next, left) => readMembers member rounds false next left

/-! ## Lists -/

/-- Another element follows, and the rest begins at it; or the list ends here, and the rest begins
behind its closing bracket. -/
def readElementStart (isFirst : Bool) (chars : List Char) : Except Fault (Bool × List Char) :=
  match skipBlanks chars with
  | [] => .error .endInList
  | ']' :: rest => .ok (false, rest)
  | c :: rest =>
      if isFirst then .ok (true, c :: rest)
      else if c = ',' then
        match skipBlanks rest with
        | [] => .error .endInValue
        | ']' :: _ => .error .trailingComma
        | more => .ok (true, more)
      else .error .expectedListSeparator

/-- The closing bracket of a list that may have no more elements. -/
def readListEnd (chars : List Char) : Except Fault (List Char) :=
  match skipBlanks chars with
  | [] => .error .endInList
  | ']' :: rest => .ok rest
  | ',' :: rest =>
      match skipBlanks rest with
      | ']' :: _ => .error .trailingComma
      | _ => .error .trailingCharacters
  | _ => .error .trailingCharacters

end Json
end VolumeCache
