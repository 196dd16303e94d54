import VolumeCache.Json.Token

namespace VolumeCache
namespace Json

/-!
# What can be wrong with a document

A reader of JSON text stops at the first problem it meets.  The problems are kept as causes; each
has one wording and belongs to one of three categories: the text broke off, the text is not JSON,
or the text is JSON of the wrong content.
-/

/-- What can go wrong while a document is read. -/
inductive Fault where
  | endInList
  | endInObject
  | endInString
  | endInValue
  | expectedColon
  | expectedListSeparator
  | expectedObjectSeparator
  | expectedWord
  | expectedValue
  | invalidEscape
  | invalidNumber
  | numberOutOfRange
  | controlCharacter
  | keyMustBeText
  | loneSurrogate
  | unfinishedSurrogate
  | trailingComma
  | trailingCharacters
  | wrongType (found : Token) (expected : String)
  | wrongValue (value : Int) (expected : String)
  | wrongLength (length : Nat) (expected : String)
  | unknownField (name : String) (known : List String)
  | duplicateField (name : String)
  | missingField (name : String)
deriving DecidableEq, Repr

/-- The three kinds of problem. -/
inductive Category where
  | syntactic
  | cutShort
  | content
deriving DecidableEq, Repr

namespace Fault

def ticked (name : String) : String :=
  "`" ++ name ++ "`"

def message : Fault → String
  | .endInList => "EOF while parsing a list"
  | .endInObject => "EOF while parsing an object"
  | .endInString => "EOF while parsing a string"
  | .endInValue => "EOF while parsing a value"
  | .expectedColon => "expected `:`"
  | .expectedListSeparator => "expected `,` or `]`"
  | .expectedObjectSeparator => "expected `,` or `\x7d`"
  | .expectedWord => "expected ident"
  | .expectedValue => "expected value"
  | .invalidEscape => "invalid escape"
  | .invalidNumber => "invalid number"
  | .numberOutOfRange => "number out of range"
  | .controlCharacter => "control character (\\u0000-\\u001F) found while parsing a string"
  | .keyMustBeText => "key must be a string"
  | .loneSurrogate => "lone leading surrogate in hex escape"
  | .unfinishedSurrogate => "unexpected end of hex escape"
  | .trailingComma => "trailing comma"
  | .trailingCharacters => "trailing characters"
  | .wrongType found expected => "invalid type: " ++ found.description ++ ", expected " ++ expected
  | .wrongValue value expected =>
      "invalid value: " ++ (Token.integer value).description ++ ", expected " ++ expected
  | .wrongLength length expected =>
      "invalid length " ++ toString length ++ ", expected " ++ expected
  | .unknownField name known =>
      "unknown field " ++ ticked name ++ ", expected one of "
        ++ String.intercalate ", " (known.map ticked)
  | .duplicateField name => "duplicate field " ++ ticked name
  | .missingField name => "missing field " ++ ticked name

def category : Fault → Category
  | .endInList | .endInObject | .endInString | .endInValue => .cutShort
  | .wrongType .. | .wrongValue .. | .wrongLength .. | .unknownField .. | .duplicateField ..
  | .missingField .. => .content
  | _ => .syntactic

end Fault

end Json
end VolumeCache
