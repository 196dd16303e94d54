import VolumeCache.Text.Printable

namespace VolumeCache
namespace Text

/-!
# Quoted text

The form in which names and other texts appear inside descriptions and messages: between double
quotes, with the quote, the backslash and every character that has no picture of its own written
as an escape.  Nothing is assumed about the text; every character has exactly one written form.
-/

/-- The escape of a character by its code point, in lower-case hexadecimal without leading zeros. -/
def codePointEscape (c : Char) : List Char :=
  '\\' :: 'u' :: '{' :: (Nat.toDigits 16 c.toNat ++ ['}'])

/-- How one character stands between the quotes. -/
def quotedChar (c : Char) : List Char :=
  if c = '"' then ['\\', '"']
  else if c = '\\' then ['\\', '\\']
  else if c = '\n' then ['\\', 'n']
  else if c = '\r' then ['\\', 'r']
  else if c = '\t' then ['\\', 't']
  else if c.toNat = 0 then ['\\', '0']
  else if isPrintable c then [c]
  else codePointEscape c

/-- The text between double quotes, each character in its written form. -/
def quoted (text : String) : String :=
  String.ofList ('"' :: (text.toList.flatMap quotedChar ++ ['"']))

/-- The texts in order between square brackets, separated by a comma and a space. -/
def quotedList (texts : List String) : String :=
  "[" ++ String.intercalate ", " (texts.map quoted) ++ "]"

/-- A printable character that has no escape of its own stands for itself. -/
theorem quotedChar_of_isPrintable {c : Char} (quote : c ≠ '"') (backslash : c ≠ '\\')
    (newline : c ≠ '\n') (return_ : c ≠ '\r') (tab : c ≠ '\t') (positive : c.toNat ≠ 0)
    (printable : isPrintable c = true) : quotedChar c = [c] := by
  simp [quotedChar, quote, backslash, newline, return_, tab, positive, printable]

end Text
end VolumeCache
