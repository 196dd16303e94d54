import VolumeCache.Json.Fault

namespace VolumeCache
namespace Json

/-!
# Texts in documents

A text stands between double quotes.  In the written form the quote, the backslash and the control
characters below the space are escapes, five of them with a letter of their own and the others by
code point; every other character stands for itself.  A reader accepts more than is ever written:
any character may be given by its code point, and one beyond the sixteen-bit ones by a pair of
surrogates.
-/

/-! ## Writing -/

def hexDigit (value : Nat) : Char :=
  Nat.digitChar value

/-- The escape of a character by its code point, in four digits. -/
def unicodeEscape (c : Char) : List Char :=
  ['\\', 'u', '0', '0', hexDigit (c.toNat / 16), hexDigit (c.toNat % 16)]

/-- How one character is written between the quotes. -/
def encodeChar (c : Char) : List Char :=
  if c = '"' then ['\\', '"']
  else if c = '\\' then ['\\', '\\']
  else if c = '\n' then ['\\', 'n']
  else if c = '\r' then ['\\', 'r']
  else if c = '\t' then ['\\', 't']
  else if c.toNat = 8 then ['\\', 'b']
  else if c.toNat = 12 then ['\\', 'f']
  else if c.toNat < 32 then unicodeEscape c
  else [c]

/-- The characters of a text as they are written between the quotes. -/
def encodeChars (chars : List Char) : List Char :=
  chars.flatMap encodeChar

def encode (text : String) : List Char :=
  '"' :: (encodeChars text.toList ++ ['"'])

/-! ## Reading -/

/-- The value of a hexadecimal digit of either case. -/
def hexValue? (c : Char) : Option Nat :=
  if '0' ≤ c ∧ c ≤ '9' then some (c.toNat - '0'.toNat)
  else if 'a' ≤ c ∧ c ≤ 'f' then some (c.toNat - 'a'.toNat + 10)
  else if 'A' ≤ c ∧ c ≤ 'F' then some (c.toNat - 'A'.toNat + 10)
  else none

/-- A number of four hexadecimal digits.  A rest of fewer than four bytes counts as broken off,
whatever stands in it. -/
def readUnit : List Char → Except Fault (Nat × List Char)
  | first :: second :: third :: fourth :: rest =>
      match hexValue? first, hexValue? second, hexValue? third, hexValue? fourth with
      | some a, some b, some c, some d => .ok (((a * 16 + b) * 16 + c) * 16 + d, rest)
      | _, _, _, _ => .error .invalidEscape
  | few =>
      if few.foldl (fun size c => size + c.utf8Size) 0 < 4 then .error .endInString
      else .error .invalidEscape

/-- The second half of a surrogate pair, as an escape of its own. -/
def readLowSurrogate (high : Nat) : List Char → Except Fault (Char × List Char)
  | [] => .error .endInString
  | ['\\'] => .error .endInString
  | '\\' :: 'u' :: rest =>
      match readUnit rest with
      | .error fault => .error fault
      | .ok (low, left) =>
          if 0xDC00 ≤ low ∧ low ≤ 0xDFFF then
            .ok (Char.ofNat (0x10000 + (high - 0xD800) * 0x400 + (low - 0xDC00)), left)
          else .error .loneSurrogate
  | _ => .error .unfinishedSurrogate

/-- A character given by its code point, or by the two halves of a surrogate pair. -/
def readCodePoint (chars : List Char) : Except Fault (Char × List Char) :=
  match readUnit chars with
  | .error fault => .error fault
  | .ok (unit, rest) =>
      if 0xDC00 ≤ unit ∧ unit ≤ 0xDFFF then .error .loneSurrogate
      else if 0xD800 ≤ unit ∧ unit ≤ 0xDBFF then readLowSurrogate unit rest
      else .ok (Char.ofNat unit, rest)

/-- What an escape stands for, the backslash being read already. -/
def readEscape : List Char → Except Fault (Char × List Char)
  | [] => .error .endInString
  | '"' :: rest => .ok ('"', rest)
  | '\\' :: rest => .ok ('\\', rest)
  | '/' :: rest => .ok ('/', rest)
  | 'b' :: rest => .ok ('\x08', rest)
  | 'f' :: rest => .ok ('\x0c', rest)
  | 'n' :: rest => .ok ('\n', rest)
  | 'r' :: rest => .ok ('\r', rest)
  | 't' :: rest => .ok ('\t', rest)
  | 'u' :: rest => readCodePoint rest
  | _ => .error .invalidEscape

def prepend (c : Char) : Except Fault (List Char × List Char) → Except Fault (List Char × List Char)
  | .error fault => .error fault
  | .ok (chars, rest) => .ok (c :: chars, rest)

/-- The characters up to the closing quote, and what follows it.  Every round reads at least one
character, so as many rounds as there are characters suffice. -/
def readChars : Nat → List Char → Except Fault (List Char × List Char)
  | _, [] => .error .endInString
  | 0, _ => .error .endInString
  | rounds + 1, c :: rest =>
      if c = '"' then .ok ([], rest)
      else if c = '\\' then
        match readEscape rest with
        | .error fault => .error fault
        | .ok (escaped, left) => prepend escaped (readChars rounds left)
      else if c.toNat < 32 then .error .controlCharacter
      else prepend c (readChars rounds rest)

/-- A text, the opening quote being read already. -/
def readText (chars : List Char) : Except Fault (String × List Char) :=
  match readChars chars.length chars with
  | .error fault => .error fault
  | .ok (content, rest) => .ok (String.ofList content, rest)

/-! ## What is written is read back -/

theorem encodeChars_cons (c : Char) (later : List Char) :
    encodeChars (c :: later) = encodeChar c ++ encodeChars later := by
  simp [encodeChars]

theorem hexValue?_hexDigit : ∀ value : Fin 16, hexValue? (hexDigit value) = some value.val := by
  decide

/-- A control character is read back from its escape. -/
theorem readEscape_unicodeEscape (c : Char) (low : c.toNat < 32) (rest : List Char) :
    readEscape ((unicodeEscape c).tail ++ rest) = .ok (c, rest) := by
  have high := hexValue?_hexDigit ⟨c.toNat / 16, by omega⟩
  have units := hexValue?_hexDigit ⟨c.toNat % 16, by omega⟩
  have zero : hexValue? '0' = some 0 := by decide
  simp only [unicodeEscape, List.tail_cons, List.cons_append, List.nil_append, readEscape,
    readCodePoint, readUnit, zero, high, units]
  have value : ((0 * 16 + 0) * 16 + c.toNat / 16) * 16 + c.toNat % 16 = c.toNat := by omega
  rw [value, if_neg (by omega), if_neg (by omega)]
  simp

/-- What one character is written as is read back as that character. -/
theorem readChars_encodeChar (rounds : Nat) (c : Char) (rest : List Char) :
    readChars (rounds + 1) (encodeChar c ++ rest) = prepend c (readChars rounds rest) := by
  unfold encodeChar
  by_cases quote : c = '"'
  · subst quote; simp [readChars, readEscape]
  by_cases backslash : c = '\\'
  · subst backslash; simp [readChars, readEscape]
  by_cases newline : c = '\n'
  · subst newline; simp [readChars, readEscape]
  by_cases carriage : c = '\r'
  · subst carriage; simp [readChars, readEscape]
  by_cases tab : c = '\t'
  · subst tab; simp [readChars, readEscape]
  by_cases backspace : c.toNat = 8
  · have same : c = '\x08' := Char.toNat_inj.mp backspace
    subst same; simp [readChars, readEscape]
  by_cases feed : c.toNat = 12
  · have same : c = '\x0c' := Char.toNat_inj.mp feed
    subst same; simp [readChars, readEscape]
  by_cases control : c.toNat < 32
  · have escaped := readEscape_unicodeEscape c control rest
    simp only [quote, backslash, newline, carriage, tab, backspace, feed, control, if_true,
      if_false]
    simp only [unicodeEscape, List.tail_cons] at escaped
    simp [unicodeEscape, readChars] at *
    rw [escaped]
  · simp [quote, backslash, newline, carriage, tab, backspace, feed, control, readChars]

/-- A written text is read back, whatever follows its closing quote. -/
theorem readChars_encodeChars (content : List Char) (rounds : Nat) (rest : List Char)
    (enough : content.length < rounds) :
    readChars rounds (encodeChars content ++ '"' :: rest) = .ok (content, rest) := by
  induction content generalizing rounds with
  | nil =>
      obtain ⟨fewer, rfl⟩ : ∃ fewer, rounds = fewer + 1 := ⟨rounds - 1, by simp at enough; omega⟩
      simp [encodeChars, readChars]
  | cons c later inductionHypothesis =>
      obtain ⟨fewer, rfl⟩ : ∃ fewer, rounds = fewer + 1 := ⟨rounds - 1, by simp at enough; omega⟩
      have shorter : later.length < fewer := by simp at enough; omega
      rw [encodeChars_cons, List.append_assoc, readChars_encodeChar,
        inductionHypothesis fewer shorter]
      rfl

theorem length_le_length_encodeChars (content : List Char) :
    content.length ≤ (encodeChars content).length := by
  induction content with
  | nil => simp
  | cons c later inductionHypothesis =>
      have one : 1 ≤ (encodeChar c).length := by
        unfold encodeChar unicodeEscape
        repeat' split
        all_goals simp
      rw [encodeChars_cons, List.length_append, List.length_cons]
      omega

/-- A text is read back from its written form, whatever follows. -/
theorem readText_encodeChars (text : String) (rest : List Char) :
    readText (encodeChars text.toList ++ '"' :: rest) = .ok (text, rest) := by
  have shorter := length_le_length_encodeChars text.toList
  rw [readText, readChars_encodeChars]
  · simp
  · simp only [List.length_append, List.length_cons]
    omega

end Json
end VolumeCache
