import VolumeCache.Json.Text

namespace VolumeCache
namespace Json

/-!
# The spellings of a text

A text has many spellings: every character may be written as it is, unless it is a quote, a
backslash or a control character, by a letter of its own, or by its code units.  They are set out
here without a reader, and the reader is then shown to accept exactly these: it gives the text that
is spelled, and whatever it accepts is a spelling of what it gives.
-/

/-! ## Code units -/

/-- Four hexadecimal digits, each of either case, and the number they stand for. -/
inductive SpellsUnit : List Char → Nat → Prop
  | digits {a b c d : Char} {p q r s : Nat} (first : hexValue? a = some p)
      (second : hexValue? b = some q) (third : hexValue? c = some r)
      (fourth : hexValue? d = some s) :
      SpellsUnit [a, b, c, d] (((p * 16 + q) * 16 + r) * 16 + s)

theorem hexValue?_lt {c : Char} {value : Nat} (digit : hexValue? c = some value) : value < 16 := by
  unfold hexValue? at digit
  simp only [Char.le_def, UInt32.le_iff_toNat_le] at digit
  split at digit
  · rename_i decimal
    have high : c.toNat ≤ 57 := decimal.2
    have zero : '0'.toNat = 48 := rfl
    cases digit
    omega
  split at digit
  · rename_i lower
    have high : c.toNat ≤ 102 := lower.2
    have letter : 'a'.toNat = 97 := rfl
    cases digit
    omega
  split at digit
  · rename_i upper
    have high : c.toNat ≤ 70 := upper.2
    have letter : 'A'.toNat = 65 := rfl
    cases digit
    omega
  · cases digit

theorem SpellsUnit.lt {chars : List Char} {value : Nat} (spelled : SpellsUnit chars value) :
    value < 0x10000 := by
  cases spelled with
  | digits first second third fourth =>
      have := hexValue?_lt first
      have := hexValue?_lt second
      have := hexValue?_lt third
      have := hexValue?_lt fourth
      omega

theorem readUnit_eq_ok_iff {chars rest : List Char} {value : Nat} :
    readUnit chars = .ok (value, rest) ↔
      ∃ digits, SpellsUnit digits value ∧ chars = digits ++ rest := by
  constructor
  · intro read
    unfold readUnit at read
    split at read
    · split at read
      · rename_i first second third fourth
        cases read
        exact ⟨_, .digits first second third fourth, rfl⟩
      · cases read
    · split at read <;> cases read
  · rintro ⟨_, ⟨first, second, third, fourth⟩, rfl⟩
    simp only [List.cons_append, List.nil_append, readUnit, first, second, third, fourth]

/-! ## Characters -/

/-- The letters that stand for a character behind a backslash. -/
def shortEscapes : List (Char × Char) :=
  [('"', '"'), ('\\', '\\'), ('/', '/'), ('b', '\x08'), ('f', '\x0c'), ('n', '\n'), ('r', '\r'),
    ('t', '\t')]

/-- The spellings of one character.  A character beyond the sixteen-bit ones is given by its two
halves, the upper ten bits of its offset first; a character within them is never given by two.
Every character that can stand for itself has other spellings, too. -/
inductive SpellsChar : List Char → Char → Prop
  | plain {c : Char} (noQuote : c ≠ '"') (noBackslash : c ≠ '\\') (visible : 32 ≤ c.toNat) :
      SpellsChar [c] c
  | short {letter c : Char} (escape : (letter, c) ∈ shortEscapes) : SpellsChar ['\\', letter] c
  | unit {digits : List Char} {c : Char} (spelled : SpellsUnit digits c.toNat) :
      SpellsChar ('\\' :: 'u' :: digits) c
  | pair {high low : List Char} {c : Char} (beyond : 0x10000 ≤ c.toNat)
      (upper : SpellsUnit high (0xD800 + (c.toNat - 0x10000) / 0x400))
      (lower : SpellsUnit low (0xDC00 + (c.toNat - 0x10000) % 0x400)) :
      SpellsChar ('\\' :: 'u' :: (high ++ '\\' :: 'u' :: low)) c

theorem toNat_valid (c : Char) : c.toNat < 0xD800 ∨ 0xDFFF < c.toNat ∧ c.toNat < 0x110000 :=
  c.valid

theorem toNat_ofNat_of_valid {value : Nat}
    (valid : value < 0xD800 ∨ 0xDFFF < value ∧ value < 0x110000) :
    (Char.ofNat value).toNat = value := by
  have isValid : value.isValidChar := valid
  unfold Char.ofNat
  rw [dif_pos isValid]
  rfl

/-- A character with a sixteen-bit code is read from its only unit. -/
theorem readCodePoint_unit {digits : List Char} {c : Char} (spelled : SpellsUnit digits c.toNat)
    (rest : List Char) : readCodePoint (digits ++ rest) = .ok (c, rest) := by
  have valid := toNat_valid c
  rw [readCodePoint, readUnit_eq_ok_iff.mpr ⟨digits, spelled, rfl⟩]
  simp only
  rw [if_neg (by omega), if_neg (by omega), Char.ofNat_toNat]

/-- Any other character is read from its two halves. -/
theorem readCodePoint_pair {high low : List Char} {c : Char} (beyond : 0x10000 ≤ c.toNat)
    (upper : SpellsUnit high (0xD800 + (c.toNat - 0x10000) / 0x400))
    (lower : SpellsUnit low (0xDC00 + (c.toNat - 0x10000) % 0x400)) (rest : List Char) :
    readCodePoint (high ++ '\\' :: 'u' :: (low ++ rest)) = .ok (c, rest) := by
  have valid := toNat_valid c
  have joined : 0x10000 + (0xD800 + (c.toNat - 0x10000) / 0x400 - 0xD800) * 0x400 +
      (0xDC00 + (c.toNat - 0x10000) % 0x400 - 0xDC00) = c.toNat := by omega
  rw [readCodePoint, readUnit_eq_ok_iff.mpr ⟨high, upper, rfl⟩]
  simp only
  rw [if_neg (by omega), if_pos (by omega)]
  simp only [readLowSurrogate, readUnit_eq_ok_iff.mpr ⟨low, lower, rfl⟩]
  rw [if_pos (by omega), joined, Char.ofNat_toNat]

/-- A code point that is read is spelled by one unit or by two. -/
theorem spellsChar_of_readCodePoint {chars rest : List Char} {c : Char}
    (read : readCodePoint chars = .ok (c, rest)) :
    ∃ spelled, SpellsChar ('\\' :: 'u' :: spelled) c ∧ chars = spelled ++ rest := by
  unfold readCodePoint at read
  split at read
  · cases read
  rename_i unit left readHigh
  obtain ⟨high, upper, rfl⟩ := readUnit_eq_ok_iff.mp readHigh
  have small := upper.lt
  split at read
  · cases read
  split at read
  · rename_i isHigh
    unfold readLowSurrogate at read
    split at read
    · cases read
    · cases read
    · split at read
      · cases read
      rename_i low left readLow
      obtain ⟨digits, lower, rfl⟩ := readUnit_eq_ok_iff.mp readLow
      split at read
      · rename_i isLow
        -- The two halves are the ten-bit halves of the offset that the reader puts together.
        obtain ⟨offset, joined, upperHalf, lowerHalf, inRange⟩ : ∃ offset,
            0x10000 + (unit - 0xD800) * 0x400 + (low - 0xDC00) = 0x10000 + offset ∧
              0xD800 + offset / 0x400 = unit ∧ 0xDC00 + offset % 0x400 = low ∧
              offset < 0x100000 :=
          ⟨(unit - 0xD800) * 0x400 + (low - 0xDC00), by omega, by omega, by omega, by omega⟩
        rw [joined] at read
        simp only [Except.ok.injEq, Prod.mk.injEq] at read
        obtain ⟨rfl, rfl⟩ := read
        have value : (Char.ofNat (0x10000 + offset)).toNat = 0x10000 + offset :=
          toNat_ofNat_of_valid (by omega)
        refine ⟨high ++ '\\' :: 'u' :: digits, .pair ?_ ?_ ?_, by simp⟩
        · omega
        · rwa [value, Nat.add_sub_cancel_left, upperHalf]
        · rwa [value, Nat.add_sub_cancel_left, lowerHalf]
      · cases read
    · cases read
  · cases read
    have value : (Char.ofNat unit).toNat = unit := toNat_ofNat_of_valid (by omega)
    exact ⟨high, .unit (value.symm ▸ upper), rfl⟩

/-- Behind a backslash exactly the spellings that begin with one are read. -/
theorem spellsChar_of_readEscape {chars rest : List Char} {c : Char}
    (read : readEscape chars = .ok (c, rest)) :
    ∃ spelled, SpellsChar ('\\' :: spelled) c ∧ chars = spelled ++ rest := by
  unfold readEscape at read
  split at read
  case h_10 =>
    obtain ⟨spelled, isSpelled, rfl⟩ := spellsChar_of_readCodePoint read
    exact ⟨'u' :: spelled, isSpelled, rfl⟩
  all_goals first
    | cases read; exact ⟨[_], .short (by decide), rfl⟩
    | cases read

theorem SpellsChar.readChars {spelled : List Char} {c : Char} (isSpelled : SpellsChar spelled c)
    (rounds : Nat) (rest : List Char) :
    readChars (rounds + 1) (spelled ++ rest) = prepend c (Json.readChars rounds rest) := by
  cases isSpelled with
  | plain noQuote noBackslash visible =>
      simp [Json.readChars, noQuote, noBackslash, Nat.not_lt.mpr visible]
  | short escape =>
      simp only [shortEscapes, List.mem_cons, Prod.mk.injEq, List.not_mem_nil, or_false] at escape
      rcases escape with ⟨rfl, rfl⟩ | ⟨rfl, rfl⟩ | ⟨rfl, rfl⟩ | ⟨rfl, rfl⟩ | ⟨rfl, rfl⟩ |
        ⟨rfl, rfl⟩ | ⟨rfl, rfl⟩ | ⟨rfl, rfl⟩ <;> simp [Json.readChars, readEscape]
  | unit digits =>
      simp [Json.readChars, readEscape, readCodePoint_unit digits]
  | pair beyond upper lower =>
      simp [Json.readChars, readEscape, readCodePoint_pair beyond upper lower]

/-! ## Texts -/

/-- The spellings of some characters in turn. -/
inductive SpellsChars : List Char → List Char → Prop
  | done : SpellsChars [] []
  | more {spelled later content : List Char} {c : Char} (first : SpellsChar spelled c)
      (others : SpellsChars later content) : SpellsChars (spelled ++ later) (c :: content)

/-- The characters spell the text, quotes included.  Every text has spellings, and no characters
spell two texts. -/
def Spells (chars : List Char) (text : String) : Prop :=
  ∃ inner, SpellsChars inner text.toList ∧ chars = '"' :: (inner ++ ['"'])

theorem SpellsChar.length_pos {spelled : List Char} {c : Char} (isSpelled : SpellsChar spelled c) :
    0 < spelled.length := by
  cases isSpelled <;> simp

theorem SpellsChars.length_le {inner content : List Char} (spelled : SpellsChars inner content) :
    content.length ≤ inner.length := by
  induction spelled with
  | done => exact Nat.le_refl 0
  | more first others ih =>
      have := first.length_pos
      simp only [List.length_cons, List.length_append]
      omega

theorem SpellsChars.readChars {inner content : List Char} (spelled : SpellsChars inner content)
    (rest : List Char) {rounds : Nat} (enough : content.length < rounds) :
    readChars rounds (inner ++ '"' :: rest) = .ok (content, rest) := by
  induction spelled generalizing rounds with
  | done =>
      obtain ⟨fewer, rfl⟩ : ∃ fewer, rounds = fewer + 1 := ⟨rounds - 1, by simp at enough; omega⟩
      simp [Json.readChars]
  | more first others ih =>
      obtain ⟨fewer, rfl⟩ : ∃ fewer, rounds = fewer + 1 := ⟨rounds - 1, by simp at enough; omega⟩
      rw [List.append_assoc, first.readChars, ih (by simp at enough; omega)]
      rfl

theorem spellsChars_of_readChars {rounds : Nat} {chars content rest : List Char}
    (read : readChars rounds chars = .ok (content, rest)) :
    ∃ inner, SpellsChars inner content ∧ chars = inner ++ '"' :: rest := by
  induction rounds generalizing chars content with
  | zero => cases chars <;> cases read
  | succ rounds ih =>
      -- One more character stands in front of those that are read in the other rounds.
      have one : ∀ {spelled left : List Char} {c : Char}, SpellsChar spelled c →
          prepend c (readChars rounds left) = .ok (content, rest) →
            ∃ inner, SpellsChars inner content ∧ spelled ++ left = inner ++ '"' :: rest := by
        intro spelled left c first joined
        unfold prepend at joined
        split at joined
        · cases joined
        rename_i later
        cases joined
        obtain ⟨inner, others, rfl⟩ := ih later
        exact ⟨spelled ++ inner, .more first others, by simp⟩
      cases chars with
      | nil => cases read
      | cons c left =>
          unfold readChars at read
          split at read
          · rename_i quote
            cases read
            exact ⟨[], .done, by rw [quote]; rfl⟩
          rename_i noQuote
          split at read
          · rename_i backslash
            split at read
            · cases read
            rename_i escaped behind escape
            obtain ⟨spelled, first, rfl⟩ := spellsChar_of_readEscape escape
            exact backslash ▸ one first read
          rename_i noBackslash
          split at read
          · cases read
          rename_i visible
          exact one (.plain noQuote noBackslash (Nat.not_lt.mp visible)) read

/-- A text is read from each of its spellings and from nothing else.  What stands behind the closing
quote is left over untouched. -/
theorem readText_eq_ok_iff {chars rest : List Char} {text : String} :
    readText chars = .ok (text, rest) ↔
      ∃ inner, SpellsChars inner text.toList ∧ chars = inner ++ '"' :: rest := by
  unfold readText
  constructor
  · intro read
    split at read
    · cases read
    rename_i content left content_read
    cases read
    obtain ⟨inner, spelled, rfl⟩ := spellsChars_of_readChars content_read
    exact ⟨inner, by rwa [String.toList_ofList], rfl⟩
  · rintro ⟨inner, spelled, rfl⟩
    have shorter := spelled.length_le
    rw [spelled.readChars rest (by simp; omega)]
    simp only [String.ofList_toList]

theorem Spells.readText {chars : List Char} {text : String} (spelled : Spells chars text) :
    ∃ behind, chars = '"' :: behind ∧ ∀ rest, readText (behind ++ rest) = .ok (text, rest) := by
  obtain ⟨inner, isSpelled, rfl⟩ := spelled
  exact ⟨inner ++ ['"'], rfl, fun rest =>
    readText_eq_ok_iff.mpr ⟨inner, isSpelled, by simp⟩⟩

/-- What is read as a text to its last character is a spelling of it. -/
theorem spells_of_readText {behind : List Char} {text : String}
    (read : readText behind = .ok (text, [])) : Spells ('"' :: behind) text := by
  obtain ⟨inner, isSpelled, rfl⟩ := readText_eq_ok_iff.mp read
  exact ⟨inner, isSpelled, rfl⟩

theorem spells_encode (text : String) : Spells (encode text) text :=
  spells_of_readText (by simpa using readText_encodeChars text [])

end Json
end VolumeCache
