import VolumeCache.Proofs.Members
import VolumeCache.Proofs.Spellings

namespace VolumeCache
namespace Json

/-!
# Objects in any layout

The lexemes of an object may be spread out as one likes: blanks may stand before, between and
behind them, and a name may be spelled in any way.  An object is described here by its lexemes
alone, and its reader is followed from one of them to the next.  Its values may be of any type.  A
reader that takes a value by its token leaves the value behind as a whole unless the token tells
only a part of it, so what a list or an object holds is of no concern.
-/

/-! ## Lexemes -/

/-- The lexemes stand one after the other, and before, between and behind them there are blanks
only.  The number and the kinds of blanks are left open, and there may be none. -/
def LaidOut : List (List Char) → List Char → Prop
  | [], chars => AllBlank chars
  | lexeme :: later, chars =>
      ∃ blanks left, AllBlank blanks ∧ chars = blanks ++ (lexeme ++ left) ∧ LaidOut later left

instance (chars : List Char) : Decidable (AllBlank chars) :=
  List.decidableBAll (fun c => isBlank c = true) chars

/-- The blanks in front of a lexeme are found by their number.  So whether characters are a layout
of given lexemes can be decided, as the examples do. -/
theorem laidOut_cons_iff {lexeme : List Char} {later : List (List Char)} {chars : List Char} :
    LaidOut (lexeme :: later) chars ↔
      ∃ size, size < chars.length + 1 ∧ AllBlank (chars.take size) ∧
        chars.drop size = lexeme ++ chars.drop (size + lexeme.length) ∧
        LaidOut later (chars.drop (size + lexeme.length)) := by
  constructor
  · rintro ⟨blanks, left, blank, rfl, others⟩
    have behind : (blanks ++ (lexeme ++ left)).drop (blanks.length + lexeme.length) = left := by
      rw [← List.drop_drop, List.drop_left, List.drop_left]
    refine ⟨blanks.length, by simp only [List.length_append]; omega, by simpa using blank, ?_, ?_⟩
    · rw [List.drop_left, behind]
    · rwa [behind]
  · rintro ⟨size, _, blank, seen, others⟩
    refine ⟨chars.take size, _, blank, ?_, others⟩
    rw [← seen, List.take_append_drop]

instance decidableLaidOut :
    (lexemes : List (List Char)) → (chars : List Char) → Decidable (LaidOut lexemes chars)
  | [], chars => inferInstanceAs (Decidable (AllBlank chars))
  | _ :: later, _ =>
      have := fun left => decidableLaidOut later left
      decidable_of_iff _ laidOut_cons_iff.symm

theorem LaidOut.endsNumeral {mark : Char} {later : List (List Char)} {chars : List Char}
    (laid : LaidOut ([mark] :: later) chars)
    (plain : mark.isDigit = false ∧ mark ≠ '.' ∧ mark ≠ 'e' ∧ mark ≠ 'E') : EndsNumeral chars := by
  obtain ⟨blanks, left, blank, rfl, _⟩ := laid
  exact endsNumeral_append blank (endsNumeral_cons plain _)

/-- Behind the blanks the next lexeme is seen. -/
theorem LaidOut.skipBlanks {first : Char} {lexeme : List Char} {later : List (List Char)}
    {chars : List Char} (laid : LaidOut ((first :: lexeme) :: later) chars)
    (visible : isBlank first = false) :
    ∃ left, Json.skipBlanks chars = first :: (lexeme ++ left) ∧ LaidOut later left := by
  obtain ⟨blanks, left, blank, rfl, others⟩ := laid
  exact ⟨left, by rw [skipBlanks_append blank, List.cons_append, skipBlanks_cons visible], others⟩

theorem LaidOut.length_le {lexemes : List (List Char)} {chars : List Char}
    (laid : LaidOut lexemes chars) : lexemes.flatten.length ≤ chars.length := by
  induction lexemes generalizing chars with
  | nil => simp
  | cons lexeme later ih =>
      obtain ⟨blanks, left, _, rfl, others⟩ := laid
      have behind := ih others
      simp only [List.flatten_cons, List.length_append]
      omega

/-- A member of an object: its name, one of the spellings of the name, and its value.  The value is
any text here; what can stand as a value is said by `IsValue`. -/
structure Entry where
  name : String
  label : List Char
  spelled : Spells label name
  value : List Char

/-- The lexemes of an object from a member on, with a comma in front unless the member is the
first one. -/
def memberLexemes (isFirst : Bool) : List Entry → List (List Char)
  | [] => [['\x7d']]
  | entry :: later =>
      (if isFirst then [] else [[',']]) ++
        entry.label :: [':'] :: entry.value :: memberLexemes false later

def objectLexemes (entries : List Entry) : List (List Char) :=
  ['\x7b'] :: memberLexemes true entries

theorem length_lt_memberLexemes (isFirst : Bool) (entries : List Entry) :
    entries.length < (memberLexemes isFirst entries).flatten.length := by
  induction entries generalizing isFirst with
  | nil => simp [memberLexemes]
  | cons entry later ih =>
      have behind := ih false
      simp only [memberLexemes, List.flatten_append, List.flatten_cons, List.length_append,
        List.length_cons, List.length_nil]
      omega

theorem LaidOut.length_lt {isFirst : Bool} {entries : List Entry} {chars : List Char}
    (laid : LaidOut (memberLexemes isFirst entries) chars) : entries.length < chars.length :=
  Nat.lt_of_lt_of_le (length_lt_memberLexemes isFirst entries) laid.length_le

theorem endsNumeral_memberLexemes {entries : List Entry} {chars : List Char}
    (laid : LaidOut (memberLexemes false entries) chars) : EndsNumeral chars := by
  cases entries with
  | nil => exact laid.endsNumeral (by decide)
  | cons entry later => exact laid.endsNumeral (by decide)

/-! ## Names -/

theorem readMemberName_end {isFirst : Bool} {chars : List Char}
    (laid : LaidOut (memberLexemes isFirst []) chars) :
    ∃ left, readMemberName isFirst chars = .ok (none, left) ∧ AllBlank left := by
  obtain ⟨left, seen, blank⟩ := laid.skipBlanks (by decide)
  exact ⟨left, by simp [readMemberName, seen], blank⟩

/-- The name of the next member is read, whether a comma stands in front of it or not. -/
theorem readMemberName_entry {isFirst : Bool} {entry : Entry} {later : List Entry}
    {chars : List Char} (laid : LaidOut (memberLexemes isFirst (entry :: later)) chars) :
    ∃ left, readMemberName isFirst chars = .ok (some entry.name, left) ∧
      LaidOut ([':'] :: entry.value :: memberLexemes false later) left := by
  obtain ⟨behind, label, reads⟩ := entry.spelled.readText
  cases isFirst with
  | true =>
      rw [memberLexemes, label] at laid
      obtain ⟨left, seen, others⟩ := LaidOut.skipBlanks laid (by decide)
      exact ⟨left, by simp [readMemberName, seen, readName, reads], others⟩
  | false =>
      rw [memberLexemes, label] at laid
      obtain ⟨chars, comma, named⟩ := LaidOut.skipBlanks laid (by decide)
      obtain ⟨left, seen, others⟩ := LaidOut.skipBlanks named (by decide)
      exact ⟨left, by simp [readMemberName, comma, seen, readName, reads], others⟩

theorem readColon_of_laidOut {later : List (List Char)} {chars : List Char}
    (laid : LaidOut ([':'] :: later) chars) :
    ∃ left, readColon chars = .ok left ∧ LaidOut later left := by
  obtain ⟨left, seen, others⟩ := laid.skipBlanks (by decide)
  exact ⟨left, by simp [readColon, seen], others⟩

theorem readToken_brace {entries : List Entry} {chars : List Char}
    (laid : LaidOut (objectLexemes entries) chars) :
    ∃ left, readToken chars = .ok (.map, left) ∧ LaidOut (memberLexemes true entries) left := by
  obtain ⟨left, seen, members⟩ := laid.skipBlanks (by decide)
  exact ⟨left, by simp [readToken, seen, readTokenHere], members⟩

theorem readEnd_of_allBlank {chars : List Char} (blank : AllBlank chars) :
    readEnd chars = .ok () := by
  have nothing : skipBlanks chars = [] := by
    have behind := skipBlanks_append blank []
    rwa [List.append_nil] at behind
  rw [readEnd, if_pos nothing]

theorem readToken_of_laidOut {value : List Char} {later : List (List Char)} {chars : List Char}
    (laid : LaidOut (value :: later) chars) :
    ∃ left, readToken chars = readToken (value ++ left) ∧ LaidOut later left := by
  obtain ⟨blanks, left, blank, rfl, others⟩ := laid
  exact ⟨left, readToken_append blank _, others⟩

/-! ## Values -/

/-- What stands as a value is a word, a number, a text, a list or an object.  Of a number with a
point or an exponent, of a list and of an object only the beginning is described; whatever follows
it is let through.  So some texts that are no values count as such here, which only widens what is
said of all of them. -/
inductive IsValue : List Char → Prop
  | word {letters : List Char}
      (known : letters ∈ [['n', 'u', 'l', 'l'], ['t', 'r', 'u', 'e'], ['f', 'a', 'l', 's', 'e']]) :
      IsValue letters
  | integer (negative : Bool) (whole : Nat) :
      IsValue ((if negative then ['-'] else []) ++ natural whole)
  | double (negative : Bool) (whole : Nat) {mark : Char} (known : mark ∈ ['.', 'e', 'E'])
      (behind : List Char) :
      IsValue ((if negative then ['-'] else []) ++ (natural whole ++ mark :: behind))
  | text {chars : List Char} {text : String} (spelled : Spells chars text) : IsValue chars
  | bracket {mark : Char} (known : mark ∈ ['[', '\x7b']) (behind : List Char) :
      IsValue (mark :: behind)

/-- The tokens that tell all of their values: those of words, integers and texts.  Of a list or an
object a token tells that it begins, and no field of a document is given by one. -/
def Token.IsExact : Token → Prop
  | .null | .boolean _ | .integer _ | .text _ => True
  | .float _ | .sequence | .map => False

theorem scaled_not_isExact {negative : Bool} {significand : Nat} {exponent : Int} {token : Token}
    (read : scaled negative significand exponent = .ok token) : ¬ token.IsExact := by
  unfold scaled at read
  dsimp only at read
  split at read
  · cases product : shiftUp significand.toUInt64.toFloat exponent.toNat with
    | error fault => simp [product, Except.map] at read
    | ok value =>
        rw [product] at read
        cases read
        exact id
  · cases read
    exact id

theorem left_eq_of_map_scaled {negative : Bool} {significand : Nat} {exponent : Int}
    {rest left : List Char} {token : Token}
    (read : ((scaled negative significand exponent).map fun token => (token, rest)) =
      .ok (token, left)) : left = rest ∧ ¬ token.IsExact := by
  cases result : scaled negative significand exponent with
  | error fault => simp [result, Except.map] at read
  | ok found =>
      rw [result] at read
      cases read
      exact ⟨rfl, scaled_not_isExact result⟩

theorem readExponent_not_isExact {negative : Bool} {significand : Nat} {exponent : Int}
    {chars left : List Char} {token : Token}
    (read : readExponent negative significand exponent chars = .ok (token, left)) :
    ¬ token.IsExact := by
  unfold readExponent at read
  dsimp only at read
  split at read
  · cases read
  split at read
  · exact (left_eq_of_map_scaled read).2
  · cases read

theorem readScale_not_isExact {negative : Bool} {significand : Nat} {exponent : Int}
    {chars left : List Char} {token : Token}
    (read : readScale negative significand exponent chars = .ok (token, left)) :
    ¬ token.IsExact := by
  unfold readScale at read
  split at read
  · exact readExponent_not_isExact read
  · exact readExponent_not_isExact read
  · exact (left_eq_of_map_scaled read).2

theorem readFraction_not_isExact {negative : Bool} {significand : Nat} {exponent : Int}
    {chars left : List Char} {token : Token}
    (read : readFraction negative significand exponent chars = .ok (token, left)) :
    ¬ token.IsExact := by
  unfold readFraction at read
  split at read
  · cases read
  split at read
  · exact readScale_not_isExact read
  · cases read

/-- Behind a point or an exponent a number is a double or none at all. -/
theorem readTail_not_isExact {negative : Bool} {significand dropped : Nat} {mark : Char}
    (known : mark ∈ ['.', 'e', 'E']) {behind left : List Char} {token : Token}
    (read : readTail negative significand dropped (mark :: behind) = .ok (token, left)) :
    ¬ token.IsExact := by
  simp only [List.mem_cons, List.not_mem_nil, or_false] at known
  rcases known with rfl | rfl | rfl
  · exact readFraction_not_isExact read
  · exact readExponent_not_isExact read
  · exact readExponent_not_isExact read

/-- A number without a point and an exponent is read to its end, whatever becomes of it.  It may be
too large for a word, and then it is a double. -/
theorem readTail_left_eq {negative : Bool} {significand dropped : Nat} {rest left : List Char}
    {token : Token} (ends : EndsNumeral rest)
    (read : readTail negative significand dropped rest = .ok (token, left)) : left = rest := by
  unfold readTail at read
  split at read
  · simp [EndsNumeral] at ends
  · simp [EndsNumeral] at ends
  · simp [EndsNumeral] at ends
  split at read
  · cases read
    rfl
  · exact (left_eq_of_map_scaled read).1

theorem readToken_number (negative : Bool) (whole : Nat) (rest : List Char) :
    readToken ((if negative then ['-'] else []) ++ (natural whole ++ rest)) =
      readNumber negative (natural whole ++ rest) := by
  cases negative with
  | true => rfl
  | false =>
      cases written : natural whole with
      | nil => exact absurd written Nat.toDigits_ne_nil
      | cons first later =>
          have digit : first.isDigit = true :=
            isDigit_of_mem_natural (written ▸ List.mem_cons_self)
          change readToken (first :: (later ++ rest)) = readNumber false (first :: (later ++ rest))
          rw [readToken, skipBlanks_cons (not_isBlank_of_isDigit digit),
            readTokenHere_of_isDigit digit]

theorem Spells.readToken {chars : List Char} {text : String} (spelled : Spells chars text)
    (rest : List Char) : readToken (chars ++ rest) = .ok (.text text, rest) := by
  obtain ⟨behind, rfl, reads⟩ := spelled.readText
  change readTokenHere ('"' :: (behind ++ rest)) = .ok (.text text, rest)
  simp only [readTokenHere, reads]

/-- Behind a token that tells all of its value stands what follows the value.  For other tokens the
reader has stopped somewhere inside. -/
theorem IsValue.left_eq {value rest left : List Char} {token : Token} (isValue : IsValue value)
    (ends : EndsNumeral rest) (read : readToken (value ++ rest) = .ok (token, left))
    (exact : token.IsExact) : left = rest := by
  cases isValue with
  | word known =>
      simp only [List.mem_cons, List.not_mem_nil, or_false] at known
      rcases known with rfl | rfl | rfl <;> cases read <;> rfl
  | integer negative whole =>
      rw [List.append_assoc, readToken_number,
        readNumber_eq_readTail (fun c member => (ends c member).1)] at read
      exact readTail_left_eq ends read
  | @double negative whole mark known behind =>
      have stops : ∀ c ∈ (mark :: (behind ++ rest)).head?, c.isDigit = false := by
        rintro c ⟨⟩
        simp only [List.mem_cons, List.not_mem_nil, or_false] at known
        rcases known with rfl | rfl | rfl <;> rfl
      rw [List.append_assoc, List.append_assoc, List.cons_append, readToken_number,
        readNumber_eq_readTail stops] at read
      exact absurd exact (readTail_not_isExact known read)
  | text spelled =>
      rw [spelled.readToken] at read
      cases read
      rfl
  | bracket known behind =>
      simp only [List.mem_cons, List.not_mem_nil, or_false] at known
      rcases known with rfl | rfl <;> cases read <;> exact exact.elim

end Json
end VolumeCache
