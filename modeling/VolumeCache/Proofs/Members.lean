import VolumeCache.Proofs.Numerals

namespace VolumeCache
namespace Json

/-!
# Objects in documents

An object is read member by member.  Here members are taken as they are laid out, with blanks
around them, and the reader of an object is followed from one to the next; what a single member
adds to the state is left to its own reader.  The compact form and the spread form in which objects
are written are two such layouts.
-/

def AllBlank (chars : List Char) : Prop :=
  ∀ c ∈ chars, isBlank c = true

theorem allBlank_nil : AllBlank [] := by
  simp [AllBlank]

theorem skipBlanks_append {blanks : List Char} (blank : AllBlank blanks) (rest : List Char) :
    skipBlanks (blanks ++ rest) = skipBlanks rest :=
  List.dropWhile_append_of_pos blank

theorem skipBlanks_cons {c : Char} (visible : isBlank c = false) (rest : List Char) :
    skipBlanks (c :: rest) = c :: rest := by
  simp [skipBlanks, visible]

theorem endsNumeral_append {blanks rest : List Char} (blank : AllBlank blanks)
    (ends : EndsNumeral rest) : EndsNumeral (blanks ++ rest) := by
  cases blanks with
  | nil => exact ends
  | cons c later =>
      have isBlank := blank c List.mem_cons_self
      apply endsNumeral_cons
      simp only [Json.isBlank, Bool.or_eq_true, beq_iff_eq] at isBlank
      rcases isBlank with ((rfl | rfl) | rfl) | rfl <;> decide

/-! ## Names and values -/

theorem readName_encode (name : String) (rest : List Char) :
    readName ((encode name).tail ++ rest) = .ok (some name, rest) := by
  simp [readName, encode, readText_encodeChars]

theorem readMemberName_comma {chars left : List Char} (quoted : skipBlanks chars = '"' :: left) :
    readMemberName false (',' :: chars) = readName left := by
  have comma : skipBlanks (',' :: chars) = ',' :: chars := skipBlanks_cons (by decide) _
  simp [readMemberName, comma, quoted]

theorem readTokenHere_encode (text : String) (rest : List Char) :
    readTokenHere (encode text ++ rest) = .ok (.text text, rest) := by
  simp [encode, readTokenHere, readText_encodeChars]

theorem readToken_append {blanks : List Char} (blank : AllBlank blanks) (chars : List Char) :
    readToken (blanks ++ chars) = readToken chars := by
  rw [readToken, skipBlanks_append blank, readToken]

theorem readToken_encode (text : String) (rest : List Char) :
    readToken (encode text ++ rest) = .ok (.text text, rest) := by
  rw [readToken, encode, List.cons_append, skipBlanks_cons (by decide)]
  exact readTokenHere_encode text rest

theorem not_isBlank_of_isDigit {c : Char} (digit : c.isDigit = true) : isBlank c = false := by
  simp only [isBlank, Bool.or_eq_false_iff, beq_eq_false_iff_ne]
  refine ⟨⟨⟨?_, ?_⟩, ?_⟩, ?_⟩ <;> (rintro rfl; revert digit; decide)

theorem readToken_integer {value : Int} (word : IsWord value) {rest : List Char}
    (ends : EndsNumeral rest) :
    readToken (integer value ++ rest) = .ok (.integer value, rest) := by
  rw [← readTokenHere_integer word ends, readToken]
  congr 1
  unfold integer
  split
  · exact skipBlanks_cons (by decide) _
  · cases written : natural value.natAbs with
    | nil => exact absurd written Nat.toDigits_ne_nil
    | cons first later =>
        exact skipBlanks_cons
          (not_isBlank_of_isDigit (isDigit_of_mem_natural (written ▸ List.mem_cons_self))) _

theorem readColon_append {blanks : List Char} (blank : AllBlank blanks) (rest : List Char) :
    readColon (blanks ++ ':' :: rest) = .ok rest := by
  rw [readColon, skipBlanks_append blank, skipBlanks_cons (by decide)]
  rfl

/-! ## Members one after the other -/

/-- A member as it stands in an object: its name, what follows the name up to the end of the value,
and the blanks before the one and behind the other.  The name is spelled as it would be written. -/
structure Row where
  before : List Char := []
  name : String
  text : List Char
  after : List Char := []

namespace Row

def chars (row : Row) : List Char :=
  row.before ++ (encode row.name ++ (row.text ++ row.after))

/-- Around the member there are blanks only. -/
def IsSpaced (row : Row) : Prop :=
  AllBlank row.before ∧ AllBlank row.after

/-- The first thing to be seen of a member is the quote in front of its name. -/
theorem IsSpaced.skipBlanks_chars {row : Row} (spaced : row.IsSpaced) (rest : List Char) :
    skipBlanks (row.chars ++ rest) =
      '"' :: ((encode row.name).tail ++ (row.text ++ (row.after ++ rest))) := by
  rw [chars, List.append_assoc, skipBlanks_append spaced.1, List.append_assoc, List.append_assoc]
  exact skipBlanks_cons (by decide) _

theorem IsSpaced.readMemberName_first {row : Row} (spaced : row.IsSpaced) (rest : List Char) :
    readMemberName true (row.chars ++ rest) =
      .ok (some row.name, row.text ++ (row.after ++ rest)) := by
  rw [readMemberName, spaced.skipBlanks_chars]
  exact readName_encode row.name _

theorem IsSpaced.readMemberName_later {row : Row} (spaced : row.IsSpaced) {gap : List Char}
    (blank : AllBlank gap) (rest : List Char) :
    readMemberName false (gap ++ ',' :: (row.chars ++ rest)) =
      .ok (some row.name, row.text ++ (row.after ++ rest)) := by
  rw [readMemberName, skipBlanks_append blank, ← readMemberName,
    readMemberName_comma (spaced.skipBlanks_chars rest)]
  exact readName_encode row.name _

end Row

/-- What stands behind a member of an object: the other members, each behind a comma, and the
closing brace. -/
def laterMembers (closing : List Char) : List Row → List Char
  | [] => closing ++ ['\x7d']
  | row :: rows => ',' :: (row.chars ++ laterMembers closing rows)

theorem endsNumeral_laterMembers {closing : List Char} (blank : AllBlank closing)
    (rows : List Row) (rest : List Char) : EndsNumeral (laterMembers closing rows ++ rest) := by
  cases rows with
  | nil =>
      rw [laterMembers, List.append_assoc]
      exact endsNumeral_append blank (endsNumeral_cons (by decide) rest)
  | cons row rows => exact endsNumeral_cons (by decide) _

/-- Members joined by commas, and what closes the object behind them. -/
theorem intercalate_rows (closing : List Char) (row : Row) (rows : List Row) :
    List.intercalate [','] ((row :: rows).map Row.chars) ++ (closing ++ ['\x7d']) =
      row.chars ++ laterMembers closing rows := by
  induction rows generalizing row with
  | nil => simp [laterMembers]
  | cons next rows ih =>
      have joined := ih next
      simp only [List.map_cons] at joined ⊢
      rw [List.intercalate_cons_cons, List.append_assoc, List.append_assoc, joined, laterMembers]
      rfl

theorem length_laterMembers (closing : List Char) (rows : List Row) :
    rows.length + 1 ≤ (laterMembers closing rows).length := by
  induction rows with
  | nil => simp [laterMembers]
  | cons row rows ih =>
      simp only [laterMembers, List.length_cons, List.length_append]
      omega

section Members

variable {σ : Type} {member : σ → String → List Char → Except Fault (σ × List Char)}

/-- The members' own reader takes them in turn and leads from the first state to the last.  What
follows a member is left open but for its first character, which must not go on with a number. -/
inductive Filled (member : σ → String → List Char → Except Fault (σ × List Char)) :
    σ → List Row → σ → Prop
  | done {state : σ} : Filled member state [] state
  | more {state next final : σ} {row : Row} {rows : List Row} (spaced : row.IsSpaced)
      (reads : ∀ rest, EndsNumeral rest →
        member state row.name (row.text ++ rest) = .ok (next, rest))
      (later : Filled member next rows final) : Filled member state (row :: rows) final

/-- A member whose name has been read, and everything behind it.  Whether a comma was read before
the name makes no difference from here on. -/
theorem readMembers_of_name {isFirst : Bool} {state next final : σ} {row : Row} {rows : List Row}
    {closing chars rest : List Char} {rounds : Nat} (blank : AllBlank closing)
    (spaced : row.IsSpaced)
    (named : readMemberName isFirst chars =
      .ok (some row.name, row.text ++ (row.after ++ (laterMembers closing rows ++ rest))))
    (reads : ∀ rest, EndsNumeral rest → member state row.name (row.text ++ rest) = .ok (next, rest))
    (others : readMembers member rounds false next
      (row.after ++ (laterMembers closing rows ++ rest)) = .ok (final, rest)) :
    readMembers member (rounds + 1) isFirst state chars = .ok (final, rest) := by
  have ends := endsNumeral_append spaced.2 (endsNumeral_laterMembers blank rows rest)
  simp only [readMembers, named, reads _ ends, others]

theorem Filled.readMembers_later {state final : σ} {rows : List Row}
    (filled : Filled member state rows final) {closing : List Char} (blank : AllBlank closing)
    {gap : List Char} (spaced : AllBlank gap) (rest : List Char) {rounds : Nat}
    (enough : rows.length < rounds) :
    readMembers member rounds false state (gap ++ (laterMembers closing rows ++ rest)) =
      .ok (final, rest) := by
  induction filled generalizing gap rounds with
  | done =>
      obtain ⟨fewer, rfl⟩ : ∃ fewer, rounds = fewer + 1 := ⟨rounds - 1, by simp at enough; omega⟩
      have closes : readMemberName false (gap ++ (laterMembers closing [] ++ rest)) =
          .ok (none, rest) := by
        rw [readMemberName, skipBlanks_append spaced, laterMembers, List.append_assoc,
          skipBlanks_append blank, List.cons_append, skipBlanks_cons (by decide)]
        rfl
      simp only [readMembers, closes]
  | @more state next final row rows around reads later ih =>
      obtain ⟨fewer, rfl⟩ : ∃ fewer, rounds = fewer + 1 := ⟨rounds - 1, by simp at enough; omega⟩
      have others := ih around.2 (by simp at enough; omega : rows.length < fewer)
      refine readMembers_of_name blank around ?_ reads others
      rw [laterMembers, List.cons_append, List.append_assoc]
      exact around.readMemberName_later spaced _

/-- The members of an object are read, the opening brace being read already.  The reader needs one
round for each of them and one for the brace. -/
theorem Filled.readMembers {state final : σ} {row : Row} {rows : List Row}
    (filled : Filled member state (row :: rows) final) {closing : List Char}
    (blank : AllBlank closing) (rest : List Char) {rounds : Nat}
    (enough : rows.length + 1 < rounds) :
    readMembers member rounds true state (row.chars ++ (laterMembers closing rows ++ rest)) =
      .ok (final, rest) := by
  obtain ⟨fewer, rfl⟩ : ∃ fewer, rounds = fewer + 1 := ⟨rounds - 1, by omega⟩
  cases filled with
  | more around reads later =>
      have others := later.readMembers_later blank around.2 rest (by omega : rows.length < fewer)
      exact readMembers_of_name blank around (around.readMemberName_first _) reads others

/-- Every member takes up room, so as many rounds as there are characters suffice. -/
theorem Filled.readMembers_all {state final : σ} {row : Row} {rows : List Row}
    (filled : Filled member state (row :: rows) final) {closing : List Char}
    (blank : AllBlank closing) (rest : List Char) :
    Json.readMembers member (row.chars ++ (laterMembers closing rows ++ rest)).length true state
      (row.chars ++ (laterMembers closing rows ++ rest)) = .ok (final, rest) := by
  have named : 1 ≤ row.chars.length := by
    simp only [Row.chars, encode, List.length_append, List.length_cons]
    omega
  have others := length_laterMembers closing rows
  refine filled.readMembers blank rest ?_
  simp only [List.length_append]
  omega

end Members

end Json
end VolumeCache
