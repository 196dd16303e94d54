import VolumeCache.Proofs.Preferences

namespace VolumeCache
namespace Preferences

/-!
# Damaged preference files

A file that is no object of texts can be damaged in two ways: its bytes are a text that does not
parse, or they are no text at all.  A text that does not parse is replaced by the next change, and
that is said; nothing of what it held is found afterwards.  Bytes that are no text end the attempt
like a file that cannot be read, and the file stays as it is.  The only thing assumed beyond the
damage is that the new content can be written beside the file.
-/

/-! ## Damage -/

/-- The bytes are not those of an object of texts.  They may be those of a text or not, which makes
all the difference to a change. -/
def Damaged (content : ByteArray) : Prop :=
  ∀ text values, content = text.toUTF8 → Values.ofText text ≠ .ok values

/-- The bytes of a text are read as this text and no other. -/
theorem fromUTF8?_eq_some_iff {content : ByteArray} {text : String} :
    String.fromUTF8? content = some text ↔ content = text.toUTF8 := by
  unfold String.fromUTF8?
  constructor
  · intro read
    split at read
    · cases read
      rfl
    · cases read
  · rintro rfl
    exact dif_pos text.isValidUTF8

theorem damaged_of_ofText {text : String} {fault : Json.Fault}
    (refused : Values.ofText text = .error fault) : Damaged text.toUTF8 := by
  intro other values same parsed
  have equal : text = other := String.toByteArray_inj.mp same
  rw [← equal, refused] at parsed
  cases parsed

theorem damaged_of_notText {content : ByteArray} (noText : ∀ text : String, content ≠ text.toUTF8) :
    Damaged content :=
  fun text _ same => absurd same (noText text)

theorem readFile_notText {tree : FileTree} {path : Path} {content : ByteArray}
    (stands : tree.read path = .ok content) (noText : ∀ text : String, content ≠ text.toUTF8) :
    readFile tree path = .error (.preferences .notText) := by
  have none : String.fromUTF8? content = none := by
    cases read : String.fromUTF8? content with
    | none => rfl
    | some text => exact absurd (fromUTF8?_eq_some_iff.mp read) (noText text)
  simp only [readFile, FileTree.readText, stands, none]

theorem readFile_damagedText {tree : FileTree} {path : Path} {text : String}
    (stands : tree.read path = .ok text.toUTF8) (damaged : Damaged text.toUTF8) :
    ∃ fault, Values.ofText text = .error fault ∧
      readFile tree path = .error (.serialization fault) := by
  cases parsed : Values.ofText text with
  | ok values => exact absurd parsed (damaged text values rfl)
  | error fault =>
      refine ⟨fault, rfl, ?_⟩
      simp only [readFile, FileTree.readText_of_read stands, parsed]

/-! ## Replacement -/

theorem notices_replaceFile {tree : FileTree} {path : Path} {values : Values} {saved : Notice}
    {said : List Notice} (done : (replaceFile tree path values saved said).result = .ok ()) :
    (replaceFile tree path values saved said).notices = said ++ [saved] := by
  unfold replaceFile at done ⊢
  split at done
  · cases done
  split at done
  · cases done
  rfl

/-- Let a damaged file stand at the path, and a file could be put where the new content is written.
If the bytes of the file are a text, every change succeeds, and afterwards only the text that it
kept is found; the damage is said.  If they are no text, every change is refused and leaves all as
it was. -/
theorem damaged_text_replaced {path : Path} {tree : FileTree} {content : ByteArray}
    (stands : tree.read path = .ok content) (damaged : Damaged content)
    (room : ∃ place, tree.Takes (scratchPath path) place) (name value : String) :
    (∀ text : String, content = text.toUTF8 → ∃ fault later,
      Values.ofText text = .error fault ∧
      (file path tree).set name value =
        ⟨.ok (), .file path later, [.corruptPreferences fault, .preferenceSaved name]⟩ ∧
      ∀ other, (file path later).get other =
        .ok (if other = name then some value else none)) ∧
    ((∀ text : String, content ≠ text.toUTF8) →
      (file path tree).set name value =
        ⟨.error (.preferences .notText), .file path tree, []⟩) := by
  constructor
  · rintro text rfl
    rcases readFile_damagedText stands damaged with ⟨fault, refused, unread⟩
    have replaced : (file path tree).set name value = replaceFile tree path
        (Table.empty.insert name value) (.preferenceSaved name) [.corruptPreferences fault] := by
      simp only [set, setInFile, unread]
    rcases (Replaceable.of_read stands room).replaceFile (Table.empty.insert name value)
      (.preferenceSaved name) [.corruptPreferences fault] with ⟨done, later, left, -⟩
    have said := notices_replaceFile done
    have held := values_replaceFile done
    rw [left] at held
    refine ⟨fault, later, refused, ?_, fun other => ?_⟩
    · rw [replaced, ← left, ← done]
      exact congrArg (Change.mk _ _) said
    · rw [get_of_values held, Values.get?_sorted, Table.get?_insert, Table.get?_empty]
  · intro noText
    simp only [set, setInFile, readFile_notText stands noText]

def holding (content : ByteArray) : FileTree where
  entries := Table.empty.insert ["p"] (.file content)
  home := []

theorem holding_room (content : ByteArray) :
    ∃ place, (holding content).Takes (scratchPath ⟨["p"]⟩) place :=
  ⟨["p.tmp"], rfl, rfl, fun stands => by cases stands⟩

/-- An object that is never closed is replaced. -/
theorem damaged_text_replaced_unclosed :
    (holding "\x7b corrupt".toUTF8).read ⟨["p"]⟩ = .ok "\x7b corrupt".toUTF8 ∧
      Damaged "\x7b corrupt".toUTF8 ∧
      (∃ place, (holding "\x7b corrupt".toUTF8).Takes (scratchPath ⟨["p"]⟩) place) ∧
      ∃ fault later, (file ⟨["p"]⟩ (holding "\x7b corrupt".toUTF8)).set "a" "1" =
          ⟨.ok (), .file ⟨["p"]⟩ later, [.corruptPreferences fault, .preferenceSaved "a"]⟩ ∧
        (file ⟨["p"]⟩ later).get "a" = .ok (some "1") ∧
        (file ⟨["p"]⟩ later).get "b" = .ok none := by
  have stands : (holding "\x7b corrupt".toUTF8).read ⟨["p"]⟩ = .ok "\x7b corrupt".toUTF8 := rfl
  have damaged : Damaged "\x7b corrupt".toUTF8 := damaged_of_ofText rfl
  have room := holding_room "\x7b corrupt".toUTF8
  rcases (damaged_text_replaced stands damaged room "a" "1").1 _ rfl with
    ⟨fault, later, -, changed, found⟩
  exact ⟨stands, damaged, room, fault, later, changed, found "a", found "b"⟩

def strayByte : ByteArray := ⟨#[0xff]⟩

theorem strayByte_notText (text : String) : strayByte ≠ text.toUTF8 := by
  intro same
  have none : String.fromUTF8? strayByte = none := by decide +kernel
  rw [fromUTF8?_eq_some_iff.mpr same] at none
  cases none

/-- A file that holds such a byte is damaged, and yet no change replaces it.  The file stays in the
way of every later change. -/
theorem undecodable_file_kept :
    (holding strayByte).read ⟨["p"]⟩ = .ok strayByte ∧ Damaged strayByte ∧
      (∃ place, (holding strayByte).Takes (scratchPath ⟨["p"]⟩) place) ∧
      ((file ⟨["p"]⟩ (holding strayByte)).set "a" "1").result =
        .error (.preferences .notText) ∧
      ((file ⟨["p"]⟩ (holding strayByte)).set "a" "1").after.get "a" =
        .error (.preferences .notText) := by
  have stands : (holding strayByte).read ⟨["p"]⟩ = .ok strayByte := rfl
  have unread := readFile_notText stands strayByte_notText
  have refused : (file ⟨["p"]⟩ (holding strayByte)).set "a" "1" =
      ⟨.error (.preferences .notText), .file ⟨["p"]⟩ (holding strayByte), []⟩ := by
    simp only [set, setInFile, unread]
  refine ⟨stands, damaged_of_notText strayByte_notText, holding_room strayByte, ?_, ?_⟩
  · rw [refused]
  · rw [refused, get, values, unread]
    rfl

end Preferences
end VolumeCache
