import VolumeCache.Preferences.Store
import VolumeCache.Proofs.Members
import VolumeCache.Proofs.Tables

namespace VolumeCache

/-!
# Preferences and what is kept of them

A text that is kept under a name is found under it, in memory and in a file, and the texts kept
under other names are not touched; so of several changes the last one under each name counts.  For a
file that takes a way through its document and through the tree of files: what is written is read
back, and a rename moves it to where it is looked for.  Nothing is said here about changes that
fail.
-/

/-! ## Named texts -/

namespace Values

def sorted (values : Values) : Values where
  rows := values.sortedRows
  distinct := ((List.mergeSort_perm _ _).map Prod.fst).nodup_iff.mpr values.distinct

theorem get?_sorted (values : Values) (name : String) :
    values.sorted.get? name = values.get? name := by
  ext text
  rw [Table.get?_eq_some_iff, Table.get?_eq_some_iff]
  exact (List.mergeSort_perm _ _).mem_iff

def row (entry : String × String) : Json.Row where
  before := ['\n', ' ', ' ']
  name := entry.1
  text := ':' :: ' ' :: Json.encode entry.2

theorem isSpaced_row (entry : String × String) : (row entry).IsSpaced := by
  simp [Json.Row.IsSpaced, Json.AllBlank, row, Json.isBlank]

theorem readMember_row (values : Values) (entry : String × String) (rest : List Char) :
    readMember values (row entry).name ((row entry).text ++ rest) =
      .ok (values.insert entry.1 entry.2, rest) := by
  have colon := Json.readColon_append Json.allBlank_nil (' ' :: Json.encode entry.2 ++ rest)
  have blank : Json.AllBlank [' '] := by simp [Json.AllBlank, Json.isBlank]
  have value := (Json.readToken_append blank _).trans (Json.readToken_encode entry.2 rest)
  simp only [List.cons_append, List.nil_append] at colon value
  simp only [row, List.cons_append, readMember, colon, Json.readAs, value, Json.Token.asText]

/-- Texts under names that are new are read one after the other and come in behind the others.
Where a name stands twice in a document, the statement does not apply. -/
theorem filled_entries {values final : Values} {entries : List (String × String)}
    (rows : final.rows = values.rows ++ entries) :
    Json.Filled readMember values (entries.map row) final := by
  induction entries generalizing values with
  | nil =>
      have same : values = final := Table.ext_rows (by simpa using rows.symm)
      exact same ▸ .done
  | cons entry later ih =>
      have missing : values.get? entry.1 = none := by
        have distinct := final.distinct
        rw [rows, List.map_append, List.nodup_append] at distinct
        rw [Table.get?_eq_none_iff]
        intro listed
        exact distinct.2.2 _ listed entry.1 (by simp) rfl
      refine .more (isSpaced_row entry) (fun rest _ => readMember_row values entry rest) (ih ?_)
      rw [Table.rows_insert_of_get?_none missing, rows]
      simp

/-- The document of named texts is read back as these texts, in the order of their names. -/
theorem ofText_text (values : Values) : ofText values.text = .ok values.sorted := by
  have filled : Json.Filled readMember Table.empty (values.sortedRows.map row) values.sorted :=
    filled_entries rfl
  have brace : ∀ rest, Json.readToken ('\x7b' :: rest) = .ok (.map, rest) := fun rest => rfl
  have object : readObject values.text.toList = .ok (values.sorted, []) := by
    rw [readObject, text, String.toList_ofList, Json.spreadObject]
    cases rows : values.sortedRows with
    | nil =>
        have none : values.sorted = Table.empty := Table.ext_rows rows
        rw [none]
        rfl
    | cons entry later =>
        rw [rows, List.map_cons] at filled
        have blank : Json.AllBlank ['\n'] := by simp [Json.AllBlank, Json.isBlank]
        have whole := filled.readMembers_all blank []
        rw [List.append_nil, ← Json.intercalate_rows] at whole
        have members : ((entry :: later).map fun row => Json.spreadMember row.1 (Json.encode row.2))
            = (row entry :: later.map row).map Json.Row.chars := by
          simp [Json.spreadMember, row, Json.Row.chars]
        rw [members, if_neg (by simp), brace]
        exact whole
  rw [ofText, object]
  rfl

end Values

/-! ## Files -/

namespace FileTree

/-- Every directory of one tree is a directory of the other, and paths start at the same place.
Files may differ in any way, so a path leads to the same place in both as long as it leads through
directories. -/
structure KeepsWays (before after : FileTree) : Prop where
  home : after.home = before.home
  directory : ∀ place, before.entry? place = some .directory →
    after.entry? place = some .directory

namespace KeepsWays

variable {before after : FileTree} (keeps : KeepsWays before after)
include keeps

theorem start (path : Path) : after.start path = before.start path := by
  rw [FileTree.start, FileTree.start, keeps.home]

theorem follow {start final : Place} {steps : List Step}
    (leads : before.follow start steps = .ok final) : after.follow start steps = .ok final := by
  induction steps generalizing start with
  | nil => exact leads
  | cons step later ih =>
      cases step with
      | here => exact ih leads
      | up => exact ih leads
      | down name =>
          simp only [FileTree.follow] at leads ⊢
          split at leads
          · cases leads
          rename_i short
          rw [if_neg short]
          cases stands : before.entry? (start ++ [name]) with
          | none => simp [stands] at leads
          | some entry =>
              cases entry with
              | file content => simp [stands] at leads
              | directory =>
                  simp only [stands] at leads
                  simp only [keeps.directory _ stands]
                  exact ih leads

theorem locate {path : Path} {place : Place} (names : before.locate path = .ok (some place)) :
    after.locate path = .ok (some place) := by
  unfold FileTree.locate at names ⊢
  rw [keeps.start]
  split at names
  · cases names
  rename_i plain
  split at names
  · cases names
  rename_i short
  rw [if_neg plain, if_neg short]
  cases leads : before.follow (before.start path) path.steps.dropLast with
  | error fault => simp [leads] at names
  | ok directory =>
      rw [keeps.follow leads]
      simpa [leads] using names

end KeepsWays

/-! ### A file more, a file less -/

theorem entry?_insert {tree : FileTree} {place : Place} (below : place ≠ []) (entry : FileEntry)
    (other : Place) :
    entry? { tree with entries := tree.entries.insert place entry } other =
      if other = place then some entry else tree.entry? other := by
  unfold entry?
  rw [Table.get?_insert]
  by_cases root : other = []
  · rw [if_pos root, if_pos root, if_neg (fun same => below (same.symm.trans root))]
  · rw [if_neg root, if_neg root]

theorem entry?_erase {tree : FileTree} {place : Place} (below : place ≠ []) (other : Place) :
    entry? { tree with entries := tree.entries.erase place } other =
      if other = place then none else tree.entry? other := by
  unfold entry?
  rw [Table.get?_erase]
  by_cases root : other = []
  · rw [if_pos root, if_pos root, if_neg (fun same => below (same.symm.trans root))]
  · rw [if_neg root, if_neg root]

theorem below_of_noDirectory {tree : FileTree} {place : Place}
    (noDirectory : tree.entry? place ≠ some .directory) : place ≠ [] := by
  rintro rfl
  exact noDirectory rfl

theorem keepsWays_insert {tree : FileTree} {place : Place}
    (noDirectory : tree.entry? place ≠ some .directory) (content : ByteArray) :
    KeepsWays tree { tree with entries := tree.entries.insert place (.file content) } := by
  refine ⟨rfl, fun other stands => ?_⟩
  have different : other ≠ place := by
    rintro rfl
    exact noDirectory stands
  rw [entry?_insert (below_of_noDirectory noDirectory), if_neg different, stands]

theorem keepsWays_erase {tree : FileTree} {place : Place}
    (noDirectory : tree.entry? place ≠ some .directory) :
    KeepsWays tree { tree with entries := tree.entries.erase place } := by
  refine ⟨rfl, fun other stands => ?_⟩
  have different : other ≠ place := by
    rintro rfl
    exact noDirectory stands
  rw [entry?_erase (below_of_noDirectory noDirectory), if_neg different, stands]

/-! ### Reading, writing, renaming -/

/-- A file is read exactly where one stands and no directory is asked for. -/
theorem read_eq_ok_iff {tree : FileTree} {path : Path} {content : ByteArray} :
    tree.read path = .ok content ↔ path.endsInSlash = false ∧
      ∃ place, tree.locate path = .ok (some place) ∧
        tree.entry? place = some (.file content) := by
  unfold FileTree.read
  cases tree.locate path with
  | error fault => simp
  | ok found =>
      cases found with
      | none => simp
      | some place =>
          cases stands : tree.entry? place with
          | none => simp [stands]
          | some entry =>
              cases entry with
              | directory => simp [stands]
              | file held => cases slash : path.endsInSlash <;> simp [stands]

/-- The path names a place where a file stands or could be put.  The directories on the way to it
are there; whether a file stands there already is left open. -/
structure Takes (tree : FileTree) (path : Path) (place : Place) : Prop where
  noSlash : path.endsInSlash = false
  names : tree.locate path = .ok (some place)
  noDirectory : tree.entry? place ≠ some .directory

/-- What puts a file at a path needs a place that the path names and where no directory stands, and
nothing else. -/
theorem target_eq_ok_iff {α : Type} {tree : FileTree} {path : Path}
    {unnamed slash taken : FileFault} {outcome : Place → α} {result : α} :
    (match tree.locate path with
      | .error fault => .error fault
      | .ok none => .error unnamed
      | .ok (some place) =>
          if path.endsInSlash then .error slash
          else
            match tree.entry? place with
            | some .directory => .error taken
            | _ => .ok (outcome place)) = Except.ok result ↔
      ∃ place, tree.Takes path place ∧ result = outcome place := by
  constructor
  · intro done
    cases names : tree.locate path with
    | error fault => simp [names] at done
    | ok found =>
        cases found with
        | none => simp [names] at done
        | some place =>
            simp only [names] at done
            split at done
            · cases done
            rename_i noSlash
            split at done
            · cases done
            rename_i noDirectory
            cases done
            exact ⟨place, ⟨by simpa using noSlash, names, noDirectory⟩, rfl⟩
  · rintro ⟨place, ⟨noSlash, names, noDirectory⟩, rfl⟩
    simp only [names, noSlash, Bool.false_eq_true, if_false]

/-- A write puts its content where no directory stands.  The directory in which the file is to stand
must be there, and no other entry is touched. -/
theorem write_eq_ok_iff {tree written : FileTree} {path : Path} {content : ByteArray} :
    tree.write path content = .ok written ↔ ∃ place, tree.Takes path place ∧
      written = { tree with entries := tree.entries.insert place (.file content) } :=
  target_eq_ok_iff

/-- A file is moved to where no directory stands. -/
theorem moveFile_eq_ok_iff {tree moved : FileTree} {source : Place} {content : ByteArray}
    {target : Path} :
    tree.moveFile source content target = .ok moved ↔ ∃ place, tree.Takes target place ∧
      moved =
        { tree with entries := (tree.entries.erase source).insert place (.file content) } :=
  target_eq_ok_iff

namespace Takes

variable {tree : FileTree} {path : Path} {place : Place} (takes : tree.Takes path place)
include takes

theorem insert {other : Place} (noDirectory : tree.entry? other ≠ some .directory)
    (content : ByteArray) :
    Takes { tree with entries := tree.entries.insert other (.file content) } path place where
  noSlash := takes.noSlash
  names := (keepsWays_insert noDirectory content).locate takes.names
  noDirectory := by
    rw [entry?_insert (below_of_noDirectory noDirectory)]
    split
    · simp
    · exact takes.noDirectory

theorem erase {other : Place} (noDirectory : tree.entry? other ≠ some .directory) :
    Takes { tree with entries := tree.entries.erase other } path place where
  noSlash := takes.noSlash
  names := (keepsWays_erase noDirectory).locate takes.names
  noDirectory := by
    rw [entry?_erase (below_of_noDirectory noDirectory)]
    split
    · simp
    · exact takes.noDirectory

theorem read_insert (content : ByteArray) :
    read { tree with entries := tree.entries.insert place (.file content) } path =
      .ok content := by
  refine read_eq_ok_iff.mpr
    ⟨takes.noSlash, place, (takes.insert takes.noDirectory content).names, ?_⟩
  rw [entry?_insert (below_of_noDirectory takes.noDirectory), if_pos rfl]

end Takes

theorem read_write {tree written : FileTree} {path : Path} {content : ByteArray}
    (done : tree.write path content = .ok written) : written.read path = .ok content := by
  rcases write_eq_ok_iff.mp done with ⟨place, takes, rfl⟩
  exact takes.read_insert content

theorem read_rename {tree renamed : FileTree} {source target : Path} {content : ByteArray}
    (done : tree.rename source target = .ok renamed) (stood : tree.read source = .ok content) :
    renamed.read target = .ok content := by
  rcases read_eq_ok_iff.mp stood with ⟨-, origin, names, stands⟩
  have noOrigin : tree.entry? origin ≠ some .directory := by simp [stands]
  simp only [rename, names, stood] at done
  rcases moveFile_eq_ok_iff.mp done with ⟨place, takes, rfl⟩
  exact (takes.erase noOrigin).read_insert content

theorem readText_of_read {tree : FileTree} {path : Path} {text : String}
    (read : tree.read path = .ok text.toUTF8) : tree.readText path = .ok text := by
  have valid : String.fromUTF8? text.toUTF8 = some text := dif_pos text.isValidUTF8
  rw [readText, read]
  simp only [valid]

end FileTree

/-! ## Changes that succeed -/

namespace Preferences

/-- The texts a change starts from: content that cannot be read counts for none.  This is how a
change recovers from content that is no object of texts; from content that is no text it does not.
-/
def texts (preferences : Preferences) : Values :=
  match preferences.values with
  | .ok values => values
  | .error _ => Table.empty

/-- A file that has been replaced holds the texts it was replaced by. -/
theorem values_replaceFile {tree : FileTree} {path : Path} {values : Values} {saved : Notice}
    {said : List Notice} (done : (replaceFile tree path values saved said).result = .ok ()) :
    (replaceFile tree path values saved said).after.values = .ok values.sorted := by
  unfold replaceFile at done ⊢
  cases wrote : tree.write (scratchPath path) values.text.toUTF8 with
  | error fault =>
      rw [wrote] at done
      cases done
  | ok written =>
      simp only [wrote] at done ⊢
      cases moved : written.rename (scratchPath path) path with
      | error fault => simp [moved] at done
      | ok renamed =>
          have read := FileTree.read_rename moved (FileTree.read_write wrote)
          simp only [Preferences.values, readFile, FileTree.readText_of_read read,
            Values.ofText_text]

/-- A change in a file that succeeded replaced the texts it started from, with one more.  What was
said of damage on the way is left open. -/
theorem setInFile_of_ok {tree : FileTree} {path : Path} {name value : String}
    (done : (setInFile tree path name value).result = .ok ()) :
    ∃ said, setInFile tree path name value =
      replaceFile tree path ((file path tree).texts.insert name value) (.preferenceSaved name)
        said := by
  unfold setInFile at done ⊢
  simp only [texts, values]
  split at done
  · rename_i values found
    exact ⟨[], by simp [found]⟩
  · rename_i fault found
    exact ⟨[.corruptPreferences fault], by simp [found]⟩
  · cases done

/-- After a change that succeeded a text is found under its name, and under every other name what
was found before. -/
theorem values_set {preferences : Preferences} {name value : String}
    (done : (preferences.set name value).result = .ok ()) :
    ∃ values, (preferences.set name value).after.values = .ok values ∧
      ∀ other, values.get? other =
        if other = name then some value else preferences.texts.get? other := by
  cases preferences with
  | memory values =>
      exact ⟨values.insert name value, rfl, fun other => values.get?_insert name other value⟩
  | file path tree =>
      simp only [set] at done ⊢
      rcases setInFile_of_ok done with ⟨said, replaced⟩
      rw [replaced] at done ⊢
      refine ⟨_, values_replaceFile done, fun other => ?_⟩
      rw [Values.get?_sorted, Table.get?_insert]

theorem after_set_of_file {path : Path} {tree : FileTree} {name value : String}
    (done : ((file path tree).set name value).result = .ok ()) :
    ∃ later, ((file path tree).set name value).after = .file path later := by
  rcases setInFile_of_ok done with ⟨said, replaced⟩
  simp only [set, replaced, replaceFile]
  split
  · exact ⟨_, rfl⟩
  · split <;> exact ⟨_, rfl⟩

/-! ## Changes one after the other -/

/-- The file at the path is missing, or it holds an object of texts.  In every other case the texts
cannot be asked for, see `Damaged` and `FileTree.read`. -/
inductive Legible (path : Path) (tree : FileTree) : Prop where
  | missing (absent : tree.readText path = .error .notFound)
  | holds {text : String} {values : Values} (stands : tree.readText path = .ok text)
      (object : Values.ofText text = .ok values)

theorem Legible.values {path : Path} {tree : FileTree} (legible : Legible path tree) :
    (file path tree).values = .ok (file path tree).texts := by
  cases legible with
  | missing absent => simp only [texts, Preferences.values, readFile, absent]
  | holds stands object => simp only [texts, Preferences.values, readFile, stands, object]

theorem get_of_values {preferences : Preferences} {values : Values}
    (held : preferences.values = .ok values) (name : String) :
    preferences.get name = .ok (values.get? name) := by
  rw [get, held]
  rfl

/-- What is found after a change that succeeded, if the texts could be asked for before.  The
preferences may be kept in memory as well as in a file. -/
theorem get_set {preferences : Preferences} {name value : String}
    (readable : preferences.values = .ok preferences.texts)
    (done : (preferences.set name value).result = .ok ()) (other : String) :
    (preferences.set name value).after.get other =
      if other = name then .ok (some value) else preferences.get other := by
  rcases values_set done with ⟨values, held, found⟩
  rw [get_of_values held, found, get_of_values readable]
  split <;> rfl

theorem readable_set {preferences : Preferences} {name value : String}
    (done : (preferences.set name value).result = .ok ()) :
    (preferences.set name value).after.values =
      .ok (preferences.set name value).after.texts := by
  rcases values_set done with ⟨values, held, -⟩
  rw [texts, held]

/-- The preferences after texts have been kept one after the other, up to the first change that
does not succeed. -/
def setAll (preferences : Preferences) : List (String × String) → Except CacheError Preferences
  | [] => .ok preferences
  | (name, value) :: later =>
      match (preferences.set name value).result with
      | .error error => .error error
      | .ok () => (preferences.set name value).after.setAll later

/-- The text that was kept last under a name.  None, if nothing was kept under it. -/
def lastValue? (changes : List (String × String)) (name : String) : Option String :=
  changes.reverse.lookup name

theorem lastValue?_cons (change : String × String) (later : List (String × String))
    (name : String) :
    lastValue? (change :: later) name =
      (lastValue? later name).or (if name = change.1 then some change.2 else none) := by
  rcases change with ⟨kept, value⟩
  rw [lastValue?, List.reverse_cons, List.lookup_append, ← lastValue?]
  congr 1
  by_cases same : name = kept
  · simp [same]
  · simp [List.lookup_cons, same, beq_eq_false_iff_ne.mpr same]

/-- Under every name the text is found that was kept last, or else what was found at first. -/
theorem get_setAll {changes : List (String × String)} {preferences final : Preferences}
    (readable : preferences.values = .ok preferences.texts)
    (done : preferences.setAll changes = .ok final) (name : String) :
    final.get name =
      match lastValue? changes name with
      | some value => .ok (some value)
      | none => preferences.get name := by
  induction changes generalizing preferences with
  | nil =>
      cases done
      rfl
  | cons change later ih =>
      rw [setAll] at done
      split at done
      · cases done
      rename_i succeeded
      rw [ih (readable_set succeeded) done, lastValue?_cons]
      cases lastValue? later name with
      | some value => rfl
      | none =>
          rw [Option.none_or, get_set readable succeeded]
          by_cases same : name = change.1
          · rw [if_pos same, if_pos same]
          · rw [if_neg same, if_neg same]

theorem file_of_setAll {changes : List (String × String)} {path : Path} {tree : FileTree}
    {final : Preferences} (done : (file path tree).setAll changes = .ok final) :
    ∃ later, final = .file path later := by
  induction changes generalizing tree with
  | nil =>
      cases done
      exact ⟨tree, rfl⟩
  | cons change later ih =>
      rw [setAll] at done
      split at done
      · cases done
      rename_i succeeded
      rcases after_set_of_file succeeded with ⟨changed, left⟩
      exact ih (left ▸ done)

/-- A file can be put where the new content is written, and where it is moved to.  Both are asked of
the tree before the change. -/
structure Replaceable (path : Path) (tree : FileTree) : Prop where
  scratch : ∃ place, tree.Takes (scratchPath path) place
  target : ∃ place, tree.Takes path place

theorem Replaceable.of_read {path : Path} {tree : FileTree} {content : ByteArray}
    (stands : tree.read path = .ok content)
    (room : ∃ place, tree.Takes (scratchPath path) place) : Replaceable path tree := by
  rcases FileTree.read_eq_ok_iff.mp stands with ⟨noSlash, place, names, file⟩
  exact ⟨room, place, noSlash, names, by simp [file]⟩

theorem Replaceable.replaceFile {path : Path} {tree : FileTree} (ready : Replaceable path tree)
    (values : Values) (saved : Notice) (said : List Notice) :
    (replaceFile tree path values saved said).result = .ok () ∧ ∃ later,
      (replaceFile tree path values saved said).after = .file path later ∧
        Replaceable path later := by
  rcases ready with ⟨⟨beside, scratch⟩, place, target⟩
  let content := values.text.toUTF8
  let written : FileTree := { tree with entries := tree.entries.insert beside (.file content) }
  have wrote : tree.write (scratchPath path) content = .ok written :=
    FileTree.write_eq_ok_iff.mpr ⟨beside, scratch, rfl⟩
  have besideStill : written.Takes (scratchPath path) beside :=
    scratch.insert scratch.noDirectory content
  have placeStill : written.Takes path place := target.insert scratch.noDirectory content
  have moved : written.rename (scratchPath path) path = .ok
      { written with entries := (written.entries.erase beside).insert place (.file content) } := by
    rw [FileTree.rename, besideStill.names, FileTree.read_write wrote]
    exact FileTree.moveFile_eq_ok_iff.mpr ⟨place, placeStill, rfl⟩
  have emptied := placeStill.erase besideStill.noDirectory
  have again : Replaceable path
      { written with entries := (written.entries.erase beside).insert place (.file content) } :=
    ⟨⟨beside, (besideStill.erase besideStill.noDirectory).insert emptied.noDirectory content⟩,
      place, emptied.insert emptied.noDirectory content⟩
  simp only [Preferences.replaceFile, content, wrote, moved]
  exact ⟨trivial, _, rfl, again⟩

/-- Where one change can be made, as many can be made as one likes. -/
theorem setAll_of_replaceable {path : Path} {tree : FileTree} (ready : Replaceable path tree)
    (readable : (file path tree).values = .ok (file path tree).texts)
    (changes : List (String × String)) :
    ∃ later, (file path tree).setAll changes = .ok (.file path later) := by
  induction changes generalizing tree with
  | nil => exact ⟨tree, rfl⟩
  | cons change rest ih =>
      have replaced : (file path tree).set change.1 change.2 = replaceFile tree path
          ((file path tree).texts.insert change.1 change.2) (.preferenceSaved change.1) [] := by
        rw [values] at readable
        simp only [set, setInFile, readable]
      rcases ready.replaceFile _ _ _ with ⟨done, later, left, again⟩
      rw [← replaced] at done left
      rcases ih again (left ▸ readable_set done) with ⟨final, followed⟩
      exact ⟨final, by simp only [setAll, done, left, followed]⟩

/-- Let the file at a path be missing or hold an object of texts.  After a change that succeeded,
the text is found under its name by whoever opens the path then, and under every other name exactly
what was found before.  So after any number of changes that succeeded, every name has the text that
was kept last under it, and a name under which nothing was kept has what it had at first. -/
theorem last_set_is_got {path : Path} {tree : FileTree} (legible : Legible path tree) :
    (∀ name value, ((file path tree).set name value).result = .ok () →
      ∃ later, ((file path tree).set name value).after = .file path later ∧
        (file path later).get name = .ok (some value) ∧
        ∀ other, other ≠ name → (file path later).get other = (file path tree).get other) ∧
    ∀ changes final, (file path tree).setAll changes = .ok final →
      ∃ later, final = .file path later ∧ ∀ name, (file path later).get name =
        match lastValue? changes name with
        | some value => .ok (some value)
        | none => (file path tree).get name := by
  constructor
  · intro name value done
    rcases after_set_of_file done with ⟨later, left⟩
    have found := get_set legible.values done
    rw [left] at found
    refine ⟨later, left, (found name).trans (if_pos rfl), fun other different => ?_⟩
    exact (found other).trans (if_neg different)
  · intro changes final done
    rcases file_of_setAll done with ⟨later, rfl⟩
    exact ⟨later, rfl, get_setAll legible.values done⟩

/-- A file in which one name stands twice, and one text has a quote and a character that is written
as a number. -/
def scribbled : FileTree where
  entries := Table.empty.insert ["p"] (.file
    "\x7b\"b\":\"1\", \"a\" : \"\\u00e9\\\"\",\"b\":\"2\"\x7d".toUTF8)
  home := []

/-- A text with a quote, a backslash, a control character and one outside the first plane, under the
empty name; then two texts under one name. -/
def awkwardChanges : List (String × String) :=
  [("", "\"\\\x01é𝄞"), ("c", "dark"), ("c", "")]

theorem last_set_is_got_scribbled :
    Legible ⟨["p"]⟩ scribbled ∧
      (∃ later, ((file ⟨["p"]⟩ scribbled).set "b" "\"").after = .file ⟨["p"]⟩ later ∧
        (file ⟨["p"]⟩ later).get "b" = .ok (some "\"")) ∧
      ∃ later, (file ⟨["p"]⟩ scribbled).setAll awkwardChanges = .ok (.file ⟨["p"]⟩ later) ∧
        (file ⟨["p"]⟩ later).get "" = .ok (some "\"\\\x01é𝄞") ∧
        (file ⟨["p"]⟩ later).get "c" = .ok (some "") ∧
        (file ⟨["p"]⟩ later).get "a" = .ok (some "é\"") ∧
        (file ⟨["p"]⟩ later).get "b" = .ok (some "2") ∧
        (file ⟨["p"]⟩ later).get "d" = .ok none := by
  have legible : Legible ⟨["p"]⟩ scribbled := .holds rfl rfl
  have ready : Replaceable ⟨["p"]⟩ scribbled :=
    ⟨⟨["p.tmp"], rfl, rfl, fun stands => by cases stands⟩, ["p"], rfl, rfl, fun stands => by
      cases stands⟩
  rcases last_set_is_got legible with ⟨one, several⟩
  rcases one "b" "\"" rfl with ⟨left, after, got, -⟩
  rcases setAll_of_replaceable ready legible.values awkwardChanges with ⟨final, done⟩
  rcases several awkwardChanges _ done with ⟨later, same, found⟩
  cases same
  exact ⟨legible, ⟨left, after, got⟩, final, done, found "", found "c", found "a", found "b",
    found "d"⟩

end Preferences
end VolumeCache
