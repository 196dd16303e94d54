import Mathlib.Data.List.Basic
import Mathlib.Data.List.TakeWhile
import VolumeCache.Proofs.Preferences

namespace VolumeCache

/-!
# Changes that fail

A change can fail before anything is written, while the new content is written beside the file, or
when it is renamed onto it.  Only in the last case has anything been written, and then it stands
beside the file and not in its place: whoever reads at the path reads what was read before.  There
is one way around this.  A path may be written with slashes or dots behind its last name, and if
this name already has the extension of a scratch file, the scratch file is put where the path leads.
The rename refuses such a path, and the scratch file is left there.  Nothing is assumed about the
tree.
-/

/-! ## The last name of a path -/

theorem Step.ofPiece?_eq_down_iff {piece : String} :
    Step.ofPiece? piece = some (.down piece) ↔ piece ≠ "" ∧ piece ≠ "." ∧ piece ≠ ".." := by
  unfold Step.ofPiece?
  split
  · simp_all
  split
  · simp_all
  split <;> simp_all

namespace Path

/-- The path comes along some pieces to its last name, and what stands behind it leads nowhere.  A
slash at the end leaves an empty piece of this kind. -/
structure EndsIn (path : Path) (before : List String) (name : String) (behind : List String) :
    Prop where
  pieces : path.pieces = before ++ name :: behind
  isName : Step.ofPiece? name = some (.down name)
  idle : ∀ piece ∈ behind, piece = "" ∨ piece = "."

theorem splitName?_eq_some_iff {path : Path} {before : List String} {name : String} :
    path.splitName? = some (before, name) ↔ ∃ behind, path.EndsIn before name behind := by
  unfold splitName?
  constructor
  · intro split
    have whole := List.takeWhile_append_dropWhile
      (p := fun piece => piece == "" || piece == ".") (l := path.pieces.reverse)
    have noIdle := List.head?_dropWhile_not (fun piece => piece == "" || piece == ".")
      path.pieces.reverse
    cases rest : path.pieces.reverse.dropWhile fun piece => piece == "" || piece == "." with
    | nil => simp [rest] at split
    | cons last earlier =>
        simp only [rest] at split whole noIdle
        by_cases up : last = ".."
        · simp [up] at split
        rw [if_neg up, Option.some.injEq, Prod.mk.injEq] at split
        rcases split with ⟨rfl, rfl⟩
        simp only [List.head?_cons, Bool.or_eq_false_iff, beq_eq_false_iff_ne] at noIdle
        refine ⟨(path.pieces.reverse.takeWhile fun piece => piece == "" || piece == ".").reverse,
          ?_, Step.ofPiece?_eq_down_iff.mpr ⟨noIdle.1, noIdle.2, up⟩, fun piece member => ?_⟩
        · simpa using congrArg List.reverse whole.symm
        · simpa using List.mem_takeWhile_imp (List.mem_reverse.mp member)
  · rintro ⟨behind, pieces, isName, idle⟩
    rcases Step.ofPiece?_eq_down_iff.mp isName with ⟨notEmpty, notHere, notUp⟩
    have dropped : path.pieces.reverse.dropWhile (fun piece => piece == "" || piece == ".") =
        name :: before.reverse := by
      rw [pieces, List.reverse_append, List.reverse_cons, List.append_assoc,
        List.dropWhile_append_of_pos (by simpa using idle)]
      simp [notEmpty, notHere]
    rw [dropped]
    simp [notUp]

namespace EndsIn

variable {path : Path} {before behind : List String} {name : String}
variable (ends : path.EndsIn before name behind)
include ends

theorem steps : path.steps =
    (Path.mk before).steps ++ .down name :: (Path.mk behind).steps := by
  simp [Path.steps, ends.pieces, ends.isName]

theorem eq_here {step : Step} (member : step ∈ (Path.mk behind).steps) : step = .here := by
  rcases List.mem_filterMap.mp member with ⟨piece, listed, leads⟩
  rcases ends.idle piece listed with rfl | rfl <;> cases leads
  rfl

theorem isRooted : path.isRooted = (before.head? == some "") := by
  have notEmpty := (Step.ofPiece?_eq_down_iff.mp ends.isName).1
  cases before with
  | nil => simp [Path.isRooted, ends.pieces, notEmpty]
  | cons first later =>
      have several : 1 < path.pieces.length := by
        rw [ends.pieces, List.length_append, List.length_cons, List.length_cons]
        omega
      rw [Path.isRooted, decide_eq_true several, Bool.true_and, ends.pieces]
      rfl

theorem endsInSlash (noDot : (Path.mk behind).steps = []) :
    path.endsInSlash = decide (behind ≠ []) := by
  have notEmpty := (Step.ofPiece?_eq_down_iff.mp ends.isName).1
  rcases List.eq_nil_or_concat' behind with rfl | ⟨others, last, rfl⟩
  · simp [Path.endsInSlash, ends.pieces, notEmpty]
  · have slash : last = "" := by
      rcases ends.idle last (by simp) with empty | dot
      · exact empty
      · have unmoved := List.filterMap_eq_nil_iff.mp noDot last (by simp)
        rw [dot] at unmoved
        cases unmoved
    have several : 1 < path.pieces.length := by
      rw [ends.pieces, List.length_append, List.length_cons, List.length_append,
        List.length_singleton]
      omega
    have final : path.pieces.getLast? = some last := by simp [ends.pieces, List.getLast?_cons]
    simp [Path.endsInSlash, several, final, slash]

omit ends in
theorem eq_of_bare {first second : Path} (one : first.EndsIn before name [])
    (other : second.EndsIn before name []) : first = second := by
  rcases first with ⟨pieces⟩
  rcases second with ⟨others⟩
  have same : pieces = others := one.pieces.trans other.pieces.symm
  rw [same]

end EndsIn
end Path

/-! ## Reading at a path -/

namespace FileTree

theorem follow_append (tree : FileTree) (start : Place) (first later : List Step) :
    tree.follow start (first ++ later) =
      match tree.follow start first with
      | .error fault => .error fault
      | .ok directory => tree.follow directory later := by
  induction first generalizing start with
  | nil => rfl
  | cons step rest ih =>
      cases step with
      | here => exact ih start
      | up => exact ih start.dropLast
      | down name =>
          simp only [List.cons_append, follow]
          split
          · rfl
          split
          · exact ih (start ++ [name])
          · rfl
          · rfl

theorem follow_idle (tree : FileTree) (directory : Place) {steps : List Step}
    (idle : ∀ step ∈ steps, step = .here) : tree.follow directory steps = .ok directory := by
  induction steps with
  | nil => rfl
  | cons step later ih =>
      rw [idle step List.mem_cons_self]
      exact ih fun step member => idle step (List.mem_cons_of_mem _ member)

/-- What is read where a last name leads, if a file is asked for there or only a directory will
do. -/
def readAt (tree : FileTree) (place : Place) (asDirectory : Bool) : Except FileFault ByteArray :=
  match tree.entry? place with
  | some (.file content) => if asDirectory then .error .notADirectory else .ok content
  | some .directory => .error .isADirectory
  | none => .error .notFound

/-- Once the way to the last name is known, reading depends on what stands there and on nothing
else.  Whatever stands behind the name asks for a directory. -/
theorem read_eq {tree : FileTree} {path : Path} {before behind : List String} {name : String}
    {directory : Place} (ends : path.EndsIn before name behind)
    (leads : tree.follow (tree.start path) (Path.mk before).steps = .ok directory) :
    tree.read path =
      if hasNul path then .error .nulInName
      else if longestPath < path.size then .error .nameTooLong
      else if isTooLong name then .error .nameTooLong
      else tree.readAt (directory ++ [name]) (decide (behind ≠ [])) := by
  by_cases nul : hasNul path = true
  · simp [read, locate, nul]
  by_cases long : longestPath < path.size
  · simp [read, locate, nul, long]
  rw [if_neg nul, if_neg long]
  rcases List.eq_nil_or_concat' (Path.mk behind).steps with noDot | ⟨dots, last, dotted⟩
  · -- The last step goes down to the name, and a slash may follow.
    have steps : path.steps = (Path.mk before).steps ++ [.down name] := noDot ▸ ends.steps
    rw [← ends.endsInSlash noDot]
    simp only [read, locate, if_neg nul, if_neg long, steps, List.dropLast_concat,
      List.getLast?_concat, leads]
    by_cases tooLong : isTooLong name = true
    · simp only [if_pos tooLong]
    · simp only [if_neg tooLong]
      rfl
  · -- The name is on the way to a last step that stays.
    have stays : ∀ step ∈ dots, step = .here := fun step member =>
      ends.eq_here (by simp [dotted, member])
    have here : last = .here := ends.eq_here (by simp [dotted])
    have steps : path.steps = (Path.mk before).steps ++ .down name :: dots ++ [.here] := by
      rw [ends.steps, dotted, here, List.append_assoc, List.cons_append]
    have notBare : behind ≠ [] := by
      rintro rfl
      cases dots <;> cases dotted
    simp only [read, locate, if_neg nul, if_neg long, steps, List.dropLast_concat,
      List.getLast?_concat, follow_append, leads, follow, tree.follow_idle _ stays]
    by_cases tooLong : isTooLong name = true
    · simp only [if_pos tooLong]
    · simp only [if_neg tooLong, readAt, decide_eq_true notBare]
      cases tree.entry? (directory ++ [name]) with
      | none => rfl
      | some entry => cases entry <;> rfl

/-- If nothing is read at a path, another tree in which the same ways lead to the same places is
asked only what stands where the last name leads. -/
theorem KeepsWays.read_of_notFound {tree later : FileTree} (keeps : KeepsWays tree later)
    {path : Path} {before behind : List String} {name : String} {directory : Place}
    (ends : path.EndsIn before name behind)
    (leads : tree.follow (tree.start path) (Path.mk before).steps = .ok directory)
    (missing : tree.read path = .error .notFound) :
    tree.readAt (directory ++ [name]) (decide (behind ≠ [])) = .error .notFound ∧
      later.read path = later.readAt (directory ++ [name]) (decide (behind ≠ [])) := by
  have led : later.follow (later.start path) (Path.mk before).steps = .ok directory := by
    rw [keeps.start]
    exact keeps.follow leads
  rw [read_eq ends leads] at missing
  rw [read_eq ends led]
  split at missing
  · cases missing
  rename_i noNul
  split at missing
  · cases missing
  rename_i short
  split at missing
  · cases missing
  rename_i shortName
  exact ⟨missing, by rw [if_neg noNul, if_neg short, if_neg shortName]⟩

/-- A place that a path takes is in the directory to which all steps but the last lead, and the last
one goes down to a name. -/
theorem Takes.last {tree : FileTree} {path : Path} {place : Place} (takes : tree.Takes path place) :
    ∃ directory name, tree.follow (tree.start path) path.steps.dropLast = .ok directory ∧
      path.steps.getLast? = some (.down name) ∧ place = directory ++ [name] := by
  have names := takes.names
  unfold locate at names
  split at names
  · cases names
  split at names
  · cases names
  split at names
  · cases names
  rename_i directory leads
  split at names
  · rename_i name final
    split at names
    · cases names
    cases names
    exact ⟨directory, name, leads, final, rfl⟩
  · cases names

theorem Takes.of_bare {tree : FileTree} {path : Path} {place : Place} {before : List String}
    {name : String} (takes : tree.Takes path place) (ends : path.EndsIn before name []) :
    ∃ directory, tree.follow (tree.start path) (Path.mk before).steps = .ok directory ∧
      place = directory ++ [name] := by
  have steps : path.steps = (Path.mk before).steps ++ [.down name] := ends.steps
  rcases takes.last with ⟨directory, last, leads, final, rfl⟩
  rw [steps, List.dropLast_concat] at leads
  rw [steps, List.getLast?_concat] at final
  cases final
  exact ⟨directory, leads, rfl⟩

theorem not_takes_up {tree : FileTree} {before : List String} {place : Place} :
    ¬ tree.Takes ⟨before ++ [".."]⟩ place := by
  intro takes
  have steps : (Path.mk (before ++ [".."])).steps = (Path.mk before).steps ++ [.up] := by
    simp [Path.steps, Step.ofPiece?]
  rcases takes.last with ⟨_, _, -, final, -⟩
  rw [steps, List.getLast?_concat] at final
  cases final

end FileTree

/-! ## Scratch files -/

namespace Preferences

/-- The path is another way of writing the path of its own scratch file.  For this it has to end in
the scratch file's name and something that leads nowhere. -/
def RespellsScratch (path : Path) : Prop :=
  path ≠ scratchPath path ∧ path.splitName? = (scratchPath path).splitName?

instance (path : Path) : Decidable (RespellsScratch path) :=
  inferInstanceAs (Decidable (_ ∧ _))

/-- What is read at the path is the same in both trees; or the path respells its scratch path, there
was nothing in the first tree, and in the second one a file stands where the path asks for a
directory.  Other paths may well be read differently, that of the scratch file first of all. -/
def Unseen (path : Path) (tree later : FileTree) : Prop :=
  later.read path = tree.read path ∨
    RespellsScratch path ∧ tree.read path = .error .notFound ∧
      later.read path = .error .notADirectory

def scratchName (name : String) : String :=
  Path.stem name ++ "." ++ "tmp"

theorem scratchName_isName (name : String) :
    Step.ofPiece? (scratchName name) = some (.down (scratchName name)) := by
  have extension : "tmp".length = 3 := rfl
  have long : 3 ≤ (scratchName name).length := by
    rw [scratchName, String.length_append, extension]
    omega
  refine Step.ofPiece?_eq_down_iff.mpr ⟨?_, ?_, ?_⟩ <;>
    · intro short
      rw [short] at long
      exact absurd long (by decide)

/-- Where a scratch file can be put, the path is its own scratch path, or the two come the same way
to a name each. -/
theorem scratchPath_of_takes {tree : FileTree} {path : Path} {place : Place}
    (takes : tree.Takes (scratchPath path) place) :
    scratchPath path = path ∨ ∃ before name behind, path.EndsIn before name behind ∧
      (scratchPath path).EndsIn before (scratchName name) [] := by
  cases split : path.splitName? with
  | none => exact .inl (by simp only [scratchPath, Path.withExtension, split])
  | some found =>
      rcases found with ⟨before, name⟩
      rcases Path.splitName?_eq_some_iff.mp split with ⟨behind, ends⟩
      simp only [scratchPath, Path.withExtension, split] at takes ⊢
      split at takes
      · exact absurd takes FileTree.not_takes_up
      · rename_i ordinary
        rw [if_neg ordinary]
        exact .inr ⟨before, name, behind, ends, rfl, scratchName_isName name, by simp⟩

/-! ## What is left behind -/

/-- Where a change cannot be made as a whole, but the new content could be written, nothing was read
before and nothing is read then, unless the path respells its scratch path. -/
theorem read_of_written {path : Path} {tree written : FileTree} {content : ByteArray}
    (wrote : tree.write (scratchPath path) content = .ok written)
    (unready : ¬ Replaceable path tree) (missing : tree.read path = .error .notFound) :
    written.read path = .error .notFound ∨
      RespellsScratch path ∧ written.read path = .error .notADirectory := by
  rcases FileTree.write_eq_ok_iff.mp wrote with ⟨place, takes, rfl⟩
  have keeps := FileTree.keepsWays_insert takes.noDirectory content
  have different : path ≠ scratchPath path := by
    intro same
    rw [← same] at takes
    exact unready ⟨⟨place, same ▸ takes⟩, place, takes⟩
  rcases scratchPath_of_takes takes with same | ⟨before, name, behind, ends, beside⟩
  · exact absurd same.symm different
  rcases takes.of_bare beside with ⟨directory, leads, rfl⟩
  have start : tree.start (scratchPath path) = tree.start path := by
    rw [FileTree.start, FileTree.start, ends.isRooted, beside.isRooted]
  rw [start] at leads
  have below : directory ++ [scratchName name] ≠ [] := by simp
  rcases keeps.read_of_notFound ends leads missing with ⟨nothing, read⟩
  rw [read, FileTree.readAt, FileTree.entry?_insert below]
  by_cases respelt : name = scratchName name
  · rw [← respelt] at beside ⊢
    have notBare : behind ≠ [] := by
      rintro rfl
      exact different (ends.eq_of_bare beside)
    have respells : path.splitName? = (scratchPath path).splitName? :=
      (Path.splitName?_eq_some_iff.mpr ⟨behind, ends⟩).trans
        (Path.splitName?_eq_some_iff.mpr ⟨[], beside⟩).symm
    exact .inr ⟨⟨different, respells⟩, by simp [notBare]⟩
  · have elsewhere : directory ++ [name] ≠ directory ++ [scratchName name] := by simpa using respelt
    left
    rw [if_neg elsewhere]
    exact nothing

/-! ## Failures -/

/-- A replacement that failed has left the tree alone, or it has written the new content and could
not be made as a whole.  In the second case the scratch file is not cleared away. -/
theorem replaceFile_of_error {tree : FileTree} {path : Path} {values : Values} {saved : Notice}
    {said : List Notice} {error : CacheError}
    (failed : (replaceFile tree path values saved said).result = .error error) :
    ∃ later, (replaceFile tree path values saved said).after = .file path later ∧
      (later = tree ∨ ¬ Replaceable path tree ∧
        tree.write (scratchPath path) values.text.toUTF8 = .ok later) := by
  have unready : ¬ Replaceable path tree := by
    intro ready
    have done := (ready.replaceFile values saved said).1
    rw [failed] at done
    cases done
  unfold replaceFile at failed ⊢
  cases wrote : tree.write (scratchPath path) values.text.toUTF8 with
  | error fault => exact ⟨tree, rfl, .inl rfl⟩
  | ok written =>
      simp only [wrote] at failed ⊢
      split at failed
      · exact ⟨written, rfl, .inr ⟨unready, rfl⟩⟩
      · cases failed

/-- A change goes on only where a file is read or is missing. -/
theorem read_of_readFile {tree : FileTree} {path : Path}
    (goesOn : ∀ fault, readFile tree path ≠ .error (.preferences fault)) :
    tree.read path = .error .notFound ∨ ∃ content, tree.read path = .ok content := by
  cases found : tree.read path with
  | ok content => exact .inr ⟨content, rfl⟩
  | error fault =>
      by_cases missing : fault = .notFound
      · exact .inl (by rw [missing])
      · refine absurd ?_ (goesOn fault)
        simp [readFile, FileTree.readText, found]

/-- Where a replacement that a change goes on to has failed, what is read at the path is what was
read there before, unless the path respells its scratch path and nothing was there. -/
theorem read_replaceFile {tree : FileTree} {path : Path} {values : Values} {saved : Notice}
    {said : List Notice} {error : CacheError}
    (goesOn : ∀ fault, readFile tree path ≠ .error (.preferences fault))
    (failed : (replaceFile tree path values saved said).result = .error error) :
    ∃ later, (replaceFile tree path values saved said).after = .file path later ∧
      Unseen path tree later := by
  rcases replaceFile_of_error failed with ⟨later, left, rfl | ⟨unready, wrote⟩⟩
  · exact ⟨later, left, .inl rfl⟩
  rcases read_of_readFile goesOn with missing | ⟨content, stands⟩
  · refine ⟨later, left, ?_⟩
    rcases read_of_written wrote unready missing with same | ⟨respells, spoilt⟩
    · exact .inl (same.trans missing.symm)
    · exact .inr ⟨respells, missing, spoilt⟩
  · rcases FileTree.write_eq_ok_iff.mp wrote with ⟨place, takes, -⟩
    exact absurd (Replaceable.of_read stands ⟨place, takes⟩) unready

theorem read_setInFile {tree : FileTree} {path : Path} {name value : String} {error : CacheError}
    (failed : (setInFile tree path name value).result = .error error) :
    ∃ later, (setInFile tree path name value).after = .file path later ∧
      Unseen path tree later := by
  unfold setInFile at failed ⊢
  split at failed
  · rename_i values found
    exact read_replaceFile (by simp [found]) failed
  · rename_i fault found
    exact read_replaceFile (by simp [found]) failed
  · exact ⟨tree, rfl, .inl rfl⟩

/-- What is found depends on what is read at the path and on nothing else.  The two trees may differ
everywhere else, in the scratch file for one. -/
theorem get_of_read {path : Path} {tree later : FileTree}
    (same : later.read path = tree.read path) (name : String) :
    (file path later).get name = (file path tree).get name := by
  simp only [get, values, readFile, FileTree.readText, same]

theorem loadConfiguration_of_get {before after : Preferences}
    (same : after.get configurationName = before.get configurationName) :
    after.loadConfiguration = before.loadConfiguration := by
  rw [loadConfiguration, same, loadConfiguration]

theorem get_notFound {path : Path} {tree : FileTree} (missing : tree.read path = .error .notFound)
    (name : String) : (file path tree).get name = .ok none := by
  simp only [get, values, readFile, FileTree.readText, missing, Except.map, Table.get?_empty]

theorem get_notADirectory {path : Path} {tree : FileTree}
    (spoilt : tree.read path = .error .notADirectory) (name : String) :
    (file path tree).get name = .error (.preferences .notADirectory) := by
  simp only [get, values, readFile, FileTree.readText, spoilt, Except.map]

/-- After a change that failed, whoever opens the path reads there what was read before, so every
name has the text it had, and the same configuration is loaded with the same said of it.  Only if
the path respells its scratch path and nothing was there, every name has lost its answer that there
is no text; the configuration is the standard one in both trees. -/
theorem failed_change_unseen {path : Path} {tree : FileTree} {name value : String}
    {error : CacheError} (failed : ((file path tree).set name value).result = .error error) :
    ∃ later, ((file path tree).set name value).after = .file path later ∧
      (file path later).loadConfiguration.1 = (file path tree).loadConfiguration.1 ∧
      (later.read path = tree.read path ∧
          (∀ other, (file path later).get other = (file path tree).get other) ∧
          (file path later).loadConfiguration = (file path tree).loadConfiguration ∨
        RespellsScratch path ∧
          tree.read path = .error .notFound ∧ later.read path = .error .notADirectory ∧
          ∀ other, (file path tree).get other = .ok none ∧
            (file path later).get other = .error (.preferences .notADirectory)) := by
  rcases read_setInFile failed with ⟨later, left, same | ⟨respells, missing, spoilt⟩⟩
  · have found := get_of_read same
    have loaded := loadConfiguration_of_get (found configurationName)
    exact ⟨later, left, congrArg Prod.fst loaded, .inl ⟨same, found, loaded⟩⟩
  · refine ⟨later, left, ?_, .inr ⟨respells, missing, spoilt, fun other => ?_⟩⟩
    · rw [loadConfiguration, get_notADirectory spoilt, loadConfiguration, get_notFound missing]
    · exact ⟨get_notFound missing other, get_notADirectory spoilt other⟩

/-- A slash behind the name asks for a directory where there is none: the scratch file is left
beside it, and no text is found, as before. -/
theorem failed_change_unseen_slash :
    ((file ⟨["p", ""]⟩ (.startingAt [])).set "a" "1").result =
        .error (.preferences .notADirectory) ∧
      ¬ RespellsScratch ⟨["p", ""]⟩ ∧
      ∃ later,
        ((file ⟨["p", ""]⟩ (.startingAt [])).set "a" "1").after = .file ⟨["p", ""]⟩ later ∧
        later.read ⟨["p.tmp"]⟩ = .ok (Values.text (Table.empty.insert "a" "1")).toUTF8 ∧
        (file ⟨["p", ""]⟩ later).get "a" = .ok none := by
  have failed : ((file ⟨["p", ""]⟩ (.startingAt [])).set "a" "1").result =
      .error (.preferences .notADirectory) := rfl
  have ordinary : ¬ RespellsScratch ⟨["p", ""]⟩ := by decide
  rcases failed_change_unseen failed with ⟨later, left, -, unseen⟩
  refine ⟨failed, ordinary, later, left, ?_, ?_⟩
  · cases left
    rfl
  · rcases unseen with ⟨-, found, -⟩ | ⟨respells, -⟩
    · exact found "a"
    · exact absurd respells ordinary

/-- A slash behind a name that is itself the name of a scratch file: what is left under it is
found. -/
theorem respelt_scratch_found :
    ((file ⟨["p.tmp", ""]⟩ (.startingAt [])).set "a" "1").result =
        .error (.preferences .notADirectory) ∧
      (file ⟨["p.tmp", ""]⟩ (.startingAt [])).get "a" = .ok none ∧
      ((file ⟨["p.tmp", ""]⟩ (.startingAt [])).set "a" "1").after.get "a" =
        .error (.preferences .notADirectory) :=
  ⟨rfl, rfl, rfl⟩

end Preferences
end VolumeCache
