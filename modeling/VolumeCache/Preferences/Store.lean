import VolumeCache.Configuration.Validation
import VolumeCache.Files.Tree
import VolumeCache.Preferences.Values

namespace VolumeCache

/-!
# Preferences

Named texts that outlive the process, if they are kept in a file.  A missing file holds no texts.
A file is replaced as a whole: the new content is written beside it and then renamed onto it, so
that a write that fails leaves it alone.  A file that is no object of texts is not merged into but
replaced; one that cannot be read is left alone.
-/

/-- Where preferences are kept: in memory, or in the file at a path of a tree. -/
inductive Preferences where
  | memory (values : Values)
  | file (path : Path) (tree : FileTree)

namespace Preferences

/-- The name under which the configuration of the cache is kept. -/
def configurationName : String := "block_cache.configuration"

/-- What a change came to, the preferences after it, and what was said.  A change that failed may
still have left traces in the tree. -/
structure Change where
  result : Except CacheError Unit
  after : Preferences
  notices : List Notice

/-- The texts in the file at a path.  A missing file holds none; one that is no text and one whose
text is no object of texts give different errors. -/
def readFile (tree : FileTree) (path : Path) : Except CacheError Values :=
  match tree.readText path with
  | .error .notFound => .ok Table.empty
  | .error fault => .error (.preferences fault)
  | .ok text =>
      match Values.ofText text with
      | .error fault => .error (.serialization fault)
      | .ok values => .ok values

def values (preferences : Preferences) : Except CacheError Values :=
  match preferences with
  | .memory values => .ok values
  | .file path tree => readFile tree path

def get (preferences : Preferences) (name : String) : Except CacheError (Option String) :=
  preferences.values.map fun values => values.get? name

/-- Where the new content of a file is written before it takes its place.  It is the path with its
extension replaced, which may be the path itself. -/
def scratchPath (path : Path) : Path :=
  path.withExtension "tmp"

/-- The file at a path replaced by the document of these texts. -/
def replaceFile (tree : FileTree) (path : Path) (values : Values) (saved : Notice)
    (said : List Notice) : Change :=
  match tree.write (scratchPath path) values.text.toUTF8 with
  | .error fault => ⟨.error (.preferences fault), .file path tree, said⟩
  | .ok written =>
      match written.rename (scratchPath path) path with
      | .error fault => ⟨.error (.preferences fault), .file path written, said⟩
      | .ok renamed => ⟨.ok (), .file path renamed, said ++ [saved]⟩

/-- A text kept under a name in a file.  Content that is no object of texts is replaced, and that
is said; any other reason why the file cannot be read ends the attempt. -/
def setInFile (tree : FileTree) (path : Path) (name value : String) : Change :=
  match readFile tree path with
  | .ok values => replaceFile tree path (values.insert name value) (.preferenceSaved name) []
  | .error (.serialization fault) =>
      replaceFile tree path (Table.empty.insert name value) (.preferenceSaved name)
        [.corruptPreferences fault]
  | .error error => ⟨.error error, .file path tree, []⟩

def set (preferences : Preferences) (name value : String) : Change :=
  match preferences with
  | .memory values => ⟨.ok (), .memory (values.insert name value), []⟩
  | .file path tree => setInFile tree path name value

/-- The configuration that is kept.  If none is, if it cannot be read or if it is malformed, the
standard one is taken, and that is said. -/
def loadConfiguration (preferences : Preferences) : Configuration × List Notice :=
  match preferences.get configurationName with
  | .ok (some text) => Configuration.ofTextOrStandard text
  | .ok none => (.standard, [.noStoredConfiguration])
  | .error error => (.standard, [.unreadablePreferences error])

/-- A configuration kept in place of the one kept before. -/
def saveConfiguration (preferences : Preferences) (configuration : Configuration) : Change :=
  preferences.set configurationName configuration.text

end Preferences
end VolumeCache
