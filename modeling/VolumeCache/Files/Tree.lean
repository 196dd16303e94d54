import VolumeCache.Error
import VolumeCache.Files.Path
import VolumeCache.Table

namespace VolumeCache

/-!
# File trees

A tree of directories and files, as a program that reads, writes and renames files meets it.  A
path is followed step by step through the directories that are there; only its last step may lead
to a file.  A write or a rename that fails leaves the tree as it was.  Nothing is said about access
rights, links or space, of which there is always enough.
-/

/-- What stands at a place. -/
inductive FileEntry where
  | directory
  | file (content : ByteArray)

/-- A place in a tree: the names on the way to it from the root. -/
abbrev Place := List String

/-- Directories and files by place, and the place where a path starts that is not rooted.  The root
is a directory and is not listed; the directory above it is the root itself. -/
structure FileTree where
  entries : Table Place FileEntry
  home : Place

namespace FileTree

def entry? (tree : FileTree) (place : Place) : Option FileEntry :=
  if place = [] then some .directory else tree.entries.get? place

/-- The most bytes a name may have. -/
def longestName : Nat := 255

/-- A name that cannot be looked up at all. -/
def isTooLong (name : String) : Bool :=
  longestName < name.utf8ByteSize

/-- The directory to which steps lead from a directory. -/
def follow (tree : FileTree) (directory : Place) : List Step → Except FileFault Place
  | [] => .ok directory
  | .here :: later => tree.follow directory later
  | .up :: later => tree.follow directory.dropLast later
  | .down name :: later =>
      if isTooLong name then .error .nameTooLong
      else
        match tree.entry? (directory ++ [name]) with
        | some .directory => tree.follow (directory ++ [name]) later
        | some (.file _) => .error .notADirectory
        | none => .error .notFound

/-- Some name on the way has a NUL character in it. -/
def hasNul (path : Path) : Bool :=
  path.steps.any fun
    | .down name => name.toList.any fun c => c.toNat == 0
    | _ => false

def start (tree : FileTree) (path : Path) : Place :=
  if path.isRooted then [] else tree.home

/-- The most bytes a path may have. -/
def longestPath : Nat := 4095

/-- The place a path names, if its last step is a name; otherwise it leads to a directory. -/
def locate (tree : FileTree) (path : Path) : Except FileFault (Option Place) :=
  if hasNul path then .error .nulInName
  else if longestPath < path.size then .error .nameTooLong
  else
    match tree.follow (tree.start path) path.steps.dropLast with
    | .error fault => .error fault
    | .ok directory =>
        match path.steps.getLast? with
        | some (.down name) =>
            if isTooLong name then .error .nameTooLong else .ok (some (directory ++ [name]))
        | _ => .ok none

def read (tree : FileTree) (path : Path) : Except FileFault ByteArray :=
  match tree.locate path with
  | .error fault => .error fault
  | .ok none => .error .isADirectory
  | .ok (some place) =>
      match tree.entry? place with
      | some (.file content) =>
          if path.endsInSlash then .error .notADirectory else .ok content
      | some .directory => .error .isADirectory
      | none => .error .notFound

def readText (tree : FileTree) (path : Path) : Except FileFault String :=
  match tree.read path with
  | .error fault => .error fault
  | .ok content =>
      match String.fromUTF8? content with
      | none => .error .notText
      | some text => .ok text

/-- The tree with these bytes in the file at a path, which is made if need be. -/
def write (tree : FileTree) (path : Path) (content : ByteArray) : Except FileFault FileTree :=
  match tree.locate path with
  | .error fault => .error fault
  | .ok none => .error .isADirectory
  | .ok (some place) =>
      if path.endsInSlash then .error .isADirectory
      else
        match tree.entry? place with
        | some .directory => .error .isADirectory
        | _ => .ok { tree with entries := tree.entries.insert place (.file content) }

/-- The tree in which the file at one place stands at the place of a path instead, where a file may
have stood before, but no directory. -/
def moveFile (tree : FileTree) (source : Place) (content : ByteArray) (target : Path) :
    Except FileFault FileTree :=
  match tree.locate target with
  | .error fault => .error fault
  | .ok none => .error .busy
  | .ok (some place) =>
      if target.endsInSlash then .error .notADirectory
      else
        match tree.entry? place with
        | some .directory => .error .isADirectory
        | _ =>
            .ok { tree with entries := (tree.entries.erase source).insert place (.file content) }

/-- The tree in which the file at one path stands at another one instead. -/
def rename (tree : FileTree) (source target : Path) : Except FileFault FileTree :=
  match tree.locate source with
  | .error fault => .error fault
  | .ok none => .error .isADirectory
  | .ok (some place) =>
      match tree.read source with
      | .error fault => .error fault
      | .ok content => tree.moveFile place content target

/-- The place to which steps lead from a place, no matter what is there. -/
def descend (place : Place) : List Step → Place
  | [] => place
  | .here :: later => descend place later
  | .up :: later => descend place.dropLast later
  | .down name :: later => descend (place ++ [name]) later

/-- The tree without what stands at a place, and without what stands beneath it. -/
def removeAt (tree : FileTree) (place : Place) : FileTree :=
  { tree with entries := tree.entries.filter fun other _ => !place.isPrefixOf other }

def remove (tree : FileTree) (path : Path) : FileTree :=
  tree.removeAt (descend (tree.start path) path.steps)

/-- The tree with a directory at a place where nothing stands. -/
def makeDirectory (tree : FileTree) (place : Place) : FileTree :=
  match tree.entry? place with
  | some _ => tree
  | none => { tree with entries := tree.entries.insert place .directory }

/-- The tree with a directory at every place that the steps come through. -/
def makeWay (tree : FileTree) (place : Place) : List Step → FileTree
  | [] => tree.makeDirectory place
  | .here :: later => (tree.makeDirectory place).makeWay place later
  | .up :: later => (tree.makeDirectory place).makeWay place.dropLast later
  | .down name :: later => (tree.makeDirectory place).makeWay (place ++ [name]) later

/-- The tree with something put at a path, whatever stood there before, and on the way to it. -/
def put (tree : FileTree) (path : Path) (entry : FileEntry) : FileTree :=
  let place := descend (tree.start path) path.steps
  let ready := (tree.removeAt place).makeWay (tree.start path) path.steps.dropLast
  { ready with entries := ready.entries.insert place entry }

/-- The tree in which there is nothing but the directory where paths start, and those above it. -/
def startingAt (home : Place) : FileTree :=
  makeWay ⟨Table.empty, home⟩ [] (home.map Step.down)

/-- What stands beneath the directory where paths start, by the names from there on. -/
def listing (tree : FileTree) : List (Place × FileEntry) :=
  (tree.entries.rows.filter fun row => row.1 != tree.home && tree.home.isPrefixOf row.1).map
    fun row => (row.1.drop tree.home.length, row.2)

end FileTree
end VolumeCache
