namespace VolumeCache

/-!
# Paths

A path says how to come to a file, one step after the other, and is kept as it was written: what a
step upwards leads to is only known once the directories on the way are.  A slash at the end asks
for a directory.  Changing the extension of a path looks at its last name and at nothing else.
-/

/-- One step of a path: to stay, to go to the directory above, or to go to what has a name. -/
inductive Step where
  | here
  | up
  | down (name : String)
deriving DecidableEq, Repr

namespace Step

/-- A single dot stays, two dots go up, and everything else is a name; between two slashes with
nothing in between there is no step. -/
def ofPiece? (piece : String) : Option Step :=
  if piece = "" then none
  else if piece = "." then some .here
  else if piece = ".." then some .up
  else some (.down piece)

end Step

/-- What stands between the slashes of a path, empty texts included. -/
structure Path where
  pieces : List String
deriving DecidableEq, Repr

namespace Path

def ofText (text : String) : Path where
  pieces := text.splitOn "/"

def size (path : Path) : Nat :=
  path.pieces.foldl (fun size piece => size + piece.utf8ByteSize) (path.pieces.length - 1)

/-- The steps of a path.  Several slashes count as one. -/
def steps (path : Path) : List Step :=
  path.pieces.filterMap Step.ofPiece?

def isRooted (path : Path) : Bool :=
  1 < path.pieces.length && path.pieces.head? == some ""

def endsInSlash (path : Path) : Bool :=
  1 < path.pieces.length && path.pieces.getLast? == some ""

/-- The steps without those that stay; one at the front of a path that is not rooted counts. -/
def essence (path : Path) : Bool × List Step :=
  let moves (steps : List Step) : List Step := steps.filter fun step => step != .here
  match path.steps with
  | .here :: rest => (path.isRooted, if path.isRooted then moves rest else .here :: moves rest)
  | steps => (path.isRooted, moves steps)

def stem (name : String) : String :=
  match name.toList.reverse.dropWhile fun c => c != '.' with
  | [] => name
  | [_] => name
  | _ :: before => String.ofList before.reverse

/-- What stands before the last name, and the name, unless the path ends by going up. -/
def splitName? (path : Path) : Option (List String × String) :=
  match path.pieces.reverse.dropWhile fun piece => piece == "" || piece == "." with
  | [] => none
  | name :: before => if name = ".." then none else some (before.reverse, name)

/-- The path with the extension of its last name replaced; what stands after that name is left
out.  A path without a name stays as it is.  A bare name of two dots and an extension first loses
its extension, and the two dots that are left go up and take no new one. -/
def withExtension (path : Path) (extension : String) : Path :=
  match path.splitName? with
  | none => path
  | some (before, name) =>
      if stem name = "." ∧ path.pieces = before ++ [name] then ⟨before ++ [".."]⟩
      else ⟨before ++ [stem name ++ "." ++ extension]⟩

end Path
end VolumeCache
