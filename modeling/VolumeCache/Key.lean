import VolumeCache.Text.Quoted

namespace VolumeCache

/-!
# Block keys

A block of a multi-resolution volume is named by the source it comes from, its time point, its
resolution level, and a name within that level.  The first three together are the block's level
key; bulk invalidation works on whole level keys.  Labels are the short texts shown to people,
descriptions spell out every field.
-/

/-- A source of volume data.  Numbers are handed out once and never reused. -/
structure SourceId where
  number : UInt64
deriving DecidableEq, Repr

namespace SourceId

def label (source : SourceId) : String :=
  "source#" ++ toString source.number.toNat

def description (source : SourceId) : String :=
  "SourceId(" ++ toString source.number.toNat ++ ")"

/-- Sources are ordered by when they were handed out. -/
def order (first second : SourceId) : Ordering :=
  compare first.number second.number

/-- The `count` consecutive sources handed out when `next` is the next free number. -/
def minted (next : UInt64) : Nat → List SourceId
  | 0 => []
  | count + 1 => ⟨next⟩ :: minted (next + 1) count

end SourceId

/-- The name of a block within its level: a cell of a regular grid, a running number, or a text.
Names of different kinds are never equal. -/
inductive BlockName where
  | cell (x y z : Int64)
  | index (number : UInt64)
  | named (text : String)
deriving DecidableEq, Repr

namespace BlockName

def origin : BlockName := .cell 0 0 0

def description : BlockName → String
  | .cell x y z =>
      "GridCell \x7b x: " ++ toString x.toInt ++ ", y: " ++ toString y.toInt ++ ", z: "
        ++ toString z.toInt ++ " \x7d"
  | .index number => toString number.toNat
  | .named text => Text.quoted text

end BlockName

/-- A source, a time point and a resolution level: the part of a key that its blocks share. -/
structure LevelKey where
  source : SourceId
  timepoint : UInt32
  level : UInt32
deriving DecidableEq, Repr

namespace LevelKey

def label (key : LevelKey) : String :=
  key.source.label ++ "/t" ++ toString key.timepoint.toNat ++ "/l" ++ toString key.level.toNat

def description (key : LevelKey) : String :=
  "PartialKey \x7b source: " ++ key.source.description ++ ", timepoint: "
    ++ toString key.timepoint.toNat ++ ", level: " ++ toString key.level.toNat ++ " \x7d"

end LevelKey

/-- The full name of a block. -/
structure BlockKey where
  source : SourceId
  timepoint : UInt32
  level : UInt32
  block : BlockName
deriving DecidableEq, Repr

namespace BlockKey

def levelKey (key : BlockKey) : LevelKey where
  source := key.source
  timepoint := key.timepoint
  level := key.level

def label (key : BlockKey) : String :=
  key.levelKey.label ++ "/" ++ key.block.description

def description (key : BlockKey) : String :=
  "BlockKey \x7b source: " ++ key.source.description ++ ", timepoint: "
    ++ toString key.timepoint.toNat ++ ", level: " ++ toString key.level.toNat ++ ", block: "
    ++ key.block.description ++ " \x7d"

/-- The key lies in the given source, time point and level. -/
def liesIn (key : BlockKey) (source : SourceId) (timepoint level : UInt32) : Bool :=
  key.source == source && key.timepoint == timepoint && key.level == level

end BlockKey

namespace LevelKey

/-- A level key covers exactly the blocks of that level. -/
def covers (level : LevelKey) (key : BlockKey) : Bool :=
  key.liesIn level.source level.timepoint level.level

theorem covers_iff {level : LevelKey} {key : BlockKey} :
    level.covers key = true ↔ key.levelKey = level := by
  cases level
  simp [covers, BlockKey.liesIn, BlockKey.levelKey, and_assoc]

end LevelKey

/-- What an invalidation is asked to drop. -/
inductive Scope where
  | exactly (key : BlockKey)
  | within (level : LevelKey)
  | everything
deriving DecidableEq, Repr

namespace Scope

/-- The keys an invalidation of this scope drops. -/
def covers : Scope → BlockKey → Bool
  | .exactly wanted, key => key == wanted
  | .within level, key => level.covers key
  | .everything, _ => true

end Scope

end VolumeCache
