import VolumeCache.Configuration.Basic
import VolumeCache.Error
import VolumeCache.Json.Reading
import VolumeCache.Json.Writing

namespace VolumeCache
namespace Configuration

/-!
# Stored configurations

A configuration is stored as one flat document with a schema version.  Three of its fields are
sizes, of which exactly one is in use; minus one marks the others.  What may stand in a document
is wider than what a configuration can be, so a document is first read as it is and then validated.
-/

def schemaVersion : UInt32 := 1

/-- The mark of a field that is not in use.  Fields left out of a document count as marked. -/
def unset : Int64 := -1

/-- The fields of a stored configuration as they stand in its document.  Whether they make sense
together is judged apart. -/
structure Document where
  version : UInt32
  kindName : String
  interval : Int64
  ratio : Int64
  fixed : Int64
  reserved : Int64
deriving DecidableEq, Repr

inductive Field where
  | version
  | kindName
  | interval
  | ratio
  | fixed
  | reserved
deriving DecidableEq, Repr

namespace Field

def all : List Field :=
  [.version, .kindName, .interval, .ratio, .fixed, .reserved]

def name : Field → String
  | .version => "version"
  | .kindName => "cache_type"
  | .interval => "log_ms"
  | .ratio => "mem_ratio_pc"
  | .fixed => "mem_for_cache_mb"
  | .reserved => "mem_for_everything_else_mb"

def ofName? (text : String) : Option Field :=
  all.find? fun field => field.name == text

end Field

/-! ## Writing -/

namespace Document

def fieldValue (document : Document) : Field → List Char
  | .version => Json.natural document.version.toNat
  | .kindName => Json.encode document.kindName
  | .interval => Json.integer document.interval.toInt
  | .ratio => Json.integer document.ratio.toInt
  | .fixed => Json.integer document.fixed.toInt
  | .reserved => Json.integer document.reserved.toInt

def text (document : Document) : String :=
  String.ofList (Json.object (Field.all.map fun field =>
    Json.member field.name (document.fieldValue field)))

end Document

/-! ## Reading -/

/-- A document of which some fields have been read.  It also tells which fields would be
repetitions. -/
structure Draft where
  version : Option UInt32 := none
  kindName : Option String := none
  interval : Option Int64 := none
  ratio : Option Int64 := none
  fixed : Option Int64 := none
  reserved : Option Int64 := none
deriving DecidableEq, Repr

namespace Draft

def holds (draft : Draft) : Field → Bool
  | .version => draft.version.isSome
  | .kindName => draft.kindName.isSome
  | .interval => draft.interval.isSome
  | .ratio => draft.ratio.isSome
  | .fixed => draft.fixed.isSome
  | .reserved => draft.reserved.isSome

/-- The draft with the value of one more field, which a token gives. -/
def put (draft : Draft) (field : Field) (token : Json.Token) : Except Json.Fault Draft :=
  match field with
  | .version => token.asWord32.map fun value => { draft with version := some value }
  | .kindName => token.asText.map fun value => { draft with kindName := some value }
  | .interval => token.asInt64.map fun value => { draft with interval := some value }
  | .ratio => token.asInt64.map fun value => { draft with ratio := some value }
  | .fixed => token.asInt64.map fun value => { draft with fixed := some value }
  | .reserved => token.asInt64.map fun value => { draft with reserved := some value }

def readValue (draft : Draft) (field : Field) (chars : List Char) :
    Except Json.Fault (Draft × List Char) :=
  Json.readAs (draft.put field) chars

/-- A member of the object: its name is judged before its colon and its value are read. -/
def readMember (draft : Draft) (name : String) (chars : List Char) :
    Except Json.Fault (Draft × List Char) :=
  match Field.ofName? name with
  | none => .error (.unknownField name (Field.all.map Field.name))
  | some field =>
      if draft.holds field then .error (.duplicateField name)
      else
        match Json.readColon chars with
        | .error fault => .error fault
        | .ok rest => draft.readValue field rest

/-- The document a draft stands for: version and kind must be there, a size or an interval that is
missing is not in use. -/
def complete (draft : Draft) : Except Json.Fault Document :=
  match draft.version, draft.kindName with
  | none, _ => .error (.missingField Field.version.name)
  | some _, none => .error (.missingField Field.kindName.name)
  | some version, some kindName => .ok
      { version := version
        kindName := kindName
        interval := draft.interval.getD unset
        ratio := draft.ratio.getD unset
        fixed := draft.fixed.getD unset
        reserved := draft.reserved.getD unset }

end Draft

namespace Document

def title : String := "struct PersistedCacheConfig"

/-- The fields of a document that is written as a list of its values, in writing order; those after
the first two may be missing. -/
def readElements : List Field → Bool → Draft → List Char → Except Json.Fault (Draft × List Char)
  | [], _, draft, chars => (Json.readListEnd chars).map fun rest => (draft, rest)
  | field :: later, isFirst, draft, chars =>
      match Json.readElementStart isFirst chars with
      | .error fault => .error fault
      | .ok (false, rest) =>
          match field with
          | .version => .error (.wrongLength 0 (title ++ " with 6 elements"))
          | .kindName => .error (.wrongLength 1 (title ++ " with 6 elements"))
          | _ => .ok (draft, rest)
      | .ok (true, rest) =>
          match draft.readValue field rest with
          | .error fault => .error fault
          | .ok (next, left) => readElements later false next left

/-- The fields of a document, as an object or as a list. -/
def readDraft (chars : List Char) : Except Json.Fault (Draft × List Char) :=
  match Json.readToken chars with
  | .error fault => .error fault
  | .ok (.map, rest) => Json.readMembers Draft.readMember rest.length true {} rest
  | .ok (.sequence, rest) => readElements Field.all true {} rest
  | .ok (token, _) => .error (.wrongType token title)

/-- The document in a text that holds nothing else. -/
def ofText (text : String) : Except Json.Fault Document :=
  match readDraft text.toList with
  | .error fault => .error fault
  | .ok (draft, rest) =>
      match draft.complete with
      | .error fault => .error fault
      | .ok document =>
          match Json.readEnd rest with
          | .error fault => .error fault
          | .ok () => .ok document

end Document

end Configuration
end VolumeCache
