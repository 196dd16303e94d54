import VolumeCache.Json.Reading
import VolumeCache.Json.Writing
import VolumeCache.Table

namespace VolumeCache

/-!
# Named texts

The content of a preference file: an object whose members are all texts.  In reading, the members
may stand in any order, and of two members of one name the later one counts; in writing, they stand
in the order of their names, one a line.
-/

/-- Texts by name. -/
abbrev Values := Table String String

namespace Values

def readMember (values : Values) (name : String) (chars : List Char) :
    Except Json.Fault (Values × List Char) :=
  match Json.readColon chars with
  | .error fault => .error fault
  | .ok rest =>
      match Json.readAs Json.Token.asText rest with
      | .error fault => .error fault
      | .ok (value, left) => .ok (values.insert name value, left)

/-- The object at the front of a document. -/
def readObject (chars : List Char) : Except Json.Fault (Values × List Char) :=
  match Json.readToken chars with
  | .error fault => .error fault
  | .ok (.map, rest) => Json.readMembers readMember rest.length true Table.empty rest
  | .ok (token, _) => .error (.wrongType token "a map")

/-- The named texts in a document that holds nothing else. -/
def ofText (text : String) : Except Json.Fault Values :=
  match readObject text.toList with
  | .error fault => .error fault
  | .ok (values, rest) =>
      match Json.readEnd rest with
      | .error fault => .error fault
      | .ok () => .ok values

def sortedRows (values : Values) : List (String × String) :=
  values.rows.mergeSort fun first second => !decide (second.1 < first.1)

/-- The document of the named texts. -/
def text (values : Values) : String :=
  String.ofList (Json.spreadObject (values.sortedRows.map fun row =>
    Json.spreadMember row.1 (Json.encode row.2)))

end Values
end VolumeCache
