import VolumeCache.Configuration.Document
import VolumeCache.Notice

namespace VolumeCache

/-!
# From documents to configurations and back

A document is a configuration if its version is known, it names a kind of cache, and exactly one
size is in use.  Sizes that could never give a budget are let through here: they are refused when
the budget is resolved, so that a stored but unusable size is not mistaken for a damaged document.
-/

/-- The kind of cache of a name, or the complaint that there is none. -/
def StoreKind.named (text : String) : Except ConfigurationFault StoreKind :=
  match StoreKind.ofName? text with
  | none => .error (.unknownKind text)
  | some kind => .ok kind

namespace Configuration

/-- A number of mebibytes as a document can hold it.  Larger ones are cut down to the largest, so
that the mark of an unset field is never met by chance. -/
def storedSize (mebibytes : UInt64) : Int64 :=
  if mebibytes.toNat ≤ Int64.maxValue.toInt.toNat then mebibytes.toInt64 else Int64.maxValue

def document (configuration : Configuration) : Document :=
  let blank : Document :=
    { version := schemaVersion
      kindName := configuration.kind.name
      interval := configuration.interval
      ratio := unset
      fixed := unset
      reserved := unset }
  match configuration.sizing with
  | .ratio percent => { blank with ratio := Int64.ofNat percent.toNat }
  | .fixed mebibytes => { blank with fixed := storedSize mebibytes }
  | .reserved mebibytes => { blank with reserved := storedSize mebibytes }

def text (configuration : Configuration) : String :=
  configuration.document.text

namespace Document

/-- The sizes with their fields, in writing order. -/
def sizes (document : Document) : List (Field × Int64) :=
  [(.ratio, document.ratio), (.fixed, document.fixed), (.reserved, document.reserved)]

/-- The sizing rule of a document in which one size is in use. -/
def sizing (document : Document) : Except ConfigurationFault SizingRule :=
  if document.ratio ≠ unset then
    if document.ratio.toInt < 0x100000000 then .ok (.ratio document.ratio.toInt.toNat.toUInt32)
    else .error (.ratioTooLarge document.ratio)
  else if document.fixed ≠ unset then .ok (.fixed document.fixed.toUInt64)
  else .ok (.reserved document.reserved.toUInt64)

/-- The configuration a document stands for.  The version is judged first, then the kind, then
whether a size is below the mark of an unset one, then how many sizes are in use. -/
def validate (document : Document) : Except ConfigurationFault Configuration :=
  if document.version ≠ schemaVersion then .error (.unsupportedVersion document.version)
  else
    match StoreKind.named document.kindName with
    | .error fault => .error fault
    | .ok kind =>
        match document.sizes.find? fun size => size.2 < unset with
        | some (field, value) => .error (.belowUnset field.name value)
        | none =>
            let used := document.sizes.filter fun size => size.2 != unset
            if used.length ≠ 1 then .error (.notExactlyOne (used.map fun size => size.1.name))
            else
              match document.sizing with
              | .error fault => .error fault
              | .ok sizing => .ok { kind, sizing, interval := document.interval }

end Document

/-- The configuration stored as a text, or what is wrong with the text. -/
def ofText (text : String) : Except ConfigurationFault Configuration :=
  match Document.ofText text with
  | .error fault => .error (.malformed fault)
  | .ok document => document.validate

/-- The configuration stored as a text.  In place of a text that stores none the standard one is
taken, and that is said. -/
def ofTextOrStandard (text : String) : Configuration × List Notice :=
  match ofText text with
  | .ok configuration => (configuration, [])
  | .error fault => (standard, [.malformedConfiguration (.invalidConfiguration fault)])

end Configuration
end VolumeCache
