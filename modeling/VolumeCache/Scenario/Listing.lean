import VolumeCache.Json.Writing
import VolumeCache.Scenario.Run

namespace VolumeCache
namespace Scenario

/-!
# Listing removals

Removals are listed in the order in which they were reported.  A bulk invalidation drops its blocks
in no particular order, so whatever is reported while one is under way is listed in the order of
its one-line forms instead, and is closed off as one group.
-/

/-- The element that fills a row, if the row has any. -/
def fillText (length : UInt64) (fill : Nat) : List Char :=
  if length = 0 then "null".toList else Json.natural fill

/-- The one-line form of an image block under a name for its shape. -/
def imageFields (shapeName : String) (block : ImageBlock) : List (List Char) :=
  let shape := [block.width, block.height, block.depth].map fun side => Json.natural side.toNat
  [Json.member shapeName (Json.list shape),
    Json.member "fill" (fillText block.length block.fill.toNat),
    Json.member "len" (Json.natural block.length.toNat)]

/-- The one-line form of a payload, its fields in alphabetical order. -/
def payloadLine : Payload → List Char
  | .standIn weight tag =>
      Json.object [Json.member "tag" (Json.encode tag), Json.member "w" (Json.natural weight.toNat)]
  | .bytes length fill =>
      Json.object [Json.member "bytes" (Json.natural length.toNat),
        Json.member "fill" (fillText length fill.toNat)]
  | .words length fill =>
      Json.object [Json.member "fill" (fillText length fill.toNat),
        Json.member "words" (Json.natural length.toNat)]
  | .image block =>
      match imageFields "image" block with
      | shape :: fill :: rest => Json.object (fill :: shape :: rest)
      | fields => Json.object fields
  | .sharedImage block => Json.object (imageFields "arc_image" block)

/-- The one-line form of a removal: its key, its cause and what was removed. -/
def removalLine (removal : Removal) : String :=
  let parts := [Json.encode removal.key.label, Json.encode removal.cause.name,
    payloadLine removal.block.value]
  String.ofList (Json.list parts)

/-- Removals in the order of their one-line forms. -/
def sortRemovals (removals : List Removal) : List Removal :=
  let keyed := removals.map fun removal => (removalLine removal, removal)
  (keyed.mergeSort fun first second => !decide (second.1 < first.1)).map Prod.snd

/-- The listing so far, the latest first, and the bulk invalidation under way with the removals
reported since it began, the latest first. -/
structure Listing where
  listed : List Removal
  bulk : Option (Nat × List Removal)

namespace Listing

/-- The bulk invalidation is over; its removals join the listing. -/
def close (listing : Listing) (call : Nat) : Listing :=
  match listing.bulk with
  | some (opened, group) =>
      if opened = call then
        { listed := (sortRemovals group.reverse).reverse ++ listing.listed, bulk := none }
      else listing
  | none => listing

/-- The listing after one more event. -/
def extend (listing : Listing) : Event → Listing
  | .reported removal =>
      match listing.bulk with
      | some (call, group) => { listing with bulk := some (call, removal :: group) }
      | none => { listing with listed := removal :: listing.listed }
  | .began call (.invalidate (.within _)) | .began call (.invalidate .everything) =>
      match listing.bulk with
      | some _ => listing
      | none => { listing with bulk := some (call, []) }
  | .returned call _ => listing.close call
  | .unwound call _ => listing.close call
  | _ => listing

end Listing

/-- The removals reported in a journal, in listing order. -/
def removals (journal : List Event) : List Removal :=
  (journal.reverse.foldl Listing.extend ⟨[], none⟩).listed.reverse

/-- One action of a scenario, performed with a journal of its own. -/
def Stage.step (stage : Stage) (action : Action) : Stage × StepReport :=
  let fresh : Stage :=
    { stage with cache := { stage.cache with journal := [] }, listenerReports := [] }
  let (acted, result) := perform (fresh.depth [action]) fresh action
  let journal := acted.cache.journal
  (acted,
    { result := result
      view := acted.view
      removals := removals journal
      listener := acted.listenerReports.reverse
      notices := notices journal })

end Scenario
end VolumeCache
