namespace VolumeCache

/-!
# Payloads and their weights

What a cache holds for a key, and how many bytes it is charged for it.  A payload of uniform
content is kept as its length and the value that fills it; its weight is the number of its
elements times the bytes of one element.  An image block is charged its data and a fixed header.
-/

/-- The kinds of element a row of data can hold. -/
inductive Element where
  | empty
  | byte
  | word
  | single
  | double
  | colour
  | tagged
deriving DecidableEq, Repr

namespace Element

/-- The bytes one element takes in a row, alignment included. -/
def bytes : Element → UInt64
  | .empty => 0
  | .byte => 1
  | .word => 2
  | .single => 4
  | .double => 8
  | .colour => 3
  | .tagged => 8

end Element

def imageHeaderBytes : UInt64 := 64

/-- The shapes of data whose weight is known from their length alone. -/
inductive Container where
  | row (element : Element)
  | image
  | shared (inner : Container)
deriving DecidableEq, Repr

namespace Container

/-- The weight of a container holding `length` elements.  Sharing is free: a shared container
weighs what its content weighs. -/
def weight : Container → UInt64 → UInt64
  | .row element, length => length * element.bytes
  | .image, length => length + imageHeaderBytes
  | .shared inner, length => inner.weight length

end Container

/-- A block of image data: its shape in voxels and its bytes, all equal to `fill`. -/
structure ImageBlock where
  width : UInt32
  height : UInt32
  depth : UInt32
  length : UInt64
  fill : UInt8
deriving DecidableEq, Repr

/-- What a cache can hold.  A stand-in has a stated weight and a tag and no content. -/
inductive Payload where
  | standIn (weight : UInt64) (tag : String)
  | bytes (length : UInt64) (fill : UInt8)
  | words (length : UInt64) (fill : UInt16)
  | image (block : ImageBlock)
  | sharedImage (block : ImageBlock)
deriving DecidableEq, Repr

namespace Payload

/-- The bytes a cache is charged for the payload. -/
def weight : Payload → UInt64
  | .standIn weight _ => weight
  | .bytes length _ => (Container.row .byte).weight length
  | .words length _ => (Container.row .word).weight length
  | .image block => Container.image.weight block.length
  | .sharedImage block => (Container.shared .image).weight block.length

end Payload

end VolumeCache
