import VolumeCache.Payload

namespace VolumeCache

/-!
# Cached blocks

A payload as it stands in a cache: what it is, when it was last used, and which load brought it.
A load brings at most one block, so the load's number also tells two blocks of one key apart.
-/

/-- A stored payload with the time of its last use and the load that produced it.  A simple store
keeps the time of the last use elsewhere and leaves this one alone.  The load only serves to tell
blocks apart that came under one key. -/
structure CachedBlock where
  value : Payload
  lastAccess : UInt64
  load : Nat
deriving DecidableEq, Repr

namespace CachedBlock

def weight (block : CachedBlock) : UInt64 :=
  block.value.weight

/-- The block was used at this time.  A late report of an earlier use changes nothing. -/
def touch (block : CachedBlock) (tick : UInt64) : CachedBlock :=
  { block with lastAccess := max block.lastAccess tick }

theorem weight_touch (block : CachedBlock) (tick : UInt64) :
    (block.touch tick).weight = block.weight := rfl

theorem load_touch (block : CachedBlock) (tick : UInt64) :
    (block.touch tick).load = block.load := rfl

/-- Of two uses the later one counts. -/
theorem touch_touch (block : CachedBlock) {earlier later : UInt64} (ordered : earlier ≤ later) :
    (block.touch earlier).touch later = block.touch later := by
  have latest : max (max block.lastAccess earlier) later = max block.lastAccess later := by
    change (if (if block.lastAccess ≤ earlier then earlier else block.lastAccess) ≤ later then later
      else if block.lastAccess ≤ earlier then earlier else block.lastAccess) =
        if block.lastAccess ≤ later then later else block.lastAccess
    grind [UInt64.le_trans]
  simp only [touch, latest]

/-- A use at the beginning of time is never a later one. -/
theorem touch_zero (block : CachedBlock) : block.touch 0 = block := by
  have same : max block.lastAccess 0 = block.lastAccess := by
    change (if block.lastAccess ≤ 0 then 0 else block.lastAccess) = block.lastAccess
    grind [UInt64.le_zero_iff]
  simp only [touch, same]

end CachedBlock

end VolumeCache
