import VolumeCache.Table
import VolumeCache.Timeline

namespace VolumeCache

/-!
# Access order

Which of a set of keys was used least recently.  Every use moves a clock on by one and stamps the
key with the new time; the stamps are kept by key and, in the other direction, by time.  The two
directions are kept apart here so that each operation is one step in each of them.

The clock is a 64-bit word and is moved on as in a build without overflow checks: after the largest
word it goes on from zero, and from then on a new time may stand before an old one or take its
place.  A build with overflow checks panics at the use that would wrap the clock.  So what is said
of an order whose clock has not wrapped holds in both builds, and what is said of a clock that has
wrapped is about the unchecked one alone.
-/

/-- Keys with the time of their last use, and the times with their keys.  That the two directions
agree is not part of the structure; operations go from the one to the other without looking whether
they do. -/
structure AccessOrder (κ : Type) where
  clock : UInt64
  ticks : Table κ UInt64
  order : Timeline κ

namespace AccessOrder

variable {κ : Type} [DecidableEq κ]

def empty : AccessOrder κ where
  clock := 0
  ticks := Table.empty
  order := Timeline.empty

def size (tracker : AccessOrder κ) : Nat :=
  tracker.ticks.size

def isEmpty (tracker : AccessOrder κ) : Bool :=
  tracker.ticks.size == 0

/-- The key is now the most recently used one.  Its earlier record is taken out; a record of another
key at the new time gives way, which can only happen once the clock has wrapped. -/
def touch (tracker : AccessOrder κ) (key : κ) : AccessOrder κ :=
  let now := tracker.clock + 1
  let remaining :=
    match tracker.ticks.get? key with
    | some earlier => tracker.order.erase earlier
    | none => tracker.order
  { clock := now
    ticks := tracker.ticks.insert key now
    order := remaining.insert now key }

/-- The key is no longer tracked.  The flag tells whether it was. -/
def remove (tracker : AccessOrder κ) (key : κ) : Bool × AccessOrder κ :=
  match tracker.ticks.get? key with
  | some tick =>
      (true,
        { tracker with ticks := tracker.ticks.erase key, order := tracker.order.erase tick })
  | none => (false, tracker)

/-- The least recently used key, which is no longer tracked afterwards.  It is the key of the
earliest record, whatever time is noted under the key itself. -/
def evictOldest? (tracker : AccessOrder κ) : Option (κ × AccessOrder κ) :=
  match tracker.order.popFirst? with
  | some ((_, key), rest) =>
      some (key, { tracker with ticks := tracker.ticks.erase key, order := rest })
  | none => none

end AccessOrder

end VolumeCache
