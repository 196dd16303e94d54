import VolumeCache.CachedBlock
import VolumeCache.Key
import VolumeCache.Table
import VolumeCache.Timeline

namespace VolumeCache

/-!
# The weighted store

Blocks under a byte budget, with a lazy index of their uses.  A use stamps the block with a new
time but leaves the index alone; the index is brought up to date record by record while blocks are
being evicted.  So a record of the index can be out of date: its block is gone, or was used again
later, or was stored anew.

The total weight is a 64-bit word and wraps in every build.  The clock is moved on as in a build
without overflow checks: after the largest word it goes on from zero.  With the checks the use at
which it wraps panics, and what is said of a clock that has not wrapped holds in both builds.

Every operation here is one step without any call to the outside; passes and sweeps, during which
a listener may run, are put together from these steps elsewhere.
-/

/-- The contents of a weighted store. `evicting` is set while an eviction pass is under way.  The
index may hold several records of one block and records of blocks that are gone; `total` is a word
that wraps. -/
structure WeightedStore where
  budget : UInt64
  entries : Table BlockKey CachedBlock
  total : UInt64
  clock : UInt64
  recency : Timeline BlockKey
  evicting : Bool

/-- What came of examining the first record of the index during an eviction pass. -/
inductive Examination where
  | exhausted
  | outdated (store : WeightedStore)
  | evicted (store : WeightedStore) (key : BlockKey) (block : CachedBlock)

namespace WeightedStore

def empty (budget : UInt64) : WeightedStore where
  budget := budget
  entries := Table.empty
  total := 0
  clock := 0
  recency := Timeline.empty
  evicting := false

/-- More weight is stored than the budget allows. -/
def overBudget (store : WeightedStore) : Bool :=
  store.budget < store.total

/-- The value under a key.  Finding it is a use and moves the clock on. -/
def lookup? (store : WeightedStore) (key : BlockKey) : Option (Payload × WeightedStore) :=
  match store.entries.get? key with
  | none => none
  | some block =>
      let now := store.clock + 1
      some (block.value,
        { store with clock := now, entries := store.entries.modify key (·.touch now) })

/-- The store with a new block.  A block already under the key gives way to it.  The index gets a
record of this use, in the place of another one if there should be one of the same time. -/
def insert (store : WeightedStore) (key : BlockKey) (load : Nat) (value : Payload) :
    WeightedStore :=
  let now := store.clock + 1
  let replaced :=
    match store.entries.get? key with
    | some earlier => earlier.weight
    | none => 0
  { store with
    clock := now
    total := store.total + value.weight - replaced
    entries := store.entries.insert key ⟨value, now, load⟩
    recency := store.recency.insert now key }

/-- The store without the block it holds under a key.  The index is left as it is. -/
def discard (store : WeightedStore) (key : BlockKey) (block : CachedBlock) : WeightedStore :=
  { store with
    entries := store.entries.erase key
    total := store.total - block.weight }

def remove? (store : WeightedStore) (key : BlockKey) : Option (CachedBlock × WeightedStore) :=
  (store.entries.get? key).map fun block => (block, store.discard key block)

/-- The block a load brought under a key, if it is still there, and the store without it. -/
def removeLoaded? (store : WeightedStore) (key : BlockKey) (load : Nat) :
    Option (CachedBlock × WeightedStore) :=
  match store.entries.get? key with
  | none => none
  | some block => if block.load = load then some (block, store.discard key block) else none

/-- One step of an eviction pass: the earliest record of the index is taken away.  If it is up to
date its block is the least recently used one and is removed; if its block was used later the
record comes back at that later time; a record whose block is gone is dropped. -/
def examine (store : WeightedStore) : Examination :=
  match store.recency.popFirst? with
  | none => .exhausted
  | some ((tick, key), rest) =>
      let popped := { store with recency := rest }
      match store.entries.get? key with
      | none => .outdated popped
      | some block =>
          if block.lastAccess = tick then .evicted (popped.discard key block) key block
          else .outdated { popped with recency := rest.insert block.lastAccess key }

/-- How many records more than two for each block the index may hold before it is rebuilt. -/
def recencySlack : Nat := 1024

/-- The index rebuilt with one record for each block, unless it is still small enough.  The blocks
themselves and their last uses are not touched. -/
def compact? (store : WeightedStore) : Option WeightedStore :=
  if store.recency.size ≤ 2 * store.entries.size + recencySlack then none
  else
    let current := store.entries.rows.map fun row => (row.2.lastAccess, row.1)
    some { store with recency := Timeline.ofList current }

/-- The keys in a scope, each with the load that brought its block, in storing order. -/
def matching (store : WeightedStore) (scope : Scope) : List (BlockKey × Nat) :=
  (store.entries.rows.filter fun row => scope.covers row.1).map fun row => (row.1, row.2.load)

end WeightedStore

end VolumeCache
