import VolumeCache.AccessOrder
import VolumeCache.CachedBlock
import VolumeCache.Key
import VolumeCache.Memory

namespace VolumeCache

/-!
# The simple store

Blocks under a byte budget and, optionally, a limit on their number, with the exact order of their
uses.  Every operation is complete in itself: what it removed is handed back as a list, and the
store is within its limits again before anyone is told.

The total weight is a 64-bit word that never wraps.  As in a build with overflow checks, a block
that would take it past the largest word is not stored, and the load that brought it panics; without
the checks the sum would wrap.  The clock of the order is moved on as in a build without them.  The
two builds differ in nothing else here, so as long as the weights can be summed and the uses counted
in a word, what is said of the store holds in both.
-/

/-- The contents of a simple store.  Without a limit on their number only the weights of the blocks
count.  That the weight is the sum of those of the blocks is not part of the structure. -/
structure SimpleStore where
  budget : UInt64
  maxEntries : Option UInt64
  entries : Table BlockKey CachedBlock
  order : AccessOrder BlockKey
  weight : UInt64

namespace SimpleStore

def empty (budget : UInt64) (maxEntries : Option UInt64) : SimpleStore where
  budget := budget
  maxEntries := maxEntries
  entries := Table.empty
  order := AccessOrder.empty
  weight := 0

/-- One of the two limits is exceeded. -/
def overCapacity (store : SimpleStore) : Bool :=
  store.budget < store.weight ||
    match store.maxEntries with
    | some limit => limit.toNat < store.entries.size
    | none => false

/-- The value under a key.  Finding it is a use. -/
def lookup? (store : SimpleStore) (key : BlockKey) : Option (Payload × SimpleStore) :=
  match store.entries.get? key with
  | none => none
  | some block => some (block.value, { store with order := store.order.touch key })

def remove? (store : SimpleStore) (key : BlockKey) : Option (CachedBlock × SimpleStore) :=
  match store.entries.get? key with
  | none => none
  | some block =>
      some (block,
        { store with
          entries := store.entries.erase key
          order := (store.order.remove key).2
          weight := store.weight - block.weight })

/-- The least recently used blocks are removed until both limits hold or no key is tracked; at most
`steps` keys are taken.  A tracked key without a block is dropped from the order on the way. -/
def shrinkBy : Nat → SimpleStore → List (BlockKey × CachedBlock) × SimpleStore
  | 0, store => ([], store)
  | steps + 1, store =>
      if store.overCapacity then
        match store.order.evictOldest? with
        | none => ([], store)
        | some (key, order) =>
            let untracked := { store with order := order }
            match untracked.remove? key with
            | some (block, left) =>
                let (removed, final) := shrinkBy steps left
                ((key, block) :: removed, final)
            | none => shrinkBy steps untracked
      else ([], store)

/-- The store brought back within its limits, and what had to go, the oldest use first.  Each step
takes one key out of the order, so the number of tracked keys bounds the steps. -/
def shrink (store : SimpleStore) : List (BlockKey × CachedBlock) × SimpleStore :=
  shrinkBy store.order.order.size store

def without (store : SimpleStore) (key : BlockKey) : SimpleStore :=
  match store.remove? key with
  | some (_, left) => left
  | none => store

/-- The sum of the weights, this one included, still fits into a word. -/
def canWeigh (store : SimpleStore) (weight : UInt64) : Bool :=
  store.weight.toNat + weight.toNat ≤ largestWord.toNat

/-- The store with a new block, not yet within its limits.  No block is stored under the key. -/
def insert (store : SimpleStore) (key : BlockKey) (load : Nat) (value : Payload) : SimpleStore :=
  { store with
    weight := store.weight + value.weight
    entries := store.entries.insert key ⟨value, 0, load⟩
    order := store.order.touch key }

/-- A new block is stored in place of one already under its key, and what the limits then demand is
removed: possibly the block itself.  A block that cannot be weighed together with the others is
not stored, and the store is left without a block under its key. -/
def put (store : SimpleStore) (key : BlockKey) (load : Nat) (value : Payload) :
    Except SimpleStore (List (BlockKey × CachedBlock) × SimpleStore) :=
  let cleared := store.without key
  if cleared.canWeigh value.weight then .ok (cleared.insert key load value).shrink
  else .error cleared

/-- The keys are removed one after the other; keys without a block are passed over. -/
def removeAll (store : SimpleStore) : List BlockKey → List (BlockKey × CachedBlock) × SimpleStore
  | [] => ([], store)
  | key :: rest =>
      match store.remove? key with
      | some (block, left) =>
          let (removed, final) := left.removeAll rest
          ((key, block) :: removed, final)
      | none => store.removeAll rest

/-- Every block in a scope is removed, in storing order. -/
def removeWhere (store : SimpleStore) (scope : Scope) :
    List (BlockKey × CachedBlock) × SimpleStore :=
  store.removeAll (store.entries.keys.filter scope.covers)

end SimpleStore

end VolumeCache
