import VolumeCache.Store.Kind
import VolumeCache.Store.Simple
import VolumeCache.Store.Weighted

namespace VolumeCache

/-!
# Stores

A store of either kind, with what can be asked of both alike.
-/

inductive Store where
  | weighted (store : WeightedStore)
  | simple (store : SimpleStore)

namespace Store

def kind : Store → StoreKind
  | .weighted _ => .weighted
  | .simple _ => .simple

/-- An empty store.  The limit on the number of blocks applies to a simple store only. -/
def empty (kind : StoreKind) (budget : UInt64) (maxEntries : Option UInt64) : Store :=
  match kind with
  | .weighted => .weighted (WeightedStore.empty budget)
  | .simple => .simple (SimpleStore.empty budget maxEntries)

def budget : Store → UInt64
  | .weighted store => store.budget
  | .simple store => store.budget

def entries : Store → Table BlockKey CachedBlock
  | .weighted store => store.entries
  | .simple store => store.entries

def weight : Store → UInt64
  | .weighted store => store.total
  | .simple store => store.weight

/-- The value under a key.  Finding it is a use. -/
def lookup? (store : Store) (key : BlockKey) : Option (Payload × Store) :=
  match store with
  | .weighted inner => (inner.lookup? key).map fun found => (found.1, .weighted found.2)
  | .simple inner => (inner.lookup? key).map fun found => (found.1, .simple found.2)

end Store

end VolumeCache
