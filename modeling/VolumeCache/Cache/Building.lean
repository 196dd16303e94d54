import VolumeCache.Cache.Basic
import VolumeCache.Configuration.Basic

namespace VolumeCache
namespace Cache

/-!
# Building caches

A cache is built from a configuration and the memory available.  It is built only if the sizing
rule gives a budget; otherwise there is the rule's complaint and no cache.
-/

/-- The cache a configuration describes, and what is said about it.  The limit on the number of
blocks is honoured by the simple kind alone. -/
def build (configuration : Configuration) (memory : Memory) (maxEntries : Option UInt64)
    (listener : Listener) : Except SizingFault (Cache × List Notice) :=
  match configuration.resolve memory with
  | .error fault => .error fault
  | .ok budget =>
      .ok (start (Store.empty configuration.kind budget maxEntries) listener,
        [.cacheBuilt configuration.kind budget configuration.sizing])

end Cache
end VolumeCache
