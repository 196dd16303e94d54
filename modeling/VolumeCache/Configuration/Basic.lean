import VolumeCache.Sizing
import VolumeCache.Store.Kind

namespace VolumeCache

/-!
# Configurations

Which kind of cache to build, how large to make it, and how often to report on it.  Whether the
size is usable depends on the memory available, so it is judged when the budget is resolved and not
before.
-/

/-- A description of a cache.  The reporting interval is in milliseconds; there are no reports
unless it is positive. -/
structure Configuration where
  kind : StoreKind
  sizing : SizingRule
  interval : Int64 := -1
deriving DecidableEq, Repr

namespace Configuration

/-- A weighted cache of half the memory available, without reports. -/
def standard : Configuration where
  kind := .standard
  sizing := .ratio 50

/-- The time between two reports, if there are any. -/
def reportInterval? (configuration : Configuration) : Option Nat :=
  if 0 < configuration.interval then some configuration.interval.toInt.toNat else none

/-- The byte budget for the memory available. -/
def resolve (configuration : Configuration) (memory : Memory) : Except SizingFault UInt64 :=
  configuration.sizing.resolve memory

end Configuration
end VolumeCache
