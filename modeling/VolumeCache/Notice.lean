import VolumeCache.Counters
import VolumeCache.Decimal.Fixed
import VolumeCache.Error
import VolumeCache.Key
import VolumeCache.Store.Kind

namespace VolumeCache

/-!
# Notices

What the library writes to the log, as events of their own.  The severity, the wording and the
fields of each are given here once; nothing about when they are written is said in this module.
-/

inductive Severity where
  | debug
  | info
  | warn
deriving DecidableEq, Repr

namespace Severity

def name : Severity → String
  | .debug => "DEBUG"
  | .info => "INFO"
  | .warn => "WARN"

end Severity

/-- The value of a named field of a notice. -/
inductive FieldValue where
  | number (value : Nat)
  | text (value : String)
deriving DecidableEq, Repr

/-- Everything the library has to say while it works. -/
inductive Notice where
  | evictionPass (evicted examined : Nat) (weight budget : UInt64)
  | simpleEviction (evicted : Nat)
  | indexCompacted (records : Nat)
  | levelInvalidated (level : LevelKey) (removed : Nat)
  | allInvalidated (removed : Nat)
  | overtaken (key : BlockKey)
  | missed (key : BlockKey)
  | cacheBuilt (kind : StoreKind) (budget : UInt64) (sizing : SizingRule)
  | malformedConfiguration (error : CacheError)
  | corruptPreferences (fault : Json.Fault)
  | unreadablePreferences (error : CacheError)
  | noStoredConfiguration
  | preferenceSaved (name : String)
  | registryInitialized (kind : StoreKind) (budget : UInt64)
  | restartNeeded
  | reportingDisabled
  | reporterStarted (interval : Int64)
  | statistics (kind : StoreKind) (snapshot : Snapshot)
  | reporterStopped
deriving DecidableEq, Repr

namespace Notice

def severity : Notice → Severity
  | .evictionPass .. | .simpleEviction .. | .indexCompacted .. | .levelInvalidated ..
  | .allInvalidated .. | .overtaken .. | .missed .. | .noStoredConfiguration
  | .preferenceSaved .. | .reportingDisabled => .debug
  | .cacheBuilt .. | .registryInitialized .. | .reporterStarted .. | .statistics ..
  | .reporterStopped => .info
  | .malformedConfiguration .. | .corruptPreferences .. | .unreadablePreferences ..
  | .restartNeeded => .warn

def message : Notice → String
  | .evictionPass .. => "weighted cache eviction pass"
  | .simpleEviction .. => "simple cache eviction"
  | .indexCompacted .. => "recency index compacted"
  | .levelInvalidated .. => "invalidated matching blocks"
  | .allInvalidated .. => "invalidated all blocks"
  | .overtaken .. => "load overtaken by invalidation, not retaining"
  | .missed .. => "block cache miss, loading"
  | .cacheBuilt .. => "block cache built"
  | .malformedConfiguration .. => "persisted cache configuration is malformed, using defaults"
  | .corruptPreferences .. => "preference file is corrupt, replacing it"
  | .unreadablePreferences .. =>
      "could not read preferences, using default cache configuration"
  | .noStoredConfiguration => "no persisted cache configuration, using defaults"
  | .preferenceSaved .. => "preference saved"
  | .registryInitialized .. => "block cache registry initialized"
  | .restartNeeded => "cache configuration saved; restart required for it to take effect"
  | .reportingDisabled => "cache statistics reporting disabled"
  | .reporterStarted interval =>
      "Starting cache statistics reporter with interval of " ++ toString interval.toInt ++ " ms"
  | .statistics .. => "block cache statistics"
  | .reporterStopped => "Cache statistics reporter stopped"

/-- A number of bytes in whole mebibytes, rounded down. -/
def inMebibytes (bytes : UInt64) : FieldValue :=
  .number (bytes / mebibyte).toNat

/-- The figures of a periodic report.  The fill is a percentage with one decimal place, the hit
rate a share with three. -/
def statisticsFields (kind : StoreKind) (snapshot : Snapshot) : List (String × FieldValue) :=
  let counters := snapshot.counters
  [("backend", .text kind.name), ("entries", .number snapshot.entries.toNat),
    ("weight_mb", inMebibytes snapshot.weight), ("budget_mb", inMebibytes snapshot.budget),
    ("fill", .text (Decimal.fixed (snapshot.fillRatio * 100) 1 ++ "%")),
    ("hits", .number counters.hits.toNat), ("misses", .number counters.misses.toNat),
    ("coalesced", .number counters.coalesced.toNat),
    ("hit_rate", .text (Decimal.fixed snapshot.hitRate 3)),
    ("loads", .number counters.loads.toNat),
    ("load_failures", .number counters.loadFailures.toNat),
    ("evictions", .number counters.evictions.toNat),
    ("invalidations", .number counters.invalidations.toNat)]

def fields : Notice → List (String × FieldValue)
  | .evictionPass evicted examined weight budget =>
      [("evicted", .number evicted), ("examined", .number examined),
        ("weight", .number weight.toNat), ("budget", .number budget.toNat)]
  | .simpleEviction evicted => [("evicted", .number evicted)]
  | .indexCompacted records => [("records", .number records)]
  | .levelInvalidated level removed =>
      [("prefix", .text level.label), ("removed", .number removed)]
  | .allInvalidated removed => [("removed", .number removed)]
  | .overtaken key | .missed key => [("key", .text key.description)]
  | .cacheBuilt kind budget sizing =>
      [("backend", .text kind.name), ("budget_mb", inMebibytes budget),
        ("sizing", .text sizing.description)]
  | .malformedConfiguration error | .unreadablePreferences error =>
      [("error", .text error.message)]
  | .corruptPreferences fault => [("error", .text fault.message)]
  | .preferenceSaved name => [("name", .text name)]
  | .registryInitialized kind budget =>
      [("backend", .text kind.name), ("budget", .number budget.toNat)]
  | .statistics kind snapshot => statisticsFields kind snapshot
  | .noStoredConfiguration | .restartNeeded | .reportingDisabled | .reporterStarted ..
  | .reporterStopped => []

end Notice

end VolumeCache
