namespace VolumeCache

/-!
# Counters

What a cache counts about its own work, and the two ratios derived from it.  Every counter is a
64-bit word and wraps; nothing else is assumed about the number of requests.
-/

/-- The running counts of one cache. -/
structure Counters where
  hits : UInt64 := 0
  misses : UInt64 := 0
  coalesced : UInt64 := 0
  loads : UInt64 := 0
  loadFailures : UInt64 := 0
  evictions : UInt64 := 0
  invalidations : UInt64 := 0
deriving DecidableEq, Repr

namespace Counters

def recordHit (counters : Counters) : Counters :=
  { counters with hits := counters.hits + 1 }

def recordMiss (counters : Counters) : Counters :=
  { counters with misses := counters.misses + 1 }

def recordCoalesced (counters : Counters) : Counters :=
  { counters with coalesced := counters.coalesced + 1 }

def recordLoad (counters : Counters) (succeeded : Bool) : Counters :=
  if succeeded then { counters with loads := counters.loads + 1 }
  else { counters with loadFailures := counters.loadFailures + 1 }

def recordEvictions (counters : Counters) (count : UInt64) : Counters :=
  { counters with evictions := counters.evictions + count }

def recordInvalidations (counters : Counters) (count : UInt64) : Counters :=
  { counters with invalidations := counters.invalidations + count }

/-- The counts in the order in which they are always listed. -/
def toList (counters : Counters) : List UInt64 :=
  [counters.hits, counters.misses, counters.coalesced, counters.loads, counters.loadFailures,
    counters.evictions, counters.invalidations]

end Counters

/-- The counts of a cache together with what it held when they were taken. -/
structure Snapshot where
  counters : Counters
  entries : UInt64
  weight : UInt64
  budget : UInt64
deriving DecidableEq, Repr

namespace Snapshot

/-- The share of requests answered from memory; zero before the first request. -/
def hitRate (snapshot : Snapshot) : Float :=
  let total := snapshot.counters.hits + snapshot.counters.misses + snapshot.counters.coalesced
  if total = 0 then 0 else snapshot.counters.hits.toFloat / total.toFloat

/-- The share of the budget in use; zero when there is no budget. -/
def fillRatio (snapshot : Snapshot) : Float :=
  if snapshot.budget = 0 then 0 else snapshot.weight.toFloat / snapshot.budget.toFloat

/-- The named figures of a snapshot in the order in which they are always listed. -/
def fields (snapshot : Snapshot) : List (String × UInt64) :=
  [("hits", snapshot.counters.hits), ("misses", snapshot.counters.misses),
    ("coalesced", snapshot.counters.coalesced), ("loads", snapshot.counters.loads),
    ("load_failures", snapshot.counters.loadFailures),
    ("evictions", snapshot.counters.evictions),
    ("invalidations", snapshot.counters.invalidations), ("entries", snapshot.entries),
    ("weight", snapshot.weight), ("budget", snapshot.budget)]

/-- The snapshot as a document on one line: the figures by name, in listing order. -/
def document (snapshot : Snapshot) : String :=
  "\x7b" ++ String.intercalate ","
    (snapshot.fields.map fun field => "\"" ++ field.1 ++ "\":" ++ toString field.2.toNat)
    ++ "\x7d"

end Snapshot

end VolumeCache
