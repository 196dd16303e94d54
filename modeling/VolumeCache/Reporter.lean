import VolumeCache.Notice

namespace VolumeCache

/-!
# Reporters

A reporter writes the figures of a cache to the log at a fixed interval, counted from its start.
Time is told to it; it has no clock of its own.
-/

/-- A reporter: the milliseconds between two of its reports, those that have passed since the last
one, and whether it has been cut off. -/
structure Reporter where
  interval : Nat
  waited : Nat
  isFinished : Bool
deriving DecidableEq, Repr

namespace Reporter

/-- A reporter with this interval, if it is positive, and what is said about it. -/
def start (interval : Int64) : Option Reporter × List Notice :=
  if 0 < interval then (some ⟨interval.toInt.toNat, 0, false⟩, [.reporterStarted interval])
  else (none, [.reportingDisabled])

/-- Time passes, and the reports that become due are made; one that is due at the very end of that
time is made as well. -/
def pass (reporter : Reporter) (milliseconds : Nat) (kind : StoreKind) (snapshot : Snapshot) :
    Reporter × List Notice :=
  if reporter.isFinished then (reporter, [])
  else
    let waited := reporter.waited + milliseconds
    ({ reporter with waited := waited % reporter.interval },
      List.replicate (waited / reporter.interval) (.statistics kind snapshot))

/-- What is said when the reporter is told to stop.  One that has been cut off says nothing. -/
def farewell (reporter : Reporter) : List Notice :=
  if reporter.isFinished then [] else [.reporterStopped]

/-- The reporter is cut off at once. -/
def abort (reporter : Reporter) : Reporter :=
  { reporter with isFinished := true }

end Reporter
end VolumeCache
