import VolumeCache.Proofs.Journal
import VolumeCache.Proofs.Steps

namespace VolumeCache

/-!
# Requests and how they were met

A call for a block is met in one of three ways: the block is stored, the load of it is running
already, or a loader is started.  Which it is stays open until the call has claimed the key, unless
the block is found at the first look.  A loader that was started succeeds, fails, panics or is still
running.  The counters tell these apart in the middle of a call as well as after it, whatever
loaders and listeners do; panics are not counted and are read off the journal.
-/

/-! ## Counters without wrapping -/

/-- How often a request was met in each way, and how often a loader ended with a value or with an
error.  These are plain numbers, while the counters of a cache are words. -/
structure Tally where
  hits : Nat
  misses : Nat
  coalesced : Nat
  loads : Nat
  failures : Nat

/-- The counters show these numbers, as far as words can. -/
structure Counters.Shows (counters : Counters) (tally : Tally) : Prop where
  hits : counters.hits = UInt64.ofNat tally.hits
  misses : counters.misses = UInt64.ofNat tally.misses
  coalesced : counters.coalesced = UInt64.ofNat tally.coalesced
  loads : counters.loads = UInt64.ofNat tally.loads
  failures : counters.loadFailures = UInt64.ofNat tally.failures

namespace Counters.Shows

variable {counters : Counters} {tally : Tally} (shows : counters.Shows tally)
include shows

theorem recordHit : counters.recordHit.Shows { tally with hits := tally.hits + 1 } :=
  { shows with hits := by simp [Counters.recordHit, shows.hits, UInt64.ofNat_add] }

theorem recordMiss : counters.recordMiss.Shows { tally with misses := tally.misses + 1 } :=
  { shows with misses := by simp [Counters.recordMiss, shows.misses, UInt64.ofNat_add] }

theorem recordCoalesced :
    counters.recordCoalesced.Shows { tally with coalesced := tally.coalesced + 1 } :=
  { shows with
    coalesced := by simp [Counters.recordCoalesced, shows.coalesced, UInt64.ofNat_add] }

theorem recordSuccess :
    (counters.recordLoad true).Shows { tally with loads := tally.loads + 1 } :=
  { shows with loads := by simp [Counters.recordLoad, shows.loads, UInt64.ofNat_add] }

theorem recordFailure :
    (counters.recordLoad false).Shows { tally with failures := tally.failures + 1 } :=
  { shows with failures := by simp [Counters.recordLoad, shows.failures, UInt64.ofNat_add] }

/-- Removals are counted apart. -/
theorem recordEvictions (count : UInt64) : (counters.recordEvictions count).Shows tally :=
  { shows with }

theorem recordInvalidations (count : UInt64) :
    (counters.recordInvalidations count).Shows tally :=
  { shows with }

end Counters.Shows

/-! ## What the journal and the calls under way say -/

/-- A caller asks for a block and wants it loaded if need be. -/
def Event.asks : Event → Bool
  | .began _ (.load _) => true
  | _ => false

def Event.panics : Event → Bool
  | .loaderPanicked .. => true
  | _ => false

def Frame.isClaiming : Frame → Bool
  | .claiming .. => true
  | _ => false

def Frame.isLoading : Frame → Bool
  | .loading .. => true
  | _ => false

namespace Cache

variable {cache next : Cache}

def requests (cache : Cache) : Nat :=
  cache.journal.countP Event.asks

/-- The calls that have found nothing at their first look and have not claimed the key yet.  They
have been counted neither as hits nor as misses so far. -/
def claimants (cache : Cache) : Nat :=
  cache.stack.countP Frame.isClaiming

/-- The loaders that are running, each beneath the calls it has made. -/
def runningLoaders (cache : Cache) : Nat :=
  cache.stack.countP Frame.isLoading

def loaderPanics (cache : Cache) : Nat :=
  cache.journal.countP Event.panics

theorem requests_eq (cache : Cache) :
    cache.requests = (noted cache.journal).countP Event.asks :=
  (countP_noted (fun event idle => by
    cases event <;> simp_all [Event.isNoted, Event.asks]) _).symm

theorem loaderPanics_eq (cache : Cache) :
    cache.loaderPanics = (noted cache.journal).countP Event.panics :=
  (countP_noted (fun event idle => by
    cases event <;> simp_all [Event.isNoted, Event.panics]) _).symm

@[simp] theorem isClaiming_sequelOf (admission : Admission) (removals : List Removal) :
    (sequelOf admission removals).isClaiming = false := by
  cases removals <;> rfl

@[simp] theorem isLoading_sequelOf (admission : Admission) (removals : List Removal) :
    (sequelOf admission removals).isLoading = false := by
  cases removals <;> rfl

/-! ## Every request and every loader is accounted for -/

/-- Every request has been met or is about to claim its key, and every loader that was started has
ended or is running.  The numbers are those that the counters stand for, so this holds however often
these have wrapped. -/
structure Reckoned (tally : Tally) (cache : Cache) : Prop where
  shows : cache.counters.Shows tally
  requests : cache.requests = tally.hits + tally.misses + tally.coalesced + cache.claimants
  loaders : tally.misses =
    tally.loads + tally.failures + cache.loaderPanics + cache.runningLoaders

theorem reckoned_of_accepted {tally : Tally} {move : Move} (reckoned : Reckoned tally cache)
    (taken : Accepted cache move next) : ∃ after, Reckoned after next := by
  rcases reckoned with ⟨shows, requests, loaders⟩
  rw [requests_eq] at requests
  rw [loaderPanics_eq] at loaders
  -- In each case the first equation is about the calls and the second one about the loaders.
  cases taken with
  | hit =>
      refine ⟨_, shows.recordHit, ?_, ?_⟩
      · simp_all [requests_eq, Event.isNoted, Event.asks, claimants, List.countP_cons]
        omega
      · simp_all [loaderPanics_eq, Event.isNoted, Event.panics, runningLoaders]
  | opened =>
      refine ⟨_, shows, ?_, ?_⟩
      · simp_all [requests_eq, Event.isNoted, Event.asks, claimants, Frame.isClaiming,
          List.countP_cons]
        omega
      · simp_all [loaderPanics_eq, Event.isNoted, Event.panics, runningLoaders, Frame.isLoading]
  | joined top =>
      refine ⟨_, shows.recordCoalesced, ?_, ?_⟩
      · simp_all [requests_eq, Event.isNoted, Event.asks, claimants, Frame.isClaiming,
          List.countP_cons]
        omega
      · simp_all [loaderPanics_eq, Event.isNoted, Event.panics, runningLoaders, Frame.isLoading]
  | lateHit top =>
      refine ⟨_, shows.recordHit, ?_, ?_⟩
      · simp_all [requests_eq, Event.isNoted, Event.asks, claimants, Frame.isClaiming,
          List.countP_cons]
        omega
      · simp_all [loaderPanics_eq, Event.isNoted, Event.panics, runningLoaders, Frame.isLoading]
  | claimed top =>
      refine ⟨_, shows.recordMiss, ?_, ?_⟩
      · simp_all [requests_eq, Event.isNoted, Event.asks, claimants, Frame.isClaiming,
          List.countP_cons]
        omega
      · simp_all [loaderPanics_eq, Event.isNoted, Event.panics, runningLoaders, Frame.isLoading,
          List.countP_cons]
        omega
  | passBegun top | stored top | overflown top =>
      refine ⟨_, shows.recordSuccess, ?_, ?_⟩
      · simp_all [requests_eq, Event.isNoted, Event.asks, claimants, Frame.isClaiming]
      · simp_all [loaderPanics_eq, Event.isNoted, Event.panics, runningLoaders, Frame.isLoading,
          List.countP_cons]
        omega
  | simplyStored top =>
      -- The next frame depends on whether anything was removed; it is of neither sort anyway.
      refine ⟨_, shows.recordSuccess.recordEvictions _, ?_, ?_⟩
      · rw [claimants, List.countP_cons_of_neg (by simp)]
        simp_all [requests_eq, Event.isNoted, Event.asks, claimants, Frame.isClaiming]
      · rw [runningLoaders, List.countP_cons_of_neg (by simp)]
        simp_all [loaderPanics_eq, Event.isNoted, Event.panics, runningLoaders, Frame.isLoading,
          List.countP_cons]
        omega
  | failed top =>
      refine ⟨_, shows.recordFailure, ?_, ?_⟩
      · simp_all [requests_eq, Event.isNoted, Event.asks, claimants, Frame.isClaiming]
      · simp_all [loaderPanics_eq, Event.isNoted, Event.panics, runningLoaders, Frame.isLoading,
          List.countP_cons]
        omega
  | panicked top =>
      refine ⟨_, shows, ?_, ?_⟩
      · simp_all [requests_eq, Event.isNoted, Event.asks, claimants, Frame.isClaiming]
      · simp_all [loaderPanics_eq, Event.isNoted, Event.panics, runningLoaders, Frame.isLoading,
          List.countP_cons]
        omega
  | cleared =>
      refine ⟨_, shows.recordInvalidations _, ?_, ?_⟩
      · simp_all [requests_eq, Event.isNoted, Event.asks, claimants, Frame.isClaiming]
      · simp_all [loaderPanics_eq, Event.isNoted, Event.panics, runningLoaders, Frame.isLoading]
  | loadUnwound top leading =>
      refine ⟨_, shows, ?_, ?_⟩
      · rcases leading with rfl | ⟨_, rfl⟩ | ⟨_, rfl⟩ <;>
          simp_all [requests_eq, Event.isNoted, Event.asks, claimants, Frame.isClaiming]
      · rcases leading with rfl | ⟨_, rfl⟩ | ⟨_, rfl⟩ <;>
          simp_all [loaderPanics_eq, Event.isNoted, Event.panics, runningLoaders, Frame.isLoading]
  | clearingUnwound top clearing =>
      refine ⟨_, shows, ?_, ?_⟩
      · rcases clearing with rfl | ⟨_, _, _, rfl⟩ | ⟨_, _, _, rfl⟩ <;>
          simp_all [requests_eq, Event.isNoted, Event.asks, claimants, Frame.isClaiming]
      · rcases clearing with rfl | ⟨_, _, _, rfl⟩ | ⟨_, _, _, rfl⟩ <;>
          simp_all [loaderPanics_eq, Event.isNoted, Event.panics, runningLoaders, Frame.isLoading]
  | _ =>
      refine ⟨_, shows, ?_, ?_⟩
      · simp_all [requests_eq, Event.isNoted, Event.asks, claimants, Frame.isClaiming]
      · simp_all [loaderPanics_eq, Event.isNoted, Event.panics, runningLoaders, Frame.isLoading]

theorem reckoned_of_advanced {tally : Tally} (reckoned : Reckoned tally cache)
    (taken : Advanced cache next) : Reckoned tally next := by
  rcases reckoned with ⟨shows, requests, loaders⟩
  rw [requests_eq] at requests
  rw [loaderPanics_eq] at loaders
  cases taken with
  | _ =>
      refine ⟨{ shows with }, ?_, ?_⟩
      · simp_all [requests_eq, Event.isNoted, Event.asks, claimants, Frame.isClaiming]
      · simp_all [loaderPanics_eq, Event.isNoted, Event.panics, runningLoaders, Frame.isLoading]

theorem reckoned_kept (allowed : Cache → Move → Bool) :
    Kept allowed fun cache => ∃ tally, Reckoned tally cache where
  accepted _ before taken := by
    rcases before with ⟨tally, reckoned⟩
    exact reckoned_of_accepted reckoned taken
  advanced before taken := by
    rcases before with ⟨tally, reckoned⟩
    exact ⟨tally, reckoned_of_advanced reckoned taken⟩

theorem reckoned_start (store : Store) (listener : Listener) :
    Reckoned ⟨0, 0, 0, 0, 0⟩ (start store listener) where
  shows := ⟨rfl, rfl, rfl, rfl, rfl⟩
  requests := rfl
  loaders := rfl

/-- In every state of every run, the middle of calls included, the calls for a block that have begun
are the hits, the misses and the coalesced requests, but for those that have not claimed their key
yet; and the misses are the loads, the failed loads, the loaders that panicked and those that are
running.  As words this holds for any number of calls, and in plain numbers as long as a word can
count them.  Look-ups that do not ask for a load count for nothing here. -/
theorem requests_reckoned (kind : StoreKind) (budget : UInt64) (limit : Option UInt64)
    (listener : Listener) {cache : Cache}
    (visited : Visited anyMove (start (Store.empty kind budget limit) listener) cache) :
    let met := cache.requests - cache.claimants
    let unended := cache.loaderPanics + cache.runningLoaders
    let counters := cache.counters
    cache.claimants ≤ cache.requests ∧
      (counters.hits + counters.misses + counters.coalesced = UInt64.ofNat met ∧
        counters.misses = counters.loads + counters.loadFailures + UInt64.ofNat unended) ∧
      (met < 2 ^ 64 →
        counters.hits.toNat + counters.misses.toNat + counters.coalesced.toNat = met ∧
          counters.misses.toNat =
            counters.loads.toNat + counters.loadFailures.toNat + unended) := by
  intro met unended counters
  rcases (reckoned_kept anyMove).visited visited ⟨_, reckoned_start _ listener⟩ with
    ⟨tally, shows, requests, loaders⟩
  have total : met = tally.hits + tally.misses + tally.coalesced := by omega
  have ended : tally.misses = tally.loads + tally.failures + unended := by omega
  refine ⟨by omega, ⟨?_, ?_⟩, fun few => ?_⟩
  · rw [shows.hits, shows.misses, shows.coalesced, total, UInt64.ofNat_add, UInt64.ofNat_add]
  · rw [shows.misses, shows.loads, shows.failures, ended, UInt64.ofNat_add, UInt64.ofNat_add]
  · have exactly : ∀ count, count ≤ met → (UInt64.ofNat count).toNat = count := fun count most =>
      UInt64.toNat_ofNat_of_lt' (Nat.lt_of_le_of_lt most few)
    rw [shows.hits, shows.misses, shows.coalesced, shows.loads, shows.failures,
      exactly _ (by omega), exactly _ (by omega), exactly _ (by omega), exactly _ (by omega),
      exactly _ (by omega)]
    exact ⟨total.symm, ended⟩

/-- While one block is being loaded a second is asked for; before it is claimed another caller joins
the load of the first, and then the loader of the second panics.  A third block comes in and is
found, also by one who does not want it loaded.  Then the first comes in, and the listener panics
over the eviction of the third.  A fourth is being loaded, and a fifth not claimed yet. -/
def busyMoves : List Move :=
  [.begin (.load ⟨⟨0⟩, 0, 0, .index 1⟩), .claim, .begin (.load ⟨⟨0⟩, 0, 0, .index 2⟩),
    .begin (.load ⟨⟨0⟩, 0, 0, .index 1⟩), .claim, .claim, .loaderPanics "",
    .begin (.load ⟨⟨0⟩, 0, 0, .index 3⟩), .claim, .loaderReturns (.standIn 6 ""),
    .begin (.load ⟨⟨0⟩, 0, 0, .index 3⟩), .begin (.find ⟨⟨0⟩, 0, 0, .index 3⟩),
    .loaderReturns (.standIn 6 ""), .listenerPanics "",
    .begin (.load ⟨⟨0⟩, 0, 0, .index 4⟩), .claim, .begin (.load ⟨⟨0⟩, 0, 0, .index 5⟩)]

theorem requests_reckoned_busy :
    let cache := reached anyMove (start (.empty .weighted 10 none) .interactive) busyMoves
    Visited anyMove (start (.empty .weighted 10 none) .interactive) cache ∧
      (cache.requests = 7 ∧ cache.claimants = 1 ∧ cache.loaderPanics = 1 ∧
        cache.runningLoaders = 1) ∧
      cache.counters.hits.toNat + cache.counters.misses.toNat + cache.counters.coalesced.toNat =
        6 ∧
      cache.counters.misses.toNat =
        cache.counters.loads.toNat + cache.counters.loadFailures.toNat + 2 := by
  intro cache
  have visited : Visited anyMove (start (.empty .weighted 10 none) .interactive) cache :=
    .of_run (run_reached (by decide +kernel))
  have numbers : cache.requests = 7 ∧ cache.claimants = 1 ∧ cache.loaderPanics = 1 ∧
      cache.runningLoaders = 1 := by decide +kernel
  rcases requests_reckoned .weighted 10 none .interactive visited with ⟨-, -, exactly⟩
  rcases numbers with ⟨asked, asking, panics, running⟩
  simp only [asked, asking, panics, running] at exactly
  exact ⟨visited, ⟨asked, asking, panics, running⟩, exactly (by decide)⟩

end Cache
end VolumeCache
