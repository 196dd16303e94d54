import VolumeCache.Cache.Event
import VolumeCache.Store.Basic

namespace VolumeCache

/-!
# The state of a cache

A cache is a store, the loads that are running, its counters, and the calls that are under way.
While a loader or a listener runs, or while a caller has looked a key up but not yet claimed it,
control is outside the cache, and from there further calls may begin; so the calls under way form
a stack, the innermost first.  Nothing is assumed about what loaders and listeners do, save that
they return or panic in the reverse order in which they were started.
-/

/-- A load that is running: the call that leads it, whether an invalidation has overtaken it, and
the calls that wait for its outcome, in the order in which they joined. -/
structure PendingLoad where
  leader : Nat
  stale : Bool
  followers : List Nat
deriving DecidableEq, Repr

/-- A loaded value on its way into the store, with the call that leads its load. -/
structure Admission where
  call : Nat
  key : BlockKey
  value : Payload
deriving DecidableEq, Repr

/-- What a simple store goes on with once its removals have been reported: the check that ends an
admission, the end of a load whose value was taken back, or the end of an invalidation. -/
inductive Sequel where
  | conclude (admission : Admission)
  | finish (admission : Admission)
  | close (call : Nat) (scope : Scope) (removed : Nat)
deriving DecidableEq, Repr

/-- A call under way, or the run of a listener on behalf of the call beneath it.  A frame holds what
its call has yet to do and nothing of what it has done, but for what it will count at its end. -/
inductive Frame where
  /-- The caller has found nothing and is about to claim the key. -/
  | claiming (call : Nat) (key : BlockKey)
  | loading (call : Nat) (key : BlockKey)
  | listening (removal : Removal)
  /-- A weighted store is being brought back under its budget. -/
  | evicting (admission : Admission) (examined evicted : Nat)
  /-- The value is stored; whether it may stay is decided next. -/
  | concluding (admission : Admission)
  /-- The value was taken back from a weighted store; that is counted next. -/
  | retracting (admission : Admission)
  /-- One block was dropped from a weighted store; that is counted next. -/
  | dropping (call : Nat)
  /-- The listed blocks are being dropped from a weighted store, each if it is still there. -/
  | sweeping (call : Nat) (scope : Scope) (doomed : List (BlockKey × Nat)) (removed : Nat)
  /-- The removals a simple store has made are being reported. -/
  | reporting (removals : List Removal) (sequel : Sequel)
deriving DecidableEq, Repr

namespace Frame

/-- Control is outside the cache while this frame is innermost. -/
def isOutside : Frame → Bool
  | .claiming .. | .loading .. | .listening .. => true
  | _ => false

end Frame

/-- How removals are reported: not at all; to a listener that records them and returns at once; or
to a listener that may do anything before it returns.  The last one gets control as a frame of its
own, so what it does are moves like those of a caller. -/
inductive Listener where
  | absent
  | recording
  | interactive
deriving DecidableEq, Repr

/-- A cache with everything it is doing.  The journal holds what it has done, the latest first;
nothing the cache does depends on it.  The calls that wait for a load of another one are not on the
stack but with that load. -/
structure Cache where
  store : Store
  listener : Listener
  loads : Table BlockKey PendingLoad
  counters : Counters
  stack : List Frame
  calls : Nat
  journal : List Event

namespace Cache

def start (store : Store) (listener : Listener) : Cache where
  store := store
  listener := listener
  loads := Table.empty
  counters := {}
  stack := []
  calls := 0
  journal := []

/-- Control is outside the cache: no call is under way, or the innermost one waits for a loader,
a listener or its caller. -/
def isSettled (cache : Cache) : Bool :=
  match cache.stack with
  | [] => true
  | frame :: _ => frame.isOutside

def size (cache : Cache) : Nat :=
  cache.store.entries.size

def weight (cache : Cache) : UInt64 :=
  cache.store.weight

def budget (cache : Cache) : UInt64 :=
  cache.store.budget

def kind (cache : Cache) : StoreKind :=
  cache.store.kind

/-- The counters together with what the cache holds now. -/
def snapshot (cache : Cache) : Snapshot where
  counters := cache.counters
  entries := cache.size.toUInt64
  weight := cache.weight
  budget := cache.budget

/-- A one-line summary of the cache.  The weighted kind shows what it holds, the simple kind its
limits; both show the number of running loads. -/
def description (cache : Cache) : String :=
  let running := toString cache.loads.size
  match cache.store with
  | .weighted store =>
      "WeightedConcurrentCache \x7b entries: " ++ toString store.entries.size ++ ", weight: "
        ++ toString store.total.toNat ++ ", budget: " ++ toString store.budget.toNat
        ++ ", in_flight: " ++ running ++ " \x7d"
  | .simple store =>
      let limit :=
        match store.maxEntries with
        | some count => "Some(" ++ toString count.toNat ++ ")"
        | none => "None"
      "SimpleBoundedCache \x7b budget: " ++ toString store.budget.toNat ++ ", max_entries: "
        ++ limit ++ ", in_flight: " ++ running ++ " \x7d"

/-! ## Small changes from which the steps are put together -/

def record (cache : Cache) (event : Event) : Cache :=
  { cache with journal := event :: cache.journal }

def announce (cache : Cache) (notice : Notice) : Cache :=
  cache.record (.noticed notice)

def push (cache : Cache) (frame : Frame) : Cache :=
  { cache with stack := frame :: cache.stack }

def count (cache : Cache) (change : Counters → Counters) : Cache :=
  { cache with counters := change cache.counters }

/-- A removal is reported in the way the cache reports removals.  An interactive listener gets
control. -/
def report (cache : Cache) (removal : Removal) : Cache :=
  match cache.listener with
  | .absent => cache
  | .recording => cache.record (.reported removal)
  | .interactive => (cache.record (.reported removal)).push (.listening removal)

def answer (cache : Cache) (call : Nat) (reply : Reply) : Cache :=
  cache.record (.returned call reply)

/-- Every running load of a key in the scope is overtaken.  A mark is never taken back. -/
def overtake (cache : Cache) (scope : Scope) : Cache :=
  { cache with
    loads := cache.loads.mapValues fun key pending =>
      if scope.covers key then { pending with stale := true } else pending }

/-- The load of a key has been overtaken since it was claimed.  Marks go with the claim and are gone
when it is given up. -/
def isOvertaken (cache : Cache) (key : BlockKey) : Bool :=
  match cache.loads.get? key with
  | some pending => pending.stale
  | none => false

/-- Each waiting call gets the outcome, in the order in which the calls joined. -/
def answerAll (cache : Cache) (leader : Nat) (outcome : Outcome) : List Nat → Cache
  | [] => cache
  | call :: rest => (cache.record (.answered call leader outcome)).answerAll leader outcome rest

/-- The load a call leads is over: its followers get the outcome and the key can be claimed
again.  A load of the key that another call leads is left alone. -/
def publish (cache : Cache) (call : Nat) (key : BlockKey) (outcome : Outcome) : Cache :=
  match cache.loads.get? key with
  | some pending =>
      if pending.leader = call then
        { cache.answerAll call outcome pending.followers with loads := cache.loads.erase key }
      else cache
  | none => cache

/-- What the followers of a load get when a panic ends it. -/
def panicOutcome (key : BlockKey) : Outcome :=
  .failure (.loaderPanicked key.description)

end Cache

end VolumeCache
