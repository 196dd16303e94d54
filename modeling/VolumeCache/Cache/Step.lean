import VolumeCache.Cache.Basic

namespace VolumeCache

/-!
# The steps of a cache

The steps that the cache takes on its own while it has control, and the moves that are open to
whoever has control outside it.  Every step of its own is small: one record of the index examined,
one doomed block dropped, one removal reported.  Moves are refused when they do not fit the
innermost frame.  No step and no move assumes anything about the state.
-/

namespace Cache

/-! ## Steps of its own -/

/-- The load has succeeded; its value goes to every follower and to the leader. -/
def finish (cache : Cache) (admission : Admission) : Cache :=
  (cache.publish admission.call admission.key (.value admission.value)).answer admission.call
    (.loaded (.value admission.value))

/-- The end of an eviction pass: the pass is open to others again and its work is counted. -/
def endPass (cache : Cache) (store : WeightedStore) (admission : Admission)
    (examined evicted : Nat) : Cache :=
  let closed :=
    { cache with store := .weighted { store with evicting := false } }.push (.concluding admission)
  if evicted = 0 then closed
  else
    (closed.count (·.recordEvictions evicted.toUInt64)).announce
      (.evictionPass evicted examined store.total store.budget)

def stepPass (cache : Cache) (store : WeightedStore) (admission : Admission)
    (examined evicted : Nat) : Cache :=
  if store.overBudget then
    match store.examine with
    | .exhausted => cache.endPass store admission examined evicted
    | .outdated left =>
        ({ cache with store := .weighted left }.push
          (.evicting admission (examined + 1) evicted)).record .examined
    | .evicted left key block =>
        let removal : Removal := ⟨key, block, .size⟩
        ((({ cache with store := .weighted left }.push
          (.evicting admission (examined + 1) (evicted + 1))).record .examined).record
            (.removed removal)).report removal
  else cache.endPass store admission examined evicted

/-- Whether the admitted value may stay.  A value whose load was overtaken is taken back.  The
callers get it all the same. -/
def conclude (cache : Cache) (admission : Admission) : Cache :=
  if cache.isOvertaken admission.key then
    let told := cache.announce (.overtaken admission.key)
    match told.store with
    | .weighted store =>
        match store.remove? admission.key with
        | some (block, left) =>
            let removal : Removal := ⟨admission.key, block, .explicit⟩
            (({ told with store := .weighted left }.push (.retracting admission)).record
              (.removed removal)).report removal
        | none => told.finish admission
    | .simple store =>
        match store.remove? admission.key with
        | some (block, left) =>
            let removal : Removal := ⟨admission.key, block, .explicit⟩
            (({ told with store := .simple left }.count (·.recordInvalidations 1)).push
              (.reporting [removal] (.finish admission))).record (.removed removal)
        | none => told.finish admission
  else cache.finish admission

/-- The index of a weighted store is rebuilt if it has grown too large. -/
def compact (cache : Cache) : Cache :=
  match cache.store with
  | .weighted store =>
      match store.compact? with
      | some rebuilt =>
          { cache with store := .weighted rebuilt }.announce
            (.indexCompacted rebuilt.recency.size)
      | none => cache
  | .simple _ => cache

/-- What an invalidation says at its end.  Dropping a single block is not worth a word. -/
def announceCleared (cache : Cache) (scope : Scope) (removed : Nat) : Cache :=
  match scope with
  | .exactly _ => cache
  | .within level => cache.announce (.levelInvalidated level removed)
  | .everything => cache.announce (.allInvalidated removed)

/-- One step of a sweep: the next doomed block is dropped, if the load that brought it still has
its block there.  After the last one the sweep is counted. -/
def stepSweep (cache : Cache) (store : WeightedStore) (call : Nat) (scope : Scope)
    (doomed : List (BlockKey × Nat)) (removed : Nat) : Cache :=
  match doomed with
  | [] =>
      ((cache.count (·.recordInvalidations removed.toUInt64)).compact.announceCleared
        scope removed).answer call .done
  | (key, load) :: rest =>
      match store.removeLoaded? key load with
      | some (block, left) =>
          let removal : Removal := ⟨key, block, .explicit⟩
          (({ cache with store := .weighted left }.push
            (.sweeping call scope rest (removed + 1))).record (.removed removal)).report removal
      | none => cache.push (.sweeping call scope rest removed)

/-- What follows once every removal of a simple store has been reported. -/
def continueWith (cache : Cache) : Sequel → Cache
  | .conclude admission => cache.push (.concluding admission)
  | .finish admission => cache.finish admission
  | .close call scope removed => (cache.announceCleared scope removed).answer call .done

/-- The next step of a call that has control; none while control is outside the cache.  There is
none either where a frame does not suit the store, which no run leads to. -/
def advance (cache : Cache) : Option Cache :=
  match cache.stack with
  | [] => none
  | frame :: rest =>
      let below := { cache with stack := rest }
      match frame, cache.store with
      | .evicting admission examined evicted, .weighted store =>
          some (below.stepPass store admission examined evicted)
      | .concluding admission, _ => some (below.conclude admission)
      | .retracting admission, _ =>
          some ((below.count (·.recordInvalidations 1)).finish admission)
      | .dropping call, _ =>
          some (((below.count (·.recordInvalidations 1)).compact).answer call .done)
      | .sweeping call scope doomed removed, .weighted store =>
          some (below.stepSweep store call scope doomed removed)
      | .reporting [] sequel, _ => some (below.continueWith sequel)
      | .reporting (removal :: others) sequel, _ =>
          some ((below.push (.reporting others sequel)).report removal)
      | _, _ => none

/-- A bound on the steps a cache can take before control is outside it again.  Of the records of
the index each is examined at most twice, and every other step shortens a list. -/
def stepsLeft (cache : Cache) : Nat :=
  match cache.stack, cache.store with
  | .evicting .. :: _, .weighted store => 2 * store.recency.size + 8
  | .sweeping _ _ doomed _ :: _, _ => doomed.length + 8
  | .reporting removals _ :: _, _ => removals.length + 8
  | _, _ => 8

def advanceBy : Nat → Cache → Cache
  | 0, cache => cache
  | steps + 1, cache =>
      match cache.advance with
      | some next => advanceBy steps next
      | none => cache

/-- The cache once control is outside it again.  That so many steps are enough is proved where the
frames are known to be in order. -/
def settle (cache : Cache) : Cache :=
  advanceBy cache.stepsLeft cache

/-! ## Moves from outside -/

/-- What can happen while control is outside the cache.  Callers, loaders and listeners make moves
of the same kind, and whoever has control may begin further calls, so calls nest in any way. -/
inductive Move where
  /-- A call begins, made by whoever has control. -/
  | begin (request : Request)
  | claim
  | loaderReturns (payload : Payload)
  /-- The loader fails, with its outermost explanation and the causes beneath it. -/
  | loaderFails (outermost : String) (causes : List String)
  | loaderPanics (text : String)
  | listenerReturns
  | listenerPanics (text : String)
deriving DecidableEq, Repr

/-- An invalidation begins: the running loads in its scope are overtaken and the stored blocks in
its scope are removed, by a weighted store one by one as their removals are reported, by a simple
store all at once. -/
def invalidate (cache : Cache) (call : Nat) (scope : Scope) : Cache :=
  let marked := cache.overtake scope
  match marked.store with
  | .weighted store =>
      match scope with
      | .exactly key =>
          match store.remove? key with
          | some (block, left) =>
              let removal : Removal := ⟨key, block, .explicit⟩
              (({ marked with store := .weighted left }.push (.dropping call)).record
                (.removed removal)).report removal
          | none => marked.answer call .done
      | _ => marked.push (.sweeping call scope (store.matching scope) 0)
  | .simple store =>
      let (blocks, left) := store.removeWhere scope
      let removals := blocks.map fun removed => (⟨removed.1, removed.2, .explicit⟩ : Removal)
      let cleared :=
        { marked with
          store := .simple left
          journal := (removals.map Event.removed).reverse ++ marked.journal }
      (cleared.count (·.recordInvalidations removals.length.toUInt64)).push
        (.reporting removals (.close call scope removals.length))

/-- A call begins.  A block that is wanted is looked up first; if it is there the call returns at
once. -/
def beginCall (cache : Cache) (request : Request) : Cache :=
  let call := cache.calls
  let opened := { cache with calls := call + 1 }.record (.began call request)
  match request with
  | .find key =>
      match opened.store.lookup? key with
      | some (payload, store) =>
          ({ opened with store := store }.record (.touched key)).answer call
            (.found (some payload))
      | none => opened.answer call (.found none)
  | .load key =>
      match opened.store.lookup? key with
      | some (payload, store) =>
          (({ opened with store := store }.record (.touched key)).count (·.recordHit)).answer
            call (.loaded (.value payload))
      | none => opened.push (.claiming call key)
  | .invalidate scope => opened.invalidate call scope

/-- A caller that found nothing claims its key.  If a load of the key is running it waits for that
load, away from the stack; otherwise it leads a load, after a second look at the store. -/
def claimKey (cache : Cache) (call : Nat) (key : BlockKey) : Cache :=
  match cache.loads.get? key with
  | some pending =>
      ({ cache with
          loads := cache.loads.modify key fun load =>
            { load with followers := load.followers ++ [call] } }.count (·.recordCoalesced)).record
        (.joined call key pending.leader)
  | none =>
      let claimed :=
        { cache with loads := cache.loads.insert key ⟨call, false, []⟩ }.record
          (.claimed call key)
      match claimed.store.lookup? key with
      | some (payload, store) =>
          ((({ claimed with store := store }.record (.touched key)).count (·.recordHit)).publish
            call key (.value payload)).answer call (.loaded (.value payload))
      | none =>
          (((claimed.count (·.recordMiss)).announce (.missed key)).push
            (.loading call key)).record (.loaderStarted call key)

/-- A panic leaves the call of a load: its followers get an error and the key can be claimed
again.  What the load has already stored stays stored. -/
def unwindLoad (cache : Cache) (call : Nat) (key : BlockKey) (text : String) : Cache :=
  (cache.publish call key (panicOutcome key)).record (.unwound call text)

/-- What a sum that does not fit into a word panics with. -/
def overflowText : String := "attempt to add with overflow"

/-- A simple store has taken a loaded value in and is within its limits again; what had to go is
counted and reported. -/
def simplyStored (cache : Cache) (admission : Admission) (store : SimpleStore)
    (blocks : List (BlockKey × CachedBlock)) : Cache :=
  let removals := blocks.map fun removed => (⟨removed.1, removed.2, .size⟩ : Removal)
  let stored :=
    { cache with
      store := .simple store
      journal := (removals.map Event.removed).reverse ++ cache.journal }
  if removals.isEmpty then stored.push (.concluding admission)
  else
    ((stored.count (·.recordEvictions removals.length.toUInt64)).announce
      (.simpleEviction removals.length)).push (.reporting removals (.conclude admission))

/-- A loaded value is stored.  A weighted store that is then over its budget begins an eviction
pass, unless one is under way; a simple store is brought back within its limits at once, or panics
if the new weight cannot be summed with the others. -/
def storeLoaded (cache : Cache) (admission : Admission) : Cache :=
  match cache.store with
  | .weighted store =>
      let grown := store.insert admission.key admission.call admission.value
      if grown.overBudget && !grown.evicting then
        { cache with store := .weighted { grown with evicting := true } }.push
          (.evicting admission 0 0)
      else { cache with store := .weighted grown }.push (.concluding admission)
  | .simple store =>
      match store.put admission.key admission.call admission.value with
      | .ok (blocks, left) => cache.simplyStored admission left blocks
      | .error left =>
          { cache with store := .simple left }.unwindLoad admission.call admission.key overflowText

/-- An eviction pass that a panic has left is open to others again. -/
def releasePass (cache : Cache) : Cache :=
  match cache.store with
  | .weighted store => { cache with store := .weighted { store with evicting := false } }
  | .simple _ => cache

/-- A panic of the listener leaves the call on whose behalf it ran.  What the call has stored or
removed by then stays so, and what it had yet to count or report is left undone. -/
def unwind (cache : Cache) (frame : Frame) (text : String) : Option Cache :=
  match frame with
  | .evicting admission _ _ =>
      some (cache.releasePass.unwindLoad admission.call admission.key text)
  | .retracting admission => some (cache.unwindLoad admission.call admission.key text)
  | .dropping call => some (cache.record (.unwound call text))
  | .sweeping call _ _ _ => some (cache.record (.unwound call text))
  | .reporting _ (.conclude admission) =>
      some (cache.unwindLoad admission.call admission.key text)
  | .reporting _ (.finish admission) =>
      some (cache.unwindLoad admission.call admission.key text)
  | .reporting _ (.close call _ _) => some (cache.record (.unwound call text))
  | _ => none

/-- The state right after a move, before the cache takes any step of its own; none if the move does
not fit. -/
def accept (cache : Cache) (move : Move) : Option Cache :=
  match move, cache.stack with
  | .begin request, _ => if cache.isSettled then some (cache.beginCall request) else none
  | .claim, .claiming call key :: rest => some ({ cache with stack := rest }.claimKey call key)
  | .loaderReturns payload, .loading call key :: rest =>
      let below := { cache with stack := rest }
      some (((below.count (·.recordLoad true)).record (.loaded call key payload)).storeLoaded
        ⟨call, key, payload⟩)
  | .loaderFails outermost causes, .loading call key :: rest =>
      let below := { cache with stack := rest }
      let outcome := Outcome.failure (.loaderFailed outermost causes)
      some ((((below.count (·.recordLoad false)).record (.loaderFailed call key)).publish
        call key outcome).answer call (.loaded outcome))
  | .loaderPanics text, .loading call key :: rest =>
      some (({ cache with stack := rest }.record (.loaderPanicked call key)).unwindLoad
        call key text)
  | .listenerReturns, .listening _ :: rest => some { cache with stack := rest }
  | .listenerPanics text, .listening _ :: frame :: rest =>
      { cache with stack := rest }.unwind frame text
  | _, _ => none

/-- A move and everything the cache then does before control is outside it again.  A move that does
not fit the state is not made. -/
def perform (cache : Cache) (move : Move) : Option Cache :=
  (cache.accept move).map settle

end Cache

end VolumeCache
