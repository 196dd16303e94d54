import VolumeCache.Cache.Step
import VolumeCache.Proofs.Tables

namespace VolumeCache

/-!
# What a cache can do next

Two relations list every change of a cache: what a move leads to at once, and what the cache does
on its own afterwards.  Each case names the situation and gives the whole state after it, so that
an invariant is proved by going through the cases and the functions behind them are opened here
only.  The cases say what the functions do in every state, reachable or not.
-/

namespace Listener

/-- What the journal says of a removal that is reported. -/
def told : Listener → Removal → List Event
  | .absent, _ => []
  | _, removal => [.reported removal]

def running : Listener → Removal → List Frame
  | .interactive, removal => [.listening removal]
  | _, _ => []

@[simp] theorem mem_running {listener : Listener} {removal : Removal} {frame : Frame} :
    frame ∈ listener.running removal ↔ listener = .interactive ∧ frame = .listening removal := by
  cases listener <;> simp [running]

variable (listener : Listener) (removal : Removal)

@[simp] theorem filterMap_running {α : Type} (shown : Frame → Option α) :
    (listener.running removal).filterMap shown =
      if listener = .interactive then (shown (.listening removal)).toList else [] := by
  cases listener <;> cases seen : shown (.listening removal) <;> simp [running, seen]

@[simp] theorem countP_running (counted : Frame → Bool) :
    (listener.running removal).countP counted =
      if listener = .interactive then (counted (.listening removal)).toNat else 0 := by
  cases listener <;> cases seen : counted (.listening removal) <;> simp [running, seen]

end Listener

namespace PendingLoad

/-- The calls that wait for the load of a key, if the given call leads it. -/
def waiting (loads : Table BlockKey PendingLoad) (call : Nat) (key : BlockKey) : List Nat :=
  match loads.get? key with
  | some pending => if pending.leader = call then pending.followers else []
  | none => []

/-- The loads still running once the given call has given up the key, if it leads its load. -/
def released (loads : Table BlockKey PendingLoad) (call : Nat) (key : BlockKey) :
    Table BlockKey PendingLoad :=
  match loads.get? key with
  | some pending => if pending.leader = call then loads.erase key else loads
  | none => loads

/-- The loads after those in a scope have been overtaken. -/
def overtaken (loads : Table BlockKey PendingLoad) (scope : Scope) : Table BlockKey PendingLoad :=
  loads.mapValues fun key pending =>
    if scope.covers key then { pending with stale := true } else pending

def answers (leader : Nat) (outcome : Outcome) (calls : List Nat) : List Event :=
  (calls.map fun call => .answered call leader outcome).reverse

end PendingLoad

namespace Store

/-- The store with its index rebuilt if that is due. -/
def compacted : Store → Store
  | .weighted store => .weighted (store.compact?.getD store)
  | .simple store => .simple store

def compactionNotice : Store → List Event
  | .weighted store =>
      match store.compact? with
      | some rebuilt => [.noticed (.indexCompacted rebuilt.recency.size)]
      | none => []
  | .simple _ => []

end Store

namespace Cache

open PendingLoad

/-- Removals of one cause, in the order in which the blocks were removed. -/
def removalsOf (cause : RemovalCause) (blocks : List (BlockKey × CachedBlock)) : List Removal :=
  blocks.map fun removed => ⟨removed.1, removed.2, cause⟩

/-- The removals as events, the latest first. -/
def removedEvents (removals : List Removal) : List Event :=
  (removals.map Event.removed).reverse

def passNotice (store : WeightedStore) (examined evicted : Nat) : List Event :=
  if evicted = 0 then []
  else [.noticed (.evictionPass evicted examined store.total store.budget)]

def clearedNotice : Scope → Nat → List Event
  | .exactly _, _ => []
  | .within level, removed => [.noticed (.levelInvalidated level removed)]
  | .everything, removed => [.noticed (.allInvalidated removed)]

/-- How a simple store goes on after an admission: it reports what it removed, if anything. -/
def sequelOf (admission : Admission) : List Removal → Frame
  | [] => .concluding admission
  | removals => .reporting removals (.conclude admission)

/-- What a simple store says after an admission that removed something. -/
def evictionNotice : List Removal → List Event
  | [] => []
  | removals => [.noticed (.simpleEviction removals.length)]

/-! ## Small changes in closed form -/

theorem report_eq (cache : Cache) (removal : Removal) :
    cache.report removal =
      { cache with
        stack := cache.listener.running removal ++ cache.stack
        journal := cache.listener.told removal ++ cache.journal } := by
  obtain ⟨store, listener, loads, counters, stack, calls, journal⟩ := cache
  cases listener <;> rfl

theorem answerAll_eq (cache : Cache) (leader : Nat) (outcome : Outcome) (calls : List Nat) :
    cache.answerAll leader outcome calls =
      { cache with journal := answers leader outcome calls ++ cache.journal } := by
  induction calls generalizing cache with
  | nil => rfl
  | cons call rest ih => simp [answerAll, ih, record, answers]

theorem publish_eq (cache : Cache) (call : Nat) (key : BlockKey) (outcome : Outcome) :
    cache.publish call key outcome =
      { cache with
        loads := released cache.loads call key
        journal := answers call outcome (waiting cache.loads call key) ++ cache.journal } := by
  unfold publish released waiting
  cases held : cache.loads.get? key with
  | none => rfl
  | some pending =>
      by_cases leads : pending.leader = call
      · simp only [leads, if_true, answerAll_eq]
      · simp only [if_neg leads]
        rfl

theorem compact_eq (cache : Cache) :
    cache.compact =
      { cache with
        store := cache.store.compacted
        journal := cache.store.compactionNotice ++ cache.journal } := by
  obtain ⟨store, listener, loads, counters, stack, calls, journal⟩ := cache
  cases store with
  | weighted store =>
      unfold compact
      cases due : store.compact? <;>
        simp [due, Store.compacted, Store.compactionNotice, announce, record]
  | simple store => rfl

theorem announceCleared_eq (cache : Cache) (scope : Scope) (removed : Nat) :
    cache.announceCleared scope removed =
      { cache with journal := clearedNotice scope removed ++ cache.journal } := by
  cases scope <;> rfl

theorem recordEvictions_zero (counters : Counters) : counters.recordEvictions 0 = counters := by
  simp [Counters.recordEvictions]

theorem endPass_eq (cache : Cache) (store : WeightedStore) (admission : Admission)
    (examined evicted : Nat) :
    cache.endPass store admission examined evicted =
      { cache with
        store := .weighted { store with evicting := false }
        stack := .concluding admission :: cache.stack
        counters := cache.counters.recordEvictions evicted.toUInt64
        journal := passNotice store examined evicted ++ cache.journal } := by
  unfold endPass passNotice
  split
  · rename_i none
    simp [none, push, recordEvictions_zero]
  · rfl

theorem simplyStored_eq (cache : Cache) (admission : Admission) (store : SimpleStore)
    (blocks : List (BlockKey × CachedBlock)) :
    cache.simplyStored admission store blocks =
      { cache with
        store := .simple store
        stack := sequelOf admission (removalsOf .size blocks) :: cache.stack
        counters := cache.counters.recordEvictions blocks.length.toUInt64
        journal := evictionNotice (removalsOf .size blocks)
          ++ removedEvents (removalsOf .size blocks) ++ cache.journal } := by
  cases blocks with
  | nil =>
      simp [simplyStored, removalsOf, sequelOf, evictionNotice, removedEvents, push,
        recordEvictions_zero]
  | cons first rest =>
      simp [simplyStored, removalsOf, sequelOf, evictionNotice, removedEvents, push, count,
        announce, record]

theorem releasePass_entries (cache : Cache) :
    cache.releasePass.store.entries = cache.store.entries := by
  obtain ⟨store, listener, loads, counters, stack, calls, journal⟩ := cache
  cases store <;> rfl

/-! ## What a move leads to -/

/-- The state right after a move.  There is one case for each way in which a move can turn out, with
the circumstances that lead to it, so whatever is true of all of them is true of every move that is
accepted. -/
inductive Accepted (cache : Cache) : Move → Cache → Prop
  | found {key : BlockKey} {payload : Payload} {store : Store}
      (settled : cache.isSettled = true)
      (held : cache.store.lookup? key = some (payload, store)) :
      Accepted cache (.begin (.find key))
        { cache with
          store := store
          calls := cache.calls + 1
          journal := .returned cache.calls (.found (some payload)) :: .touched key
            :: .began cache.calls (.find key) :: cache.journal }
  | missing {key : BlockKey}
      (settled : cache.isSettled = true)
      (absent : cache.store.lookup? key = none) :
      Accepted cache (.begin (.find key))
        { cache with
          calls := cache.calls + 1
          journal := .returned cache.calls (.found none)
            :: .began cache.calls (.find key) :: cache.journal }
  | hit {key : BlockKey} {payload : Payload} {store : Store}
      (settled : cache.isSettled = true)
      (held : cache.store.lookup? key = some (payload, store)) :
      Accepted cache (.begin (.load key))
        { cache with
          store := store
          calls := cache.calls + 1
          counters := cache.counters.recordHit
          journal := .returned cache.calls (.loaded (.value payload)) :: .touched key
            :: .began cache.calls (.load key) :: cache.journal }
  | opened {key : BlockKey}
      (settled : cache.isSettled = true)
      (absent : cache.store.lookup? key = none) :
      Accepted cache (.begin (.load key))
        { cache with
          calls := cache.calls + 1
          stack := .claiming cache.calls key :: cache.stack
          journal := .began cache.calls (.load key) :: cache.journal }
  | dropped {key : BlockKey} {store left : WeightedStore} {block : CachedBlock}
      (settled : cache.isSettled = true)
      (weighted : cache.store = .weighted store)
      (taken : store.remove? key = some (block, left)) :
      Accepted cache (.begin (.invalidate (.exactly key)))
        { cache with
          store := .weighted left
          loads := overtaken cache.loads (.exactly key)
          calls := cache.calls + 1
          stack := cache.listener.running ⟨key, block, .explicit⟩
            ++ .dropping cache.calls :: cache.stack
          journal := cache.listener.told ⟨key, block, .explicit⟩
            ++ .removed ⟨key, block, .explicit⟩
            :: .began cache.calls (.invalidate (.exactly key)) :: cache.journal }
  | nothingDropped {key : BlockKey} {store : WeightedStore}
      (settled : cache.isSettled = true)
      (weighted : cache.store = .weighted store)
      (absent : store.remove? key = none) :
      Accepted cache (.begin (.invalidate (.exactly key)))
        { cache with
          loads := overtaken cache.loads (.exactly key)
          calls := cache.calls + 1
          journal := .returned cache.calls .done
            :: .began cache.calls (.invalidate (.exactly key)) :: cache.journal }
  | sweepBegun {scope : Scope} {store : WeightedStore}
      (settled : cache.isSettled = true)
      (weighted : cache.store = .weighted store)
      (bulk : ∀ key, scope ≠ .exactly key) :
      Accepted cache (.begin (.invalidate scope))
        { cache with
          loads := overtaken cache.loads scope
          calls := cache.calls + 1
          stack := .sweeping cache.calls scope (store.matching scope) 0 :: cache.stack
          journal := .began cache.calls (.invalidate scope) :: cache.journal }
  | cleared {scope : Scope} {store left : SimpleStore} {blocks : List (BlockKey × CachedBlock)}
      (settled : cache.isSettled = true)
      (simple : cache.store = .simple store)
      (taken : store.removeWhere scope = (blocks, left)) :
      Accepted cache (.begin (.invalidate scope))
        { cache with
          store := .simple left
          loads := overtaken cache.loads scope
          calls := cache.calls + 1
          stack := .reporting (removalsOf .explicit blocks)
            (.close cache.calls scope blocks.length) :: cache.stack
          counters := cache.counters.recordInvalidations blocks.length.toUInt64
          journal := removedEvents (removalsOf .explicit blocks)
            ++ .began cache.calls (.invalidate scope) :: cache.journal }
  | joined {call : Nat} {key : BlockKey} {rest : List Frame} {pending : PendingLoad}
      (top : cache.stack = .claiming call key :: rest)
      (running : cache.loads.get? key = some pending) :
      Accepted cache .claim
        { cache with
          loads := cache.loads.modify key fun load =>
            { load with followers := load.followers ++ [call] }
          stack := rest
          counters := cache.counters.recordCoalesced
          journal := .joined call key pending.leader :: cache.journal }
  | lateHit {call : Nat} {key : BlockKey} {rest : List Frame} {payload : Payload} {store : Store}
      (top : cache.stack = .claiming call key :: rest)
      (free : cache.loads.get? key = none)
      (held : cache.store.lookup? key = some (payload, store)) :
      Accepted cache .claim
        { cache with
          store := store
          stack := rest
          counters := cache.counters.recordHit
          journal := .returned call (.loaded (.value payload)) :: .touched key
            :: .claimed call key :: cache.journal }
  | claimed {call : Nat} {key : BlockKey} {rest : List Frame}
      (top : cache.stack = .claiming call key :: rest)
      (free : cache.loads.get? key = none)
      (absent : cache.store.lookup? key = none) :
      Accepted cache .claim
        { cache with
          loads := cache.loads.insert key ⟨call, false, []⟩
          stack := .loading call key :: rest
          counters := cache.counters.recordMiss
          journal := .loaderStarted call key :: .noticed (.missed key) :: .claimed call key
            :: cache.journal }
  | passBegun {call : Nat} {key : BlockKey} {rest : List Frame} {payload : Payload}
      {store : WeightedStore}
      (top : cache.stack = .loading call key :: rest)
      (weighted : cache.store = .weighted store)
      (heavy : (store.insert key call payload).overBudget = true)
      (free : store.evicting = false) :
      Accepted cache (.loaderReturns payload)
        { cache with
          store := .weighted { store.insert key call payload with evicting := true }
          stack := .evicting ⟨call, key, payload⟩ 0 0 :: rest
          counters := cache.counters.recordLoad true
          journal := .loaded call key payload :: cache.journal }
  | stored {call : Nat} {key : BlockKey} {rest : List Frame} {payload : Payload}
      {store : WeightedStore}
      (top : cache.stack = .loading call key :: rest)
      (weighted : cache.store = .weighted store)
      (within : (store.insert key call payload).overBudget = false ∨ store.evicting = true) :
      Accepted cache (.loaderReturns payload)
        { cache with
          store := .weighted (store.insert key call payload)
          stack := .concluding ⟨call, key, payload⟩ :: rest
          counters := cache.counters.recordLoad true
          journal := .loaded call key payload :: cache.journal }
  | simplyStored {call : Nat} {key : BlockKey} {rest : List Frame} {payload : Payload}
      {store left : SimpleStore} {blocks : List (BlockKey × CachedBlock)}
      (top : cache.stack = .loading call key :: rest)
      (simple : cache.store = .simple store)
      (put : store.put key call payload = .ok (blocks, left)) :
      Accepted cache (.loaderReturns payload)
        { cache with
          store := .simple left
          stack := sequelOf ⟨call, key, payload⟩ (removalsOf .size blocks) :: rest
          counters := (cache.counters.recordLoad true).recordEvictions blocks.length.toUInt64
          journal := evictionNotice (removalsOf .size blocks)
            ++ removedEvents (removalsOf .size blocks)
            ++ .loaded call key payload :: cache.journal }
  | overflown {call : Nat} {key : BlockKey} {rest : List Frame} {payload : Payload}
      {store left : SimpleStore}
      (top : cache.stack = .loading call key :: rest)
      (simple : cache.store = .simple store)
      (put : store.put key call payload = .error left) :
      Accepted cache (.loaderReturns payload)
        { cache with
          store := .simple left
          loads := released cache.loads call key
          stack := rest
          counters := cache.counters.recordLoad true
          journal := .unwound call overflowText
            :: (answers call (panicOutcome key) (waiting cache.loads call key)
              ++ .loaded call key payload :: cache.journal) }
  | failed {call : Nat} {key : BlockKey} {rest : List Frame} {outermost : String}
      {causes : List String}
      (top : cache.stack = .loading call key :: rest) :
      Accepted cache (.loaderFails outermost causes)
        { cache with
          loads := released cache.loads call key
          stack := rest
          counters := cache.counters.recordLoad false
          journal := .returned call (.loaded (.failure (.loaderFailed outermost causes)))
            :: (answers call (.failure (.loaderFailed outermost causes))
                (waiting cache.loads call key)
              ++ .loaderFailed call key :: cache.journal) }
  | panicked {call : Nat} {key : BlockKey} {rest : List Frame} {text : String}
      (top : cache.stack = .loading call key :: rest) :
      Accepted cache (.loaderPanics text)
        { cache with
          loads := released cache.loads call key
          stack := rest
          journal := .unwound call text
            :: (answers call (panicOutcome key) (waiting cache.loads call key)
              ++ .loaderPanicked call key :: cache.journal) }
  | listenerReturned {removal : Removal} {rest : List Frame}
      (top : cache.stack = .listening removal :: rest) :
      Accepted cache .listenerReturns { cache with stack := rest }
  | passUnwound {removal : Removal} {rest : List Frame} {admission : Admission}
      {examined evicted : Nat} {text : String}
      (top : cache.stack = .listening removal :: .evicting admission examined evicted :: rest) :
      Accepted cache (.listenerPanics text)
        { cache with
          store := (cache.releasePass).store
          loads := released cache.loads admission.call admission.key
          stack := rest
          journal := .unwound admission.call text
            :: (answers admission.call (panicOutcome admission.key)
                (waiting cache.loads admission.call admission.key) ++ cache.journal) }
  | loadUnwound {removal : Removal} {frame : Frame} {rest : List Frame} {admission : Admission}
      {text : String}
      (top : cache.stack = .listening removal :: frame :: rest)
      (leading : frame = .retracting admission
        ∨ (∃ removals, frame = .reporting removals (.conclude admission))
        ∨ ∃ removals, frame = .reporting removals (.finish admission)) :
      Accepted cache (.listenerPanics text)
        { cache with
          loads := released cache.loads admission.call admission.key
          stack := rest
          journal := .unwound admission.call text
            :: (answers admission.call (panicOutcome admission.key)
                (waiting cache.loads admission.call admission.key) ++ cache.journal) }
  | clearingUnwound {removal : Removal} {frame : Frame} {rest : List Frame} {call : Nat}
      {text : String}
      (top : cache.stack = .listening removal :: frame :: rest)
      (clearing : frame = .dropping call
        ∨ (∃ scope doomed removed, frame = .sweeping call scope doomed removed)
        ∨ ∃ removals scope removed, frame = .reporting removals (.close call scope removed)) :
      Accepted cache (.listenerPanics text)
        { cache with
          stack := rest
          journal := .unwound call text :: cache.journal }

/-! ## What the cache does on its own -/

/-- The state after one step of the innermost call.  The cases are told apart by the frame on top of
the stack and by what the store holds; a cache of which none is true is one in which control is
outside, or one whose frames do not suit its store. -/
inductive Advanced (cache : Cache) : Cache → Prop
  | outdated {admission : Admission} {examined evicted : Nat} {rest : List Frame}
      {store left : WeightedStore}
      (top : cache.stack = .evicting admission examined evicted :: rest)
      (weighted : cache.store = .weighted store)
      (heavy : store.overBudget = true)
      (first : store.examine = .outdated left) :
      Advanced cache
        { cache with
          store := .weighted left
          stack := .evicting admission (examined + 1) evicted :: rest
          journal := .examined :: cache.journal }
  | evicted {admission : Admission} {examined evicted : Nat} {rest : List Frame}
      {store left : WeightedStore} {key : BlockKey} {block : CachedBlock}
      (top : cache.stack = .evicting admission examined evicted :: rest)
      (weighted : cache.store = .weighted store)
      (heavy : store.overBudget = true)
      (first : store.examine = .evicted left key block) :
      Advanced cache
        { cache with
          store := .weighted left
          stack := cache.listener.running ⟨key, block, .size⟩
            ++ .evicting admission (examined + 1) (evicted + 1) :: rest
          journal := cache.listener.told ⟨key, block, .size⟩
            ++ .removed ⟨key, block, .size⟩ :: .examined :: cache.journal }
  | passEnded {admission : Admission} {examined evicted : Nat} {rest : List Frame}
      {store : WeightedStore}
      (top : cache.stack = .evicting admission examined evicted :: rest)
      (weighted : cache.store = .weighted store)
      (done : store.overBudget = false ∨ store.examine = .exhausted) :
      Advanced cache
        { cache with
          store := .weighted { store with evicting := false }
          stack := .concluding admission :: rest
          counters := cache.counters.recordEvictions evicted.toUInt64
          journal := passNotice store examined evicted ++ cache.journal }
  | kept {admission : Admission} {rest : List Frame}
      (top : cache.stack = .concluding admission :: rest)
      (fresh : cache.isOvertaken admission.key = false) :
      Advanced cache
        { cache with
          loads := released cache.loads admission.call admission.key
          stack := rest
          journal := .returned admission.call (.loaded (.value admission.value))
            :: (answers admission.call (.value admission.value)
              (waiting cache.loads admission.call admission.key) ++ cache.journal) }
  | goneAlready {admission : Admission} {rest : List Frame}
      (top : cache.stack = .concluding admission :: rest)
      (stale : cache.isOvertaken admission.key = true)
      (absent : cache.store.entries.get? admission.key = none) :
      Advanced cache
        { cache with
          loads := released cache.loads admission.call admission.key
          stack := rest
          journal := .returned admission.call (.loaded (.value admission.value))
            :: (answers admission.call (.value admission.value)
                (waiting cache.loads admission.call admission.key)
              ++ .noticed (.overtaken admission.key) :: cache.journal) }
  | retracted {admission : Admission} {rest : List Frame} {store left : WeightedStore}
      {block : CachedBlock}
      (top : cache.stack = .concluding admission :: rest)
      (stale : cache.isOvertaken admission.key = true)
      (weighted : cache.store = .weighted store)
      (taken : store.remove? admission.key = some (block, left)) :
      Advanced cache
        { cache with
          store := .weighted left
          stack := cache.listener.running ⟨admission.key, block, .explicit⟩
            ++ .retracting admission :: rest
          journal := cache.listener.told ⟨admission.key, block, .explicit⟩
            ++ .removed ⟨admission.key, block, .explicit⟩
            :: .noticed (.overtaken admission.key) :: cache.journal }
  | takenBack {admission : Admission} {rest : List Frame} {store left : SimpleStore}
      {block : CachedBlock}
      (top : cache.stack = .concluding admission :: rest)
      (stale : cache.isOvertaken admission.key = true)
      (simple : cache.store = .simple store)
      (taken : store.remove? admission.key = some (block, left)) :
      Advanced cache
        { cache with
          store := .simple left
          stack := .reporting [⟨admission.key, block, .explicit⟩] (.finish admission) :: rest
          counters := cache.counters.recordInvalidations 1
          journal := .removed ⟨admission.key, block, .explicit⟩
            :: .noticed (.overtaken admission.key) :: cache.journal }
  | retractionCounted {admission : Admission} {rest : List Frame}
      (top : cache.stack = .retracting admission :: rest) :
      Advanced cache
        { cache with
          loads := released cache.loads admission.call admission.key
          stack := rest
          counters := cache.counters.recordInvalidations 1
          journal := .returned admission.call (.loaded (.value admission.value))
            :: (answers admission.call (.value admission.value)
              (waiting cache.loads admission.call admission.key) ++ cache.journal) }
  | dropCounted {call : Nat} {rest : List Frame}
      (top : cache.stack = .dropping call :: rest) :
      Advanced cache
        { cache with
          store := cache.store.compacted
          stack := rest
          counters := cache.counters.recordInvalidations 1
          journal := .returned call .done
            :: (cache.store.compactionNotice ++ cache.journal) }
  | swept {call : Nat} {scope : Scope} {key : BlockKey} {load : Nat}
      {doomed : List (BlockKey × Nat)} {removed : Nat} {rest : List Frame}
      {store left : WeightedStore} {block : CachedBlock}
      (top : cache.stack = .sweeping call scope ((key, load) :: doomed) removed :: rest)
      (weighted : cache.store = .weighted store)
      (taken : store.removeLoaded? key load = some (block, left)) :
      Advanced cache
        { cache with
          store := .weighted left
          stack := cache.listener.running ⟨key, block, .explicit⟩
            ++ .sweeping call scope doomed (removed + 1) :: rest
          journal := cache.listener.told ⟨key, block, .explicit⟩
            ++ .removed ⟨key, block, .explicit⟩ :: cache.journal }
  | passedOver {call : Nat} {scope : Scope} {key : BlockKey} {load : Nat}
      {doomed : List (BlockKey × Nat)} {removed : Nat} {rest : List Frame} {store : WeightedStore}
      (top : cache.stack = .sweeping call scope ((key, load) :: doomed) removed :: rest)
      (weighted : cache.store = .weighted store)
      (absent : store.removeLoaded? key load = none) :
      Advanced cache
        { cache with stack := .sweeping call scope doomed removed :: rest }
  | sweepEnded {call : Nat} {scope : Scope} {removed : Nat} {rest : List Frame}
      {store : WeightedStore}
      (top : cache.stack = .sweeping call scope [] removed :: rest)
      (weighted : cache.store = .weighted store) :
      Advanced cache
        { cache with
          store := cache.store.compacted
          stack := rest
          counters := cache.counters.recordInvalidations removed.toUInt64
          journal := .returned call .done
            :: (clearedNotice scope removed ++ (cache.store.compactionNotice ++ cache.journal)) }
  | reported {removal : Removal} {removals : List Removal} {sequel : Sequel} {rest : List Frame}
      (top : cache.stack = .reporting (removal :: removals) sequel :: rest) :
      Advanced cache
        { cache with
          stack := cache.listener.running removal ++ .reporting removals sequel :: rest
          journal := cache.listener.told removal ++ cache.journal }
  | admissionReported {admission : Admission} {rest : List Frame}
      (top : cache.stack = .reporting [] (.conclude admission) :: rest) :
      Advanced cache { cache with stack := .concluding admission :: rest }
  | retractionReported {admission : Admission} {rest : List Frame}
      (top : cache.stack = .reporting [] (.finish admission) :: rest) :
      Advanced cache
        { cache with
          loads := released cache.loads admission.call admission.key
          stack := rest
          journal := .returned admission.call (.loaded (.value admission.value))
            :: (answers admission.call (.value admission.value)
              (waiting cache.loads admission.call admission.key) ++ cache.journal) }
  | clearingReported {call : Nat} {scope : Scope} {removed : Nat} {rest : List Frame}
      (top : cache.stack = .reporting [] (.close call scope removed) :: rest) :
      Advanced cache
        { cache with
          stack := rest
          journal := .returned call .done :: (clearedNotice scope removed ++ cache.journal) }

/-! ## Nothing else happens -/

theorem finish_eq (cache : Cache) (admission : Admission) :
    cache.finish admission =
      { cache with
        loads := released cache.loads admission.call admission.key
        journal := .returned admission.call (.loaded (.value admission.value))
          :: (answers admission.call (.value admission.value)
            (waiting cache.loads admission.call admission.key) ++ cache.journal) } := by
  unfold finish
  rw [publish_eq]
  rfl

theorem unwindLoad_eq (cache : Cache) (call : Nat) (key : BlockKey) (text : String) :
    cache.unwindLoad call key text =
      { cache with
        loads := released cache.loads call key
        journal := .unwound call text
          :: (answers call (panicOutcome key) (waiting cache.loads call key)
            ++ cache.journal) } := by
  unfold unwindLoad
  rw [publish_eq]
  rfl

theorem invalidate_accepted {cache : Cache} (settled : cache.isSettled = true) (scope : Scope) :
    Accepted cache (.begin (.invalidate scope))
      (({ cache with calls := cache.calls + 1 }.record
        (.began cache.calls (.invalidate scope))).invalidate cache.calls scope) := by
  obtain ⟨store, listener, loads, counters, stack, calls, journal⟩ := cache
  cases store with
  | simple store =>
      cases taken : store.removeWhere scope with
      | mk blocks left =>
          simp only [invalidate, overtake, record, taken, count, push, List.length_map]
          exact .cleared settled rfl taken
  | weighted store =>
      cases scope with
      | exactly key =>
          cases taken : store.remove? key with
          | none =>
              simp only [invalidate, overtake, record, taken, answer]
              exact .nothingDropped settled rfl taken
          | some removed =>
              obtain ⟨block, left⟩ := removed
              simp only [invalidate, overtake, record, taken, push, report_eq]
              exact .dropped settled rfl taken
      | within level => exact .sweepBegun settled rfl (by simp)
      | everything => exact .sweepBegun settled rfl (by simp)

theorem beginCall_accepted {cache : Cache} (settled : cache.isSettled = true)
    (request : Request) : Accepted cache (.begin request) (cache.beginCall request) := by
  cases request with
  | find key =>
      simp only [beginCall, record]
      cases held : cache.store.lookup? key with
      | none => exact .missing settled held
      | some found => exact .found settled held
  | load key =>
      simp only [beginCall, record]
      cases held : cache.store.lookup? key with
      | none => exact .opened settled held
      | some found => exact .hit settled held
  | invalidate scope => exact invalidate_accepted settled scope

theorem claimKey_accepted {cache : Cache} {call : Nat} {key : BlockKey} {rest : List Frame}
    (top : cache.stack = .claiming call key :: rest) :
    Accepted cache .claim ({ cache with stack := rest }.claimKey call key) := by
  simp only [claimKey, record]
  cases running : cache.loads.get? key with
  | some pending => exact .joined top running
  | none =>
      cases held : cache.store.lookup? key with
      | none => exact .claimed top running held
      | some found =>
          -- The claim is given up as soon as it is made.
          simp only [count, publish_eq, answer, record, released, waiting, Table.get?_insert,
            if_true, Table.erase_insert_of_get?_none running]
          exact .lateHit top running held

theorem storeLoaded_accepted {cache : Cache} {call : Nat} {key : BlockKey} {rest : List Frame}
    (top : cache.stack = .loading call key :: rest) (payload : Payload) :
    Accepted cache (.loaderReturns payload)
      (((({ cache with stack := rest }).count (·.recordLoad true)).record
        (.loaded call key payload)).storeLoaded ⟨call, key, payload⟩) := by
  obtain ⟨store, listener, loads, counters, stack, calls, journal⟩ := cache
  cases store with
  | weighted store =>
      simp only [storeLoaded, count, record, push]
      split
      · rename_i starts
        rw [Bool.and_eq_true, Bool.not_eq_true'] at starts
        exact .passBegun top rfl starts.1 starts.2
      · rename_i stays
        rw [Bool.and_eq_true, Bool.not_eq_true', Decidable.not_and_iff_not_or_not,
          Bool.not_eq_true, Bool.not_eq_false] at stays
        exact .stored top rfl stays
  | simple store =>
      simp only [storeLoaded, count, record]
      cases put : store.put key call payload with
      | ok result =>
          simp only [simplyStored_eq]
          exact .simplyStored top rfl put
      | error left =>
          simp only [unwindLoad_eq]
          exact .overflown top rfl put

theorem unwind_accepted {cache next : Cache} {removal : Removal} {frame : Frame}
    {rest : List Frame} {text : String} (top : cache.stack = .listening removal :: frame :: rest)
    (taken : { cache with stack := rest }.unwind frame text = some next) :
    Accepted cache (.listenerPanics text) next := by
  unfold unwind at taken
  split at taken
  · cases taken
    rw [unwindLoad_eq]
    obtain ⟨store, listener, loads, counters, stack, calls, journal⟩ := cache
    cases store <;> exact .passUnwound top
  · cases taken
    rw [unwindLoad_eq]
    exact .loadUnwound top (Or.inl rfl)
  · cases taken
    exact .clearingUnwound top (Or.inl rfl)
  · cases taken
    exact .clearingUnwound top (Or.inr (Or.inl ⟨_, _, _, rfl⟩))
  · cases taken
    rw [unwindLoad_eq]
    exact .loadUnwound top (Or.inr (Or.inl ⟨_, rfl⟩))
  · cases taken
    rw [unwindLoad_eq]
    exact .loadUnwound top (Or.inr (Or.inr ⟨_, rfl⟩))
  · cases taken
    exact .clearingUnwound top (Or.inr (Or.inr ⟨_, _, _, rfl⟩))
  · cases taken

/-- Every move that is accepted is one of the listed cases.  Proofs about moves split into these
cases and do not look at the definition of a move again. -/
theorem accepted_of_accept {cache next : Cache} {move : Move}
    (taken : cache.accept move = some next) : Accepted cache move next := by
  unfold accept at taken
  split at taken
  · split at taken
    · rename_i settled
      cases taken
      exact beginCall_accepted settled _
    · cases taken
  · rename_i top
    cases taken
    exact claimKey_accepted top
  · rename_i top
    cases taken
    exact storeLoaded_accepted top _
  · rename_i top
    cases taken
    simp only [count, record, publish_eq, answer]
    exact .failed top
  · rename_i top
    cases taken
    simp only [record, unwindLoad_eq]
    exact .panicked top
  · rename_i top
    cases taken
    exact .listenerReturned top
  · rename_i top
    exact unwind_accepted top taken
  · cases taken

theorem stepPass_advanced {cache : Cache} {admission : Admission} {examined evicted : Nat}
    {rest : List Frame} {store : WeightedStore}
    (top : cache.stack = .evicting admission examined evicted :: rest)
    (weighted : cache.store = .weighted store) :
    Advanced cache ({ cache with stack := rest }.stepPass store admission examined evicted) := by
  unfold stepPass
  split
  · rename_i heavy
    cases first : store.examine with
    | exhausted =>
        simp only [endPass_eq]
        exact .passEnded top weighted (Or.inr first)
    | outdated left => exact .outdated top weighted heavy first
    | evicted left key block =>
        simp only [report_eq, record, push]
        exact .evicted top weighted heavy first
  · rename_i within
    rw [endPass_eq]
    exact .passEnded top weighted (Or.inl (by simpa using within))

theorem conclude_advanced {cache : Cache} {admission : Admission} {rest : List Frame}
    (top : cache.stack = .concluding admission :: rest) :
    Advanced cache ({ cache with stack := rest }.conclude admission) := by
  unfold conclude
  split
  · rename_i stale
    obtain ⟨store, listener, loads, counters, stack, calls, journal⟩ := cache
    cases store with
    | weighted store =>
        simp only [announce, record]
        cases taken : store.remove? admission.key with
        | none =>
            have absent : store.entries.get? admission.key = none := by
              simpa [WeightedStore.remove?] using taken
            simp only [finish_eq]
            exact .goneAlready top stale absent
        | some removed =>
            simp only [report_eq, push]
            exact .retracted top stale rfl taken
    | simple store =>
        simp only [announce, record]
        cases taken : store.remove? admission.key with
        | none =>
            have absent : store.entries.get? admission.key = none := by
              unfold SimpleStore.remove? at taken
              split at taken
              · assumption
              · cases taken
            simp only [finish_eq]
            exact .goneAlready top stale absent
        | some removed =>
            simp only [count, push]
            exact .takenBack top stale rfl taken
  · rename_i fresh
    rw [finish_eq]
    exact .kept top (Bool.eq_false_iff.mpr fresh)

theorem stepSweep_advanced {cache : Cache} {call : Nat} {scope : Scope}
    {doomed : List (BlockKey × Nat)} {removed : Nat} {rest : List Frame} {store : WeightedStore}
    (top : cache.stack = .sweeping call scope doomed removed :: rest)
    (weighted : cache.store = .weighted store) :
    Advanced cache ({ cache with stack := rest }.stepSweep store call scope doomed removed) := by
  cases doomed with
  | nil =>
      simp only [stepSweep, compact_eq, announceCleared_eq, answer, record, count]
      exact .sweepEnded top weighted
  | cons first doomed =>
      obtain ⟨key, load⟩ := first
      simp only [stepSweep]
      cases taken : store.removeLoaded? key load with
      | none => exact .passedOver top weighted taken
      | some found =>
          simp only [report_eq, record, push]
          exact .swept top weighted taken

theorem continueWith_advanced {cache : Cache} {sequel : Sequel} {rest : List Frame}
    (top : cache.stack = .reporting [] sequel :: rest) :
    Advanced cache ({ cache with stack := rest }.continueWith sequel) := by
  cases sequel with
  | conclude admission => exact .admissionReported top
  | finish admission =>
      simp only [continueWith, finish_eq]
      exact .retractionReported top
  | close call scope removed =>
      simp only [continueWith, announceCleared_eq, answer, record]
      exact .clearingReported top

/-- Every step the cache takes on its own is one of the listed cases. -/
theorem advanced_of_advance {cache next : Cache} (taken : cache.advance = some next) :
    Advanced cache next := by
  unfold advance at taken
  split at taken
  · cases taken
  · rename_i frame rest top
    dsimp only at taken
    split at taken
    · rename_i weighted
      cases taken
      exact stepPass_advanced top weighted
    · cases taken
      exact conclude_advanced top
    · cases taken
      simp only [count, finish_eq]
      exact .retractionCounted top
    · cases taken
      simp only [count, compact_eq, answer, record]
      exact .dropCounted top
    · rename_i weighted
      cases taken
      exact stepSweep_advanced top weighted
    · cases taken
      exact continueWith_advanced top
    · cases taken
      simp only [report_eq, push]
      exact .reported top
    · cases taken

/-! ## Everything listed happens -/

/-- Every listed case of a move is accepted. -/
theorem accept_of_accepted {cache next : Cache} {move : Move} (taken : Accepted cache move next) :
    cache.accept move = some next := by
  obtain ⟨store, listener, loads, counters, stack, calls, journal⟩ := cache
  cases taken with
  | found settled held =>
      dsimp only at held
      simp [accept, settled, beginCall, record, held, answer]
  | missing settled absent =>
      dsimp only at absent
      simp [accept, settled, beginCall, record, absent, answer]
  | hit settled held =>
      dsimp only at held
      simp [accept, settled, beginCall, record, held, answer, count]
  | opened settled absent =>
      dsimp only at absent
      simp [accept, settled, beginCall, record, absent, push]
  | dropped settled weighted taken =>
      cases weighted
      simp [accept, settled, beginCall, record, invalidate, taken, push, report_eq, overtake,
        overtaken]
  | nothingDropped settled weighted absent =>
      cases weighted
      simp [accept, settled, beginCall, record, invalidate, absent, answer, overtake, overtaken]
  | @sweepBegun scope store settled weighted bulk =>
      cases weighted
      cases scope with
      | exactly key => exact absurd rfl (bulk key)
      | within level =>
          simp [accept, settled, beginCall, record, invalidate, push, overtake, overtaken]
      | everything =>
          simp [accept, settled, beginCall, record, invalidate, push, overtake, overtaken]
  | cleared settled simple taken =>
      cases simple
      simp [accept, settled, beginCall, record, invalidate, taken, push, overtake, overtaken,
        count, removedEvents, removalsOf]
  | joined top running =>
      dsimp only at running
      cases top
      simp [accept, claimKey, running, count, record]
  | lateHit top free held =>
      dsimp only at free held
      cases top
      simp [accept, claimKey, free, held, count, record, publish_eq, answer, released, waiting,
        answers, Table.get?_insert, Table.erase_insert_of_get?_none free]
  | claimed top free absent =>
      dsimp only at free absent
      cases top
      simp [accept, claimKey, free, absent, count, record, announce, push]
  | @passBegun call key rest payload store top weighted heavy free =>
      cases top
      cases weighted
      have idle : (store.insert key call payload).evicting = false := free
      simp [accept, storeLoaded, count, record, heavy, idle, push]
  | @stored call key rest payload store top weighted within =>
      cases top
      cases weighted
      have stays : ((store.insert key call payload).overBudget
          && !(store.insert key call payload).evicting) = false := by
        rcases within with within | busy
        · simp [within]
        · have taken : (store.insert key call payload).evicting = true := busy
          simp [taken]
      simp [accept, storeLoaded, count, record, stays, push]
  | simplyStored top simple put =>
      cases top
      cases simple
      simp [accept, storeLoaded, count, record, put, simplyStored_eq]
  | overflown top simple put =>
      cases top
      cases simple
      simp [accept, storeLoaded, count, record, put, unwindLoad_eq]
  | failed top =>
      cases top
      simp [accept, count, record, publish_eq, answer]
  | panicked top =>
      cases top
      simp [accept, record, unwindLoad_eq]
  | listenerReturned top =>
      cases top
      simp [accept]
  | passUnwound top =>
      cases top
      cases store <;> simp [accept, unwind, unwindLoad_eq, releasePass]
  | loadUnwound top leading =>
      cases top
      rcases leading with rfl | ⟨_, rfl⟩ | ⟨_, rfl⟩ <;> simp [accept, unwind, unwindLoad_eq]
  | clearingUnwound top clearing =>
      cases top
      rcases clearing with rfl | ⟨_, _, _, rfl⟩ | ⟨_, _, _, rfl⟩ <;> simp [accept, unwind, record]

/-- Every listed step is the step the cache takes. -/
theorem advance_of_advanced {cache next : Cache} (taken : Advanced cache next) :
    cache.advance = some next := by
  obtain ⟨store, listener, loads, counters, stack, calls, journal⟩ := cache
  cases taken with
  | outdated top weighted heavy first =>
      cases top
      cases weighted
      simp [advance, stepPass, heavy, first, push, record]
  | evicted top weighted heavy first =>
      cases top
      cases weighted
      simp [advance, stepPass, heavy, first, push, record, report_eq]
  | passEnded top weighted done =>
      cases top
      cases weighted
      rcases done with within | exhausted
      · simp [advance, stepPass, within, endPass_eq]
      · simp [advance, stepPass, exhausted, endPass_eq]
  | kept top fresh =>
      cases top
      simp only [isOvertaken] at fresh
      simp [advance, conclude, isOvertaken, fresh, finish_eq]
  | goneAlready top stale absent =>
      dsimp only at absent
      cases top
      simp only [isOvertaken] at stale
      cases store with
      | weighted store =>
          simp only [Store.entries] at absent
          simp [advance, conclude, isOvertaken, stale, finish_eq, announce, record,
            WeightedStore.remove?, absent]
      | simple store =>
          simp only [Store.entries] at absent
          simp [advance, conclude, isOvertaken, stale, finish_eq, announce, record,
            SimpleStore.remove?, absent]
  | retracted top stale weighted taken =>
      cases top
      cases weighted
      simp only [isOvertaken] at stale
      simp [advance, conclude, isOvertaken, stale, announce, record, taken, push, report_eq]
  | takenBack top stale simple taken =>
      cases top
      cases simple
      simp only [isOvertaken] at stale
      simp [advance, conclude, isOvertaken, stale, announce, record, taken, push, count]
  | retractionCounted top =>
      cases top
      simp [advance, count, finish_eq]
  | dropCounted top =>
      cases top
      simp [advance, count, compact_eq, answer, record]
  | swept top weighted taken =>
      cases top
      cases weighted
      simp [advance, stepSweep, taken, push, record, report_eq]
  | passedOver top weighted absent =>
      cases top
      cases weighted
      simp [advance, stepSweep, absent, push]
  | sweepEnded top weighted =>
      cases top
      cases weighted
      simp [advance, stepSweep, count, compact_eq, announceCleared_eq, answer, record]
  | reported top =>
      cases top
      simp [advance, push, report_eq]
  | admissionReported top =>
      cases top
      simp [advance, continueWith, push]
  | retractionReported top =>
      cases top
      simp [advance, continueWith, finish_eq]
  | clearingReported top =>
      cases top
      simp [advance, continueWith, announceCleared_eq, answer, record]

end Cache
end VolumeCache
