import VolumeCache.Proofs.Steady

namespace VolumeCache

/-!
# Caches that cannot be told apart from now on

Two caches are twins if they differ only in what no later call depends on: the numbers of calls and
loads, the records in the index of a weighted store, and the past.  What can be done with the one
can be done with the other, and leaves them twins; so both evict the same blocks from then on.
-/

/-! ## What is compared -/

/-- The load as if it had no number, and the calls that wait for it neither. -/
def PendingLoad.anonymous (pending : PendingLoad) : PendingLoad where
  leader := 0
  stale := pending.stale
  followers := pending.followers.map fun _ => 0

def Frame.anonymous : Frame → Frame
  | .claiming _ key => .claiming 0 key
  | .loading _ key => .loading 0 key
  | frame => frame

namespace Cache

open PendingLoad

def anonymousLoads (loads : Table BlockKey PendingLoad) : Table BlockKey PendingLoad :=
  loads.mapValues fun _ => PendingLoad.anonymous

/-- Two caches that are the same but for the numbers of their calls and loads, the index of a
weighted store, and what was asked of them before.  What they have evicted so far is the same, and
so is how often their blocks were used.  Other parts of their journals are not compared. -/
structure Twins (first second : Cache) : Prop where
  listener : second.listener = first.listener
  store : second.store.outline = first.store.outline
  loads : anonymousLoads second.loads = anonymousLoads first.loads
  counters : second.counters = first.counters
  stack : second.stack.map Frame.anonymous = first.stack.map Frame.anonymous
  journal : Even first.journal second.journal

theorem Twins.symm {first second : Cache} (twins : Twins first second) : Twins second first where
  listener := twins.listener.symm
  store := twins.store.symm
  loads := twins.loads.symm
  counters := twins.counters.symm
  stack := twins.stack.symm
  journal := twins.journal.symm

/-! ### Loads -/

section Loads

variable {loads : Table BlockKey PendingLoad} {key : BlockKey}

theorem get?_anonymousLoads (loads : Table BlockKey PendingLoad) (key : BlockKey) :
    (anonymousLoads loads).get? key = (loads.get? key).map PendingLoad.anonymous :=
  loads.get?_mapValues _ key

theorem anonymousLoads_overtaken (loads : Table BlockKey PendingLoad) (scope : Scope) :
    anonymousLoads (overtaken loads scope) = overtaken (anonymousLoads loads) scope := by
  unfold anonymousLoads overtaken
  rw [Table.mapValues_mapValues, Table.mapValues_mapValues]
  apply Table.mapValues_congr
  intro row _
  split <;> rfl

theorem anonymousLoads_joined (loads : Table BlockKey PendingLoad) (key : BlockKey) (call : Nat) :
    anonymousLoads (loads.modify key fun load =>
        { load with followers := load.followers ++ [call] }) =
      (anonymousLoads loads).modify key fun load =>
        { load with followers := load.followers ++ [0] } := by
  unfold anonymousLoads Table.modify
  rw [Table.mapValues_mapValues, Table.mapValues_mapValues]
  apply Table.mapValues_congr
  intro row _
  split
  · simp [PendingLoad.anonymous]
  · rfl

theorem anonymousLoads_erase (loads : Table BlockKey PendingLoad) (key : BlockKey) :
    anonymousLoads (loads.erase key) = (anonymousLoads loads).erase key :=
  loads.mapValues_erase key _

theorem anonymousLoads_insert (loads : Table BlockKey PendingLoad) (key : BlockKey)
    (pending : PendingLoad) :
    anonymousLoads (loads.insert key pending) =
      (anonymousLoads loads).insert key pending.anonymous :=
  loads.mapValues_insert key pending _

end Loads

/-! ## One move -/

theorem exists_accepted_loaded {cache : Cache} {call : Nat} {key : BlockKey} {rest : List Frame}
    (top : cache.stack = .loading call key :: rest) (payload : Payload) :
    ∃ next, Accepted cache (.loaderReturns payload) next := by
  have fitting : (cache.accept (.loaderReturns payload)).isSome = true := by simp [accept, top]
  rcases Option.isSome_iff_exists.mp fitting with ⟨next, taken⟩
  exact ⟨next, accepted_of_accept taken⟩

/-- While control is outside every call may begin. -/
theorem accepted_begin {cache : Cache} (settled : cache.isSettled = true) (request : Request) :
    Accepted cache (.begin request) (cache.beginCall request) :=
  accepted_of_accept (by simp [accept, settled])

/-- Left to themselves, the two caches get to states in which they are twins.  They may take
different numbers of steps, since a pass over the one index may examine more records than one over
the other. -/
def Rejoin (first second : Cache) : Prop :=
  ∃ firstEnd secondEnd, Leads first firstEnd ∧ Leads second secondEnd ∧
    Twins firstEnd secondEnd ∧ Waiting firstEnd.stack

theorem rejoin_of_leads {first second firstNext secondNext : Cache}
    (firstLeads : Leads first firstNext) (secondLeads : Leads second secondNext)
    (rejoin : Rejoin firstNext secondNext) : Rejoin first second := by
  rcases rejoin with ⟨firstEnd, secondEnd, firstRest, secondRest, twins, waiting⟩
  exact ⟨firstEnd, secondEnd, firstLeads.trans firstRest, secondLeads.trans secondRest, twins,
    waiting⟩

theorem Rejoin.here {first second : Cache} (twins : Twins first second)
    (waiting : Waiting first.stack) : Rejoin first second :=
  ⟨first, second, .refl, .refl, twins, waiting⟩

namespace Twins

variable {first second firstNext : Cache}

theorem lookup? (twins : Twins first second) {key : BlockKey} {payload : Payload} {store : Store}
    (held : first.store.lookup? key = some (payload, store)) :
    ∃ other, second.store.lookup? key = some (payload, other) ∧
      other.outline = store.outline := by
  have found := second.store.lookup?_outline key
  rw [twins.store, first.store.lookup?_outline, held] at found
  rcases Option.map_eq_some_iff.mp found.symm with ⟨⟨value, other⟩, alsoHeld, same⟩
  rw [Prod.mk.injEq] at same
  rcases same with ⟨rfl, outlines⟩
  exact ⟨other, alsoHeld, outlines⟩

theorem lookup?_none (twins : Twins first second) {key : BlockKey}
    (absent : first.store.lookup? key = none) : second.store.lookup? key = none := by
  have found := second.store.lookup?_outline key
  rw [twins.store, first.store.lookup?_outline, absent] at found
  exact Option.map_eq_none_iff.mp found.symm

theorem get?_loads (twins : Twins first second) (key : BlockKey) :
    (second.loads.get? key).map PendingLoad.anonymous =
      (first.loads.get? key).map PendingLoad.anonymous := by
  rw [← get?_anonymousLoads, ← get?_anonymousLoads, twins.loads]

theorem running (twins : Twins first second) {key : BlockKey} {pending : PendingLoad}
    (running : first.loads.get? key = some pending) :
    ∃ other, second.loads.get? key = some other := by
  have same := twins.get?_loads key
  rw [running] at same
  rcases Option.map_eq_some_iff.mp same with ⟨other, alsoRunning, -⟩
  exact ⟨other, alsoRunning⟩

theorem weighted (twins : Twins first second) {store : WeightedStore}
    (weighted : first.store = .weighted store) :
    ∃ other, second.store = .weighted other ∧ other.outline = store.outline := by
  have outlines := twins.store
  rw [weighted] at outlines
  cases held : second.store with
  | weighted other =>
      rw [held] at outlines
      exact ⟨other, rfl, Store.weighted.inj outlines⟩
  | simple other =>
      rw [held] at outlines
      cases outlines

theorem simple (twins : Twins first second) {store : SimpleStore}
    (simple : first.store = .simple store) :
    ∃ other, second.store = .simple other ∧ other.outline = store.outline := by
  have outlines := twins.store
  rw [simple] at outlines
  cases held : second.store with
  | weighted other =>
      rw [held] at outlines
      cases outlines
  | simple other =>
      rw [held] at outlines
      exact ⟨other, rfl, Store.simple.inj outlines⟩

theorem free (twins : Twins first second) {key : BlockKey} (free : first.loads.get? key = none) :
    second.loads.get? key = none := by
  have same := twins.get?_loads key
  rw [free] at same
  exact Option.map_eq_none_iff.mp same

theorem claiming (twins : Twins first second) {call : Nat} {key : BlockKey} {rest : List Frame}
    (top : first.stack = .claiming call key :: rest) :
    ∃ other below, second.stack = .claiming other key :: below ∧
      below.map Frame.anonymous = rest.map Frame.anonymous := by
  have same := twins.stack
  rw [top, List.map_cons, List.map_eq_cons_iff] at same
  rcases same with ⟨frame, below, split, alike, rests⟩
  cases frame <;> simp_all [Frame.anonymous]

theorem loading (twins : Twins first second) {call : Nat} {key : BlockKey} {rest : List Frame}
    (top : first.stack = .loading call key :: rest) :
    ∃ other below, second.stack = .loading other key :: below ∧
      below.map Frame.anonymous = rest.map Frame.anonymous := by
  have same := twins.stack
  rw [top, List.map_cons, List.map_eq_cons_iff] at same
  rcases same with ⟨frame, below, split, alike, rests⟩
  cases frame <;> simp_all [Frame.anonymous]

theorem isSettled (twins : Twins first second) : second.isSettled = first.isSettled := by
  have outside : ∀ frame : Frame, frame.anonymous.isOutside = frame.isOutside := fun frame => by
    cases frame <;> rfl
  have same := twins.stack
  rw [isSettled_eq, isSettled_eq]
  cases one : first.stack <;> cases other : second.stack <;> simp_all [rests]
  rw [← outside, same.1, outside]

theorem length_blocksUnder (twins : Twins first second) (keys : List BlockKey) :
    (blocksUnder second.store.entries keys).length =
      (blocksUnder first.store.entries keys).length := by
  have entries : anonymized second.store.entries = anonymized first.store.entries := by
    rw [← Store.entries_outline, twins.store, Store.entries_outline]
  have same := congrArg (fun entries => (blocksUnder entries keys).length) entries
  simpa only [blocksUnder_anonymized, List.length_map] using same

/-- Twins stay twins if the same blocks are dropped from both and the same loads marked.  How many
steps either cache has taken for it does not matter. -/
theorem dropped (twins : Twins first second) {keys : List BlockKey}
    {marked alsoMarked : Table BlockKey PendingLoad} {firstEnd secondEnd : Cache}
    (done : Dropped keys marked first firstEnd)
    (alsoDone : Dropped keys alsoMarked second secondEnd)
    (same : anonymousLoads alsoMarked = anonymousLoads marked) : Twins firstEnd secondEnd := by
  constructor
  · rw [alsoDone.listener, done.listener, twins.listener]
  · rw [Store.outline_eq_of_unindexed alsoDone.store, Store.outline_eq_of_unindexed done.store,
      ← Store.withoutAll_outline, twins.store, Store.withoutAll_outline]
  · rw [alsoDone.loads, done.loads, same]
  · rw [alsoDone.counters, done.counters, twins.counters, twins.length_blocksUnder]
  · rw [alsoDone.stack, done.stack, twins.stack]
  · exact done.journal.symm.trans (twins.journal.trans alsoDone.journal)

theorem at_once {secondNext : Cache} {move : Move} (taken : Accepted second move secondNext)
    (twins : Twins firstNext secondNext) (waiting : Waiting firstNext.stack) :
    ∃ secondNext, Accepted second move secondNext ∧ Rejoin firstNext secondNext :=
  ⟨secondNext, taken, .here twins waiting⟩

theorem released (twins : Twins first second) {call other : Nat} {key : BlockKey}
    (leads : (key, call) ∈ leaders first.loads) (alsoLeads : (key, other) ∈ leaders second.loads) :
    anonymousLoads (PendingLoad.released second.loads other key) =
      anonymousLoads (PendingLoad.released first.loads call key) := by
  rw [released_eq_erase leads, released_eq_erase alsoLeads, anonymousLoads_erase, twins.loads,
    ← anonymousLoads_erase]

theorem isOvertaken (twins : Twins first second) (key : BlockKey) :
    second.isOvertaken key = first.isOvertaken key := by
  have stale : ∀ cache : Cache, cache.isOvertaken key =
      (((cache.loads.get? key).map PendingLoad.anonymous).map PendingLoad.stale).getD false := by
    intro cache
    unfold Cache.isOvertaken
    cases cache.loads.get? key <;> rfl
  rw [stale, stale, twins.get?_loads]

/-- Both caches decide alike whether an admitted value may stay.  The calls that lead the two loads
may have different numbers; each must lead the load in its own cache. -/
theorem rejoin_concluding (quiet : first.listener ≠ .interactive) {call other : Nat}
    {key : BlockKey} {payload : Payload} {rest below : List Frame}
    (top : first.stack = .concluding ⟨call, key, payload⟩ :: rest)
    (alsoTop : second.stack = .concluding ⟨other, key, payload⟩ :: below)
    (leads : (key, call) ∈ leaders first.loads) (alsoLeads : (key, other) ∈ leaders second.loads)
    (twins : Twins { first with stack := rest } { second with stack := below })
    (waiting : Waiting rest) : Rejoin first second := by
  have alsoQuiet : second.listener ≠ .interactive := by
    have listener : second.listener = first.listener := twins.listener
    rwa [listener]
  rcases leads_concluded quiet top leads with ⟨journal, leads, even⟩
  rcases leads_concluded alsoQuiet alsoTop alsoLeads with ⟨alsoJournal, alsoLeads, alsoEven⟩
  have doomed : second.retracts key = first.retracts key :=
    congrArg (fun stale : Bool => if stale = true then [key] else []) (twins.isOvertaken key)
  refine ⟨_, _, leads, alsoLeads, ⟨twins.listener, ?_, ?_, ?_, twins.stack, ?_⟩, waiting⟩
  · have store : second.store.outline = first.store.outline := twins.store
    dsimp only
    rw [doomed, ← Store.withoutAll_outline, store, Store.withoutAll_outline]
  · have loads : anonymousLoads second.loads = anonymousLoads first.loads := twins.loads
    dsimp only
    rw [anonymousLoads_erase, loads, ← anonymousLoads_erase]
  · have counters : second.counters = first.counters := twins.counters
    have blocks := twins.length_blocksUnder (first.retracts key)
    dsimp only at blocks ⊢
    rw [doomed, counters, blocks]
  · exact even.symm.trans (twins.journal.trans alsoEven)

/-- A value comes into two weighted caches, which then evict the same blocks.  The clock must not
have wrapped, for otherwise a block might have its record in one of the indexes only. -/
theorem follows_grown (twins : Twins first second) (steady : Steady first)
    (alsoSteady : Steady second) (settled : first.isSettled = true) {store : WeightedStore}
    (weighted : first.store = .weighted store) (few : firstNext.accesses < 2 ^ 64)
    {payload : Payload} (taken : Accepted first (.loaderReturns payload) firstNext) :
    ∃ secondNext, Accepted second (.loaderReturns payload) secondNext ∧
      Rejoin firstNext secondNext := by
  have loading : ∃ call key rest, first.stack = .loading call key :: rest ∧
      firstNext.journal = .loaded call key payload :: first.journal := by
    cases taken with
    | passBegun top | stored top => exact ⟨_, _, _, top, rfl⟩
    | simplyStored _ simple | overflown _ simple =>
        rw [weighted] at simple
        cases simple
  rcases loading with ⟨call, key, rest, top, said⟩
  rcases twins.loading top with ⟨other, below, alsoTop, same⟩
  rcases exists_accepted_loaded alsoTop payload with ⟨secondNext, alsoTaken⟩
  rcases twins.weighted weighted with ⟨found, alsoWeighted, outlines⟩
  have idle := steady.idle settled
  have alsoIdle := alsoSteady.idle (twins.isSettled.trans settled)
  rw [weighted] at idle
  rw [alsoWeighted] at alsoIdle
  rw [accesses, said, List.countP_cons_of_pos rfl] at few
  have alsoFew := few
  rw [← twins.journal.accesses] at alsoFew
  have ready := forward_of_access steady.indexed weighted few
  have alsoReady := forward_of_access alsoSteady.indexed alsoWeighted alsoFew
  rcases leads_grown steady.quiet weighted idle top taken with
    ⟨evicting, count, blocks, final, journal, drained, leads, told⟩
  rcases leads_grown alsoSteady.quiet alsoWeighted alsoIdle alsoTop alsoTaken with
    ⟨alsoEvicting, alsoCount, others, alsoFinal, alsoJournal, alsoDrained, alsoLeads, alsoTold⟩
  have grown : (store.insert key call payload).outline =
      (found.insert key other payload).outline := by
    rw [WeightedStore.insert_outline, ← outlines, ← WeightedStore.insert_outline]
  have evicted := drained.same alsoDrained grown
    ((ready.1.insert ready.2 key call payload).flagged evicting)
    ((alsoReady.1.insert alsoReady.2 key other payload).flagged alsoEvicting)
  have length : others.length = blocks.length := by
    simpa using (congrArg List.length evicted.1).symm
  refine ⟨secondNext, alsoTaken, rejoin_of_leads leads alsoLeads ?_⟩
  refine rejoin_concluding steady.quiet rfl rfl (steady.leads top) (alsoSteady.leads alsoTop) ?_
    (top ▸ steady.waiting settled : Waiting (_ :: _)).pop
  exact { twins with
    store := congrArg Store.weighted evicted.2.symm
    counters := by
      dsimp only
      rw [twins.counters, length]
    stack := same
    journal := twins.journal.cons.evicted told alsoTold evicted.1 }

/-- A value comes into two simple caches, which then evict the same blocks. -/
theorem follows_put (twins : Twins first second) (steady : Steady first)
    (alsoSteady : Steady second) (waiting : Waiting first.stack) {store : SimpleStore}
    (simple : first.store = .simple store) {payload : Payload}
    (taken : Accepted first (.loaderReturns payload) firstNext) :
    ∃ secondNext, Accepted second (.loaderReturns payload) secondNext ∧
      Rejoin firstNext secondNext := by
  rcases twins.simple simple with ⟨found, alsoSimple, outlines⟩
  cases taken with
  | passBegun _ weighted | stored _ weighted =>
      rw [simple] at weighted
      cases weighted
  | @simplyStored call key rest payload inner left blocks top isSimple put =>
      cases simple.symm.trans isSimple
      rcases twins.loading top with ⟨other, below, alsoTop, same⟩
      have does := store.put_outline key call payload
      have alsoDoes := found.put_outline key other payload
      rw [put] at does
      rw [outlines] at alsoDoes
      cases alsoPut : found.put key other payload with
      | error refused =>
          rw [alsoPut] at alsoDoes
          cases does.symm.trans alsoDoes
      | ok result =>
          obtain ⟨others, alsoLeft⟩ := result
          rw [alsoPut] at alsoDoes
          have results := Except.ok.inj (does.symm.trans alsoDoes)
          rw [Prod.mk.injEq] at results
          have length : others.length = blocks.length := by
            simpa using (congrArg List.length results.1).symm
          rcases @leads_admitted (removalsOf .size blocks) ⟨.simple left, first.listener,
            first.loads, (first.counters.recordLoad true).recordEvictions blocks.length.toUInt64,
            sequelOf ⟨call, key, payload⟩ (removalsOf .size blocks) :: rest, first.calls,
            evictionNotice (removalsOf .size blocks) ++ removedEvents (removalsOf .size blocks)
              ++ .loaded call key payload :: first.journal⟩ ⟨call, key, payload⟩ rest _
            steady.quiet rfl rfl with ⟨journal, leads, told⟩
          rcases @leads_admitted (removalsOf .size others) ⟨.simple alsoLeft, second.listener,
            second.loads, (second.counters.recordLoad true).recordEvictions others.length.toUInt64,
            sequelOf ⟨other, key, payload⟩ (removalsOf .size others) :: below, second.calls,
            evictionNotice (removalsOf .size others) ++ removedEvents (removalsOf .size others)
              ++ .loaded other key payload :: second.journal⟩ ⟨other, key, payload⟩ below _
            alsoSteady.quiet rfl rfl with ⟨alsoJournal, alsoLeads, alsoTold⟩
          refine ⟨_, .simplyStored alsoTop alsoSimple alsoPut,
            rejoin_of_leads leads alsoLeads ?_⟩
          refine rejoin_concluding steady.quiet rfl rfl (steady.leads top)
            (alsoSteady.leads alsoTop) ?_ (top ▸ waiting : Waiting (_ :: _)).pop
          exact { twins with
            store := congrArg Store.simple results.2.symm
            counters := by
              dsimp only
              rw [twins.counters, length]
            stack := same
            journal := twins.journal.cons.evicted told alsoTold results.1 }
  | @overflown call key rest payload inner left top isSimple put =>
      cases simple.symm.trans isSimple
      rcases twins.loading top with ⟨other, below, alsoTop, same⟩
      have does := store.put_outline key call payload
      have alsoDoes := found.put_outline key other payload
      rw [put] at does
      rw [outlines] at alsoDoes
      cases alsoPut : found.put key other payload with
      | error refused =>
          rw [alsoPut] at alsoDoes
          have left := Except.error.inj (does.symm.trans alsoDoes)
          rw [top] at waiting
          exact at_once (.overflown alsoTop alsoSimple alsoPut) { twins with
            store := congrArg Store.simple left.symm
            loads := twins.released (steady.leads top) (alsoSteady.leads alsoTop)
            counters := congrArg (Counters.recordLoad · true) twins.counters
            stack := same
            journal := twins.journal.cons.answered.cons } waiting.pop
      | ok result =>
          rw [alsoPut] at alsoDoes
          cases does.symm.trans alsoDoes

theorem follows_invalidation (twins : Twins first second) (steady : Steady first)
    (alsoSteady : Steady second) (waiting : Waiting first.stack) {scope : Scope}
    (taken : Accepted first (.begin (.invalidate scope)) firstNext) :
    ∃ secondNext, Accepted second (.begin (.invalidate scope)) secondNext ∧
      Rejoin firstNext secondNext := by
  have alsoSettled : second.isSettled = true :=
    twins.isSettled.trans (isSettled_of_waiting waiting)
  have alsoTaken := accepted_begin alsoSettled (.invalidate scope)
  rcases leads_invalidation steady.quiet taken with ⟨firstEnd, leads, done⟩
  rcases leads_invalidation alsoSteady.quiet alsoTaken with ⟨secondEnd, alsoLeads, alsoDone⟩
  have keys : second.store.keysIn scope = first.store.keysIn scope := by
    rw [← Store.keysIn_outline, twins.store, Store.keysIn_outline]
  rw [keys] at alsoDone
  have marked : anonymousLoads (overtaken second.loads scope) =
      anonymousLoads (overtaken first.loads scope) := by
    rw [anonymousLoads_overtaken, twins.loads, ← anonymousLoads_overtaken]
  exact ⟨_, alsoTaken, firstEnd, secondEnd, leads, alsoLeads, twins.dropped done alsoDone marked,
    done.stack ▸ waiting⟩

theorem accepted (twins : Twins first second) (steady : Steady first) (alsoSteady : Steady second)
    (settled : first.isSettled = true) (few : first.kind = .weighted → firstNext.accesses < 2 ^ 64)
    {move : Move} (taken : Accepted first move firstNext) :
    ∃ secondNext, Accepted second move secondNext ∧ Rejoin firstNext secondNext := by
  have alsoSettled := twins.isSettled.trans settled
  have waiting := steady.waiting settled
  have even := twins.journal
  cases taken with
  | found _ held =>
      rcases twins.lookup? held with ⟨other, alsoHeld, outlines⟩
      exact at_once (.found alsoSettled alsoHeld) { twins with
        store := outlines
        journal := even.cons.cons.cons } waiting
  | missing _ absent =>
      exact at_once (.missing alsoSettled (twins.lookup?_none absent)) { twins with
        journal := even.cons.cons } waiting
  | hit _ held =>
      rcases twins.lookup? held with ⟨other, alsoHeld, outlines⟩
      exact at_once (.hit alsoSettled alsoHeld) { twins with
        store := outlines
        counters := congrArg Counters.recordHit twins.counters
        journal := even.cons.cons.cons } waiting
  | opened _ absent =>
      exact at_once (.opened alsoSettled (twins.lookup?_none absent)) { twins with
        stack := congrArg (_ :: ·) twins.stack
        journal := even.cons } (waiting.push rfl)
  | @joined call key rest pending top running =>
      rcases twins.claiming top with ⟨other, below, alsoTop, same⟩
      rcases twins.running running with ⟨alsoPending, alsoRunning⟩
      rw [top] at waiting
      exact at_once (.joined alsoTop alsoRunning) { twins with
        loads := by rw [anonymousLoads_joined, twins.loads, ← anonymousLoads_joined]
        counters := congrArg Counters.recordCoalesced twins.counters
        stack := same
        journal := even.cons } waiting.pop
  | lateHit top free held =>
      rcases twins.claiming top with ⟨call, below, alsoTop, same⟩
      rcases twins.lookup? held with ⟨other, alsoHeld, outlines⟩
      rw [top] at waiting
      exact at_once (.lateHit alsoTop (twins.free free) alsoHeld) { twins with
        store := outlines
        counters := congrArg Counters.recordHit twins.counters
        stack := same
        journal := even.cons.cons.cons } waiting.pop
  | @claimed call key rest top free absent =>
      rcases twins.claiming top with ⟨other, below, alsoTop, same⟩
      rw [top] at waiting
      exact at_once (.claimed alsoTop (twins.free free) (twins.lookup?_none absent)) { twins with
        loads := by
          rw [anonymousLoads_insert, twins.loads, anonymousLoads_insert]
          rfl
        counters := congrArg Counters.recordMiss twins.counters
        stack := congrArg (_ :: ·) same
        journal := even.cons.cons.cons } (waiting.pop.push rfl)
  | failed top =>
      rcases twins.loading top with ⟨other, below, alsoTop, same⟩
      have leads := steady.leads top
      have alsoLeads := alsoSteady.leads alsoTop
      rw [top] at waiting
      exact at_once (.failed alsoTop) { twins with
        loads := twins.released leads alsoLeads
        counters := congrArg (Counters.recordLoad · false) twins.counters
        stack := same
        journal := even.cons.answered.cons } waiting.pop
  | panicked top =>
      rcases twins.loading top with ⟨other, below, alsoTop, same⟩
      have leads := steady.leads top
      have alsoLeads := alsoSteady.leads alsoTop
      rw [top] at waiting
      exact at_once (.panicked alsoTop) { twins with
        loads := twins.released leads alsoLeads
        stack := same
        journal := even.cons.answered.cons } waiting.pop
  | listenerReturned top | passUnwound top | loadUnwound top | clearingUnwound top =>
      cases waiting _ (top ▸ List.mem_cons_self)
  | dropped settled weighted taken =>
      exact twins.follows_invalidation steady alsoSteady waiting (.dropped settled weighted taken)
  | nothingDropped settled weighted absent =>
      exact twins.follows_invalidation steady alsoSteady waiting
        (.nothingDropped settled weighted absent)
  | sweepBegun settled weighted bulk =>
      exact twins.follows_invalidation steady alsoSteady waiting (.sweepBegun settled weighted bulk)
  | cleared settled simple taken =>
      exact twins.follows_invalidation steady alsoSteady waiting (.cleared settled simple taken)
  | passBegun top weighted heavy free =>
      have counted := few (congrArg Store.kind weighted)
      exact twins.follows_grown steady alsoSteady settled weighted counted
        (.passBegun top weighted heavy free)
  | stored top weighted within =>
      have counted := few (congrArg Store.kind weighted)
      exact twins.follows_grown steady alsoSteady settled weighted counted
        (.stored top weighted within)
  | simplyStored top simple put =>
      exact twins.follows_put steady alsoSteady waiting simple (.simplyStored top simple put)
  | overflown top simple put =>
      exact twins.follows_put steady alsoSteady waiting simple (.overflown top simple put)

end Twins

/-! ## Runs -/

theorem Rejoin.settle {first second : Cache} (rejoin : Rejoin first second)
    (steady : Steady first) (alsoSteady : Steady second) : Twins first.settle second.settle := by
  rcases rejoin with ⟨firstEnd, secondEnd, firstLeads, secondLeads, twins, waiting⟩
  have settled := isSettled_of_waiting waiting
  have alsoSettled := twins.isSettled.trans settled
  rw [firstLeads.settle settled steady.coherent steady.orderly,
    secondLeads.settle alsoSettled alsoSteady.coherent alsoSteady.orderly]
  exact twins

namespace Twins

variable {first second : Cache}

theorem perform (twins : Twins first second) (steady : Steady first) (alsoSteady : Steady second)
    (settled : first.isSettled = true) {move : Move} {next : Cache}
    (made : first.perform move = some next)
    (few : first.kind = .weighted → next.accesses < 2 ^ 64) :
    ∃ other, second.perform move = some other ∧ Twins next other := by
  rcases Option.map_eq_some_iff.mp made with ⟨moved, taken, rfl⟩
  have listed := accepted_of_accept taken
  have before := fun weighted => Nat.lt_of_le_of_lt (accesses_settle moved) (few weighted)
  rcases twins.accepted steady alsoSteady settled before listed with ⟨other, alsoListed, rejoin⟩
  refine ⟨other.settle, ?_, rejoin.settle ((steady_kept anyMove).accepted rfl steady listed)
    ((steady_kept anyMove).accepted rfl alsoSteady alsoListed)⟩
  rw [Cache.perform, accept_of_accepted alsoListed]
  rfl

/-- Twins stay twins whatever is asked of them, as long as the clock of a weighted store does not
wrap: what the one can do the other can do too, and they evict the same blocks.  The bound is on the
state at the end, since accesses only become more. -/
theorem run (twins : Twins first second) (steady : Steady first) (alsoSteady : Steady second)
    (settled : first.isSettled = true) {moves : List Move} {final : Cache}
    (run : Run anyMove first moves final)
    (few : first.kind = .weighted → final.accesses < 2 ^ 64) :
    ∃ other, Run anyMove second moves other ∧ Twins final other := by
  induction run generalizing second with
  | done => exact ⟨second, .done, twins⟩
  | step _ made rest ih =>
      have fewer := fun weighted =>
        Nat.lt_of_le_of_lt (accesses_le_of_suffix rest.journal_suffix) (few weighted)
      rcases twins.perform steady alsoSteady settled made fewer with ⟨next, alsoMade, again⟩
      have one := steady.perform made
      have other := alsoSteady.perform alsoMade
      rcases ih again one.1 other.1 one.2.1 (one.2.2 ▸ few) with ⟨final, alsoRest, ends⟩
      exact ⟨final, .step rfl alsoMade alsoRest, ends⟩

end Twins

end Cache
end VolumeCache
