import VolumeCache.Proofs.Twins

namespace VolumeCache

/-!
# Invalidations all at once and one by one

Dropping the blocks of a scope with one call does what dropping them key by key does, in whatever
order: a weighted store goes through its blocks and may rebuild its index once at the end or after
every key, a simple store gives its keys up one after the other, and both come to the same.  What
lies outside the scope keeps its value and its place in the order of uses.

What is evicted later is the same too, as long as the clock of a weighted store has not wrapped.
From then on a block may have lost its record in the index, and it matters whether the index was
rebuilt: the call for the scope may rebuild it where the calls for the keys do not.  A run in which
this shows is given at the end.
-/

namespace Cache

open PendingLoad

variable {cache middle final : Cache} {keys more : List BlockKey}
  {marked again : Table BlockKey PendingLoad}

/-! ## Dropping in parts -/

namespace Dropped

theorem refl (cache : Cache) : Dropped [] cache.loads cache cache where
  listener := rfl
  store := rfl
  loads := rfl
  counters := (recordInvalidations_zero _).symm
  stack := rfl
  journal := .refl
  removals := rfl
  reports := rfl

theorem entries (dropped : Dropped keys marked cache final) :
    final.store.entries = (cache.store.withoutAll keys).entries := by
  rw [← Store.entries_unindexed, dropped.store, Store.entries_unindexed]

/-- Keys without a block may be counted among those that were dropped.  An exact invalidation of
such a key still marks the load that is running under it. -/
theorem absent (dropped : Dropped keys marked cache final)
    (absent : ∀ key ∈ more, cache.store.entries.get? key = none) :
    Dropped (keys ++ more) marked cache final := by
  have none : blocksUnder cache.store.entries (keys ++ more) =
      blocksUnder cache.store.entries keys := by
    rw [blocksUnder_append, blocksUnder_absent absent, List.append_nil]
  have left : (cache.store.withoutAll keys).withoutAll more = cache.store.withoutAll keys := by
    apply Store.withoutAll_absent
    intro key member
    rw [Store.get?_withoutAll, absent key member, ite_self]
  constructor
  · exact dropped.listener
  · rw [Store.withoutAll_append, left, dropped.store]
  · exact dropped.loads
  · rw [none, dropped.counters]
  · exact dropped.stack
  · exact dropped.journal
  · rw [none, dropped.removals]
  · rw [none, dropped.reports]

theorem append (first : Dropped keys marked cache middle) (next : Dropped more again middle final)
    (apart : ∀ key ∈ more, key ∉ keys) : Dropped (keys ++ more) again cache final := by
  have still : blocksUnder middle.store.entries more = blocksUnder cache.store.entries more := by
    apply blocksUnder_congr
    intro key member
    rw [first.entries, Store.get?_withoutAll, if_neg (apart key member)]
  constructor
  · exact next.listener.trans first.listener
  · rw [next.store, ← Store.withoutAll_unindexed, first.store, Store.withoutAll_unindexed,
      Store.withoutAll_append]
  · exact next.loads
  · rw [next.counters, first.counters, still, recordInvalidations_add,
      blocksUnder_append, List.length_append]
  · exact next.stack.trans first.stack
  · exact first.journal.trans next.journal
  · rw [next.removals, first.removals, still, blocksUnder_append]
    simp [removalsOf]
  · rw [next.reports, first.reports, still, first.listener, blocksUnder_append]
    simp [removalsOf]

end Dropped

/-! ## The same effect -/

/-- Two caches hold the same blocks with the same order of uses, weight and running loads; they
have counted the same, and what they have dropped and reported is the same but for its order.
What is left open is the index of a weighted store, and the numbers of calls yet to come. -/
structure SameEffect (first second : Cache) : Prop where
  store : first.store.unindexed = second.store.unindexed
  counters : first.counters = second.counters
  loads : first.loads = second.loads
  stack : first.stack = second.stack
  removals : (first.removals.map Removal.timeless).Perm (second.removals.map Removal.timeless)
  reports : (first.reports.map Removal.timeless).Perm (second.reports.map Removal.timeless)

theorem Dropped.sameEffect {first second : Cache} {others : List BlockKey}
    (dropped : Dropped keys marked cache first) (alsoDropped : Dropped others marked cache second)
    (same : keys.Perm others) : SameEffect first second := by
  have blocks : (blocksUnder cache.store.entries keys).Perm
      (blocksUnder cache.store.entries others) := same.filterMap _
  have removals : (removalsOf .explicit (blocksUnder cache.store.entries keys)).Perm
      (removalsOf .explicit (blocksUnder cache.store.entries others)) := blocks.map _
  constructor
  · rw [dropped.store, alsoDropped.store, cache.store.withoutAll_perm same]
  · rw [dropped.counters, alsoDropped.counters, blocks.length_eq]
  · rw [dropped.loads, alsoDropped.loads]
  · rw [dropped.stack, alsoDropped.stack]
  · change (gone first.journal).Perm (gone second.journal)
    rw [dropped.removals, alsoDropped.removals]
    exact (((List.reverse_perm _).trans (removals.map _)).trans
      (List.reverse_perm _).symm).append_right _
  · rw [dropped.reports, alsoDropped.reports]
    refine List.Perm.append_right _ (List.Perm.filterMap _ ?_)
    exact ((List.reverse_perm _).trans ((removals.map _).flatMap_right _)).trans
      (List.reverse_perm _).symm

/-- Nothing in the scope is left; what lies outside has its value still, and was last used when it
was last used before.  So the blocks outside keep their order among themselves. -/
structure Spared (scope : Scope) (before after : Cache) : Prop where
  cleared : ∀ key, scope.covers key = true → after.store.entries.get? key = none
  kept : ∀ key, scope.covers key = false →
    after.store.entries.get? key = before.store.entries.get? key
  order : ∀ key, scope.covers key = false → after.store.lastUse? key = before.store.lastUse? key

theorem Dropped.spared {scope : Scope}
    (dropped : Dropped (cache.store.keysIn scope) marked cache final) :
    Spared scope cache final where
  cleared key covered := by
    rw [dropped.entries, Store.get?_withoutAll]
    split
    · rfl
    · rename_i unlisted
      cases held : cache.store.entries.get? key with
      | none => rfl
      | some block => exact absurd (Store.mem_keysIn.mpr ⟨⟨block, held⟩, covered⟩) unlisted
  kept key outside := by
    rw [dropped.entries, Store.get?_withoutAll, if_neg (Store.not_mem_keysIn outside)]
  order key outside := by
    rw [← Store.lastUse?_unindexed, dropped.store, Store.lastUse?_unindexed,
      Store.lastUse?_withoutAll _ (Store.not_mem_keysIn outside)]

theorem Spared.keysIn_eq_nil {scope : Scope} (spared : Spared scope cache final) :
    final.store.keysIn scope = [] := by
  apply List.eq_nil_iff_forall_not_mem.mpr
  intro key listed
  rcases Store.mem_keysIn.mp listed with ⟨⟨block, held⟩, covered⟩
  rw [spared.cleared key covered] at held
  cases held

/-! ## One key at a time -/

def invalidations (keys : List BlockKey) : List Move :=
  keys.map fun key => .begin (.invalidate (.exactly key))

/-- The keys of a scope under which a block is stored or a load is running, each once.  Keys that
are neither stored nor loaded do not matter to an invalidation. -/
def concerned (cache : Cache) (scope : Scope) : List BlockKey :=
  cache.store.keysIn scope ++
    (cache.loads.keys.filter scope.covers).filter fun key => !cache.store.entries.contains key

theorem concerned_nodup (cache : Cache) (scope : Scope) : (cache.concerned scope).Nodup := by
  refine List.nodup_append.mpr ⟨cache.store.keysIn_nodup scope,
    (cache.loads.distinct.filter _).filter _, ?_⟩
  intro key stored other running same
  rcases (Store.mem_keysIn.mp stored).1 with ⟨block, held⟩
  have absent := (List.mem_filter.mp running).2
  rw [← same, Table.contains_eq_isSome, held] at absent
  cases absent

theorem absent_of_running (cache : Cache) (scope : Scope) :
    ∀ key ∈ (cache.loads.keys.filter scope.covers).filter
        fun key => !cache.store.entries.contains key, cache.store.entries.get? key = none := by
  intro key listed
  have absent := (List.mem_filter.mp listed).2
  rw [Table.contains_eq_isSome] at absent
  cases held : cache.store.entries.get? key with
  | none => rfl
  | some block =>
      rw [held] at absent
      cases absent

/-- With a load running a key is concerned exactly if it lies in the scope. -/
theorem mem_concerned_of_running {scope : Scope} {key : BlockKey}
    (running : key ∈ cache.loads.keys) :
    key ∈ cache.concerned scope ↔ scope.covers key = true := by
  rw [concerned, List.mem_append, List.mem_filter, List.mem_filter, Store.mem_keysIn,
    Table.contains_eq_isSome]
  cases cache.store.entries.get? key <;> simp [running]

theorem Steady.invalidate (steady : Steady cache) (settled : cache.isSettled = true)
    (scope : Scope) : ∃ next, cache.perform (.begin (.invalidate scope)) = some next ∧
      Dropped (cache.store.keysIn scope) (overtaken cache.loads scope) cache next := by
  have taken := accepted_begin settled (.invalidate scope)
  rcases leads_invalidation steady.quiet taken with ⟨final, leads, dropped⟩
  have begun := (steady_kept anyMove).accepted rfl steady taken
  have waiting := steady.waiting settled
  rw [← dropped.stack] at waiting
  refine ⟨final, ?_, dropped⟩
  rw [Cache.perform, accept_of_accepted taken, Option.map_some,
    leads.settle (isSettled_of_waiting waiting) begun.coherent begun.orderly]

theorem Steady.invalidateOne (steady : Steady cache) (settled : cache.isSettled = true)
    (key : BlockKey) : ∃ next, cache.perform (.begin (.invalidate (.exactly key))) = some next ∧
      Dropped [key] (overtaken cache.loads (.exactly key)) cache next := by
  rcases steady.invalidate settled (.exactly key) with ⟨next, made, dropped⟩
  refine ⟨next, made, ?_⟩
  rw [Store.keysIn_exactly] at dropped
  split at dropped
  · exact dropped
  · rename_i unlisted
    exact dropped.absent (List.forall_mem_singleton.mpr
      ((cache.store.entries.get?_eq_none_iff key).mpr unlisted))

/-- The loads after each key was dropped by itself.  In what order the keys come makes no difference
to the marks. -/
def overtakenEach (loads : Table BlockKey PendingLoad) (keys : List BlockKey) :
    Table BlockKey PendingLoad :=
  keys.foldl (fun loads key => overtaken loads (.exactly key)) loads

theorem Steady.invalidateEach (steady : Steady cache) (settled : cache.isSettled = true)
    (once : keys.Nodup) : ∃ final, Run anyMove cache (invalidations keys) final ∧
      Dropped keys (overtakenEach cache.loads keys) cache final := by
  induction keys generalizing cache with
  | nil => exact ⟨cache, .done, .refl cache⟩
  | cons key rest ih =>
      rw [List.nodup_cons] at once
      rcases steady.invalidateOne settled key with ⟨next, made, dropped⟩
      have after := steady.perform made
      rcases ih after.1 after.2.1 once.2 with ⟨final, run, later⟩
      refine ⟨final, .step rfl made run, ?_⟩
      rw [dropped.loads] at later
      refine dropped.append later fun other member => ?_
      exact List.mem_singleton.not.mpr fun same => once.1 (same ▸ member)

theorem overtakenEach_eq (loads : Table BlockKey PendingLoad) (keys : List BlockKey) :
    overtakenEach loads keys = loads.mapValues fun key pending =>
      if key ∈ keys then { pending with stale := true } else pending := by
  induction keys generalizing loads with
  | nil =>
      apply Table.ext_rows
      simp [overtakenEach, Table.mapValues]
  | cons key rest ih =>
      change overtakenEach (overtaken loads (.exactly key)) rest = _
      rw [ih, overtaken, Table.mapValues_mapValues]
      apply Table.mapValues_congr
      intro row _
      by_cases same : row.1 = key <;> simp [Scope.covers, same]

theorem overtakenEach_concerned {scope : Scope} (all : keys.Perm (cache.concerned scope)) :
    overtakenEach cache.loads keys = overtaken cache.loads scope := by
  rw [overtakenEach_eq, overtaken]
  apply Table.mapValues_congr
  intro row running
  have listed : row.1 ∈ keys ↔ scope.covers row.1 = true :=
    all.mem_iff.trans (mem_concerned_of_running (List.mem_map_of_mem running))
  simp [listed]

theorem overtaken_overtaken (loads : Table BlockKey PendingLoad) (scope : Scope) :
    overtaken (overtaken loads scope) scope = overtaken loads scope := by
  unfold overtaken
  rw [Table.mapValues_mapValues]
  apply Table.mapValues_congr
  intro row _
  split <;> rfl

/-! ## All at once -/

/-- The moves that have led to this end can be made with another cache too, and there they lead to a
twin of it.  In particular the same blocks are evicted in the same order; the index of a weighted
store may still differ. -/
def Repeats (other : Cache) (moves : List Move) (final : Cache) : Prop :=
  ∃ alsoFinal, Run anyMove other moves alsoFinal ∧
    victims alsoFinal.journal = victims final.journal ∧ Twins final alsoFinal

theorem Twins.repeats {first second final : Cache} {moves : List Move} (twins : Twins first second)
    (steady : Steady first) (alsoSteady : Steady second) (settled : first.isSettled = true)
    (few : first.kind = .weighted → final.accesses < 2 ^ 64)
    (run : Run anyMove first moves final) : Repeats second moves final := by
  rcases twins.run steady alsoSteady settled run few with ⟨other, alsoRun, ends⟩
  exact ⟨other, alsoRun, ends.journal.victims, ends⟩

theorem Dropped.twins {first second : Cache} {others : List BlockKey}
    (dropped : Dropped keys marked cache first) (alsoDropped : Dropped others marked cache second)
    (same : keys.Perm others) : Twins first second := by
  have effect := dropped.sameEffect alsoDropped same
  exact
    { listener := alsoDropped.listener.trans dropped.listener.symm
      store := Store.outline_eq_of_unindexed effect.store.symm
      loads := congrArg anonymousLoads effect.loads.symm
      counters := effect.counters.symm
      stack := congrArg (List.map Frame.anonymous) effect.stack.symm
      journal := dropped.journal.symm.trans alsoDropped.journal }

/-- From every state that a cache of either kind can get into, and with loads running or not: a call
that invalidates a scope does what calls for each key of the scope do that has a block or a running
load, in whatever order they are made.  What is stored, the weight, the counters, the loads that
were marked, and what was removed and reported are the same; outside the scope every block keeps
its value and its place in the order of uses; and a second call changes nothing.

Whatever is done later can be done in both cases and evicts the same blocks in the same order, as
long as the clock of a weighted store has not wrapped by then; nothing else depends on the clock.
The listener returns at once from now on; if in the past it called back, it must have returned. -/
theorem bulk_invalidation_exact (kind : StoreKind) (budget : UInt64) (limit : Option UInt64)
    (past : Listener) {moves : List Move} {cache : Cache}
    (run : Run anyMove (start (.empty kind budget limit) past) moves cache)
    (returned : past = .interactive → ∀ frame ∈ cache.stack, frame.isListening = false)
    (listener : Listener) (quiet : listener ≠ .interactive) (scope : Scope) {keys : List BlockKey}
    (all : keys.Perm (cache.concerned scope)) :
    ∃ bulk exact repeated,
      (cache.heardBy listener).perform (.begin (.invalidate scope)) = some bulk ∧
      Run anyMove (cache.heardBy listener) (invalidations keys) exact ∧
      SameEffect bulk exact ∧ Spared scope cache bulk ∧
      (∀ later final, (kind = .weighted → final.accesses < 2 ^ 64) →
        (Run anyMove bulk later final → Repeats exact later final) ∧
          (Run anyMove exact later final → Repeats bulk later final)) ∧
      bulk.perform (.begin (.invalidate scope)) = some repeated ∧ SameEffect repeated bulk := by
  have regular := (regular_kept anyMove).run run (regular_start kind budget limit past)
  have unheard : ∀ frame ∈ cache.stack, frame.isListening = false := by
    by_cases calledBack : past = .interactive
    · exact returned calledBack
    · exact ((steady_kept anyMove).run run (steady_start kind budget limit calledBack)).unheard
  have steady : Steady (cache.heardBy listener) :=
    { toRegular := regular.heardBy listener
      quiet := quiet
      unheard := unheard }
  have settled : (cache.heardBy listener).isSettled = true :=
    run_isSettled anyMove _ past (by cases kind <;> rfl) moves cache run
  have sameKind : cache.kind = kind :=
    ((limits_kept anyMove kind budget).run run ⟨coherent_start _ past (by cases kind <;> rfl),
      by cases kind <;> rfl, by cases kind <;> rfl⟩).2.1
  have once : keys.Nodup := all.nodup_iff.mpr (cache.concerned_nodup scope)
  rcases steady.invalidate settled scope with ⟨bulk, made, dropped⟩
  rcases steady.invalidateEach settled once with ⟨exact, each, alsoDropped⟩
  have bulkSteady := steady.perform made
  have exactSteady := steady.run settled each
  rcases bulkSteady.1.invalidate bulkSteady.2.1 scope with ⟨repeated, again, nothing⟩
  have whole := dropped.absent (absent_of_running (cache.heardBy listener) scope)
  have marked : overtakenEach (cache.heardBy listener).loads keys =
      overtaken (cache.heardBy listener).loads scope := overtakenEach_concerned all
  rw [marked] at alsoDropped
  have effect := whole.sameEffect alsoDropped all.symm
  have twins := whole.twins alsoDropped all.symm
  have bulkKind : bulk.kind = kind := bulkSteady.2.2.trans sameKind
  have exactKind : exact.kind = kind := exactSteady.2.2.trans sameKind
  rw [dropped.spared.keysIn_eq_nil, dropped.loads, overtaken_overtaken, ← dropped.loads] at nothing
  have spared := dropped.spared
  refine ⟨bulk, exact, repeated, made, each, effect, ⟨spared.1, spared.2, spared.3⟩,
    fun later final few => ⟨?_, ?_⟩, again, nothing.sameEffect (.refl bulk) (.refl _)⟩
  · exact twins.repeats bulkSteady.1 exactSteady.1 bulkSteady.2.1
      fun weighted => few (bulkKind.symm.trans weighted)
  · exact twins.symm.repeats exactSteady.1 bulkSteady.1 exactSteady.2.1
      fun weighted => few (exactKind.symm.trans weighted)

/-- Two blocks of a level and one of another level are stored, and a third block of the first level
is being loaded. -/
def midLoad : Cache :=
  reached anyMove (start (.empty .weighted 10 none) .recording)
    (loadMoves ⟨⟨0⟩, 0, 0, .index 1⟩ (.standIn 3 "")
      ++ loadMoves ⟨⟨0⟩, 0, 1, .index 1⟩ (.standIn 3 "")
      ++ loadMoves ⟨⟨0⟩, 0, 0, .index 2⟩ (.standIn 3 "")
      ++ [.begin (.load ⟨⟨0⟩, 0, 0, .index 3⟩), .claim])

theorem bulk_invalidation_exact_midload :
    midLoad.store.entries.keys = [⟨⟨0⟩, 0, 0, .index 1⟩, ⟨⟨0⟩, 0, 1, .index 1⟩,
        ⟨⟨0⟩, 0, 0, .index 2⟩] ∧
      midLoad.loads.keys = [⟨⟨0⟩, 0, 0, .index 3⟩] ∧
      ∃ bulk exact repeated,
        midLoad.perform (.begin (.invalidate (.within ⟨⟨0⟩, 0, 0⟩))) = some bulk ∧
        Run anyMove midLoad (invalidations [⟨⟨0⟩, 0, 0, .index 3⟩, ⟨⟨0⟩, 0, 0, .index 2⟩,
          ⟨⟨0⟩, 0, 0, .index 1⟩]) exact ∧
        SameEffect bulk exact ∧ Spared (.within ⟨⟨0⟩, 0, 0⟩) midLoad bulk ∧
        (∀ later final, final.accesses < 2 ^ 64 →
          (Run anyMove bulk later final → Repeats exact later final) ∧
            (Run anyMove exact later final → Repeats bulk later final)) ∧
        bulk.perform (.begin (.invalidate (.within ⟨⟨0⟩, 0, 0⟩))) = some repeated ∧
        SameEffect repeated bulk := by
  have listening : midLoad.heardBy .recording = midLoad := heardBy_of_listener (by decide +kernel)
  rcases @bulk_invalidation_exact .weighted 10 none .recording _ midLoad
    (run_reached (by decide +kernel)) nofun .recording nofun (.within ⟨⟨0⟩, 0, 0⟩)
    [⟨⟨0⟩, 0, 0, .index 3⟩, ⟨⟨0⟩, 0, 0, .index 2⟩, ⟨⟨0⟩, 0, 0, .index 1⟩]
    (by decide +kernel) with ⟨bulk, exact, repeated, made, each, effect, spared, later, again⟩
  rw [listening] at made each
  exact ⟨by decide +kernel, by decide +kernel, bulk, exact, repeated, made, each, effect, spared,
    fun moves final few => later moves final fun _ => few, again⟩

/-! ## Once the clock has wrapped -/

end Cache

/-- A pass first takes away the records in front whose blocks are gone.  How many they are is not
said in the end, only what the pass evicts and leaves. -/
theorem Drained.of_strays {store final : WeightedStore} {examined : Nat}
    {blocks : List (BlockKey × CachedBlock)} {strays rest : List (UInt64 × BlockKey)}
    (records : store.recency.records = strays ++ rest)
    (gone : ∀ record ∈ strays, store.entries.get? record.2 = none)
    (heavy : store.overBudget = true)
    (drained : ∀ ascending,
      Drained { store with recency := ⟨rest, ascending⟩ } examined blocks final) :
    Drained store (examined + strays.length) blocks final := by
  induction strays generalizing store with
  | nil =>
      rcases store with ⟨budget, entries, total, clock, ⟨listed, ascending⟩, evicting⟩
      cases records
      exact drained ascending
  | cons first others ih =>
      have ascending := store.recency.ascending
      rw [records, List.cons_append, List.pairwise_cons] at ascending
      have popped : store.recency.popFirst? = some (first, ⟨others ++ rest, ascending.2⟩) := by
        rcases store with ⟨budget, entries, total, clock, ⟨listed, ordered⟩, evicting⟩
        cases records
        rfl
      have dropped : store.examine =
          .outdated { store with recency := ⟨others ++ rest, ascending.2⟩ } := by
        simp only [WeightedStore.examine, popped, gone first List.mem_cons_self]
      have later := fun record member => gone record (List.mem_cons_of_mem first member)
      exact .outdated heavy dropped (ih rfl later heavy drained)

namespace Cache

open PendingLoad

variable {cache : Cache} {before : Standing} {key : BlockKey} {payload : Payload}

/-- A sweep that finds nothing still looks after the index.  It reports nothing and adds nothing to
the counters. -/
theorem turns_sweep {store : WeightedStore} {level : LevelKey}
    (weighted : before.store = .weighted store) (nothing : store.matching (.within level) = []) :
    Turns [.begin (.invalidate (.within level))] before
      { before with
        store := before.store.compacted
        loads := overtaken before.loads (.within level)
        calls := before.calls + 1 } := by
  refine .one fun cache rest stands => ?_
  cases stands
  have taken := Accepted.sweepBegun rest.settled weighted
    (nofun : ∀ key, Scope.within level ≠ .exactly key)
  rw [nothing] at taken
  have quiet : ∀ {α : Type} (shown : Event → Option α),
      (∀ notice, shown (.noticed notice) = none) →
      (clearedNotice (.within level) 0 ++ (cache.store.compactionNotice
        ++ .began cache.calls (.invalidate (.within level)) :: cache.journal)).filterMap shown =
        (.began cache.calls (.invalidate (.within level)) :: cache.journal).filterMap shown := by
    intro α shown silent
    rw [(notices_clearedNotice _ _).filterMap_append silent,
      (notices_compactionNotice _).filterMap_append silent]
  refine ⟨rfl, _, _, taken, .one (advance_of_advanced (.sweepEnded rfl weighted)), rest.outside,
    rfl, ?_⟩
  dsimp only [standing, uses, victims]
  rw [List.filterMap_cons_none rfl, List.filterMap_cons_none rfl, quiet Event.used? fun _ => rfl,
    quiet Event.victim? fun _ => rfl]
  rfl

/-- A load for which there is no room evicts what a pass over the index evicts.  Nobody listens, so
the whole of it happens before the next move. -/
theorem AtRest.load_evicting {store left : WeightedStore} {examined : Nat}
    {blocks : List (BlockKey × CachedBlock)} (rest : AtRest cache)
    (weighted : cache.store = .weighted store) (absent : store.entries.get? key = none)
    (free : cache.loads.get? key = none) (unlocked : store.evicting = false)
    (heavy : (store.insert key cache.calls payload).overBudget = true)
    (light : weightOf cache.store.holdings + payload.weight.toNat < 2 ^ 64)
    (drained : Drained { store.insert key cache.calls payload with evicting := true } examined
      blocks left) :
    ∃ next, Run fits cache (loadMoves key payload) next ∧
      victims next.journal =
        (blocks.map fun row => (row.1, row.2.value)).reverse ++ victims cache.journal := by
  have missing : cache.store.lookup? key = none :=
    Store.lookup?_eq_none_iff.mpr (weighted ▸ absent)
  rcases @turns_start cache.standing key missing free cache rest rfl with
    ⟨middle, run, atRest, stands⟩
  have held : middle.store = cache.store := congrArg Standing.store stands
  have loads : middle.loads = cache.loads.insert key ⟨cache.calls, false, []⟩ :=
    congrArg Standing.loads stands
  have top : middle.stack = .loading cache.calls key :: cache.stack :=
    congrArg Standing.stack stands
  have told : victims middle.journal = victims cache.journal := congrArg Standing.victims stands
  have quiet : middle.listener ≠ .interactive := atRest.silent ▸ nofun
  have begun := Accepted.passBegun top (held.trans weighted) heavy unlocked
  rcases @leads_drained _ _ _ _ drained
    { middle with
      store := .weighted { store.insert key cache.calls payload with evicting := true }
      stack := .evicting ⟨cache.calls, key, payload⟩ 0 0 :: cache.stack
      counters := middle.counters.recordLoad true
      journal := .loaded cache.calls key payload :: middle.journal }
    ⟨cache.calls, key, payload⟩ 0 0 cache.stack quiet rfl rfl with ⟨journal, leads, shows⟩
  have running : middle.loads.get? key = some ⟨cache.calls, false, []⟩ := by
    rw [loads, Table.get?_insert, if_pos rfl]
  rcases ends_alone running with ⟨fresh, nobody, -⟩
  have moved := atRest.moved begun (leads.trans (.one (advance_of_advanced (.kept rfl fresh))))
    rest.outside rfl
  have fit : middle.fits (.loaderReturns payload) = true := fits_of_light (held ▸ light)
  refine ⟨_, run.append (.step fit moved.1 .done), ?_⟩
  change victims (.returned _ _ :: (answers _ _ (waiting middle.loads _ _) ++ journal)) = _
  rw [nobody, ← told]
  exact shows.evicts

def aside : BlockKey :=
  ⟨⟨0⟩, 0, 1, .index 1⟩

/-- Two blocks fill the budget, and the first one is found this many times.  Loads of a third block,
overtaken one after the other, take the places of the records of the two and then leave more records
behind than an invalidation leaves alone.  In the end a block of another level is being loaded. -/
def indexStrewn (times : Nat) : List Move :=
  loadMoves (.nth 1) (.standIn 6 "") ++ loadMoves (.nth 2) (.standIn 4 "")
    ++ List.replicate times (.begin (.find (.nth 1)))
    ++ (List.replicate 2 (overtakenMoves (.nth 3) (.standIn 0 ""))).flatten
    ++ (List.replicate 1027 (overtakenMoves (.nth 3) (.standIn 0 ""))).flatten
    ++ [.begin (.load aside), .claim]

/-- The clock stands at zero, and the first block was found just before. -/
def fullWrapped : WeightedStore :=
  { WeightedStore.full with
    clock := 0
    entries := WeightedStore.full.entries.modify (.nth 1) (·.touch largestWord) }

/-- None of the records is of one of the two blocks. -/
def fullOverwritten : WeightedStore :=
  (fun store => store.passed (.nth 3))^[2] fullWrapped

def fullStrewn : WeightedStore :=
  (fun store => store.passed (.nth 3))^[1027] fullOverwritten

theorem strewn_fullStrewn : WeightedStore.Strewn (.nth 3) 1027 fullOverwritten fullStrewn :=
  WeightedStore.strewn_iterate_passed (by decide) (by decide)

theorem fullStrewn_eq :
    fullStrewn = { fullOverwritten with clock := 1029, recency := fullStrewn.recency } := by
  have clock : fullStrewn.clock = 1029 := strewn_fullStrewn.clock
  have same := strewn_fullStrewn.same
  rwa [clock] at same

theorem size_fullStrewn : fullStrewn.recency.size = 1029 := by
  rcases strewn_fullStrewn.records with ⟨added, records, length, -⟩
  rw [Timeline.size, records, List.length_append, length]
  rfl

theorem turns_indexStrewn (times : Nat) (wraps : times + 2 = 2 ^ 64) :
    ∃ call uses, Turns (indexStrewn times) (start (.weighted (.empty 10)) .absent).standing
      { store := .weighted fullStrewn
        loads := Table.empty.insert aside ⟨call, false, []⟩
        stack := [.loading call aside]
        calls := call + 1
        uses := uses
        victims := [] } := by
  have wrapped : (Store.used (.nth 1))^[times] (.weighted .full) = .weighted fullWrapped := by
    obtain ⟨count, rfl⟩ : ∃ count, times = count + 2 := ⟨times - 2, by omega⟩
    have clock : WeightedStore.full.clock.toNat = 2 := rfl
    rw [Store.iterate_used_weighted, WeightedStore.iterate_used_wrapped (by omega)]
    rfl
  have light : 10 < 2 ^ 64 := by decide
  have absent : fullStrewn.entries.get? aside = none := by
    rw [fullStrewn_eq]
    rfl
  have found := turns_full.trans (turns_finds (.nth 1) rfl times)
  simp only [wrapped] at found
  have overwritten := found.trans
    (turns_overtaken_loads (.nth 3) (.standIn 0 "") rfl rfl rfl (by decide) (by exact light) 2)
  have strewn := overwritten.trans
    (turns_overtaken_loads (.nth 3) (.standIn 0 "") rfl rfl rfl (by decide) (by exact light) 1027)
  exact ⟨_, _, strewn.trans (turns_start (Store.lookup?_eq_none_iff.mpr absent) rfl)⟩

/-- Each of the two blocks has a record again, at the time of its last use. -/
def fullRebuilt : WeightedStore :=
  { fullOverwritten with
    clock := 1029
    recency := ⟨[(2, .nth 2), (largestWord, .nth 1)], by decide⟩ }

theorem compacted_fullStrewn : (Store.weighted fullStrewn).compacted = .weighted fullRebuilt := by
  have large : ¬ fullStrewn.recency.size ≤
      2 * fullStrewn.entries.size + WeightedStore.recencySlack := by
    rw [size_fullStrewn, fullStrewn_eq]
    decide
  rw [Store.compacted, WeightedStore.compact?, if_neg large, fullStrewn_eq]
  rfl

/-- A fourth block has come in, for which there is no room, and these records are left. -/
def fullExceeded (call : Nat) (recency : Timeline BlockKey) : WeightedStore :=
  { { fullOverwritten with clock := 1029 }.insert (.nth 4) call (.standIn 6 "") with
    recency := recency
    evicting := true }

theorem insert_strewn (recency : Timeline BlockKey) (call : Nat) :
    { { fullOverwritten with clock := 1029, recency := recency }.insert (.nth 4) call
        (.standIn 6 "") with evicting := true } =
      fullExceeded call (recency.insert 1030 (.nth 4)) := by
  have next : (1029 : UInt64) + 1 = 1030 := by decide
  simp only [fullExceeded, WeightedStore.insert, next]

/-- With the index as it was, the fourth block is the only one with a record, and it goes. -/
theorem drained_strewn {recency : Timeline BlockKey}
    (past : ∀ record ∈ recency.records, record.1 < 1030)
    (strays : ∀ record ∈ recency.records, record.2 = .nth 3) (call : Nat) :
    ∃ examined left, Drained (fullExceeded call (recency.insert 1030 (.nth 4))) examined
      [(.nth 4, ⟨.standIn 6 "", 1030, call⟩)] left := by
  have records : (recency.insert 1030 (.nth 4)).records = recency.records ++ [(1030, .nth 4)] :=
    Timeline.place_of_later past
  have gone : ∀ record ∈ recency.records,
      (fullExceeded call (recency.insert 1030 (.nth 4))).entries.get? record.2 = none := by
    intro record member
    rw [strays record member]
    rfl
  have heavy : ∀ recency, (fullExceeded call recency).overBudget = true := by
    intro recency
    with_unfolding_all rfl
  have evicted : ∀ ascending, (fullExceeded call ⟨[(1030, .nth 4)], ascending⟩).examine =
      .evicted ((fullExceeded call Timeline.empty).discard (.nth 4) ⟨.standIn 6 "", 1030, call⟩)
        (.nth 4) ⟨.standIn 6 "", 1030, call⟩ := by
    intro ascending
    with_unfolding_all rfl
  have within : ((fullExceeded call Timeline.empty).discard (.nth 4)
      ⟨.standIn 6 "", 1030, call⟩).overBudget = false := by
    change decide (10 < fullOverwritten.total + 6 - 0 - 6) = false
    decide +kernel
  exact ⟨_, _, .of_strays records gone (heavy _) fun ascending =>
    .evicted (heavy _) (evicted ascending) (.ended (.inl within))⟩

/-- With the index rebuilt, the second block goes first, and that is not enough. -/
theorem drained_rebuilt (call : Nat) : ∃ examined left,
    Drained { fullRebuilt.insert (.nth 4) call (.standIn 6 "") with evicting := true } examined
      [(.nth 2, ⟨.standIn 4 "", 2, 1⟩), (.nth 4, ⟨.standIn 6 "", 1030, call⟩)] left := by
  have second : (fullExceeded call
      ⟨[(2, .nth 2), (1030, .nth 4), (largestWord, .nth 1)], by decide⟩).examine =
      .evicted ((fullExceeded call ⟨[(1030, .nth 4), (largestWord, .nth 1)], by decide⟩).discard
        (.nth 2) ⟨.standIn 4 "", 2, 1⟩) (.nth 2) ⟨.standIn 4 "", 2, 1⟩ := by
    with_unfolding_all rfl
  have fourth : ((fullExceeded call
      ⟨[(1030, .nth 4), (largestWord, .nth 1)], by decide⟩).discard (.nth 2)
        ⟨.standIn 4 "", 2, 1⟩).examine =
      .evicted (((fullExceeded call ⟨[(largestWord, .nth 1)], by simp⟩).discard (.nth 2)
        ⟨.standIn 4 "", 2, 1⟩).discard (.nth 4) ⟨.standIn 6 "", 1030, call⟩)
        (.nth 4) ⟨.standIn 6 "", 1030, call⟩ := by
    with_unfolding_all rfl
  have within : (((fullExceeded call ⟨[(largestWord, .nth 1)], by simp⟩).discard (.nth 2)
      ⟨.standIn 4 "", 2, 1⟩).discard (.nth 4) ⟨.standIn 6 "", 1030, call⟩).overBudget = false := by
    change decide (10 < fullOverwritten.total + 6 - 0 - 4 - 6) = false
    decide +kernel
  exact ⟨_, _, .evicted (by with_unfolding_all rfl) second
    (.evicted (by with_unfolding_all rfl) fourth (.ended (.inl within)))⟩

/-- With the index rebuilt a load of the fourth block evicts the second one and then its own. -/
theorem AtRest.load_rebuilt (rest : AtRest cache) (store : cache.store = .weighted fullRebuilt)
    (free : cache.loads.get? (.nth 4) = none) (unharmed : victims cache.journal = []) :
    ∃ next, Run fits cache (loadMoves (.nth 4) (.standIn 6 "")) next ∧
      victims next.journal = [(.nth 4, .standIn 6 ""), (.nth 2, .standIn 4 "")] := by
  have light : 10 + 6 < 2 ^ 64 := by decide
  rcases drained_rebuilt cache.calls with ⟨_, _, drained⟩
  rcases rest.load_evicting store rfl free rfl rfl (by rw [store]; exact light) drained with
    ⟨next, run, evicted⟩
  rw [unharmed] at evicted
  exact ⟨next, run, evicted⟩

/-- With the index as it was the load of the fourth block evicts its own only. -/
theorem AtRest.load_strewn (rest : AtRest cache) (store : cache.store = .weighted fullStrewn)
    (free : cache.loads.get? (.nth 4) = none) (unharmed : victims cache.journal = []) :
    ∃ next, Run fits cache (loadMoves (.nth 4) (.standIn 6 "")) next ∧
      victims next.journal = [(.nth 4, .standIn 6 "")] := by
  have light : 10 + 6 < 2 ^ 64 := by decide
  have past : ∀ record ∈ fullStrewn.recency.records, record.1 < 1030 := by
    intro record member
    have old := strewn_fullStrewn.past record member
    rw [fullStrewn_eq] at old
    exact UInt64.lt_of_le_of_lt old (by decide)
  have strays : ∀ record ∈ fullStrewn.recency.records, record.2 = .nth 3 :=
    strewn_fullStrewn.keys (by decide)
  rcases drained_strewn past strays cache.calls with ⟨_, _, drained⟩
  rw [← insert_strewn] at drained
  rw [fullStrewn_eq] at store
  rcases rest.load_evicting store rfl free rfl rfl (by rw [store]; exact light) drained with
    ⟨next, run, evicted⟩
  rw [unharmed] at evicted
  exact ⟨next, run, evicted⟩

/-- Without the bound on the clock the later evictions may differ.  No block is in the scope and one
load, so the call for the scope rebuilds the index and the call for the key does not.  With the
index rebuilt the next load evicts the block that was used longest ago and then its own; without it
that block has no record left, and the load evicts its own only. -/
theorem later_evictions_differ : ∃ cache bulk exact bulkEnd exactEnd,
    Run anyMove (start (.empty .weighted 10 none) .absent) (indexStrewn (2 ^ 64 - 2)) cache ∧
      cache.concerned (.within aside.levelKey) = [aside] ∧
      cache.perform (.begin (.invalidate (.within aside.levelKey))) = some bulk ∧
      Run anyMove cache (invalidations [aside]) exact ∧
      Run anyMove bulk (loadMoves (.nth 4) (.standIn 6 "")) bulkEnd ∧
      Run anyMove exact (loadMoves (.nth 4) (.standIn 6 "")) exactEnd ∧
      victims bulkEnd.journal = [(.nth 4, .standIn 6 ""), (.nth 2, .standIn 4 "")] ∧
      victims exactEnd.journal = [(.nth 4, .standIn 6 "")] ∧
      ¬ Repeats exact (loadMoves (.nth 4) (.standIn 6 "")) bulkEnd := by
  rcases turns_indexStrewn (2 ^ 64 - 2) rfl with ⟨call, uses, turns⟩
  rcases turns _ (atRest_start rfl) rfl with ⟨cache, run, rest, stands⟩
  have store : cache.store = .weighted fullStrewn := congrArg Standing.store stands
  have loads : cache.loads = Table.empty.insert aside _ := congrArg Standing.loads stands
  have unharmed : victims cache.journal = [] := congrArg Standing.victims stands
  have nothing : fullStrewn.matching (.within aside.levelKey) = [] := by
    rw [fullStrewn_eq]
    rfl
  have absent : fullStrewn.entries.get? aside = none := by
    rw [fullStrewn_eq]
    rfl
  have concerned : cache.concerned (.within aside.levelKey) = [aside] := by
    rw [Cache.concerned, store, loads, fullStrewn_eq]
    rfl
  have free : ∀ scope, (overtaken cache.loads scope).get? (.nth 4) = none := by
    intro scope
    rw [loads]
    rfl
  -- The call for the scope rebuilds the index, the call for the key leaves it as it is.
  rcases turns_sweep store nothing cache rest rfl with ⟨bulk, swept, bulkRest, bulkStands⟩
  have rebuilt : bulk.store = .weighted fullRebuilt := (congrArg Standing.store bulkStands).trans
    ((congrArg Store.compacted store).trans compacted_fullStrewn)
  rcases turns_mark store absent cache rest rfl with ⟨exact, marked, exactRest, exactStands⟩
  have strewn : exact.store = .weighted fullStrewn :=
    (congrArg Standing.store exactStands).trans store
  rcases bulkRest.load_rebuilt rebuilt
    ((congrArg (fun after => after.loads.get? (.nth 4)) bulkStands).trans (free _))
    ((congrArg Standing.victims bulkStands).trans unharmed) with ⟨bulkEnd, bulkRun, bulkVictims⟩
  rcases exactRest.load_strewn strewn
    ((congrArg (fun after => after.loads.get? (.nth 4)) exactStands).trans (free _))
    ((congrArg Standing.victims exactStands).trans unharmed) with ⟨exactEnd, exactRun, exactVictims⟩
  have made : cache.perform (.begin (.invalidate (.within aside.levelKey))) = some bulk := by
    cases swept with
    | step _ made rest =>
        cases rest
        exact made
  refine ⟨cache, bulk, exact, bulkEnd, exactEnd, run.weaken fun _ _ _ => rfl, concerned, made,
    marked.weaken fun _ _ _ => rfl, bulkRun.weaken fun _ _ _ => rfl,
    exactRun.weaken fun _ _ _ => rfl, bulkVictims, exactVictims, ?_⟩
  rintro ⟨other, alsoRun, same, -⟩
  cases exactRun.unique alsoRun
  rw [exactVictims, bulkVictims] at same
  cases same

end Cache
end VolumeCache
