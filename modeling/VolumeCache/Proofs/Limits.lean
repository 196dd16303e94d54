import VolumeCache.Proofs.Budget
import VolumeCache.Proofs.Disposal
import VolumeCache.Proofs.Repetitions
import VolumeCache.Proofs.Steps
import VolumeCache.Proofs.Trimming

namespace VolumeCache

/-!
# The limits of a simple store

A cache with a simple store keeps to its limits in every state, not only while no call is under way:
an admission takes away what the limits demand before anyone is told of it.  What goes is a
beginning of the blocks in the order of their last uses, the new block last, and the shortest one
that will do.  The order meant here is read off the journal and not off the store.

The order a store keeps is that of a 64-bit clock, which every use moves on by one.  So what is said
of the order is said of states before the clock wraps; the limits themselves do not depend on it.
-/

namespace Cache

variable {cache next : Cache} {budget : UInt64} {limit : Option UInt64}

/-- The stored blocks in the order of their last uses, the one used longest ago first. -/
def byUse (cache : Cache) : List Holding :=
  holdingsUnder cache.store.entries (AccessOrder.lastUses cache.uses)

/-! ## In every state -/

/-- The cache has a simple store, which is within its limits in any case, and which follows the uses
as long as these are not too many for its clock. -/
def InOrder (budget : UInt64) (limit : Option UInt64) (cache : Cache) : Prop :=
  ∃ store, cache.store = .simple store ∧ store.Confined budget limit ∧
    (cache.uses.length < 2 ^ 64 → store.Ordered budget limit cache.uses)

theorem not_weighted (kind : cache.kind = .simple) (store : WeightedStore) :
    cache.store ≠ .weighted store := by
  intro weighted
  rw [Cache.kind, weighted] at kind
  cases kind

theorem InOrder.still (inOrder : InOrder budget limit cache) (uses : next.uses = cache.uses)
    (store : next.store = cache.store) : InOrder budget limit next := by
  unfold InOrder
  rw [uses, store]
  exact inOrder

theorem InOrder.used (inOrder : InOrder budget limit cache) {key : BlockKey} {payload : Payload}
    {store : Store} (held : cache.store.lookup? key = some (payload, store))
    (uses : next.uses = key :: cache.uses) (changed : next.store = store) :
    InOrder budget limit next := by
  rcases inOrder with ⟨inner, simple, confined, ordered⟩
  rw [simple] at held
  rcases Store.lookup?_eq_some held with ⟨_, _, other, -, -⟩ | ⟨_, left, same, found, rfl⟩
  · cases other
  · cases same
    refine ⟨left, changed, confined.lookup? found, fun few => ?_⟩
    rw [uses, List.length_cons] at few
    exact uses ▸ (ordered (Nat.lt_of_succ_lt few)).lookup? few found

theorem InOrder.fewer (inOrder : InOrder budget limit cache) {before after : SimpleStore}
    (uses : next.uses = cache.uses) (simple : cache.store = .simple before)
    (changed : next.store = .simple after)
    (confined : before.Confined budget limit → after.Confined budget limit)
    (ordered : before.Ordered budget limit cache.uses → after.Ordered budget limit cache.uses) :
    InOrder budget limit next := by
  rcases inOrder with ⟨inner, same, confinedBefore, orderedBefore⟩
  rw [simple] at same
  cases same
  exact ⟨after, changed, confined confinedBefore,
    fun few => uses ▸ ordered (orderedBefore (uses ▸ few))⟩

theorem InOrder.accepted {move : Move} (inOrder : InOrder budget limit cache)
    (kind : cache.kind = .simple) (weighed : Weighed cache) (staged : Staged cache)
    (fit : cache.fits move = true) (taken : Accepted cache move next) :
    InOrder budget limit next := by
  cases taken with
  | found _ held | hit _ held | lateHit _ _ held =>
      refine inOrder.used held ?_ rfl
      simp [uses_eq, Event.isNoted, Event.used?, List.filterMap_cons]
  | cleared _ simple taken =>
      refine inOrder.fewer ?_ simple rfl (fun confined => confined.removeWhere taken)
        fun ordered => ordered.removeWhere taken
      simp [uses_eq, Event.isNoted, Event.used?, List.filterMap_cons]
  | @simplyStored call key rest payload store left blocks top simple put =>
      rcases inOrder with ⟨inner, same, confined, ordered⟩
      rw [simple] at same
      cases same
      have absent := staged.absent_simple top simple
      refine ⟨left, rfl, confined.put absent put, fun few => ?_⟩
      have added : (key :: cache.uses).length < 2 ^ 64 := by
        simpa [uses_eq, Event.isNoted, Event.used?, List.filterMap_cons] using few
      have after := ((ordered (Nat.lt_of_succ_lt added)).put added absent put).1
      simpa [uses_eq, Event.isNoted, Event.used?, List.filterMap_cons] using after
  | overflown top simple put => exact absurd put (weighed.put_ne_error staged fit top simple)
  | dropped _ weighted | nothingDropped _ weighted | sweepBegun _ weighted
  | passBegun _ weighted | stored _ weighted => exact absurd weighted (not_weighted kind _)
  | passUnwound =>
      refine inOrder.still ?_ ?_
      · simp [uses_eq, Event.isNoted, Event.used?, List.filterMap_cons]
      · unfold releasePass
        split
        · rename_i weighted
          exact absurd weighted (not_weighted kind _)
        · rfl
  | _ =>
      refine inOrder.still ?_ rfl
      simp [uses_eq, Event.isNoted, Event.used?, List.filterMap_cons]

theorem InOrder.advanced (inOrder : InOrder budget limit cache) (kind : cache.kind = .simple)
    (taken : Advanced cache next) : InOrder budget limit next := by
  cases taken with
  | outdated _ weighted | evicted _ weighted | passEnded _ weighted | retracted _ _ weighted
  | swept _ weighted | passedOver _ weighted | sweepEnded _ weighted =>
      exact absurd weighted (not_weighted kind _)
  | takenBack _ _ simple taken =>
      refine inOrder.fewer ?_ simple rfl (fun confined => confined.remove? taken)
        fun ordered => ordered.remove? taken
      simp [uses_eq, Event.isNoted, Event.used?, List.filterMap_cons]
  | dropCounted =>
      refine inOrder.still ?_ ?_
      · simp [uses_eq, Event.isNoted, Event.used?, List.filterMap_cons]
      · change cache.store.compacted = cache.store
        cases is : cache.store with
        | simple store => rfl
        | weighted store => exact absurd is (not_weighted kind _)
  | _ =>
      refine inOrder.still ?_ rfl
      simp [uses_eq, Event.isNoted, Event.used?, List.filterMap_cons]

/-- What is known of a cache with a simple store in every state of a run.  Weights must fit for
this, and nothing else is assumed of the run. -/
structure Limited (budget : UInt64) (limit : Option UInt64) (cache : Cache) : Prop where
  coherent : Coherent cache
  weighed : Weighed cache
  kind : cache.kind = .simple
  inOrder : InOrder budget limit cache

theorem limited_kept (budget : UInt64) (limit : Option UInt64) :
    Kept fits (Limited budget limit) where
  accepted fit limited taken := by
    have known := weighed_kept.accepted fit ⟨limited.coherent, limited.weighed⟩ taken
    rcases changed_of_accepted limited.coherent.staged taken with ⟨change, changed, -, -⟩
    exact ⟨known.1, known.2, changed.kind.trans limited.kind, limited.inOrder.accepted limited.kind
      limited.weighed limited.coherent.staged fit taken⟩
  advanced limited taken := by
    have known := weighed_kept.advanced ⟨limited.coherent, limited.weighed⟩ taken
    have changed := (changed_of_advanced taken).1
    exact ⟨known.1, known.2, changed.kind.trans limited.kind,
      limited.inOrder.advanced limited.kind taken⟩

theorem limited_start (budget : UInt64) (limit : Option UInt64) (listener : Listener) :
    Limited budget limit (start (.simple (.empty budget limit)) listener) where
  coherent := coherent_start _ listener rfl
  weighed := weighed_start _ listener rfl rfl
  kind := rfl
  inOrder := ⟨_, rfl, SimpleStore.confined_empty budget limit,
    fun _ => SimpleStore.ordered_empty budget limit⟩

theorem Limited.ordered (limited : Limited budget limit cache) (few : cache.accesses < 2 ^ 64) :
    ∃ store, cache.store = .simple store ∧ store.Ordered budget limit cache.uses ∧
      cache.byUse = store.byUse := by
  rcases limited.inOrder with ⟨store, simple, -, follows⟩
  have ordered := follows (cache.length_uses ▸ few)
  refine ⟨store, simple, ordered, ?_⟩
  rw [byUse, simple]
  exact ordered.byUse_eq

/-! ## What can be observed -/

/-- The blocks keep to the limits, and exactly the stored keys are tracked: each of them has a note
of its last use.  Nothing is assumed or said of the order in which the uses are kept. -/
structure WithinLimits (budget : UInt64) (limit : Option UInt64) (cache : Cache) : Prop where
  weight : cache.heldWeight ≤ budget.toNat
  number : ∀ most, limit = some most → cache.size ≤ most.toNat
  tracked : ∃ store, cache.store = .simple store ∧
    ∀ key, (store.order.ticks.get? key).isSome = (store.entries.get? key).isSome

/-- The store keeps the keys of its blocks in the order of their last uses, every key once.  The
blocks in this order are those that the journal tells of, and they are all that are stored.  This is
what is lost when the clock wraps. -/
structure KeepsOrder (cache : Cache) : Prop where
  listed : cache.byUse.Perm cache.store.holdings
  keys : ∃ store, cache.store = .simple store ∧ store.order.keys = cache.byUse.map Holding.key

theorem Limited.withinLimits (limited : Limited budget limit cache) :
    WithinLimits budget limit cache := by
  rcases limited.inOrder with ⟨store, simple, confined, -⟩
  refine ⟨?_, fun most limited => ?_, store, simple, confined.consistent.tracked⟩
  · rw [heldWeight_eq, simple]
    exact confined.within.1
  · have number := confined.within.2 most limited
    rw [holdingsOf, List.length_map] at number
    rw [size, simple]
    exact number

theorem Limited.keepsOrder (limited : Limited budget limit cache)
    (few : cache.accesses < 2 ^ 64) : KeepsOrder cache := by
  rcases limited.ordered few with ⟨store, simple, ordered, byUse⟩
  refine ⟨?_, store, simple, ?_⟩
  · rw [byUse, simple]
    exact ordered.tidy.byUse_perm
  · rw [byUse, ordered.tidy.keys_byUse]

/-- A value has come in at the end of the blocks in the order of their uses, and the shortest
beginning that the limits demand has gone, block by block in this order.  The removals listed are
all that the admission adds to those in the journal. -/
structure Admitted (budget : UInt64) (limit : Option UInt64) (key : BlockKey) (call : Nat)
    (payload : Payload) (gone : List Removal) (cache next : Cache) : Prop where
  leading : ∃ rest, cache.stack = .loading call key :: rest
  removed : next.removals = gone.reverse ++ cache.removals
  forSize : ∀ removal ∈ gone, removal.cause = .size
  trimmed : Trimmed (KeepsTo budget limit) (cache.byUse ++ [⟨key, payload, call⟩])
    (gone.map Removal.holding) next.byUse

theorem Limited.admitted (limited : Limited budget limit cache) {payload : Payload}
    (fit : cache.fits (.loaderReturns payload) = true)
    (taken : Accepted cache (.loaderReturns payload) next) (few : next.accesses < 2 ^ 64) :
    ∃ key call gone, Admitted budget limit key call payload gone cache next := by
  have staged := limited.coherent.staged
  have after := (limited_kept budget limit).accepted fit limited taken
  have before : cache.accesses < 2 ^ 64 :=
    Nat.lt_of_le_of_lt (accesses_le_of_suffix (journal_suffix_of_accepted taken)) few
  rcases limited.ordered before with ⟨store, simple, ordered, byUse⟩
  rcases after.ordered few with ⟨left, simplyLeft, -, nextByUse⟩
  cases taken with
  | passBegun _ weighted | stored _ weighted =>
      exact absurd weighted (not_weighted limited.kind _)
  | overflown top simple put =>
      exact absurd put (limited.weighed.put_ne_error staged fit top simple)
  | @simplyStored call key rest _ inner _ blocks top same put =>
      cases simple.symm.trans same
      cases simplyLeft
      have room : cache.uses.length + 1 < 2 ^ 64 := by
        rw [length_uses]
        simpa [accesses_eq, Event.isNoted, Event.isAccess, List.countP_cons] using few
      refine ⟨key, call, removalsOf .size blocks, ⟨rest, top⟩, ?_, ?_, ?_⟩
      · simp [removals_eq, Event.isNoted, Event.removed?, List.filterMap_cons]
      · intro removal member
        rcases List.mem_map.mp member with ⟨row, -, rfl⟩
        rfl
      · rw [holding_removalsOf, byUse, nextByUse]
        exact (ordered.put room (staged.absent_simple top simple) put).2

/-- A value heavier than the budget leaves nothing behind, not even itself. -/
theorem Admitted.flushed {key : BlockKey} {call : Nat} {payload : Payload} {gone : List Removal}
    (admitted : Admitted budget limit key call payload gone cache next)
    (heavy : budget < payload.weight) : next.byUse = [] := by
  apply admitted.trimmed.nothing_left
  intro blocks keeps
  have weight := keeps.1
  rw [weightOf_append, weightOf_cons] at weight
  have own : Holding.weight ⟨key, payload, call⟩ = payload.weight.toNat := rfl
  rw [UInt64.lt_iff_toNat_lt] at heavy
  omega

/-- In every state of a run the weight of a simple store is that of its blocks, the store keeps to
its limits, and exactly the stored keys are tracked.  Before its clock wraps the store also keeps
the order of the uses of its blocks, and each admission removes the shortest beginning of the blocks
in this order, the new block last, that leaves the store within its limits; after one that is
heavier than the budget nothing is stored.  What is assumed of the run is that every loaded weight
can be summed with those stored; callers, loaders and listeners may do anything. -/
theorem simple_limits_enforced (budget : UInt64) (limit : Option UInt64) (listener : Listener)
    (cache : Cache)
    (visited : Visited fits (start (.simple (.empty budget limit)) listener) cache) :
    cache.weight.toNat = cache.heldWeight ∧ WithinLimits budget limit cache ∧
      (cache.accesses < 2 ^ 64 → KeepsOrder cache) ∧
      ∀ payload next, cache.fits (.loaderReturns payload) = true →
        cache.accept (.loaderReturns payload) = some next → next.accesses < 2 ^ 64 →
        (∃ key call gone, Admitted budget limit key call payload gone cache next) ∧
          (budget < payload.weight → next.size = 0) := by
  have limited := (limited_kept budget limit).visited visited (limited_start budget limit listener)
  refine ⟨limited.weighed.toNat, limited.withinLimits, limited.keepsOrder,
    fun payload next fit taken few => ?_⟩
  have accepted := accepted_of_accept taken
  rcases limited.admitted fit accepted few with ⟨key, call, gone, admitted⟩
  refine ⟨⟨key, call, gone, admitted⟩, fun heavy => ?_⟩
  have after := (limited_kept budget limit).accepted fit limited accepted
  have listed := (after.keepsOrder few).listed.length_eq
  rw [admitted.flushed heavy, Store.holdings, holdingsOf, List.length_map] at listed
  exact listed.symm

/-- Two blocks are stored, the first was used again, and a third value is about to come in; there is
room for two values and for ten bytes. -/
def aboutToStore : Cache :=
  reached fits (start (.simple (.empty 10 (some 2))) .interactive)
    (loadMoves ⟨⟨0⟩, 0, 0, .index 1⟩ (.standIn 4 "")
      ++ loadMoves ⟨⟨0⟩, 0, 0, .index 2⟩ (.standIn 4 "")
      ++ [.begin (.find ⟨⟨0⟩, 0, 0, .index 1⟩), .begin (.load ⟨⟨0⟩, 0, 0, .index 3⟩), .claim])

theorem simple_limits_enforced_storing :
    aboutToStore.byUse.map Holding.key = [⟨⟨0⟩, 0, 0, .index 2⟩, ⟨⟨0⟩, 0, 0, .index 1⟩] ∧
      aboutToStore.weight.toNat = aboutToStore.heldWeight ∧
      WithinLimits 10 (some 2) aboutToStore ∧ KeepsOrder aboutToStore ∧
      (∃ key call gone, Admitted 10 (some 2) key call (.standIn 5 "") gone aboutToStore
        (aboutToStore.after (.loaderReturns (.standIn 5 "")))) ∧
      (aboutToStore.after (.loaderReturns (.standIn 11 ""))).size = 0 := by
  have run : Run fits (start (.simple (.empty 10 (some 2))) .interactive) _ aboutToStore :=
    run_reached (by decide +kernel)
  have limits := simple_limits_enforced 10 (some 2) .interactive aboutToStore (.of_run run)
  have light : aboutToStore.accept (.loaderReturns (.standIn 5 "")) =
      some (aboutToStore.after (.loaderReturns (.standIn 5 ""))) :=
    accept_eq_after (by decide +kernel)
  have heavy : aboutToStore.accept (.loaderReturns (.standIn 11 "")) =
      some (aboutToStore.after (.loaderReturns (.standIn 11 ""))) :=
    accept_eq_after (by decide +kernel)
  exact ⟨by decide +kernel, limits.1, limits.2.1, limits.2.2.1 (by decide +kernel),
    (limits.2.2.2 _ _ (by decide +kernel) light (by decide +kernel)).1,
    (limits.2.2.2 _ _ (by decide +kernel) heavy (by decide +kernel)).2 (by decide +kernel)⟩

/-! ## Once the clock has wrapped -/

/-- Two blocks are stored, and the second one is found this many times.  Then a third block is being
loaded, and there is room for two. -/
def longUsed (times : Nat) : List Move :=
  loadMoves (.nth 1) (.standIn 4 "") ++ loadMoves (.nth 2) (.standIn 4 "")
    ++ List.replicate times (.begin (.find (.nth 2))) ++ [.begin (.load (.nth 3)), .claim]

def twoBlocks : SimpleStore :=
  ((SimpleStore.empty 10 none).insert (.nth 1) 0 (.standIn 4 "")).insert (.nth 2) 1 (.standIn 4 "")

/-- The second of the two blocks was used when the clock wrapped, so it seems to be the older. -/
def twoBlocksWrapped : SimpleStore :=
  { twoBlocks with order := twoBlocks.order.stamp (.nth 2) 0 }

/-- Just as many uses as the clock can count, of which two brought the blocks in. -/
theorem turns_longUsed (times : Nat) (wraps : times + 2 = 2 ^ 64) :
    Turns (longUsed times) (start (.simple (.empty 10 none)) .absent).standing
      { store := .simple twoBlocksWrapped
        loads := Table.empty.insert (.nth 3) ⟨2 + times, false, []⟩
        stack := [.loading (2 + times) (.nth 3)]
        calls := 2 + times + 1
        uses := List.replicate times (.nth 2) ++ [.nth 2, .nth 1]
        victims := [] } := by
  have stored : Turns (loadMoves (.nth 1) (.standIn 4 "") ++ loadMoves (.nth 2) (.standIn 4 ""))
      (start (.simple (.empty 10 none)) .absent).standing
      ⟨.simple twoBlocks, Table.empty, [], 2, [.nth 2, .nth 1], []⟩ :=
    (turns_load rfl rfl (.simple rfl rfl rfl) (by decide)).trans
      (turns_load rfl rfl (.simple rfl rfl rfl) (by decide))
  have found := stored.trans (turns_finds (.nth 2) rfl times)
  have order : (fun order => order.touch (.nth 2))^[times] twoBlocks.order =
      twoBlocks.order.stamp (.nth 2) 0 := by
    obtain ⟨count, rfl⟩ : ∃ count, times = count + 1 := ⟨times - 1, by omega⟩
    have clock : twoBlocks.order.clock.toNat = 2 := rfl
    have past : ∀ record ∈ twoBlocks.order.order.records,
        record.1 ≤ twoBlocks.order.clock := by decide
    rw [AccessOrder.iterate_touch _ (by omega) past, Timeline.ahead_eq_zero (by omega)]
  simp only [Store.iterate_used_simple, order] at found
  exact found.trans (turns_start rfl rfl)

/-- The third block takes the place of the record of the first one, and the second one goes.  The
first one is stored from now on without a record, so no later admission will find it. -/
theorem put_twoBlocksWrapped (call : Nat) : ∃ left,
    twoBlocksWrapped.put (.nth 3) call (.standIn 4 "") =
        .ok ([(.nth 2, ⟨.standIn 4 "", 0, 1⟩)], left) ∧
      left.entries.keys = [.nth 1, .nth 3] ∧ left.order.keys = [.nth 3] :=
  ⟨{ budget := 10
     maxEntries := none
     entries := ⟨[(.nth 1, ⟨.standIn 4 "", 0, 0⟩), (.nth 3, ⟨.standIn 4 "", 0, call⟩)],
       by simp [BlockKey.nth]⟩
     order := ⟨1, ⟨[(.nth 1, 1), (.nth 3, 1)], by decide⟩, ⟨[(1, .nth 3)], by simp⟩⟩
     weight := 8 }, by with_unfolding_all rfl, rfl, rfl⟩

/-- Of two blocks the one that was used last is evicted to make room for a third, once it was used
so often that the clock stands at zero; the first one stays, and its key is lost from the order.  So
without a bound on the uses no more can be said of an admission than that it keeps the limits. -/
theorem last_used_evicted : ∃ cache next,
    Run fits (start (.simple (.empty 10 none)) .absent) (longUsed (2 ^ 64 - 2)) cache ∧
      cache.byUse.map Holding.key = [.nth 1, .nth 2] ∧
      cache.fits (.loaderReturns (.standIn 4 "")) = true ∧
      cache.accept (.loaderReturns (.standIn 4 "")) = some next ∧
      next.removals = ⟨.nth 2, ⟨.standIn 4 "", 0, 1⟩, .size⟩ :: cache.removals ∧
      next.store.entries.keys = [.nth 1, .nth 3] ∧
      (¬ ∃ key call gone, Admitted 10 none key call (.standIn 4 "") gone cache next) ∧
      ¬ KeepsOrder next := by
  rcases turns_longUsed (2 ^ 64 - 2) rfl _ (atRest_start rfl) rfl with ⟨cache, run, -, stands⟩
  have store : cache.store = .simple twoBlocksWrapped := congrArg Standing.store stands
  have top : cache.stack = [.loading _ (.nth 3)] := congrArg Standing.stack stands
  have uses : cache.uses = List.replicate _ _ ++ [.nth 2, .nth 1] := congrArg Standing.uses stands
  have byUse : cache.byUse.map Holding.key = [.nth 1, .nth 2] := by
    rw [Cache.byUse, store, uses, AccessOrder.lastUses_replicate]
    rfl
  rcases put_twoBlocksWrapped (2 + (2 ^ 64 - 2)) with ⟨left, put, entries, order⟩
  have taken := Accepted.simplyStored top store put
  refine ⟨cache, _, run, byUse, ?_, accept_of_accepted taken, rfl, entries, ?_, ?_⟩
  · rw [Cache.fits, heldWeight_eq, store]
    rfl
  · rintro ⟨key, call, gone, admitted⟩
    have removed : [_] ++ cache.removals = gone.reverse ++ cache.removals := admitted.removed
    have one := List.append_cancel_right removed
    rw [← List.reverse_reverse gone, ← one] at admitted
    have split := congrArg (List.map Holding.key) admitted.trimmed.split
    rw [List.map_append, byUse] at split
    cases split
  · rintro ⟨listed, inner, simple, keys⟩
    cases simple
    rw [order] at keys
    have one := (congrArg List.length keys).trans ((List.length_map _).trans listed.length_eq)
    have two : left.entries.size = 2 :=
      (List.length_map _).symm.trans (congrArg List.length entries)
    rw [length_holdings] at one
    exact absurd (one.trans two) (by decide)

end Cache
end VolumeCache
