import VolumeCache.Proofs.Balances
import VolumeCache.Proofs.Limits

namespace VolumeCache

/-!
# What a weighted store evicts

A look-up leaves the index of a weighted store alone, so the record at its front may be out of date,
may be one of several of its block, or may be left from a block of that key that is gone.  All the
same a block is evicted only while the weight exceeds the budget, and it is the block that was used
least recently.  When a block was used is read off the journal; that the stamps of the blocks tell
the same is part of what is proved here, for clocks that have not wrapped.
-/

/-! ## Stamps and the journal -/

namespace WeightedStore

variable {store after : WeightedStore} {uses : List BlockKey}

/-- The clock tells how many uses there were, and every stored block bears the number of its last
one.  The latest use comes first, so a block that was used later bears a larger number and stands
earlier. -/
structure Stamped (uses : List BlockKey) (store : WeightedStore) : Prop where
  clock : store.clock.toNat = uses.length
  used : ∀ {key use}, store.lastUse? key = some use → key ∈ uses
  stamp : ∀ {key use}, store.lastUse? key = some use →
    use.toNat + uses.idxOf key = uses.length

theorem stamped_empty (budget : UInt64) : Stamped [] (empty budget) where
  clock := rfl
  used held := nomatch held
  stamp held := nomatch held

theorem Stamped.shrink (stamped : Stamped uses store) (clock : after.clock = store.clock)
    (held : ∀ {key use}, after.lastUse? key = some use → store.lastUse? key = some use) :
    Stamped uses after where
  clock := clock ▸ stamped.clock
  used last := stamped.used (held last)
  stamp last := stamped.stamp (held last)

theorem Stamped.use (stamped : Stamped uses store) {key : BlockKey}
    (few : (key :: uses).length < 2 ^ 64) (clock : after.clock = store.clock + 1)
    (held : ∀ other, after.lastUse? other =
      if other = key then some (store.clock + 1) else store.lastUse? other) :
    Stamped (key :: uses) after := by
  have now : (store.clock + 1).toNat = (key :: uses).length :=
    (Timeline.next_tick (Nat.le_of_eq stamped.clock) few).2.trans
      (congrArg Nat.succ stamped.clock)
  constructor
  · rw [clock, now]
  · intro other use last
    rw [held] at last
    split at last
    · rename_i same
      exact same ▸ List.mem_cons_self
    · exact List.mem_cons_of_mem _ (stamped.used last)
  · intro other use last
    rw [held] at last
    split at last
    · rename_i same
      cases last
      rw [now, same, List.idxOf_cons_self]
      rfl
    · rename_i different
      have before := stamped.stamp last
      rw [List.idxOf_cons_ne _ (fun same => different same.symm), List.length_cons]
      omega

/-- Of two stored blocks the one with the earlier stamp was used less recently. -/
theorem Stamped.idxOf_lt (stamped : Stamped uses store) {key other : BlockKey}
    {use later : UInt64} (first : store.lastUse? key = some use)
    (second : store.lastUse? other = some later) (before : use < later) :
    uses.idxOf other < uses.idxOf key := by
  have one := stamped.stamp first
  have two := stamped.stamp second
  rw [UInt64.lt_iff_toNat_lt] at before
  omega

/-- The block that an examination evicts bears an earlier stamp than any other.  Every other block
has a record behind the one examined, and no block was last used before the first of its records. -/
theorem Indexed.evicts_earliest {left : WeightedStore} {key other : BlockKey}
    {block : CachedBlock} {use : UInt64} (indexed : Indexed store)
    (first : store.examine = .evicted left key block) (different : other ≠ key)
    (last : store.lastUse? other = some use) : block.lastAccess < use := by
  rcases examine_eq_evicted first with ⟨rest, popped, -, -⟩
  -- The other block's record may be out of date, but then it is from an earlier use still.
  rcases indexed.tracked last with ⟨tick, recorded, early⟩
  rw [Timeline.popFirst?_eq_some popped] at recorded
  rcases List.mem_cons.mp recorded with isFirst | later
  · cases isFirst
    exact absurd rfl different
  · exact UInt64.lt_of_lt_of_le (Timeline.first_lt_of_popFirst? popped later) early

end WeightedStore

namespace Store

/-- The stamps of a weighted store go with the uses; a simple store keeps its order elsewhere. -/
def Stamped (uses : List BlockKey) : Store → Prop
  | .weighted store => store.Stamped uses
  | .simple _ => True

variable {store before after : Store} {uses : List BlockKey}

theorem Changed.stamped (changed : Changed before .upkeep after) (stamped : before.Stamped uses) :
    after.Stamped uses := by
  cases changed with
  | same => exact stamped
  | discarded => exact WeightedStore.Stamped.shrink stamped rfl WeightedStore.lastUse?_of_discard
  | outdated first =>
      rcases WeightedStore.reindexed_of_outdated first with ⟨recency, rfl⟩
      exact WeightedStore.Stamped.shrink stamped rfl id
  | evicted first =>
      rcases WeightedStore.examine_eq_evicted first with ⟨rest, -, -, rfl⟩
      exact WeightedStore.Stamped.shrink stamped rfl WeightedStore.lastUse?_of_discard
  | flagged => exact WeightedStore.Stamped.shrink stamped rfl id
  | compacted due =>
      rw [WeightedStore.compact?_eq_some due]
      exact WeightedStore.Stamped.shrink stamped rfl id
  | cleared | takenBack => trivial

theorem Stamped.lookup? {key : BlockKey} {payload : Payload} (stamped : store.Stamped uses)
    (indexed : store.Indexed uses.length) (few : (key :: uses).length < 2 ^ 64)
    (found : store.lookup? key = some (payload, after)) : after.Stamped (key :: uses) := by
  rcases lookup?_eq_some found with ⟨inner, left, rfl, taken, rfl⟩ | ⟨inner, left, rfl, -, rfl⟩
  · rcases indexed.1.uses_lookup? (Indexed.forward indexed few).1 taken with
      ⟨-, -, clock, held⟩
    exact WeightedStore.Stamped.use stamped few clock held
  · trivial

end Store

/-! ## In every state -/

namespace Cache

variable {cache next : Cache}

/-- Before the clock wraps the stamps of the stored blocks go with the uses in the journal. -/
def Stamped (cache : Cache) : Prop :=
  cache.accesses < 2 ^ 64 → cache.store.Stamped cache.uses

theorem Stamped.still (stamped : Stamped cache)
    (changed : Store.Changed cache.store .upkeep next.store) (uses : next.uses = cache.uses) :
    Stamped next := by
  intro few
  rw [← length_uses, uses, length_uses] at few
  exact uses ▸ changed.stamped (stamped few)

theorem few_before {key : BlockKey} (uses : next.uses = key :: cache.uses)
    (few : next.accesses < 2 ^ 64) :
    (key :: cache.uses).length < 2 ^ 64 ∧ cache.accesses < 2 ^ 64 := by
  rw [← length_uses, uses] at few
  rw [← length_uses]
  exact ⟨few, Nat.lt_of_succ_lt few⟩

theorem Stamped.used (stamped : Stamped cache) (indexed : Indexed cache) {key : BlockKey}
    {payload : Payload} (found : cache.store.lookup? key = some (payload, next.store))
    (uses : next.uses = key :: cache.uses) : Stamped next := by
  intro few
  rcases few_before uses few with ⟨room, before⟩
  rw [uses]
  exact (stamped before).lookup? (cache.length_uses ▸ indexed before) room found

theorem Stamped.brought (stamped : Stamped cache) {key : BlockKey} {load : Nat}
    {payload : Payload} {store : WeightedStore} {evicting : Bool}
    (weighted : cache.store = .weighted store)
    (left : next.store = .weighted { store.insert key load payload with evicting := evicting })
    (uses : next.uses = key :: cache.uses) : Stamped next := by
  intro few
  rcases few_before uses few with ⟨room, before⟩
  have known := stamped before
  rw [weighted] at known
  rw [uses, left]
  exact WeightedStore.Stamped.use known room rfl fun other => store.lastUse?_insert key other load _

theorem Stamped.accepted {move : Move} (stamped : Stamped cache) (indexed : Indexed cache)
    (taken : Accepted cache move next) : Stamped next := by
  cases taken with
  | found _ held | hit _ held | lateHit _ _ held =>
      refine stamped.used indexed held ?_
      simp [uses_eq, Event.isNoted, Event.used?, List.filterMap_cons]
  | passBegun _ weighted | stored _ weighted =>
      refine stamped.brought weighted rfl ?_
      simp [uses_eq, Event.isNoted, Event.used?]
  | dropped _ weighted taken =>
      rcases WeightedStore.remove?_eq_some taken with ⟨held, rfl⟩
      refine stamped.still (weighted ▸ .discarded held) ?_
      simp [uses_eq, Event.isNoted, Event.used?, List.filterMap_cons]
  | cleared | simplyStored | overflown => exact fun _ => trivial
  | passUnwound =>
      refine stamped.still (changed_releasePass cache) ?_
      simp [uses_eq, Event.isNoted, Event.used?, List.filterMap_cons]
  | _ =>
      refine stamped.still .same ?_
      simp [uses_eq, Event.isNoted, Event.used?, List.filterMap_cons]

theorem Stamped.advanced (stamped : Stamped cache) (taken : Advanced cache next) :
    Stamped next := by
  refine stamped.still (changed_of_advanced taken).1 ?_
  cases taken <;> simp [uses_eq, Event.isNoted, Event.used?, List.filterMap_cons]

theorem stamped_kept (allowed : Cache → Move → Bool) :
    Kept allowed fun cache => (Coherent cache ∧ Indexed cache) ∧ Stamped cache :=
  (indexed_kept allowed).and
    (fun _ known stamped taken => stamped.accepted known.2 taken)
    (fun _ stamped taken => stamped.advanced taken)

/-! ## Evictions -/

theorem alone_of_removals (gone : Removal) {made : List Removal} {removal : Removal}
    (removed : next.removals = made ++ cache.removals)
    (alone : next.removals = gone :: cache.removals) (member : removal ∈ made) :
    made = [removal] ∧ gone = removal := by
  have one : made = [gone] := List.append_cancel_right (removed.symm.trans alone)
  rw [one, List.mem_singleton] at member
  exact ⟨member ▸ one, member.symm⟩

/-- What a move removes from a weighted store was asked to go.  Evictions are steps of a pass, which
come after the move that has made them necessary. -/
theorem explicit_of_accepted {move : Move} (kind : cache.kind = .weighted)
    (taken : Accepted cache move next) {made : List Removal}
    (removed : next.removals = made ++ cache.removals) {removal : Removal}
    (member : removal ∈ made) : removal.cause = .explicit := by
  cases taken with
  | cleared _ simple | simplyStored _ simple | overflown _ simple =>
      exact absurd simple (not_simple kind _)
  | @dropped key store left block =>
      have alone := alone_of_removals ⟨key, block, .explicit⟩ removed
        (by simp [removals_eq, Event.isNoted, Event.removed?, List.filterMap_cons]) member
      exact alone.2 ▸ rfl
  | _ => simp_all [removals_eq, Event.isNoted, Event.removed?, List.filterMap_cons]

/-- A block that a step of the cache removes without being asked is the one an examination has found
at the front of the index, while the weight exceeded the budget; it is the only one.  Neither the
index nor the clock is assumed to be in order here. -/
theorem evicted_of_advanced (taken : Advanced cache next) {made : List Removal}
    (removed : next.removals = made ++ cache.removals) {removal : Removal}
    (member : removal ∈ made) (size : removal.cause = .size) :
    made = [removal] ∧ ∃ store left, cache.store = .weighted store ∧
      store.overBudget = true ∧ store.examine = .evicted left removal.key removal.block := by
  cases taken with
  | @evicted admission examined evicted rest store left key block top weighted heavy first =>
      have alone := alone_of_removals ⟨key, block, .size⟩ removed
        (by simp [removals_eq, Event.isNoted, Event.removed?, List.filterMap_cons]) member
      exact ⟨alone.1, store, left, weighted, heavy, alone.2 ▸ first⟩
  | @retracted admission rest store left block | @takenBack admission rest store left block =>
      have alone := alone_of_removals ⟨admission.key, block, .explicit⟩ removed
        (by simp [removals_eq, Event.isNoted, Event.removed?]) member
      cases alone.2 ▸ size
  | @swept call scope key load doomed count rest store left block =>
      have alone := alone_of_removals ⟨key, block, .explicit⟩ removed
        (by simp [removals_eq, Event.isNoted, Event.removed?]) member
      cases alone.2 ▸ size
  | _ => simp_all [removals_eq, Event.isNoted, Event.removed?, List.filterMap_cons]

/-- What is removed for the sake of the budget, and what there was at that moment.  The weight is
the word that the cache compares with its budget; uses are told by the journal and not by the stamps
of the blocks. -/
structure Outworn (removal : Removal) (cache : Cache) : Prop where
  /-- The weight exceeded the budget. -/
  heavy : cache.budget < cache.weight
  /-- The block was stored, so it has been used. -/
  stored : cache.store.entries.get? removal.key = some removal.block
  used : removal.key ∈ cache.uses
  /-- Every other stored block has been used since the block was used last. -/
  oldest : ∀ key block, cache.store.entries.get? key = some block → key ≠ removal.key →
    cache.uses.idxOf key < cache.uses.idxOf removal.key

theorem outworn_of_examine {store left : WeightedStore} {removal : Removal}
    (weighted : cache.store = .weighted store) (indexed : store.Indexed)
    (stamped : store.Stamped cache.uses) (heavy : store.overBudget = true)
    (first : store.examine = .evicted left removal.key removal.block) :
    Outworn removal cache := by
  rcases WeightedStore.examine_eq_evicted first with ⟨-, -, held, -⟩
  have last := WeightedStore.lastUse?_of_get? held
  constructor
  · rw [Cache.budget, Cache.weight, weighted]
    exact of_decide_eq_true heavy
  · rw [weighted]
    exact held
  · exact stamped.used last
  · intro key block stored different
    rw [weighted] at stored
    have later := WeightedStore.lastUse?_of_get? stored
    exact stamped.idxOf_lt last later (indexed.evicts_earliest first different later)

/-- In every run, whatever loaders and listeners do, and before the clock wraps: when a weighted
store removes a block for the sake of the budget, its weight exceeds the budget at that moment, the
block is the only one removed, and its latest use, its admission included, is earlier than that of
every other block stored then. -/
theorem evicts_least_recently_used (budget : UInt64) (listener : Listener) {cache next : Cache}
    (visited : Visited anyMove (start (.weighted (.empty budget)) listener) cache)
    (stepped : Stepped anyMove cache next) (few : cache.accesses < 2 ^ 64) {made : List Removal}
    (removed : next.removals = made ++ cache.removals) {removal : Removal}
    (member : removal ∈ made) (size : removal.cause = .size) :
    cache.budget = budget ∧ made = [removal] ∧ Outworn removal cache := by
  have coherent := coherent_start (.weighted (.empty budget)) listener rfl
  have limits := ((limits_kept anyMove .weighted budget).visited visited
    ⟨coherent, rfl, rfl⟩).2
  have known := (stamped_kept anyMove).visited visited
    ⟨⟨coherent, fun _ => ⟨WeightedStore.indexed_empty budget, Nat.zero_le _⟩⟩,
      fun _ => WeightedStore.stamped_empty budget⟩
  rcases stepped.listed with ⟨move, -, taken⟩ | taken
  · have explicit := explicit_of_accepted limits.1 taken removed member
    cases size.symm.trans explicit
  · rcases evicted_of_advanced taken removed member size with
      ⟨one, store, left, weighted, heavy, first⟩
    have indexed := known.1.2 few
    have stamped := known.2 few
    rw [weighted] at indexed stamped
    exact ⟨limits.2, one, outworn_of_examine weighted indexed.1 stamped heavy first⟩

/-- The first block is dropped and loaded again, then the second one is found.  A third one comes in
that does not fit, and the pass has examined two records: that of the first block's earlier life,
and that of the second block's admission. -/
def amidPass : Cache :=
  ((reached anyMove (start (.weighted (.empty 10)) .interactive)
    (loadMoves ⟨⟨0⟩, 0, 0, .index 1⟩ (.standIn 4 "")
      ++ loadMoves ⟨⟨0⟩, 0, 0, .index 2⟩ (.standIn 4 "")
      ++ [.begin (.invalidate (.exactly ⟨⟨0⟩, 0, 0, .index 1⟩)), .listenerReturns]
      ++ loadMoves ⟨⟨0⟩, 0, 0, .index 1⟩ (.standIn 4 "")
      ++ [.begin (.find ⟨⟨0⟩, 0, 0, .index 2⟩), .begin (.load ⟨⟨0⟩, 0, 0, .index 3⟩),
        .claim])).after (.loaderReturns (.standIn 4 ""))).advanceBy 2

def wornOut : Removal :=
  ⟨⟨⟨0⟩, 0, 0, .index 1⟩, ⟨.standIn 4 "", 3, 3⟩, .size⟩

theorem evicts_least_recently_used_amid_pass :
    Visited anyMove (start (.weighted (.empty 10)) .interactive) amidPass ∧
      amidPass.uses = [⟨⟨0⟩, 0, 0, .index 3⟩, ⟨⟨0⟩, 0, 0, .index 2⟩, ⟨⟨0⟩, 0, 0, .index 1⟩,
        ⟨⟨0⟩, 0, 0, .index 2⟩, ⟨⟨0⟩, 0, 0, .index 1⟩] ∧
      amidPass.size = 3 ∧ ∃ next, Stepped anyMove amidPass next ∧
        next.removals = [wornOut] ++ amidPass.removals ∧ Outworn wornOut amidPass := by
  have visited : Visited anyMove (start (.weighted (.empty 10)) .interactive) amidPass :=
    ((Visited.of_run (run_reached (by decide +kernel))).step
      (stepped_after rfl (by decide +kernel))).advanceBy 2
  rcases Option.isSome_iff_exists.mp (by decide +kernel : amidPass.advance.isSome = true) with
    ⟨next, taken⟩
  have removed : amidPass.advance.map Cache.removals = some ([wornOut] ++ amidPass.removals) := by
    decide +kernel
  rw [taken, Option.map_some, Option.some_inj] at removed
  have worn := (evicts_least_recently_used 10 .interactive visited (.advanced taken)
    (by decide +kernel) removed List.mem_cons_self rfl).2.2
  exact ⟨visited, by decide +kernel, by decide +kernel, next, .advanced taken, removed, worn⟩

end Cache
end VolumeCache
