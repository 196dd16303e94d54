import VolumeCache.Proofs.Evictions
import VolumeCache.Proofs.Withdrawals

namespace VolumeCache

/-!
# What matters of a store

What a store does next depends neither on which loads brought its blocks nor, for a weighted store,
on the records of its index: a rebuilt index and one full of outdated records lead to the same
blocks.  The outline of a store leaves these out.  Whatever is done to a store is done to its
outline, and two passes over stores with one outline evict the same blocks.
-/

/-! ## Blocks without their loads -/

/-- The block as if no load had brought it. -/
def CachedBlock.anonymous (block : CachedBlock) : CachedBlock :=
  { block with load := 0 }

def anonymized (entries : Table BlockKey CachedBlock) : Table BlockKey CachedBlock :=
  entries.mapValues fun _ => CachedBlock.anonymous

def anonymousRow (row : BlockKey × CachedBlock) : BlockKey × CachedBlock :=
  (row.1, row.2.anonymous)

@[simp] theorem get?_anonymized (entries : Table BlockKey CachedBlock) (key : BlockKey) :
    (anonymized entries).get? key = (entries.get? key).map CachedBlock.anonymous :=
  entries.get?_mapValues _ key

@[simp] theorem keys_anonymized (entries : Table BlockKey CachedBlock) :
    (anonymized entries).keys = entries.keys :=
  entries.keys_mapValues _

theorem anonymized_erase (entries : Table BlockKey CachedBlock) (key : BlockKey) :
    anonymized (entries.erase key) = (anonymized entries).erase key :=
  entries.mapValues_erase key _

theorem anonymized_insert (entries : Table BlockKey CachedBlock) (key : BlockKey)
    (block : CachedBlock) :
    anonymized (entries.insert key block) = (anonymized entries).insert key block.anonymous :=
  entries.mapValues_insert key block _

theorem anonymized_anonymized (entries : Table BlockKey CachedBlock) :
    anonymized (anonymized entries) = anonymized entries :=
  entries.mapValues_mapValues _ _

theorem anonymized_touch (entries : Table BlockKey CachedBlock) (key : BlockKey) (now : UInt64) :
    anonymized (entries.modify key (·.touch now)) =
      (anonymized entries).modify key (·.touch now) := by
  unfold anonymized Table.modify
  rw [Table.mapValues_mapValues, Table.mapValues_mapValues]
  apply Table.mapValues_congr
  intro row _
  split <;> rfl

theorem blocksUnder_anonymized (entries : Table BlockKey CachedBlock) (keys : List BlockKey) :
    blocksUnder (anonymized entries) keys = (blocksUnder entries keys).map anonymousRow := by
  simp [blocksUnder, List.map_filterMap, Function.comp_def, anonymousRow]

/-! ## Outlines -/

/-- The store at rest, without its index and without the loads that brought its blocks.  The clock
and the times of last use are kept, since they decide which block goes next. -/
def WeightedStore.outline (store : WeightedStore) : WeightedStore :=
  { store with
    entries := anonymized store.entries
    recency := Timeline.empty
    evicting := false }

def SimpleStore.outline (store : SimpleStore) : SimpleStore :=
  { store with entries := anonymized store.entries }

namespace Store

/-- What the index of a weighted store holds is left out.  Everything else is kept, the loads that
brought the blocks included. -/
def unindexed : Store → Store
  | .weighted store => .weighted { store with recency := Timeline.empty }
  | .simple store => .simple store

/-- What matters for what the store does later.  Of a weighted store the index is left out, since a
pass finds the same blocks by any index that is in order. -/
def outline : Store → Store
  | .weighted store => .weighted store.outline
  | .simple store => .simple store.outline

theorem outline_unindexed (store : Store) : store.unindexed.outline = store.outline := by
  cases store <;> rfl

theorem outline_eq_of_unindexed {first second : Store}
    (same : first.unindexed = second.unindexed) : first.outline = second.outline := by
  rw [← outline_unindexed, same, outline_unindexed]

theorem lastUse?_unindexed (store : Store) : store.unindexed.lastUse? = store.lastUse? := by
  cases store <;> rfl

theorem entries_unindexed (store : Store) : store.unindexed.entries = store.entries := by
  cases store <;> rfl

@[simp] theorem unindexed_compacted (store : Store) :
    store.compacted.unindexed = store.unindexed := by
  cases store with
  | simple store => rfl
  | weighted store =>
      cases due : store.compact? with
      | none => simp [compacted, due]
      | some rebuilt =>
          simp only [compacted, due, Option.getD_some]
          rw [WeightedStore.compact?_eq_some due]
          rfl

end Store

/-! ## What is done to a store is done to its outline -/

namespace WeightedStore

theorem lookup?_outline (store : WeightedStore) (key : BlockKey) :
    store.outline.lookup? key =
      (store.lookup? key).map fun found => (found.1, found.2.outline) := by
  unfold lookup?
  rw [outline, get?_anonymized]
  cases store.entries.get? key with
  | none => rfl
  | some block =>
      rw [Option.map_some, Option.map_some, outline, anonymized_touch]
      rfl

theorem without_outline (store : WeightedStore) (key : BlockKey) :
    store.outline.without key = (store.without key).outline := by
  have anonymous := get?_anonymized store.entries key
  cases held : store.entries.get? key with
  | none =>
      rw [held] at anonymous
      rw [without_of_get?_none held, without_of_get?_none anonymous]
  | some block =>
      rw [held] at anonymous
      rw [without_of_get? held, without_of_get? anonymous, outline, discard, discard, outline,
        anonymized_erase]
      rfl

theorem insert_outline (store : WeightedStore) (key : BlockKey) (load : Nat) (value : Payload) :
    (store.insert key load value).outline = (store.outline.insert key 0 value).outline := by
  unfold insert outline
  dsimp only
  rw [anonymized_insert, anonymized_insert, get?_anonymized, anonymized_anonymized]
  cases store.entries.get? key <;> rfl

theorem lastUse?_outline (store : WeightedStore) : store.outline.lastUse? = store.lastUse? := by
  funext key
  change ((anonymized store.entries).get? key).map CachedBlock.lastAccess = _
  rw [get?_anonymized, Option.map_map]
  rfl

end WeightedStore

namespace SimpleStore

theorem lookup?_outline (store : SimpleStore) (key : BlockKey) :
    store.outline.lookup? key =
      (store.lookup? key).map fun found => (found.1, found.2.outline) := by
  unfold lookup?
  rw [outline, get?_anonymized]
  cases store.entries.get? key <;> rfl

theorem remove?_outline (store : SimpleStore) (key : BlockKey) :
    store.outline.remove? key =
      (store.remove? key).map fun taken => (taken.1.anonymous, taken.2.outline) := by
  unfold remove?
  rw [outline, get?_anonymized]
  cases store.entries.get? key with
  | none => rfl
  | some block =>
      rw [Option.map_some, Option.map_some, outline, anonymized_erase]
      rfl

theorem without_outline (store : SimpleStore) (key : BlockKey) :
    store.outline.without key = (store.without key).outline := by
  unfold without
  rw [remove?_outline]
  cases store.remove? key <;> rfl

theorem insert_outline (store : SimpleStore) (key : BlockKey) (load : Nat) (value : Payload) :
    (store.insert key load value).outline = store.outline.insert key 0 value := by
  unfold insert outline
  rw [anonymized_insert]
  rfl

theorem overCapacity_outline (store : SimpleStore) :
    store.outline.overCapacity = store.overCapacity := by
  have size : (anonymized store.entries).size = store.entries.size :=
    List.length_map _
  unfold overCapacity
  rw [outline, size]

theorem shrinkBy_outline (steps : Nat) (store : SimpleStore) :
    store.outline.shrinkBy steps =
      ((store.shrinkBy steps).1.map anonymousRow, (store.shrinkBy steps).2.outline) := by
  induction steps generalizing store with
  | zero => rfl
  | succ steps ih =>
      unfold shrinkBy
      rw [overCapacity_outline]
      split
      · have order : store.outline.order = store.order := rfl
        rw [order]
        cases store.order.evictOldest? with
        | none => rfl
        | some oldest =>
            obtain ⟨key, order⟩ := oldest
            have removed := remove?_outline { store with order := order } key
            change remove? { store.outline with order := order } key = _ at removed
            dsimp only
            rw [removed]
            cases ({ store with order := order } : SimpleStore).remove? key with
            | none => exact ih { store with order := order }
            | some taken =>
                dsimp only [Option.map_some]
                rw [ih]
                rfl
      · rfl

theorem shrink_outline (store : SimpleStore) :
    store.outline.shrink = (store.shrink.1.map anonymousRow, store.shrink.2.outline) :=
  shrinkBy_outline _ store

theorem put_outline (store : SimpleStore) (key : BlockKey) (load : Nat) (value : Payload) :
    match store.put key load value with
    | .ok (blocks, left) =>
        store.outline.put key 0 value = .ok (blocks.map anonymousRow, left.outline)
    | .error left => store.outline.put key 0 value = .error left.outline := by
  have weighs : (store.without key).outline.canWeigh value.weight =
      (store.without key).canWeigh value.weight := rfl
  have shrunk := shrink_outline ((store.without key).insert key load value)
  rw [insert_outline] at shrunk
  unfold put
  rw [without_outline]
  dsimp only
  rw [weighs]
  cases (store.without key).canWeigh value.weight with
  | true => exact congrArg Except.ok shrunk
  | false => rfl

end SimpleStore

namespace Store

theorem lookup?_outline (store : Store) (key : BlockKey) :
    store.outline.lookup? key =
      (store.lookup? key).map fun found => (found.1, found.2.outline) := by
  cases store with
  | weighted store =>
      simp only [lookup?, outline, WeightedStore.lookup?_outline, Option.map_map]
      rfl
  | simple store =>
      simp only [lookup?, outline, SimpleStore.lookup?_outline, Option.map_map]
      rfl

theorem without_outline (store : Store) (key : BlockKey) :
    store.outline.without key = (store.without key).outline := by
  cases store with
  | weighted store => exact congrArg Store.weighted (store.without_outline key)
  | simple store => exact congrArg Store.simple (store.without_outline key)

theorem withoutAll_outline (store : Store) (keys : List BlockKey) :
    store.outline.withoutAll keys = (store.withoutAll keys).outline := by
  induction keys generalizing store with
  | nil => rfl
  | cons key rest ih => rw [withoutAll_cons, withoutAll_cons, without_outline, ih]

theorem without_unindexed (store : Store) (key : BlockKey) :
    store.unindexed.without key = (store.without key).unindexed := by
  cases store with
  | simple store => rfl
  | weighted store =>
      apply congrArg Store.weighted
      unfold WeightedStore.without
      dsimp only
      cases store.entries.get? key <;> rfl

theorem withoutAll_unindexed (store : Store) (keys : List BlockKey) :
    store.unindexed.withoutAll keys = (store.withoutAll keys).unindexed := by
  induction keys generalizing store with
  | nil => rfl
  | cons key rest ih => rw [withoutAll_cons, withoutAll_cons, without_unindexed, ih]

theorem keysIn_outline (store : Store) (scope : Scope) :
    store.outline.keysIn scope = store.keysIn scope := by
  unfold keysIn
  cases store <;> exact congrArg _ (keys_anonymized _)

theorem entries_outline (store : Store) : store.outline.entries = anonymized store.entries := by
  cases store <;> rfl

end Store

/-! ## Passes over different indexes -/

/-- What a pass does next, whatever records it examines on the way: it ends with the blocks as they
are, or the block that was used longest ago goes.  The index has to be in order, and how many
records are examined before the block goes is not said. -/
theorem Drained.next {store final : WeightedStore} {count : Nat}
    {blocks : List (BlockKey × CachedBlock)} (drained : Drained store count blocks final)
    (indexed : store.Indexed) :
    ((store.overBudget = false ∨ ∀ key, store.entries.get? key = none) ∧ blocks = [] ∧
        final.outline = store.outline) ∨
      store.overBudget = true ∧ ∃ key block rest left fewer,
        store.entries.get? key = some block ∧
        (∀ other use, store.lastUse? other = some use → block.lastAccess ≤ use) ∧
        blocks = (key, block) :: rest ∧ left.outline = (store.discard key block).outline ∧
        left.Indexed ∧ Drained left fewer rest final := by
  induction drained with
  | @ended store done =>
      refine Or.inl ⟨?_, rfl, rfl⟩
      rcases done with within | exhausted
      · exact Or.inl within
      · have nothing := indexed.entries_of_exhausted exhausted
        exact Or.inr fun key => get?_eq_none_iff_holdingsOf.mpr (by simp [nothing])
  | outdated _ first _ ih =>
      have left := ih (indexed.outdated first)
      rcases WeightedStore.reindexed_of_outdated first with ⟨recency, rfl⟩
      exact left
  | @evicted store left final key block count blocks heavy first rest _ =>
      rcases WeightedStore.examine_eq_evicted first with ⟨records, popped, held, same⟩
      refine Or.inr ⟨heavy, key, block, blocks, left, count, held, ?_, rfl, same ▸ rfl,
        indexed.evicted first, rest⟩
      intro other use last
      by_cases itself : other = key
      · rw [itself, WeightedStore.lastUse?_of_get? held] at last
        exact Option.some.inj last ▸ UInt64.le_refl _
      · exact UInt64.le_of_lt (indexed.evicts_earliest first itself last)

namespace WeightedStore

variable {first second : WeightedStore}

theorem overBudget_of_outline (same : first.outline = second.outline) :
    first.overBudget = second.overBudget := by
  change first.outline.overBudget = second.outline.overBudget
  rw [same]

theorem get?_of_outline (same : first.outline = second.outline) (key : BlockKey) :
    (first.entries.get? key).map CachedBlock.anonymous =
      (second.entries.get? key).map CachedBlock.anonymous := by
  rw [← get?_anonymized, ← get?_anonymized]
  exact congrArg (fun store => store.entries.get? key) same

theorem get?_none_of_outline (same : first.outline = second.outline) {key : BlockKey}
    (absent : first.entries.get? key = none) : second.entries.get? key = none := by
  have alike := get?_of_outline same key
  rw [absent] at alike
  exact Option.map_eq_none_iff.mp alike.symm

theorem lastUse?_of_outline (same : first.outline = second.outline) :
    first.lastUse? = second.lastUse? := by
  rw [← first.lastUse?_outline, same, second.lastUse?_outline]

theorem discard_of_outline (same : first.outline = second.outline) {key : BlockKey}
    {block other : CachedBlock} (held : first.entries.get? key = some block)
    (alsoHeld : second.entries.get? key = some other) :
    (first.discard key block).outline = (second.discard key other).outline := by
  rw [← without_of_get? held, ← without_of_get? alsoHeld, ← without_outline, same, without_outline]

end WeightedStore

/-- Two passes over stores that differ in their indexes evict the same blocks.  Both indexes have to
be in order; one of them may be full of outdated records and the other just rebuilt. -/
theorem Drained.same {first second firstFinal secondFinal : WeightedStore} {count other : Nat}
    {blocks others : List (BlockKey × CachedBlock)}
    (drained : Drained first count blocks firstFinal)
    (alsoDrained : Drained second other others secondFinal) (same : first.outline = second.outline)
    (indexed : first.Indexed) (alsoIndexed : second.Indexed) :
    blocks.map anonymousRow = others.map anonymousRow ∧
      firstFinal.outline = secondFinal.outline := by
  induction blocks generalizing first second count other others with
  | nil =>
      rcases drained.next indexed with ⟨idle, -, left⟩ | ⟨-, _, _, _, _, _, _, _, gone, -⟩
      · rcases alsoDrained.next alsoIndexed with
          ⟨-, rfl, alsoLeft⟩ | ⟨heavy, key, block, -, -, -, held, -⟩
        · exact ⟨rfl, left.trans (same.trans alsoLeft.symm)⟩
        · rcases idle with within | empty
          · rw [WeightedStore.overBudget_of_outline same, heavy] at within
            cases within
          · rw [WeightedStore.get?_none_of_outline same (empty key)] at held
            cases held
      · cases gone
  | cons row rest ih =>
      rcases drained.next indexed with
        ⟨-, gone, -⟩ | ⟨heavy, key, block, _, left, _, held, least, gone, shrunk, ordered, later⟩
      · cases gone
      · cases gone
        rcases alsoDrained.next alsoIndexed with
          ⟨idle, -, -⟩ | ⟨-, found, taken, _, alsoLeft, _, alsoHeld, alsoLeast, rfl, alsoShrunk,
            alsoOrdered, alsoLater⟩
        · rcases idle with within | empty
          · rw [← WeightedStore.overBudget_of_outline same, heavy] at within
            cases within
          · rw [WeightedStore.get?_none_of_outline same.symm (empty key)] at held
            cases held
        · have used := WeightedStore.lastUse?_of_get? held
          have alsoUsed := WeightedStore.lastUse?_of_get? alsoHeld
          rw [← WeightedStore.lastUse?_of_outline same] at alsoUsed alsoLeast
          -- Of two blocks used longest ago each was used no later than the other.
          have together := UInt64.le_antisymm (least _ _ alsoUsed) (alsoLeast _ _ used)
          cases indexed.usesApart used (together ▸ alsoUsed)
          have alike := WeightedStore.get?_of_outline same key
          rw [held, alsoHeld, Option.map_some, Option.map_some, Option.some.injEq] at alike
          have onwards := shrunk.trans
            ((WeightedStore.discard_of_outline same held alsoHeld).trans alsoShrunk.symm)
          have ends := ih later alsoLater onwards ordered alsoOrdered
          refine ⟨?_, ends.2⟩
          rw [List.map_cons, List.map_cons, ends.1, anonymousRow, anonymousRow, alike]

end VolumeCache
