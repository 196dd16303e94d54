import VolumeCache.Proofs.Timelines
import VolumeCache.Proofs.Transitions

namespace VolumeCache

/-!
# What a store holds

A block in a store is known to callers by its key and its value; the load that brought it tells it
apart from other blocks of its key.  When it was last used is the store's own business.  This file
says what each operation does to the blocks in that sense, so that what follows need not look into
either kind of store.  Nothing is assumed about weights, clocks or limits.
-/

/-- A stored block without the time of its last use.  It keeps the number of the load that brought
it, so two blocks of one key can be told apart even if they have the same value. -/
structure Holding where
  key : BlockKey
  value : Payload
  load : Nat
deriving DecidableEq, Repr

namespace Holding

def ofRow (row : BlockKey × CachedBlock) : Holding :=
  ⟨row.1, row.2.value, row.2.load⟩

def weight (holding : Holding) : Nat :=
  holding.value.weight.toNat

end Holding

def Removal.holding (removal : Removal) : Holding :=
  ⟨removal.key, removal.block.value, removal.block.load⟩

/-! ## Tables of blocks -/

def holdingsOf (entries : Table BlockKey CachedBlock) : List Holding :=
  entries.rows.map Holding.ofRow

theorem keys_holdingsOf (entries : Table BlockKey CachedBlock) :
    (holdingsOf entries).map Holding.key = entries.rows.map Prod.fst := by
  simp [holdingsOf, Function.comp_def, Holding.ofRow]

theorem keys_holdingsOf_nodup (entries : Table BlockKey CachedBlock) :
    ((holdingsOf entries).map Holding.key).Nodup := by
  rw [keys_holdingsOf]
  exact entries.distinct

theorem mem_holdingsOf {entries : Table BlockKey CachedBlock} {holding : Holding} :
    holding ∈ holdingsOf entries ↔
      ∃ block, entries.get? holding.key = some block ∧
        holding = ⟨holding.key, block.value, block.load⟩ := by
  constructor
  · intro member
    rcases List.mem_map.mp member with ⟨row, listed, same⟩
    subst same
    exact ⟨row.2, (entries.get?_eq_some_iff _ _).mpr listed, rfl⟩
  · rintro ⟨block, held, same⟩
    rw [same]
    exact List.mem_map.mpr ⟨_, (entries.get?_eq_some_iff _ _).mp held, rfl⟩

theorem mem_holdingsOf_of_get? {entries : Table BlockKey CachedBlock} {key : BlockKey}
    {block : CachedBlock} (held : entries.get? key = some block) :
    ⟨key, block.value, block.load⟩ ∈ holdingsOf entries :=
  mem_holdingsOf.mpr ⟨block, held, rfl⟩

theorem get?_eq_none_iff_holdingsOf {entries : Table BlockKey CachedBlock} {key : BlockKey} :
    entries.get? key = none ↔ ∀ holding ∈ holdingsOf entries, holding.key ≠ key := by
  rw [Table.get?_eq_none_iff, ← keys_holdingsOf, List.mem_map]
  constructor
  · intro unlisted holding member same
    exact unlisted ⟨holding, member, same⟩
  · rintro different ⟨holding, member, same⟩
    exact different holding member same

theorem holdingsOf_touch (entries : Table BlockKey CachedBlock) (key : BlockKey)
    (now : UInt64) :
    holdingsOf (entries.modify key (·.touch now)) = holdingsOf entries := by
  unfold holdingsOf Table.modify Table.mapValues
  rw [List.map_map]
  apply List.map_congr_left
  intro row _
  by_cases same : row.1 = key
  · simp [Holding.ofRow, same, CachedBlock.touch]
  · simp [Holding.ofRow, same]

theorem holdingsOf_erase {entries : Table BlockKey CachedBlock} {key : BlockKey}
    {block : CachedBlock} (held : entries.get? key = some block) :
    (holdingsOf entries).Perm (⟨key, block.value, block.load⟩ :: holdingsOf (entries.erase key)) :=
  (Table.rows_perm_of_get? held).map Holding.ofRow

theorem holdingsOf_insert {entries : Table BlockKey CachedBlock} {key : BlockKey}
    (absent : entries.get? key = none) (block : CachedBlock) :
    holdingsOf (entries.insert key block) =
      holdingsOf entries ++ [⟨key, block.value, block.load⟩] := by
  unfold holdingsOf
  rw [Table.rows_insert_of_get?_none absent, List.map_append]
  rfl

theorem subset_of_perm_append {before gone after : List Holding}
    (split : before.Perm (gone ++ after)) : after ⊆ before :=
  fun _ member => split.symm.subset (List.mem_append_right _ member)

theorem subset_of_perm_cons {before after : List Holding} {gone : Holding}
    (split : before.Perm (gone :: after)) : after ⊆ before :=
  fun _ member => split.symm.subset (List.mem_cons_of_mem _ member)

/-- Rebuilding the index leaves one record for each block and nothing else changed. -/
theorem WeightedStore.compact?_eq_some {store rebuilt : WeightedStore}
    (due : store.compact? = some rebuilt) :
    rebuilt = { store with
      recency := Timeline.ofList
        (store.entries.rows.map fun row => (row.2.lastAccess, row.1)) } := by
  unfold compact? at due
  split at due
  · cases due
  · cases due
    rfl

/-- Finding a block of the weighted store stamps it with a new time. -/
theorem WeightedStore.lookup?_eq_some {store left : WeightedStore} {key : BlockKey}
    {payload : Payload} (found : store.lookup? key = some (payload, left)) :
    ∃ block, store.entries.get? key = some block ∧ block.value = payload ∧
      left = { store with
        clock := store.clock + 1
        entries := store.entries.modify key (·.touch (store.clock + 1)) } := by
  unfold lookup? at found
  split at found
  · cases found
  · rename_i block held
    cases found
    exact ⟨block, held, rfl, rfl⟩

/-- Finding a block of the simple store makes its key the most recently used one. -/
theorem SimpleStore.lookup?_eq_some {store left : SimpleStore} {key : BlockKey}
    {payload : Payload} (found : store.lookup? key = some (payload, left)) :
    ∃ block, store.entries.get? key = some block ∧ block.value = payload ∧
      left = { store with order := store.order.touch key } := by
  unfold lookup? at found
  split at found
  · cases found
  · rename_i block held
    cases found
    exact ⟨block, held, rfl, rfl⟩

/-! ## Stores of either kind -/

namespace Store

def holdings (store : Store) : List Holding :=
  holdingsOf store.entries

theorem holdings_weighted {store : Store} {inner : WeightedStore} (is : store = .weighted inner) :
    store.holdings = holdingsOf inner.entries := by
  rw [is]
  rfl

theorem holdings_simple {store : Store} {inner : SimpleStore} (is : store = .simple inner) :
    store.holdings = holdingsOf inner.entries := by
  rw [is]
  rfl

theorem lookup?_eq_none_iff {store : Store} {key : BlockKey} :
    store.lookup? key = none ↔ store.entries.get? key = none := by
  cases store with
  | weighted store =>
      simp only [lookup?, WeightedStore.lookup?, entries]
      cases store.entries.get? key <;> simp
  | simple store =>
      simp only [lookup?, SimpleStore.lookup?, entries]
      cases store.entries.get? key <;> simp

/-- What a look-up that finds a value does to a store of either kind.  The look-up of the store
within says the rest. -/
theorem lookup?_eq_some {store after : Store} {key : BlockKey} {payload : Payload}
    (found : store.lookup? key = some (payload, after)) :
    (∃ inner left, store = .weighted inner ∧ inner.lookup? key = some (payload, left) ∧
      after = .weighted left) ∨
    ∃ inner left, store = .simple inner ∧ inner.lookup? key = some (payload, left) ∧
      after = .simple left := by
  cases store with
  | weighted inner =>
      rcases Option.map_eq_some_iff.mp found with ⟨⟨value, left⟩, taken, same⟩
      cases same
      exact Or.inl ⟨inner, left, rfl, taken, rfl⟩
  | simple inner =>
      rcases Option.map_eq_some_iff.mp found with ⟨⟨value, left⟩, taken, same⟩
      cases same
      exact Or.inr ⟨inner, left, rfl, taken, rfl⟩

theorem value_of_lookup? {store after : Store} {key : BlockKey} {payload : Payload}
    (found : store.lookup? key = some (payload, after)) :
    ∃ block, store.entries.get? key = some block ∧ block.value = payload := by
  rcases lookup?_eq_some found with ⟨inner, left, rfl, taken, rfl⟩ | ⟨inner, left, rfl, taken, rfl⟩
  · rcases WeightedStore.lookup?_eq_some taken with ⟨block, held, value, -⟩
    exact ⟨block, held, value⟩
  · rcases SimpleStore.lookup?_eq_some taken with ⟨block, held, value, -⟩
    exact ⟨block, held, value⟩

theorem lookup?_holdings {store after : Store} {key : BlockKey} {payload : Payload}
    (found : store.lookup? key = some (payload, after)) : after.holdings = store.holdings := by
  rcases lookup?_eq_some found with ⟨inner, left, rfl, taken, rfl⟩ | ⟨inner, left, rfl, taken, rfl⟩
  · rcases WeightedStore.lookup?_eq_some taken with ⟨block, -, -, rfl⟩
    exact holdingsOf_touch _ _ _
  · rcases SimpleStore.lookup?_eq_some taken with ⟨block, -, -, rfl⟩
    rfl

theorem compacted_entries (store : Store) : store.compacted.entries = store.entries := by
  cases store with
  | simple store => rfl
  | weighted store =>
      cases due : store.compact? with
      | none => simp [compacted, due]
      | some rebuilt =>
          simp only [compacted, due, Option.getD_some, entries]
          rw [WeightedStore.compact?_eq_some due]

end Store

/-! ## The weighted store -/

namespace WeightedStore

theorem insert_holdings {store : WeightedStore} {key : BlockKey}
    (absent : store.entries.get? key = none) (load : Nat) (value : Payload) :
    holdingsOf (store.insert key load value).entries =
      holdingsOf store.entries ++ [⟨key, value, load⟩] :=
  holdingsOf_insert absent _

theorem discard_holdings {store : WeightedStore} {key : BlockKey} {block : CachedBlock}
    (held : store.entries.get? key = some block) :
    (holdingsOf store.entries).Perm
      (⟨key, block.value, block.load⟩ :: holdingsOf (store.discard key block).entries) :=
  holdingsOf_erase held

theorem remove?_eq_some {store left : WeightedStore} {key : BlockKey} {block : CachedBlock}
    (taken : store.remove? key = some (block, left)) :
    store.entries.get? key = some block ∧ left = store.discard key block := by
  unfold remove? at taken
  rcases Option.map_eq_some_iff.mp taken with ⟨found, held, same⟩
  cases same
  exact ⟨held, rfl⟩

theorem removeLoaded?_eq_some {store left : WeightedStore} {key : BlockKey} {load : Nat}
    {block : CachedBlock} (taken : store.removeLoaded? key load = some (block, left)) :
    store.entries.get? key = some block ∧ block.load = load ∧ left = store.discard key block := by
  unfold removeLoaded? at taken
  split at taken
  · cases taken
  · rename_i found held
    split at taken
    · rename_i same
      cases taken
      exact ⟨held, same, rfl⟩
    · cases taken

theorem remove?_holdings {store left : WeightedStore} {key : BlockKey} {block : CachedBlock}
    (taken : store.remove? key = some (block, left)) :
    (holdingsOf store.entries).Perm
      (⟨key, block.value, block.load⟩ :: holdingsOf left.entries) := by
  rcases remove?_eq_some taken with ⟨held, rfl⟩
  exact discard_holdings held

theorem removeLoaded?_holdings {store left : WeightedStore} {key : BlockKey} {load : Nat}
    {block : CachedBlock} (taken : store.removeLoaded? key load = some (block, left)) :
    (holdingsOf store.entries).Perm
      (⟨key, block.value, block.load⟩ :: holdingsOf left.entries) := by
  rcases removeLoaded?_eq_some taken with ⟨held, -, rfl⟩
  exact discard_holdings held

theorem removeLoaded?_eq_none {store : WeightedStore} {key : BlockKey} {load : Nat}
    (passed : store.removeLoaded? key load = none) {block : CachedBlock}
    (held : store.entries.get? key = some block) : block.load ≠ load := by
  unfold removeLoaded? at passed
  rw [held] at passed
  intro same
  simp [same] at passed

/-- An examined record belongs to no block any more, or to a block that was used later.  In the
second case the record comes back at the time of that use. -/
theorem examine_eq_outdated {store left : WeightedStore} (first : store.examine = .outdated left) :
    ∃ tick key rest, store.recency.popFirst? = some ((tick, key), rest) ∧
      ((store.entries.get? key = none ∧ left = { store with recency := rest }) ∨
        ∃ block, store.entries.get? key = some block ∧ block.lastAccess ≠ tick ∧
          left = { store with recency := rest.insert block.lastAccess key }) := by
  unfold examine at first
  split at first
  · cases first
  · rename_i tick key rest popped
    refine ⟨tick, key, rest, popped, ?_⟩
    dsimp only at first
    split at first
    · rename_i absent
      cases first
      exact Or.inl ⟨absent, rfl⟩
    · rename_i block held
      split at first
      · cases first
      · rename_i later
        cases first
        exact Or.inr ⟨block, held, later, rfl⟩

/-- An evicted block is the one of the first record and was last used at that record's time. -/
theorem examine_eq_evicted {store left : WeightedStore} {key : BlockKey} {block : CachedBlock}
    (first : store.examine = .evicted left key block) :
    ∃ rest, store.recency.popFirst? = some ((block.lastAccess, key), rest) ∧
      store.entries.get? key = some block ∧
      left = { store with recency := rest }.discard key block := by
  unfold examine at first
  split at first
  · cases first
  · rename_i tick other rest popped
    dsimp only at first
    split at first
    · cases first
    · rename_i held
      split at first
      · rename_i current
        cases first
        exact ⟨rest, current ▸ popped, held, rfl⟩
      · cases first

theorem examine_eq_exhausted {store : WeightedStore} :
    store.examine = .exhausted ↔ store.recency.records = [] := by
  rw [← Timeline.popFirst?_eq_none_iff]
  unfold examine
  split
  · simp_all
  · rename_i popped
    simp only [popped, reduceCtorEq, iff_false]
    split
    · simp
    · split <;> simp

theorem reindexed_of_outdated {store left : WeightedStore}
    (first : store.examine = .outdated left) :
    ∃ recency, left = { store with recency := recency } := by
  rcases examine_eq_outdated first with ⟨tick, key, rest, -, ⟨-, same⟩ | ⟨block, -, -, same⟩⟩
  · exact ⟨rest, same⟩
  · exact ⟨rest.insert block.lastAccess key, same⟩

theorem outdated_entries {store left : WeightedStore} (first : store.examine = .outdated left) :
    left.entries = store.entries := by
  rcases reindexed_of_outdated first with ⟨recency, rfl⟩
  rfl

theorem evicted_holdings {store left : WeightedStore} {key : BlockKey} {block : CachedBlock}
    (first : store.examine = .evicted left key block) :
    (holdingsOf store.entries).Perm
      (⟨key, block.value, block.load⟩ :: holdingsOf left.entries) := by
  rcases examine_eq_evicted first with ⟨rest, -, held, rfl⟩
  exact holdingsOf_erase held

end WeightedStore

/-! ## The simple store -/

namespace SimpleStore

theorem remove?_eq_some {store left : SimpleStore} {key : BlockKey} {block : CachedBlock}
    (taken : store.remove? key = some (block, left)) :
    store.entries.get? key = some block ∧
      left = { store with
        entries := store.entries.erase key
        order := (store.order.remove key).2
        weight := store.weight - block.weight } := by
  unfold remove? at taken
  split at taken
  · cases taken
  · rename_i held
    cases taken
    exact ⟨held, rfl⟩

theorem remove?_eq_none_iff {store : SimpleStore} {key : BlockKey} :
    store.remove? key = none ↔ store.entries.get? key = none := by
  unfold remove?
  split <;> simp_all

theorem remove?_holdings {store left : SimpleStore} {key : BlockKey} {block : CachedBlock}
    (taken : store.remove? key = some (block, left)) :
    (holdingsOf store.entries).Perm
      (⟨key, block.value, block.load⟩ :: holdingsOf left.entries) := by
  rcases remove?_eq_some taken with ⟨held, rfl⟩
  exact holdingsOf_erase held

theorem without_of_get?_none {store : SimpleStore} {key : BlockKey}
    (absent : store.entries.get? key = none) : store.without key = store := by
  unfold without
  rw [remove?_eq_none_iff.mpr absent]

/-- Whatever the limits demand, the blocks left and the blocks removed are the blocks there were.
Neither the order nor the limits matter to this. -/
theorem shrinkBy_holdings (steps : Nat) (store : SimpleStore) :
    (holdingsOf store.entries).Perm
      ((shrinkBy steps store).1.map Holding.ofRow
        ++ holdingsOf (shrinkBy steps store).2.entries) := by
  induction steps generalizing store with
  | zero => exact List.Perm.refl _
  | succ steps ih =>
      unfold shrinkBy
      split
      · split
        · exact List.Perm.refl _
        · rename_i key order popped
          dsimp only
          split
          · rename_i block left taken
            exact (remove?_holdings taken).trans ((ih left).cons _)
          · exact ih { store with order := order }
      · exact List.Perm.refl (holdingsOf store.entries)

theorem removeAll_holdings (keys : List BlockKey) (store : SimpleStore) :
    (holdingsOf store.entries).Perm
      ((store.removeAll keys).1.map Holding.ofRow
        ++ holdingsOf (store.removeAll keys).2.entries) := by
  induction keys generalizing store with
  | nil => exact List.Perm.refl _
  | cons key rest ih =>
      unfold removeAll
      split
      · rename_i block left taken
        exact (remove?_holdings taken).trans ((ih left).cons _)
      · exact ih store

theorem removeAll_get? (keys : List BlockKey) (store : SimpleStore) (key : BlockKey) :
    (store.removeAll keys).2.entries.get? key =
      if key ∈ keys then none else store.entries.get? key := by
  induction keys generalizing store with
  | nil => simp [removeAll]
  | cons first rest ih =>
      unfold removeAll
      split
      · rename_i block left taken
        rcases remove?_eq_some taken with ⟨-, rfl⟩
        dsimp only
        rw [ih]
        by_cases same : key = first
        · simp [same, Table.get?_erase_self]
        · simp [same, Table.get?_erase_of_ne _ same]
      · rename_i passed
        rw [ih]
        by_cases same : key = first
        · simp [same, remove?_eq_none_iff.mp passed]
        · simp [same]

/-- What survives the loss of a key from the order and the removal of a block survives the return
of the store to its limits. -/
theorem shrinkBy_kept (holds : SimpleStore → Prop)
    (untracked : ∀ store order, holds store → holds { store with order := order })
    (removed : ∀ store left key block, store.remove? key = some (block, left) → holds store →
      holds left)
    (steps : Nat) {store : SimpleStore} (before : holds store) :
    holds (shrinkBy steps store).2 := by
  induction steps generalizing store with
  | zero => exact before
  | succ steps ih =>
      unfold shrinkBy
      split
      · split
        · exact before
        · rename_i key order popped
          have without : holds { store with order := order } := untracked store order before
          dsimp only
          split
          · rename_i block left taken
            exact ih (removed _ left key block taken without)
          · exact ih without
      · exact before

theorem removeAll_kept (holds : SimpleStore → Prop)
    (removed : ∀ store left key block, store.remove? key = some (block, left) → holds store →
      holds left)
    (keys : List BlockKey) {store : SimpleStore} (before : holds store) :
    holds (store.removeAll keys).2 := by
  induction keys generalizing store with
  | nil => exact before
  | cons key rest ih =>
      unfold removeAll
      split
      · rename_i block left taken
        exact ih (removed store left key block taken before)
      · exact ih before

theorem removeWhere_holdings {store left : SimpleStore} {scope : Scope}
    {blocks : List (BlockKey × CachedBlock)} (taken : store.removeWhere scope = (blocks, left)) :
    (holdingsOf store.entries).Perm (blocks.map Holding.ofRow ++ holdingsOf left.entries) := by
  have shed := removeAll_holdings (store.entries.keys.filter scope.covers) store
  unfold removeWhere at taken
  rw [taken] at shed
  exact shed

theorem removeWhere_get? {store left : SimpleStore} {scope : Scope}
    {blocks : List (BlockKey × CachedBlock)} (taken : store.removeWhere scope = (blocks, left))
    {key : BlockKey} (covered : scope.covers key = true) : left.entries.get? key = none := by
  have found := removeAll_get? (store.entries.keys.filter scope.covers) store key
  unfold removeWhere at taken
  rw [taken] at found
  rw [found]
  split
  · rfl
  · rename_i unlisted
    have missing : key ∉ store.entries.keys := fun listed =>
      unlisted (List.mem_filter.mpr ⟨listed, covered⟩)
    exact (store.entries.get?_eq_none_iff key).mpr missing

theorem put_eq_ok {store left : SimpleStore} {key : BlockKey} {load : Nat} {value : Payload}
    {blocks : List (BlockKey × CachedBlock)} (absent : store.entries.get? key = none)
    (put : store.put key load value = .ok (blocks, left)) :
    store.canWeigh value.weight = true ∧ (store.insert key load value).shrink = (blocks, left) := by
  unfold SimpleStore.put at put
  rw [without_of_get?_none absent] at put
  dsimp only at put
  split at put
  · rename_i light
    exact ⟨light, by simpa using put⟩
  · cases put

theorem put_eq_error {store left : SimpleStore} {key : BlockKey} {load : Nat} {value : Payload}
    (absent : store.entries.get? key = none) (put : store.put key load value = .error left) :
    store.canWeigh value.weight = false ∧ left = store := by
  unfold SimpleStore.put at put
  rw [without_of_get?_none absent] at put
  dsimp only at put
  split at put
  · cases put
  · rename_i heavy
    exact ⟨by simpa using heavy, by simpa using put.symm⟩

theorem put_holdings {store left : SimpleStore} {key : BlockKey} {load : Nat} {value : Payload}
    {blocks : List (BlockKey × CachedBlock)} (absent : store.entries.get? key = none)
    (put : store.put key load value = .ok (blocks, left)) :
    (holdingsOf store.entries ++ [(⟨key, value, load⟩ : Holding)]).Perm
      (blocks.map Holding.ofRow ++ holdingsOf left.entries) := by
  rcases put_eq_ok absent put with ⟨-, shrunk⟩
  have inserted : holdingsOf (store.insert key load value).entries =
      holdingsOf store.entries ++ [⟨key, value, load⟩] := holdingsOf_insert absent _
  have kept := shrinkBy_holdings (store.insert key load value).order.order.size
    (store.insert key load value)
  unfold shrink at shrunk
  rw [shrunk, inserted] at kept
  exact kept

end SimpleStore
end VolumeCache
