import Mathlib.Data.List.Basic
import VolumeCache.Proofs.Mirroring

namespace VolumeCache

/-!
# Blocks taken out of a store

Whatever drops blocks on demand, one key, a sweep over a weighted store, the keys of a simple store
in turn, takes blocks out by their keys.  Taking out one key and then another comes to the same as
taking them out the other way round, in the weight and in the order of uses too, so what is left
after several keys is a matter of which keys they were.
-/

/-! ## Stores without one key -/

namespace WeightedStore

def without (store : WeightedStore) (key : BlockKey) : WeightedStore :=
  match store.entries.get? key with
  | some block => store.discard key block
  | none => store

variable {store : WeightedStore} {key : BlockKey} {block : CachedBlock}

theorem without_of_get? (held : store.entries.get? key = some block) :
    store.without key = store.discard key block := by
  unfold without
  rw [held]

theorem without_of_get?_none (absent : store.entries.get? key = none) :
    store.without key = store := by
  unfold without
  rw [absent]

theorem entries_without (store : WeightedStore) (key : BlockKey) :
    (store.without key).entries = store.entries.erase key := by
  cases held : store.entries.get? key with
  | none => rw [without_of_get?_none held, Table.erase_of_get?_none held]
  | some block =>
      rw [without_of_get? held]
      rfl

end WeightedStore

namespace SimpleStore

variable {store : SimpleStore} {key : BlockKey} {block : CachedBlock}

def discard (store : SimpleStore) (key : BlockKey) (block : CachedBlock) : SimpleStore :=
  { store with
    entries := store.entries.erase key
    order := (store.order.remove key).2
    weight := store.weight - block.weight }

theorem without_of_get? (held : store.entries.get? key = some block) :
    store.without key = store.discard key block := by
  unfold without remove?
  rw [held]
  rfl

theorem entries_without (store : SimpleStore) (key : BlockKey) :
    (store.without key).entries = store.entries.erase key := by
  cases held : store.entries.get? key with
  | none => rw [without_of_get?_none held, Table.erase_of_get?_none held]
  | some block =>
      rw [without_of_get? held]
      rfl

end SimpleStore

namespace Store

def without : Store → BlockKey → Store
  | .weighted store, key => .weighted (store.without key)
  | .simple store, key => .simple (store.without key)

variable {store : Store} {key : BlockKey}

@[simp] theorem entries_without (store : Store) (key : BlockKey) :
    (store.without key).entries = store.entries.erase key := by
  cases store with
  | weighted store => exact store.entries_without key
  | simple store => exact store.entries_without key

theorem without_of_get?_none (absent : store.entries.get? key = none) :
    store.without key = store := by
  cases store with
  | weighted store => exact congrArg Store.weighted (WeightedStore.without_of_get?_none absent)
  | simple store => exact congrArg Store.simple (SimpleStore.without_of_get?_none absent)

end Store

theorem WeightedStore.without_comm (store : WeightedStore) (key other : BlockKey) :
    (store.without key).without other = (store.without other).without key :=
  Table.withdrawals_comm entries without discard (fun _ _ => without_of_get?_none)
    (fun _ _ _ => without_of_get?) entries_without
    (fun store key other block found => by
      have weights : store.total - block.weight - found.weight =
          store.total - found.weight - block.weight := by grind
      simp only [discard, store.entries.erase_comm key other, weights])
    store key other

theorem SimpleStore.without_comm (store : SimpleStore) (key other : BlockKey) :
    (store.without key).without other = (store.without other).without key :=
  Table.withdrawals_comm entries without discard (fun _ _ => without_of_get?_none)
    (fun _ _ _ => without_of_get?) entries_without
    (fun store key other block found => by
      have weights : store.weight - block.weight - found.weight =
          store.weight - found.weight - block.weight := by grind
      simp only [discard, store.entries.erase_comm key other, store.order.remove_comm key other,
        weights])
    store key other

namespace Store

theorem without_comm (store : Store) (key other : BlockKey) :
    (store.without key).without other = (store.without other).without key := by
  cases store with
  | weighted store => exact congrArg Store.weighted (store.without_comm key other)
  | simple store => exact congrArg Store.simple (store.without_comm key other)

/-- The store without blocks under these keys. -/
def withoutAll (store : Store) (keys : List BlockKey) : Store :=
  keys.foldl without store

@[simp] theorem withoutAll_nil (store : Store) : store.withoutAll [] = store := rfl

@[simp] theorem withoutAll_cons (store : Store) (key : BlockKey) (keys : List BlockKey) :
    store.withoutAll (key :: keys) = (store.without key).withoutAll keys := rfl

theorem withoutAll_append (store : Store) (keys more : List BlockKey) :
    store.withoutAll (keys ++ more) = (store.withoutAll keys).withoutAll more :=
  List.foldl_append

theorem withoutAll_perm (store : Store) {keys others : List BlockKey} (same : keys.Perm others) :
    store.withoutAll keys = store.withoutAll others :=
  same.foldl_eq' (fun key _ other _ left => left.without_comm key other) store

theorem get?_withoutAll (store : Store) (keys : List BlockKey) (key : BlockKey) :
    (store.withoutAll keys).entries.get? key =
      if key ∈ keys then none else store.entries.get? key := by
  induction keys generalizing store with
  | nil => simp
  | cons first rest ih =>
      rw [withoutAll_cons, ih, entries_without, Table.get?_erase]
      by_cases same : key = first <;> simp [same]

theorem withoutAll_absent {store : Store} {keys : List BlockKey}
    (absent : ∀ key ∈ keys, store.entries.get? key = none) : store.withoutAll keys = store := by
  induction keys with
  | nil => rfl
  | cons first rest ih =>
      rw [withoutAll_cons, without_of_get?_none (absent first List.mem_cons_self)]
      exact ih fun key member => absent key (List.mem_cons_of_mem _ member)

end Store

/-! ## The uses of what is left -/

namespace Store

variable {store : Store} {key : BlockKey} {keys : List BlockKey}

/-- When the block of a key was last used.  A weighted store notes this in the block, a simple one
in its order. -/
def lastUse? : Store → BlockKey → Option UInt64
  | .weighted store, key => store.lastUse? key
  | .simple store, key => store.order.ticks.get? key

theorem lastUse?_without {gone : BlockKey} (different : key ≠ gone) :
    (store.without gone).lastUse? key = store.lastUse? key := by
  cases held : store.entries.get? gone with
  | none => rw [without_of_get?_none held]
  | some block =>
      cases store with
      | weighted store =>
          change ((store.without gone).entries.get? key).map _ = _
          rw [store.entries_without, Table.get?_erase_of_ne _ different]
          rfl
      | simple store =>
          change (store.without gone).order.ticks.get? key = _
          rw [SimpleStore.without_of_get? held]
          change (store.order.remove gone).2.ticks.get? key = _
          rw [AccessOrder.ticks_remove, Table.get?_erase_of_ne _ different]
          rfl

theorem lastUse?_withoutAll (store : Store) (unlisted : key ∉ keys) :
    (store.withoutAll keys).lastUse? key = store.lastUse? key := by
  induction keys generalizing store with
  | nil => rfl
  | cons first rest ih =>
      rw [List.mem_cons, not_or] at unlisted
      rw [withoutAll_cons, ih _ unlisted.2, lastUse?_without unlisted.1]

end Store

/-! ## What is taken out -/

def blocksUnder (entries : Table BlockKey CachedBlock) (keys : List BlockKey) :
    List (BlockKey × CachedBlock) :=
  keys.filterMap fun key => (entries.get? key).map fun block => (key, block)

section BlocksUnder

variable {entries : Table BlockKey CachedBlock} {key : BlockKey} {keys : List BlockKey}

@[simp] theorem blocksUnder_nil : blocksUnder entries [] = [] := rfl

theorem blocksUnder_cons_of_get? {block : CachedBlock} (held : entries.get? key = some block) :
    blocksUnder entries (key :: keys) = (key, block) :: blocksUnder entries keys := by
  simp [blocksUnder, held]

theorem blocksUnder_cons_of_get?_none (absent : entries.get? key = none) :
    blocksUnder entries (key :: keys) = blocksUnder entries keys := by
  simp [blocksUnder, absent]

theorem blocksUnder_append (entries : Table BlockKey CachedBlock) (keys more : List BlockKey) :
    blocksUnder entries (keys ++ more) = blocksUnder entries keys ++ blocksUnder entries more :=
  List.filterMap_append

theorem blocksUnder_congr {others : Table BlockKey CachedBlock}
    (same : ∀ key ∈ keys, entries.get? key = others.get? key) :
    blocksUnder entries keys = blocksUnder others keys := by
  apply List.filterMap_congr
  intro key member
  rw [same key member]

theorem blocksUnder_absent (absent : ∀ key ∈ keys, entries.get? key = none) :
    blocksUnder entries keys = [] := by
  apply List.filterMap_eq_nil_iff.mpr
  intro key member
  rw [absent key member]
  rfl

theorem blocksUnder_erase (unlisted : key ∉ keys) :
    blocksUnder (entries.erase key) keys = blocksUnder entries keys := by
  apply blocksUnder_congr
  intro other member
  exact entries.get?_erase_of_ne fun same => unlisted (same ▸ member)

end BlocksUnder

/-- Keys are taken out of a simple store one after the other. -/
theorem SimpleStore.removeAll_eq (store : SimpleStore) {keys : List BlockKey}
    (once : keys.Nodup) :
    (store.removeAll keys).1 = blocksUnder store.entries keys ∧
      Store.simple (store.removeAll keys).2 = (Store.simple store).withoutAll keys := by
  induction keys generalizing store with
  | nil => exact ⟨rfl, rfl⟩
  | cons key rest ih =>
      rw [List.nodup_cons] at once
      have later := ih (store.without key) once.2
      rw [entries_without, blocksUnder_erase once.1] at later
      unfold removeAll
      cases held : store.entries.get? key with
      | none =>
          rw [without_of_get?_none held] at later
          rw [remove?_eq_none_iff.mpr held, blocksUnder_cons_of_get?_none held,
            Store.withoutAll_cons, Store.without, without_of_get?_none held]
          exact later
      | some block =>
          rw [without_of_get? held] at later
          rw [blocksUnder_cons_of_get? held, Store.withoutAll_cons, Store.without,
            without_of_get? held, remove?, held]
          exact ⟨congrArg _ later.1, later.2⟩

/-- A sweep takes its keys out of a weighted store one after the other.  The loads on its list must
be those that brought the blocks; other blocks it would pass over. -/
theorem WeightedStore.sweep_eq (store : WeightedStore) {doomed : List (BlockKey × Nat)}
    (once : (doomed.map Prod.fst).Nodup)
    (own : ∀ entry ∈ doomed, ∀ block, store.entries.get? entry.1 = some block →
      block.load = entry.2) :
    (store.sweep doomed).1 = blocksUnder store.entries (doomed.map Prod.fst) ∧
      Store.weighted (store.sweep doomed).2 =
        (Store.weighted store).withoutAll (doomed.map Prod.fst) := by
  induction doomed generalizing store with
  | nil => exact ⟨rfl, rfl⟩
  | cons entry rest ih =>
      obtain ⟨key, load⟩ := entry
      rw [List.map_cons, List.nodup_cons] at once
      have later := ih (store.without key) once.2 fun entry member block held => by
        rw [entries_without] at held
        exact own entry (List.mem_cons_of_mem _ member) block
          (Table.get?_erase_eq_some_iff.mp held).2
      rw [entries_without, blocksUnder_erase once.1] at later
      unfold sweep
      rw [List.map_cons, Store.withoutAll_cons, Store.without]
      cases held : store.entries.get? key with
      | none =>
          rw [without_of_get?_none held] at later ⊢
          rw [blocksUnder_cons_of_get?_none held, removeLoaded?, held]
          exact later
      | some block =>
          rw [without_of_get? held] at later ⊢
          have same := own _ List.mem_cons_self block held
          rw [blocksUnder_cons_of_get? held, removeLoaded?, held]
          dsimp only at same ⊢
          rw [if_pos same]
          exact ⟨congrArg _ later.1, later.2⟩

namespace Store

/-- The keys of a scope under which a block is stored, in storing order. -/
def keysIn (store : Store) (scope : Scope) : List BlockKey :=
  store.entries.keys.filter scope.covers

theorem keysIn_nodup (store : Store) (scope : Scope) : (store.keysIn scope).Nodup :=
  store.entries.distinct.filter _

variable {store : Store} {key : BlockKey}

theorem mem_keysIn {scope : Scope} :
    key ∈ store.keysIn scope ↔
      (∃ block, store.entries.get? key = some block) ∧ scope.covers key = true := by
  have listed : key ∈ store.entries.keys ↔ store.entries.get? key ≠ none := by
    rw [ne_eq, store.entries.get?_eq_none_iff, Classical.not_not]
    rfl
  rw [keysIn, List.mem_filter, listed, Option.ne_none_iff_exists']

theorem not_mem_keysIn {scope : Scope} (outside : scope.covers key = false) :
    key ∉ store.keysIn scope := by
  intro listed
  rw [(mem_keysIn.mp listed).2] at outside
  cases outside

theorem keysIn_exactly (store : Store) (key : BlockKey) :
    store.keysIn (.exactly key) = if key ∈ store.entries.keys then [key] else [] := by
  have once : store.entries.keys.count key = if key ∈ store.entries.keys then 1 else 0 :=
    store.entries.distinct.count
  change store.entries.keys.filter (· == key) = _
  rw [List.filter_beq, once]
  split <;> rfl

end Store

theorem SimpleStore.removeWhere_eq (store : SimpleStore) (scope : Scope) :
    (store.removeWhere scope).1 = blocksUnder store.entries ((Store.simple store).keysIn scope) ∧
      Store.simple (store.removeWhere scope).2 =
        (Store.simple store).withoutAll ((Store.simple store).keysIn scope) :=
  store.removeAll_eq ((Store.simple store).keysIn_nodup scope)

theorem WeightedStore.sweep_matching (store : WeightedStore) (scope : Scope) :
    (store.sweep (store.matching scope)).1 =
        blocksUnder store.entries ((Store.weighted store).keysIn scope) ∧
      Store.weighted (store.sweep (store.matching scope)).2 =
        (Store.weighted store).withoutAll ((Store.weighted store).keysIn scope) := by
  have keys := store.keys_matching scope
  have once := (Store.weighted store).keysIn_nodup scope
  rw [Store.keysIn, Store.entries, ← keys] at once ⊢
  exact store.sweep_eq once own_matching

end VolumeCache
