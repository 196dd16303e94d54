import VolumeCache.Proofs.AccessOrders
import VolumeCache.Proofs.Recency
import VolumeCache.Proofs.Settling

namespace VolumeCache

/-!
# A store of either kind beside one of the other

A weighted store finds the block used longest ago through a lazy index, a simple store keeps the
exact order of uses.  The two mirror each other while they hold the same blocks and agree on when
each was last used; nothing is asked of the records that the index holds besides.  A pass over the
index then takes the same blocks in the same order as the exact one, and a sweep that drops blocks
one by one drops what the simple store drops all at once.
-/

/-! ## The same blocks -/

theorem get?_of_holdingsOf_eq {first second : Table BlockKey CachedBlock} {key : BlockKey}
    {block : CachedBlock} (same : holdingsOf first = holdingsOf second)
    (held : first.get? key = some block) :
    ∃ other, second.get? key = some other ∧ other.value = block.value ∧
      other.load = block.load := by
  have member := mem_holdingsOf_of_get? held
  rw [same] at member
  rcases mem_holdingsOf.mp member with ⟨other, found, equal⟩
  rw [Holding.mk.injEq] at equal
  exact ⟨other, found, equal.2.1.symm, equal.2.2.symm⟩

theorem get?_eq_none_of_holdingsOf_eq {first second : Table BlockKey CachedBlock} {key : BlockKey}
    (same : holdingsOf first = holdingsOf second) (absent : first.get? key = none) :
    second.get? key = none := by
  rw [get?_eq_none_iff_holdingsOf] at absent ⊢
  exact same ▸ absent

theorem holdingsOf_erase_eq_filter (entries : Table BlockKey CachedBlock) (key : BlockKey) :
    holdingsOf (entries.erase key) =
      (holdingsOf entries).filter fun holding => holding.key != key := by
  simp [holdingsOf, Table.erase, Table.filter, List.filter_map, Function.comp_def, Holding.ofRow]

/-- A weighted and a simple store with the same budget, the same blocks and the same last uses.  The
index of the one may hold outdated records; the order of the other holds none. -/
structure Mirrors (lazy : WeightedStore) (exact : SimpleStore) : Prop where
  budget : exact.budget = lazy.budget
  unlimited : exact.maxEntries = none
  blocks : holdingsOf exact.entries = holdingsOf lazy.entries
  weight : exact.weight = lazy.total
  clock : exact.order.clock = lazy.clock
  tracks : exact.order.Tracks lazy.lastUse?

theorem mirrors_empty (budget : UInt64) : Mirrors (.empty budget) (.empty budget none) where
  budget := rfl
  unlimited := rfl
  blocks := rfl
  weight := rfl
  clock := rfl
  tracks := AccessOrder.tracks_empty

namespace Mirrors

variable {lazy : WeightedStore} {exact : SimpleStore}

theorem upkeep (mirrors : Mirrors lazy exact) (recency : Timeline BlockKey) (evicting : Bool) :
    Mirrors { lazy with recency := recency, evicting := evicting } exact where
  budget := mirrors.budget
  unlimited := mirrors.unlimited
  blocks := mirrors.blocks
  weight := mirrors.weight
  clock := mirrors.clock
  tracks := mirrors.tracks

theorem compacted (mirrors : Mirrors lazy exact) : Mirrors (lazy.compact?.getD lazy) exact := by
  cases due : lazy.compact? with
  | none => exact mirrors
  | some rebuilt =>
      rw [Option.getD_some, WeightedStore.compact?_eq_some due]
      exact mirrors.upkeep _ lazy.evicting

theorem overCapacity (mirrors : Mirrors lazy exact) : exact.overCapacity = lazy.overBudget := by
  unfold SimpleStore.overCapacity WeightedStore.overBudget
  rw [mirrors.budget, mirrors.weight, mirrors.unlimited]
  exact Bool.or_false _

theorem absent (mirrors : Mirrors lazy exact) {key : BlockKey}
    (absent : lazy.entries.get? key = none) : exact.entries.get? key = none :=
  get?_eq_none_of_holdingsOf_eq mirrors.blocks.symm absent

theorem held (mirrors : Mirrors lazy exact) {key : BlockKey} {block : CachedBlock}
    (held : lazy.entries.get? key = some block) :
    ∃ other, exact.entries.get? key = some other ∧ other.value = block.value ∧
      other.load = block.load :=
  get?_of_holdingsOf_eq mirrors.blocks.symm held

theorem unused (mirrors : Mirrors lazy exact) (indexed : lazy.Indexed)
    (forward : lazy.clock < lazy.clock + 1) (other : BlockKey) :
    lazy.lastUse? other ≠ some (exact.order.clock + 1) := by
  rw [mirrors.clock]
  exact fun used => UInt64.not_lt.mpr (indexed.usesPast used) forward

theorem lookup? (mirrors : Mirrors lazy exact) {after : WeightedStore} {key : BlockKey}
    {payload : Payload} (found : lazy.lookup? key = some (payload, after)) :
    ∃ touched, exact.lookup? key = some (payload, touched) ∧
      (lazy.Indexed → lazy.clock < lazy.clock + 1 → Mirrors after touched) := by
  rcases WeightedStore.lookup?_eq_some found with ⟨block, held, rfl, rfl⟩
  rcases mirrors.held held with ⟨other, present, value, -⟩
  refine ⟨{ exact with order := exact.order.touch key }, ?_, fun indexed forward => ?_⟩
  · unfold SimpleStore.lookup?
    rw [present]
    simp [value]
  · have uses := (indexed.uses_lookup? forward found).2.2.2
    have touched := mirrors.tracks.touch key (mirrors.unused indexed forward)
    rw [mirrors.clock] at touched
    have same := funext uses
    exact
      { budget := mirrors.budget
        unlimited := mirrors.unlimited
        blocks := mirrors.blocks.trans (holdingsOf_touch _ _ _).symm
        weight := mirrors.weight
        clock := congrArg (· + 1) mirrors.clock
        tracks := same ▸ touched }

theorem insert (mirrors : Mirrors lazy exact) (indexed : lazy.Indexed)
    (forward : lazy.clock < lazy.clock + 1) {key : BlockKey}
    (absent : lazy.entries.get? key = none) (load : Nat) (value : Payload) :
    Mirrors (lazy.insert key load value) (exact.insert key load value) := by
  have touched := mirrors.tracks.touch key (mirrors.unused indexed forward)
  rw [mirrors.clock] at touched
  have same : (lazy.insert key load value).lastUse? =
      fun other => if other = key then some (lazy.clock + 1) else lazy.lastUse? other := by
    funext other
    exact WeightedStore.lastUse?_insert lazy key other load value
  constructor
  · exact mirrors.budget
  · exact mirrors.unlimited
  · rw [WeightedStore.insert_holdings absent]
    have grown := holdingsOf_insert (mirrors.absent absent) ⟨value, 0, load⟩
    rw [mirrors.blocks] at grown
    exact grown
  · change exact.weight + value.weight = _
    simp [WeightedStore.insert, absent, mirrors.weight]
  · exact congrArg (· + 1) mirrors.clock
  · rw [same]
    exact touched

theorem discard (mirrors : Mirrors lazy exact) {key : BlockKey} {block other : CachedBlock}
    {order : AccessOrder BlockKey} (held : lazy.entries.get? key = some block)
    (present : exact.entries.get? key = some other) (clock : order.clock = lazy.clock)
    (tracks : order.Tracks fun used => if used = key then none else lazy.lastUse? used) :
    Mirrors (lazy.discard key block) { exact with
      entries := exact.entries.erase key
      order := order
      weight := exact.weight - other.weight } := by
  have value : other.value = block.value := by
    rcases mirrors.held held with ⟨found, alsoPresent, value, -⟩
    rw [present] at alsoPresent
    cases alsoPresent
    exact value
  have uses : (lazy.discard key block).lastUse? =
      fun used => if used = key then none else lazy.lastUse? used := by
    funext used
    exact WeightedStore.lastUse?_discard lazy key used block
  constructor
  · exact mirrors.budget
  · exact mirrors.unlimited
  · change holdingsOf (exact.entries.erase key) = holdingsOf (lazy.entries.erase key)
    rw [holdingsOf_erase_eq_filter, holdingsOf_erase_eq_filter, mirrors.blocks]
  · change exact.weight - other.weight = lazy.total - block.weight
    rw [mirrors.weight, CachedBlock.weight, CachedBlock.weight, value]
  · exact clock
  · rw [uses]
    exact tracks

theorem remove? (mirrors : Mirrors lazy exact) {key : BlockKey} {block : CachedBlock}
    (held : lazy.entries.get? key = some block) :
    ∃ other left, exact.remove? key = some (other, left) ∧
      Holding.ofRow (key, other) = Holding.ofRow (key, block) ∧
      Mirrors (lazy.discard key block) left := by
  rcases mirrors.held held with ⟨other, present, value, load⟩
  refine ⟨other, { exact with
    entries := exact.entries.erase key
    order := (exact.order.remove key).2
    weight := exact.weight - other.weight }, ?_, ?_, ?_⟩
  · unfold SimpleStore.remove?
    rw [present]
  · simp [Holding.ofRow, value, load]
  · have clock := (AccessOrder.clock_remove exact.order key).trans mirrors.clock
    exact mirrors.discard held present clock (mirrors.tracks.remove key)

theorem remove?_eq_none (mirrors : Mirrors lazy exact) {key : BlockKey}
    (absent : lazy.entries.get? key = none) : exact.remove? key = none :=
  SimpleStore.remove?_eq_none_iff.mpr (mirrors.absent absent)

/-! ## Passes -/

/-- A block evicted through the index is the oldest in the exact order: had another block been used
before it, that block's record would have been examined first.  Here the index has to be in order.
-/
theorem evicted (mirrors : Mirrors lazy exact) (indexed : lazy.Indexed) {left : WeightedStore}
    {key : BlockKey} {block : CachedBlock} (first : lazy.examine = .evicted left key block) :
    ∃ order other remaining, exact.order.evictOldest? = some (key, order) ∧
      { exact with order := order }.remove? key = some (other, remaining) ∧
      Holding.ofRow (key, other) = Holding.ofRow (key, block) ∧ Mirrors left remaining ∧
      exact.order.order.size = remaining.order.order.size + 1 := by
  rcases WeightedStore.examine_eq_evicted first with ⟨rest, popped, held, rfl⟩
  have used := WeightedStore.lastUse?_of_get? held
  cases oldest : exact.order.evictOldest? with
  | none =>
      have unused := mirrors.tracks.evictOldest?_eq_none oldest key
      rw [used] at unused
      cases unused
  | some result =>
      obtain ⟨oldestKey, order⟩ := result
      rcases mirrors.tracks.evictOldest? oldest with
        ⟨⟨tick, oldestUsed, least⟩, tracks, clock, size⟩
      have same : oldestKey = key := by
        rcases indexed.tracked oldestUsed with ⟨recorded, member, early⟩
        have notBefore : block.lastAccess ≤ recorded := by
          rw [Timeline.popFirst?_eq_some popped] at member
          rcases List.mem_cons.mp member with isFirst | later
          · cases isFirst
            exact UInt64.le_refl _
          · exact UInt64.le_of_lt (Timeline.first_lt_of_popFirst? popped later)
        have equal : tick = block.lastAccess :=
          UInt64.le_antisymm (least key _ used) (UInt64.le_trans notBefore early)
        exact indexed.usesApart oldestUsed (equal ▸ used)
      subst same
      rcases mirrors.held held with ⟨other, present, value, load⟩
      have given := AccessOrder.remove_of_unused ((tracks.ticks oldestKey).trans (if_pos rfl))
      have popped := mirrors.upkeep rest lazy.evicting
      have left := popped.discard held present (clock.trans mirrors.clock) tracks
      refine ⟨order, other, { exact with
        entries := exact.entries.erase oldestKey
        order := order
        weight := exact.weight - other.weight }, rfl, ?_, ?_, left, size⟩
      · unfold SimpleStore.remove?
        rw [present]
        simp [given]
      · simp [Holding.ofRow, value, load]

theorem outdated (mirrors : Mirrors lazy exact) {left : WeightedStore}
    (first : lazy.examine = .outdated left) : Mirrors left exact := by
  rcases WeightedStore.reindexed_of_outdated first with ⟨recency, rfl⟩
  exact mirrors.upkeep recency lazy.evicting

theorem exhausted (mirrors : Mirrors lazy exact) (indexed : lazy.Indexed)
    (exhausted : lazy.examine = .exhausted) : exact.order.evictOldest? = none := by
  cases oldest : exact.order.evictOldest? with
  | none => rfl
  | some result =>
      obtain ⟨key, order⟩ := result
      rcases (mirrors.tracks.evictOldest? oldest).1 with ⟨tick, used, -⟩
      rcases indexed.tracked used with ⟨recorded, member, -⟩
      rw [WeightedStore.examine_eq_exhausted.mp exhausted] at member
      cases member

end Mirrors

/-- An eviction pass that nothing interrupts: how many records it examines, the blocks it evicts in
their order, and the store it ends with.  It may end above the budget once the index is empty; that
this does not happen takes an index in order. -/
inductive Drained : WeightedStore → Nat → List (BlockKey × CachedBlock) → WeightedStore → Prop
  | ended {store : WeightedStore}
      (done : store.overBudget = false ∨ store.examine = .exhausted) : Drained store 0 [] store
  | outdated {store left final : WeightedStore} {examined : Nat}
      {blocks : List (BlockKey × CachedBlock)} (heavy : store.overBudget = true)
      (first : store.examine = .outdated left) (rest : Drained left examined blocks final) :
      Drained store (examined + 1) blocks final
  | evicted {store left final : WeightedStore} {key : BlockKey} {block : CachedBlock}
      {examined : Nat} {blocks : List (BlockKey × CachedBlock)} (heavy : store.overBudget = true)
      (first : store.examine = .evicted left key block)
      (rest : Drained left examined blocks final) :
      Drained store (examined + 1) ((key, block) :: blocks) final

/-- Every pass comes to an end.  A record that comes back is not examined a third time, whether the
index is in order or not. -/
theorem drained_exists (store : WeightedStore) :
    ∃ examined blocks final, Drained store examined blocks final := by
  induction measure : store.examinations using Nat.strongRecOn generalizing store with
  | ind left ih =>
      cases heavy : store.overBudget with
      | false => exact ⟨_, _, _, .ended (Or.inl heavy)⟩
      | true =>
          cases first : store.examine with
          | exhausted => exact ⟨_, _, _, .ended (Or.inr first)⟩
          | outdated next =>
              have less := WeightedStore.examinations_outdated first
              rcases ih _ (measure ▸ less) next rfl with ⟨examined, blocks, final, rest⟩
              exact ⟨_, _, _, .outdated heavy first rest⟩
          | evicted next key block =>
              have less := WeightedStore.examinations_evicted first
              rcases ih _ (measure ▸ less) next rfl with ⟨examined, blocks, final, rest⟩
              exact ⟨_, _, _, .evicted heavy first rest⟩

theorem SimpleStore.shrinkBy_of_within {store : SimpleStore} (within : store.overCapacity = false)
    (steps : Nat) : store.shrinkBy steps = ([], store) := by
  cases steps with
  | zero => rfl
  | succ steps => simp [SimpleStore.shrinkBy, within]

theorem SimpleStore.shrinkBy_of_exhausted {store : SimpleStore}
    (exhausted : store.order.evictOldest? = none) (steps : Nat) :
    store.shrinkBy steps = ([], store) := by
  cases steps with
  | zero => rfl
  | succ steps => simp [SimpleStore.shrinkBy, exhausted]

/-- A pass over the index takes what the exact order takes, block for block.  How many records the
pass examines for it does not matter, and a simple store is given enough steps if it has one for
each of its keys. -/
theorem Drained.shrinkBy {lazy final : WeightedStore} {examined : Nat}
    {blocks : List (BlockKey × CachedBlock)} (drained : Drained lazy examined blocks final)
    {exact : SimpleStore} (mirrors : Mirrors lazy exact) (indexed : lazy.Indexed) {steps : Nat}
    (enough : exact.order.order.size ≤ steps) :
    (exact.shrinkBy steps).1.map Holding.ofRow = blocks.map Holding.ofRow ∧
      Mirrors final (exact.shrinkBy steps).2 := by
  induction drained generalizing exact steps with
  | ended done =>
      have idle : exact.shrinkBy steps = ([], exact) := by
        rcases done with within | exhausted
        · exact SimpleStore.shrinkBy_of_within (mirrors.overCapacity.trans within) steps
        · exact SimpleStore.shrinkBy_of_exhausted (mirrors.exhausted indexed exhausted) steps
      rw [idle]
      exact ⟨rfl, mirrors⟩
  | outdated _ first _ ih => exact ih (mirrors.outdated first) (indexed.outdated first) enough
  | @evicted store left final key block examined blocks heavy first _ ih =>
      rcases mirrors.evicted indexed first with
        ⟨order, other, remaining, oldest, taken, same, mirrored, size⟩
      cases steps with
      | zero => omega
      | succ steps =>
          have fewer : remaining.order.order.size ≤ steps := by omega
          have rest := ih mirrored (indexed.evicted first) fewer
          unfold SimpleStore.shrinkBy
          rw [mirrors.overCapacity, heavy, if_pos rfl, oldest]
          dsimp only
          rw [taken]
          exact ⟨by rw [List.map_cons, List.map_cons, rest.1, same], rest.2⟩

/-! ## Sweeps -/

/-- A sweep that nothing interrupts: the blocks it drops and the store it ends with.  A block that
was brought by another load than the one listed is passed over. -/
def WeightedStore.sweep (store : WeightedStore) :
    List (BlockKey × Nat) → List (BlockKey × CachedBlock) × WeightedStore
  | [] => ([], store)
  | (key, load) :: rest =>
      match store.removeLoaded? key load with
      | some (block, left) => ((key, block) :: (left.sweep rest).1, (left.sweep rest).2)
      | none => store.sweep rest

/-- What is doomed is dropped, from one store block by block and from the other all at once.  The
blocks on the list must be the ones that are stored, see `own`. -/
theorem Mirrors.sweep {lazy : WeightedStore} {exact : SimpleStore} (mirrors : Mirrors lazy exact)
    (doomed : List (BlockKey × Nat))
    (own : ∀ entry ∈ doomed, ∀ block, lazy.entries.get? entry.1 = some block →
      block.load = entry.2) :
    (exact.removeAll (doomed.map Prod.fst)).1.map Holding.ofRow =
        (lazy.sweep doomed).1.map Holding.ofRow ∧
      Mirrors (lazy.sweep doomed).2 (exact.removeAll (doomed.map Prod.fst)).2 := by
  induction doomed generalizing lazy exact with
  | nil => exact ⟨rfl, mirrors⟩
  | cons entry rest ih =>
      obtain ⟨key, load⟩ := entry
      have ownRest : ∀ entry ∈ rest, ∀ block, lazy.entries.get? entry.1 = some block →
          block.load = entry.2 := fun entry member => own entry (List.mem_cons_of_mem _ member)
      rw [List.map_cons]
      unfold WeightedStore.sweep SimpleStore.removeAll
      cases held : lazy.entries.get? key with
      | none =>
          have passed : lazy.removeLoaded? key load = none := by
            simp [WeightedStore.removeLoaded?, held]
          rw [passed, mirrors.remove?_eq_none held]
          exact ih mirrors ownRest
      | some block =>
          have dropped : lazy.removeLoaded? key load = some (block, lazy.discard key block) := by
            simp [WeightedStore.removeLoaded?, held, own _ List.mem_cons_self block held]
          rcases mirrors.remove? held with ⟨other, left, taken, same, mirrored⟩
          have ownLeft : ∀ entry ∈ rest, ∀ found,
              (lazy.discard key block).entries.get? entry.1 = some found →
                found.load = entry.2 := by
            intro entry member found present
            exact ownRest entry member found (Table.get?_erase_eq_some_iff.mp present).2
          have swept := ih mirrored ownLeft
          rw [dropped, taken]
          exact ⟨by rw [List.map_cons, List.map_cons, swept.1, same], swept.2⟩

namespace WeightedStore

theorem sweep_evicting (store : WeightedStore) (doomed : List (BlockKey × Nat)) :
    (store.sweep doomed).2.evicting = store.evicting := by
  induction doomed generalizing store with
  | nil => rfl
  | cons entry rest ih =>
      unfold sweep
      split
      · rename_i block left taken
        rcases removeLoaded?_eq_some taken with ⟨-, -, rfl⟩
        exact ih _
      · exact ih store

theorem keys_matching (store : WeightedStore) (scope : Scope) :
    (store.matching scope).map Prod.fst = store.entries.keys.filter scope.covers := by
  simp [matching, Table.keys, List.filter_map, Function.comp_def]

theorem own_matching {store : WeightedStore} {scope : Scope} :
    ∀ entry ∈ store.matching scope, ∀ block, store.entries.get? entry.1 = some block →
      block.load = entry.2 := by
  intro entry member block held
  rcases List.mem_map.mp member with ⟨row, listed, rfl⟩
  have present := (store.entries.get?_eq_some_iff row.1 row.2).mpr (List.mem_filter.mp listed).1
  rw [held] at present
  cases present
  rfl

theorem sweep_exactly (store : WeightedStore) (key : BlockKey) :
    store.sweep (store.matching (.exactly key)) =
      match store.remove? key with
      | some (block, left) => ([(key, block)], left)
      | none => ([], store) := by
  have keys := store.keys_matching (.exactly key)
  have once : store.entries.keys.count key = if key ∈ store.entries.keys then 1 else 0 :=
    store.entries.distinct.count
  change _ = store.entries.keys.filter (· == key) at keys
  rw [List.filter_beq, once] at keys
  cases held : store.entries.get? key with
  | none =>
      have unlisted : key ∉ store.entries.keys := (store.entries.get?_eq_none_iff key).mp held
      rw [if_neg unlisted] at keys
      rw [List.map_eq_nil_iff.mp keys]
      simp [sweep, remove?, held]
  | some block =>
      have listed : key ∈ store.entries.keys :=
        List.mem_map_of_mem ((store.entries.get?_eq_some_iff key block).mp held)
      rw [if_pos listed, List.replicate_one, List.map_eq_singleton_iff] at keys
      rcases keys with ⟨entry, matched, same⟩
      have own : block.load = entry.2 :=
        own_matching entry (matched ▸ List.mem_singleton_self entry) block (same ▸ held)
      rw [matched]
      simp [sweep, remove?, removeLoaded?, same, held, own]

end WeightedStore

namespace Mirrors

variable {lazy : WeightedStore} {exact : SimpleStore}

theorem keys (mirrors : Mirrors lazy exact) : exact.entries.keys = lazy.entries.keys := by
  unfold Table.keys
  rw [← keys_holdingsOf, ← keys_holdingsOf, mirrors.blocks]

theorem removeWhere (mirrors : Mirrors lazy exact) (scope : Scope) :
    (exact.removeWhere scope).1.map Holding.ofRow =
        (lazy.sweep (lazy.matching scope)).1.map Holding.ofRow ∧
      Mirrors (lazy.sweep (lazy.matching scope)).2 (exact.removeWhere scope).2 := by
  unfold SimpleStore.removeWhere
  rw [mirrors.keys, ← lazy.keys_matching]
  exact mirrors.sweep _ WeightedStore.own_matching

end Mirrors

end VolumeCache
