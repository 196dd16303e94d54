import VolumeCache.Proofs.Weights

namespace VolumeCache

/-!
# The index of a weighted store

The index may hold records of blocks that are gone and of uses that were not the last.  What it
must not do is lose a stored block or speak for another one: then a pass that finds the index empty
has found the store empty, and a record that is up to date belongs to the block used longest ago.
All of this is about a clock that has not wrapped; that is the only assumption.
-/

namespace WeightedStore

def lastUse? (store : WeightedStore) (key : BlockKey) : Option UInt64 :=
  (store.entries.get? key).map CachedBlock.lastAccess

/-- What the index of a weighted store has to satisfy.  A block may have records of earlier uses
beside one of its last use, or have none but those; records of blocks that are gone are not excluded
either.  All that is asked for is that none of them misleads a pass. -/
structure Indexed (store : WeightedStore) : Prop where
  /-- No record is ahead of the clock. -/
  recordsPast : ∀ record ∈ store.recency.records, record.1 ≤ store.clock
  /-- No use is ahead of the clock. -/
  usesPast : ∀ {key use}, store.lastUse? key = some use → use ≤ store.clock
  /-- Different blocks were last used at different times. -/
  usesApart : ∀ {key other use}, store.lastUse? key = some use →
    store.lastUse? other = some use → key = other
  /-- Every block has a record. -/
  tracked : ∀ {key use}, store.lastUse? key = some use →
    ∃ tick, (tick, key) ∈ store.recency.records ∧ tick ≤ use
  /-- No record of a block is later than its last use. -/
  noneLater : ∀ {key use tick}, store.lastUse? key = some use →
    (tick, key) ∈ store.recency.records → tick ≤ use
  /-- A record at the time of a block's last use is that block's own. -/
  own : ∀ {key other use}, store.lastUse? key = some use →
    (use, other) ∈ store.recency.records → other = key

theorem indexed_empty (budget : UInt64) : Indexed (empty budget) where
  recordsPast _ member := nomatch member
  usesPast used := nomatch used
  usesApart used := nomatch used
  tracked used := nomatch used
  noneLater used := nomatch used
  own used := nomatch used

/-! ## The last uses after an operation -/

theorem lastUse?_eq_some_iff {store : WeightedStore} {key : BlockKey} {use : UInt64} :
    store.lastUse? key = some use ↔
      ∃ block, store.entries.get? key = some block ∧ block.lastAccess = use :=
  Option.map_eq_some_iff

theorem lastUse?_of_get? {store : WeightedStore} {key : BlockKey} {block : CachedBlock}
    (held : store.entries.get? key = some block) :
    store.lastUse? key = some block.lastAccess :=
  lastUse?_eq_some_iff.mpr ⟨block, held, rfl⟩

theorem lastUse?_insert (store : WeightedStore) (key other : BlockKey) (load : Nat)
    (value : Payload) :
    (store.insert key load value).lastUse? other =
      if other = key then some (store.clock + 1) else store.lastUse? other := by
  unfold lastUse? insert
  rw [Table.get?_insert]
  split <;> rfl

theorem lastUse?_discard (store : WeightedStore) (key other : BlockKey) (block : CachedBlock) :
    (store.discard key block).lastUse? other =
      if other = key then none else store.lastUse? other := by
  unfold lastUse? discard
  rw [Table.get?_erase]
  split <;> rfl

theorem lastUse?_of_discard {store : WeightedStore} {key other : BlockKey} {block : CachedBlock}
    {use : UInt64} (used : (store.discard key block).lastUse? other = some use) :
    store.lastUse? other = some use := by
  rw [lastUse?_discard] at used
  split at used
  · cases used
  · exact used

theorem lastAccess_touch {block : CachedBlock} {tick : UInt64} (past : block.lastAccess ≤ tick) :
    (block.touch tick).lastAccess = tick := by
  change (if block.lastAccess ≤ tick then tick else block.lastAccess) = tick
  rw [if_pos past]

/-- A look-up that finds a block moves the clock on and makes this the block's last use.  The index
is not touched, so the block's records are of earlier uses now. -/
theorem Indexed.uses_lookup? {store after : WeightedStore} {key : BlockKey} {payload : Payload}
    (indexed : Indexed store) (forward : store.clock < store.clock + 1)
    (found : store.lookup? key = some (payload, after)) :
    (∃ use, store.lastUse? key = some use) ∧ after.recency = store.recency ∧
      after.clock = store.clock + 1 ∧
      ∀ other, after.lastUse? other =
        if other = key then some (store.clock + 1) else store.lastUse? other := by
  rcases WeightedStore.lookup?_eq_some found with ⟨block, held, -, rfl⟩
  refine ⟨⟨_, lastUse?_of_get? held⟩, rfl, rfl, ?_⟩
  intro other
  have past := indexed.usesPast (lastUse?_of_get? held)
  have now := lastAccess_touch (UInt64.le_of_lt (UInt64.lt_of_le_of_lt past forward))
  unfold lastUse?
  rw [Table.get?_modify]
  split
  · rename_i same
    rw [same, held, Option.map_some, Option.map_some, now]
  · rfl

/-! ## What keeps the index -/

variable {store : WeightedStore}

section Use

variable {after : WeightedStore} {key : BlockKey}

private theorem Indexed.usesPast_of_use (indexed : Indexed store)
    (forward : store.clock < store.clock + 1)
    (uses : ∀ other, after.lastUse? other =
      if other = key then some (store.clock + 1) else store.lastUse? other)
    {other : BlockKey} {use : UInt64} (used : after.lastUse? other = some use) :
    use ≤ store.clock + 1 := by
  rw [uses] at used
  split at used
  · cases used
    exact UInt64.le_refl _
  · exact UInt64.le_of_lt (UInt64.lt_of_le_of_lt (indexed.usesPast used) forward)

private theorem Indexed.usesApart_of_use (indexed : Indexed store)
    (forward : store.clock < store.clock + 1)
    (uses : ∀ other, after.lastUse? other =
      if other = key then some (store.clock + 1) else store.lastUse? other)
    {first second : BlockKey} {use : UInt64} (firstUsed : after.lastUse? first = some use)
    (secondUsed : after.lastUse? second = some use) : first = second := by
  rw [uses] at firstUsed secondUsed
  split at firstUsed <;> split at secondUsed
  · simp_all
  · cases firstUsed
    exact absurd forward (UInt64.not_lt.mpr (indexed.usesPast secondUsed))
  · cases secondUsed
    exact absurd forward (UInt64.not_lt.mpr (indexed.usesPast firstUsed))
  · exact indexed.usesApart firstUsed secondUsed

end Use

/-- A use needs no record of its own: the block's earlier record stands for it. -/
theorem Indexed.lookup? {after : WeightedStore} {key : BlockKey} {payload : Payload}
    (indexed : Indexed store) (forward : store.clock < store.clock + 1)
    (found : store.lookup? key = some (payload, after)) : Indexed after := by
  rcases indexed.uses_lookup? forward found with ⟨⟨earlier, was⟩, records, clock, uses⟩
  constructor
  · intro record member
    have past := indexed.recordsPast record (records ▸ member)
    exact clock ▸ UInt64.le_of_lt (UInt64.lt_of_le_of_lt past forward)
  · exact fun used => clock ▸ indexed.usesPast_of_use forward uses used
  · exact indexed.usesApart_of_use forward uses
  · intro other use used
    rw [records]
    rw [uses] at used
    split at used
    · rename_i same
      cases used
      rcases indexed.tracked was with ⟨tick, member, early⟩
      have past := UInt64.lt_of_le_of_lt (UInt64.le_trans early (indexed.usesPast was)) forward
      exact ⟨tick, same ▸ member, UInt64.le_of_lt past⟩
    · exact indexed.tracked used
  · intro other use tick used member
    rw [records] at member
    rw [uses] at used
    split at used
    · cases used
      exact UInt64.le_of_lt (UInt64.lt_of_le_of_lt (indexed.recordsPast _ member) forward)
    · exact indexed.noneLater used member
  · intro other recorded use used member
    rw [records] at member
    rw [uses] at used
    split at used
    · cases used
      exact absurd forward (UInt64.not_lt.mpr (indexed.recordsPast _ member))
    · exact indexed.own used member

theorem Indexed.insert (indexed : Indexed store) (forward : store.clock < store.clock + 1)
    (key : BlockKey) (load : Nat) (value : Payload) :
    Indexed (store.insert key load value) := by
  have uses := fun other => lastUse?_insert store key other load value
  have member_iff : ∀ record, record ∈ (store.insert key load value).recency.records ↔
      record = (store.clock + 1, key) ∨
        (record ∈ store.recency.records ∧ record.1 ≠ store.clock + 1) :=
    fun _ => Timeline.mem_records_insert
  constructor
  · intro record member
    rcases (member_iff record).mp member with isNew | ⟨old, -⟩
    · exact isNew ▸ UInt64.le_refl _
    · exact UInt64.le_of_lt (UInt64.lt_of_le_of_lt (indexed.recordsPast record old) forward)
  · exact indexed.usesPast_of_use forward uses
  · exact indexed.usesApart_of_use forward uses
  · intro other use used
    rw [lastUse?_insert] at used
    split at used
    · rename_i same
      cases used
      exact ⟨_, (member_iff _).mpr (Or.inl (same ▸ rfl)), UInt64.le_refl _⟩
    · rcases indexed.tracked used with ⟨tick, member, early⟩
      have past := UInt64.lt_of_le_of_lt (indexed.recordsPast _ member) forward
      exact ⟨tick, (member_iff _).mpr (Or.inr ⟨member, UInt64.ne_of_lt past⟩), early⟩
  · intro other use tick used member
    rw [lastUse?_insert] at used
    split at used
    · cases used
      rcases (member_iff _).mp member with isNew | ⟨old, -⟩
      · cases isNew
        exact UInt64.le_refl _
      · exact UInt64.le_of_lt (UInt64.lt_of_le_of_lt (indexed.recordsPast _ old) forward)
    · rename_i different
      rcases (member_iff _).mp member with isNew | ⟨old, -⟩
      · cases isNew
        exact absurd rfl different
      · exact indexed.noneLater used old
  · intro other recorded use used member
    rw [lastUse?_insert] at used
    split at used
    · rename_i same
      cases used
      rcases (member_iff _).mp member with isNew | ⟨-, apart⟩
      · cases isNew
        exact same.symm
      · exact absurd rfl apart
    · rcases (member_iff _).mp member with isNew | ⟨old, -⟩
      · cases isNew
        exact absurd forward (UInt64.not_lt.mpr (indexed.usesPast used))
      · exact indexed.own used old

/-- Blocks and records may go, as long as every block left keeps a record.  The clock must be the
same, and no block may be given a new last use on the way. -/
theorem Indexed.shrink {left : WeightedStore} (indexed : Indexed store)
    (clock : left.clock = store.clock)
    (uses : ∀ {key use}, left.lastUse? key = some use → store.lastUse? key = some use)
    (records : ∀ record ∈ left.recency.records, record ∈ store.recency.records)
    (kept : ∀ {key use tick}, left.lastUse? key = some use →
      (tick, key) ∈ store.recency.records → (tick, key) ∈ left.recency.records) :
    Indexed left where
  recordsPast record member := clock ▸ indexed.recordsPast record (records record member)
  usesPast used := clock ▸ indexed.usesPast (uses used)
  usesApart first second := indexed.usesApart (uses first) (uses second)
  tracked used :=
    have ⟨tick, member, early⟩ := indexed.tracked (uses used)
    ⟨tick, kept used member, early⟩
  noneLater used member := indexed.noneLater (uses used) (records _ member)
  own used member := indexed.own (uses used) (records _ member)

theorem Indexed.discard (indexed : Indexed store) (key : BlockKey) (block : CachedBlock) :
    Indexed (store.discard key block) := by
  apply Indexed.shrink indexed
  · rfl
  · exact lastUse?_of_discard
  · exact fun _ member => member
  · exact fun _ member => member

theorem Indexed.flagged (indexed : Indexed store) (evicting : Bool) :
    Indexed { store with evicting := evicting } :=
  ⟨indexed.1, indexed.2, indexed.3, indexed.4, indexed.5, indexed.6⟩

/-- A record whose block is gone may be dropped; a record whose block was used later may come back
at the time of that use. -/
theorem Indexed.outdated {left : WeightedStore} (indexed : Indexed store)
    (first : store.examine = .outdated left) : Indexed left := by
  rcases examine_eq_outdated first with
    ⟨tick, key, rest, popped, ⟨absent, rfl⟩ | ⟨block, held, -, rfl⟩⟩
  · have records := Timeline.popFirst?_eq_some popped
    apply Indexed.shrink indexed
    · rfl
    · exact id
    · exact fun record member => records ▸ List.mem_cons_of_mem _ member
    · intro other use recorded used member
      rw [records] at member
      rcases List.mem_cons.mp member with isFirst | later
      · cases isFirst
        simp [lastUse?, absent] at used
      · exact later
  · have records := Timeline.popFirst?_eq_some popped
    have used := lastUse?_of_get? held
    have inStore : ∀ record ∈ rest.records, record ∈ store.recency.records :=
      fun record member => records ▸ List.mem_cons_of_mem _ member
    have member_iff : ∀ record, record ∈ (rest.insert block.lastAccess key).records ↔
        record = (block.lastAccess, key) ∨
          (record ∈ rest.records ∧ record.1 ≠ block.lastAccess) :=
      fun _ => Timeline.mem_records_insert
    constructor
    · intro record member
      rcases (member_iff record).mp member with isNew | ⟨old, -⟩
      · exact isNew ▸ indexed.usesPast used
      · exact indexed.recordsPast record (inStore record old)
    · exact indexed.usesPast
    · exact indexed.usesApart
    · intro other use otherUsed
      by_cases same : other = key
      · subst same
        have equal : use = block.lastAccess := Option.some.inj (otherUsed.symm.trans used)
        exact ⟨use, (member_iff _).mpr (Or.inl (equal ▸ rfl)), UInt64.le_refl _⟩
      · rcases indexed.tracked otherUsed with ⟨recorded, member, early⟩
        have kept : (recorded, other) ∈ rest.records := by
          rw [records] at member
          rcases List.mem_cons.mp member with isFirst | later
          · cases isFirst
            exact absurd rfl same
          · exact later
        -- A record at the time of the use of `key` would be that block's own.
        have apart : recorded ≠ block.lastAccess := by
          intro equal
          exact same (indexed.own used (equal ▸ member))
        exact ⟨recorded, (member_iff _).mpr (Or.inr ⟨kept, apart⟩), early⟩
    · intro other use recorded otherUsed member
      rcases (member_iff _).mp member with isNew | ⟨old, -⟩
      · cases isNew
        have equal : use = block.lastAccess := Option.some.inj (otherUsed.symm.trans used)
        exact equal ▸ UInt64.le_refl _
      · exact indexed.noneLater otherUsed (inStore _ old)
    · intro other recorded use otherUsed member
      rcases (member_iff _).mp member with isNew | ⟨old, -⟩
      · cases isNew
        exact indexed.usesApart used otherUsed
      · exact indexed.own otherUsed (inStore _ old)

theorem Indexed.evicted {left : WeightedStore} {key : BlockKey} {block : CachedBlock}
    (indexed : Indexed store) (first : store.examine = .evicted left key block) :
    Indexed left := by
  rcases examine_eq_evicted first with ⟨rest, popped, -, rfl⟩
  have records := Timeline.popFirst?_eq_some popped
  apply Indexed.shrink indexed
  · rfl
  · exact lastUse?_of_discard
  · exact fun record member => records ▸ List.mem_cons_of_mem _ member
  · intro other use tick used member
    rw [records] at member
    rcases List.mem_cons.mp member with isFirst | later
    · cases isFirst
      rw [lastUse?_discard, if_pos rfl] at used
      cases used
    · exact later

private theorem mem_current_iff {tick : UInt64} {key : BlockKey} :
    (tick, key) ∈ (store.entries.rows.map fun row => (row.2.lastAccess, row.1)) ↔
      store.lastUse? key = some tick := by
  rw [lastUse?_eq_some_iff, List.mem_map]
  constructor
  · rintro ⟨row, member, same⟩
    cases same
    exact ⟨row.2, (store.entries.get?_eq_some_iff _ _).mpr member, rfl⟩
  · rintro ⟨block, held, rfl⟩
    exact ⟨(key, block), (store.entries.get?_eq_some_iff _ _).mp held, rfl⟩

private theorem current_nodup (indexed : Indexed store) :
    ((store.entries.rows.map fun row => (row.2.lastAccess, row.1)).map Prod.fst).Nodup := by
  rw [List.map_map]
  have distinct := store.entries.distinct
  rw [List.Nodup, List.pairwise_map] at distinct ⊢
  apply distinct.imp_of_mem
  intro first second firstRow secondRow different same
  have firstUsed := lastUse?_of_get? ((store.entries.get?_eq_some_iff _ _).mpr firstRow)
  have secondUsed := lastUse?_of_get? ((store.entries.get?_eq_some_iff _ _).mpr secondRow)
  simp only [Function.comp_apply] at same
  rw [← same] at secondUsed
  exact different (indexed.usesApart firstUsed secondUsed)

/-- The rebuilt index has a record of the last use of each block and no other.  For this the last
uses must be apart, for otherwise one record would displace another. -/
theorem Indexed.mem_records_compact? {rebuilt : WeightedStore} (indexed : Indexed store)
    (due : store.compact? = some rebuilt) (tick : UInt64) (key : BlockKey) :
    (tick, key) ∈ rebuilt.recency.records ↔ store.lastUse? key = some tick := by
  rw [compact?_eq_some due]
  exact (Timeline.mem_records_ofList (current_nodup indexed)).trans mem_current_iff

theorem Indexed.compact? {rebuilt : WeightedStore} (indexed : Indexed store)
    (due : store.compact? = some rebuilt) : Indexed rebuilt := by
  have member_iff := indexed.mem_records_compact? due
  rw [compact?_eq_some due] at member_iff ⊢
  constructor
  · intro record member
    exact indexed.usesPast ((member_iff record.1 record.2).mp member)
  · exact indexed.usesPast
  · exact indexed.usesApart
  · intro key use used
    exact ⟨use, (member_iff _ _).mpr used, UInt64.le_refl _⟩
  · intro key use tick used member
    have recorded := (member_iff _ _).mp member
    exact Option.some.inj (recorded.symm.trans used) ▸ UInt64.le_refl _
  · intro key other use used member
    exact indexed.usesApart ((member_iff _ _).mp member) used

/-! ## What the index is good for -/

/-- If no record is left, nothing is stored. -/
theorem Indexed.entries_of_exhausted (indexed : Indexed store)
    (exhausted : store.examine = .exhausted) : holdingsOf store.entries = [] := by
  apply List.eq_nil_iff_forall_not_mem.mpr
  intro holding member
  rcases mem_holdingsOf.mp member with ⟨block, held, -⟩
  rcases indexed.tracked (lastUse?_of_get? held) with ⟨tick, recorded, -⟩
  rw [examine_eq_exhausted.mp exhausted] at recorded
  cases recorded

end WeightedStore

/-! ## Along runs -/

namespace Store

/-- The index of a weighted store is in order, and the clock has not been moved on more than that
many times.  A simple store has no such index, so nothing is asked of it. -/
def Indexed (accesses : Nat) : Store → Prop
  | .weighted store => store.Indexed ∧ store.clock.toNat ≤ accesses
  | .simple _ => True

theorem Indexed.forward {store : WeightedStore} {accesses : Nat}
    (indexed : (Store.weighted store).Indexed accesses) (room : accesses + 1 < 2 ^ 64) :
    store.clock < store.clock + 1 ∧ (store.clock + 1).toNat ≤ accesses + 1 := by
  rcases Timeline.next_tick indexed.2 room with ⟨forward, next⟩
  exact ⟨forward, next ▸ Nat.succ_le_succ indexed.2⟩

theorem Changed.indexed {before after : Store} {change : Change} {accesses later : Nat}
    (changed : Changed before change after) (indexed : before.Indexed accesses)
    (moves : accesses + change.ticks ≤ later) (few : later < 2 ^ 64) : after.Indexed later := by
  cases changed with
  | same =>
      cases before with
      | simple store => trivial
      | weighted store => exact ⟨indexed.1, Nat.le_trans indexed.2 moves⟩
  | used found =>
      cases before with
      | simple store =>
          rcases Option.map_eq_some_iff.mp found with ⟨result, -, same⟩
          cases same
          trivial
      | weighted store =>
          rcases Option.map_eq_some_iff.mp found with ⟨⟨value, touched⟩, taken, same⟩
          cases same
          have ready := Indexed.forward indexed (Nat.lt_of_le_of_lt moves few)
          have clock := (indexed.1.uses_lookup? ready.1 taken).2.2.1
          refine ⟨indexed.1.lookup? ready.1 taken, ?_⟩
          rw [clock]
          exact Nat.le_trans ready.2 moves
  | @admitted store key load payload evicting _ =>
      have ready := Indexed.forward indexed (Nat.lt_of_le_of_lt moves few)
      have inserted := indexed.1.insert ready.1 key load payload
      exact ⟨inserted.flagged evicting, Nat.le_trans ready.2 moves⟩
  | put | cleared | takenBack => trivial
  | discarded held => exact ⟨indexed.1.discard _ _, Nat.le_trans indexed.2 moves⟩
  | outdated first =>
      refine ⟨indexed.1.outdated first, ?_⟩
      rcases WeightedStore.reindexed_of_outdated first with ⟨recency, rfl⟩
      exact Nat.le_trans indexed.2 moves
  | evicted first =>
      refine ⟨indexed.1.evicted first, ?_⟩
      rcases WeightedStore.examine_eq_evicted first with ⟨rest, -, -, rfl⟩
      exact Nat.le_trans indexed.2 moves
  | flagged => exact ⟨indexed.1.flagged _, Nat.le_trans indexed.2 moves⟩
  | compacted due =>
      refine ⟨indexed.1.compact? due, ?_⟩
      rw [WeightedStore.compact?_eq_some due]
      exact Nat.le_trans indexed.2 moves

end Store

namespace Cache

/-- As long as there were not too many accesses for the clock, the index is in order.  Once the
clock has wrapped, a new record may take the place of an older one, and nothing is said any more. -/
def Indexed (cache : Cache) : Prop :=
  cache.accesses < 2 ^ 64 → cache.store.Indexed cache.accesses

theorem Indexed.changed {cache next : Cache} {change : Change} (indexed : Indexed cache)
    (changed : Store.Changed cache.store change next.store)
    (moves : cache.accesses + change.ticks ≤ next.accesses) : Indexed next := by
  intro few
  have fewBefore : cache.accesses < 2 ^ 64 := by omega
  exact changed.indexed (indexed fewBefore) moves few

theorem indexed_kept (allowed : Cache → Move → Bool) :
    Kept allowed fun cache => Coherent cache ∧ Indexed cache :=
  (coherent_kept allowed).and
    (fun _ coherent indexed taken => by
      rcases changed_of_accepted coherent.staged taken with ⟨change, changed, moves, -⟩
      exact indexed.changed changed moves)
    (fun _ indexed taken => by
      rcases changed_of_advanced taken with ⟨changed, moves⟩
      exact indexed.changed changed moves)

end Cache
end VolumeCache
