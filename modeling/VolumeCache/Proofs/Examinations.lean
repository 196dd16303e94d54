import Mathlib.Data.Finset.Card
import VolumeCache.Proofs.Balances

namespace VolumeCache

/-!
# The work of eviction passes

A pass examines records, and not every examination evicts a block: a record may be out of date, its
block used later or gone, and a block that was used later is given a new record.  All the same the
examinations of a whole run are paid for by its accesses.  An access adds one moment to those that a
store knows of, the moments of its records and of its blocks' last uses; an examination takes one
away for good; and nothing else adds any.
-/

/-! ## The moments a store knows of -/

namespace WeightedStore

variable {store left : WeightedStore} {key : BlockKey}

/-- The moments of the records and of the last uses, every moment once.  A record that tells a
block's last use adds none, so a moment that is examined again has to have been paid for by a later
use. -/
def moments (store : WeightedStore) : Finset UInt64 :=
  (store.recency.records.map Prod.fst
    ++ store.entries.rows.map fun row => row.2.lastAccess).toFinset

theorem mem_moments_iff {tick : UInt64} :
    tick ∈ store.moments ↔
      (∃ key, (tick, key) ∈ store.recency.records) ∨ ∃ key, store.lastUse? key = some tick := by
  simp only [moments, List.mem_toFinset, List.mem_append, List.mem_map, Prod.exists,
    exists_and_right, exists_eq_right, lastUse?_eq_some_iff, Table.get?_eq_some_iff]

theorem mem_moments_of_record {tick : UInt64} (recorded : (tick, key) ∈ store.recency.records) :
    tick ∈ store.moments :=
  mem_moments_iff.mpr (Or.inl ⟨key, recorded⟩)

theorem mem_moments_of_use {use : UInt64} (used : store.lastUse? key = some use) :
    use ∈ store.moments :=
  mem_moments_iff.mpr (Or.inr ⟨key, used⟩)

/-- A look-up adds the moment at which it was made. -/
theorem moments_lookup? {payload : Payload} (indexed : Indexed store)
    (forward : store.clock < store.clock + 1) (found : store.lookup? key = some (payload, left)) :
    left.moments ⊆ store.moments ∪ {store.clock + 1} := by
  rcases indexed.uses_lookup? forward found with ⟨-, records, -, uses⟩
  intro tick member
  rcases mem_moments_iff.mp member with ⟨other, recorded⟩ | ⟨other, used⟩
  · exact Finset.mem_union_left _ (mem_moments_of_record (records ▸ recorded))
  · rw [uses] at used
    split at used
    · cases used
      exact Finset.mem_union_right _ (Finset.mem_singleton_self _)
    · exact Finset.mem_union_left _ (mem_moments_of_use used)

/-- A block that comes in adds the moment at which it does; its record is of the same moment.  An
earlier block of the key, if there was one, leaves its record behind. -/
theorem moments_insert (store : WeightedStore) (key : BlockKey) (load : Nat) (value : Payload) :
    (store.insert key load value).moments ⊆ store.moments ∪ {store.clock + 1} := by
  intro tick member
  rcases mem_moments_iff.mp member with ⟨other, recorded⟩ | ⟨other, used⟩
  · rcases Timeline.mem_records_insert.mp recorded with isNew | ⟨old, -⟩
    · cases isNew
      exact Finset.mem_union_right _ (Finset.mem_singleton_self _)
    · exact Finset.mem_union_left _ (mem_moments_of_record old)
  · rw [lastUse?_insert] at used
    split at used
    · cases used
      exact Finset.mem_union_right _ (Finset.mem_singleton_self _)
    · exact Finset.mem_union_left _ (mem_moments_of_use used)

theorem moments_discard (store : WeightedStore) (key : BlockKey) (block : CachedBlock) :
    (store.discard key block).moments ⊆ store.moments := by
  intro tick member
  rcases mem_moments_iff.mp member with ⟨other, recorded⟩ | ⟨other, used⟩
  · exact mem_moments_of_record recorded
  · exact mem_moments_of_use (lastUse?_of_discard used)

theorem moments_compact? {rebuilt : WeightedStore} (indexed : Indexed store)
    (due : store.compact? = some rebuilt) : rebuilt.moments ⊆ store.moments := by
  intro tick member
  rcases mem_moments_iff.mp member with ⟨other, recorded⟩ | ⟨other, used⟩
  · exact mem_moments_of_use ((indexed.mem_records_compact? due tick other).mp recorded)
  · rw [compact?_eq_some due] at used
    exact mem_moments_of_use used

/-- After a step that leaves no trace of the moment of a record fewer moments are known.  What else
the step does to the store is left open. -/
theorem card_moments_of_forgotten {tick : UInt64}
    (recorded : (tick, key) ∈ store.recency.records)
    (known : ∀ other ∈ left.moments, other ∈ store.moments ∧ other ≠ tick) :
    left.moments.card < store.moments.card := by
  apply Finset.card_lt_card
  rw [Finset.ssubset_iff_of_subset fun other member => (known other member).1]
  exact ⟨tick, mem_moments_of_record recorded, fun member => (known tick member).2 rfl⟩

/-- The moment of an outdated record is forgotten: if its block is still there it was used later,
and the record that comes back is of that use. -/
theorem card_moments_outdated (indexed : Indexed store)
    (first : store.examine = .outdated left) : left.moments.card < store.moments.card := by
  rcases examine_eq_outdated first with ⟨tick, key, rest, popped, stands⟩
  have records := Timeline.popFirst?_eq_some popped
  have recorded : (tick, key) ∈ store.recency.records := records ▸ List.mem_cons_self
  -- The first record is the only one of its moment, and no block was last used at it.
  have others : ∀ {other holder}, (other, holder) ∈ rest.records →
      other ∈ store.moments ∧ other ≠ tick := by
    intro other holder member
    have later := Timeline.first_lt_of_popFirst? popped member
    exact ⟨mem_moments_of_record (records ▸ List.mem_cons_of_mem _ member),
      (UInt64.ne_of_lt later).symm⟩
  have unused : ∀ {holder}, store.lastUse? holder ≠ some tick := by
    intro holder used
    cases indexed.own used recorded
    rcases lastUse?_eq_some_iff.mp used with ⟨block, held, current⟩
    rcases stands with ⟨absent, -⟩ | ⟨stored, storedHeld, changed, -⟩
    · cases held.symm.trans absent
    · cases held.symm.trans storedHeld
      exact changed current
  have uses : ∀ {other holder}, store.lastUse? holder = some other →
      other ∈ store.moments ∧ other ≠ tick := by
    rintro other holder used
    exact ⟨mem_moments_of_use used, fun same => unused (same ▸ used)⟩
  apply card_moments_of_forgotten recorded
  intro other member
  rcases stands with ⟨-, rfl⟩ | ⟨block, held, -, rfl⟩
  · rcases mem_moments_iff.mp member with ⟨holder, listed⟩ | ⟨holder, used⟩
    · exact others listed
    · exact uses used
  · rcases mem_moments_iff.mp member with ⟨holder, listed⟩ | ⟨holder, used⟩
    · rcases Timeline.mem_records_insert.mp listed with isNew | ⟨old, -⟩
      · cases isNew
        exact uses (lastUse?_of_get? held)
      · exact others old
    · exact uses used

theorem card_moments_evicted {block : CachedBlock} (indexed : Indexed store)
    (first : store.examine = .evicted left key block) :
    left.moments.card < store.moments.card := by
  rcases examine_eq_evicted first with ⟨rest, popped, held, rfl⟩
  have records := Timeline.popFirst?_eq_some popped
  have recorded : (block.lastAccess, key) ∈ store.recency.records := records ▸ List.mem_cons_self
  apply card_moments_of_forgotten recorded
  intro other member
  rcases mem_moments_iff.mp member with ⟨holder, listed⟩ | ⟨holder, used⟩
  · have later := Timeline.first_lt_of_popFirst? popped listed
    exact ⟨mem_moments_of_record (records ▸ List.mem_cons_of_mem _ listed),
      (UInt64.ne_of_lt later).symm⟩
  · have before : store.lastUse? holder = some other :=
      @lastUse?_of_discard store key holder block other used
    refine ⟨mem_moments_of_use before, ?_⟩
    rintro rfl
    cases indexed.own before recorded
    rw [lastUse?_discard, if_pos rfl] at used
    cases used

end WeightedStore

namespace Store

/-- The moments that a weighted store knows of; of those of a simple store nothing is said. -/
def moments : Store → Finset UInt64
  | .weighted store => store.moments
  | .simple _ => ∅

/-- A store learns of no more moments than its clock moves on by.  An index that is rebuilt has
records of known moments only. -/
theorem Changed.card_moments {before after : Store} {change : Change} {accesses : Nat}
    (changed : Changed before change after) (indexed : before.Indexed accesses)
    (few : accesses + change.ticks < 2 ^ 64) :
    after.moments.card ≤ before.moments.card + change.ticks := by
  cases changed with
  | same | flagged => exact Nat.le_refl _
  | used found =>
      rcases lookup?_eq_some found with ⟨inner, left, rfl, taken, rfl⟩ | ⟨inner, left, rfl, -, rfl⟩
      · have forward := (Indexed.forward indexed few).1
        exact (Finset.card_le_card (WeightedStore.moments_lookup? indexed.1 forward taken)).trans
          (Finset.card_union_le _ _)
      · exact Nat.zero_le _
  | @admitted store key load payload evicting _ =>
      exact (Finset.card_le_card (store.moments_insert key load payload)).trans
        (Finset.card_union_le _ _)
  | put | cleared | takenBack => exact Nat.zero_le _
  | discarded held => exact Finset.card_le_card (WeightedStore.moments_discard _ _ _)
  | outdated first => exact Nat.le_of_lt (WeightedStore.card_moments_outdated indexed.1 first)
  | evicted first => exact Nat.le_of_lt (WeightedStore.card_moments_evicted indexed.1 first)
  | compacted due => exact Finset.card_le_card (WeightedStore.moments_compact? indexed.1 due)

end Store

/-! ## Along runs -/

namespace Event

def isExamination : Event → Bool
  | .examined => true
  | _ => false

def isFind : Event → Bool
  | .touched _ => true
  | _ => false

end Event

namespace Cache

variable {cache next : Cache}

def recordsExamined (cache : Cache) : Nat :=
  cache.journal.countP Event.isExamination

/-- How many look-ups have found their key so far. -/
def finds (cache : Cache) : Nat :=
  cache.journal.countP Event.isFind

theorem recordsExamined_eq (cache : Cache) :
    cache.recordsExamined = (noted cache.journal).countP Event.isExamination :=
  (countP_noted (fun event idle => by
    cases event <;> simp_all [Event.isNoted, Event.isExamination]) _).symm

/-- An access is a load or a look-up that has found its key. -/
theorem accesses_eq_arrivals_add_finds (cache : Cache) :
    cache.accesses = cache.arrivals.length + cache.finds := by
  unfold accesses arrivals finds
  induction cache.journal with
  | nil => rfl
  | cons event earlier ih =>
      rw [List.length_filterMap_eq_countP] at ih ⊢
      cases event <;> simp [Event.isAccess, Event.loaded?, Event.isFind, List.countP_cons, ih] <;>
        omega

/-- The examinations so far are paid for by accesses, and so is one for every moment that is still
known.  The clock has to have numbered the accesses, for otherwise two of them would share a moment.
-/
def Paid (cache : Cache) : Prop :=
  cache.accesses < 2 ^ 64 →
    cache.recordsExamined + cache.store.moments.card ≤ cache.accesses

theorem Paid.unexamined {change : Change} (paid : Paid cache) (indexed : Indexed cache)
    (changed : Store.Changed cache.store change next.store)
    (moves : cache.accesses + change.ticks ≤ next.accesses)
    (idle : next.recordsExamined = cache.recordsExamined) : Paid next := by
  intro few
  have before : cache.accesses < 2 ^ 64 := by omega
  have learnt := changed.card_moments (indexed before) (by omega)
  have owed := paid before
  omega

theorem Paid.examined (paid : Paid cache)
    (forgotten : cache.accesses < 2 ^ 64 → next.store.moments.card < cache.store.moments.card)
    (accesses : next.accesses = cache.accesses)
    (one : next.recordsExamined = cache.recordsExamined + 1) : Paid next := by
  intro few
  rw [accesses] at few ⊢
  have owed := paid few
  have fewer := forgotten few
  omega

theorem recordsExamined_of_accepted {move : Move} (taken : Accepted cache move next) :
    next.recordsExamined = cache.recordsExamined := by
  cases taken <;> simp [recordsExamined_eq, Event.isNoted, Event.isExamination]

theorem Paid.advanced (paid : Paid cache) (indexed : Indexed cache)
    (taken : Advanced cache next) : Paid next := by
  rcases changed_of_advanced taken with ⟨changed, moves⟩
  cases taken with
  | outdated _ weighted _ first =>
      refine paid.examined (fun few => ?_) ?_ ?_
      · rw [weighted]
        exact WeightedStore.card_moments_outdated (weighted ▸ indexed few).1 first
      · simp [accesses_eq, Event.isNoted, Event.isAccess]
      · simp [recordsExamined_eq, Event.isNoted, Event.isExamination, List.countP_cons]
  | evicted _ weighted _ first =>
      refine paid.examined (fun few => ?_) ?_ ?_
      · rw [weighted]
        exact WeightedStore.card_moments_evicted (weighted ▸ indexed few).1 first
      · simp [accesses_eq, Event.isNoted, Event.isAccess]
      · simp [recordsExamined_eq, Event.isNoted, Event.isExamination, List.countP_cons]
  | _ =>
      refine paid.unexamined indexed changed moves ?_
      simp [recordsExamined_eq, Event.isNoted, Event.isExamination]

theorem paid_kept (allowed : Cache → Move → Bool) :
    Kept allowed fun cache => (Coherent cache ∧ Indexed cache) ∧ Paid cache :=
  (indexed_kept allowed).and
    (fun _ known paid taken => by
      rcases changed_of_accepted known.1.staged taken with ⟨change, changed, moves, -⟩
      exact paid.unexamined known.2 changed moves (recordsExamined_of_accepted taken))
    (fun known paid taken => paid.advanced known.2 taken)

/-- In every state of every run, whatever loaders and listeners do, and before the clock wraps: all
passes so far have examined no more records than there were loads that brought a value and look-ups
that found their key.  The examinations of passes that a panic has cut short are counted, and so are
those made in the middle of a pass that is still under way. -/
theorem examinations_amortized (budget : UInt64) (listener : Listener) {cache : Cache}
    (visited : Visited anyMove (start (.weighted (.empty budget)) listener) cache)
    (few : cache.accesses < 2 ^ 64) :
    cache.recordsExamined ≤ cache.arrivals.length + cache.finds := by
  have coherent := coherent_start (.weighted (.empty budget)) listener rfl
  have known := (paid_kept anyMove).visited visited
    ⟨⟨coherent, fun _ => ⟨WeightedStore.indexed_empty budget, Nat.zero_le _⟩⟩,
      fun _ => Nat.le_refl 0⟩
  rw [← accesses_eq_arrivals_add_finds]
  exact Nat.le_of_add_right_le (known.2 few)

/-- A block is found, and then a second one comes in that is too large; while the first one is being
evicted for it, the listener finds the second one.  The pass examines two records of each. -/
def spent : Cache :=
  reached anyMove (start (.weighted (.empty 10)) .interactive)
    (loadMoves ⟨⟨0⟩, 0, 0, .index 1⟩ (.standIn 4 "")
      ++ [.begin (.find ⟨⟨0⟩, 0, 0, .index 1⟩)]
      ++ loadMoves ⟨⟨0⟩, 0, 0, .index 2⟩ (.standIn 20 "")
      ++ [.begin (.find ⟨⟨0⟩, 0, 0, .index 2⟩), .listenerReturns])

theorem examinations_amortized_spent :
    Visited anyMove (start (.weighted (.empty 10)) .interactive) spent ∧
      spent.recordsExamined = 4 ∧ spent.arrivals.length = 2 ∧ spent.finds = 2 ∧
      4 ≤ spent.arrivals.length + spent.finds := by
  have visited : Visited anyMove (start (.weighted (.empty 10)) .interactive) spent :=
    .of_run (run_reached (by decide +kernel))
  have worked : spent.recordsExamined = 4 := by decide +kernel
  have bounded := examinations_amortized 10 .interactive visited (by decide +kernel)
  exact ⟨visited, worked, by decide +kernel, by decide +kernel, worked ▸ bounded⟩

end Cache
end VolumeCache
