import VolumeCache.Proofs.Budget
import VolumeCache.Proofs.Claims
import VolumeCache.Proofs.Disposal
import VolumeCache.Proofs.Repetitions
import VolumeCache.Proofs.Settling
import VolumeCache.Proofs.Steps

namespace VolumeCache

/-!
# The size of the index

A block that is evicted takes its record of the index with it; a block that is dropped for another
reason leaves the record behind.  An invalidation looks at the index once it is done and rebuilds it
if too many records were left, so what invalidations leave behind stays within bounds that depend on
the blocks stored.  A load that takes its own value back leaves a record too and does not look at
the index; such records are only cleared away by the next invalidation or eviction.
-/

namespace Table

variable {κ α : Type} [DecidableEq κ]

theorem size_insert_of_get?_none {table : Table κ α} {key : κ} (missing : table.get? key = none)
    (value : α) : (table.insert key value).size = table.size + 1 := by
  simp [size, rows_insert_of_get?_none missing]

theorem size_erase {table : Table κ α} {key : κ} {value : α}
    (held : table.get? key = some value) : table.size = (table.erase key).size + 1 :=
  (rows_perm_of_get? held).length_eq

theorem size_modify (table : Table κ α) (key : κ) (change : α → α) :
    (table.modify key change).size = table.size := by
  simp [size, modify, mapValues]

end Table

namespace Timeline

variable {κ : Type}

theorem size_insert_le (timeline : Timeline κ) (tick : UInt64) (what : κ) :
    (timeline.insert tick what).size ≤ timeline.size + 1 :=
  length_place_le tick what timeline.records

theorem size_popFirst? {timeline rest : Timeline κ} {first : UInt64 × κ}
    (popped : timeline.popFirst? = some (first, rest)) : timeline.size = rest.size + 1 := by
  simp [size, popFirst?_eq_some popped]

theorem size_ofList_le (records : List (UInt64 × κ)) : (ofList records).size ≤ records.length := by
  have grows : ∀ timeline : Timeline κ,
      (records.foldl (fun line record => line.insert record.1 record.2) timeline).size ≤
        timeline.size + records.length := by
    induction records with
    | nil => intro timeline; exact Nat.le_refl _
    | cons first rest ih =>
        intro timeline
        have added := timeline.size_insert_le first.1 first.2
        have later := ih (timeline.insert first.1 first.2)
        rw [List.foldl_cons, List.length_cons]
        omega
  have whole := grows empty
  rwa [show (empty : Timeline κ).size = 0 from rfl, Nat.zero_add] at whole

end Timeline

/-! ## Records without a block -/

namespace WeightedStore

/-- By how much the records of the index outnumber the blocks.  A block may have several records, so
these are not only the records of blocks that are gone. -/
def strays (store : WeightedStore) : Int :=
  store.recency.size - store.entries.size

theorem strays_lookup? {store left : WeightedStore} {key : BlockKey} {payload : Payload}
    (found : store.lookup? key = some (payload, left)) : left.strays = store.strays := by
  rcases lookup?_eq_some found with ⟨block, -, -, rfl⟩
  simp [strays, Table.size_modify]

theorem strays_insert {store : WeightedStore} {key : BlockKey}
    (absent : store.entries.get? key = none) (load : Nat) (value : Payload) :
    (store.insert key load value).strays ≤ store.strays := by
  have records := store.recency.size_insert_le (store.clock + 1) key
  have blocks := Table.size_insert_of_get?_none absent
    (⟨value, store.clock + 1, load⟩ : CachedBlock)
  simp only [strays, insert]
  omega

theorem strays_discard {store : WeightedStore} {key : BlockKey} {block : CachedBlock}
    (held : store.entries.get? key = some block) :
    (store.discard key block).strays = store.strays + 1 := by
  have blocks := Table.size_erase held
  simp only [strays, discard]
  omega

theorem strays_outdated {store left : WeightedStore} (first : store.examine = .outdated left) :
    left.strays ≤ store.strays := by
  rcases examine_eq_outdated first with
    ⟨tick, key, rest, popped, ⟨-, rfl⟩ | ⟨block, -, -, rfl⟩⟩
  · have records := Timeline.size_popFirst? popped
    simp only [strays]
    omega
  · have records := Timeline.size_popFirst? popped
    have added := rest.size_insert_le block.lastAccess key
    simp only [strays]
    omega

theorem strays_evicted {store left : WeightedStore} {key : BlockKey} {block : CachedBlock}
    (first : store.examine = .evicted left key block) : left.strays = store.strays := by
  rcases examine_eq_evicted first with ⟨rest, popped, held, rfl⟩
  have records := Timeline.size_popFirst? popped
  have blocks := Table.size_erase held
  simp only [strays, discard]
  omega

theorem strays_compacted (store : WeightedStore) :
    (store.compact?.getD store).strays ≤ store.entries.size + recencySlack := by
  unfold compact?
  split
  · rename_i few
    simp only [Option.getD_none, strays]
    omega
  · have records := Timeline.size_ofList_le
      (store.entries.rows.map fun row => (row.2.lastAccess, row.1))
    rw [List.length_map] at records
    simp only [Option.getD_some, strays]
    have blocks : store.entries.rows.length = store.entries.size := rfl
    omega

end WeightedStore

/-- The records that a call has left behind and has yet to look after.  It does so at its end, by
rebuilding the index if that has grown too large. -/
def Frame.left : Frame → Nat
  | .dropping _ => 1
  | .sweeping _ _ _ removed => removed
  | _ => 0

def Event.isOvertaking : Event → Bool
  | .noticed (.overtaken _) => true
  | _ => false

namespace Cache

open PendingLoad

variable {cache next : Cache}

/-- How many loads were found to be overtaken when they were about to end.  They are the calls that
take a block back without looking after the index. -/
def overtakings (cache : Cache) : Nat :=
  cache.journal.countP Event.isOvertaking

theorem overtakings_mono (grown : cache.journal <:+ next.journal) :
    cache.overtakings ≤ next.overtakings :=
  grown.sublist.countP_le

/-- The records of the index outnumber the blocks by no more than what the last look at it allowed,
what calls under way have yet to look after, and what overtaken loads have left behind.  A panic of
the listener may end a call before it has looked after its part, so this is kept only where none
panics. -/
def StraysBounded (peak : Nat) (cache : Cache) : Prop :=
  ∀ store, cache.store = .weighted store →
    store.strays ≤ peak + WeightedStore.recencySlack + cache.overtakings + cache.due Frame.left

/-- More records are left without a block only if somebody has yet to look after them. -/
theorem StraysBounded.balance {peak : Nat} (bounded : StraysBounded peak cache)
    (grown : cache.journal <:+ next.journal)
    (balance : ∀ after, next.store = .weighted after → ∃ before, cache.store = .weighted before ∧
      after.strays + cache.due Frame.left ≤ before.strays + next.due Frame.left) :
    StraysBounded peak next := by
  intro after is
  rcases balance after is with ⟨before, was, change⟩
  have known := bounded before was
  have more := overtakings_mono grown
  omega

theorem straysBounded_of_compacted {peak : Nat} (size : next.size ≤ peak)
    (compacted : next.store = cache.store.compacted) : StraysBounded peak next := by
  intro after is
  rw [is] at compacted
  cases was : cache.store with
  | simple store =>
      rw [was] at compacted
      cases compacted
  | weighted store =>
      have entries := Store.compacted_entries cache.store
      rw [was] at compacted entries
      have few := store.strays_compacted
      have same : next.size = store.entries.size := by
        rw [Cache.size, is, compacted, entries]
        rfl
      cases compacted
      omega

theorem StraysBounded.accepted {peak : Nat} {move : Move} (bounded : StraysBounded peak cache)
    (undisturbed : cache.calm move = true) (staged : Staged cache)
    (taken : Accepted cache move next) : StraysBounded peak next := by
  refine bounded.balance (journal_suffix_of_accepted taken) fun after is => ?_
  cases taken with
  | passUnwound | loadUnwound | clearingUnwound => cases undisturbed
  | cleared | simplyStored | overflown => cases is
  | found _ held | hit _ held | lateHit _ _ held =>
      rcases Store.lookup?_eq_some held with
        ⟨before, left, was, found, rfl⟩ | ⟨before, left, was, found, rfl⟩
      · cases is
        have same := WeightedStore.strays_lookup? found
        refine ⟨before, was, ?_⟩
        rw [same]
        simp [due, Frame.left, *]
      · cases is
  | @dropped key store left block _ weighted taken =>
      rcases WeightedStore.remove?_eq_some taken with ⟨held, rfl⟩
      cases is
      have more := WeightedStore.strays_discard held
      refine ⟨store, weighted, ?_⟩
      simp [due, Frame.left, more]
      omega
  | @passBegun call key rest payload store top weighted
  | @stored call key rest payload store top weighted =>
      cases is
      have more : (store.insert key call payload).strays ≤ store.strays :=
        WeightedStore.strays_insert (staged.absent_weighted top weighted) call payload
      refine ⟨store, weighted, Int.add_le_add more ?_⟩
      simp [due, top, Frame.left]
  | _ => exact ⟨after, is, by simp [due, Frame.left, *]⟩

theorem StraysBounded.advanced {peak : Nat} (bounded : StraysBounded peak cache)
    (size : next.size ≤ peak) (taken : Advanced cache next) : StraysBounded peak next := by
  have grown := journal_suffix_of_advanced taken
  cases taken with
  | @outdated admission examined evicted rest store left top weighted heavy first =>
      refine bounded.balance grown fun after is => ?_
      cases is
      have fewer := WeightedStore.strays_outdated first
      exact ⟨store, weighted, by simpa [due, top, Frame.left] using fewer⟩
  | @evicted admission examined evicted rest store left key block top weighted heavy first =>
      refine bounded.balance grown fun after is => ?_
      cases is
      have same := WeightedStore.strays_evicted first
      exact ⟨store, weighted, by simp [due, top, Frame.left, same]⟩
  | @passEnded admission examined evicted rest store top weighted =>
      refine bounded.balance grown fun after is => ?_
      cases is
      exact ⟨store, weighted, by simp [due, top, Frame.left, WeightedStore.strays]⟩
  | @swept call scope key load doomed removed rest store left block top weighted taken =>
      refine bounded.balance grown fun after is => ?_
      rcases WeightedStore.removeLoaded?_eq_some taken with ⟨held, -, rfl⟩
      cases is
      have more := WeightedStore.strays_discard held
      refine ⟨store, weighted, ?_⟩
      simp [due, top, Frame.left, more]
      omega
  | @retracted admission rest store left block top stale weighted taken =>
      -- nobody looks after the record, but the load was overtaken
      rcases WeightedStore.remove?_eq_some taken with ⟨held, rfl⟩
      intro after is
      cases is
      have known := bounded store weighted
      have more := WeightedStore.strays_discard held
      simp [overtakings, List.countP_cons, Event.isOvertaking, due, top, Frame.left, more]
        at known ⊢
      omega
  | dropCounted top | sweepEnded top =>
      exact straysBounded_of_compacted size rfl
  | takenBack => intro after is; cases is
  | _ =>
      refine bounded.balance grown fun after is => ⟨after, is, ?_⟩
      simp [due, Frame.left, *]

/-! ## Histories and their peaks -/

/-- A history leads from the origin to the cache, and the most blocks that were stored in any state
on the way are as many as the peak says.  States in the middle of calls count, too. -/
inductive Peaked (allowed : Cache → Move → Bool) (origin : Cache) : Cache → Nat → Prop
  | origin : Peaked allowed origin origin origin.size
  | step {cache next : Cache} {peak : Nat} (earlier : Peaked allowed origin cache peak)
      (stepped : Stepped allowed cache next) : Peaked allowed origin next (max peak next.size)

theorem Peaked.visited {allowed : Cache → Move → Bool} {origin : Cache} {peak : Nat}
    (history : Peaked allowed origin cache peak) : Visited allowed origin cache := by
  induction history with
  | origin => exact .origin
  | step _ stepped ih => exact .step ih stepped

/-- Without a listener none is ever running.  A cache that has lost its listener while that was
running would not be silent. -/
def Silent (cache : Cache) : Prop :=
  cache.listener = .absent ∧ ∀ frame ∈ cache.stack, frame.isListening = false

theorem silent_kept (allowed : Cache → Move → Bool) : Kept allowed Silent where
  accepted may silent taken :=
    ⟨(listener_kept .absent allowed).accepted may silent.1 taken,
      unheard_of_accepted (by simp [silent.1]) silent.2 taken⟩
  advanced silent taken :=
    ⟨(listener_kept .absent allowed).advanced silent.1 taken,
      unheard_of_advanced (by simp [silent.1]) silent.2 taken⟩

theorem Silent.calm_of_accepted (silent : Silent cache) {move : Move}
    (taken : Accepted cache move next) : cache.calm move = true := by
  cases taken with
  | passUnwound top | loadUnwound top | clearingUnwound top =>
      have running := silent.2 _ (top ▸ List.mem_cons_self)
      cases running
  | _ => rfl

theorem Silent.stepped {allowed : Cache → Move → Bool} (silent : Silent cache)
    (stepped : Stepped allowed cache next) : Stepped calm cache next := by
  cases stepped with
  | moved may taken => exact .moved (silent.calm_of_accepted (accepted_of_accept taken)) taken
  | advanced taken => exact .advanced taken

/-- In a history without a panicking listener the index outgrows the blocks only as far as it may.
The bound goes by the most blocks that were ever stored at a time, since the records of blocks that
are gone are cleared away late. -/
theorem Peaked.straysBounded {origin : Cache} {peak : Nat} (coherent : Coherent origin)
    (begins : StraysBounded 0 origin) (history : Peaked calm origin cache peak) :
    cache.size ≤ peak ∧ StraysBounded peak cache := by
  have more : ∀ {cache : Cache} {few many : Nat}, few ≤ many → StraysBounded few cache →
      StraysBounded many cache := by
    intro cache few many le bounded store is
    have known := bounded store is
    omega
  induction history with
  | origin => exact ⟨Nat.le_refl _, more (Nat.zero_le _) begins⟩
  | @step cache next peak earlier stepped ih =>
      have known := (coherent_kept calm).visited earlier.visited coherent
      have bounded := more (Nat.le_max_left peak next.size) ih.2
      refine ⟨Nat.le_max_right _ _, ?_⟩
      rcases stepped.listed with ⟨move, may, taken⟩ | taken
      · exact bounded.accepted may known.staged taken
      · exact bounded.advanced (Nat.le_max_right _ _) taken

theorem Peaked.calm_of_silent {allowed : Cache → Move → Bool} {origin : Cache} {peak : Nat}
    (silent : Silent origin) (history : Peaked allowed origin cache peak) :
    Peaked calm origin cache peak := by
  induction history with
  | origin => exact .origin
  | step earlier stepped ih =>
      exact .step ih (((silent_kept allowed).visited earlier.visited silent).stepped stepped)

/-- Without a listener, and whenever no call is under way, the index holds at most two records for
each of the most blocks that were ever stored at a time, the slack, and one record for each load
that was overtaken.  The last part cannot be left out, however few blocks are stored.  Nothing is
assumed of the clock or of loaders. -/
theorem index_bounded (budget : UInt64) (cache : Cache) (peak : Nat)
    (history : Peaked anyMove (start (.weighted (.empty budget)) .absent) cache peak)
    (idle : cache.stack = []) :
    ∃ store, cache.store = .weighted store ∧
      store.recency.size ≤ 2 * peak + WeightedStore.recencySlack + cache.overtakings := by
  have coherent := coherent_start (.weighted (.empty budget)) .absent rfl
  have begins : StraysBounded 0 (start (.weighted (.empty budget)) .absent) := by
    intro store is
    cases is
    have none : (WeightedStore.empty budget).strays = 0 := rfl
    omega
  have silent : Silent (start (.weighted (.empty budget)) .absent) := ⟨rfl, by simp [start]⟩
  have bounded := (history.calm_of_silent silent).straysBounded coherent begins
  have kind : cache.kind = .weighted :=
    ((limits_kept anyMove .weighted budget).visited history.visited ⟨coherent, rfl, rfl⟩).2.1
  cases is : cache.store with
  | simple store =>
      rw [Cache.kind, is] at kind
      cases kind
  | weighted store =>
      have known := bounded.2 store is
      have stored : store.entries.size ≤ peak := by
        have size := bounded.1
        rwa [Cache.size, is] at size
      simp only [due, idle, List.map_nil, List.sum_nil, WeightedStore.strays] at known
      exact ⟨store, rfl, by omega⟩

/-! ## Loads that are overtaken again and again -/

end Cache

def smallValue : Payload := .standIn 1 ""

namespace WeightedStore

variable {store : WeightedStore} {key : BlockKey} {records : Nat}

/-- Blocks that came into an empty store and went have left their records and nothing else. -/
theorem Strewn.nothing {budget : UInt64} (strewn : Strewn key records (empty budget) store) :
    store.entries = Table.empty :=
  congrArg entries strewn.same

theorem Strewn.size {budget : UInt64} (strewn : Strewn key records (empty budget) store) :
    store.recency.size = records := by
  rcases strewn.records with ⟨added, all, length, -⟩
  rw [Timeline.size, all]
  exact length

end WeightedStore

namespace Cache

open PendingLoad

variable {cache next : Cache}

/-- A history leads to this state and never stores more than so many blocks at a time. -/
def StaysWithin (origin : Cache) (bound : Nat) (cache : Cache) : Prop :=
  ∃ peak, Peaked anyMove origin cache peak ∧ peak ≤ bound

theorem StaysWithin.step {origin : Cache} {bound : Nat} (within : StaysWithin origin bound cache)
    (stepped : Stepped anyMove cache next) (size : next.size ≤ bound) :
    StaysWithin origin bound next := by
  rcases within with ⟨peak, history, most⟩
  exact ⟨_, history.step stepped, Nat.max_le.mpr ⟨most, size⟩⟩

/-- No call is under way and nothing is stored, and the index holds this many records.  All of them
are records of one key. -/
structure Littered (key : BlockKey) (records : Nat) (cache : Cache) : Prop where
  idle : cache.stack = []
  free : cache.loads.get? key = none
  silent : cache.listener = .absent
  holds : ∃ store, cache.store = .weighted store ∧
    WeightedStore.Strewn key records (.empty 100) store

/-- A load that is overtaken while its loader runs leaves a record behind and nothing else.  Only
one block is stored for a moment, so the bound on the blocks is not raised. -/
theorem Littered.again {origin : Cache} {key : BlockKey} {records : Nat}
    (littered : Littered key records cache) (few : records + 1 < 2 ^ 64)
    (stays : StaysWithin origin 1 cache) :
    ∃ next, Littered key (records + 1) next ∧ StaysWithin origin 1 next := by
  rcases cache with ⟨store, listener, loads, counters, stack, calls, journal⟩
  rcases littered with ⟨rfl, free, rfl, store, rfl, strewn⟩
  have empty := strewn.nothing
  have absent : store.entries.get? key = none := empty ▸ rfl
  have missing : (Store.weighted store).lookup? key = none := Store.lookup?_eq_none_iff.mpr absent
  have room : store.total + smallValue.weight ≤ store.budget := by
    rw [show store.total = 0 from congrArg WeightedStore.total strewn.same,
      show store.budget = 100 from congrArg WeightedStore.budget strewn.same]
    decide
  have within := WeightedStore.within_of_room absent room calls
  have more : (WeightedStore.empty 100).clock.toNat + (records + 1) < 2 ^ 64 := by
    have zero : (WeightedStore.empty 100).clock.toNat = 0 := rfl
    omega
  have nothing : store.entries.size ≤ 1 := empty ▸ Nat.zero_le 1
  have something : (store.insert key calls smallValue).entries.size ≤ 1 := by
    rw [WeightedStore.insert, empty]
    exact Nat.le_refl 1
  have made : (key, calls) ∈ leaders (loads.insert key ⟨calls, false, []⟩) := by
    rw [leaders, Table.rows_insert_of_get?_none free]
    simp
  have leads : (key, calls) ∈
      leaders (overtaken (loads.insert key ⟨calls, false, []⟩) (.exactly key)) := by
    rw [leaders_overtaken]
    exact made
  have opened := stays.step (.moved rfl (accept_of_accepted (.opened rfl missing))) nothing
  have claimed := opened.step (.moved rfl (accept_of_accepted (.claimed rfl free missing))) nothing
  have invalidated := claimed.step (.moved rfl (accept_of_accepted
    (@Accepted.nothingDropped _ key store rfl rfl (by simp [WeightedStore.remove?, absent]))))
    nothing
  have stored := invalidated.step (.moved rfl (accept_of_accepted
    (@Accepted.stored _ calls key [] smallValue store rfl rfl (Or.inl within))))
    something
  have stale : Marked (overtaken (loads.insert key ⟨calls, false, []⟩) (.exactly key)) key :=
    marked_overtaken_of_covers (by simp [Scope.covers]) made
  have retracted := stored.step (.advanced (advance_of_advanced
    (.retracted rfl ((isOvertaken_iff _ _).mpr stale) rfl
      (WeightedStore.taken_back absent calls smallValue)))) nothing
  have counted := retracted.step (.advanced (advance_of_advanced (.retractionCounted rfl))) nothing
  exact ⟨_, ⟨rfl, free_of_released leads, rfl, _, rfl, strewn.passed more⟩, counted⟩

/-- Any number of records can be left behind, up to what the clock can count, without two blocks
ever being stored at a time.  The index is not rebuilt on the way, for neither a load nor the
invalidation of a key without a block does so. -/
theorem littered_reachable (key : BlockKey) (records : Nat) (few : records < 2 ^ 64) :
    ∃ cache, Littered key records cache ∧
      StaysWithin (start (.weighted (.empty 100)) .absent) 1 cache := by
  induction records with
  | zero =>
      have store := @WeightedStore.Strewn.refl (.empty 100) key nofun
      exact ⟨_, ⟨rfl, rfl, rfl, _, rfl, store⟩, _, .origin, Nat.zero_le _⟩
  | succ records ih =>
      rcases ih (Nat.lt_of_succ_lt few) with ⟨cache, littered, within⟩
      exact littered.again few within

theorem index_bounded_littered :
    ∃ cache peak store,
      Peaked anyMove (start (.weighted (.empty 100)) .absent) cache peak ∧ peak ≤ 1 ∧
        cache.store = .weighted store ∧ store.recency.size = 100 ∧
        store.recency.size ≤ 2 * peak + WeightedStore.recencySlack + cache.overtakings := by
  rcases littered_reachable ⟨⟨0⟩, 0, 0, .index 1⟩ 100 (by decide) with
    ⟨cache, littered, peak, history, most⟩
  rcases index_bounded 100 cache peak history littered.idle with ⟨store, weighted, bounded⟩
  rcases littered.holds with ⟨other, same, strewn⟩
  rw [weighted] at same
  cases same
  exact ⟨cache, peak, store, history, most, weighted, strewn.size, bounded⟩

/-- Without overtaken loads two records for each block and the slack are enough; with them they are
not. -/
theorem index_overgrown :
    ∃ cache peak store,
      Peaked anyMove (start (.weighted (.empty 100)) .absent) cache peak ∧ cache.stack = [] ∧
        cache.store = .weighted store ∧
        2 * peak + WeightedStore.recencySlack < store.recency.size := by
  rcases littered_reachable ⟨⟨0⟩, 0, 0, .index 1⟩ 1027 (by decide) with
    ⟨cache, littered, peak, history, most⟩
  rcases littered.holds with ⟨store, weighted, strewn⟩
  refine ⟨cache, peak, store, history, littered.idle, weighted, ?_⟩
  rw [strewn.size, WeightedStore.recencySlack]
  omega

end Cache
end VolumeCache
