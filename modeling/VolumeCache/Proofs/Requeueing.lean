import VolumeCache.Proofs.Evictions
import VolumeCache.Proofs.Examinations
import VolumeCache.Proofs.IndexSize
import VolumeCache.Proofs.Mirroring

namespace VolumeCache

/-!
# Records that come back

An eviction pass takes a record out of the index and may put one in again, at the time at which the
block was last used.  That it puts it in the place of no other block's record is a matter of the
index, which is in order in every state, those in the middle of a pass and after a panic included,
as long as the clock has not wrapped.  That the pass ends is not: whatever the clock has done, a
record that comes back is up to date, and the next time it is examined its block goes.

How a pass ends is again a matter of the index.  A block that has lost its record to another one is
never found, so once the clock has wrapped a pass may use up all records and leave the weight above
the budget; a run that leads there is given at the end.
-/

/-! ## The index in every state -/

/-- A record that is not up to date may come back; the records of other blocks stay as they are.
The time at which it comes back is free, or has a record of the same block. -/
theorem WeightedStore.Indexed.keeps_others {store left : WeightedStore} {tick : UInt64}
    {key : BlockKey} {later : List (UInt64 × BlockKey)} (indexed : Indexed store)
    (records : store.recency.records = (tick, key) :: later)
    (first : store.examine = .outdated left) {record : UInt64 × BlockKey}
    (member : record ∈ later) (other : record.2 ≠ key) : record ∈ left.recency.records := by
  rcases examine_eq_outdated first with ⟨earliest, front, rest, popped, stands⟩
  have whole := records.symm.trans (Timeline.popFirst?_eq_some popped)
  rw [List.cons.injEq, Prod.mk.injEq] at whole
  obtain ⟨⟨rfl, rfl⟩, rfl⟩ := whole
  rcases stands with ⟨-, rfl⟩ | ⟨block, held, -, rfl⟩
  · exact member
  · refine Timeline.mem_records_insert.mpr (Or.inr ⟨member, fun same => ?_⟩)
    -- A record at the time of the block's last use would be that block's own.
    have recorded : (block.lastAccess, record.2) ∈ store.recency.records :=
      records ▸ same ▸ List.mem_cons_of_mem _ member
    exact other (indexed.own (lastUse?_of_get? held) recorded)

namespace Cache

/-- In every state of every run, whatever loaders and listeners do, and before the clock wraps: the
clock has counted the accesses, the index is in order, and if the record in front is not up to date,
no other block loses a record over it. -/
theorem index_in_order (budget : UInt64) (listener : Listener) {cache : Cache}
    (visited : Visited anyMove (start (.weighted (.empty budget)) listener) cache)
    (few : cache.accesses < 2 ^ 64) :
    ∃ store, cache.store = .weighted store ∧ store.clock.toNat = cache.accesses ∧
      store.Indexed ∧
      ∀ tick key later left, store.recency.records = (tick, key) :: later →
        store.examine = .outdated left →
        ∀ record ∈ later, record.2 ≠ key → record ∈ left.recency.records := by
  have coherent := coherent_start (.weighted (.empty budget)) listener rfl
  have kind := ((limits_kept anyMove .weighted budget).visited visited ⟨coherent, rfl, rfl⟩).2.1
  have known := (stamped_kept anyMove).visited visited
    ⟨⟨coherent, fun _ => ⟨WeightedStore.indexed_empty budget, Nat.zero_le _⟩⟩,
      fun _ => WeightedStore.stamped_empty budget⟩
  have indexed := known.1.2 few
  have stamped := known.2 few
  cases weighted : cache.store with
  | simple store => exact absurd weighted (not_simple kind store)
  | weighted store =>
      rw [weighted] at indexed stamped
      refine ⟨store, rfl, stamped.clock.trans cache.length_uses, indexed.1, ?_⟩
      intro tick key later left records first record member other
      exact indexed.1.keeps_others records first member other

/-- A listener panics while it is told that the second block was evicted, and the store is left
above its budget with a record of the first block that has come back.  A load of the second block
evicts the first one, and the listener that is told of it finds the third one. -/
def disarranged : Cache :=
  reached anyMove (start (.weighted (.empty 10)) .interactive)
    (loadMoves ⟨⟨0⟩, 0, 0, .index 1⟩ (.standIn 4 "")
      ++ loadMoves ⟨⟨0⟩, 0, 0, .index 2⟩ (.standIn 4 "")
      ++ [.begin (.find ⟨⟨0⟩, 0, 0, .index 1⟩)]
      ++ loadMoves ⟨⟨0⟩, 0, 0, .index 3⟩ (.standIn 8 "")
      ++ [.listenerPanics ""]
      ++ loadMoves ⟨⟨0⟩, 0, 0, .index 2⟩ (.standIn 1 "")
      ++ [.begin (.find ⟨⟨0⟩, 0, 0, .index 3⟩)])

theorem index_in_order_disarranged :
    Visited anyMove (start (.weighted (.empty 10)) .interactive) disarranged ∧
      disarranged.isSettled = true ∧ disarranged.store.evicting = true ∧
      disarranged.size = 2 ∧ disarranged.accesses = 6 ∧
      ∃ store, disarranged.store = .weighted store ∧ store.clock.toNat = 6 ∧ store.Indexed := by
  have visited : Visited anyMove (start (.weighted (.empty 10)) .interactive) disarranged :=
    .of_run (run_reached (by decide +kernel))
  have accesses : disarranged.accesses = 6 := by decide +kernel
  rcases index_in_order 10 .interactive visited (by decide +kernel) with
    ⟨store, weighted, clock, indexed, -⟩
  exact ⟨visited, by decide +kernel, by decide +kernel, by decide +kernel, accesses, store,
    weighted, clock.trans accesses, indexed⟩

end Cache

/-! ## How long a pass can be -/

namespace WeightedStore

variable {store left : WeightedStore}

/-- The record does not tell the last use of a stored block. -/
def isOutdated (store : WeightedStore) (record : UInt64 × BlockKey) : Bool :=
  store.lastUse? record.2 != some record.1

/-- How many records a pass can still examine: those that are not up to date, and one of the last
use of each block.  A record that comes back is up to date, so it goes from the first kind to the
second and never back. -/
def examinable (store : WeightedStore) : Nat :=
  store.recency.records.countP store.isOutdated + store.entries.size

theorem examinable_le (store : WeightedStore) :
    store.examinable ≤ store.recency.size + store.entries.size :=
  Nat.add_le_add_right List.countP_le_length _

/-- A record that is not up to date is gone, or is up to date when it comes back. -/
theorem examinable_outdated (first : store.examine = .outdated left) :
    left.examinable < store.examinable := by
  rcases examine_eq_outdated first with
    ⟨tick, key, rest, popped, ⟨absent, rfl⟩ | ⟨block, held, changed, rfl⟩⟩
  · have outdated : store.isOutdated (tick, key) = true := by
      simp [isOutdated, lastUse?, absent]
    unfold examinable
    rw [Timeline.popFirst?_eq_some popped, List.countP_cons_of_pos outdated]
    change rest.records.countP store.isOutdated + store.entries.size < _
    omega
  · have used := lastUse?_of_get? held
    have outdated : store.isOutdated (tick, key) = true := by
      simpa [isOutdated, used] using changed
    have current : store.isOutdated (block.lastAccess, key) = false := by
      simp [isOutdated, used]
    have fewer := Timeline.countP_place_le current rest.records
    unfold examinable
    rw [Timeline.popFirst?_eq_some popped, List.countP_cons_of_pos outdated]
    change (Timeline.place _ _ _).countP store.isOutdated + store.entries.size < _
    omega

/-- With a block there is one last use less to be examined. -/
theorem examinable_evicted {key : BlockKey} {block : CachedBlock}
    (first : store.examine = .evicted left key block) : left.examinable < store.examinable := by
  rcases examine_eq_evicted first with ⟨rest, popped, held, rfl⟩
  have blocks := Table.size_erase held
  -- Other records of the block were out of date before it went.
  have fewer : rest.records.countP (discard { store with recency := rest } key block).isOutdated ≤
      rest.records.countP store.isOutdated := by
    apply List.countP_mono_left
    intro record member outdated
    have later := Timeline.first_lt_of_popFirst? popped member
    have uses := lastUse?_discard { store with recency := rest } key record.2 block
    unfold isOutdated at outdated ⊢
    by_cases same : record.2 = key
    · rw [same, lastUse?_of_get? held]
      simpa using UInt64.ne_of_lt later
    · rw [uses, if_neg same] at outdated
      exact outdated
  unfold examinable
  rw [Timeline.popFirst?_eq_some popped, List.countP_cons]
  change rest.records.countP _ + (store.entries.erase key).size < _
  omega

end WeightedStore

namespace Drained

variable {store final : WeightedStore} {examined : Nat} {blocks : List (BlockKey × CachedBlock)}

theorem examined_le (drained : Drained store examined blocks final) :
    examined ≤ store.examinable := by
  induction drained with
  | ended => exact Nat.zero_le _
  | outdated _ first _ ih => exact Nat.lt_of_le_of_lt ih (WeightedStore.examinable_outdated first)
  | evicted _ first _ ih => exact Nat.lt_of_le_of_lt ih (WeightedStore.examinable_evicted first)

/-- What upkeep leaves intact a pass leaves intact.  The property may be any property of stores; it
need not hold anywhere. -/
theorem keeps {holds : Store → Prop} (drained : Drained store examined blocks final)
    (kept : ∀ {before after}, Store.Changed before .upkeep after → holds before → holds after)
    (before : holds (.weighted store)) : holds (.weighted final) := by
  induction drained with
  | ended => exact before
  | outdated _ first _ ih => exact ih (kept (.outdated first) before)
  | evicted _ first _ ih => exact ih (kept (.evicted first) before)

/-- A pass ends because the weight fits the budget or because no record is left.  In the second case
there may still be blocks, if the index is not in order. -/
theorem done (drained : Drained store examined blocks final) :
    final.overBudget = false ∨ final.examine = .exhausted := by
  induction drained with
  | ended done => exact done
  | outdated _ _ _ ih | evicted _ _ _ ih => exact ih

/-- With the index in order the weight fits the budget at the end, for without records there are no
blocks; and if the weights of the blocks summed up to a word, so do those of the blocks left, and
fit the budget, too.  If that sum has wrapped, only the word is said to fit. -/
theorem fits {accesses : Nat} (drained : Drained store examined blocks final)
    (indexed : (Store.weighted store).Indexed accesses) (few : accesses < 2 ^ 64)
    (weighed : (Store.weighted store).Weighed) :
    final.total ≤ store.budget ∧ (weightOf (holdingsOf store.entries) < 2 ^ 64 →
      weightOf (holdingsOf final.entries) ≤ store.budget.toNat) := by
  have budget : final.budget = store.budget := by
    change (Store.weighted final).budget = store.budget
    exact drained.keeps (fun changed before => changed.budget.trans before) rfl
  have total : final.total = UInt64.ofNat (weightOf (holdingsOf final.entries)) :=
    drained.keeps (fun changed before => changed.weighed before) weighed
  have less : weightOf (Store.weighted final).holdings ≤ weightOf (holdingsOf store.entries) :=
    drained.keeps (fun changed before => Nat.le_trans changed.weightOf_le before) (Nat.le_refl _)
  have within : final.total ≤ store.budget := by
    rcases drained.done with within | exhausted
    · simpa [WeightedStore.overBudget, UInt64.not_lt, budget] using within
    · have ordered := drained.keeps
        (fun changed before => changed.indexed before (Nat.le_refl _) few) indexed
      rw [total, ordered.1.entries_of_exhausted exhausted]
      exact UInt64.zero_le
  refine ⟨within, fun light => ?_⟩
  rw [← toNat_of_word total (Nat.lt_of_le_of_lt less light)]
  exact UInt64.le_iff_toNat_le.mp within

end Drained

/-! ## Passes that nothing disturbs -/

namespace Cache

/-- What comes next with a listener that neither begins a call nor panics: a step of the cache, or
the return of the listener.  There is nothing to choose, so a pass that goes on in this way has one
course. -/
def proceed (cache : Cache) : Option Cache :=
  match cache.stack with
  | .listening _ :: _ => cache.accept .listenerReturns
  | _ => cache.advance

def proceedBy : Nat → Cache → Option Cache
  | 0, cache => some cache
  | steps + 1, cache => cache.proceed.bind (proceedBy steps)

variable {cache next : Cache}

theorem proceed_of_advanced (taken : Advanced cache next) : cache.proceed = some next := by
  have step := advance_of_advanced taken
  unfold proceed
  split
  · rename_i top
    rw [advance_of_isSettled (by rw [isSettled_eq, top]; rfl)] at step
    cases step
  · exact step

theorem proceedBy_of_advanced (taken : Advanced cache next) (steps : Nat) :
    cache.proceedBy (steps + 1) = next.proceedBy steps := by
  rw [proceedBy, proceed_of_advanced taken, Option.bind_some]

/-- A report costs one return at most, and leads to where it began. -/
theorem proceedBy_of_reported {removal : Removal} {below : List Frame}
    (reports : cache.stack = cache.listener.running removal ++ below) (steps : Nat) :
    ∃ more, more ≤ steps + 1 ∧
      cache.proceedBy more = { cache with stack := below }.proceedBy steps := by
  rcases cache with ⟨store, listener, loads, counters, stack, calls, journal⟩
  cases listener with
  | absent | recording =>
      cases reports
      exact ⟨steps, Nat.le_succ _, rfl⟩
  | interactive =>
      cases reports
      exact ⟨steps + 1, Nat.le_refl _, rfl⟩

/-- A pass goes on to its end: it examines what is to be examined, and the end of the load is
next. -/
theorem proceeds_drained {store final : WeightedStore} {count : Nat}
    {blocks : List (BlockKey × CachedBlock)} (drained : Drained store count blocks final)
    {cache : Cache} {admission : Admission} {examined evicted : Nat} {rest : List Frame}
    (weighted : cache.store = .weighted store)
    (top : cache.stack = .evicting admission examined evicted :: rest) :
    ∃ steps counters journal, steps ≤ 2 * count + 1 ∧
      cache.proceedBy steps = some { cache with
        store := .weighted { final with evicting := false }
        stack := .concluding admission :: rest
        counters := counters
        journal := journal } ∧
      journal.countP Event.isExamination = cache.recordsExamined + count := by
  induction drained generalizing cache examined evicted with
  | @ended store done =>
      refine ⟨1, _, _, Nat.le_refl _, proceedBy_of_advanced (.passEnded top weighted done) 0, ?_⟩
      have silent : (passNotice store examined evicted).countP Event.isExamination = 0 := by
        unfold passNotice
        split <;> rfl
      rw [List.countP_append, silent, Nat.zero_add]
      rfl
  | @outdated store left final count blocks heavy first _ ih =>
      rcases @ih { cache with
        store := .weighted left
        stack := .evicting admission (examined + 1) evicted :: rest
        journal := .examined :: cache.journal } _ _ rfl rfl with
        ⟨steps, counters, journal, bound, leads, counted⟩
      refine ⟨steps + 1, counters, journal, by omega, ?_, ?_⟩
      · rw [proceedBy_of_advanced (.outdated top weighted heavy first)]
        exact leads
      · rw [counted, recordsExamined, List.countP_cons_of_pos rfl]
        exact Nat.succ_add_eq_add_succ _ _
  | @evicted store left final key block count blocks heavy first _ ih =>
      rcases @ih { cache with
        store := .weighted left
        stack := .evicting admission (examined + 1) (evicted + 1) :: rest
        journal := cache.listener.told ⟨key, block, .size⟩
          ++ .removed ⟨key, block, .size⟩ :: .examined :: cache.journal } _ _ rfl rfl with
        ⟨steps, counters, journal, bound, leads, counted⟩
      have step := Advanced.evicted top weighted heavy first
      rcases @proceedBy_of_reported { cache with
        store := .weighted left
        stack := cache.listener.running ⟨key, block, .size⟩
          ++ .evicting admission (examined + 1) (evicted + 1) :: rest
        journal := cache.listener.told ⟨key, block, .size⟩
          ++ .removed ⟨key, block, .size⟩ :: .examined :: cache.journal } _ _ rfl steps with
        ⟨more, atMost, same⟩
      refine ⟨more + 1, counters, journal, by omega, ?_, ?_⟩
      · rw [proceedBy_of_advanced step, same]
        exact leads
      · have silent : (cache.listener.told ⟨key, block, .size⟩).countP Event.isExamination = 0 := by
          simp [Event.isExamination]
        rw [counted, recordsExamined, List.countP_append, silent, Nat.zero_add,
          List.countP_cons_of_neg Bool.false_ne_true, List.countP_cons_of_pos rfl]
        exact Nat.succ_add_eq_add_succ _ _

/-! ## Where a pass begins -/

/-- A pass over a weighted store begins if the store is over its budget and no pass is under way.
Otherwise, and in a simple store, the end of the load is next. -/
def evictIfNeeded (cache : Cache) (admission : Admission) : Cache :=
  match cache.store with
  | .weighted store =>
      if store.overBudget && !store.evicting then
        { cache with store := .weighted { store with evicting := true } }.push
          (.evicting admission 0 0)
      else cache.push (.concluding admission)
  | .simple _ => cache.push (.concluding admission)

/-- A loader has returned a value, which is stored, and nothing else has been done yet.  In a run
this state is passed through in the middle of a move, so it is not among those visited. -/
def brought (cache : Cache) (store : WeightedStore) (rest : List Frame) (call : Nat)
    (key : BlockKey) (payload : Payload) : Cache :=
  { cache with
    store := .weighted (store.insert key call payload)
    stack := rest
    counters := cache.counters.recordLoad true
    journal := .loaded call key payload :: cache.journal }

section Brought

variable {store : WeightedStore} {rest : List Frame} {call : Nat} {key : BlockKey}

theorem accesses_brought (payload : Payload) :
    (cache.brought store rest call key payload).accesses = cache.accesses + 1 :=
  List.countP_cons_of_pos rfl

theorem recordsExamined_brought (payload : Payload) :
    (cache.brought store rest call key payload).recordsExamined = cache.recordsExamined :=
  List.countP_cons_of_neg Bool.false_ne_true

theorem weight_brought (absent : store.entries.get? key = none) (payload : Payload) :
    (cache.brought store rest call key payload).weight = store.total + payload.weight := by
  simp [brought, weight, Store.weight, WeightedStore.insert, absent]

theorem heldWeight_brought (absent : store.entries.get? key = none) (payload : Payload) :
    (cache.brought store rest call key payload).heldWeight =
      weightOf (holdingsOf store.entries) + payload.weight.toNat := by
  rw [heldWeight_eq]
  change weightOf (holdingsOf (store.insert key call payload).entries) = _
  rw [WeightedStore.insert_holdings absent, weightOf_append]
  rfl

end Brought

/-- What a loader has returned is stored, and the store is then evicted from if need be.  So this is
the one place in which a pass is called for in a run. -/
theorem accept_loaderReturns {store : WeightedStore} {rest : List Frame} {call : Nat}
    {key : BlockKey} (weighted : cache.store = .weighted store)
    (top : cache.stack = .loading call key :: rest) (payload : Payload) :
    cache.accept (.loaderReturns payload) =
      some ((cache.brought store rest call key payload).evictIfNeeded ⟨call, key, payload⟩) := by
  rcases cache with ⟨_, listener, loads, counters, _, calls, journal⟩
  cases weighted
  cases top
  rfl

/-- The states in which a pass can be called for: those that a run passes through, and those in
which a value has just been stored.  The latter come between two states of a run, and a pass is in
fact called for in them only. -/
inductive Poised (origin : Cache) : Cache → Prop
  | visited {cache : Cache} (visited : Visited anyMove origin cache) : Poised origin cache
  | brought {cache : Cache} {store : WeightedStore} {rest : List Frame} {call : Nat}
      {key : BlockKey} (visited : Visited anyMove origin cache)
      (weighted : cache.store = .weighted store)
      (top : cache.stack = .loading call key :: rest) (payload : Payload) :
      Poised origin (cache.brought store rest call key payload)

theorem Poised.known {budget : UInt64} {listener : Listener}
    (poised : Poised (start (.weighted (.empty budget)) listener) cache) :
    cache.budget = budget ∧ cache.store.Weighed ∧ Indexed cache := by
  have coherent := coherent_start (.weighted (.empty budget)) listener rfl
  have known : ∀ {cache}, Visited anyMove (start (.weighted (.empty budget)) listener) cache →
      cache.budget = budget ∧ Charged cache ∧ Indexed cache := fun visited =>
    ⟨((limits_kept anyMove .weighted budget).visited visited ⟨coherent, rfl, rfl⟩).2.2,
      (charged_kept anyMove).visited visited (charged_start budget listener),
      ((indexed_kept anyMove).visited visited
        ⟨coherent, fun _ => ⟨WeightedStore.indexed_empty budget, Nat.zero_le _⟩⟩).2⟩
  cases poised with
  | visited visited =>
      rcases known visited with ⟨isBudget, charged, indexed⟩
      exact ⟨isBudget, charged.weighed, indexed⟩
  | @brought cache store rest call key visited weighted top payload =>
      rcases known visited with ⟨isBudget, charged, indexed⟩
      have absent := charged.coherent.staged.absent_weighted top weighted
      have changed : Store.Changed cache.store (.admission payload)
          (cache.brought store rest call key payload).store :=
        weighted ▸ Store.Changed.admitted absent
      exact ⟨changed.budget.trans isBudget, changed.weighed charged.weighed,
        indexed.changed changed (Nat.le_of_eq (accesses_brought payload).symm)⟩

/-- A pass that is called for comes to its end, if it begins at all.  Neither the index nor the
weights need be in order for this. -/
theorem proceeds_evictIfNeeded {store : WeightedStore} (weighted : cache.store = .weighted store)
    (free : store.evicting = false) (admission : Admission) :
    ∃ count blocks left steps counters journal,
      Drained { store with evicting := true } count blocks left ∧ steps ≤ 2 * count + 1 ∧
        (cache.evictIfNeeded admission).proceedBy steps = some { cache with
          store := .weighted { left with evicting := false }
          stack := .concluding admission :: cache.stack
          counters := counters
          journal := journal } ∧
        journal.countP Event.isExamination = cache.recordsExamined + count := by
  rcases cache with ⟨_, listener, loads, counters, stack, calls, journal⟩
  cases weighted
  cases heavy : store.overBudget with
  | false =>
      have same : { store with evicting := false } = store :=
        congrArg (fun evicting => { store with evicting := evicting }) free.symm
      refine ⟨0, [], _, 0, counters, journal, .ended (Or.inl heavy), Nat.zero_le _, ?_, rfl⟩
      simp [evictIfNeeded, heavy, proceedBy, push, same]
  | true =>
      rcases drained_exists { store with evicting := true } with ⟨count, blocks, left, drained⟩
      rcases @proceeds_drained _ _ _ _ drained ⟨.weighted { store with evicting := true },
        listener, loads, counters, .evicting admission 0 0 :: stack, calls, journal⟩ _ 0 0 _ rfl rfl
        with ⟨steps, tally, said, bound, leads, counted⟩
      refine ⟨count, blocks, left, steps, tally, said, drained, bound, ?_, counted⟩
      simpa [evictIfNeeded, heavy, free, push] using leads

/-- Whatever state a pass over the index is called for in, if none is under way: with a listener
that neither begins a call nor panics it comes to an end, after no more examinations than there
were records and blocks when it began, and after no more than two steps for each of them and one.
As long as the clock has not wrapped, the weight then fits the budget, and so do the weights of the
blocks if their sum was a word at the beginning. -/
theorem eviction_pass_ends (budget : UInt64) (listener : Listener) {cache : Cache}
    {store : WeightedStore}
    (poised : Poised (start (.weighted (.empty budget)) listener) cache)
    (weighted : cache.store = .weighted store) (free : store.evicting = false)
    (admission : Admission) :
    ∃ examined steps final left,
      (cache.evictIfNeeded admission).proceedBy steps = some final ∧
        final.stack = .concluding admission :: cache.stack ∧
        final.store = .weighted left ∧ left.evicting = false ∧
        final.recordsExamined = cache.recordsExamined + examined ∧
        examined ≤ store.recency.size + store.entries.size ∧ steps ≤ 2 * examined + 1 ∧
        (cache.accesses < 2 ^ 64 → final.weight ≤ budget ∧
          (cache.heldWeight < 2 ^ 64 → final.heldWeight ≤ budget.toNat)) := by
  rcases proceeds_evictIfNeeded weighted free admission with
    ⟨count, blocks, left, steps, counters, journal, drained, bound, leads, counted⟩
  have examined : count ≤ store.recency.size + store.entries.size :=
    drained.examined_le.trans (WeightedStore.examinable_le _)
  refine ⟨count, steps, _, _, leads, rfl, rfl, rfl, counted, examined, bound, fun few => ?_⟩
  rcases poised.known with ⟨isBudget, weighed, indexed⟩
  have ordered := indexed few
  rw [weighted] at weighed ordered
  rw [Cache.budget, weighted] at isBudget
  have flagged : Store.Indexed cache.accesses (.weighted { store with evicting := true }) :=
    ⟨ordered.1.flagged true, ordered.2⟩
  have fits := drained.fits flagged few weighed
  refine ⟨isBudget ▸ fits.1, fun light => ?_⟩
  rw [heldWeight_eq, Store.holdings_weighted weighted] at light
  rw [heldWeight_eq]
  exact isBudget ▸ fits.2 light

/-- A listener panics while it is told of an eviction, and what is left is above the budget; then
the first block is found, so that its record, which has come back once, is out of date again.  In
the end a fourth block is being loaded. -/
def unfinished : Cache :=
  reached anyMove (start (.weighted (.empty 10)) .interactive)
    (loadMoves (.nth 1) (.standIn 4 "") ++ loadMoves (.nth 2) (.standIn 4 "")
      ++ [.begin (.find (.nth 1))] ++ loadMoves (.nth 3) (.standIn 8 "")
      ++ [.listenerPanics "", .begin (.find (.nth 1)), .begin (.load (.nth 4)), .claim])

def arriving : Admission :=
  ⟨5, .nth 4, .standIn 6 ""⟩

theorem eviction_pass_ends_unfinished :
    Visited anyMove (start (.weighted (.empty 10)) .interactive) unfinished ∧
      unfinished.weight = 12 ∧ unfinished.recordsExamined = 2 ∧
      ∃ cache store examined steps final,
        unfinished.accept (.loaderReturns arriving.value) = some (cache.evictIfNeeded arriving) ∧
        Poised (start (.weighted (.empty 10)) .interactive) cache ∧
        cache.store = .weighted store ∧ store.evicting = false ∧ cache.weight = 18 ∧
        (cache.evictIfNeeded arriving).proceedBy steps = some final ∧
        final.stack = [.concluding arriving] ∧ final.recordsExamined = 2 + examined ∧
        examined ≤ store.recency.size + store.entries.size ∧ steps ≤ 2 * examined + 1 ∧
        final.weight ≤ 10 ∧ final.heldWeight ≤ 10 := by
  have visited : Visited anyMove (start (.weighted (.empty 10)) .interactive) unfinished :=
    .of_run (run_reached (by decide +kernel))
  have kind : unfinished.kind = .weighted := by decide +kernel
  have free : unfinished.store.evicting = false := by decide +kernel
  have top : unfinished.stack = [.loading arriving.call arriving.key] := by decide +kernel
  have absent : unfinished.store.entries.get? arriving.key = none := by decide +kernel
  have worked : unfinished.recordsExamined = 2 := by decide +kernel
  have weight : unfinished.store.weight = 12 := by decide +kernel
  have held : weightOf unfinished.store.holdings = 12 := by decide +kernel
  have accesses : unfinished.accesses = 5 := by decide +kernel
  refine ⟨visited, weight, worked, ?_⟩
  cases weighted : unfinished.store with
  | simple store => exact absurd weighted (not_simple kind store)
  | weighted store =>
      rw [weighted] at free absent weight held
      have poised := Poised.brought visited weighted top arriving.value
      rcases eviction_pass_ends 10 .interactive poised rfl free arriving with
        ⟨examined, steps, final, left, leads, stack, -, -, counted, few, bound, fits⟩
      rw [recordsExamined_brought, worked] at counted
      have within := fits (by rw [accesses_brought, accesses]; decide)
      have light : weightOf (holdingsOf store.entries) + arriving.value.weight.toNat = 18 :=
        congrArg (· + 6) held
      have sum : store.total + arriving.value.weight = 18 := congrArg (· + 6) weight
      refine ⟨_, _, examined, steps, final, accept_loaderReturns weighted top arriving.value,
        poised, rfl, free, (weight_brought absent _).trans sum, leads, stack, counted, few, bound,
        within.1, within.2 ?_⟩
      rw [heldWeight_brought absent, light]
      decide

/-! ## Once the clock has wrapped -/

/-- Two blocks fill the budget, the second one is found once and the first one this many times.  A
load that is overtaken takes the place of the first block's record, and the block is found again.
In the end a fourth block is being loaded. -/
def recordLost (times : Nat) : List Move :=
  loadMoves (.nth 1) (.standIn 6 "") ++ loadMoves (.nth 2) (.standIn 4 "")
    ++ [.begin (.find (.nth 2))] ++ List.replicate times (.begin (.find (.nth 1)))
    ++ overtakenMoves (.nth 3) (.standIn 0 "") ++ [.begin (.find (.nth 1))]
    ++ [.begin (.load (.nth 4)), .claim]

/-- The clock has come to two again, and none of the records is the first block's. -/
def fullUnrecorded : WeightedStore :=
  ({ WeightedStore.full.used (.nth 2) with
      clock := 0
      entries := (WeightedStore.full.used (.nth 2)).entries.modify (.nth 1) (·.touch largestWord)
    }.passed (.nth 3)).used (.nth 1)

theorem turns_recordLost (times : Nat) (wraps : times + 3 = 2 ^ 64) :
    ∃ call uses, Turns (recordLost times) (start (.weighted (.empty 10)) .absent).standing
      { store := .weighted fullUnrecorded
        loads := Table.empty.insert (.nth 4) ⟨call, false, []⟩
        stack := [.loading call (.nth 4)]
        calls := call + 1
        uses := uses
        victims := [] } := by
  have wrapped : (fun store => store.used (.nth 1))^[times] (WeightedStore.full.used (.nth 2)) =
      { WeightedStore.full.used (.nth 2) with
        clock := 0
        entries :=
          (WeightedStore.full.used (.nth 2)).entries.modify (.nth 1) (·.touch largestWord) } := by
    obtain ⟨count, rfl⟩ : ∃ count, times = count + 2 := ⟨times - 2, by omega⟩
    have clock : (WeightedStore.full.used (.nth 2)).clock.toNat = 3 := rfl
    exact WeightedStore.iterate_used_wrapped (by omega)
  have light : 10 < 2 ^ 64 := by decide
  have stored : Turns (_ ++ [.begin (.find (.nth 2))])
      (start (.weighted (.empty 10)) .absent).standing
      ⟨.weighted (WeightedStore.full.used (.nth 2)), Table.empty, [], 3,
        [.nth 2, .nth 2, .nth 1], []⟩ := turns_full.trans (turns_find rfl)
  have found := stored.trans (turns_finds (.nth 1) rfl times)
  simp only [Store.iterate_used_weighted, wrapped] at found
  have lost := found.trans (@turns_overtaken_load _ (.nth 3) (.standIn 0 "") _ rfl rfl rfl rfl
    (by exact light))
  exact ⟨_, _, (lost.trans (turns_find rfl)).trans (turns_start rfl rfl)⟩

/-- The fourth block has come in, and these records are left. -/
def overweight (call : Nat) (recency : Timeline BlockKey) : WeightedStore :=
  { fullUnrecorded.insert (.nth 4) call (.standIn 6 "") with
    recency := recency
    evicting := true }

/-- The record of the second block comes back in the place of the fourth block's.  When it has been
examined again, the second block is gone and so are the records. -/
theorem drained_overweight (call : Nat) : ∃ final,
    Drained { fullUnrecorded.insert (.nth 4) call (.standIn 6 "") with evicting := true } 3
      [(.nth 2, ⟨.standIn 4 "", 3, 1⟩)] final ∧
      final.total = 12 ∧ final.recency.size = 0 ∧ final.entries.keys = [.nth 1, .nth 4] := by
  have dropped : (overweight call
      ⟨[(1, .nth 3), (2, .nth 2), (3, .nth 4)], by decide⟩).examine =
      .outdated (overweight call ⟨[(2, .nth 2), (3, .nth 4)], by decide⟩) := by
    with_unfolding_all rfl
  have returned : (overweight call ⟨[(2, .nth 2), (3, .nth 4)], by decide⟩).examine =
      .outdated (overweight call ⟨[(3, .nth 2)], by simp⟩) := by
    with_unfolding_all rfl
  have evicted : (overweight call ⟨[(3, .nth 2)], by simp⟩).examine =
      .evicted ((overweight call Timeline.empty).discard (.nth 2) ⟨.standIn 4 "", 3, 1⟩)
        (.nth 2) ⟨.standIn 4 "", 3, 1⟩ := by
    with_unfolding_all rfl
  exact ⟨_, .outdated rfl dropped (.outdated rfl returned
      (.evicted rfl evicted (.ended (.inr rfl)))),
    by with_unfolding_all rfl, rfl, by with_unfolding_all rfl⟩

/-- Without the bound on the clock a pass may end above the budget.  No pass is under way and
nobody listens, the weights of the blocks sum up to a word, and a load has just stored its value;
yet the pass that is called for leaves two blocks, a weight above the budget and no record. -/
theorem pass_ends_overweight : ∃ loading cache store call steps final left,
    Run anyMove (start (.weighted (.empty 10)) .absent) (recordLost (2 ^ 64 - 3)) loading ∧
      loading.accept (.loaderReturns (.standIn 6 "")) =
        some (cache.evictIfNeeded ⟨call, .nth 4, .standIn 6 ""⟩) ∧
      Poised (start (.weighted (.empty 10)) .absent) cache ∧
      cache.store = .weighted store ∧ store.evicting = false ∧ cache.heldWeight = 16 ∧
      (cache.evictIfNeeded ⟨call, .nth 4, .standIn 6 ""⟩).proceedBy steps = some final ∧
      final.stack = [.concluding ⟨call, .nth 4, .standIn 6 ""⟩] ∧
      final.store = .weighted left ∧ left.recency.size = 0 ∧
      left.entries.keys = [.nth 1, .nth 4] ∧ final.weight = 12 := by
  rcases turns_recordLost (2 ^ 64 - 3) rfl with ⟨call, uses, turns⟩
  rcases turns _ (atRest_start rfl) rfl with ⟨loading, ran, -, stands⟩
  have run : Run anyMove (start (.weighted (.empty 10)) .absent) (recordLost (2 ^ 64 - 3))
      loading := ran.weaken fun _ _ _ => rfl
  have weighted : loading.store = .weighted fullUnrecorded := congrArg Standing.store stands
  have top : loading.stack = [.loading call (.nth 4)] := congrArg Standing.stack stands
  rcases drained_overweight call with ⟨left, drained, total, records, keys⟩
  let cache := loading.brought fullUnrecorded [] call (.nth 4) (.standIn 6 "")
  rcases @proceeds_drained _ _ _ _ drained (cache.evictIfNeeded ⟨call, .nth 4, .standIn 6 ""⟩) _ 0 0
    [] rfl rfl with ⟨steps, counters, journal, -, leads, -⟩
  exact ⟨loading, cache, _, call, steps, _, _, run, accept_loaderReturns weighted top _,
    .brought (.of_run run) weighted top _, rfl, rfl, heldWeight_brought rfl _, leads, rfl, rfl,
    records, keys, total⟩

end Cache
end VolumeCache
