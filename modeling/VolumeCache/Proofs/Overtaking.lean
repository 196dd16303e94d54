import VolumeCache.Proofs.Weights

namespace VolumeCache
namespace Cache

/-!
# Invalidations and running loads

An invalidation that begins after a load has claimed its key must not be survived by the value of
that load.  It may fall anywhere: before the value is stored, between the storing and the check
that follows it, or after the load is over.  The load is marked in the first two cases, and the
block is taken out, or put on the list of a sweep, in the last two.  Nothing is assumed about
weights or limits; a listener that panics could leave a sweep before its list is done.
-/

open PendingLoad

/-- The invalidation covers the key and began after the load had claimed it.  The latest event of a
journal stands first.  Whether the load was still running then is not asked; nor is whether the
invalidation has come to its end. -/
def Overtakes (cache : Cache) (invalidation : Nat) (scope : Scope) (load : Nat) (key : BlockKey) :
    Prop :=
  scope.covers key = true ∧
    [.began invalidation (.invalidate scope), .claimed load key].Sublist cache.journal

theorem cons_sublist_cons_iff {first event : Event} {others earlier : List Event} :
    (event :: others).Sublist (first :: earlier) ↔
      (event :: others).Sublist earlier ∨ (event = first ∧ others.Sublist earlier) := by
  rw [List.sublist_cons_iff]
  refine or_congr_right ⟨?_, ?_⟩
  · rintro ⟨rest, same, within⟩
    cases same
    exact ⟨rfl, within⟩
  · rintro ⟨rfl, within⟩
    exact ⟨others, rfl, within⟩

theorem cons_sublist_append {event : Event} {others earlier later : List Event}
    (absent : event ∉ later) :
    (event :: others).Sublist (later ++ earlier) ↔ (event :: others).Sublist earlier := by
  induction later with
  | nil => rfl
  | cons first rest ih =>
      rw [List.mem_cons, not_or] at absent
      rw [List.cons_append, cons_sublist_cons_iff, ih absent.2]
      exact or_iff_left fun same => absent.1 same.1

/-- An invalidation overtakes a load when it begins, or it has done so before.  It cannot overtake a
load that is claimed after it has begun. -/
theorem overtakes_of_accepted {cache next : Cache} {move : Move} (taken : Accepted cache move next)
    {invalidation load : Nat} {scope : Scope} {key : BlockKey}
    (overtakes : next.Overtakes invalidation scope load key) :
    cache.Overtakes invalidation scope load key ∨
      (invalidation = cache.calls ∧ move = .begin (.invalidate scope) ∧
        scope.covers key = true ∧ .claimed load key ∈ cache.journal) := by
  unfold Overtakes at overtakes ⊢
  cases taken <;>
    simp_all [cons_sublist_cons_iff, cons_sublist_append, -List.append_assoc] <;> grind

theorem overtakes_of_advanced {cache next : Cache} (taken : Advanced cache next)
    {invalidation load : Nat} {scope : Scope} {key : BlockKey}
    (overtakes : next.Overtakes invalidation scope load key) :
    cache.Overtakes invalidation scope load key := by
  unfold Overtakes at overtakes ⊢
  cases taken <;> simp_all [cons_sublist_cons_iff, cons_sublist_append]

/-! ## Claims are made once -/

/-- The call that is about to claim a key. -/
def asking? : Frame → Option Nat
  | .claiming call _ => some call
  | _ => none

def askers (cache : Cache) : List Nat :=
  cache.stack.filterMap asking?

@[simp] theorem asking?_sequelOf (admission : Admission) (removals : List Removal) :
    asking? (sequelOf admission removals) = none := by
  cases removals <;> rfl

theorem askers_sublist_numbers (stack : List Frame) :
    (stack.filterMap asking?).Sublist (stack.filterMap Frame.call?) := by
  induction stack with
  | nil => exact List.Sublist.refl _
  | cons frame rest ih =>
      cases frame <;>
        simp only [List.filterMap_cons, asking?, Frame.call?] <;>
        first
          | exact ih.cons_cons _
          | exact ih.cons _
          | exact ih

/-- A call that has claimed a key has begun and is not about to claim one.  Since a call asks for
one key only, it claims no second one. -/
def ClaimedOnce (cache : Cache) : Prop :=
  ∀ call key, .claimed call key ∈ cache.journal → call < cache.calls ∧ call ∉ cache.askers

/-- A move claims a key for the innermost call, or it lets a new call ask, or neither. -/
theorem askers_of_accepted {cache next : Cache} {move : Move} (taken : Accepted cache move next) :
    (∃ call key rest, cache.stack = .claiming call key :: rest ∧
      next.askers = rest.filterMap asking? ∧
      ∀ other wanted, .claimed other wanted ∈ next.journal →
        .claimed other wanted ∈ cache.journal ∨ other = call) ∨
    ((next.askers = cache.askers ∨ next.askers = cache.calls :: cache.askers) ∧
      ∀ other wanted, .claimed other wanted ∈ next.journal →
        .claimed other wanted ∈ cache.journal) := by
  unfold askers
  cases taken with
  | @joined call key rest _ top | @lateHit call key rest _ _ top | @claimed call key rest top =>
      refine Or.inl ⟨call, key, rest, top, ?_, ?_⟩
      · simp [asking?, List.filterMap_cons]
      · intro other wanted member
        grind
  | simplyStored top =>
      refine Or.inr ⟨Or.inl ?_, by simp⟩
      simp only [List.filterMap_cons, asking?_sequelOf]
      simp [top, asking?, List.filterMap_cons]
  | loadUnwound top leading =>
      refine Or.inr ⟨Or.inl ?_, by simp⟩
      rcases leading with rfl | ⟨_, rfl⟩ | ⟨_, rfl⟩ <;> simp [top, asking?, List.filterMap_cons]
  | clearingUnwound top clearing =>
      refine Or.inr ⟨Or.inl ?_, by simp⟩
      rcases clearing with rfl | ⟨_, _, _, rfl⟩ | ⟨_, _, _, rfl⟩ <;>
        simp [top, asking?, List.filterMap_cons]
  | opened => exact Or.inr ⟨Or.inr (by simp [asking?]), by simp⟩
  | _ => refine Or.inr ⟨Or.inl ?_, by simp⟩; simp_all [asking?, List.filterMap_cons]

theorem askers_of_advanced {cache next : Cache} (taken : Advanced cache next) :
    next.askers = cache.askers ∧
      ∀ other wanted, .claimed other wanted ∈ next.journal →
        .claimed other wanted ∈ cache.journal := by
  unfold askers
  cases taken with
  | _ => refine ⟨?_, by simp⟩; simp_all [asking?, List.filterMap_cons]

theorem Coherent.asker_leaves {cache : Cache} (coherent : Coherent cache) {call : Nat}
    {key : BlockKey} {rest : List Frame} (top : cache.stack = .claiming call key :: rest) :
    call < cache.calls ∧ call ∉ rest.filterMap asking? := by
  have numbers : cache.numbers = call :: rest.filterMap Frame.call? := by
    simp [Cache.numbers, top, Frame.call?]
  have below := coherent.numbered.below call (numbers ▸ List.mem_cons_self)
  have descending := coherent.numbered.descending
  rw [numbers, List.pairwise_cons] at descending
  refine ⟨below, fun member => ?_⟩
  exact Nat.lt_irrefl _ (descending.1 call ((askers_sublist_numbers rest).subset member))

theorem silent_of_accepted {cache next : Cache} {move : Move} (taken : Accepted cache move next)
    {call : Nat} (silent : call < cache.calls ∧ call ∉ cache.askers) :
    call < next.calls ∧ call ∉ next.askers := by
  have calls : cache.calls ≤ next.calls := by
    rcases numbers_of_accepted taken with ⟨-, more⟩ | ⟨-, more⟩ <;> omega
  refine ⟨Nat.lt_of_lt_of_le silent.1 calls, fun member => ?_⟩
  rcases askers_of_accepted taken with ⟨asker, wanted, rest, top, askers, -⟩ | ⟨same | more, -⟩
  · have before : cache.askers = asker :: rest.filterMap asking? := by
      simp [Cache.askers, top, asking?]
    exact silent.2 (before ▸ List.mem_cons_of_mem _ (askers ▸ member))
  · exact silent.2 (same ▸ member)
  · rw [more] at member
    rcases List.mem_cons.mp member with isNew | before
    · exact Nat.lt_irrefl _ (isNew ▸ silent.1)
    · exact silent.2 before

theorem silent_of_advanced {cache next : Cache} (taken : Advanced cache next) {call : Nat}
    (silent : call < cache.calls ∧ call ∉ cache.askers) :
    call < next.calls ∧ call ∉ next.askers := by
  rw [(askers_of_advanced taken).1, (numbers_of_advanced taken).2]
  exact silent

theorem claimedOnce_kept (allowed : Cache → Move → Bool) :
    Kept allowed fun cache => Coherent cache ∧ ClaimedOnce cache := by
  apply (coherent_kept allowed).and
  · intro cache next move _ coherent once taken call key claimed
    rcases askers_of_accepted taken with
      ⟨asker, wanted, rest, top, askers, claims⟩ | ⟨-, claims⟩
    · rcases claims call key claimed with already | rfl
      · exact silent_of_accepted taken (once call key already)
      · have calls : cache.calls ≤ next.calls := by
          rcases numbers_of_accepted taken with ⟨-, more⟩ | ⟨-, more⟩ <;> omega
        have leaves := coherent.asker_leaves top
        exact ⟨Nat.lt_of_lt_of_le leaves.1 calls, askers ▸ leaves.2⟩
    · exact silent_of_accepted taken (once call key (claims call key claimed))
  · intro cache next _ once taken call key claimed
    exact silent_of_advanced taken (once call key ((askers_of_advanced taken).2 call key claimed))

/-! ## Marked loads -/

/-- The load of the key has been marked as overtaken. -/
def Marked (loads : Table BlockKey PendingLoad) (key : BlockKey) : Prop :=
  ∃ pending, loads.get? key = some pending ∧ pending.stale = true

theorem isOvertaken_iff (cache : Cache) (key : BlockKey) :
    cache.isOvertaken key = true ↔ Marked cache.loads key := by
  unfold isOvertaken Marked
  cases cache.loads.get? key <;> simp

theorem marked_overtaken_of_covers {loads : Table BlockKey PendingLoad} {scope : Scope}
    {key : BlockKey} {call : Nat} (covered : scope.covers key = true)
    (leads : (key, call) ∈ leaders loads) : Marked (overtaken loads scope) key := by
  rcases mem_leaders.mp leads with ⟨pending, held, -⟩
  refine ⟨{ pending with stale := true }, ?_, rfl⟩
  rw [overtaken, Table.get?_mapValues, held]
  simp [covered]

theorem Marked.overtaken {loads : Table BlockKey PendingLoad} {key : BlockKey}
    (marked : Marked loads key) (scope : Scope) : Marked (overtaken loads scope) key := by
  rcases marked with ⟨pending, held, stale⟩
  by_cases covered : scope.covers key = true
  · exact marked_overtaken_of_covers covered (mem_leaders.mpr ⟨pending, held, rfl⟩)
  · refine ⟨pending, ?_, stale⟩
    rw [PendingLoad.overtaken, Table.get?_mapValues, held]
    simp [covered]

theorem Marked.joined {loads : Table BlockKey PendingLoad} {key : BlockKey}
    (marked : Marked loads key) (other : BlockKey) (call : Nat) :
    Marked (loads.modify other fun load => { load with followers := load.followers ++ [call] })
      key := by
  rcases marked with ⟨pending, held, stale⟩
  unfold Marked
  rw [Table.get?_modify, held]
  split
  · exact ⟨_, rfl, stale⟩
  · exact ⟨pending, rfl, stale⟩

theorem Marked.claimed {loads : Table BlockKey PendingLoad} {key other : BlockKey}
    (marked : Marked loads key) (free : loads.get? other = none) (pending : PendingLoad) :
    Marked (loads.insert other pending) key := by
  rcases marked with ⟨earlier, held, stale⟩
  have different : key ≠ other := by
    rintro rfl
    rw [free] at held
    cases held
  refine ⟨earlier, ?_, stale⟩
  rw [Table.get?_insert, if_neg different, held]

theorem Marked.released {loads : Table BlockKey PendingLoad} {key other : BlockKey}
    (marked : Marked loads key) (different : key ≠ other) (call : Nat) :
    Marked (released loads call other) key := by
  rcases marked with ⟨pending, held, stale⟩
  refine ⟨pending, ?_, stale⟩
  unfold PendingLoad.released
  split
  · split
    · rw [Table.get?_erase_of_ne _ different, held]
    · exact held
  · exact held

theorem Marked.released_of_mem {loads : Table BlockKey PendingLoad} {key other : BlockKey}
    {call leader : Nat} (marked : Marked loads key)
    (still : (key, leader) ∈ leaders (PendingLoad.released loads call other)) :
    Marked (PendingLoad.released loads call other) key := by
  rcases marked with ⟨pending, held, stale⟩
  unfold PendingLoad.released at still ⊢
  split
  · rename_i found running
    simp only [running] at still
    split
    · rename_i leads
      rw [if_pos leads] at still
      rcases mem_leaders.mp still with ⟨left, here, -⟩
      have before := (Table.get?_erase_eq_some_iff.mp here).2
      rw [held] at before
      cases before
      exact ⟨_, here, stale⟩
    · exact ⟨pending, held, stale⟩
  · exact ⟨pending, held, stale⟩

/-- A move leaves the marks alone, or makes new ones, or claims a key for the innermost call. -/
theorem leaders_of_accepted {cache next : Cache} {move : Move} (taken : Accepted cache move next)
    {key : BlockKey} {call : Nat} (leads : (key, call) ∈ leaders next.loads) :
    ((key, call) ∈ leaders cache.loads ∧ (Marked cache.loads key → Marked next.loads key) ∧
      ∀ scope, move = .begin (.invalidate scope) → scope.covers key = true →
        Marked next.loads key) ∨
      (call ∈ cache.askers ∧ .claimed call key ∈ next.journal ∧
        ∀ request, move ≠ .begin request) := by
  cases taken with
  | found | missing | hit | opened | lateHit | passBegun | stored | simplyStored
  | listenerReturned | clearingUnwound =>
      exact Or.inl ⟨leads, id, by simp⟩
  | dropped | nothingDropped | sweepBegun | cleared =>
      rw [leaders_overtaken] at leads
      refine Or.inl ⟨leads, fun marked => marked.overtaken _, ?_⟩
      intro scope same covered
      cases same
      exact marked_overtaken_of_covers covered leads
  | joined =>
      have before : (key, call) ∈ leaders cache.loads := by simpa [leaders_modify] using leads
      exact Or.inl ⟨before, fun marked => marked.joined _ _, by simp⟩
  | @claimed claimant wanted rest top free absent =>
      have made : leaders (cache.loads.insert wanted ⟨claimant, false, []⟩) =
          leaders cache.loads ++ [(wanted, claimant)] := by
        simp [leaders, Table.rows_insert_of_get?_none free]
      rw [made] at leads
      rcases List.mem_append.mp leads with old | isNew
      · exact Or.inl ⟨old, fun marked => marked.claimed free _, by simp⟩
      · rw [List.mem_singleton] at isNew
        cases isNew
        exact Or.inr ⟨by simp [askers, top, asking?], by simp, by simp⟩
  | overflown | failed | panicked | passUnwound | loadUnwound =>
      exact Or.inl ⟨leaders_released_subset _ _ _ leads,
        fun marked => marked.released_of_mem leads, by simp⟩

/-- A mark goes only with the load it was made for, and that load does not end before its value is
stored unless nothing of its key is stored. -/
theorem marked_of_accepted {cache next : Cache} {move : Move}
    (undisturbed : cache.calm move = true) (staged : Staged cache)
    (taken : Accepted cache move next) {holding : Holding}
    (held : holding ∈ cache.store.holdings) (marked : Marked cache.loads holding.key) :
    Marked next.loads holding.key := by
  have apart : ∀ {key : BlockKey}, key ∈ cache.vacancies → holding.key ≠ key := fun vacant =>
    get?_eq_none_iff_holdingsOf.mp (staged.vacant _ vacant) holding held
  cases taken with
  | found | missing | hit | opened | lateHit | passBegun | stored | simplyStored
  | listenerReturned => exact marked
  | dropped | nothingDropped | sweepBegun | cleared => exact marked.overtaken _
  | joined => exact marked.joined _ _
  | claimed _ free _ => exact marked.claimed free _
  | overflown top | failed top | panicked top =>
      exact marked.released (apart (by simp [vacancies, top, Frame.vacant?])) _
  | passUnwound | loadUnwound | clearingUnwound => cases undisturbed

theorem marked_of_advanced {cache next : Cache} (staged : Staged cache)
    (taken : Advanced cache next) {holding : Holding} (held : holding ∈ cache.store.holdings)
    (marked : Marked cache.loads holding.key) : Marked next.loads holding.key := by
  have apart : ∀ {key : BlockKey}, cache.store.entries.get? key = none → holding.key ≠ key :=
    fun absent => get?_eq_none_iff_holdingsOf.mp absent holding held
  cases taken with
  | outdated | evicted | passEnded | retracted | takenBack | dropCounted | swept | passedOver
  | sweepEnded | reported | admissionReported | clearingReported => exact marked
  | kept top fresh =>
      refine marked.released ?_ _
      intro same
      rw [same, ← isOvertaken_iff, fresh] at marked
      cases marked
  | goneAlready _ _ absent => exact marked.released (apart absent) _
  | @retractionCounted admission rest top | @retractionReported admission rest top =>
      have vacant := staged.vacant admission.key (by simp [vacancies, top, Frame.vacant?])
      exact marked.released (apart vacant) _

/-- Every load that an invalidation has overtaken is marked as long as it runs.  The converse is not
needed, and so it is not said. -/
def OvertakenMarked (cache : Cache) : Prop :=
  ∀ key call, (key, call) ∈ leaders cache.loads → ∀ invalidation scope,
    cache.Overtakes invalidation scope call key → Marked cache.loads key

theorem OvertakenMarked.accepted {cache next : Cache} {move : Move}
    (running : OvertakenMarked cache) (once : ClaimedOnce cache)
    (taken : Accepted cache move next) : OvertakenMarked next := by
  intro key call leads invalidation scope overtakes
  rcases leaders_of_accepted taken leads with ⟨before, keeps, makes⟩ | ⟨asks, -, other⟩
  · rcases overtakes_of_accepted taken overtakes with already | ⟨-, begins, covered, -⟩
    · exact keeps (running key call before invalidation scope already)
    · exact makes scope begins covered
  · -- A call that has only just claimed its key cannot have been overtaken.
    rcases overtakes_of_accepted taken overtakes with already | ⟨-, begins, -, -⟩
    · have claimed := already.2.subset (List.mem_cons_of_mem _ List.mem_cons_self)
      exact absurd asks (once call key claimed).2
    · exact absurd begins (other _)

theorem leaders_of_advanced {cache next : Cache} (taken : Advanced cache next) {key : BlockKey}
    {call : Nat} (leads : (key, call) ∈ leaders next.loads) :
    (key, call) ∈ leaders cache.loads ∧ (Marked cache.loads key → Marked next.loads key) := by
  cases taken with
  | kept | goneAlready | retractionCounted | retractionReported =>
      exact ⟨leaders_released_subset _ _ _ leads, fun marked => marked.released_of_mem leads⟩
  | _ => exact ⟨leads, id⟩

theorem OvertakenMarked.advanced {cache next : Cache} (running : OvertakenMarked cache)
    (taken : Advanced cache next) : OvertakenMarked next := by
  intro key call leads invalidation scope overtakes
  rcases leaders_of_advanced taken leads with ⟨before, keeps⟩
  exact keeps (running key call before invalidation scope (overtakes_of_advanced taken overtakes))

theorem overtakenMarked_kept (allowed : Cache → Move → Bool) :
    Kept allowed fun cache => (Coherent cache ∧ ClaimedOnce cache) ∧ OvertakenMarked cache :=
  (claimedOnce_kept allowed).and
    (fun _ known running taken => running.accepted known.2 taken)
    (fun _ running taken => running.advanced taken)

/-! ## Listed blocks -/

/-- The block stands on the list of the sweep of this invalidation, with the load that brought it.
A block of the same key that was brought since by another load does not. -/
def Listed (stack : List Frame) (invalidation : Nat) (holding : Holding) : Prop :=
  ∃ scope doomed removed, .sweeping invalidation scope doomed removed ∈ stack ∧
    (holding.key, holding.load) ∈ doomed

theorem Listed.of_subset {stack later : List Frame} {invalidation : Nat} {holding : Holding}
    (listed : Listed stack invalidation holding) (fewer : stack ⊆ later) :
    Listed later invalidation holding := by
  rcases listed with ⟨scope, doomed, removed, member, among⟩
  exact ⟨scope, doomed, removed, fewer member, among⟩

theorem Listed.of_cons {frame : Frame} {rest : List Frame} {invalidation : Nat}
    {holding : Holding} (listed : Listed (frame :: rest) invalidation holding)
    (other : ∀ scope doomed removed, frame ≠ .sweeping invalidation scope doomed removed) :
    Listed rest invalidation holding := by
  rcases listed with ⟨scope, doomed, removed, member, among⟩
  rcases List.mem_cons.mp member with isFirst | below
  · exact absurd isFirst.symm (other scope doomed removed)
  · exact ⟨scope, doomed, removed, below, among⟩

theorem mem_matching {store : WeightedStore} {scope : Scope} {holding : Holding}
    (held : holding ∈ holdingsOf store.entries) (covered : scope.covers holding.key = true) :
    (holding.key, holding.load) ∈ store.matching scope := by
  rcases List.mem_map.mp held with ⟨row, member, rfl⟩
  exact List.mem_map.mpr ⟨row, List.mem_filter.mpr ⟨member, covered⟩, rfl⟩

/-- Sweeps go on through every move, unless a listener panics. -/
theorem listed_of_accepted {cache next : Cache} {move : Move}
    (undisturbed : cache.calm move = true) (taken : Accepted cache move next)
    {invalidation : Nat} {holding : Holding} (listed : Listed cache.stack invalidation holding) :
    Listed next.stack invalidation holding := by
  cases taken with
  | found | missing | hit | nothingDropped => exact listed
  | opened | dropped | sweepBegun | cleared =>
      exact listed.of_subset (by simp)
  | joined top | lateHit top | overflown top | failed top | panicked top | listenerReturned top =>
      rw [top] at listed
      exact listed.of_cons (by simp)
  | claimed top | passBegun top | stored top | simplyStored top =>
      rw [top] at listed
      exact (listed.of_cons (by simp)).of_subset (List.subset_cons_self _ _)
  | passUnwound | loadUnwound | clearingUnwound => cases undisturbed

theorem Listed.of_sweep {stack : List Frame} {call invalidation removed : Nat} {scope : Scope}
    {first : BlockKey × Nat} {doomed : List (BlockKey × Nat)} {holding : Holding}
    (listed : Listed (.sweeping call scope (first :: doomed) removed :: stack) invalidation holding)
    (now : Nat) (other : (holding.key, holding.load) ≠ first) :
    Listed (.sweeping call scope doomed now :: stack) invalidation holding := by
  rcases listed with ⟨scope, doomed, removed, member, among⟩
  rcases List.mem_cons.mp member with isFirst | below
  · cases isFirst
    rcases List.mem_cons.mp among with same | later
    · exact absurd same other
    · exact ⟨_, _, _, List.mem_cons_self, later⟩
  · exact ⟨scope, doomed, removed, List.mem_cons_of_mem _ below, among⟩

/-- A sweep goes on until the block is gone.  A block that is listed is dropped by its own sweep, or
by somebody else before. -/
theorem listed_of_advanced {cache next : Cache} (taken : Advanced cache next)
    {invalidation : Nat} {holding : Holding} (listed : Listed cache.stack invalidation holding)
    (still : holding ∈ next.store.holdings) : Listed next.stack invalidation holding := by
  cases taken with
  | outdated top | evicted top | passEnded top | retracted top | takenBack top | reported top
  | admissionReported top =>
      rw [top] at listed
      exact (listed.of_cons (by simp)).of_subset (by simp)
  | kept top | goneAlready top | retractionCounted top | retractionReported top | dropCounted top
  | clearingReported top =>
      rw [top] at listed
      exact listed.of_cons (by simp)
  | sweepEnded top =>
      rw [top] at listed
      rcases listed with ⟨scope, doomed, removed, member, among⟩
      rcases List.mem_cons.mp member with isFirst | below
      · cases isFirst
        cases among
      · exact ⟨scope, doomed, removed, below, among⟩
  | @swept call scope key load doomed removed rest store left block top weighted taken =>
      rw [top] at listed
      have other : (holding.key, holding.load) ≠ (key, load) := by
        intro same
        rcases WeightedStore.removeLoaded?_eq_some taken with ⟨-, -, rfl⟩
        have gone : (store.discard key block).entries.get? key = none :=
          Table.get?_erase_self _ _
        exact get?_eq_none_iff_holdingsOf.mp gone holding still (Prod.mk.inj same).1
      exact (listed.of_sweep (removed + 1) other).of_subset (by simp)
  | @passedOver call scope key load doomed removed rest store top weighted passed =>
      rw [top] at listed
      have other : (holding.key, holding.load) ≠ (key, load) := by
        intro same
        rw [Store.holdings_weighted weighted] at still
        rcases mem_holdingsOf.mp still with ⟨block, held, is⟩
        rw [(Prod.mk.inj same).1] at held
        have loaded : block.load = load := by
          rw [← (Prod.mk.inj same).2, is]
        exact WeightedStore.removeLoaded?_eq_none passed held loaded
      exact listed.of_sweep removed other

/-! ## Nothing outdated is kept -/

/-- Every load that an invalidation has overtaken is marked as long as it runs; and what an
overtaken load has stored is taken back by the load itself or stands on the list of the sweep. -/
structure Caught (cache : Cache) : Prop where
  runningClaimed : ∀ key call, (key, call) ∈ leaders cache.loads →
    .claimed call key ∈ cache.journal
  storedClaimed : ∀ holding ∈ cache.store.holdings,
    .claimed holding.load holding.key ∈ cache.journal
  running : ∀ key call, (key, call) ∈ leaders cache.loads → ∀ invalidation scope,
    cache.Overtakes invalidation scope call key → Marked cache.loads key
  stored : ∀ holding ∈ cache.store.holdings, ∀ invalidation scope,
    cache.Overtakes invalidation scope holding.load holding.key →
      Marked cache.loads holding.key ∨ Listed cache.stack invalidation holding

/-- A stored block was stored before the move, and if the move invalidates its key the block is
listed; or it has just been loaded. -/
theorem holding_of_accepted {cache next : Cache} {move : Move} (staged : Staged cache)
    (taken : Accepted cache move next) {holding : Holding}
    (held : holding ∈ next.store.holdings) :
    (holding ∈ cache.store.holdings ∧ ∀ scope, move = .begin (.invalidate scope) →
      scope.covers holding.key = true → Listed next.stack cache.calls holding) ∨
    ∃ rest, move = .loaderReturns holding.value ∧
      cache.stack = .loading holding.load holding.key :: rest ∧ next.loads = cache.loads ∧
      .loaded holding.load holding.key holding.value ∈ next.journal := by
  cases taken with
  | found _ found | hit _ found | lateHit _ _ found =>
      rw [Store.lookup?_holdings found] at held
      exact Or.inl ⟨held, by simp⟩
  | missing | opened | joined | claimed | failed | panicked | listenerReturned | loadUnwound
  | clearingUnwound => exact Or.inl ⟨held, by simp⟩
  | @dropped key store left block _ weighted taken =>
      rcases WeightedStore.remove?_eq_some taken with ⟨here, rfl⟩
      have before : holding ∈ cache.store.holdings := by
        rw [Store.holdings_weighted weighted]
        exact subset_of_perm_cons (WeightedStore.discard_holdings here) held
      refine Or.inl ⟨before, ?_⟩
      intro scope same covered
      cases same
      have gone : (store.discard key block).entries.get? key = none := Table.get?_erase_self _ _
      exact absurd (by simpa [Scope.covers] using covered)
        (get?_eq_none_iff_holdingsOf.mp gone holding held)
  | @nothingDropped key store _ weighted absent =>
      refine Or.inl ⟨held, ?_⟩
      intro scope same covered
      cases same
      have missing : store.entries.get? key = none := by
        simpa [WeightedStore.remove?] using absent
      have gone : cache.store.entries.get? key = none := weighted ▸ missing
      exact absurd (by simpa [Scope.covers] using covered)
        (get?_eq_none_iff_holdingsOf.mp gone holding held)
  | sweepBegun _ weighted _ =>
      refine Or.inl ⟨held, ?_⟩
      intro scope same covered
      cases same
      have among : holding ∈ cache.store.holdings := held
      rw [Store.holdings_weighted weighted] at among
      exact ⟨_, _, _, List.mem_cons_self, mem_matching among covered⟩
  | cleared _ simple taken =>
      have before : holding ∈ cache.store.holdings := by
        rw [Store.holdings_simple simple]
        exact subset_of_perm_append (SimpleStore.removeWhere_holdings taken) held
      refine Or.inl ⟨before, ?_⟩
      intro scope same covered
      cases same
      exact absurd rfl (get?_eq_none_iff_holdingsOf.mp
        (SimpleStore.removeWhere_get? taken covered) holding held)
  | @passBegun call key rest payload store top weighted _ _
  | @stored call key rest payload store top weighted _ =>
      have among : holding ∈ holdingsOf (store.insert key call payload).entries := held
      rw [staged.insert_holdings top weighted] at among
      rcases List.mem_append.mp among with old | isNew
      · exact Or.inl ⟨old, by simp⟩
      · rw [List.mem_singleton] at isNew
        subst isNew
        exact Or.inr ⟨rest, rfl, top, rfl, by simp⟩
  | @simplyStored call key rest payload store left blocks top simple put =>
      have among := subset_of_perm_append (staged.put_holdings top simple put) held
      rcases List.mem_append.mp among with old | isNew
      · exact Or.inl ⟨old, by simp⟩
      · rw [List.mem_singleton] at isNew
        subst isNew
        exact Or.inr ⟨rest, rfl, top, rfl, by simp⟩
  | @overflown call key rest payload store left top simple put =>
      rcases SimpleStore.put_eq_error (staged.absent_simple top simple) put with ⟨-, rfl⟩
      refine Or.inl ⟨?_, by simp⟩
      rw [Store.holdings_simple simple]
      exact held
  | passUnwound =>
      refine Or.inl ⟨?_, by simp⟩
      have same := congrArg holdingsOf (releasePass_entries cache)
      exact List.Perm.subset (.of_eq same) held

theorem Caught.accepted {cache next : Cache} {move : Move} (caught : Caught cache)
    (undisturbed : cache.calm move = true) (coherent : Coherent cache) (once : ClaimedOnce cache)
    (taken : Accepted cache move next) : Caught next where
  runningClaimed key call leads := by
    rcases leaders_of_accepted taken leads with ⟨before, -⟩ | ⟨-, claimed, -⟩
    · exact (journal_suffix_of_accepted taken).subset (caught.runningClaimed key call before)
    · exact claimed
  storedClaimed holding held := by
    apply (journal_suffix_of_accepted taken).subset
    rcases holding_of_accepted coherent.staged taken held with
      ⟨before, -⟩ | ⟨rest, -, top, -⟩
    · exact caught.storedClaimed holding before
    · exact caught.runningClaimed _ _
        (coherent.claimsMatch.subset (by simp [claims, top, Frame.claim?]))
  running := OvertakenMarked.accepted caught.running once taken
  stored holding held invalidation scope overtakes := by
    rcases holding_of_accepted coherent.staged taken held with
      ⟨before, lists⟩ | ⟨rest, rfl, top, loads, -⟩
    · rcases overtakes_of_accepted taken overtakes with already | ⟨rfl, begins, covered, -⟩
      · rcases caught.stored holding before invalidation scope already with marked | listed
        · exact Or.inl (marked_of_accepted undisturbed coherent.staged taken before marked)
        · exact Or.inr (listed_of_accepted undisturbed taken listed)
      · exact Or.inr (lists scope begins covered)
    · rcases overtakes_of_accepted taken overtakes with already | ⟨-, begins, -, -⟩
      · have leads : (holding.key, holding.load) ∈ leaders cache.loads :=
          coherent.claimsMatch.subset (by simp [claims, top, Frame.claim?])
        rw [loads]
        exact Or.inl (caught.running _ _ leads invalidation scope already)
      · cases begins

theorem Caught.advanced {cache next : Cache} (caught : Caught cache) (coherent : Coherent cache)
    (taken : Advanced cache next) : Caught next where
  runningClaimed key call leads :=
    (journal_suffix_of_advanced taken).subset
      (caught.runningClaimed key call (leaders_of_advanced taken leads).1)
  storedClaimed holding held :=
    (journal_suffix_of_advanced taken).subset
      (caught.storedClaimed holding ((changed_of_advanced taken).1.holdings_subset held))
  running := OvertakenMarked.advanced caught.running taken
  stored holding held invalidation scope overtakes := by
    have before := (changed_of_advanced taken).1.holdings_subset held
    have already := overtakes_of_advanced taken overtakes
    rcases caught.stored holding before invalidation scope already with marked | listed
    · exact Or.inl (marked_of_advanced coherent.staged taken before marked)
    · exact Or.inr (listed_of_advanced taken listed held)

theorem caught_kept :
    Kept calm fun cache => (Coherent cache ∧ ClaimedOnce cache) ∧ Caught cache :=
  (claimedOnce_kept calm).and
    (fun undisturbed known caught taken => caught.accepted undisturbed known.1 known.2 taken)
    (fun known caught taken => caught.advanced known.1 taken)

/-- A block whose load is over was brought by a call that had claimed the key, and no invalidation
of the key that has come to its end began after that claim.  It is assumed that no listener panics;
loaders may, and calls may be made from inside loaders and listeners. -/
theorem invalidation_wins (kind : StoreKind) (budget : UInt64) (limit : Option UInt64)
    (listener : Listener) (moves : List Move) (cache : Cache)
    (run : Run calm (start (Store.empty kind budget limit) listener) moves cache)
    (key : BlockKey) (block : CachedBlock) (held : cache.store.entries.get? key = some block)
    (reply : Reply) (isOver : .returned block.load reply ∈ cache.journal) :
    .claimed block.load key ∈ cache.journal ∧
      ∀ invalidation scope, .returned invalidation .done ∈ cache.journal →
        ¬ cache.Overtakes invalidation scope block.load key := by
  have empty := Store.holdings_empty kind budget limit
  have begins : Caught (start (Store.empty kind budget limit) listener) :=
    ⟨by simp [start, leaders, Table.empty], by simp [start, empty],
      by simp [start, leaders, Table.empty], by simp [start, empty]⟩
  have reached := caught_kept.run run
    ⟨⟨coherent_start _ _ empty, by simp [ClaimedOnce, start]⟩, begins⟩
  have coherent := reached.1.1
  have stored := mem_holdingsOf_of_get? held
  refine ⟨reached.2.storedClaimed _ stored, ?_⟩
  intro invalidation scope complete overtakes
  rcases reached.2.stored _ stored invalidation scope overtakes with marked | listed
  · -- The load would still be under way.
    rcases marked with ⟨pending, running, -⟩
    have leads : (key, pending.leader) ∈ leaders cache.loads :=
      mem_leaders.mpr ⟨pending, running, rfl⟩
    have mine : block.load = pending.leader := coherent.staged.own _ stored _ leads
    have claimed : (key, block.load) ∈ cache.claims :=
      coherent.claimsMatch.symm.subset (mine ▸ leads)
    rcases List.mem_filterMap.mp claimed with ⟨frame, member, claims⟩
    have number : block.load ∈ cache.numbers :=
      List.mem_filterMap.mpr ⟨frame, member, Frame.call?_of_claim? claims⟩
    exact (coherent.endedApart block.load (Or.inl ⟨reply, isOver⟩)).2 number
  · -- The invalidation would still be under way.
    rcases listed with ⟨scope, doomed, removed, member, -⟩
    have number : invalidation ∈ cache.numbers :=
      List.mem_filterMap.mpr ⟨_, member, rfl⟩
    exact (coherent.endedApart invalidation (Or.inl ⟨.done, complete⟩)).2 number

/-- A load is overtaken while its loader runs and the value is taken back; the listener that is
told of this loads the key again, after the invalidation. -/
def reloading : Cache :=
  reached calm (start (.weighted (.empty 100)) .interactive)
    [.begin (.load ⟨⟨0⟩, 0, 0, .index 1⟩), .claim, .begin (.invalidate .everything),
      .loaderReturns (.standIn 1 "outdated"), .listenerReturns,
      .begin (.load ⟨⟨0⟩, 0, 0, .index 1⟩), .claim, .loaderReturns (.standIn 1 "fresh")]

theorem invalidation_wins_reloading :
    reloading.store.entries.get? ⟨⟨0⟩, 0, 0, .index 1⟩ = some ⟨.standIn 1 "fresh", 2, 2⟩ ∧
      .returned 1 .done ∈ reloading.journal ∧
      .claimed 2 ⟨⟨0⟩, 0, 0, .index 1⟩ ∈ reloading.journal ∧
      ¬ reloading.Overtakes 1 .everything 2 ⟨⟨0⟩, 0, 0, .index 1⟩ := by
  have held : reloading.store.entries.get? ⟨⟨0⟩, 0, 0, .index 1⟩ =
      some ⟨.standIn 1 "fresh", 2, 2⟩ := by decide +kernel
  have complete : .returned 1 .done ∈ reloading.journal := by decide +kernel
  have wins := invalidation_wins .weighted 100 none .interactive _ reloading
    (run_reached (by decide +kernel)) _ _ held (.loaded (.value (.standIn 1 "fresh")))
    (by decide +kernel)
  exact ⟨held, complete, wins.1, wins.2 1 .everything complete⟩

end Cache
end VolumeCache
