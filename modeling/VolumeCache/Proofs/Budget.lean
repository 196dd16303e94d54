import VolumeCache.Proofs.Loads
import VolumeCache.Proofs.Passes

namespace VolumeCache
namespace Cache

/-!
# The budget of a weighted store

While no pass is under way the blocks fit the budget, provided that no listener has panicked in the
middle of a pass.  Values admitted by a listener during a pass need no care of their own: the pass
ends only when the weight, theirs included, is within the budget or the index is empty, and an
empty index means an empty store.
-/

/-- What is known of the calls, the weights, the index and the passes of a cache along every run in
which the weights fit, whatever panics. -/
structure Accounted (cache : Cache) : Prop where
  coherent : Coherent cache
  weighed : Weighed cache
  indexed : Indexed cache
  passKnown : PassKnown cache

theorem accounted_kept : Kept fits Accounted where
  accepted fit known taken :=
    { coherent := (coherent_kept fits).accepted fit known.coherent taken
      weighed := known.weighed.accepted known.coherent.staged fit taken
      indexed := ((indexed_kept fits).accepted fit ⟨known.coherent, known.indexed⟩ taken).2
      passKnown := known.passKnown.accepted taken }
  advanced known taken :=
    { coherent := (coherent_kept fits).advanced known.coherent taken
      weighed := known.weighed.advanced taken
      indexed := ((indexed_kept fits).advanced ⟨known.coherent, known.indexed⟩ taken).2
      passKnown := known.passKnown.advanced taken }

theorem accounted_start (kind : StoreKind) (budget : UInt64) (limit : Option UInt64)
    (listener : Listener) : Accounted (start (Store.empty kind budget limit) listener) := by
  have empty := Store.holdings_empty kind budget limit
  refine ⟨coherent_start _ _ empty,
    weighed_start _ _ empty (Store.weighed_empty kind budget limit), ?_, ?_⟩
  · intro _
    cases kind with
    | weighted => exact ⟨WeightedStore.indexed_empty budget, Nat.zero_le _⟩
    | simple => trivial
  · cases kind <;> rfl

/-! ## Within the budget -/

/-- Unless a pass is under way, the blocks of a weighted store fit its budget.  This is the true sum
of their weights, and it is claimed only before the clock wraps, when every block still has a record
by which it can be evicted. -/
def Within (cache : Cache) : Prop :=
  cache.accesses < 2 ^ 64 → cache.kind = .weighted → cache.store.evicting = false →
    cache.heldWeight ≤ cache.budget.toNat

theorem within_of_passed {cache : Cache} {store : WeightedStore} (weighed : Weighed cache)
    (indexed : Indexed cache) (weighted : cache.store = .weighted store)
    (passed : store.overBudget = false ∨ store.examine = .exhausted) : Within cache := by
  intro few _ _
  rcases passed with within | exhausted
  · have sum : store.total.toNat = cache.heldWeight := by
      have whole := weighed.toNat
      rw [weighted] at whole
      exact whole
    have most : store.total ≤ store.budget := by
      simpa [WeightedStore.overBudget, UInt64.not_lt] using within
    have fits : store.total.toNat ≤ store.budget.toNat := UInt64.le_iff_toNat_le.mp most
    rw [Cache.budget, weighted]
    exact sum ▸ fits
  · have known := indexed few
    rw [weighted] at known
    have nothing := known.1.entries_of_exhausted exhausted
    rw [heldWeight_eq, Store.holdings_weighted weighted, nothing]
    exact Nat.zero_le _

theorem Within.shrink {cache next : Cache} {change : Change} (within : Within cache)
    (changed : Store.Changed cache.store change next.store) (nothing : change.incoming = 0)
    (accesses : cache.accesses ≤ next.accesses)
    (evicting : next.store.evicting = cache.store.evicting) : Within next := by
  intro few kind idle
  have less := changed.weightOf_le
  rw [nothing, ← heldWeight_eq, ← heldWeight_eq] at less
  have before := within (by omega) (changed.kind.symm.trans kind) (evicting.symm.trans idle)
  rw [Cache.budget, changed.budget]
  exact Nat.le_trans less before

/-- If no listener panics, a move begins a pass, or brings a value in that leaves the store within
its budget, or brings nothing in and leaves the flag alone.  A panic would open the pass to others
with the store still above its budget. -/
theorem flag_of_accepted {cache next : Cache} {move : Move} (undisturbed : cache.calm move = true)
    (taken : Accepted cache move next) :
    next.store.evicting = true ∨ next.kind = .simple ∨
      (∃ store, next.store = .weighted store ∧ store.overBudget = false) ∨
      (next.store.evicting = cache.store.evicting ∧ ∀ payload, move ≠ .loaderReturns payload) := by
  cases taken with
  | found _ held | hit _ held | lateHit _ _ held =>
      exact Or.inr (Or.inr (Or.inr ⟨Store.lookup?_evicting held, by simp⟩))
  | missing | opened | nothingDropped | sweepBegun | joined | claimed | failed | panicked
  | listenerReturned => exact Or.inr (Or.inr (Or.inr ⟨rfl, by simp⟩))
  | dropped _ weighted taken =>
      rcases WeightedStore.remove?_eq_some taken with ⟨-, rfl⟩
      exact Or.inr (Or.inr (Or.inr ⟨weighted ▸ rfl, by simp⟩))
  | cleared | simplyStored | overflown => exact Or.inr (Or.inl rfl)
  | passBegun => exact Or.inl rfl
  | stored _ _ within =>
      rcases within with fine | busy
      · exact Or.inr (Or.inr (Or.inl ⟨_, rfl, fine⟩))
      · exact Or.inl busy
  | passUnwound | loadUnwound | clearingUnwound => cases undisturbed

/-- A step of the cache leaves the flag alone, unless it ends a pass that has nothing more to do.  A
pass has nothing more to do when the weight fits or when no record is left. -/
theorem flag_of_advanced {cache next : Cache} (taken : Advanced cache next) :
    next.store.evicting = cache.store.evicting ∨
      ∃ store, next.store = .weighted store ∧
        (store.overBudget = false ∨ store.examine = .exhausted) := by
  cases taken with
  | outdated _ weighted _ first =>
      exact Or.inl (weighted ▸ WeightedStore.outdated_evicting first)
  | evicted _ weighted _ first =>
      exact Or.inl (weighted ▸ WeightedStore.evicted_evicting first)
  | passEnded _ weighted done =>
      refine Or.inr ⟨_, rfl, ?_⟩
      rcases done with within | exhausted
      · exact Or.inl within
      · have none := WeightedStore.examine_eq_exhausted.mp exhausted
        exact Or.inr (WeightedStore.examine_eq_exhausted.mpr none)
  | kept | goneAlready | retractionCounted | retractionReported | passedOver | admissionReported
  | clearingReported | reported => exact Or.inl rfl
  | retracted _ _ weighted taken =>
      rcases WeightedStore.remove?_eq_some taken with ⟨-, rfl⟩
      exact Or.inl (weighted ▸ rfl)
  | takenBack _ _ simple _ => exact Or.inl (simple ▸ rfl)
  | dropCounted | sweepEnded => exact Or.inl (Store.compacted_evicting _)
  | swept _ weighted taken =>
      rcases WeightedStore.removeLoaded?_eq_some taken with ⟨-, -, rfl⟩
      exact Or.inl (weighted ▸ rfl)

/-- Whatever the state was, it is within the budget once a loader has returned a value; and a state
within the budget is followed by states within the budget.  The first half is what makes up for an
earlier panic. -/
theorem within_of_accepted {cache next : Cache} {move : Move} (known : Accounted cache)
    (may : cache.fitsCalmly move = true) (taken : Accepted cache move next)
    (before : Within cache ∨ ∃ payload, move = .loaderReturns payload) : Within next := by
  have after := accounted_kept.accepted (fits_of_fitsCalmly _ _ may) known taken
  rcases flag_of_accepted (calm_of_fitsCalmly _ _ may) taken with
    busy | simple | ⟨store, weighted, fine⟩ | ⟨same, other⟩
  · intro _ _ idle
    rw [busy] at idle
    cases idle
  · intro _ kind
    rw [simple] at kind
    cases kind
  · exact within_of_passed after.weighed after.indexed weighted (Or.inl fine)
  · rcases before with within | ⟨payload, brings⟩
    · rcases changed_of_accepted known.coherent.staged taken with ⟨change, changed, moves, comes⟩
      refine within.shrink changed ?_ (by omega) same
      cases change with
      | use => rfl
      | upkeep => rfl
      | admission payload => exact absurd (comes payload rfl) (other payload)
    · exact absurd brings (other payload)

theorem within_of_advanced {cache next : Cache} (known : Accounted cache) (before : Within cache)
    (taken : Advanced cache next) : Within next := by
  have after := accounted_kept.advanced known taken
  rcases changed_of_advanced taken with ⟨changed, moves⟩
  rcases flag_of_advanced taken with same | ⟨store, weighted, passed⟩
  · exact before.shrink changed rfl moves same
  · exact within_of_passed after.weighed after.indexed weighted passed

theorem within_kept : Kept fitsCalmly fun cache => Accounted cache ∧ Within cache :=
  (accounted_kept.restrict fits_of_fitsCalmly).and
    (fun may known within taken => within_of_accepted known may taken (Or.inl within))
    (fun known within taken => within_of_advanced known within taken)

theorem Within.idle {cache : Cache} (within : Within cache) (known : Accounted cache)
    (few : cache.accesses < 2 ^ 64) (kind : cache.kind = .weighted) (idle : cache.stack = []) :
    cache.heldWeight ≤ cache.budget.toNat :=
  within few kind (known.passKnown.idle idle)

/-- From the moment at which the loader of this call has returned a value the store is within its
budget again.  It need not have been so before, and listeners must not panic afterwards. -/
theorem within_once_succeeded_kept (call : Nat) :
    Kept fitsCalmly fun cache => Accounted cache ∧ (cache.Succeeded call → Within cache) := by
  apply (accounted_kept.restrict fits_of_fitsCalmly).and
  · intro cache next move may known within taken succeeded
    rcases succeeded_of_accepted taken succeeded with before | ⟨_, payload, _, brings, -⟩
    · exact within_of_accepted known may taken (Or.inl (within before))
    · exact within_of_accepted known may taken (Or.inr ⟨payload, brings⟩)
  · intro cache next known within taken succeeded
    exact within_of_advanced known (within (succeeded_of_advanced taken succeeded)) taken

theorem limits_kept (allowed : Cache → Move → Bool) (kind : StoreKind) (budget : UInt64) :
    Kept allowed fun cache => Coherent cache ∧ cache.kind = kind ∧ cache.budget = budget := by
  apply (coherent_kept allowed).and
  · intro cache next move _ coherent limits taken
    rcases changed_of_accepted coherent.staged taken with ⟨change, changed, -, -⟩
    exact ⟨changed.kind.trans limits.1, changed.budget.trans limits.2⟩
  · intro cache next _ limits taken
    have changed := (changed_of_advanced taken).1
    exact ⟨changed.kind.trans limits.1, changed.budget.trans limits.2⟩

/-- Along a run without panicking listeners the blocks fit the budget whenever no call is under way.
After a run with such panics they do so as soon as a call made from outside has loaded a value
undisturbed: the call returns, and then they fit.  What is assumed is that loaded weights can be
summed with those stored and that the clock has not wrapped; loads may be nested in loaders and
listeners to any depth. -/
theorem budget_enforced (budget : UInt64) (listener : Listener) :
    (∀ moves cache,
      Run fitsCalmly (start (.weighted (.empty budget)) listener) moves cache →
      cache.accesses < 2 ^ 64 → cache.stack = [] → cache.heldWeight ≤ budget.toNat) ∧
    (∀ before cache key opened during final,
      Run fits (start (.weighted (.empty budget)) listener) before cache → cache.stack = [] →
      cache.perform (.begin (.load key)) = some opened → Run fitsCalmly opened during final →
      final.accesses < 2 ^ 64 → final.stack = [] → final.Succeeded cache.calls →
      final.Returned cache.calls ∧ final.heldWeight ≤ budget.toNat) := by
  have known := accounted_start .weighted budget none listener
  have limits : Coherent (start (.weighted (.empty budget)) listener) ∧
      (start (.weighted (.empty budget)) listener).kind = .weighted ∧
      (start (.weighted (.empty budget)) listener).budget = budget := ⟨known.coherent, rfl, rfl⟩
  constructor
  · intro moves cache run few idle
    have begins : Within (start (.weighted (.empty budget)) listener) :=
      fun _ _ _ => Nat.zero_le _
    have reached := within_kept.run run ⟨known, begins⟩
    have unchanged := ((limits_kept fitsCalmly .weighted budget).run run limits).2
    exact unchanged.2 ▸ reached.2.idle reached.1 few unchanged.1 idle
  · intro before cache key opened during final run idle made undisturbed few idleAgain succeeded
    have reached := accounted_kept.run run known
    have fresh : ¬ cache.Succeeded cache.calls := by
      intro early
      have nobody : ∀ call, (start (Store.empty .weighted budget none) listener).Succeeded call →
          call < 0 := by
        rintro call ⟨_, _, member⟩
        cases member
      have below := (succeeded_below_kept fits).run run ⟨known.coherent, nobody⟩
      exact Nat.lt_irrefl _ (below.2 cache.calls early)
    have openedKnown := accounted_kept.perform rfl reached made
    have openedFresh := (unsucceeded_kept cache.calls).perform rfl fresh made
    have ending := (within_once_succeeded_kept cache.calls).run undisturbed
      ⟨openedKnown, fun succeeded => absurd succeeded openedFresh⟩
    have unchanged := (limits_kept fits .weighted budget).perform rfl
      ((limits_kept fits .weighted budget).run run limits) made
    have still := ((limits_kept fitsCalmly .weighted budget).run undisturbed unchanged).2
    have seen := (seenTo_kept cache.calls).run undisturbed
      ⟨⟨openedKnown.coherent, openedKnown.weighed⟩, fun succeeded => absurd succeeded openedFresh⟩
    refine ⟨?_, still.2 ▸ (ending.2 succeeded).idle ending.1 few still.1 idleAgain⟩
    rcases seen.2 succeeded with pursued | returned
    · simp [pursuits, idleAgain] at pursued
    · exact returned

/-- Four loads, the third and the fourth from inside the listener that is told of the first
eviction. -/
def nestedLoads : List Move :=
  loadMoves ⟨⟨0⟩, 0, 0, .index 1⟩ (.standIn 6 "") ++ loadMoves ⟨⟨0⟩, 0, 0, .index 2⟩ (.standIn 6 "")
    ++ loadMoves ⟨⟨0⟩, 0, 0, .index 3⟩ (.standIn 6 "")
    ++ loadMoves ⟨⟨0⟩, 0, 0, .index 4⟩ (.standIn 6 "")

def roomForOne : Cache :=
  start (.weighted (.empty 10)) .interactive

/-- The listener panics after the nested loads: the store is left far above its budget. -/
def leftAbove : Cache :=
  reached fits roomForOne (nestedLoads ++ [.listenerPanics ""])

def recovering : Cache :=
  (leftAbove.perform (.begin (.load ⟨⟨0⟩, 0, 0, .index 5⟩))).getD leftAbove

def recovery : List Move :=
  [.claim, .loaderReturns (.standIn 5 ""), .listenerReturns, .listenerReturns, .listenerReturns]

theorem budget_enforced_nested :
    leftAbove.heldWeight = 18 ∧
      (reached fitsCalmly roomForOne (nestedLoads ++ [.listenerReturns, .listenerReturns,
        .listenerReturns])).heldWeight ≤ 10 ∧
      (reached fitsCalmly recovering recovery).Returned leftAbove.calls ∧
      (reached fitsCalmly recovering recovery).heldWeight ≤ 10 := by
  have made : leftAbove.perform (.begin (.load ⟨⟨0⟩, 0, 0, .index 5⟩)) = some recovering := by
    have accepted : (leftAbove.perform (.begin (.load ⟨⟨0⟩, 0, 0, .index 5⟩))).isSome = true := by
      decide +kernel
    rcases Option.isSome_iff_exists.mp accepted with ⟨opened, made⟩
    rw [recovering, made]
    rfl
  have calmly : Run fitsCalmly roomForOne _ (reached fitsCalmly roomForOne
      (nestedLoads ++ [.listenerReturns, .listenerReturns, .listenerReturns])) :=
    run_reached (by decide +kernel)
  have undisturbed := (budget_enforced 10 .interactive).1 _ _ calmly (by decide +kernel)
    (by decide +kernel)
  have recovered := (budget_enforced 10 .interactive).2 _ leftAbove _ recovering recovery _
    (run_reached (by decide +kernel)) (by decide +kernel) made
    (run_reached (by decide +kernel)) (by decide +kernel) (by decide +kernel)
    ⟨⟨⟨0⟩, 0, 0, .index 5⟩, .standIn 5 "", by decide +kernel⟩
  exact ⟨by decide +kernel, undisturbed, recovered⟩

end Cache
end VolumeCache
