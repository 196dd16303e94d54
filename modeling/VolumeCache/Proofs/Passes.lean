import VolumeCache.Proofs.Recency

namespace VolumeCache

/-!
# Eviction passes

A weighted store is over its budget while it is being brought back under it.  The store's own flag
tells whether a pass is under way, and a value admitted in the meantime leaves the work to that
pass.  So the budget is kept by two facts together: the flag is set for exactly one pass on the
stack, and whenever it is not set the blocks fit the budget.  The second one needs listeners that
do not panic; a pass that a panic has ended leaves the store as it is.
-/

def Frame.isPass : Frame → Bool
  | .evicting .. => true
  | _ => false

def Store.evicting : Store → Bool
  | .weighted store => store.evicting
  | .simple _ => false

namespace Store

theorem lookup?_evicting {store after : Store} {key : BlockKey} {payload : Payload}
    (found : store.lookup? key = some (payload, after)) : after.evicting = store.evicting := by
  rcases lookup?_eq_some found with ⟨inner, left, rfl, taken, rfl⟩ | ⟨inner, left, rfl, -, rfl⟩
  · rcases WeightedStore.lookup?_eq_some taken with ⟨block, -, -, rfl⟩
    rfl
  · rfl

theorem compacted_evicting (store : Store) : store.compacted.evicting = store.evicting := by
  cases store with
  | simple store => rfl
  | weighted store =>
      cases due : store.compact? with
      | none => simp [compacted, due]
      | some rebuilt =>
          simp only [compacted, due, Option.getD_some, evicting]
          rw [WeightedStore.compact?_eq_some due]

end Store

theorem WeightedStore.outdated_evicting {store left : WeightedStore}
    (first : store.examine = .outdated left) : left.evicting = store.evicting := by
  rcases reindexed_of_outdated first with ⟨recency, rfl⟩
  rfl

theorem WeightedStore.evicted_evicting {store left : WeightedStore} {key : BlockKey}
    {block : CachedBlock} (first : store.examine = .evicted left key block) :
    left.evicting = store.evicting := by
  rcases examine_eq_evicted first with ⟨rest, -, -, rfl⟩
  rfl

namespace Cache

/-! ## One pass at a time -/

def passes (cache : Cache) : Nat :=
  cache.stack.countP Frame.isPass

/-- The store knows whether a pass is under way, and there is at most one.  A listener that is told
of an eviction may load further blocks, but the pass on whose behalf it runs is then not joined by
another. -/
def PassKnown (cache : Cache) : Prop :=
  cache.passes = cache.store.evicting.toNat

@[simp] theorem isPass_sequelOf (admission : Admission) (removals : List Removal) :
    (sequelOf admission removals).isPass = false := by
  cases removals <;> rfl

theorem releasePass_evicting (cache : Cache) : cache.releasePass.store.evicting = false := by
  rcases cache with ⟨store, listener, loads, counters, stack, calls, journal⟩
  cases store <;> rfl

private theorem PassKnown.still {cache next : Cache} (known : PassKnown cache)
    (passes : next.passes = cache.passes)
    (evicting : next.store.evicting = cache.store.evicting) : PassKnown next := by
  unfold PassKnown
  rw [passes, evicting]
  exact known

private theorem PassKnown.turned {cache next : Cache} (known : PassKnown cache) {frame : Frame}
    {rest : List Frame} (top : cache.stack = frame :: rest) (apart : frame.isPass = false)
    (passes : next.passes = rest.countP Frame.isPass)
    (evicting : next.store.evicting = cache.store.evicting) : PassKnown next := by
  refine known.still ?_ evicting
  rw [passes, Cache.passes, top, List.countP_cons_of_neg (by simp [apart])]

private theorem PassKnown.ended {cache next : Cache} (known : PassKnown cache)
    (passes : next.passes + 1 = cache.passes) (evicting : next.store.evicting = false) :
    PassKnown next := by
  unfold PassKnown at known ⊢
  have atMost := Bool.toNat_le cache.store.evicting
  rw [evicting]
  simp only [Bool.toNat_false]
  omega

theorem PassKnown.accepted {cache next : Cache} {move : Move} (known : PassKnown cache)
    (taken : Accepted cache move next) : PassKnown next := by
  cases taken with
  | found _ held | hit _ held => exact known.still rfl (Store.lookup?_evicting held)
  | lateHit top _ held =>
      exact known.turned top rfl (by simp [passes]) (Store.lookup?_evicting held)
  | missing => exact known.still rfl rfl
  | opened | nothingDropped | sweepBegun =>
      exact known.still (by simp [passes, Frame.isPass]) rfl
  | joined top | claimed top | failed top | panicked top | listenerReturned top =>
      exact known.turned top rfl (by simp [passes, Frame.isPass]) rfl
  | dropped _ weighted taken =>
      rcases WeightedStore.remove?_eq_some taken with ⟨-, rfl⟩
      exact known.still (by simp [passes, Frame.isPass]) (by rw [weighted]; rfl)
  | cleared _ simple _ =>
      exact known.still (by simp [passes, Frame.isPass]) (by rw [simple]; rfl)
  | passBegun top weighted _ free =>
      -- the only step that sets the flag, and the only one that opens a pass
      unfold PassKnown passes at known ⊢
      rw [weighted, top] at known
      simpa [Frame.isPass, List.countP_cons, -List.countP_eq_zero, Store.evicting, free]
        using known
  | stored top weighted _ =>
      exact known.turned top rfl (by simp [passes, Frame.isPass]) (by rw [weighted]; rfl)
  | simplyStored top simple _ =>
      exact known.turned top rfl (by simp [passes]) (by rw [simple]; rfl)
  | overflown top simple _ =>
      exact known.turned top rfl (by simp [passes]) (by rw [simple]; rfl)
  | passUnwound top =>
      exact known.ended (by simp [passes, top, Frame.isPass, List.countP_cons])
        (releasePass_evicting cache)
  | loadUnwound top leading =>
      rcases leading with rfl | ⟨_, rfl⟩ | ⟨_, rfl⟩ <;> exact known.turned top rfl rfl rfl
  | clearingUnwound top clearing =>
      rcases clearing with rfl | ⟨_, _, _, rfl⟩ | ⟨_, _, _, rfl⟩ <;>
        exact known.turned top rfl rfl rfl

theorem PassKnown.advanced {cache next : Cache} (known : PassKnown cache)
    (taken : Advanced cache next) : PassKnown next := by
  cases taken with
  | outdated top weighted _ first =>
      exact known.still (by simp [passes, top, Frame.isPass, List.countP_cons])
        (by rw [weighted]; exact WeightedStore.outdated_evicting first)
  | evicted top weighted _ first =>
      exact known.still (by simp [passes, top, Frame.isPass, List.countP_cons])
        (by rw [weighted]; exact WeightedStore.evicted_evicting first)
  | passEnded top weighted _ =>
      exact known.ended (by simp [passes, top, Frame.isPass, List.countP_cons]) rfl
  | kept top | goneAlready top | retractionCounted top | retractionReported top | passedOver top
  | admissionReported top | clearingReported top | reported top =>
      exact known.turned top rfl (by simp [passes, Frame.isPass]) rfl
  | retracted top _ weighted taken =>
      rcases WeightedStore.remove?_eq_some taken with ⟨-, rfl⟩
      exact known.turned top rfl (by simp [passes, Frame.isPass]) (by rw [weighted]; rfl)
  | takenBack top _ simple _ =>
      exact known.turned top rfl (by simp [passes, Frame.isPass]) (by rw [simple]; rfl)
  | dropCounted top | sweepEnded top =>
      exact known.turned top rfl rfl (Store.compacted_evicting _)
  | swept top weighted taken =>
      rcases WeightedStore.removeLoaded?_eq_some taken with ⟨-, -, rfl⟩
      exact known.turned top rfl (by simp [passes, Frame.isPass]) (by rw [weighted]; rfl)

theorem PassKnown.idle {cache : Cache} (known : PassKnown cache) (idle : cache.stack = []) :
    cache.store.evicting = false := by
  unfold PassKnown passes at known
  rw [idle, List.countP_nil] at known
  cases flag : cache.store.evicting with
  | false => rfl
  | true => simp [flag] at known

end Cache
end VolumeCache
