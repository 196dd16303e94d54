import VolumeCache.Proofs.Stages

namespace VolumeCache

/-!
# What a step does to the store

A step may use a block, bring one in, or take blocks out and keep the index in order.  The accounts
of a store (its weight, its clock, its index) depend on this alone and not on the calls that are
under way, so they are followed through the changes listed here.
-/

/-- How a step changes a store: a block is used, a block comes in, or neither.  Evictions, removals
and whatever is done to the index are all upkeep. -/
inductive Change where
  | use
  | admission (payload : Payload)
  | upkeep

namespace Change

/-- By how much the clock of the store moves on.  A use that finds nothing is no use. -/
def ticks : Change → Nat
  | .use => 1
  | .admission _ => 1
  | .upkeep => 0

end Change

/-- The store before and after a change.  Each case is one operation of one kind of store, with the
circumstances in which it is carried out; no case says by which move or step. -/
inductive Store.Changed : Store → Change → Store → Prop
  | same {store : Store} : Changed store .upkeep store
  | used {store after : Store} {key : BlockKey} {payload : Payload}
      (found : store.lookup? key = some (payload, after)) : Changed store .use after
  | admitted {store : WeightedStore} {key : BlockKey} {load : Nat} {payload : Payload}
      {evicting : Bool} (absent : store.entries.get? key = none) :
      Changed (.weighted store) (.admission payload)
        (.weighted { store.insert key load payload with evicting := evicting })
  | put {store left : SimpleStore} {key : BlockKey} {load : Nat} {payload : Payload}
      {blocks : List (BlockKey × CachedBlock)} (absent : store.entries.get? key = none)
      (taken : store.put key load payload = .ok (blocks, left)) :
      Changed (.simple store) (.admission payload) (.simple left)
  | discarded {store : WeightedStore} {key : BlockKey} {block : CachedBlock}
      (held : store.entries.get? key = some block) :
      Changed (.weighted store) .upkeep (.weighted (store.discard key block))
  | outdated {store left : WeightedStore} (first : store.examine = .outdated left) :
      Changed (.weighted store) .upkeep (.weighted left)
  | evicted {store left : WeightedStore} {key : BlockKey} {block : CachedBlock}
      (first : store.examine = .evicted left key block) :
      Changed (.weighted store) .upkeep (.weighted left)
  | flagged {store : WeightedStore} {evicting : Bool} :
      Changed (.weighted store) .upkeep (.weighted { store with evicting := evicting })
  | compacted {store rebuilt : WeightedStore} (due : store.compact? = some rebuilt) :
      Changed (.weighted store) .upkeep (.weighted rebuilt)
  | cleared {store left : SimpleStore} {scope : Scope} {blocks : List (BlockKey × CachedBlock)}
      (taken : store.removeWhere scope = (blocks, left)) :
      Changed (.simple store) .upkeep (.simple left)
  | takenBack {store left : SimpleStore} {key : BlockKey} {block : CachedBlock}
      (taken : store.remove? key = some (block, left)) :
      Changed (.simple store) .upkeep (.simple left)

namespace Store

theorem changed_compacted (store : Store) : Changed store .upkeep store.compacted := by
  cases store with
  | simple store => exact .same
  | weighted store =>
      cases due : store.compact? with
      | none =>
          simp only [compacted, due, Option.getD_none]
          exact .same
      | some rebuilt =>
          simp only [compacted, due, Option.getD_some]
          exact .compacted due

theorem lookup?_budget {store after : Store} {key : BlockKey} {payload : Payload}
    (found : store.lookup? key = some (payload, after)) : after.budget = store.budget := by
  rcases lookup?_eq_some found with ⟨inner, left, rfl, taken, rfl⟩ | ⟨inner, left, rfl, taken, rfl⟩
  · rcases WeightedStore.lookup?_eq_some taken with ⟨block, -, -, rfl⟩
    rfl
  · rcases SimpleStore.lookup?_eq_some taken with ⟨block, -, -, rfl⟩
    rfl

theorem Changed.budget {before after : Store} {change : Change}
    (changed : Changed before change after) : after.budget = before.budget := by
  cases changed with
  | same | admitted | discarded | flagged => rfl
  | used found => exact lookup?_budget found
  | @put store left key load payload blocks absent taken =>
      have shrinks : (store.insert key load payload).shrink.2.budget = store.budget :=
        SimpleStore.shrinkBy_kept (fun inner => inner.budget = store.budget)
          (fun _ _ before => before)
          (fun _ _ _ _ removed before => (SimpleStore.remove?_eq_some removed).2 ▸ before) _ rfl
      rw [(SimpleStore.put_eq_ok absent taken).2] at shrinks
      exact shrinks
  | outdated first =>
      rcases WeightedStore.reindexed_of_outdated first with ⟨recency, rfl⟩
      rfl
  | evicted first =>
      rcases WeightedStore.examine_eq_evicted first with ⟨rest, -, -, rfl⟩
      rfl
  | compacted due =>
      rw [WeightedStore.compact?_eq_some due]
      rfl
  | @cleared store left scope blocks taken =>
      have clears : (store.removeWhere scope).2.budget = store.budget :=
        SimpleStore.removeAll_kept (fun inner => inner.budget = store.budget)
          (fun _ _ _ _ removed before => (SimpleStore.remove?_eq_some removed).2 ▸ before) _ rfl
      rw [taken] at clears
      exact clears
  | takenBack taken => rw [(SimpleStore.remove?_eq_some taken).2]; rfl

/-- Nothing comes in unless a loader brings it.  Blocks may go under upkeep, but none is altered. -/
theorem Changed.holdings_subset {before after : Store} (changed : Changed before .upkeep after) :
    after.holdings ⊆ before.holdings := by
  cases changed with
  | same | flagged => exact List.Subset.refl _
  | discarded held =>
      exact subset_of_perm_cons (WeightedStore.discard_holdings held)
  | outdated first =>
      exact List.Perm.subset (.of_eq (congrArg holdingsOf (WeightedStore.outdated_entries first)))
  | evicted first => exact subset_of_perm_cons (WeightedStore.evicted_holdings first)
  | compacted due =>
      rw [WeightedStore.compact?_eq_some due]
      exact List.Subset.refl _
  | cleared taken => exact subset_of_perm_append (SimpleStore.removeWhere_holdings taken)
  | takenBack taken => exact subset_of_perm_cons (SimpleStore.remove?_holdings taken)

theorem Changed.kind {before after : Store} {change : Change}
    (changed : Changed before change after) : after.kind = before.kind := by
  cases changed with
  | used found =>
      cases before <;>
        · rcases Option.map_eq_some_iff.mp found with ⟨result, -, same⟩
          cases same
          rfl
  | _ => rfl

end Store

namespace Cache

open Store

theorem changed_releasePass (cache : Cache) :
    Changed cache.store .upkeep cache.releasePass.store := by
  rcases cache with ⟨store, listener, loads, counters, stack, calls, journal⟩
  cases store with
  | weighted store => exact .flagged
  | simple store => exact .same

/-- A move changes the store in one of the listed ways, and a block comes in with it only if a
loader returns that block.  The clock moves on only at an access; a value that a simple store
refuses is an access that leaves the clock alone. -/
theorem changed_of_accepted {cache next : Cache} {move : Move} (staged : Staged cache)
    (taken : Accepted cache move next) :
    ∃ change, Changed cache.store change next.store ∧
      cache.accesses + change.ticks ≤ next.accesses ∧
      ∀ payload, change = .admission payload → move = .loaderReturns payload := by
  simp only [accesses_eq]
  cases taken with
  | found _ held | hit _ held | lateHit _ _ held =>
      refine ⟨.use, .used held, ?_, by simp⟩
      simp [Event.isNoted, Event.isAccess, Change.ticks, List.countP_cons]
  | missing | opened | nothingDropped | sweepBegun | joined | claimed | failed | panicked
  | listenerReturned | loadUnwound | clearingUnwound =>
      refine ⟨.upkeep, .same, ?_, by simp⟩
      simp [Event.isNoted, Event.isAccess, Change.ticks]
  | dropped _ weighted taken =>
      rcases WeightedStore.remove?_eq_some taken with ⟨held, rfl⟩
      refine ⟨.upkeep, weighted ▸ .discarded held, ?_, by simp⟩
      simp [Event.isNoted, Event.isAccess, Change.ticks]
  | cleared _ simple taken =>
      refine ⟨.upkeep, simple ▸ .cleared taken, ?_, by simp⟩
      simp [Event.isNoted, Event.isAccess, Change.ticks]
  | @passBegun call key rest payload store top weighted _ _
  | @stored call key rest payload store top weighted _ =>
      have absent := staged.absent_weighted top weighted
      refine ⟨.admission payload, weighted ▸ .admitted absent, ?_, by simp⟩
      simp [Event.isNoted, Event.isAccess, Change.ticks, List.countP_cons]
  | @simplyStored call key rest payload store left blocks top simple taken =>
      have absent := staged.absent_simple top simple
      refine ⟨.admission payload, simple ▸ .put absent taken, ?_, by simp⟩
      simp [Event.isNoted, Event.isAccess, Change.ticks, List.countP_cons]
  | @overflown call key rest payload store left top simple taken =>
      have absent := staged.absent_simple top simple
      rcases SimpleStore.put_eq_error absent taken with ⟨-, rfl⟩
      refine ⟨.upkeep, simple ▸ .same, ?_, by simp⟩
      simp [Event.isNoted, Event.isAccess, Change.ticks, List.countP_cons]
  | passUnwound top =>
      refine ⟨.upkeep, changed_releasePass cache, ?_, by simp⟩
      simp [Event.isNoted, Event.isAccess, Change.ticks]

theorem changed_of_advanced {cache next : Cache} (taken : Advanced cache next) :
    Changed cache.store .upkeep next.store ∧ cache.accesses ≤ next.accesses := by
  simp only [accesses_eq]
  cases taken with
  | outdated _ weighted _ first =>
      refine ⟨weighted ▸ .outdated first, ?_⟩
      simp [Event.isNoted, Event.isAccess]
  | evicted _ weighted _ first =>
      refine ⟨weighted ▸ .evicted first, ?_⟩
      simp [Event.isNoted, Event.isAccess]
  | passEnded _ weighted _ =>
      refine ⟨weighted ▸ .flagged, ?_⟩
      simp
  | kept | goneAlready | retractionCounted | retractionReported | passedOver | admissionReported
  | clearingReported | reported =>
      refine ⟨.same, ?_⟩
      simp [Event.isNoted, Event.isAccess]
  | retracted _ _ weighted taken =>
      rcases WeightedStore.remove?_eq_some taken with ⟨held, rfl⟩
      refine ⟨weighted ▸ .discarded held, ?_⟩
      simp [Event.isNoted, Event.isAccess]
  | takenBack _ _ simple taken =>
      refine ⟨simple ▸ .takenBack taken, ?_⟩
      simp [Event.isNoted, Event.isAccess]
  | dropCounted | sweepEnded =>
      refine ⟨changed_compacted _, ?_⟩
      simp [Event.isNoted, Event.isAccess]
  | swept _ weighted taken =>
      rcases WeightedStore.removeLoaded?_eq_some taken with ⟨held, -, rfl⟩
      refine ⟨weighted ▸ .discarded held, ?_⟩
      simp [Event.isNoted, Event.isAccess]

end Cache
end VolumeCache
