import VolumeCache.Proofs.Disposal
import VolumeCache.Proofs.Passes
import VolumeCache.Proofs.Steps

namespace VolumeCache
namespace Cache

/-!
# The weight of a weighted store in every state

A weighted store keeps its weight beside its blocks: it is raised where a block comes in and lowered
where one goes, and between two such places a listener may run, begin calls of its own or panic.
Here the weight is compared with the blocks in every state, the middle of passes and sweeps and the
aftermath of panics included.  Nothing is assumed about the weights of values; where their sum does
not fit into a word, the weight is what is left of it.
-/

/-- What a cache with a weighted store keeps true in every state, whatever is loaded and whatever
panics.  Weights may wrap here: the sum that is kept is compared with the true one as a word. -/
structure Charged (cache : Cache) : Prop where
  coherent : Coherent cache
  kind : cache.kind = .weighted
  weighed : cache.store.Weighed
  disposed : Disposed cache

theorem not_simple {cache : Cache} (kind : cache.kind = .weighted) (store : SimpleStore) :
    cache.store ≠ .simple store := by
  intro simple
  rw [Cache.kind, simple] at kind
  cases kind

theorem charged_kept (allowed : Cache → Move → Bool) : Kept allowed Charged where
  accepted may charged taken := by
    rcases changed_of_accepted charged.coherent.staged taken with ⟨change, changed, -, -⟩
    -- Only a simple store can refuse what a loader has brought.
    have flows := flows_of_accepted charged.coherent.staged
      (fun _ _ simple => absurd simple (not_simple charged.kind _)) taken
    exact
      { coherent := (coherent_kept allowed).accepted may charged.coherent taken
        kind := changed.kind.trans charged.kind
        weighed := changed.weighed charged.weighed
        disposed := charged.disposed.flows flows }
  advanced charged taken := by
    have changed := (changed_of_advanced taken).1
    exact
      { coherent := (coherent_kept allowed).advanced charged.coherent taken
        kind := changed.kind.trans charged.kind
        weighed := changed.weighed charged.weighed
        disposed := charged.disposed.flows (flows_of_advanced taken) }

theorem charged_start (budget : UInt64) (listener : Listener) :
    Charged (start (.weighted (.empty budget)) listener) where
  coherent := coherent_start _ listener rfl
  kind := rfl
  weighed := rfl
  disposed := List.Perm.refl _

/-- What has come in weighs as much as what is stored and what has gone. -/
theorem Disposed.weightOf_arrivals {cache : Cache} (disposed : Disposed cache) :
    weightOf cache.arrivals =
      cache.heldWeight + weightOf (cache.removals.map Removal.holding) := by
  rw [weightOf_perm disposed, weightOf_append, heldWeight_eq]

theorem heldWeight_of_size {cache : Cache} (nothing : cache.size = 0) : cache.heldWeight = 0 := by
  have rows : cache.store.entries.rows = [] := List.eq_nil_of_length_eq_zero nothing
  rw [heldWeight, rows]
  rfl

/-- In every state of every run the weight of a weighted store is the sum of the weights of its
blocks, as far as it goes into a word; so an empty store weighs nothing.  It is what all blocks that
ever came in have added less what all that have gone took away again, and these sums, which do not
wrap, differ by the weight of the stored blocks exactly.  Nothing is assumed of loaders and
listeners, and the states include those in the middle of a pass. -/
theorem weight_balances (budget : UInt64) (listener : Listener) {cache : Cache}
    (visited : Visited anyMove (start (.weighted (.empty budget)) listener) cache) :
    let added := weightOf cache.arrivals
    let subtracted := weightOf (cache.removals.map Removal.holding)
    cache.weight.toNat = cache.heldWeight % 2 ^ 64 ∧
      (cache.size = 0 → cache.weight = 0) ∧
      cache.weight = UInt64.ofNat added - UInt64.ofNat subtracted ∧
      added = subtracted + cache.heldWeight := by
  intro added subtracted
  have charged := (charged_kept anyMove).visited visited (charged_start budget listener)
  have sum : cache.weight = UInt64.ofNat cache.heldWeight := by
    rw [heldWeight_eq]
    exact charged.weighed
  have flow : added = subtracted + cache.heldWeight := by
    rw [Nat.add_comm]
    exact charged.disposed.weightOf_arrivals
  refine ⟨?_, fun nothing => ?_, ?_, flow⟩
  · rw [sum, UInt64.toNat_ofNat']
  · rw [sum, heldWeight_of_size nothing]
    rfl
  · rw [flow, UInt64.ofNat_add, UInt64.add_comm, UInt64.add_sub_cancel, sum]

/-- The weights of the first two blocks sum up to a word of four, far more than the budget though
they are.  The third one brings the word over the budget, too, and a listener is running that has
been told that the first one was evicted. -/
def wrapped : Cache :=
  reached anyMove (start (.weighted (.empty 10)) .interactive)
    (loadMoves ⟨⟨0⟩, 0, 0, .index 1⟩ (.standIn 5 "")
      ++ loadMoves ⟨⟨0⟩, 0, 0, .index 2⟩ (.standIn 0xffffffffffffffff "")
      ++ loadMoves ⟨⟨0⟩, 0, 0, .index 3⟩ (.standIn 7 ""))

theorem weight_balances_wrapped :
    Visited anyMove (start (.weighted (.empty 10)) .interactive) wrapped ∧
      wrapped.isSettled = true ∧ wrapped.store.evicting = true ∧
      wrapped.size = 2 ∧ wrapped.heldWeight = 2 ^ 64 + 6 ∧
      wrapped.weight.toNat = (2 ^ 64 + 6) % 2 ^ 64 := by
  have visited : Visited anyMove (start (.weighted (.empty 10)) .interactive) wrapped :=
    .of_run (run_reached (by decide +kernel))
  have held : wrapped.heldWeight = 2 ^ 64 + 6 := by decide +kernel
  have balances := (weight_balances 10 .interactive visited).1
  rw [held] at balances
  exact ⟨visited, by decide +kernel, by decide +kernel, by decide +kernel, held, balances⟩

end Cache
end VolumeCache
