import VolumeCache.Proofs.Runs

namespace VolumeCache
namespace Cache

/-!
# Every state of a run

A run tells what a cache is like whenever control is outside it.  Between a move and the next one
the cache takes steps of its own, and some of what is promised about it is promised of every state,
those in the middle of a call included.  So here a history advances one change at a time, be it a
move or a step.
-/

/-- One change of a cache: a move that is allowed, or a step of its own.  Unlike `Cache.perform` it
stops right there, so no state that a caller, a loader or a listener could look at is passed over.
-/
inductive Stepped (allowed : Cache → Move → Bool) (cache next : Cache) : Prop
  | moved {move : Move} (may : allowed cache move = true)
      (taken : cache.accept move = some next) : Stepped allowed cache next
  | advanced (taken : cache.advance = some next) : Stepped allowed cache next

/-- The states that runs from an origin pass through, the middle of calls included.  Nothing is
assumed of them but that each change on the way was a step or an allowed move. -/
inductive Visited (allowed : Cache → Move → Bool) (origin : Cache) : Cache → Prop
  | origin : Visited allowed origin origin
  | step {cache next : Cache} (earlier : Visited allowed origin cache)
      (stepped : Stepped allowed cache next) : Visited allowed origin next

variable {allowed : Cache → Move → Bool} {origin cache next : Cache}

theorem Stepped.listed (stepped : Stepped allowed cache next) :
    (∃ move, allowed cache move = true ∧ Accepted cache move next) ∨ Advanced cache next := by
  cases stepped with
  | moved may taken => exact Or.inl ⟨_, may, accepted_of_accept taken⟩
  | advanced taken => exact Or.inr (advanced_of_advance taken)

theorem Stepped.journal_suffix (stepped : Stepped allowed cache next) :
    cache.journal <:+ next.journal := by
  rcases stepped.listed with ⟨move, -, taken⟩ | taken
  · exact journal_suffix_of_accepted taken
  · exact journal_suffix_of_advanced taken

theorem Kept.stepped {holds : Cache → Prop} (kept : Kept allowed holds) (before : holds cache)
    (stepped : Stepped allowed cache next) : holds next := by
  rcases stepped.listed with ⟨move, may, taken⟩ | taken
  · exact kept.accepted may before taken
  · exact kept.advanced before taken

theorem Kept.visited {holds : Cache → Prop} (kept : Kept allowed holds)
    (visited : Visited allowed origin cache) (before : holds origin) : holds cache := by
  induction visited with
  | origin => exact before
  | step _ stepped ih => exact kept.stepped ih stepped

theorem Visited.advanceBy (visited : Visited allowed origin cache) (steps : Nat) :
    Visited allowed origin (cache.advanceBy steps) := by
  induction steps generalizing cache with
  | zero => exact visited
  | succ steps ih =>
      unfold Cache.advanceBy
      cases taken : cache.advance with
      | none => exact visited
      | some next => exact ih (visited.step (.advanced taken))

theorem Visited.run {final : Cache} {moves : List Move} (visited : Visited allowed origin cache)
    (run : Run allowed cache moves final) : Visited allowed origin final := by
  induction run with
  | done => exact visited
  | step may made _ ih =>
      rcases Option.map_eq_some_iff.mp made with ⟨moved, taken, rfl⟩
      exact ih ((visited.step (.moved may taken)).advanceBy _)

theorem Visited.of_run {moves : List Move} (run : Run allowed origin moves cache) :
    Visited allowed origin cache :=
  Visited.origin.run run

/-- The state right after a move; the cache itself if the move does not fit. -/
def after (cache : Cache) (move : Move) : Cache :=
  (cache.accept move).getD cache

theorem accept_eq_after {move : Move} (fitting : (cache.accept move).isSome = true) :
    cache.accept move = some (cache.after move) := by
  rcases Option.isSome_iff_exists.mp fitting with ⟨next, taken⟩
  rw [after, taken]
  rfl

theorem stepped_after {move : Move} (may : allowed cache move = true)
    (fitting : (cache.accept move).isSome = true) : Stepped allowed cache (cache.after move) :=
  .moved may (accept_eq_after fitting)

end Cache
end VolumeCache
