import Mathlib.Algebra.Ring.Nat
import VolumeCache.Proofs.Transitions

namespace VolumeCache
namespace Cache

/-!
# Runs of a cache

A run is a sequence of moves, each made in the state the earlier ones have left.  What loaders and
listeners do is part of the moves, so quantifying over runs quantifies over every program that
uses the cache, however its calls are nested.  A run can be restricted to moves of some sort; the
restriction may depend on the state a move is made in.
-/

/-- The moves lead from the first state to the last, and each is allowed where it is made.  A move
is taken together with everything the cache then does on its own, so the states of a run are those
in which control is outside; those in between are `Visited`. -/
inductive Run (allowed : Cache → Move → Bool) : Cache → List Move → Cache → Prop
  | done {cache : Cache} : Run allowed cache [] cache
  | step {cache next final : Cache} {move : Move} {later : List Move}
      (may : allowed cache move = true) (made : cache.perform move = some next)
      (rest : Run allowed next later final) : Run allowed cache (move :: later) final

def anyMove (_ : Cache) (_ : Move) : Bool := true

/-- Every move but a panic of the listener.  Loaders may panic. -/
def calm (_ : Cache) : Move → Bool
  | .listenerPanics _ => false
  | _ => true

/-- The weights of the stored blocks, summed without wrapping.  The weight that a store accounts for
is a word, and nothing is assumed here of how the two compare. -/
def heldWeight (cache : Cache) : Nat :=
  (cache.store.entries.rows.map fun row => row.2.weight.toNat).sum

/-- A loaded value is light enough that its weight and those stored fit into a word together.  This
is asked of what loaders return and of nothing else: who loads what, when, and from inside which
other call is left open. -/
def fits (cache : Cache) : Move → Bool
  | .loaderReturns payload => cache.heldWeight + payload.weight.toNat < 2 ^ 64
  | _ => true

/-- The moves that fit and leave every listener unharmed. -/
def fitsCalmly (cache : Cache) (move : Move) : Bool :=
  cache.fits move && cache.calm move

theorem fits_of_fitsCalmly (cache : Cache) (move : Move)
    (may : cache.fitsCalmly move = true) : cache.fits move = true :=
  (Bool.and_eq_true_iff.mp may).1

theorem calm_of_fitsCalmly (cache : Cache) (move : Move)
    (may : cache.fitsCalmly move = true) : cache.calm move = true :=
  (Bool.and_eq_true_iff.mp may).2

theorem Run.append {allowed : Cache → Move → Bool} {cache next final : Cache}
    {moves more : List Move} (run : Run allowed cache moves next)
    (later : Run allowed next more final) : Run allowed cache (moves ++ more) final := by
  induction run with
  | done => exact later
  | step may made _ ih => exact .step may made (ih later)

theorem Run.weaken {allowed permitted : Cache → Move → Bool} {cache final : Cache}
    {moves : List Move} (run : Run allowed cache moves final)
    (laxer : ∀ cache move, allowed cache move = true → permitted cache move = true) :
    Run permitted cache moves final := by
  induction run with
  | done => exact .done
  | step may made _ ih => exact .step (laxer _ _ may) made ih

theorem Run.unique {allowed permitted : Cache → Move → Bool} {cache final other : Cache}
    {moves : List Move} (run : Run allowed cache moves final)
    (again : Run permitted cache moves other) : final = other := by
  induction run with
  | done =>
      cases again
      rfl
  | step _ made _ ih =>
      cases again with
      | step _ alsoMade rest =>
          cases made.symm.trans alsoMade
          exact ih rest

/-- The moves made one after the other, as long as each is allowed and accepted.  There is no result
if one of them is not. -/
def performAll (allowed : Cache → Move → Bool) (cache : Cache) : List Move → Option Cache
  | [] => some cache
  | move :: later =>
      if allowed cache move then
        (cache.perform move).bind fun next => next.performAll allowed later
      else none

theorem run_of_performAll {allowed : Cache → Move → Bool} {cache final : Cache}
    {moves : List Move} (made : cache.performAll allowed moves = some final) :
    Run allowed cache moves final := by
  induction moves generalizing cache with
  | nil =>
      cases made
      exact .done
  | cons move later ih =>
      unfold performAll at made
      split at made
      · rename_i may
        rcases Option.bind_eq_some_iff.mp made with ⟨next, moved, rest⟩
        exact .step may moved (ih rest)
      · cases made

/-- The cache after the moves; the cache itself if one of them is not allowed or not accepted.
Examples are given by the moves that lead to them, and that these can be made is checked where it
matters. -/
def reached (allowed : Cache → Move → Bool) (cache : Cache) (moves : List Move) : Cache :=
  (cache.performAll allowed moves).getD cache

theorem run_reached {allowed : Cache → Move → Bool} {cache : Cache} {moves : List Move}
    (made : (cache.performAll allowed moves).isSome = true) :
    Run allowed cache moves (reached allowed cache moves) := by
  rcases Option.isSome_iff_exists.mp made with ⟨final, all⟩
  rw [reached, all]
  exact run_of_performAll all

/-- The moves of a load that finds nothing and succeeds.  A listener that is told of something
meanwhile has to be given its moves after these. -/
def loadMoves (key : BlockKey) (payload : Payload) : List Move :=
  [.begin (.load key), .claim, .loaderReturns payload]

/-! ## Invariants -/

/-- A property that every allowed move and every step of the cache itself leaves intact.  It need
not hold anywhere; but where it holds once it holds from then on, in the middle of calls as well as
between them. -/
structure Kept (allowed : Cache → Move → Bool) (holds : Cache → Prop) : Prop where
  accepted {cache next : Cache} {move : Move} : allowed cache move = true → holds cache →
    Accepted cache move next → holds next
  advanced {cache next : Cache} : holds cache → Advanced cache next → holds next

theorem Kept.restrict {allowed permitted : Cache → Move → Bool} {holds : Cache → Prop}
    (kept : Kept permitted holds)
    (stricter : ∀ cache move, allowed cache move = true → permitted cache move = true) :
    Kept allowed holds where
  accepted may before taken := kept.accepted (stricter _ _ may) before taken
  advanced before taken := kept.advanced before taken

theorem Kept.advanceBy {allowed : Cache → Move → Bool} {holds : Cache → Prop}
    (kept : Kept allowed holds) (steps : Nat) {cache : Cache} (before : holds cache) :
    holds (cache.advanceBy steps) := by
  induction steps generalizing cache with
  | zero => exact before
  | succ steps ih =>
      unfold Cache.advanceBy
      cases taken : cache.advance with
      | none => exact before
      | some next => exact ih (kept.advanced before (advanced_of_advance taken))

theorem Kept.perform {allowed : Cache → Move → Bool} {holds : Cache → Prop}
    (kept : Kept allowed holds) {cache next : Cache} {move : Move}
    (may : allowed cache move = true) (before : holds cache)
    (made : cache.perform move = some next) : holds next := by
  unfold Cache.perform at made
  rcases Option.map_eq_some_iff.mp made with ⟨moved, taken, rfl⟩
  exact kept.advanceBy _ (kept.accepted may before (accepted_of_accept taken))

theorem Kept.run {allowed : Cache → Move → Bool} {holds : Cache → Prop}
    (kept : Kept allowed holds) {cache final : Cache} {moves : List Move}
    (run : Run allowed cache moves final) (before : holds cache) : holds final := by
  induction run with
  | done => exact before
  | step may made _ ih => exact ih (kept.perform may before made)

theorem Kept.and {allowed : Cache → Move → Bool} {known holds : Cache → Prop}
    (kept : Kept allowed known)
    (accepted : ∀ {cache next : Cache} {move : Move}, allowed cache move = true → known cache →
      holds cache → Accepted cache move next → holds next)
    (advanced : ∀ {cache next : Cache}, known cache → holds cache → Advanced cache next →
      holds next) :
    Kept allowed fun cache => known cache ∧ holds cache where
  accepted may both taken := ⟨kept.accepted may both.1 taken, accepted may both.1 both.2 taken⟩
  advanced both taken := ⟨kept.advanced both.1 taken, advanced both.1 both.2 taken⟩

/-! ## The journal only grows -/

theorem journal_suffix_of_accepted {cache next : Cache} {move : Move}
    (taken : Accepted cache move next) : cache.journal <:+ next.journal := by
  cases taken <;> simp [List.suffix_cons_iff, List.suffix_append_of_suffix]

theorem journal_suffix_of_advanced {cache next : Cache} (taken : Advanced cache next) :
    cache.journal <:+ next.journal := by
  cases taken <;> simp [List.suffix_cons_iff, List.suffix_append_of_suffix]

theorem journal_suffix_kept (journal : List Event) (allowed : Cache → Move → Bool) :
    Kept allowed fun cache => journal <:+ cache.journal where
  accepted _ before taken := before.trans (journal_suffix_of_accepted taken)
  advanced before taken := before.trans (journal_suffix_of_advanced taken)

/-- Nothing that was written into the journal is taken out of it. -/
theorem Run.journal_suffix {allowed : Cache → Move → Bool} {cache final : Cache}
    {moves : List Move} (run : Run allowed cache moves final) :
    cache.journal <:+ final.journal :=
  (journal_suffix_kept cache.journal allowed).run run List.suffix_rfl

/-! ## Accesses -/

end Cache

/-- A block was found by a look-up or brought in by a load: the events that move a clock on.  A load
counts once its loader has returned a value, even where a simple store then refuses the value. -/
def Event.isAccess : Event → Bool
  | .touched _ => true
  | .loaded .. => true
  | _ => false

namespace Cache

/-- How often a block was accessed so far.  A store's clock counts the same, but only up to a word.
-/
def accesses (cache : Cache) : Nat :=
  cache.journal.countP Event.isAccess

theorem accesses_le_of_suffix {cache final : Cache}
    (grown : cache.journal <:+ final.journal) : cache.accesses ≤ final.accesses :=
  grown.sublist.countP_le

end Cache
end VolumeCache
