import VolumeCache.Proofs.Runs
import VolumeCache.Scenario.Listing

namespace VolumeCache
namespace Scenario

/-!
# What scenarios keep

A scenario reaches the cache through moves alone, so what every move keeps is kept by everything a
scenario performs, however its actions are nested.  The reports are left out of account here.
-/

variable {holds : Cache → Prop}

/-- Whatever is performed with this much fuel keeps the property of the cache.  The five ways of
performing something call each other, so their cases are proved together. -/
structure Keeps (holds : Cache → Prop) (fuel : Nat) : Prop where
  actions : ∀ stage actions, holds stage.cache → holds (performAll fuel stage actions).1.cache
  script : ∀ stage actions, holds stage.cache → holds (performScript fuel stage actions).cache
  listener : ∀ stage depth, holds stage.cache → holds (serveListener fuel stage depth).cache
  action : ∀ stage action, holds stage.cache → holds (perform fuel stage action).1.cache
  fill : ∀ stage level position payload ran count, holds stage.cache →
    holds (performFill fuel stage level position payload ran count).1.cache

theorem keeps_zero : Keeps holds 0 := by
  constructor
  · intro stage actions before
    simpa only [performAll] using before
  · intro stage actions before
    simpa only [performScript] using before
  · intro stage depth before
    simpa only [serveListener] using before
  · intro stage action before
    simpa only [perform] using before
  · intro stage level position payload ran count before
    simpa only [performFill] using before

section Step

variable {fuel : Nat} (keeps : Keeps holds fuel)
include keeps

theorem Keeps.actions_succ (stage : Stage) (actions : List Action) (before : holds stage.cache) :
    holds (performAll (fuel + 1) stage actions).1.cache := by
  cases actions with
  | nil => simpa only [performAll] using before
  | cons action later =>
      simp only [performAll]
      exact keeps.actions _ _ (keeps.action _ _ before)

theorem Keeps.script_succ (stage : Stage) (actions : List Action) (before : holds stage.cache) :
    holds (performScript (fuel + 1) stage actions).cache := by
  cases actions with
  | nil => simpa only [performScript] using before
  | cons action later =>
      simp only [performScript]
      exact keeps.script _ _ (keeps.action _ _ before)

theorem Keeps.fill_succ (stage : Stage) (level : LevelKey) (position : Int64) (payload : Payload)
    (ran count : Nat) (before : holds stage.cache) :
    holds (performFill (fuel + 1) stage level position payload ran count).1.cache := by
  cases count with
  | zero => simpa only [performFill] using before
  | succ count =>
      simp only [performFill]
      have cell := keeps.action { stage with filling := cellKey level position :: stage.filling }
        (.load (cellKey level position) [] [] (.returns payload)) before
      split
      · rename_i panicked text ran race during followers made
        rw [made] at cell
        exact cell
      · rename_i loaded ending race during followers _ made
        rw [made] at cell
        exact keeps.fill _ _ _ _ _ _ cell
      · rename_i next result _ _ made
        rw [made] at cell
        exact keeps.fill _ _ _ _ _ _ cell

variable (moves : ∀ cache move, holds cache → holds (moved cache move))
include moves

theorem Keeps.listener_succ (stage : Stage) (depth : Nat) (before : holds stage.cache) :
    holds (serveListener (fuel + 1) stage depth).cache := by
  simp only [serveListener]
  split
  · split
    · split
      · exact keeps.listener _ _ (moves _ _ before)
      · exact keeps.listener _ _ (moves _ _ before)
      · exact keeps.listener _ _ (moves _ _ (keeps.script _ _ before))
    · exact before
  · exact before

theorem Keeps.action_succ (stage : Stage) (action : Action) (before : holds stage.cache) :
    holds (perform (fuel + 1) stage action).1.cache := by
  cases action with
  | load key race during ending =>
      have looked := moves stage.cache (.begin (.load key)) before
      have claimed : holds (moved (performAll fuel (stage.move (.begin (.load key))) race).1.cache
          .claim) := moves _ _ (keeps.actions _ _ looked)
      simp only [perform]
      split
      · exact before
      split
      · exact looked
      split
      · exact before
      split
      · exact claimed
      · exact keeps.listener _ _ (moves _ _ (keeps.actions _ _ claimed))
  | follow key =>
      have looked := moves stage.cache (.begin (.load key)) before
      simp only [perform]
      split
      · split
        · split <;> exact looked
        · exact moves _ _ looked
      · exact before
  | find key => exact moves _ _ before
  | invalidate scope => exact keeps.listener _ _ (moves _ _ before)
  | fill level first count payload => exact keeps.fill _ _ _ _ _ _ before
  | isEmpty | budget | kind | description | snapshot => exact before

end Step

/-- What every move keeps is kept by everything that is performed. -/
theorem keeps_of_moves (moves : ∀ cache move, holds cache → holds (moved cache move))
    (fuel : Nat) : Keeps holds fuel := by
  induction fuel with
  | zero => exact keeps_zero
  | succ fuel keeps =>
      exact ⟨keeps.actions_succ, keeps.script_succ, keeps.listener_succ moves,
        keeps.action_succ moves, keeps.fill_succ⟩

theorem holds_moved (kept : Cache.Kept Cache.anyMove holds) (cache : Cache) (move : Cache.Move)
    (before : holds cache) : holds (moved cache move) := by
  unfold moved
  cases made : cache.perform move with
  | none => exact before
  | some next => exact kept.perform rfl before made

/-- What every move keeps and what does not depend on the journal is kept by an action.  The journal
is blank at the beginning of each action, so properties that read it are left out. -/
theorem Stage.holds_step (kept : Cache.Kept Cache.anyMove holds)
    (cleared : ∀ cache, holds cache → holds { cache with journal := [] }) (stage : Stage)
    (action : Action) (before : holds stage.cache) : holds (stage.step action).1.cache := by
  let fresh : Stage :=
    { stage with cache := { stage.cache with journal := [] }, listenerReports := [] }
  exact (keeps_of_moves (holds_moved kept) (fresh.depth [action])).action fresh action
    (cleared stage.cache before)

end Scenario
end VolumeCache
