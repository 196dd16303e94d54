import VolumeCache.Reporter
import VolumeCache.Scenario.Listing

namespace VolumeCache
namespace Scenario

/-!
# Scenarios with a reporter

A cache is used while a reporter watches it.  Whoever started the reporter holds a handle; without
it nothing can be asked of the reporter any more.
-/

inductive WatchedAction where
  | sleep (milliseconds : Nat)
  | stop
  | abort
  | isFinished
  | act (action : Action)

inductive WatchedResult where
  | done
  | finished (value : Option Bool)
  | acted (report : StepReport)

/-- A cache and the reporter that watches it, as long as its handle is held. -/
structure Watch where
  stage : Stage
  reporter : Option Reporter

namespace Watch

def step (watch : Watch) (action : WatchedAction) : Watch × WatchedResult × List Notice :=
  match action with
  | .sleep milliseconds =>
      match watch.reporter with
      | none => (watch, .done, [])
      | some reporter =>
          let (waited, said) :=
            reporter.pass milliseconds watch.stage.cache.kind watch.stage.cache.snapshot
          ({ watch with reporter := some waited }, .done, said)
  | .stop =>
      ({ watch with reporter := none }, .done, (watch.reporter.map Reporter.farewell).getD [])
  | .abort => ({ watch with reporter := watch.reporter.map Reporter.abort }, .done, [])
  | .isFinished => (watch, .finished (watch.reporter.map (·.isFinished)), [])
  | .act action =>
      let (acted, report) := watch.stage.step action
      ({ watch with stage := acted }, .acted report, report.notices)

end Watch

end Scenario
end VolumeCache
