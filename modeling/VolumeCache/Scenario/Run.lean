import VolumeCache.Scenario.Basic

namespace VolumeCache
namespace Scenario

/-!
# Performing scenarios

A scenario is performed action by action.  Whenever the cache hands control to a loader or to the
listener, the actions scripted for that moment are performed there and then, so the reports come
in the order in which the actions end.
-/

mutual

/-- The actions in order, with their reports. -/
def performAll : Nat → Stage → List Action → Stage × List Report
  | 0, stage, _ => (stage, [])
  | _, stage, [] => (stage, [])
  | fuel + 1, stage, action :: rest =>
      let (acted, result) := perform fuel stage action
      let report : Report := (result, acted.view)
      let (final, reports) := performAll fuel acted rest
      (final, report :: reports)

/-- The actions of a listener's script in order; each report is filed when its action ends. -/
def performScript : Nat → Stage → List Action → Stage
  | 0, stage, _ => stage
  | _, stage, [] => stage
  | fuel + 1, stage, action :: rest =>
      let (acted, result) := perform fuel stage action
      let report : Report := (result, acted.view)
      performScript fuel { acted with listenerReports := report :: acted.listenerReports } rest

/-- While the listener runs on behalf of a call above `depth`, its script for this removal is
performed and it is left; after the last script it just returns. -/
def serveListener : Nat → Stage → Nat → Stage
  | 0, stage, _ => stage
  | fuel + 1, stage, depth =>
      match stage.cache.stack with
      | .listening _ :: beneath =>
          if depth ≤ beneath.length then
            match stage.scripts with
            | [] => serveListener fuel (stage.move .listenerReturns) depth
            | .panics text :: later =>
                serveListener fuel ({ stage with scripts := later }.move (.listenerPanics text))
                  depth
            | .acts actions :: later =>
                let acted := performScript fuel { stage with scripts := later } actions
                serveListener fuel (acted.move .listenerReturns) depth
          else stage
      | _ => stage

def perform : Nat → Stage → Action → Stage × Result
  | 0, stage, _ => (stage, .done)
  | fuel + 1, stage, action =>
      let depth := stage.cache.stack.length
      match action with
      | .load key race during ending =>
          if stage.isLoading key then (stage, .wouldBlock)
          else
            let looked := stage.move (.begin (.load key))
            if looked.cache.stack.length = depth then
              let (ended, followers) := lastEnd looked.cache
              (looked, .loaded ended false [] [] followers)
            else if stage.cache.loads.contains key then (stage, .wouldBlock)
            else
              let (raced, raceReports) := performAll fuel looked race
              let claimed := raced.move .claim
              if claimed.cache.stack.length = depth then
                let (ended, followers) := lastEnd claimed.cache
                (claimed, .loaded ended false raceReports [] followers)
              else
                let (inside, duringReports) := performAll fuel claimed during
                let final := serveListener fuel (inside.move ending.move) depth
                let (ended, followers) := lastEnd final.cache
                (final, .loaded ended true raceReports duringReports followers)
      | .follow key =>
          if stage.isLoading key then
            let looked := stage.move (.begin (.load key))
            if looked.cache.stack.length = depth then
              match lastEnd looked.cache with
              | (.returned outcome, _) => (looked, .followed outcome)
              | (.panicked text, _) => (looked, .panicked text)
            else (looked.move .claim, .waiting)
          else (stage, .notRunning)
      | .find key =>
          let found := stage.move (.begin (.find key))
          (found, lastResult found.cache)
      | .invalidate scope =>
          let final := serveListener fuel (stage.move (.begin (.invalidate scope))) depth
          (final, lastResult final.cache)
      | .fill level first count payload => performFill fuel stage level first payload 0 count
      | .isEmpty => (stage, .flag (stage.cache.size == 0))
      | .budget => (stage, .number stage.cache.budget)
      | .kind => (stage, .text stage.cache.kind.name)
      | .description => (stage, .described stage.cache.description)
      | .snapshot => (stage, .figures stage.cache.snapshot)

/-- The remaining cells of a fill.  A panic ends it; a key whose load is running is passed over if
it is not stored. -/
def performFill : Nat → Stage → LevelKey → Int64 → Payload → Nat → Nat → Stage × Result
  | 0, stage, _, _, _, ran, _ => (stage, .filled ran)
  | _, stage, _, _, _, ran, 0 => (stage, .filled ran)
  | fuel + 1, stage, level, position, payload, ran, count + 1 =>
      let key := cellKey level position
      let filling := { stage with filling := key :: stage.filling }
      match perform fuel filling (.load key [] [] (.returns payload)) with
      | (panicked, .loaded (.panicked text) _ _ _ _) =>
          ({ panicked with filling := stage.filling }, .panicked text)
      | (loaded, .loaded _ true _ _ _) =>
          performFill fuel { loaded with filling := stage.filling } level (position + 1) payload
            (ran + 1) count
      | (next, _) =>
          performFill fuel { next with filling := stage.filling } level (position + 1) payload
            ran count

end

/-- What one action of a scenario came to, everything it removed, what the listener did meanwhile
and what was said. -/
structure StepReport where
  result : Result
  view : View
  removals : List Removal
  listener : List Report
  notices : List Notice

/-- The notices of a journal in the order in which they were made. -/
def notices (journal : List Event) : List Notice :=
  journal.reverse.filterMap fun event =>
    match event with
    | .noticed notice => some notice
    | _ => none

end Scenario
end VolumeCache
