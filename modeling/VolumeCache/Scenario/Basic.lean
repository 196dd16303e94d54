import VolumeCache.Cache.Step
import VolumeCache.Json.Text

namespace VolumeCache
namespace Scenario

/-!
# Scenarios

A scenario says beforehand what the callers, loaders and listeners of a cache do: which calls are
made, what happens inside each loader and between a caller's first look and its claim, and what
the listener does on the first, second and every later removal.  A scenario never blocks: a call
that would wait for a load further down its own stack is not made.
-/

inductive Ending where
  | returns (payload : Payload)
  | fails (outermost : String) (causes : List String)
  | panics (text : String)

inductive Action where
  /-- Asks for a block.  The actions of `race` happen after the first look found nothing and
  before the key is claimed; those of `during` happen inside the loader. -/
  | load (key : BlockKey) (race during : List Action) (ending : Ending)
  /-- Another caller asks for a block whose load is running; the loads of a fill do not count. -/
  | follow (key : BlockKey)
  | find (key : BlockKey)
  | invalidate (scope : Scope)
  /-- Asks for the cells `first`, `first + 1`, … along the first axis, as many as `count`. -/
  | fill (level : LevelKey) (first : Int64) (count : Nat) (payload : Payload)
  | isEmpty
  | budget
  | kind
  | description
  | snapshot

/-- What a listener does on one removal. -/
inductive ListenerScript where
  | acts (actions : List Action)
  | panics (text : String)

/-- What can be seen of a cache after an action. -/
structure View where
  size : Nat
  weight : UInt64
  counters : Counters

/-- How a call for a block ended for the caller. -/
inductive LoadEnd where
  | returned (outcome : Outcome)
  | panicked (text : String)

/-- What an action came to.  A load also tells whether its loader ran, what the actions nested in
it came to, and what its followers got. -/
inductive Result where
  | loaded (ending : LoadEnd) (ran : Bool) (race during : List (Result × View))
      (followers : List Outcome)
  | followed (outcome : Outcome)
  | waiting
  | notRunning
  | wouldBlock
  | found (payload : Option Payload)
  | done
  | panicked (text : String)
  | filled (ran : Nat)
  | flag (value : Bool)
  | number (value : UInt64)
  | text (value : String)
  | described (value : String)
  | figures (snapshot : Snapshot)

/-- What an action came to and what could be seen afterwards. -/
abbrev Report := Result × View

/-- A cache with the keys whose running loads belong to fills, the part of the listener's script
that is still to come, and the reports on what the listener has done, the latest first. -/
structure Stage where
  cache : Cache
  filling : List BlockKey
  scripts : List ListenerScript
  listenerReports : List Report

/-- A cache at the beginning of an action, with the scripts that are still to come. -/
def Stage.start (cache : Cache) (scripts : List ListenerScript) : Stage :=
  ⟨cache, [], scripts, []⟩

def Stage.view (stage : Stage) : View where
  size := stage.cache.size
  weight := stage.cache.weight
  counters := stage.cache.counters

/-- A load of the key, other than one of a fill, is running. -/
def Stage.isLoading (stage : Stage) (key : BlockKey) : Bool :=
  stage.cache.loads.contains key && !stage.filling.contains key

/-- The followers that were answered by the latest events, in the order of their answers. -/
def latestAnswers : List Event → List Outcome → List Outcome
  | .answered _ _ outcome :: earlier, later => latestAnswers earlier (outcome :: later)
  | _, later => later

/-- How the call that ended last ended, and what its followers got. -/
def lastEnd (cache : Cache) : LoadEnd × List Outcome :=
  match cache.journal with
  | .returned _ (.loaded outcome) :: earlier => (.returned outcome, latestAnswers earlier [])
  | .unwound _ text :: earlier => (.panicked text, latestAnswers earlier [])
  | _ => (.panicked "", [])

def lastResult (cache : Cache) : Result :=
  match cache.journal with
  | .returned _ (.found payload) :: _ => .found payload
  | .unwound _ text :: _ => .panicked text
  | _ => .done

/-- The cache after a move; a move that does not fit changes nothing. -/
def moved (cache : Cache) (move : Cache.Move) : Cache :=
  (cache.perform move).getD cache

def Stage.move (stage : Stage) (move : Cache.Move) : Stage :=
  { stage with cache := moved stage.cache move }

/-- The move with which a loader ends. -/
def Ending.move : Ending → Cache.Move
  | .returns payload => .loaderReturns payload
  | .fails outermost causes => .loaderFails outermost causes
  | .panics text => .loaderPanics text

/-- The cell at a position along the first axis of a level; its other two coordinates are zero. -/
def cellKey (level : LevelKey) (position : Int64) : BlockKey where
  source := level.source
  timepoint := level.timepoint
  level := level.level
  block := .cell position 0 0

/-! ## How much there is to do -/

mutual

/-- The number of calls an action makes, those nested in it included, and one for itself. -/
def Action.cost : Action → Nat
  | .load _ race during _ => 1 + Action.costAll race + Action.costAll during
  | .fill _ _ count _ => 1 + count
  | _ => 1

def Action.costAll : List Action → Nat
  | [] => 0
  | action :: rest => Action.cost action + Action.costAll rest

end

def ListenerScript.cost : ListenerScript → Nat
  | .acts actions => 1 + Action.costAll actions
  | .panics _ => 1

/-- A bound on the depth to which performing these actions can nest: every nested step belongs to
an action, to a scripted removal, or to the removal of a block that is stored or is brought by one
of these actions. -/
def Stage.depth (stage : Stage) (actions : List Action) : Nat :=
  8 * (Action.costAll actions + stage.scripts.foldl (fun cost script => cost + script.cost) 0
    + stage.cache.size + stage.cache.stack.length + 4)

end Scenario
end VolumeCache
