import VolumeCache.Registry.Basic
import VolumeCache.Scenario.Listing

namespace VolumeCache

/-!
# Sessions

A session is what happens to one set of preferences over several lives of a process: requests to
the preferences and to the registry, changes to the files from outside, and restarts, after which
the preferences are as they were and the registry is new.
-/

/-- One request of a session. -/
inductive SessionAction where
  | get (name : String)
  | set (name value : String)
  | load
  | save (configuration : Configuration)
  /-- Something else puts an entry at a path of the file tree, or removes what is there. -/
  | place (path : Path) (entry : Option FileEntry)
  | obtain
  | active
  | stored
  | saveVia (configuration : Configuration)
  | restartRequired
  | description
  | restart
  | cache (action : Scenario.Action)

inductive SessionResult where
  | kept (result : Except CacheError (Option String))
  | saved (result : Except CacheError Unit)
  | configuration (configuration : Configuration)
  | active (configuration : Option Configuration)
  /-- The kind and the budget of the cache; also whether it had been handed out before. -/
  | served (kind : StoreKind) (budget : UInt64) (again : Bool)
  | refused (fault : SizingFault)
  | flag (value : Bool)
  | described (text : String)
  | done
  | notBuilt
  | acted (report : Scenario.StepReport)

/-- A registry, the files beside preferences that are kept in memory, the listener its caches get
with the scripts it follows, and how far the scripts have been followed. -/
structure Session where
  registry : Registry
  beside : FileTree
  listener : Listener
  scripts : List Scenario.ListenerScript
  remaining : List Scenario.ListenerScript

namespace Session

/-- A session over these preferences in which nothing has happened yet. -/
def start (preferences : Preferences) (beside : FileTree) (memory : Memory) (listener : Listener)
    (scripts : List Scenario.ListenerScript) : Session where
  registry := .start preferences memory
  beside := beside
  listener := listener
  scripts := scripts
  remaining := scripts

/-- The session after a change to the preferences that did not go through the registry. -/
def withPreferences (session : Session) (preferences : Preferences) : Session :=
  { session with registry := { session.registry with preferences } }

def files (session : Session) : FileTree :=
  match session.registry.preferences with
  | .memory _ => session.beside
  | .file _ tree => tree

def withFiles (session : Session) (tree : FileTree) : Session :=
  match session.registry.preferences with
  | .memory _ => { session with beside := tree }
  | .file home _ => session.withPreferences (.file home tree)

/-- A change made by something else to the files. -/
def placeEntry (session : Session) (path : Path) (entry : Option FileEntry) : Session :=
  match entry with
  | some entry => session.withFiles (session.files.put path entry)
  | none => session.withFiles (session.files.remove path)

/-- An action on the cache, if it has been built. -/
def act (session : Session) (action : Scenario.Action) : Session × SessionResult :=
  match session.registry.active with
  | none => (session, .notBuilt)
  | some active =>
      let stage := Scenario.Stage.start active.cache session.remaining
      let (acted, report) := stage.step action
      ({ session with
          registry := session.registry.withCache acted.cache
          remaining := acted.scripts },
        .acted report)

/-- One request: the session afterwards, what it came to, and what was said.  What the cache says
while it acts is part of the report on its action. -/
def step (session : Session) (action : SessionAction) :
    Session × SessionResult × List Notice :=
  let registry := session.registry
  match action with
  | .get name => (session, .kept (registry.preferences.get name), [])
  | .set name value =>
      let change := registry.preferences.set name value
      (session.withPreferences change.after, .saved change.result, change.notices)
  | .load =>
      let (configuration, said) := registry.preferences.loadConfiguration
      (session, .configuration configuration, said)
  | .save configuration =>
      let change := registry.preferences.saveConfiguration configuration
      (session.withPreferences change.after, .saved change.result, change.notices)
  | .place path entry => (session.placeEntry path entry, .done, [])
  | .obtain =>
      let service := registry.obtain session.listener
      let result := match service.result with
        | .error fault => .refused fault
        | .ok cache => .served cache.kind cache.budget registry.active.isSome
      ({ session with registry := service.after }, result, service.notices)
  | .active => (session, .active registry.activeConfiguration, [])
  | .stored =>
      let (configuration, said) := registry.storedConfiguration
      (session, .configuration configuration, said)
  | .saveVia configuration =>
      let saving := registry.save configuration
      ({ session with registry := saving.after }, .saved saving.result, saving.notices)
  | .restartRequired =>
      let (required, said) := registry.restartRequired
      (session, .flag required, said)
  | .description => (session, .described registry.description, [])
  | .restart =>
      ({ session with
          registry := .start registry.preferences registry.memory
          remaining := session.scripts },
        .done, [])
  | .cache action =>
      let (acted, result) := session.act action
      (acted, result, [])

end Session
end VolumeCache
