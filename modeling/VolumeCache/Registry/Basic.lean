import VolumeCache.Cache.Building
import VolumeCache.Preferences.Store

namespace VolumeCache

/-!
# Registries

The one cache of a process.  It is built when it is first asked for, from the configuration kept in
the preferences at that moment, and then it stays.  A configuration saved later is for the next
process; whether it differs from the one in force can be asked.
-/

/-- A cache in service and the configuration it was built from. -/
structure ActiveCache where
  configuration : Configuration
  cache : Cache

/-- The preferences, the memory available, and the cache once it is built.  A cache is built at most
once; it is handed out from then on. -/
structure Registry where
  preferences : Preferences
  memory : Memory
  active : Option ActiveCache

namespace Registry

/-- A registry in which nothing has been built. -/
def start (preferences : Preferences) (memory : Memory) : Registry where
  preferences := preferences
  memory := memory
  active := none

/-- The configuration the cache was built from, once it is built. -/
def activeConfiguration (registry : Registry) : Option Configuration :=
  registry.active.map (·.configuration)

/-- The configuration that is kept now, which need not be the one in force.  It is read anew each
time, since others may write to the preferences. -/
def storedConfiguration (registry : Registry) : Configuration × List Notice :=
  registry.preferences.loadConfiguration

/-- What asking for the cache came to, the registry afterwards, and what was said. -/
structure Service where
  result : Except SizingFault Cache
  after : Registry
  notices : List Notice

/-- The cache, which is built if it has not been.  A kept configuration without a usable budget
builds none; the next request tries again. -/
def obtain (registry : Registry) (listener : Listener) : Service :=
  match registry.active with
  | some active => ⟨.ok active.cache, registry, []⟩
  | none =>
      let (configuration, said) := registry.storedConfiguration
      match Cache.build configuration registry.memory none listener with
      | .error fault => ⟨.error fault, registry, said⟩
      | .ok (cache, saidLater) =>
          ⟨.ok cache, { registry with active := some ⟨configuration, cache⟩ },
            said ++ saidLater ++ [.registryInitialized cache.kind cache.budget]⟩

/-- The configuration kept now differs from the one in force.  Before the cache is built no
configuration is in force. -/
def restartRequired (registry : Registry) : Bool × List Notice :=
  match registry.active with
  | none => (false, [])
  | some active =>
      let (stored, said) := registry.storedConfiguration
      (active.configuration != stored, said)

/-- What saving a configuration came to, the registry afterwards, and what was said. -/
structure Saving where
  result : Except CacheError Unit
  after : Registry
  notices : List Notice

/-- A configuration kept for the next process. -/
def save (registry : Registry) (configuration : Configuration) : Saving :=
  let change := registry.preferences.saveConfiguration configuration
  let after := { registry with preferences := change.after }
  match change.result with
  | .error error => ⟨.error error, after, change.notices⟩
  | .ok () =>
      let (required, said) := after.restartRequired
      ⟨.ok (), after, change.notices ++ said ++ (if required then [.restartNeeded] else [])⟩

/-- The registry with its cache replaced by what became of it. -/
def withCache (registry : Registry) (cache : Cache) : Registry :=
  { registry with active := registry.active.map fun active => { active with cache } }

def description (registry : Registry) : String :=
  "CacheRegistry \x7b memory: " ++ registry.memory.description ++ ", initialized: "
    ++ (if registry.active.isSome then "true" else "false") ++ " \x7d"

end Registry
end VolumeCache
