import VolumeCache.Proofs.Documents
import VolumeCache.Proofs.Preferences
import VolumeCache.Proofs.Sessions

namespace VolumeCache

/-!
# What a restart would bring

A registry that calls for no restart would be built again as it is.  Conversely, once the
configuration in force has been saved no restart is called for, whatever was kept before.  The
second half holds because a configuration in force has been read or is the standard one, and what
has been read is read back as it is.
-/

/-! ## Configurations in force -/

/-- The configuration that counts as kept is read back as it is when it is saved. -/
theorem Preferences.clamped_loadConfiguration (preferences : Preferences) :
    preferences.loadConfiguration.1.clamped = preferences.loadConfiguration.1 := by
  rcases Preferences.keeps_iff.mpr (Eq.refl preferences.loadConfiguration.1) with
    ⟨text, -, valid⟩ | ⟨-, standard⟩
  · exact Configuration.clamped_of_ofText valid
  · rw [standard]
    rfl

namespace Session

/-- A cache in service is as its configuration has it, and the configuration is read back as it is
when it is saved.  The latter is so because the configuration was itself read or is the standard
one. -/
def Warranted (session : Session) : Prop :=
  ∀ active, session.registry.active = some active →
    active.Conforms session.registry.memory ∧ active.configuration.clamped = active.configuration

theorem Warranted.of_same {before after : Session} (warranted : before.Warranted)
    (same : SameService before after) : after.Warranted := by
  intro active built
  rw [same.memory]
  exact warranted active (same.active.symm.trans built)

theorem warranted_of_unbuilt {session : Session} (unbuilt : session.registry.active = none) :
    session.Warranted := by
  intro active built
  cases unbuilt.symm.trans built

theorem warranted_of_conforms {session : Session} {active : ActiveCache}
    (built : session.registry.active = some active)
    (conforms : active.Conforms session.registry.memory)
    (exact : active.configuration.clamped = active.configuration) : session.Warranted := by
  intro other same
  cases built.symm.trans same
  exact ⟨conforms, exact⟩

theorem Warranted.obtain {session : Session} (warranted : session.Warranted) :
    (session.step .obtain).1.Warranted := by
  cases before : session.registry.active with
  | some active =>
      have kept := congrArg Registry.Service.after
        (Registry.obtain_of_active before session.listener)
      exact warranted.of_same
        ⟨congrArg Registry.active kept, congrArg Registry.memory kept, rfl, rfl⟩
  | none =>
      rcases Registry.obtain_of_inactive before session.listener with
        ⟨fault, -, -, left⟩ | ⟨cache, conforms, -, left⟩
      · exact warranted_of_unbuilt ((congrArg Registry.active left).trans before)
      · have memory : (session.step .obtain).1.registry.memory = session.registry.memory :=
          (congrArg Registry.memory left).trans rfl
        exact warranted_of_conforms (congrArg Registry.active left) (memory ▸ conforms)
          (Preferences.clamped_loadConfiguration _)

theorem Warranted.act {session : Session} (warranted : session.Warranted)
    (action : Scenario.Action) : (session.step (.cache action)).1.Warranted := by
  cases before : session.registry.active with
  | none => exact warranted_of_unbuilt (by simp only [step, Session.act, before])
  | some active =>
      rcases step_cache before action with ⟨acted, memory, -⟩
      have known := warranted active before
      exact warranted_of_conforms acted (memory ▸ known.1.step session.remaining action) known.2

theorem Warranted.step {session : Session} (warranted : session.Warranted)
    (action : SessionAction) : (session.step action).1.Warranted := by
  by_cases acts : ∃ act, action = .cache act
  · rcases acts with ⟨act, rfl⟩
    exact warranted.act act
  by_cases asks : action = .obtain
  · exact asks ▸ warranted.obtain
  by_cases restarts : action = .restart
  · exact restarts ▸ warranted_of_unbuilt rfl
  · exact warranted.of_same (sameService_of_step asks restarts fun act same => acts ⟨act, same⟩)

theorem warranted_after {session : Session} (fresh : session.registry.active = none)
    (actions : List SessionAction) : (session.after actions).Warranted := by
  have kept : ∀ session : Session, session.Warranted → (session.after actions).Warranted := by
    induction actions with
    | nil => exact fun _ warranted => warranted
    | cons action later ih => exact fun _ warranted => ih _ (warranted.step action)
  exact kept session (warranted_of_unbuilt fresh)

end Session

/-! ## Restarts -/

/-- A configuration that was saved without a complaint, and that is read back as it is, is the one
that is kept then.  A number of mebibytes that is cut down when it is written would come back
smaller. -/
theorem Preferences.loadConfiguration_of_saved {preferences : Preferences}
    {configuration : Configuration} (exact : configuration.clamped = configuration)
    (saved : (preferences.saveConfiguration configuration).result = .ok ()) :
    (preferences.saveConfiguration configuration).after.loadConfiguration.1 = configuration := by
  rcases values_set saved with ⟨values, held, found⟩
  refine loadConfiguration_of_stores ⟨configuration.text, ?_, ?_⟩
  · rw [saveConfiguration, get, held]
    exact congrArg Except.ok ((found _).trans (if_pos rfl))
  · rw [Configuration.ofText_text, exact]

namespace Registry

/-- A new registry that finds the configuration of this cache kept builds one like it.  Kind and
budget are the same; the new cache is empty. -/
theorem obtain_of_conforms {preferences : Preferences} {memory : Memory} {active : ActiveCache}
    (conforms : active.Conforms memory)
    (kept : preferences.loadConfiguration.1 = active.configuration) (listener : Listener) :
    ∃ cache, ((start preferences memory).obtain listener).result = .ok cache ∧
      cache.kind = active.cache.kind ∧ cache.budget = active.cache.budget := by
  have stored : (start preferences memory).storedConfiguration.1 = active.configuration := kept
  have unbuilt : (start preferences memory).active = none := rfl
  rcases obtain_of_inactive unbuilt listener with
    ⟨fault, unresolved, -, -⟩ | ⟨cache, alike, served, -⟩
  · rw [stored] at unresolved
    cases conforms.budget.symm.trans unresolved
  · rw [stored] at alike
    have budget : Except.ok cache.budget = Except.ok active.cache.budget :=
      alike.budget.symm.trans conforms.budget
    exact ⟨cache, served, alike.kind.trans conforms.kind.symm, Except.ok.inj budget⟩

theorem save_eq_ok_iff {registry : Registry} {configuration : Configuration} :
    (registry.save configuration).result = .ok () ↔
      (registry.preferences.saveConfiguration configuration).result = .ok () := by
  unfold save
  dsimp only
  split <;> simp_all

end Registry

namespace Session

/-- Let a cache be in service after any requests, and the preferences be whatever has become of them
since.  If no restart is called for, a new registry over the same preferences and with the same
memory builds a cache of the same kind with the same budget.  And once the configuration in force
has been saved, no restart is called for. -/
theorem restart_called_for_faithfully {session : Session} (fresh : session.registry.active = none)
    {actions : List SessionAction} {active : ActiveCache}
    (built : (session.after actions).registry.active = some active) (preferences : Preferences) :
    let registry := ((session.after actions).withPreferences preferences).registry
    (registry.restartRequired.1 = false → ∀ listener, ∃ cache,
        ((Registry.start preferences registry.memory).obtain listener).result = .ok cache ∧
          cache.kind = active.cache.kind ∧ cache.budget = active.cache.budget) ∧
      ((registry.save active.configuration).result = .ok () →
        (registry.save active.configuration).after.restartRequired.1 = false) := by
  intro registry
  rcases warranted_after fresh actions active built with ⟨conforms, exact⟩
  have inForce : registry.active = some active := built
  constructor
  · intro unneeded listener
    rw [Registry.restartRequired_of_active inForce, bne_eq_false_iff_eq] at unneeded
    exact Registry.obtain_of_conforms conforms unneeded.symm listener
  · intro saved
    have after := registry.save_after active.configuration
    have stillInForce : (registry.save active.configuration).after.active = some active :=
      (congrArg Registry.active after).trans inForce
    have kept : (registry.save active.configuration).after.storedConfiguration.1 =
        active.configuration := by
      rw [after]
      exact Preferences.loadConfiguration_of_saved exact (Registry.save_eq_ok_iff.mp saved)
    rw [Registry.restartRequired_of_active stillInForce, bne_eq_false_iff_eq, kept]

def twoMebibytes : Session :=
  .start (.memory Table.empty) ⟨Table.empty, []⟩ ⟨0x200000⟩ .absent []

def halfOfThem : ActiveCache where
  configuration := .standard
  cache := .start (.empty .weighted 0x100000 none) .absent

/-- A preference file that holds no object of texts. -/
def damagedFile : Preferences :=
  .file ⟨["p"]⟩ ⟨Table.empty.insert ["p"] (.file "?".toUTF8), []⟩

/-- A file that tells nothing calls for no restart, neither as it is nor once it is replaced. -/
theorem restart_called_for_faithfully_damaged_file :
    twoMebibytes.registry.active = none ∧
      (twoMebibytes.after [.obtain]).registry.active = some halfOfThem ∧
      let registry := ((twoMebibytes.after [.obtain]).withPreferences damagedFile).registry
      (registry.restartRequired.1 = false ∧ ∃ cache,
          ((Registry.start damagedFile registry.memory).obtain .absent).result = .ok cache ∧
            cache.kind = halfOfThem.cache.kind ∧ cache.budget = halfOfThem.cache.budget) ∧
        (registry.save halfOfThem.configuration).result = .ok () ∧
          (registry.save halfOfThem.configuration).after.restartRequired.1 = false := by
  have fresh : twoMebibytes.registry.active = none := rfl
  have built : (twoMebibytes.after [.obtain]).registry.active = some halfOfThem := rfl
  have faithful := restart_called_for_faithfully fresh built damagedFile
  have unneeded : ((twoMebibytes.after [.obtain]).withPreferences
      damagedFile).registry.restartRequired.1 = false := by decide +kernel
  have saved : (((twoMebibytes.after [.obtain]).withPreferences damagedFile).registry.save
      halfOfThem.configuration).result = .ok () := Registry.save_eq_ok_iff.mpr rfl
  exact ⟨fresh, built, ⟨unneeded, faithful.1 unneeded .absent⟩, saved, faithful.2 saved⟩

end Session
end VolumeCache
