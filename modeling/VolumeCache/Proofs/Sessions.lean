import VolumeCache.Proofs.Budget
import VolumeCache.Proofs.Documents
import VolumeCache.Proofs.Scenarios
import VolumeCache.Registry.Session

namespace VolumeCache

/-!
# The cache of a registry over its life

A registry builds its cache at the first request that finds a usable configuration kept, and from
then on neither a configuration saved later nor damage to the preferences reaches it.  Here a
session is followed request by request, first up to the request that is served and then from there
on.  Nothing is assumed about the preferences, which anything may be put into between two requests.
-/

/-! ## The configuration that is kept -/

namespace Preferences

/-- A text that stores this configuration is kept.  The text may have any layout, and other texts
may be kept beside it. -/
def Stores (preferences : Preferences) (configuration : Configuration) : Prop :=
  ∃ text, preferences.get configurationName = .ok (some text) ∧
    Configuration.ofText text = .ok configuration

/-- The configuration that counts as kept: the one that is stored, or the standard one where none is
stored, be it that there is no text, that it cannot be read or that it is malformed.  There is
always exactly one. -/
def Keeps (preferences : Preferences) (configuration : Configuration) : Prop :=
  preferences.Stores configuration ∨
    (∀ stored, ¬ preferences.Stores stored) ∧ configuration = .standard

theorem loadConfiguration_of_stores {preferences : Preferences} {configuration : Configuration}
    (stores : preferences.Stores configuration) :
    preferences.loadConfiguration.1 = configuration := by
  rcases stores with ⟨text, found, valid⟩
  simp only [loadConfiguration, found, Configuration.ofTextOrStandard, valid]

theorem loadConfiguration_of_stores_none {preferences : Preferences}
    (none : ∀ stored, ¬ preferences.Stores stored) :
    preferences.loadConfiguration.1 = .standard := by
  unfold loadConfiguration
  split
  · rename_i text found
    cases valid : Configuration.ofText text with
    | ok configuration => exact absurd ⟨text, found, valid⟩ (none configuration)
    | error fault => simp only [Configuration.ofTextOrStandard, valid]
  · rfl
  · rfl

theorem keeps_iff {preferences : Preferences} {configuration : Configuration} :
    preferences.Keeps configuration ↔ preferences.loadConfiguration.1 = configuration := by
  constructor
  · rintro (stores | ⟨none, rfl⟩)
    · exact loadConfiguration_of_stores stores
    · exact loadConfiguration_of_stores_none none
  · rintro rfl
    by_cases some : ∃ stored, preferences.Stores stored
    · rcases some with ⟨stored, stores⟩
      rw [loadConfiguration_of_stores stores]
      exact .inl stores
    · have none : ∀ stored, ¬ preferences.Stores stored := fun stored stores =>
        some ⟨stored, stores⟩
      exact .inr ⟨none, loadConfiguration_of_stores_none none⟩

end Preferences

/-! ## Caches as their configuration has them -/

/-- The cache is as its configuration has it: of its kind, and with the budget it gives for the
memory available.  What the cache stores by now is left open. -/
structure ActiveCache.Conforms (active : ActiveCache) (memory : Memory) : Prop where
  coherent : active.cache.Coherent
  kind : active.cache.kind = active.configuration.kind
  budget : active.configuration.resolve memory = .ok active.cache.budget

theorem Store.kind_empty (kind : StoreKind) (budget : UInt64) (limit : Option UInt64) :
    (Store.empty kind budget limit).kind = kind := by
  cases kind <;> rfl

theorem Store.budget_empty (kind : StoreKind) (budget : UInt64) (limit : Option UInt64) :
    (Store.empty kind budget limit).budget = budget := by
  cases kind <;> rfl

theorem conforms_of_build {configuration : Configuration} {memory : Memory}
    {limit : Option UInt64} {listener : Listener} {cache : Cache} {said : List Notice}
    (built : Cache.build configuration memory limit listener = .ok (cache, said)) :
    ActiveCache.Conforms ⟨configuration, cache⟩ memory := by
  unfold Cache.build at built
  split at built
  · cases built
  rename_i budget resolved
  cases built
  exact ⟨(Cache.accounted_start _ _ _ _).coherent, Store.kind_empty _ _ _,
    by simpa only [Cache.budget, Cache.start, Store.budget_empty] using resolved⟩

theorem Cache.Coherent.forget {cache : Cache} (coherent : cache.Coherent) :
    Cache.Coherent { cache with journal := [] } where
  numbered := coherent.numbered.of_sublist (List.Sublist.refl _) (Nat.le_refl _)
  endedApart := by simp [EndedApart, Ended]
  claimsMatch := coherent.claimsMatch
  staged := ⟨coherent.staged.vacant, coherent.staged.own⟩

theorem ActiveCache.Conforms.step {configuration : Configuration} {memory : Memory}
    {cache : Cache} (conforms : ActiveCache.Conforms ⟨configuration, cache⟩ memory)
    (scripts : List Scenario.ListenerScript) (action : Scenario.Action) :
    ActiveCache.Conforms
      ⟨configuration, ((Scenario.Stage.start cache scripts).step action).1.cache⟩ memory := by
  have kept := Scenario.Stage.holds_step (Cache.limits_kept Cache.anyMove cache.kind cache.budget)
    (fun _ before => ⟨before.1.forget, before.2⟩) (Scenario.Stage.start cache scripts) action
    ⟨conforms.coherent, rfl, rfl⟩
  exact ⟨kept.1, kept.2.1.trans conforms.kind, kept.2.2 ▸ conforms.budget⟩

/-! ## Requests -/

theorem Registry.restartRequired_of_active {registry : Registry} {active : ActiveCache}
    (built : registry.active = some active) :
    registry.restartRequired.1 = (active.configuration != registry.storedConfiguration.1) := by
  simp only [restartRequired, built]

theorem Registry.obtain_of_active {registry : Registry} {active : ActiveCache}
    (built : registry.active = some active) (listener : Listener) :
    registry.obtain listener = ⟨.ok active.cache, registry, []⟩ := by
  simp only [obtain, built]

theorem Registry.save_after (registry : Registry) (configuration : Configuration) :
    (registry.save configuration).after =
      { registry with
        preferences := (registry.preferences.saveConfiguration configuration).after } := by
  unfold save
  dsimp only
  split <;> rfl

/-- The first request for the cache builds it as the configuration that is kept has it, or leaves
everything as it is. -/
theorem Registry.obtain_of_inactive {registry : Registry} (unbuilt : registry.active = none)
    (listener : Listener) :
    (∃ fault, registry.storedConfiguration.1.resolve registry.memory = .error fault ∧
      (registry.obtain listener).result = .error fault ∧
      (registry.obtain listener).after = registry) ∨
    ∃ cache, ActiveCache.Conforms ⟨registry.storedConfiguration.1, cache⟩ registry.memory ∧
      (registry.obtain listener).result = .ok cache ∧
      (registry.obtain listener).after =
        { registry with active := some ⟨registry.storedConfiguration.1, cache⟩ } := by
  simp only [obtain, unbuilt]
  cases built : Cache.build registry.storedConfiguration.1 registry.memory none listener with
  | error fault =>
      refine .inl ⟨fault, ?_, rfl, rfl⟩
      unfold Cache.build at built
      split at built <;> cases built
      assumption
  | ok result => exact .inr ⟨result.1, conforms_of_build built, rfl, rfl⟩

namespace Session

def after (session : Session) (actions : List SessionAction) : Session :=
  actions.foldl (fun session action => (session.step action).1) session

/-- What asking for the cache would come to now.  Nothing is changed by this; the request itself
would put the cache into service. -/
def obtained (session : Session) : Except SizingFault Cache :=
  (session.registry.obtain session.listener).result

/-- Among these requests there is none for the cache that is served.  There may be requests that
fail because no budget is given. -/
def Unserved (session : Session) (actions : List SessionAction) : Prop :=
  ∀ earlier later, actions = earlier ++ .obtain :: later →
    ∀ cache, (session.after earlier).obtained ≠ .ok cache

/-- A cache and what is left of the scripts of its listener after these requests, of which those to
the cache itself are the only ones that reach it.  Requests that change what is kept pass it by. -/
def used (cache : Cache) (scripts : List Scenario.ListenerScript) :
    List SessionAction → Cache × List Scenario.ListenerScript
  | [] => (cache, scripts)
  | .cache action :: later =>
      let (acted, _) := (Scenario.Stage.start cache scripts).step action
      used acted.cache acted.scripts later
  | _ :: later => used cache scripts later

/-- No cache has been handed out yet: no configuration is in force, no restart is called for, and
the cache can be had exactly if the configuration that is kept now gives a budget.  What is kept may
change any number of times in this phase. -/
structure Idle (session : Session) : Prop where
  active : session.registry.activeConfiguration = none
  required : session.registry.restartRequired.1 = false
  obtains : ∀ stored, session.registry.preferences.Keeps stored →
    ((∃ cache, session.obtained = .ok cache) ↔
      ∃ budget, stored.resolve session.registry.memory = .ok budget)

/-- This cache is in service, built from this configuration: whoever asks for the cache gets it, it
is as the configuration has it, and a restart is called for exactly if another configuration is kept
now.  The cache itself may have been used in any way since it was built. -/
structure InService (session : Session) (configuration : Configuration) (cache : Cache) : Prop where
  active : session.registry.activeConfiguration = some configuration
  obtains : ∀ listener, session.registry.obtain listener = ⟨.ok cache, session.registry, []⟩
  kind : cache.kind = configuration.kind
  budget : configuration.resolve session.registry.memory = .ok cache.budget
  required : ∀ stored, session.registry.preferences.Keeps stored →
    (session.registry.restartRequired.1 = true ↔ stored ≠ configuration)

/-! ### One request -/

/-- What has to do with the cache in service is the same. -/
structure SameService (before after : Session) : Prop where
  active : after.registry.active = before.registry.active
  memory : after.registry.memory = before.registry.memory
  listener : after.listener = before.listener
  remaining : after.remaining = before.remaining

theorem sameService_withFiles (session : Session) (tree : FileTree) :
    SameService session (session.withFiles tree) := by
  unfold withFiles
  split <;> exact ⟨rfl, rfl, rfl, rfl⟩

theorem sameService_save (session : Session) (configuration : Configuration) :
    SameService session
      { session with registry := (session.registry.save configuration).after } := by
  rw [Registry.save_after]
  exact ⟨rfl, rfl, rfl, rfl⟩

/-- Only a request for the cache, an action on it or a restart has to do with the cache. -/
theorem sameService_of_step {session : Session} {action : SessionAction}
    (noObtain : action ≠ .obtain) (noRestart : action ≠ .restart)
    (noAct : ∀ act, action ≠ .cache act) : SameService session (session.step action).1 := by
  cases action with
  | obtain => exact absurd rfl noObtain
  | restart => exact absurd rfl noRestart
  | cache act => exact absurd rfl (noAct act)
  | place path entry => cases entry <;> exact sameService_withFiles _ _
  | saveVia configuration => exact sameService_save session configuration
  | get | set | load | save | active | stored | restartRequired | description =>
      exact ⟨rfl, rfl, rfl, rfl⟩

/-- An action on the cache in service replaces it by what became of it, and nothing else. -/
theorem step_cache {session : Session} {configuration : Configuration} {cache : Cache}
    (built : session.registry.active = some ⟨configuration, cache⟩) (act : Scenario.Action) :
    let stage := ((Scenario.Stage.start cache session.remaining).step act).1
    (session.step (.cache act)).1.registry.active = some ⟨configuration, stage.cache⟩ ∧
      (session.step (.cache act)).1.registry.memory = session.registry.memory ∧
      (session.step (.cache act)).1.remaining = stage.scripts := by
  simp only [step, Session.act, built, Registry.withCache, Option.map_some, and_self]

theorem after_append (session : Session) (earlier later : List SessionAction) :
    session.after (earlier ++ later) = (session.after earlier).after later :=
  List.foldl_append

/-! ### Until the cache is handed out -/

theorem Unserved.later {session : Session} {action : SessionAction} {later : List SessionAction}
    (unserved : session.Unserved (action :: later)) : (session.step action).1.Unserved later :=
  fun before after split => unserved (action :: before) after (by rw [split]; rfl)

/-- As long as no request for the cache is served, there is none. -/
theorem unbuilt_of_unserved {session : Session} (fresh : session.registry.active = none)
    {actions : List SessionAction} (oneLife : .restart ∉ actions)
    (unserved : session.Unserved actions) : (session.after actions).registry.active = none := by
  induction actions generalizing session with
  | nil => exact fresh
  | cons action later ih =>
      rw [List.mem_cons, not_or] at oneLife
      have still : (session.step action).1.registry.active = none := by
        by_cases asks : action = .obtain
        · subst asks
          have refused := unserved [] later rfl
          rcases Registry.obtain_of_inactive fresh session.listener with
            ⟨fault, -, -, left⟩ | ⟨cache, -, served, -⟩
          · exact (congrArg Registry.active left).trans fresh
          · exact absurd served (refused cache)
        by_cases acts : ∃ act, action = .cache act
        · rcases acts with ⟨act, rfl⟩
          simp only [step, Session.act, fresh]
        · have noAct : ∀ act, action ≠ .cache act := fun act same => acts ⟨act, same⟩
          exact (sameService_of_step asks (Ne.symm oneLife.1) noAct).active.trans fresh
      exact ih still oneLife.2 unserved.later

theorem idle_of_unbuilt {session : Session} (unbuilt : session.registry.active = none) :
    Idle session where
  active := by rw [Registry.activeConfiguration, unbuilt]; rfl
  required := by simp only [Registry.restartRequired, unbuilt]
  obtains stored keeps := by
    have kept : session.registry.storedConfiguration.1 = stored := Preferences.keeps_iff.mp keeps
    rcases Registry.obtain_of_inactive unbuilt session.listener with
      ⟨fault, unresolved, refused, -⟩ | ⟨cache, conforms, served, -⟩
    · rw [kept] at unresolved
      simp [obtained, refused, unresolved]
    · rw [kept] at conforms
      exact iff_of_true ⟨cache, served⟩ ⟨cache.budget, conforms.budget⟩

/-! ### From then on -/

theorem used_of_other {action : SessionAction} (noAct : ∀ act, action ≠ .cache act)
    (cache : Cache) (scripts : List Scenario.ListenerScript) (later : List SessionAction) :
    used cache scripts (action :: later) = used cache scripts later := by
  cases action with
  | cache act => exact absurd rfl (noAct act)
  | _ => rfl

/-- Once there is a cache it stays, and only the actions on it change it.  A restart would end its
service, so there must be none among the requests. -/
theorem active_after {session : Session} {configuration : Configuration} {cache : Cache}
    (built : session.registry.active = some ⟨configuration, cache⟩)
    (conforms : ActiveCache.Conforms ⟨configuration, cache⟩ session.registry.memory)
    {later : List SessionAction} (oneLife : .restart ∉ later) :
    (session.after later).registry.active =
        some ⟨configuration, (used cache session.remaining later).1⟩ ∧
      ActiveCache.Conforms ⟨configuration, (used cache session.remaining later).1⟩
        (session.after later).registry.memory := by
  induction later generalizing session cache with
  | nil => exact ⟨built, conforms⟩
  | cons action later ih =>
      rw [List.mem_cons, not_or] at oneLife
      by_cases acts : ∃ act, action = .cache act
      · rcases acts with ⟨act, rfl⟩
        rcases step_cache built act with ⟨acted, memory, remaining⟩
        have rest := ih acted (memory ▸ conforms.step session.remaining act) oneLife.2
        rw [remaining] at rest
        exact rest
      have noAct : ∀ act, action ≠ .cache act := fun act same => acts ⟨act, same⟩
      have same : SameService session (session.step action).1 := by
        by_cases asks : action = .obtain
        · subst asks
          have kept := congrArg Registry.Service.after
            (Registry.obtain_of_active built session.listener)
          exact ⟨congrArg Registry.active kept, congrArg Registry.memory kept, rfl, rfl⟩
        · exact sameService_of_step asks (Ne.symm oneLife.1) noAct
      have rest := ih (same.active.trans built) (same.memory ▸ conforms) oneLife.2
      rw [same.remaining] at rest
      rw [used_of_other noAct]
      exact rest

theorem inService_of_active {session : Session} {configuration : Configuration} {cache : Cache}
    (built : session.registry.active = some ⟨configuration, cache⟩)
    (conforms : ActiveCache.Conforms ⟨configuration, cache⟩ session.registry.memory) :
    InService session configuration cache where
  active := by rw [Registry.activeConfiguration, built]; rfl
  obtains := Registry.obtain_of_active built
  kind := conforms.kind
  budget := conforms.budget
  required stored keeps := by
    have kept : session.registry.storedConfiguration.1 = stored := Preferences.keeps_iff.mp keeps
    rw [Registry.restartRequired_of_active built, kept, bne_iff_ne]
    exact ne_comm

/-- The request that is served puts the cache into service that the configuration kept at that
moment describes, and with the other requests after it only those to the cache itself matter to
it. -/
theorem inService_of_served {session : Session} (unbuilt : session.registry.active = none)
    {cache : Cache} (served : session.obtained = .ok cache) {later : List SessionAction}
    (oneLife : .restart ∉ later) :
    InService (session.after (.obtain :: later)) session.registry.storedConfiguration.1
      (used cache session.remaining later).1 := by
  rcases Registry.obtain_of_inactive unbuilt session.listener with
    ⟨fault, -, refused, -⟩ | ⟨other, conforms, same, after⟩
  · cases served.symm.trans refused
  cases served.symm.trans same
  have built : (session.step .obtain).1.registry.active =
      some ⟨session.registry.storedConfiguration.1, cache⟩ := congrArg Registry.active after
  have memory : (session.step .obtain).1.registry.memory = session.registry.memory :=
    (congrArg Registry.memory after).trans rfl
  have rest := active_after built (memory ▸ conforms) oneLife
  exact inService_of_active rest.1 rest.2

/-- The life of a registry, whatever is asked of it and whatever is put into the preferences.  Until
a request for the cache is served there is no cache, and the requests are served as the
configuration kept at the moment allows.  The first request that is served settles which
configuration is in force and which cache is in service for the rest of the process; nothing that is
asked, saved or put into the preferences later changes either. -/
theorem first_served_stays {session : Session} (fresh : session.registry.active = none)
    {actions : List SessionAction} (oneLife : .restart ∉ actions) :
    (session.Unserved actions → Idle (session.after actions)) ∧
      ∀ earlier later cache, actions = earlier ++ .obtain :: later → session.Unserved earlier →
        (session.after earlier).obtained = .ok cache →
          ∃ configuration, (session.after earlier).registry.preferences.Keeps configuration ∧
            InService (session.after actions) configuration
              (used cache (session.after earlier).remaining later).1 := by
  refine ⟨fun unserved => idle_of_unbuilt (unbuilt_of_unserved fresh oneLife unserved), ?_⟩
  rintro earlier later cache rfl unserved served
  have before : .restart ∉ earlier := fun member => oneLife (List.mem_append_left _ member)
  have behind : .restart ∉ later := fun member => oneLife (by simp [member])
  have rest := inService_of_served (unbuilt_of_unserved fresh before unserved) served behind
  rw [after_append]
  exact ⟨_, Preferences.keeps_iff.mpr rfl, rest⟩

/-- A single byte of memory, half of which is nothing, and no configuration kept. -/
def singleByte : Session :=
  .start (.memory Table.empty) ⟨Table.empty, []⟩ ⟨1⟩ .absent []

def everything : Configuration where
  kind := .simple
  sizing := .reserved 0

/-- A request for the cache, after which something else puts a configuration into the
preferences. -/
def advised : List SessionAction :=
  [.obtain, .set Preferences.configurationName everything.text]

/-- Another request for the cache, after which something else damages the preferences. -/
def damaged : List SessionAction :=
  [.obtain, .set Preferences.configurationName "?"]

theorem unserved_advised : singleByte.Unserved advised := by
  rintro earlier later split cache served
  have standard : singleByte.registry.preferences.Keeps .standard :=
    Preferences.keeps_iff.mpr rfl
  have unbuilt : singleByte.registry.active = none := rfl
  cases earlier with
  | nil =>
      rcases ((idle_of_unbuilt unbuilt).obtains _ standard).mp ⟨cache, served⟩ with
        ⟨budget, resolved⟩
      cases resolved
  | cons first others => cases others <;> simp_all [advised]

theorem served_advised : ∃ cache, (singleByte.after advised).obtained = .ok cache := by
  have unbuilt : (singleByte.after advised).registry.active = none := rfl
  have stores : (singleByte.after advised).registry.preferences.Stores everything :=
    ⟨everything.text, rfl, Configuration.ofText_text everything⟩
  exact ((idle_of_unbuilt unbuilt).obtains _ (.inl stores)).mpr ⟨1, rfl⟩

/-- The first request finds no budget, the second one is served, and the damage done behind it
stays without effect. -/
theorem first_served_stays_single_byte :
    singleByte.registry.active = none ∧ .restart ∉ advised ++ damaged ∧
      Idle (singleByte.after advised) ∧
      ∃ cache, (singleByte.after advised).obtained = .ok cache ∧
        ∃ configuration, (singleByte.after advised).registry.preferences.Keeps configuration ∧
          InService (singleByte.after (advised ++ damaged)) configuration
            (used cache (singleByte.after advised).remaining damaged.tail).1 := by
  have fresh : singleByte.registry.active = none := rfl
  have oneLife : .restart ∉ advised ++ damaged := by simp [advised, damaged]
  have early : .restart ∉ advised := by simp [advised]
  rcases served_advised with ⟨cache, served⟩
  exact ⟨fresh, oneLife, (first_served_stays fresh early).1 unserved_advised, cache, served,
    (first_served_stays fresh oneLife).2 advised damaged.tail cache rfl unserved_advised served⟩

end Session
end VolumeCache
