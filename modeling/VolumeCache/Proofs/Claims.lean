import VolumeCache.Proofs.Overtaking
import VolumeCache.Proofs.Steps

namespace VolumeCache
namespace Cache

/-!
# Claims of keys

A call that found nothing claims its key, and from then on until it ends the key is in the table of
running loads, led by this call.  The claim is given up on every way out of the call: a block found
at the second look, a value, a failure, a panic of the loader or of a listener.  The journal tells
who has claimed what and who has ended; here the table is compared with it.
-/

open PendingLoad

variable {cache next : Cache}

/-- The call has claimed the key and has not ended yet.  This is told by the journal alone; that the
table of running loads says the same is `ClaimsKnown`. -/
def Holds (cache : Cache) (call : Nat) (key : BlockKey) : Prop :=
  .claimed call key ∈ cache.journal ∧ ¬ cache.Ended call

theorem Ended.mono (grown : cache.journal <:+ next.journal) {call : Nat}
    (ended : cache.Ended call) : next.Ended call := by
  rcases ended with ⟨reply, member⟩ | ⟨text, member⟩
  · exact Or.inl ⟨reply, grown.subset member⟩
  · exact Or.inr ⟨text, grown.subset member⟩

/-! ## Claims that are made and given up -/

theorem leads_released {loads : Table BlockKey PendingLoad} {key : BlockKey} {call : Nat}
    (leads : (key, call) ∈ leaders loads) (other : Nat) (wanted : BlockKey) :
    (key, call) ∈ leaders (released loads other wanted) ∨ (call = other ∧ key = wanted) := by
  rcases mem_leaders.mp leads with ⟨pending, held, rfl⟩
  by_cases mine : pending.leader = other ∧ key = wanted
  · exact Or.inr mine
  · refine Or.inl (mem_leaders.mpr ⟨pending, ?_, rfl⟩)
    unfold released
    split
    · rename_i found running
      split
      · rename_i same
        have apart : key ≠ wanted := by
          rintro rfl
          rw [held] at running
          cases running
          exact mine ⟨same, rfl⟩
        rw [Table.get?_erase_of_ne _ apart, held]
      · exact held
    · exact held

theorem free_of_released {loads : Table BlockKey PendingLoad} {key : BlockKey} {call : Nat}
    (leads : (key, call) ∈ leaders loads) : (released loads call key).get? key = none := by
  rw [released_eq_erase leads]
  exact Table.get?_erase_self _ _

/-- A move leaves a claim alone, or the claiming call ends with it and the key is free.  There is no
third way: a claim is not handed on to another call. -/
theorem leads_of_accepted {move : Move} (taken : Accepted cache move next) {key : BlockKey}
    {call : Nat} (leads : (key, call) ∈ leaders cache.loads) :
    (key, call) ∈ leaders next.loads ∨ (next.loads.get? key = none ∧ next.Ended call) := by
  have freed : ∀ {other wanted}, next.loads = released cache.loads other wanted →
      next.Ended other →
      (key, call) ∈ leaders next.loads ∨ (next.loads.get? key = none ∧ next.Ended call) := by
    intro other wanted loads ended
    rw [loads]
    rcases leads_released leads other wanted with still | ⟨rfl, rfl⟩
    · exact Or.inl still
    · exact Or.inr ⟨free_of_released leads, ended⟩
  cases taken with
  | found | missing | hit | opened | lateHit | passBegun | stored | simplyStored
  | listenerReturned | clearingUnwound => exact Or.inl leads
  | dropped | nothingDropped | sweepBegun | cleared =>
      exact Or.inl (by simpa [leaders_overtaken] using leads)
  | joined => exact Or.inl (by simpa [leaders_modify] using leads)
  | claimed top free absent =>
      refine Or.inl ?_
      rw [leaders, Table.rows_insert_of_get?_none free, List.map_append]
      exact List.mem_append_left _ leads
  | failed => exact freed rfl (Or.inl ⟨_, List.mem_cons_self⟩)
  | overflown | panicked | passUnwound | loadUnwound =>
      exact freed rfl (Or.inr ⟨_, List.mem_cons_self⟩)

theorem leads_of_advanced (taken : Advanced cache next) {key : BlockKey} {call : Nat}
    (leads : (key, call) ∈ leaders cache.loads) :
    (key, call) ∈ leaders next.loads ∨ (next.loads.get? key = none ∧ next.Ended call) := by
  cases taken with
  | @kept admission | @goneAlready admission | @retractionCounted admission
  | @retractionReported admission =>
      rcases leads_released leads admission.call admission.key with still | ⟨rfl, rfl⟩
      · exact Or.inl still
      · exact Or.inr ⟨free_of_released leads, Or.inl ⟨_, List.mem_cons_self⟩⟩
  | _ => exact Or.inl leads

/-- A claim that is made is made by the innermost call, which leads the load from then on or
returns at once. -/
theorem claimed_of_accepted {move : Move} (taken : Accepted cache move next) {call : Nat}
    {key : BlockKey} (claimed : .claimed call key ∈ next.journal) :
    .claimed call key ∈ cache.journal ∨
      (.claiming call key ∈ cache.stack ∧
        ((key, call) ∈ leaders next.loads ∨ next.Ended call)) := by
  cases taken with
  | @lateHit claimant wanted rest payload store top free held =>
      simp only [List.mem_cons, reduceCtorEq, false_or] at claimed
      rcases claimed with isNew | old
      · cases isNew
        exact Or.inr ⟨top ▸ List.mem_cons_self, Or.inr (Or.inl ⟨_, List.mem_cons_self⟩)⟩
      · exact Or.inl old
  | @claimed claimant wanted rest top free absent =>
      simp only [List.mem_cons, reduceCtorEq, false_or] at claimed
      rcases claimed with isNew | old
      · cases isNew
        refine Or.inr ⟨top ▸ List.mem_cons_self, Or.inl ?_⟩
        simp [leaders, Table.rows_insert_of_get?_none free]
      · exact Or.inl old
  | _ => exact Or.inl (by simpa using claimed)

/-- The table lists the claims that were made by calls that have not ended.  The one direction says
that no load runs without a claim, the other that no claim is given up before its call ends. -/
structure ClaimsKnown (cache : Cache) : Prop where
  runningClaimed : ∀ key call, (key, call) ∈ leaders cache.loads →
    .claimed call key ∈ cache.journal
  claimedRunning : ∀ call key, .claimed call key ∈ cache.journal →
    (key, call) ∈ leaders cache.loads ∨ cache.Ended call

theorem claimsKnown_kept (allowed : Cache → Move → Bool) :
    Kept allowed fun cache => Coherent cache ∧ ClaimsKnown cache := by
  apply (coherent_kept allowed).and
  · intro cache next move _ _ known taken
    refine ⟨fun key call leads => ?_, fun call key claimed => ?_⟩
    · rcases leaders_of_accepted taken leads with ⟨before, -⟩ | ⟨-, claimed, -⟩
      · exact (journal_suffix_of_accepted taken).subset (known.runningClaimed key call before)
      · exact claimed
    · rcases claimed_of_accepted taken claimed with before | ⟨-, outcome⟩
      · rcases known.claimedRunning call key before with leads | ended
        · exact (leads_of_accepted taken leads).imp_right And.right
        · exact Or.inr (ended.mono (journal_suffix_of_accepted taken))
      · exact outcome
  · intro cache next _ known taken
    refine ⟨fun key call leads => ?_, fun call key claimed => ?_⟩
    · exact (journal_suffix_of_advanced taken).subset
        (known.runningClaimed key call (leaders_of_advanced taken leads).1)
    · rcases known.claimedRunning call key ((askers_of_advanced taken).2 call key claimed) with
        leads | ended
      · exact (leads_of_advanced taken leads).imp_right And.right
      · exact Or.inr (ended.mono (journal_suffix_of_advanced taken))

theorem Coherent.leader_mem_numbers (coherent : Coherent cache) {key : BlockKey} {call : Nat}
    (leads : (key, call) ∈ leaders cache.loads) : call ∈ cache.numbers := by
  rcases List.mem_filterMap.mp (coherent.claimsMatch.symm.subset leads) with ⟨frame, member, claims⟩
  exact List.mem_filterMap.mpr ⟨frame, member, Frame.call?_of_claim? claims⟩

theorem Coherent.leader_not_ended (coherent : Coherent cache) {key : BlockKey} {call : Nat}
    (leads : (key, call) ∈ leaders cache.loads) : ¬ cache.Ended call :=
  fun ended => (coherent.endedApart call ended).2 (coherent.leader_mem_numbers leads)

theorem ClaimsKnown.leads_iff (known : ClaimsKnown cache) (coherent : Coherent cache)
    {key : BlockKey} {call : Nat} : (key, call) ∈ leaders cache.loads ↔ cache.Holds call key := by
  constructor
  · intro leads
    exact ⟨known.runningClaimed key call leads, coherent.leader_not_ended leads⟩
  · rintro ⟨claimed, running⟩
    exact (known.claimedRunning call key claimed).resolve_right running

/-- When a call that holds a claim ends, its key is free again.  It does not matter whether the call
has returned or has been left by a panic. -/
theorem ClaimsKnown.free_of_ended {allowed : Cache → Move → Bool} (known : ClaimsKnown cache)
    (coherent : Coherent cache) (stepped : Stepped allowed cache next) {call : Nat}
    {key : BlockKey} (holds : cache.Holds call key) (ended : next.Ended call) :
    next.loads.get? key = none := by
  have leads := (known.leads_iff coherent).mpr holds
  have after := (coherent_kept allowed).stepped coherent stepped
  have outcome : (key, call) ∈ leaders next.loads ∨
      (next.loads.get? key = none ∧ next.Ended call) := by
    rcases stepped.listed with ⟨move, -, taken⟩ | taken
    · exact leads_of_accepted taken leads
    · exact leads_of_advanced taken leads
  rcases outcome with still | ⟨free, -⟩
  · exact absurd ended (after.leader_not_ended still)
  · exact free

/-! ## Calls and what they asked for -/

theorem began_of_accepted {move : Move} (taken : Accepted cache move next) {call : Nat}
    {request : Request} (began : .began call request ∈ next.journal) :
    .began call request ∈ cache.journal ∨
      (call = cache.calls ∧ move = .begin request ∧ next.calls = cache.calls + 1) := by
  cases taken <;> simp_all <;> grind

theorem began_of_advanced (taken : Advanced cache next) {call : Nat} {request : Request}
    (began : .began call request ∈ next.journal) : .began call request ∈ cache.journal := by
  cases taken <;> simp_all

@[simp] theorem claiming_ne_sequelOf {admission : Admission} {removals : List Removal} {call : Nat}
    {key : BlockKey} : .claiming call key ≠ sequelOf admission removals := by
  cases removals <;> simp [sequelOf]

/-- A call that is about to claim a key was so before, or it has just begun to ask for the key. -/
theorem claiming_of_accepted {move : Move} (taken : Accepted cache move next) {call : Nat}
    {key : BlockKey} (claiming : .claiming call key ∈ next.stack) :
    .claiming call key ∈ cache.stack ∨ .began call (.load key) ∈ next.journal := by
  cases taken with
  | opened =>
      rcases List.mem_cons.mp claiming with isNew | old
      · cases isNew
        exact Or.inr List.mem_cons_self
      · exact Or.inl old
  | _ => exact Or.inl (by simp_all)

theorem claiming_of_advanced (taken : Advanced cache next) {call : Nat} {key : BlockKey}
    (claiming : .claiming call key ∈ next.stack) : .claiming call key ∈ cache.stack := by
  cases taken <;> simp_all

theorem joined_of_accepted {move : Move} (taken : Accepted cache move next) {call leader : Nat}
    {key : BlockKey} (joined : .joined call key leader ∈ next.journal) :
    .joined call key leader ∈ cache.journal ∨
      (.claiming call key ∈ cache.stack ∧ (key, leader) ∈ leaders cache.loads) := by
  cases taken with
  | @joined asker wanted rest pending top running =>
      rcases List.mem_cons.mp joined with isNew | old
      · cases isNew
        exact Or.inr ⟨top ▸ List.mem_cons_self, mem_leaders.mpr ⟨pending, running, rfl⟩⟩
      · exact Or.inl old
  | _ => exact Or.inl (by simpa using joined)

theorem joined_of_advanced (taken : Advanced cache next) {call leader : Nat} {key : BlockKey}
    (joined : .joined call key leader ∈ next.journal) :
    .joined call key leader ∈ cache.journal := by
  cases taken <;> simp_all

/-- Every call has one request, and only calls that asked for a block claim its key or wait for it.
Calls are numbered in the order in which they begin, so a number is never used twice. -/
structure Requested (cache : Cache) : Prop where
  below : ∀ call request, .began call request ∈ cache.journal → call < cache.calls
  once : ∀ call first second, .began call first ∈ cache.journal →
    .began call second ∈ cache.journal → first = second
  claiming : ∀ call key, .claiming call key ∈ cache.stack → .began call (.load key) ∈ cache.journal
  claimed : ∀ call key, .claimed call key ∈ cache.journal → .began call (.load key) ∈ cache.journal
  joined : ∀ call key leader, .joined call key leader ∈ cache.journal →
    .began call (.load key) ∈ cache.journal ∧ .claimed leader key ∈ cache.journal

theorem Requested.accepted {move : Move} (requested : Requested cache) (known : ClaimsKnown cache)
    (taken : Accepted cache move next) : Requested next := by
  have grown := (journal_suffix_of_accepted taken).subset
  have calls : cache.calls ≤ next.calls := by
    rcases numbers_of_accepted taken with ⟨-, more⟩ | ⟨-, more⟩ <;> omega
  refine ⟨?_, ?_, ?_, ?_, ?_⟩
  · intro call request began
    rcases began_of_accepted taken began with before | ⟨rfl, -, more⟩
    · exact Nat.lt_of_lt_of_le (requested.below call request before) calls
    · exact more ▸ Nat.lt_succ_self _
  · intro call first second one other
    rcases began_of_accepted taken one with before | ⟨rfl, begins, -⟩
    · rcases began_of_accepted taken other with also | ⟨rfl, -, -⟩
      · exact requested.once call first second before also
      · exact absurd (requested.below _ _ before) (Nat.lt_irrefl _)
    · rcases began_of_accepted taken other with also | ⟨-, alsoBegins, -⟩
      · exact absurd (requested.below _ _ also) (Nat.lt_irrefl _)
      · rw [begins] at alsoBegins
        cases alsoBegins
        rfl
  · intro call key claiming
    rcases claiming_of_accepted taken claiming with before | began
    · exact grown (requested.claiming call key before)
    · exact began
  · intro call key claimed
    rcases claimed_of_accepted taken claimed with before | ⟨claiming, -⟩
    · exact grown (requested.claimed call key before)
    · exact grown (requested.claiming call key claiming)
  · intro call key leader joined
    rcases joined_of_accepted taken joined with before | ⟨claiming, leads⟩
    · have both := requested.joined call key leader before
      exact ⟨grown both.1, grown both.2⟩
    · exact ⟨grown (requested.claiming call key claiming),
        grown (known.runningClaimed key leader leads)⟩

theorem Requested.advanced (requested : Requested cache) (taken : Advanced cache next) :
    Requested next := by
  have grown := (journal_suffix_of_advanced taken).subset
  have calls := (numbers_of_advanced taken).2
  refine ⟨?_, ?_, ?_, ?_, ?_⟩
  · intro call request began
    exact calls ▸ requested.below call request (began_of_advanced taken began)
  · intro call first second one other
    exact requested.once call first second (began_of_advanced taken one)
      (began_of_advanced taken other)
  · intro call key claiming
    exact grown (requested.claiming call key (claiming_of_advanced taken claiming))
  · intro call key claimed
    exact grown (requested.claimed call key ((askers_of_advanced taken).2 call key claimed))
  · intro call key leader joined
    have both := requested.joined call key leader (joined_of_advanced taken joined)
    exact ⟨grown both.1, grown both.2⟩

theorem Requested.one_claim (requested : Requested cache) {call : Nat} {key other : BlockKey}
    (one : .claimed call key ∈ cache.journal) (another : .claimed call other ∈ cache.journal) :
    key = other := by
  have same := requested.once call _ _ (requested.claimed call key one)
    (requested.claimed call other another)
  cases same
  rfl

/-! ## Loaders -/

end Cache

/-- The call that starts a loader, and the key it is to load. -/
def Event.started? : Event → Option (Nat × BlockKey)
  | .loaderStarted call key => some (call, key)
  | _ => none

namespace Cache

open PendingLoad

variable {cache next : Cache}

/-- The loaders that were started, the latest first. -/
def starts (cache : Cache) : List (Nat × BlockKey) :=
  cache.journal.filterMap Event.started?

theorem starts_eq (cache : Cache) :
    cache.starts = (noted cache.journal).filterMap Event.started? :=
  (filterMap_noted (fun event idle => by
    cases event <;> simp_all [Event.isNoted, Event.started?]) _).symm

/-- A loader is started by the innermost call right after it has claimed a key of which nothing is
stored. -/
theorem starts_of_accepted {move : Move} (taken : Accepted cache move next) :
    next.starts = cache.starts ∨
      ∃ call key, next.starts = (call, key) :: cache.starts ∧
        (key, call) ∈ leaders next.loads ∧ next.store.entries.get? key = none := by
  cases taken with
  | @claimed call key rest top free absent =>
      refine Or.inr ⟨call, key, ?_, ?_, Store.lookup?_eq_none_iff.mp absent⟩
      · simp [starts_eq, Event.isNoted, Event.started?, List.filterMap_cons]
      · simp [leaders, Table.rows_insert_of_get?_none free]
  | _ =>
      refine Or.inl ?_
      simp [starts_eq, Event.isNoted, Event.started?, List.filterMap_cons]

theorem starts_of_advanced (taken : Advanced cache next) : next.starts = cache.starts := by
  cases taken <;> simp [starts_eq, Event.isNoted, Event.started?, List.filterMap_cons]

end Cache
end VolumeCache
