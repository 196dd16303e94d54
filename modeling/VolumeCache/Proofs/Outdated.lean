import VolumeCache.Proofs.Failures

namespace VolumeCache
namespace Cache

/-!
# Who is given an overtaken value

A load that an invalidation has overtaken goes on, and a call that asks for its key meanwhile joins
it like any other load: keys are loaded once at a time, and a mark does not open a claim.  So an
overtaken value still reaches those who ask while the load runs, be it because they wait for it or
because they find it in the moment between its storing and its being taken back.  Whoever is
answered later gets what was loaded after the invalidation, unless a panic of the listener has
left the load between the two.
-/

open PendingLoad

variable {cache next : Cache}

/-! ## What a call is given -/

/-- In this change the call is given a value, as the reply to its own request or as the outcome of
the load it has waited for. -/
def Receives (cache next : Cache) (call : Nat) (payload : Payload) : Prop :=
  (.returned call (.loaded (.value payload)) ∈ next.journal ∧
    .returned call (.loaded (.value payload)) ∉ cache.journal) ∨
  ∃ leader, .answered call leader (.value payload) ∈ next.journal ∧
    .answered call leader (.value payload) ∉ cache.journal

/-- The value was found in the store under the key, or a call that held the key has loaded it.
Calls that waited are supplied by the call they have waited for. -/
inductive Supplied (cache next : Cache) (key : BlockKey) (payload : Payload) : Nat → Prop
  | found {block : CachedBlock} (held : cache.store.entries.get? key = some block)
      (value : block.value = payload) : Supplied cache next key payload block.load
  | loaded {source : Nat} (leads : (key, source) ∈ leaders cache.loads)
      (brought : .loaded source key payload ∈ next.journal) :
      Supplied cache next key payload source

theorem mem_replies {call leader : Nat} {outcome : Outcome} :
    (call, leader, outcome) ∈ cache.replies ↔ .answered call leader outcome ∈ cache.journal := by
  unfold replies
  rw [List.mem_filterMap]
  constructor
  · rintro ⟨event, member, shown⟩
    cases event <;> simp_all [Event.answered?]
  · intro member
    exact ⟨_, member, rfl⟩

theorem returned_of_accepted {move : Move} (taken : Accepted cache move next) {call : Nat}
    {payload : Payload} (isNew : .returned call (.loaded (.value payload)) ∈ next.journal)
    (absent : .returned call (.loaded (.value payload)) ∉ cache.journal) :
    ∃ key block, (.began call (.load key) ∈ next.journal ∨ .claimed call key ∈ next.journal) ∧
      cache.store.entries.get? key = some block ∧ block.value = payload := by
  cases taken with
  | @hit key found store settled held =>
      simp only [List.mem_cons, reduceCtorEq, absent, or_false] at isNew
      cases isNew
      rcases Store.value_of_lookup? held with ⟨block, stored, value⟩
      exact ⟨key, block, Or.inl (by simp), stored, value⟩
  | @lateHit claimant key rest found store top free held =>
      simp only [List.mem_cons, reduceCtorEq, absent, or_false] at isNew
      cases isNew
      rcases Store.value_of_lookup? held with ⟨block, stored, value⟩
      exact ⟨key, block, Or.inr (by simp), stored, value⟩
  | _ => exact absurd isNew (by simp [absent])

/-- A call that gives a value back after its loader has run is the leader of the load. -/
theorem returned_of_advanced (carried : Carried cache) (taken : Advanced cache next) {call : Nat}
    {payload : Payload} (isNew : .returned call (.loaded (.value payload)) ∈ next.journal)
    (absent : .returned call (.loaded (.value payload)) ∉ cache.journal) :
    ∃ key, (key, call) ∈ cache.claims ∧ .loaded call key payload ∈ next.journal := by
  cases taken with
  | @kept admission rest top | @goneAlready admission rest top
  | @retractionCounted admission rest top | @retractionReported admission rest top =>
      have loaded := carried admission (by simp [admissions, top, Frame.admission?])
      have same : .returned call (.loaded (.value payload)) =
          Event.returned admission.call (.loaded (.value admission.value)) := by
        simpa [absent] using isNew
      cases same
      exact ⟨admission.key, by simp [claims, top, Frame.claim?], by simp [loaded]⟩
  | _ => exact absurd isNew (by simp [absent])

/-- What a call that waited is told is the value that the leader of its load has loaded. -/
theorem answered_of_stepped {allowed : Cache → Move → Bool} (known : LoadsKnown cache)
    (stepped : Stepped allowed cache next) {call leader : Nat} {payload : Payload}
    (isNew : .answered call leader (.value payload) ∈ next.journal)
    (absent : .answered call leader (.value payload) ∉ cache.journal) :
    ∃ key, (key, leader) ∈ cache.claims ∧ .loaded leader key payload ∈ next.journal ∧
      .began call (.load key) ∈ next.journal := by
  have after := (loadsKnown_kept allowed).stepped known stepped
  have served : Served cache next := by
    rcases stepped.listed with ⟨move, -, taken⟩ | taken
    · exact served_of_accepted taken
    · exact served_of_advanced known.carried taken
  have told := mem_replies.mpr isNew
  have untold : (call, leader, .value payload) ∉ cache.replies := fun before =>
    absent (mem_replies.mp before)
  cases served with
  | nobody _ replies _ => exact absurd (replies ▸ told) untold
  | oneMore _ _ _ _ _ replies _ => exact absurd (replies ▸ told) untold
  | @all teller key outcome claims joins replies loads deserved =>
      rw [replies] at told
      have mine := (List.mem_append.mp told).resolve_right untold
      rcases List.mem_map.mp (List.mem_reverse.mp mine) with ⟨follower, -, same⟩
      cases same
      cases deserved with
      | value loaded _ =>
          -- the call waited for the key that the leader has claimed
          rcases mem_joins.mp (after.followed.joined_of_reply (mem_replies.mpr isNew)) with
            ⟨wanted, joined⟩
          rcases after.requested.joined _ _ _ joined with ⟨began, claimed⟩
          have also := stepped.journal_suffix.subset
            (known.claims.runningClaimed _ _ (known.coherent.claimsMatch.subset claims))
          cases after.requested.one_claim claimed also
          exact ⟨key, claims, loaded, began⟩

/-- Whatever value a call is given for a key was stored under the key or has been loaded by the
call that held it. -/
theorem supplied_of_receives {allowed : Cache → Move → Bool} (known : LoadsKnown cache)
    (stepped : Stepped allowed cache next) {call : Nat} {key : BlockKey} {payload : Payload}
    (asked : .began call (.load key) ∈ next.journal) (receives : Receives cache next call payload) :
    ∃ source, Supplied cache next key payload source := by
  have after := (loadsKnown_kept allowed).stepped known stepped
  have wanted : ∀ {other}, .began call (.load other) ∈ next.journal → other = key := by
    intro other began
    cases after.requested.once call _ _ began asked
    rfl
  rcases receives with ⟨isNew, absent⟩ | ⟨leader, isNew, absent⟩
  · rcases stepped.listed with ⟨move, -, taken⟩ | taken
    · rcases returned_of_accepted taken isNew absent with ⟨other, block, asks, held, value⟩
      rcases wanted (asks.elim id (after.requested.claimed call other)) with rfl
      exact ⟨_, .found held value⟩
    · rcases returned_of_advanced known.carried taken isNew absent with ⟨other, claims, loaded⟩
      have leads := known.coherent.claimsMatch.subset claims
      have claimed := stepped.journal_suffix.subset (known.claims.runningClaimed _ _ leads)
      rcases wanted (after.requested.claimed call other claimed) with rfl
      exact ⟨_, .loaded leads loaded⟩
  · rcases answered_of_stepped known stepped isNew absent with ⟨other, claims, loaded, began⟩
    rcases wanted began with rfl
    exact ⟨_, .loaded (known.coherent.claimsMatch.subset claims) loaded⟩

/-! ## What becomes of an overtaken value -/

/-- Since then a panic of the listener has left the call while other blocks were making room for its
value.  What is stored then is not taken back, so no claim is made of it. -/
def Interrupted (midway cache : Cache) (call : Nat) : Prop :=
  ∃ before after text, Visited anyMove midway before ∧ before.MakingRoom call ∧
    before.accept (.listenerPanics text) = some after ∧ Visited anyMove after cache

/-- A load whose blocks are being made room for is given up by a panic of the listener only.  A
loader has returned by then, so it cannot panic any more. -/
theorem panics_of_given_up {move : Move} (taken : Accepted cache move next) {key : BlockKey}
    {call : Nat} (leads : (key, call) ∈ leaders cache.loads)
    (givenUp : (key, call) ∉ leaders next.loads) (making : cache.MakingRoom call) :
    ∃ text, move = .listenerPanics text := by
  rcases making with ⟨removal, frame, rest, listening, -⟩
  cases taken with
  | passUnwound | loadUnwound | clearingUnwound => exact ⟨_, rfl⟩
  | found | missing | hit | opened | listenerReturned => exact absurd leads givenUp
  | dropped | nothingDropped | sweepBegun | cleared =>
      exact absurd leads (by simpa [leaders_overtaken] using givenUp)
  | joined top | lateHit top | claimed top | passBegun top | stored top | simplyStored top
  | overflown top | failed top | panicked top =>
      rw [listening] at top
      cases top

theorem absent_of_finished (staged : Staged cache) (taken : Advanced cache next) {key : BlockKey}
    {call : Nat} (marked : Marked cache.loads key) (leads : (key, call) ∈ leaders cache.loads)
    (givenUp : (key, call) ∉ leaders next.loads) : next.store.entries.get? key = none := by
  have own : ∀ {other wanted}, next.loads = released cache.loads other wanted → key = wanted := by
    intro other wanted loads
    exact ((leads_released leads other wanted).resolve_left (loads ▸ givenUp)).2
  cases taken with
  | kept _ fresh =>
      rcases own rfl with rfl
      rw [(isOvertaken_iff cache _).mpr marked] at fresh
      cases fresh
  | goneAlready _ _ absent =>
      rcases own rfl with rfl
      exact absent
  | retractionCounted top | retractionReported top =>
      rcases own rfl with rfl
      exact staged.vacant _ (by simp [vacancies, top, Frame.vacant?])
  | _ => exact absurd leads givenUp

/-- What is known of blocks and loads, of claims and of marks.  All of it is kept whatever panics,
unlike `Caught`. -/
structure Traced (cache : Cache) : Prop where
  known : LoadsKnown cache
  brought : Brought cache
  once : ClaimedOnce cache
  marked : OvertakenMarked cache

theorem traced_kept (allowed : Cache → Move → Bool) : Kept allowed Traced where
  accepted may traced taken :=
    have both := (brought_kept allowed).accepted may ⟨traced.known, traced.brought⟩ taken
    have marks := (overtakenMarked_kept allowed).accepted may
      ⟨⟨traced.known.coherent, traced.once⟩, traced.marked⟩ taken
    ⟨both.1, both.2, marks.1.2, marks.2⟩
  advanced traced taken :=
    have both := (brought_kept allowed).advanced ⟨traced.known, traced.brought⟩ taken
    have marks := (overtakenMarked_kept allowed).advanced
      ⟨⟨traced.known.coherent, traced.once⟩, traced.marked⟩ taken
    ⟨both.1, both.2, marks.1.2, marks.2⟩

theorem traced_start (store : Store) (listener : Listener) (empty : store.holdings = []) :
    Traced (start store listener) where
  known := loadsKnown_start store listener empty
  brought := by simp [Brought, start, empty]
  once := by simp [ClaimedOnce, start]
  marked := by simp [OvertakenMarked, start, leaders, Table.empty]

/-- A call that has claimed the key and has stored nothing under it has stored nothing at all.  For
a call asks for one key and stores only what it has claimed. -/
theorem Traced.spent (traced : Traced cache) {call : Nat} {key : BlockKey}
    (claimed : .claimed call key ∈ cache.journal) (ended : cache.Ended call)
    (none : ∀ holding ∈ cache.store.holdings, holding.key = key → holding.load ≠ call) :
    Spent call cache := by
  refine ⟨ended, fun holding stored same => ?_⟩
  have under := traced.known.requested.one_claim (same ▸ (traced.brought holding stored).1) claimed
  exact none holding stored under same

/-- From when an invalidation has overtaken a load on, the load is either running, or over with
nothing of it stored, or a panic has left it at an unlucky moment. -/
theorem running_or_spent {midway : Cache} (traced : Traced midway) {invalidation load : Nat}
    {scope : Scope} {key : BlockKey} (overtakes : midway.Overtakes invalidation scope load key)
    (holds : midway.Holds load key) (later : Visited anyMove midway cache) :
    cache.Holds load key ∨ Spent load cache ∨ Interrupted midway cache load := by
  induction later with
  | origin => exact Or.inl holds
  | @step cache next earlier stepped ih =>
      have here := (traced_kept anyMove).visited earlier traced
      have there := (traced_kept anyMove).stepped here stepped
      have grown := ((journal_suffix_kept midway.journal anyMove).visited earlier List.suffix_rfl)
      rcases ih with running | spent | ⟨before, after, text, reached, making, panics, thence⟩
      · have leads := (here.known.claims.leads_iff here.known.coherent).mpr running
        by_cases still : (key, load) ∈ leaders next.loads
        · exact Or.inl ((there.known.claims.leads_iff there.known.coherent).mp still)
        -- the load has come to its end in this change
        have claimed := stepped.journal_suffix.subset running.1
        have ended := (there.known.claims.claimedRunning load key claimed).resolve_left still
        have spent : next.store.entries.get? key = none → Spent load next := fun absent =>
          there.spent claimed ended fun holding stored under =>
            absurd under (get?_eq_none_iff_holdingsOf.mp absent holding stored)
        rcases stepped with @⟨move, may, taken⟩ | taken
        · have accepted := accepted_of_accept taken
          rcases given_up_of_accepted here.known.coherent.staged accepted leads still with
            absent | ⟨making, -⟩
          · exact Or.inr (Or.inl (spent absent))
          · rcases panics_of_given_up accepted leads still making with ⟨text, rfl⟩
            exact Or.inr (Or.inr ⟨cache, next, text, earlier, making, taken, .origin⟩)
        · have marked := here.marked key load leads invalidation scope
            ⟨overtakes.1, overtakes.2.trans grown.sublist⟩
          exact Or.inr (Or.inl (spent (absent_of_finished here.known.coherent.staged
            (advanced_of_advance taken) marked leads still)))
      · exact Or.inr (Or.inl ((spent_kept load anyMove).stepped
          ⟨here.known.coherent, spent⟩ stepped).2)
      · exact Or.inr (Or.inr ⟨before, after, text, reached, making, panics, thence.step stepped⟩)

/-- A block of the key that is stored after a load was overtaken is of this load, or of one that
has claimed the key since. -/
theorem stored_since {midway : Cache} (traced : Traced midway) {load : Nat} {key : BlockKey}
    (holds : midway.Holds load key) (later : Visited anyMove midway cache) {holding : Holding}
    (stored : holding ∈ cache.store.holdings)
    (claimed : .claimed holding.load key ∈ midway.journal) : holding.load = load := by
  have leads := (traced.known.claims.leads_iff traced.known.coherent).mpr holds
  by_contra different
  have ended : midway.Ended holding.load := by
    refine (traced.known.claims.claimedRunning _ key claimed).resolve_left fun also => ?_
    exact different (traced.known.singleFlight.oneLeader key _ _
      ((traced.known.claims.leads_iff traced.known.coherent).mp also) holds)
  have spent : Spent holding.load midway := traced.spent claimed ended fun other held own same =>
    different (same ▸ traced.known.coherent.staged.own other held load (own ▸ leads))
  exact ((spent_kept holding.load anyMove).visited later
    ⟨traced.known.coherent, spent⟩).2.2 holding stored rfl

/-! ## Who is still given it -/

/-- What calls for the key get once the load has been overtaken.  While the load runs they join it;
and a value they are given was brought by a load that has claimed the key since, or by the overtaken
load, and by the latter only while it runs.  Calls that join a load are not promised a value: the
load may fail, or a panic may leave it. -/
structure Outdated (midway cache : Cache) (load : Nat) (key : BlockKey) : Prop where
  joins : cache.Holds load key → ∀ call rest, cache.stack = .claiming call key :: rest →
    ∃ next, cache.accept .claim = some next ∧ .joined call key load ∈ next.journal
  supplied : ∀ next call payload, Stepped anyMove cache next →
    .began call (.load key) ∈ next.journal → Receives cache next call payload →
    ∃ source, .claimed source key ∈ next.journal ∧ .loaded source key payload ∈ next.journal ∧
      (.claimed source key ∉ midway.journal ∨
        (source = load ∧ (cache.Holds load key ∨ Interrupted midway cache load)))

/-- Once an invalidation has overtaken a running load, be it complete or not, its value is given to
calls that are answered while it runs and to no others; every other value was loaded since.  What is
left open is only what happens once a panic of the listener has left the load while room was made
for its value.  Nothing is assumed of loaders and listeners, and both kinds of store are meant. -/
theorem outdated_only_while_running (kind : StoreKind) (budget : UInt64) (limit : Option UInt64)
    (listener : Listener) (midway cache : Cache) (invalidation load : Nat) (scope : Scope)
    (key : BlockKey)
    (visited : Visited anyMove (start (Store.empty kind budget limit) listener) midway)
    (overtakes : midway.Overtakes invalidation scope load key) (holds : midway.Holds load key)
    (later : Visited anyMove midway cache) : Outdated midway cache load key := by
  have traced := (traced_kept anyMove).visited visited
    (traced_start _ _ (Store.holdings_empty kind budget limit))
  have here := (traced_kept anyMove).visited later traced
  have grown := (journal_suffix_kept midway.journal anyMove).visited later List.suffix_rfl
  refine ⟨fun running call rest top => ?_, fun next call payload stepped asked receives => ?_⟩
  · rcases mem_leaders.mp ((here.known.claims.leads_iff here.known.coherent).mpr running) with
      ⟨pending, found, rfl⟩
    exact ⟨_, accept_of_accepted (.joined top found), List.mem_cons_self⟩
  · have since := stepped.journal_suffix.subset
    rcases supplied_of_receives here.known stepped asked receives with ⟨source, supplied⟩
    cases supplied with
    | @found block held value =>
        have stored := mem_holdingsOf_of_get? held
        rcases here.brought _ stored with ⟨claimed, loaded⟩
        subst value
        refine ⟨block.load, since claimed, since loaded, ?_⟩
        by_cases old : .claimed block.load key ∈ midway.journal
        · have mine : block.load = load := stored_since traced holds later stored old
          refine Or.inr ⟨mine, ?_⟩
          rcases running_or_spent traced overtakes holds later with running | spent | interrupted
          · exact Or.inl running
          · exact absurd mine (spent.2 _ stored)
          · exact Or.inr interrupted
        · exact Or.inl old
    | loaded leads brought =>
        have running := (here.known.claims.leads_iff here.known.coherent).mp leads
        refine ⟨source, since running.1, brought, ?_⟩
        by_cases old : .claimed source key ∈ midway.journal
        · -- the only load of the key that was running then
          have before : midway.Holds source key := ⟨old, fun ended => running.2 (ended.mono grown)⟩
          have mine := traced.known.singleFlight.oneLeader key source load before holds
          exact Or.inr ⟨mine, Or.inl (mine ▸ running)⟩
        · exact Or.inl old

/-- One block fills half of the cache and another one of the same weight is being loaded when its
key is invalidated. -/
def overtakenLoad : Cache :=
  reached anyMove (start (.weighted (.empty 10)) .interactive)
    (loadMoves ⟨⟨0⟩, 0, 0, .index 1⟩ (.standIn 6 "")
      ++ [.begin (.load ⟨⟨0⟩, 0, 0, .index 2⟩), .claim,
        .begin (.invalidate (.exactly ⟨⟨0⟩, 0, 0, .index 2⟩))])

theorem overtakenLoad_visited :
    Visited anyMove (start (Store.empty .weighted 10 none) .interactive) overtakenLoad :=
  .of_run (run_reached (by decide +kernel))

theorem overtakenLoad_holds : overtakenLoad.Holds 1 ⟨⟨0⟩, 0, 0, .index 2⟩ := by
  have known := (loadsKnown_kept anyMove).visited overtakenLoad_visited (loadsKnown_start _ _ rfl)
  exact (known.claims.leads_iff known.coherent).mp (by decide +kernel)

theorem overtakenLoad_overtaken :
    overtakenLoad.Overtakes 2 (.exactly ⟨⟨0⟩, 0, 0, .index 2⟩) 1 ⟨⟨0⟩, 0, 0, .index 2⟩ :=
  ⟨by decide +kernel, by decide +kernel⟩

/-- The overtaken load has stored its value, and the listener is told of the block that had to
go. -/
def notYetTakenBack : Cache :=
  reached anyMove overtakenLoad [.loaderReturns (.standIn 6 "outdated")]

theorem notYetTakenBack_visited : Visited anyMove overtakenLoad notYetTakenBack :=
  .of_run (run_reached (by decide +kernel))

/-- Who asks at that moment is given the overtaken value, and the load still runs. -/
theorem outdated_only_while_running_not_yet_taken_back :
    Outdated overtakenLoad notYetTakenBack 1 ⟨⟨0⟩, 0, 0, .index 2⟩ ∧
      ∃ source, .loaded source ⟨⟨0⟩, 0, 0, .index 2⟩ (.standIn 6 "outdated") ∈
          (notYetTakenBack.after (.begin (.load ⟨⟨0⟩, 0, 0, .index 2⟩))).journal ∧
        (.claimed source ⟨⟨0⟩, 0, 0, .index 2⟩ ∉ overtakenLoad.journal ∨
          (source = 1 ∧ (notYetTakenBack.Holds 1 ⟨⟨0⟩, 0, 0, .index 2⟩ ∨
            Interrupted overtakenLoad notYetTakenBack 1))) := by
  have outdated := outdated_only_while_running .weighted 10 none .interactive overtakenLoad
    notYetTakenBack 2 1 _ _ overtakenLoad_visited overtakenLoad_overtaken overtakenLoad_holds
    notYetTakenBack_visited
  rcases outdated.supplied (notYetTakenBack.after (.begin (.load ⟨⟨0⟩, 0, 0, .index 2⟩))) 3
    (.standIn 6 "outdated") (stepped_after rfl (by decide +kernel)) (by decide +kernel)
    (Or.inl ⟨by decide +kernel, by decide +kernel⟩) with ⟨source, -, loaded, whence⟩
  exact ⟨outdated, source, loaded, whence⟩

/-- A call asks after the invalidation and waits for the overtaken load to its end. -/
def waitedFor : Cache :=
  reached anyMove overtakenLoad
    [.begin (.load ⟨⟨0⟩, 0, 0, .index 2⟩), .claim, .loaderReturns (.standIn 6 "outdated"),
      .listenerReturns, .listenerReturns]

/-- The invalidation is over before a call asks for its key, and yet the call is told the value of
the load that was overtaken; and another one that asks a little later finds that value stored. -/
theorem overtaken_value_shared :
    .returned 2 .done ∈ overtakenLoad.journal ∧ overtakenLoad.calls = 3 ∧
      overtakenLoad.Overtakes 2 (.exactly ⟨⟨0⟩, 0, 0, .index 2⟩) 1 ⟨⟨0⟩, 0, 0, .index 2⟩ ∧
      overtakenLoad.Holds 1 ⟨⟨0⟩, 0, 0, .index 2⟩ ∧
      (Visited anyMove overtakenLoad waitedFor ∧
        .began 3 (.load ⟨⟨0⟩, 0, 0, .index 2⟩) ∈ waitedFor.journal ∧
        .joined 3 ⟨⟨0⟩, 0, 0, .index 2⟩ 1 ∈ waitedFor.journal ∧
        .loaded 1 ⟨⟨0⟩, 0, 0, .index 2⟩ (.standIn 6 "outdated") ∈ waitedFor.journal ∧
        waitedFor.answersTo 3 = [(1, .value (.standIn 6 "outdated"))]) ∧
      Visited anyMove overtakenLoad notYetTakenBack ∧
      notYetTakenBack.store.entries.get? ⟨⟨0⟩, 0, 0, .index 2⟩ =
        some ⟨.standIn 6 "outdated", 2, 1⟩ ∧
      .returned 3 (.loaded (.value (.standIn 6 "outdated"))) ∈
        (notYetTakenBack.after (.begin (.load ⟨⟨0⟩, 0, 0, .index 2⟩))).journal := by
  refine ⟨by decide +kernel, by decide +kernel, overtakenLoad_overtaken, overtakenLoad_holds,
    ⟨.of_run (run_reached (by decide +kernel)), by decide +kernel, by decide +kernel,
      by decide +kernel, by decide +kernel⟩, notYetTakenBack_visited, by decide +kernel,
    by decide +kernel⟩

end Cache
end VolumeCache
