import VolumeCache.Proofs.SingleFlight

namespace VolumeCache

/-!
# What a failed load leaves behind

A load fails when its loader fails or panics, when its value cannot be weighed, or when a panic of
the listener leaves it.  Nothing of its key is stored then, and nothing the load has brought is
stored ever after, but for one case: the value is stored before the listener is told of the blocks
that have to make room for it, and if the listener panics at that moment the value stays where it
is, although whoever waits for it is told that the load failed.
-/

/-- The call that has stored its value and now has other blocks make room for it. -/
def Frame.makesRoom? : Frame → Option Nat
  | .evicting admission _ _ => some admission.call
  | .reporting _ (.conclude admission) => some admission.call
  | _ => none

namespace Cache

open PendingLoad

variable {cache next : Cache}

/-- The listener is being told of a block that has made room for the value of this call.  A panic at
this moment leaves the value stored, since the call gets no further. -/
def MakingRoom (cache : Cache) (call : Nat) : Prop :=
  ∃ removal frame rest, cache.stack = .listening removal :: frame :: rest ∧
    frame.makesRoom? = some call

/-- The call has given a failure back, or a panic has left it.  Which of the two it was, and who
panicked, is not asked. -/
def Failed (cache : Cache) (call : Nat) : Prop :=
  (∃ error, .returned call (.loaded (.failure error)) ∈ cache.journal) ∨
    ∃ text, .unwound call text ∈ cache.journal

theorem Failed.ended {call : Nat} (failed : cache.Failed call) : cache.Ended call := by
  rcases failed with ⟨error, returned⟩ | ⟨text, unwound⟩
  · exact Or.inl ⟨_, returned⟩
  · exact Or.inr ⟨_, unwound⟩

/-! ## How a load ends -/

/-- A move that ends a load leaves its key without a block, unless other blocks are just making
room for it; in that case it leaves the blocks as they are. -/
theorem given_up_of_accepted {move : Move} (staged : Staged cache)
    (taken : Accepted cache move next) {key : BlockKey} {call : Nat}
    (leads : (key, call) ∈ leaders cache.loads) (givenUp : (key, call) ∉ leaders next.loads) :
    next.store.entries.get? key = none ∨
      (cache.MakingRoom call ∧ next.store.entries = cache.store.entries) := by
  have own : ∀ {other wanted}, next.loads = released cache.loads other wanted →
      call = other ∧ key = wanted := by
    intro other wanted loads
    exact (leads_released leads other wanted).resolve_left (loads ▸ givenUp)
  cases taken with
  | found | missing | hit | opened | lateHit | passBegun | stored | simplyStored
  | listenerReturned | clearingUnwound => exact absurd leads givenUp
  | dropped | nothingDropped | sweepBegun | cleared =>
      exact absurd leads (by simpa [leaders_overtaken] using givenUp)
  | joined => exact absurd leads (by simpa [leaders_modify] using givenUp)
  | claimed _ free _ =>
      refine absurd ?_ givenUp
      rw [leaders, Table.rows_insert_of_get?_none free, List.map_append]
      exact List.mem_append_left _ leads
  | failed top | panicked top =>
      rcases own rfl with ⟨rfl, rfl⟩
      exact Or.inl (staged.absent top)
  | overflown top simple put =>
      rcases own rfl with ⟨rfl, rfl⟩
      rcases SimpleStore.put_eq_error (staged.absent_simple top simple) put with ⟨-, rfl⟩
      exact Or.inl (staged.absent_simple top simple)
  | passUnwound top =>
      rcases own rfl with ⟨rfl, rfl⟩
      exact Or.inr ⟨⟨_, _, _, top, rfl⟩, releasePass_entries cache⟩
  | loadUnwound top leading =>
      rcases own rfl with ⟨rfl, rfl⟩
      rcases leading with rfl | ⟨_, rfl⟩ | ⟨_, rfl⟩
      · exact Or.inl (staged.vacant _ (by simp [vacancies, top, Frame.vacant?]))
      · exact Or.inr ⟨⟨_, _, _, top, rfl⟩, rfl⟩
      · exact Or.inl (staged.vacant _ (by simp [vacancies, top, Frame.vacant?]))

theorem failed_of_advanced (taken : Advanced cache next) {call : Nat} (failed : next.Failed call) :
    cache.Failed call := by
  unfold Failed at failed ⊢
  cases taken <;> simp_all

/-! ## Where stored blocks come from -/

/-- A stored block was brought by the loader of a call that had claimed its key.  So a call whose
loader has not returned a value has nothing stored in its name. -/
def Brought (cache : Cache) : Prop :=
  ∀ holding ∈ cache.store.holdings, .claimed holding.load holding.key ∈ cache.journal ∧
    .loaded holding.load holding.key holding.value ∈ cache.journal

theorem brought_kept (allowed : Cache → Move → Bool) :
    Kept allowed fun cache => LoadsKnown cache ∧ Brought cache := by
  apply (loadsKnown_kept allowed).and
  · intro cache next move _ known brought taken holding held
    have grown := (journal_suffix_of_accepted taken).subset
    rcases holding_of_accepted known.coherent.staged taken held with
      ⟨before, -⟩ | ⟨rest, -, top, -, loaded⟩
    · exact ⟨grown (brought holding before).1, grown (brought holding before).2⟩
    · have leads : (holding.key, holding.load) ∈ leaders cache.loads :=
        known.coherent.claimsMatch.subset (by simp [claims, top, Frame.claim?])
      exact ⟨grown (known.claims.runningClaimed _ _ leads), loaded⟩
  · intro cache next _ brought taken holding held
    have grown := (journal_suffix_of_advanced taken).subset
    have before := brought holding ((changed_of_advanced taken).1.holdings_subset held)
    exact ⟨grown before.1, grown before.2⟩

/-- The call is over and nothing it has brought is stored.  Since only its own loader could bring a
block in its name, it stays so. -/
def Spent (call : Nat) (cache : Cache) : Prop :=
  cache.Ended call ∧ ∀ holding ∈ cache.store.holdings, holding.load ≠ call

theorem spent_kept (call : Nat) (allowed : Cache → Move → Bool) :
    Kept allowed fun cache => Coherent cache ∧ Spent call cache := by
  apply (coherent_kept allowed).and
  · intro cache next move _ coherent spent taken
    refine ⟨spent.1.mono (journal_suffix_of_accepted taken), fun holding held same => ?_⟩
    rcases holding_of_accepted coherent.staged taken held with ⟨before, -⟩ | ⟨rest, -, top, -, -⟩
    · exact spent.2 holding before same
    · have number : call ∈ cache.numbers := by simp [numbers, top, Frame.call?, same]
      exact (coherent.endedApart call spent.1).2 number
  · intro cache next _ spent taken
    exact ⟨spent.1.mono (journal_suffix_of_advanced taken), fun holding held =>
      spent.2 holding ((changed_of_advanced taken).1.holdings_subset held)⟩

/-! ## Failed loads -/

/-- Nothing is stored under the key, and nothing that the call has brought will be.  What other
calls bring under the key later is another matter. -/
structure Forgotten (cache : Cache) (call : Nat) (key : BlockKey) : Prop where
  absent : cache.store.entries.get? key = none
  never : ∀ later, Visited anyMove cache later → ∀ other block,
    later.store.entries.get? other = some block → block.load ≠ call

theorem forgotten_of_absent (known : LoadsKnown cache) (brought : Brought cache) {call : Nat}
    {key : BlockKey} (claimed : .claimed call key ∈ cache.journal) (ended : cache.Ended call)
    (absent : cache.store.entries.get? key = none) : Forgotten cache call key where
  absent := absent
  never later visited other block held := by
    have spent : Spent call cache := by
      refine ⟨ended, fun holding stored same => ?_⟩
      have others := known.requested.one_claim (same ▸ (brought holding stored).1) claimed
      exact get?_eq_none_iff_holdingsOf.mp absent holding stored others
    have after := (spent_kept call anyMove).visited visited ⟨known.coherent, spent⟩
    exact after.2.2 _ (mem_holdingsOf_of_get? held)

/-- When a load ends in a failure nothing is stored under its key and nothing of it ever will be,
unless the listener panics while it is told of a block that has made room for the load's value; what
is stored then is this value.  No other assumption is made of loaders, listeners or weights. -/
theorem failed_load_forgotten (kind : StoreKind) (budget : UInt64) (limit : Option UInt64)
    (listener : Listener) (cache next : Cache) (call : Nat) (key : BlockKey)
    (visited : Visited anyMove (start (Store.empty kind budget limit) listener) cache)
    (stepped : Stepped anyMove cache next) (holds : cache.Holds call key)
    (failed : next.Failed call) :
    Forgotten next call key ∨
      (cache.MakingRoom call ∧ ∀ block, next.store.entries.get? key = some block →
        block.load = call ∧ .loaded call key block.value ∈ next.journal) := by
  have empty := Store.holdings_empty kind budget limit
  have known := (brought_kept anyMove).visited visited
    ⟨loadsKnown_start _ _ empty, by simp [Brought, start, empty]⟩
  have after := (brought_kept anyMove).stepped known stepped
  have leads := (known.1.claims.leads_iff known.1.coherent).mpr holds
  have grown := stepped.journal_suffix.subset
  rcases stepped.listed with ⟨move, -, taken⟩ | taken
  · have givenUp : (key, call) ∉ leaders next.loads := fun still =>
      after.1.coherent.leader_not_ended still failed.ended
    rcases given_up_of_accepted known.1.coherent.staged taken leads givenUp with
      absent | ⟨makingRoom, same⟩
    · exact Or.inl (forgotten_of_absent after.1 after.2 (grown holds.1) failed.ended absent)
    · refine Or.inr ⟨makingRoom, fun block held => ?_⟩
      rw [same] at held
      have stored := mem_holdingsOf_of_get? held
      have mine : block.load = call := known.1.coherent.staged.own _ stored call leads
      exact ⟨mine, mine ▸ grown (known.2 _ stored).2⟩
  · exact absurd (failed_of_advanced taken failed).ended holds.2

/-- The value of an overtaken load has been taken back, and the listener is told. -/
def takingBack : Cache :=
  reached anyMove (start (.weighted (.empty 100)) .interactive)
    [.begin (.load ⟨⟨0⟩, 0, 0, .index 1⟩), .claim, .begin (.invalidate .everything),
      .loaderReturns (.standIn 1 "outdated")]

theorem failed_load_forgotten_taking_back :
    takingBack.Holds 0 ⟨⟨0⟩, 0, 0, .index 1⟩ ∧
      (takingBack.after (.listenerPanics "boom")).Failed 0 ∧
      Forgotten (takingBack.after (.listenerPanics "boom")) 0 ⟨⟨0⟩, 0, 0, .index 1⟩ := by
  have run : Run anyMove (start (Store.empty .weighted 100 none) .interactive) _ takingBack :=
    run_reached (by decide +kernel)
  have holds : takingBack.Holds 0 ⟨⟨0⟩, 0, 0, .index 1⟩ := by
    have known := (loadsKnown_kept anyMove).run run (loadsKnown_start _ _ rfl)
    exact (known.claims.leads_iff known.coherent).mp (by decide +kernel)
  have failed : (takingBack.after (.listenerPanics "boom")).Failed 0 :=
    Or.inr ⟨"boom", by decide +kernel⟩
  have outcome := failed_load_forgotten .weighted 100 none .interactive takingBack _ 0
    ⟨⟨0⟩, 0, 0, .index 1⟩ (.of_run run) (stepped_after rfl (by decide +kernel)) holds failed
  refine ⟨holds, failed, outcome.resolve_right ?_⟩
  rintro ⟨⟨removal, frame, rest, top, makes⟩, -⟩
  have others : takingBack.stack.map Frame.makesRoom? = [none, none] := by decide +kernel
  simp [top, makes] at others

/-- A second call waits for a load that has to evict a block, and the listener is told of the
eviction. -/
def makingRoom : Cache :=
  reached anyMove (start (.weighted (.empty 10)) .interactive)
    (loadMoves ⟨⟨0⟩, 0, 0, .index 1⟩ (.standIn 6 "")
      ++ [.begin (.load ⟨⟨0⟩, 0, 0, .index 2⟩), .claim, .begin (.load ⟨⟨0⟩, 0, 0, .index 2⟩),
        .claim, .loaderReturns (.standIn 6 "")])

/-- If the listener panics then, the second call is told that the load failed, and yet the value is
stored. -/
theorem failed_load_stored :
    Visited anyMove (start (.weighted (.empty 10)) .interactive) makingRoom ∧
      Stepped anyMove makingRoom (makingRoom.after (.listenerPanics "boom")) ∧
      makingRoom.Holds 1 ⟨⟨0⟩, 0, 0, .index 2⟩ ∧
      (makingRoom.after (.listenerPanics "boom")).Failed 1 ∧
      (makingRoom.after (.listenerPanics "boom")).answersTo 2 =
        [(1, panicOutcome ⟨⟨0⟩, 0, 0, .index 2⟩)] ∧
      (makingRoom.after (.listenerPanics "boom")).store.entries.get? ⟨⟨0⟩, 0, 0, .index 2⟩ =
        some ⟨.standIn 6 "", 2, 1⟩ := by
  have run : Run anyMove (start (.weighted (.empty 10)) .interactive) _ makingRoom :=
    run_reached (by decide +kernel)
  have known := (loadsKnown_kept anyMove).run run (loadsKnown_start _ _ rfl)
  exact ⟨.of_run run, stepped_after rfl (by decide +kernel),
    (known.claims.leads_iff known.coherent).mp (by decide +kernel),
    Or.inr ⟨"boom", by decide +kernel⟩, by decide +kernel, by decide +kernel⟩

end Cache
end VolumeCache
