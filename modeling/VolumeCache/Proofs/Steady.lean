import VolumeCache.Proofs.Agreement
import VolumeCache.Proofs.Outlines

namespace VolumeCache

/-!
# Caches whose listener returns at once

A listener that does nothing but listen never has control, so no call is ever interrupted: an
invalidation, and the end of a load, run to their ends before anything else can happen.  Which
blocks are gone then, and what has been counted and told, does not depend on the kind of the store.
-/

namespace Cache

open PendingLoad

/-! ## What journals tell of evictions and uses -/

/-- Two journals tell of the same evictions and of as many uses.  In which order uses and evictions
alternate is not compared. -/
structure Even (first second : List Event) : Prop where
  victims : Cache.victims second = Cache.victims first
  accesses : second.countP Event.isAccess = first.countP Event.isAccess

namespace Even

variable {first second third : List Event}

theorem refl : Even first first := ⟨rfl, rfl⟩

theorem symm (even : Even first second) : Even second first :=
  ⟨even.victims.symm, even.accesses.symm⟩

theorem trans (even : Even first second) (later : Even second third) : Even first third where
  victims := later.victims.trans even.victims
  accesses := later.accesses.trans even.accesses

theorem cons (even : Even first second) {event other : Event}
    (victim : other.victim? = event.victim? := by rfl)
    (access : other.isAccess = event.isAccess := by rfl) :
    Even (event :: first) (other :: second) where
  victims := by
    have same : second.filterMap Event.victim? = first.filterMap Event.victim? := even.victims
    rw [Cache.victims, Cache.victims, List.filterMap_cons, List.filterMap_cons, victim, same]
  accesses := by rw [List.countP_cons, List.countP_cons, access, even.accesses]

end Even

/-- Evictions can be read off the removals as they can be compared. -/
theorem victims_eq_gone (journal : List Event) :
    victims journal = (gone journal).filterMap fun removal => Event.victim? (.removed removal) := by
  unfold victims gone
  induction journal with
  | nil => rfl
  | cons event earlier ih =>
      rw [List.filterMap_cons, ih, List.filterMap_cons]
      cases event with
      | removed removal =>
          simp only [Event.removed?, List.map_cons, List.filterMap_cons]
          cases cause : removal.cause <;> simp [Event.victim?, Removal.timeless, cause]
      | _ => rfl

theorem even_answers (before : List Event) (call : Nat) (outcome : Outcome) (waiting : List Nat) :
    Even before (answers call outcome waiting ++ before) where
  victims := by
    have none : Cache.victims (answers call outcome waiting) = [] := by
      simp [Cache.victims, answers, Event.victim?]
    rw [victims_append, none, List.nil_append]
  accesses := by
    have none : (answers call outcome waiting).countP Event.isAccess = 0 := by
      simp [answers, Event.isAccess]
    rw [List.countP_append, none, Nat.zero_add]

theorem Even.answered {first second : List Event} (even : Even first second) {call other : Nat}
    {outcome answer : Outcome} {waiting others : List Nat} :
    Even (answers call outcome waiting ++ first) (answers other answer others ++ second) :=
  (even_answers ..).symm.trans (even.trans (even_answers ..))

theorem even_noticed (before : List Event) (notice : Notice) :
    Even before (.noticed notice :: before) := ⟨rfl, rfl⟩

theorem Shows.accesses {listener : Listener} {reported removed : List Removal}
    {before after : List Event} (told : Shows listener reported removed before after) :
    after.countP Event.isAccess = before.countP Event.isAccess := by
  have none : (heard listener reported).countP Event.isAccess = 0 := by
    apply List.countP_eq_zero.mpr
    intro event member
    rcases List.mem_flatMap.mp (List.mem_reverse.mp member) with ⟨removal, -, tells⟩
    rw [(mem_told.mp tells).2]
    simp [Event.isAccess]
  rw [← countP_isAccess_seen, told.seen, List.countP_append, none, Nat.zero_add,
    countP_isAccess_seen]

theorem Shows.even {listener : Listener} {reported : List Removal}
    {blocks : List (BlockKey × CachedBlock)} {before after : List Event}
    (told : Shows listener reported (removalsOf .explicit blocks) before after) :
    Even before after where
  victims := by
    have none : ((removalsOf .explicit blocks).map Removal.timeless).reverse.filterMap
        (fun removal => Event.victim? (.removed removal)) = [] := by
      simp [removalsOf, Removal.timeless, Event.victim?]
    rw [victims_eq_gone, told.gone, List.filterMap_append, none, List.nil_append,
      ← victims_eq_gone]
  accesses := told.accesses

theorem Shows.evicts {listener : Listener} {reported : List Removal}
    {blocks : List (BlockKey × CachedBlock)} {before after : List Event}
    (told : Shows listener reported (removalsOf .size blocks) before after) :
    Cache.victims after =
      (blocks.map fun row => (row.1, row.2.value)).reverse ++ Cache.victims before := by
  have all : ((removalsOf .size blocks).map Removal.timeless).reverse.filterMap
      (fun removal => Event.victim? (.removed removal)) =
        (blocks.map fun row => (row.1, row.2.value)).reverse := by
    simp [removalsOf, Removal.timeless, Event.victim?, Function.comp_def]
  rw [victims_eq_gone, told.gone, List.filterMap_append, all, ← victims_eq_gone]

theorem Even.evicted {first second firstAfter secondAfter : List Event} (even : Even first second)
    {listener other : Listener} {reported heard : List Removal}
    {blocks others : List (BlockKey × CachedBlock)}
    (told : Shows listener reported (removalsOf .size blocks) first firstAfter)
    (alsoTold : Shows other heard (removalsOf .size others) second secondAfter)
    (same : blocks.map anonymousRow = others.map anonymousRow) : Even firstAfter secondAfter where
  victims := by
    have values := congrArg (List.map fun row => (row.1, row.2.value)) same
    simp only [List.map_map, Function.comp_def, anonymousRow, CachedBlock.anonymous] at values
    rw [alsoTold.evicts, told.evicts, values, even.victims]
  accesses := alsoTold.accesses.trans (even.accesses.trans told.accesses.symm)

/-! ## Caches that no listener disturbs -/

/-- What is known of a cache in every state, whatever its listener does.  The index is in order only
before the clock wraps, see `Indexed`. -/
structure Regular (cache : Cache) : Prop where
  coherent : Coherent cache
  orderly : Orderly cache
  indexed : Indexed cache
  passKnown : PassKnown cache

theorem regular_kept (allowed : Cache → Move → Bool) : Kept allowed Regular where
  accepted may regular taken :=
    have indexed := (indexed_kept allowed).accepted may ⟨regular.coherent, regular.indexed⟩ taken
    { coherent := indexed.1
      orderly := ((orderly_kept allowed).accepted may ⟨regular.coherent, regular.orderly⟩ taken).2
      indexed := indexed.2
      passKnown := regular.passKnown.accepted taken }
  advanced regular taken :=
    have indexed := (indexed_kept allowed).advanced ⟨regular.coherent, regular.indexed⟩ taken
    { coherent := indexed.1
      orderly := ((orderly_kept allowed).advanced ⟨regular.coherent, regular.orderly⟩ taken).2
      indexed := indexed.2
      passKnown := regular.passKnown.advanced taken }

theorem regular_start (kind : StoreKind) (budget : UInt64) (limit : Option UInt64)
    (listener : Listener) : Regular (start (.empty kind budget limit) listener) where
  coherent := coherent_start _ _ (by cases kind <;> rfl)
  orderly := orderly_start _ _
  indexed _ := by
    cases kind with
    | weighted => exact ⟨WeightedStore.indexed_empty budget, Nat.zero_le _⟩
    | simple => trivial
  passKnown := by cases kind <;> rfl

theorem Regular.heardBy {cache : Cache} (regular : Regular cache) (listener : Listener) :
    Regular (cache.heardBy listener) :=
  { coherent := regular.coherent.heardBy listener
    orderly := regular.orderly.heardBy listener
    indexed := regular.indexed
    passKnown := regular.passKnown }

/-- What is known of a cache whose listener, if it has one, returns at once.  Such a listener leaves
no frame behind when control is outside again. -/
structure Steady (cache : Cache) : Prop extends Regular cache where
  quiet : cache.listener ≠ .interactive
  unheard : ∀ frame ∈ cache.stack, frame.isListening = false

section Steady

variable {cache next : Cache}

theorem steady_start (kind : StoreKind) (budget : UInt64) (limit : Option UInt64)
    {listener : Listener} (quiet : listener ≠ .interactive) :
    Steady (start (.empty kind budget limit) listener) :=
  { toRegular := regular_start kind budget limit listener
    quiet := quiet
    unheard := fun _ member => absurd member List.not_mem_nil }

theorem steady_kept (allowed : Cache → Move → Bool) : Kept allowed Steady where
  accepted may steady taken :=
    have listener := (listener_kept _ allowed).accepted may rfl taken
    { toRegular := (regular_kept allowed).accepted may steady.toRegular taken
      quiet := listener ▸ steady.quiet
      unheard := unheard_of_accepted steady.quiet steady.unheard taken }
  advanced steady taken :=
    have listener := (listener_kept _ allowed).advanced rfl taken
    { toRegular := (regular_kept allowed).advanced steady.toRegular taken
      quiet := listener ▸ steady.quiet
      unheard := unheard_of_advanced steady.quiet steady.unheard taken }

theorem awaits_of_isOutside {frame : Frame} (outside : frame.isOutside = true)
    (unheard : frame.isListening = false) : frame.awaits = true := by
  cases frame <;> simp_all [Frame.isOutside, Frame.isListening, Frame.awaits]

/-- While control is outside, it is with callers and loaders all the way down. -/
theorem Steady.waiting (steady : Steady cache) (settled : cache.isSettled = true) :
    Waiting cache.stack := by
  have known : ∀ stack : List Frame, Nested stack → rests stack = true →
      (∀ frame ∈ stack, frame.isListening = false) → Waiting stack := by
    intro stack
    induction stack with
    | nil => exact fun _ _ _ frame member => nomatch member
    | cons frame below ih =>
        intro nested outside unheard
        have top := unheard frame List.mem_cons_self
        have deeper := fun other member => unheard other (List.mem_cons_of_mem frame member)
        have stands : rests below = true := nested.1.resolve_left (by simp [top])
        exact (ih nested.2 stands deeper).push (awaits_of_isOutside outside top)
  exact known cache.stack steady.orderly.nested (isSettled_eq cache ▸ settled) steady.unheard

theorem Steady.leads (steady : Steady cache) {call : Nat} {key : BlockKey} {rest : List Frame}
    (top : cache.stack = .loading call key :: rest) : (key, call) ∈ leaders cache.loads :=
  steady.coherent.claimsMatch.subset (by simp [claims, top, Frame.claim?])

/-- While control is outside no pass is under way.  With a listener that may call back this need not
be so, for it gets control in the middle of a pass. -/
theorem Steady.idle (steady : Steady cache) (settled : cache.isSettled = true) :
    cache.store.evicting = false := by
  have none : cache.passes = 0 := by
    apply List.countP_eq_zero.mpr
    intro frame member
    have awaits := steady.waiting settled frame member
    cases frame <;> simp_all [Frame.awaits, Frame.isPass]
  have known := steady.passKnown
  rw [PassKnown, none] at known
  cases evicting : cache.store.evicting with
  | false => rfl
  | true => simp [evicting] at known

end Steady

theorem Steady.perform {cache next : Cache} {move : Move} (steady : Steady cache)
    (made : cache.perform move = some next) :
    Steady next ∧ next.isSettled = true ∧ next.kind = cache.kind := by
  have limits := (limits_kept anyMove cache.kind cache.budget).perform rfl
    ⟨steady.coherent, rfl, rfl⟩ made
  refine ⟨(steady_kept anyMove).perform rfl steady made, ?_, limits.2.1⟩
  rcases Option.map_eq_some_iff.mp made with ⟨moved, taken, rfl⟩
  have begun := (steady_kept anyMove).accepted rfl steady (accepted_of_accept taken)
  exact settle_isSettled begun.coherent begun.orderly

theorem Steady.run {cache final : Cache} {moves : List Move} (steady : Steady cache)
    (settled : cache.isSettled = true) (run : Run anyMove cache moves final) :
    Steady final ∧ final.isSettled = true ∧ final.kind = cache.kind := by
  induction run with
  | done => exact ⟨steady, settled, rfl⟩
  | step _ made _ ih =>
      have next := steady.perform made
      have ends := ih next.1 next.2.1
      exact ⟨ends.1, ends.2.1, ends.2.2.trans next.2.2⟩

/-! ## What invalidations and ends of loads lead to -/

theorem reports_timeless (cache : Cache) :
    cache.reports.map Removal.timeless = (seen cache.journal).filterMap Event.reported? := by
  unfold reports seen
  induction cache.journal with
  | nil => rfl
  | cons event earlier ih =>
      rw [List.filterMap_cons, List.filterMap_cons]
      cases event <;>
        simp [Event.seen?, Event.reported?, List.filterMap_cons, ih]

/-- The cache has dropped the blocks under these keys and marked its loads, and nothing else has
happened.  The index of a weighted store is left out, for a sweep that finds nothing may still
rebuild it, and the invalidation of a key without a block does not. -/
structure Dropped (keys : List BlockKey) (marked : Table BlockKey PendingLoad)
    (cache final : Cache) : Prop where
  listener : final.listener = cache.listener
  store : final.store.unindexed = (cache.store.withoutAll keys).unindexed
  loads : final.loads = marked
  counters : final.counters = cache.counters.recordInvalidations
    (blocksUnder cache.store.entries keys).length.toUInt64
  stack : final.stack = cache.stack
  journal : Even cache.journal final.journal
  removals : gone final.journal =
    ((removalsOf .explicit (blocksUnder cache.store.entries keys)).map Removal.timeless).reverse
      ++ gone cache.journal
  reports : final.reports.map Removal.timeless =
    (heard cache.listener (removalsOf .explicit
        (blocksUnder cache.store.entries keys))).filterMap Event.reported?
      ++ cache.reports.map Removal.timeless

section Invalidation

variable {cache next : Cache} {scope : Scope}

/-- The journal of an invalidation that has run to its end. -/
theorem dropped_of_shows {final : Cache} {keys : List BlockKey}
    {marked : Table BlockKey PendingLoad} {blocks : List (BlockKey × CachedBlock)}
    {middle : List Event} {call : Nat} (listener : final.listener = cache.listener)
    (store : final.store.unindexed = (cache.store.withoutAll keys).unindexed)
    (loads : final.loads = marked) (same : blocks = blocksUnder cache.store.entries keys)
    (counters : final.counters = cache.counters.recordInvalidations blocks.length.toUInt64)
    (stack : final.stack = cache.stack)
    (journal : final.journal = .returned call .done :: middle)
    (told : Shows cache.listener (removalsOf .explicit blocks) (removalsOf .explicit blocks)
      (.began call (.invalidate scope) :: cache.journal) middle) :
    Dropped keys marked cache final := by
  subst same
  refine ⟨listener, store, loads, counters, stack, ?_, ?_, ?_⟩
  · have begun : Even cache.journal (.began call (.invalidate scope) :: cache.journal) :=
      ⟨rfl, rfl⟩
    have ended : Even middle final.journal := journal ▸ ⟨rfl, rfl⟩
    exact (begun.trans told.even).trans ended
  · rw [journal]
    exact told.gone
  · rw [reports_timeless, reports_timeless, journal]
    change (seen middle).filterMap Event.reported? = _
    rw [told.seen, List.filterMap_append]
    rfl

/-- An invalidation runs to its end, in a store of either kind.  It may have any scope, and loads
may be running; the listener must not call back. -/
theorem leads_invalidation (quiet : cache.listener ≠ .interactive)
    (taken : Accepted cache (.begin (.invalidate scope)) next) :
    ∃ final, Leads next final ∧
      Dropped (cache.store.keysIn scope) (overtaken cache.loads scope) cache final := by
  cases held : cache.store with
  | weighted store =>
      rcases leads_invalidated quiet held taken with ⟨final, journal, swept, leads, told⟩
      have matched := store.sweep_matching scope
      refine ⟨_, leads, dropped_of_shows rfl ?_ rfl ?_ rfl rfl rfl told⟩
      · rw [held, ← matched.2]
        rcases swept with rfl | rfl
        · rfl
        · exact Store.unindexed_compacted (.weighted (store.sweep (store.matching scope)).2)
      · rw [held]
        exact matched.1
  | simple store =>
      cases taken with
      | dropped _ weighted | nothingDropped _ weighted | sweepBegun _ weighted =>
          rw [held] at weighted
          cases weighted
      | @cleared _ inner left blocks _ simple cleared =>
          have matched := inner.removeWhere_eq scope
          rw [cleared] at matched
          rcases @leads_cleared { cache with
            store := .simple left
            loads := overtaken cache.loads scope
            calls := cache.calls + 1
            stack := .reporting (removalsOf .explicit blocks)
              (.close cache.calls scope blocks.length) :: cache.stack
            counters := cache.counters.recordInvalidations blocks.length.toUInt64
            journal := removedEvents (removalsOf .explicit blocks)
              ++ .began cache.calls (.invalidate scope) :: cache.journal } _ cache.calls scope _
            cache.stack _ quiet rfl rfl with ⟨journal, leads, told⟩
          rw [← held, simple]
          refine ⟨_, leads, dropped_of_shows rfl ?_ rfl ?_ rfl rfl rfl told⟩
          · rw [simple, ← matched.2]
          · rw [simple]
            exact matched.1

end Invalidation

/-- The key whose block is taken back at the end of a load, if it is.  Whether there is a block
under it is not asked. -/
def retracts (cache : Cache) (key : BlockKey) : List BlockKey :=
  if cache.isOvertaken key then [key] else []

section Conclusion

variable {cache : Cache} {admission : Admission} {rest : List Frame}

theorem even_concluded {before after : List Event} (even : Even before after) (call : Nat)
    (outcome : Outcome) (reply : Reply) (waiting : List Nat) :
    Even before (.returned call reply :: (answers call outcome waiting ++ after)) :=
  have answered := even.trans (even_answers after call outcome waiting)
  ⟨answered.victims, answered.accesses⟩

/-- The end of a load, in a store of either kind: a value that was overtaken is taken back. -/
theorem leads_concluded (quiet : cache.listener ≠ .interactive)
    (top : cache.stack = .concluding admission :: rest)
    (leads : (admission.key, admission.call) ∈ leaders cache.loads) :
    ∃ journal, Leads cache { cache with
        store := cache.store.withoutAll (cache.retracts admission.key)
        loads := cache.loads.erase admission.key
        counters := cache.counters.recordInvalidations
          (blocksUnder cache.store.entries (cache.retracts admission.key)).length.toUInt64
        stack := rest
        journal := journal } ∧ Even cache.journal journal := by
  have nothing : cache.counters.recordInvalidations (Nat.toUInt64 0) = cache.counters :=
    recordInvalidations_zero _
  rw [← released_eq_erase leads]
  cases stale : cache.isOvertaken admission.key with
  | false =>
      rw [retracts, if_neg (by simp [stale]), blocksUnder_nil, Store.withoutAll_nil,
        List.length_nil, nothing]
      exact ⟨_, .one (advance_of_advanced (.kept top stale)), even_concluded ⟨rfl, rfl⟩ ..⟩
  | true =>
      rw [retracts, if_pos stale, Store.withoutAll_cons, Store.withoutAll_nil]
      cases held : cache.store.entries.get? admission.key with
      | none =>
          rw [blocksUnder_cons_of_get?_none held, blocksUnder_nil, List.length_nil, nothing,
            Store.without_of_get?_none held]
          exact ⟨_, .one (advance_of_advanced (.goneAlready top stale held)),
            even_concluded (even_noticed _ _) ..⟩
      | some block =>
          rw [blocksUnder_cons_of_get? held, blocksUnder_nil]
          cases kind : cache.store with
          | weighted store =>
              rw [kind] at held
              change store.entries.get? admission.key = some block at held
              have taken : store.remove? admission.key =
                  some (block, store.without admission.key) := by
                rw [WeightedStore.remove?, held, WeightedStore.without_of_get? held]
                rfl
              rcases leads_retracted quiet top stale kind taken with ⟨journal, leads, told⟩
              exact ⟨_, leads, even_concluded told.even ..⟩
          | simple store =>
              rw [kind] at held
              change store.entries.get? admission.key = some block at held
              have taken : store.remove? admission.key =
                  some (block, store.without admission.key) := by
                rw [SimpleStore.remove?, held, SimpleStore.without_of_get? held]
                rfl
              rcases leads_takenBack quiet top stale kind taken with ⟨journal, leads, told⟩
              exact ⟨_, leads, even_concluded told.even ..⟩

end Conclusion

end Cache
end VolumeCache
