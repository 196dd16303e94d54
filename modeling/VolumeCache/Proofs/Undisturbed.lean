import VolumeCache.Proofs.Disposal
import VolumeCache.Proofs.Mirroring

namespace VolumeCache

/-!
# Caches that no listener disturbs

Without a listener that takes control, a pass, a sweep or a row of reports is over before control
is outside again.  What it then leads to is said here in one step for each, together with what can
be told of it from outside: when a block was last used, how the index was searched and in which
notices the work was announced stay hidden.
-/

def Removal.timeless (removal : Removal) : Removal :=
  { removal with block := { removal.block with lastAccess := 0 } }

/-- What can be told of an event from outside.  Removals are seen only as they are reported, and of
the blocks in the reports the time of last use is not seen, which a simple store keeps elsewhere. -/
def Event.seen? : Event → Option Event
  | .examined => none
  | .removed _ => none
  | .noticed _ => none
  | .reported removal => some (.reported removal.timeless)
  | event => some event

namespace Cache

open PendingLoad

def seen (journal : List Event) : List Event :=
  journal.filterMap Event.seen?

/-- The removals of a journal as they can be compared, the latest first.  The times of last use are
left out, since a simple store does not keep them in its blocks. -/
def gone (journal : List Event) : List Removal :=
  (journal.filterMap Event.removed?).map Removal.timeless

/-- The reports of these removals as they are seen, the latest first.  Without a listener there are
none. -/
def heard (listener : Listener) (removals : List Removal) : List Event :=
  ((removals.map Removal.timeless).flatMap listener.told).reverse

@[simp] theorem seen_append (first second : List Event) :
    seen (first ++ second) = seen first ++ seen second :=
  List.filterMap_append

@[simp] theorem gone_append (first second : List Event) :
    gone (first ++ second) = gone first ++ gone second := by
  simp [gone]

@[simp] theorem seen_removedEvents (removals : List Removal) :
    seen (removedEvents removals) = [] := by
  simp [seen, removedEvents, Event.seen?]

@[simp] theorem gone_removedEvents (removals : List Removal) :
    gone (removedEvents removals) = (removals.map Removal.timeless).reverse := by
  simp [gone, Event.removed?]

@[simp] theorem seen_told (listener : Listener) (removal : Removal) :
    seen (listener.told removal) = heard listener [removal] := by
  cases listener <;> rfl

@[simp] theorem gone_told (listener : Listener) (removal : Removal) :
    gone (listener.told removal) = [] := by
  cases listener <;> rfl

@[simp] theorem heard_append (listener : Listener) (first second : List Removal) :
    heard listener (first ++ second) = heard listener second ++ heard listener first := by
  simp [heard]

theorem Notices.seen {events : List Event} (notices : Notices events) : Cache.seen events = [] :=
  notices.filterMap fun _ => rfl

theorem Notices.gone {events : List Event} (notices : Notices events) : Cache.gone events = [] :=
  congrArg _ (notices.filterMap fun _ => rfl)

/-- The journal has grown by these reports and these removals; nothing else of what came in can be
seen from outside.  The two lists differ where blocks are first removed together and reported one by
one later. -/
structure Shows (listener : Listener) (reported removed : List Removal)
    (before after : List Event) : Prop where
  seen : Cache.seen after = heard listener reported ++ Cache.seen before
  gone : Cache.gone after = (removed.map Removal.timeless).reverse ++ Cache.gone before

namespace Shows

variable {listener : Listener} {before middle after : List Event}

theorem refl : Shows listener [] [] before before where
  seen := rfl
  gone := rfl

theorem trans {reported removed alsoReported alsoRemoved : List Removal}
    (first : Shows listener reported removed before middle)
    (second : Shows listener alsoReported alsoRemoved middle after) :
    Shows listener (reported ++ alsoReported) (removed ++ alsoRemoved) before after where
  seen := by rw [second.seen, first.seen, heard_append, List.append_assoc]
  gone := by simp [second.gone, first.gone]

theorem hidden {reported removed : List Removal} {events : List Event}
    (shows : Shows listener reported removed before after) (notices : Notices events) :
    Shows listener reported removed before (events ++ after) where
  seen := by rw [seen_append, notices.seen, List.nil_append, shows.seen]
  gone := by rw [gone_append, notices.gone, List.nil_append, shows.gone]

theorem examined : Shows listener [] [] before (.examined :: before) where
  seen := rfl
  gone := rfl

theorem noticed (notice : Notice) : Shows listener [] [] before (.noticed notice :: before) where
  seen := rfl
  gone := rfl

theorem one (removal : Removal) :
    Shows listener [removal] [removal] before
      (listener.told removal ++ .removed removal :: before) where
  seen := by
    rw [seen_append, seen_told]
    rfl
  gone := by
    rw [gone_append, gone_told]
    rfl

theorem told (removal : Removal) :
    Shows listener [removal] [] before (listener.told removal ++ before) where
  seen := by rw [seen_append, seen_told]
  gone := by
    rw [gone_append, gone_told]
    rfl

theorem removed (removals : List Removal) :
    Shows listener [] removals before (removedEvents removals ++ before) where
  seen := by
    rw [seen_append, seen_removedEvents]
    rfl
  gone := by rw [gone_append, gone_removedEvents]

/-- Removals that are reported only after all of them have been made. -/
theorem later {removals : List Removal} (made : Shows listener [] removals before middle)
    (reported : Shows listener removals [] middle after) :
    Shows listener removals removals before after := by
  simpa using made.trans reported

end Shows

/-! ## What undisturbed work leads to -/

/-- A pass goes on to its end.  Since the listener does not call back, all that comes in between are
its reports. -/
theorem leads_drained {store final : WeightedStore} {count : Nat}
    {blocks : List (BlockKey × CachedBlock)} (drained : Drained store count blocks final)
    {cache : Cache} {admission : Admission} {examined evicted : Nat} {rest : List Frame}
    (quiet : cache.listener ≠ .interactive) (weighted : cache.store = .weighted store)
    (top : cache.stack = .evicting admission examined evicted :: rest) :
    ∃ journal,
      Leads cache { cache with
        store := .weighted { final with evicting := false }
        stack := .concluding admission :: rest
        counters := cache.counters.recordEvictions (evicted + blocks.length).toUInt64
        journal := journal } ∧
      Shows cache.listener (removalsOf .size blocks) (removalsOf .size blocks) cache.journal
        journal := by
  induction drained generalizing cache examined evicted with
  | @ended store done =>
      exact ⟨_, Leads.one (advance_of_advanced (.passEnded top weighted done)),
        Shows.refl.hidden (notices_passNotice store examined evicted)⟩
  | @outdated store left final count blocks heavy first _ ih =>
      have step := advance_of_advanced (.outdated top weighted heavy first)
      rcases @ih { cache with
        store := .weighted left
        stack := .evicting admission (examined + 1) evicted :: rest
        journal := .examined :: cache.journal } _ _ quiet rfl rfl with ⟨journal, leads, shows⟩
      exact ⟨journal, .step step leads, Shows.examined.trans shows⟩
  | @evicted store left final key block count blocks heavy first _ ih =>
      have step := advance_of_advanced (.evicted top weighted heavy first)
      rw [running_of_quiet quiet] at step
      rcases @ih { cache with
        store := .weighted left
        stack := .evicting admission (examined + 1) (evicted + 1) :: rest
        journal := cache.listener.told ⟨key, block, .size⟩
          ++ .removed ⟨key, block, .size⟩ :: .examined :: cache.journal } _ _ quiet rfl rfl
        with ⟨journal, leads, shows⟩
      have counted : evicted + 1 + blocks.length = evicted + (blocks.length + 1) := by omega
      rw [counted] at leads
      exact ⟨journal, .step step leads, (Shows.examined.trans (.one _)).trans shows⟩

/-- A sweep goes on until nothing is doomed any more.  Nobody calls back in between, so every listed
block that was there when the sweep began is dropped by it. -/
theorem leads_swept (doomed : List (BlockKey × Nat)) {cache : Cache} {store : WeightedStore}
    {call : Nat} {scope : Scope} {removed : Nat} {rest : List Frame}
    (quiet : cache.listener ≠ .interactive) (weighted : cache.store = .weighted store)
    (top : cache.stack = .sweeping call scope doomed removed :: rest) :
    ∃ journal,
      Leads cache { cache with
        store := .weighted (store.sweep doomed).2
        stack := .sweeping call scope [] (removed + (store.sweep doomed).1.length) :: rest
        journal := journal } ∧
      Shows cache.listener (removalsOf .explicit (store.sweep doomed).1)
        (removalsOf .explicit (store.sweep doomed).1) cache.journal journal := by
  induction doomed generalizing cache store removed with
  | nil =>
      refine ⟨cache.journal, ?_, .refl⟩
      have same : { cache with
          store := .weighted store
          stack := .sweeping call scope [] removed :: rest } = cache := by
        rw [← weighted, ← top]
      exact same ▸ Leads.refl
  | cons entry doomed ih =>
      obtain ⟨key, load⟩ := entry
      unfold WeightedStore.sweep
      cases taken : store.removeLoaded? key load with
      | none =>
          have step := advance_of_advanced (.passedOver top weighted taken)
          rcases @ih { cache with stack := .sweeping call scope doomed removed :: rest } store _
            quiet weighted rfl with ⟨journal, leads, shows⟩
          exact ⟨journal, .step step leads, shows⟩
      | some found =>
          obtain ⟨block, left⟩ := found
          have step := advance_of_advanced (.swept top weighted taken)
          rw [running_of_quiet quiet] at step
          rcases @ih { cache with
            store := .weighted left
            stack := .sweeping call scope doomed (removed + 1) :: rest
            journal := cache.listener.told ⟨key, block, .explicit⟩
              ++ .removed ⟨key, block, .explicit⟩ :: cache.journal } left _ quiet rfl rfl
            with ⟨journal, leads, shows⟩
          have counted : removed + 1 + (left.sweep doomed).1.length =
              removed + ((left.sweep doomed).1.length + 1) := by omega
          rw [counted] at leads
          exact ⟨journal, .step step leads, (Shows.one _).trans shows⟩

theorem leads_reported (removals : List Removal) {cache : Cache} {sequel : Sequel}
    {rest : List Frame} (quiet : cache.listener ≠ .interactive)
    (top : cache.stack = .reporting removals sequel :: rest) :
    ∃ journal,
      Leads cache { cache with stack := .reporting [] sequel :: rest, journal := journal } ∧
      Shows cache.listener removals [] cache.journal journal := by
  induction removals generalizing cache with
  | nil =>
      refine ⟨cache.journal, ?_, .refl⟩
      have same : { cache with stack := .reporting [] sequel :: rest } = cache := by rw [← top]
      exact same ▸ Leads.refl
  | cons removal removals ih =>
      have step := advance_of_advanced (.reported top)
      rw [running_of_quiet quiet] at step
      rcases @ih { cache with
        stack := .reporting removals sequel :: rest
        journal := cache.listener.told removal ++ cache.journal } quiet rfl
        with ⟨journal, leads, shows⟩
      exact ⟨journal, .step step leads, (Shows.told removal).trans shows⟩

/-- After an admission to a simple store what had to go is reported, and the end of the load is
next. -/
theorem leads_admitted {removals : List Removal} {cache : Cache} {admission : Admission}
    {rest : List Frame} {earlier : List Event} (quiet : cache.listener ≠ .interactive)
    (top : cache.stack = sequelOf admission removals :: rest)
    (said : cache.journal = evictionNotice removals ++ removedEvents removals ++ earlier) :
    ∃ journal,
      Leads cache { cache with stack := .concluding admission :: rest, journal := journal } ∧
      Shows cache.listener removals removals earlier journal := by
  have made : Shows cache.listener [] removals earlier cache.journal := by
    rw [said, List.append_assoc]
    exact (Shows.removed removals).hidden (notices_evictionNotice removals)
  cases removals with
  | nil =>
      refine ⟨cache.journal, ?_, made⟩
      have same : { cache with stack := .concluding admission :: rest } = cache := by
        rw [sequelOf] at top
        rw [← top]
      exact same ▸ Leads.refl
  | cons removal removals =>
      rcases leads_reported (removal :: removals) quiet top with ⟨journal, leads, shows⟩
      have step := advance_of_advanced (@Advanced.admissionReported { cache with
        stack := .reporting [] (.conclude admission) :: rest
        journal := journal } admission rest rfl)
      exact ⟨journal, leads.trans (.one step), made.later shows⟩

/-- A value is taken back from a weighted store, reported and counted. -/
theorem leads_retracted {cache : Cache} {admission : Admission} {rest : List Frame}
    {store left : WeightedStore} {block : CachedBlock} (quiet : cache.listener ≠ .interactive)
    (top : cache.stack = .concluding admission :: rest)
    (stale : cache.isOvertaken admission.key = true) (weighted : cache.store = .weighted store)
    (taken : store.remove? admission.key = some (block, left)) :
    ∃ journal,
      Leads cache { cache with
        store := .weighted left
        loads := released cache.loads admission.call admission.key
        stack := rest
        counters := cache.counters.recordInvalidations 1
        journal := .returned admission.call (.loaded (.value admission.value))
          :: (answers admission.call (.value admission.value)
            (waiting cache.loads admission.call admission.key) ++ journal) } ∧
      Shows cache.listener (removalsOf .explicit [(admission.key, block)])
        (removalsOf .explicit [(admission.key, block)]) cache.journal journal := by
  have step := advance_of_advanced (.retracted top stale weighted taken)
  rw [running_of_quiet quiet] at step
  have counted := advance_of_advanced (@Advanced.retractionCounted { cache with
    store := .weighted left
    stack := .retracting admission :: rest
    journal := cache.listener.told ⟨admission.key, block, .explicit⟩
      ++ .removed ⟨admission.key, block, .explicit⟩
      :: .noticed (.overtaken admission.key) :: cache.journal } admission rest rfl)
  exact ⟨_, .step step (.one counted), (Shows.noticed _).trans (.one _)⟩

theorem leads_takenBack {cache : Cache} {admission : Admission} {rest : List Frame}
    {store left : SimpleStore} {block : CachedBlock} (quiet : cache.listener ≠ .interactive)
    (top : cache.stack = .concluding admission :: rest)
    (stale : cache.isOvertaken admission.key = true) (simple : cache.store = .simple store)
    (taken : store.remove? admission.key = some (block, left)) :
    ∃ journal,
      Leads cache { cache with
        store := .simple left
        loads := released cache.loads admission.call admission.key
        stack := rest
        counters := cache.counters.recordInvalidations 1
        journal := .returned admission.call (.loaded (.value admission.value))
          :: (answers admission.call (.value admission.value)
            (waiting cache.loads admission.call admission.key) ++ journal) } ∧
      Shows cache.listener (removalsOf .explicit [(admission.key, block)])
        (removalsOf .explicit [(admission.key, block)]) cache.journal journal := by
  have step := advance_of_advanced (.takenBack top stale simple taken)
  rcases @leads_reported [⟨admission.key, block, .explicit⟩] { cache with
    store := .simple left
    stack := .reporting [⟨admission.key, block, .explicit⟩] (.finish admission) :: rest
    counters := cache.counters.recordInvalidations 1
    journal := .removed ⟨admission.key, block, .explicit⟩
      :: .noticed (.overtaken admission.key) :: cache.journal } (.finish admission) rest quiet rfl
    with ⟨journal, leads, shows⟩
  have finished := advance_of_advanced (@Advanced.retractionReported { cache with
    store := .simple left
    stack := .reporting [] (.finish admission) :: rest
    counters := cache.counters.recordInvalidations 1
    journal := journal } admission rest rfl)
  have removed : Shows cache.listener [] [⟨admission.key, block, .explicit⟩] cache.journal
      (.removed ⟨admission.key, block, .explicit⟩
        :: .noticed (.overtaken admission.key) :: cache.journal) :=
    (Shows.noticed _).trans (Shows.removed [_])
  exact ⟨journal, .step step (leads.trans (.one finished)), removed.later shows⟩

theorem leads_sweepEnded {cache : Cache} {store : WeightedStore} {call : Nat} {scope : Scope}
    {doomed : List (BlockKey × Nat)} {rest : List Frame} (quiet : cache.listener ≠ .interactive)
    (weighted : cache.store = .weighted store)
    (top : cache.stack = .sweeping call scope doomed 0 :: rest) :
    ∃ journal,
      Leads cache { cache with
        store := (Store.weighted (store.sweep doomed).2).compacted
        stack := rest
        counters := cache.counters.recordInvalidations (store.sweep doomed).1.length.toUInt64
        journal := .returned call .done :: journal } ∧
      Shows cache.listener (removalsOf .explicit (store.sweep doomed).1)
        (removalsOf .explicit (store.sweep doomed).1) cache.journal journal := by
  rcases leads_swept doomed quiet weighted top with ⟨journal, leads, shows⟩
  rw [Nat.zero_add] at leads
  have ended := advance_of_advanced (@Advanced.sweepEnded { cache with
    store := .weighted (store.sweep doomed).2
    stack := .sweeping call scope [] (store.sweep doomed).1.length :: rest
    journal := journal } call scope (store.sweep doomed).1.length rest _ rfl rfl)
  exact ⟨_, leads.trans (.one ended),
    (shows.hidden (notices_compactionNotice _)).hidden (notices_clearedNotice scope _)⟩

/-- An invalidation of a simple store runs to its end. -/
theorem leads_cleared {cache : Cache} {removals : List Removal} {call : Nat} {scope : Scope}
    {removed : Nat} {rest : List Frame} {earlier : List Event}
    (quiet : cache.listener ≠ .interactive)
    (top : cache.stack = .reporting removals (.close call scope removed) :: rest)
    (said : cache.journal = removedEvents removals ++ earlier) :
    ∃ journal,
      Leads cache { cache with stack := rest, journal := .returned call .done :: journal } ∧
      Shows cache.listener removals removals earlier journal := by
  rcases leads_reported removals quiet top with ⟨journal, leads, shows⟩
  have closed := advance_of_advanced (@Advanced.clearingReported { cache with
    stack := .reporting [] (.close call scope removed) :: rest
    journal := journal } call scope removed rest rfl)
  have made : Shows cache.listener [] removals earlier cache.journal := by
    rw [said]
    exact .removed removals
  exact ⟨_, leads.trans (.one closed),
    (made.later shows).hidden (notices_clearedNotice scope removed)⟩

/-! ## What moves lead to -/

theorem recordInvalidations_zero (counters : Counters) :
    counters.recordInvalidations 0 = counters := by
  simp [Counters.recordInvalidations]

theorem recordInvalidations_add (counters : Counters) (first second : Nat) :
    (counters.recordInvalidations first.toUInt64).recordInvalidations second.toUInt64 =
      counters.recordInvalidations (first + second).toUInt64 := by
  have sum : (first + second).toUInt64 = first.toUInt64 + second.toUInt64 :=
    UInt64.ofNat_add first second
  unfold Counters.recordInvalidations
  rw [sum, UInt64.add_assoc]

/-- An admission to a weighted store evicts what a pass over the grown store evicts. -/
theorem leads_grown {cache next : Cache} {call : Nat} {key : BlockKey} {payload : Payload}
    {rest : List Frame} {store : WeightedStore} (quiet : cache.listener ≠ .interactive)
    (weighted : cache.store = .weighted store) (idle : store.evicting = false)
    (top : cache.stack = .loading call key :: rest)
    (taken : Accepted cache (.loaderReturns payload) next) :
    ∃ evicting count blocks final journal,
      Drained { store.insert key call payload with evicting := evicting } count blocks final ∧
      Leads next { cache with
        store := .weighted { final with evicting := false }
        stack := .concluding ⟨call, key, payload⟩ :: rest
        counters := (cache.counters.recordLoad true).recordEvictions blocks.length.toUInt64
        journal := journal } ∧
      Shows cache.listener (removalsOf .size blocks) (removalsOf .size blocks)
        (.loaded call key payload :: cache.journal) journal := by
  obtain ⟨storeIs, listener, loads, counters, stack, calls, earlier⟩ := cache
  cases weighted
  cases top
  cases taken with
  | passBegun isTop isWeighted heavy free =>
      cases isTop
      cases isWeighted
      rcases drained_exists { store.insert key call payload with evicting := true }
        with ⟨count, blocks, final, drained⟩
      rcases @leads_drained _ _ _ _ drained ⟨.weighted { store.insert key call payload with
        evicting := true }, listener, loads, counters.recordLoad true,
        .evicting ⟨call, key, payload⟩ 0 0 :: rest, calls, .loaded call key payload :: earlier⟩
        _ 0 0 rest quiet rfl rfl with ⟨journal, leads, shows⟩
      rw [Nat.zero_add] at leads
      exact ⟨true, count, blocks, final, journal, drained, leads, shows⟩
  | stored isTop isWeighted within =>
      cases isTop
      cases isWeighted
      have done : (store.insert key call payload).overBudget = false := by
        rcases within with within | busy
        · exact within
        · rw [idle] at busy
          cases busy
      have still : { store.insert key call payload with evicting := false } =
          store.insert key call payload :=
        congrArg (fun evicting => { store.insert key call payload with evicting := evicting })
          idle.symm
      have none : (counters.recordLoad true).recordEvictions (Nat.toUInt64 0) =
          counters.recordLoad true := recordEvictions_zero _
      refine ⟨false, 0, [], _, _, .ended (Or.inl done), ?_, .refl⟩
      dsimp only [List.length_nil]
      rw [none, still]
      exact .refl
  | simplyStored _ simple | overflown _ simple => cases simple

/-- An invalidation of a weighted store drops what a sweep drops, whatever its scope.  Afterwards
the index may have been rebuilt. -/
theorem leads_invalidated {cache next : Cache} {scope : Scope} {store : WeightedStore}
    (quiet : cache.listener ≠ .interactive) (weighted : cache.store = .weighted store)
    (taken : Accepted cache (.begin (.invalidate scope)) next) :
    ∃ final journal,
      (final = (store.sweep (store.matching scope)).2 ∨
        final = (store.sweep (store.matching scope)).2.compact?.getD
          (store.sweep (store.matching scope)).2) ∧
      Leads next { cache with
        store := .weighted final
        loads := overtaken cache.loads scope
        calls := cache.calls + 1
        counters := cache.counters.recordInvalidations
          (store.sweep (store.matching scope)).1.length.toUInt64
        journal := .returned cache.calls .done :: journal } ∧
      Shows cache.listener (removalsOf .explicit (store.sweep (store.matching scope)).1)
        (removalsOf .explicit (store.sweep (store.matching scope)).1)
        (.began cache.calls (.invalidate scope) :: cache.journal) journal := by
  obtain ⟨storeIs, listener, loads, counters, stack, calls, earlier⟩ := cache
  cases weighted
  cases taken with
  | @dropped key _ left block _ isWeighted dropped =>
      cases isWeighted
      rw [store.sweep_exactly, dropped]
      dsimp only
      rw [running_of_quiet quiet]
      have counted := advance_of_advanced (@Advanced.dropCounted ⟨.weighted left, listener,
        overtaken loads (.exactly key), counters, .dropping calls :: stack, calls + 1,
        listener.told ⟨key, block, .explicit⟩ ++ .removed ⟨key, block, .explicit⟩
          :: .began calls (.invalidate (.exactly key)) :: earlier⟩ calls stack rfl)
      exact ⟨_, _, Or.inr rfl, .one counted, (Shows.one _).hidden (notices_compactionNotice _)⟩
  | nothingDropped _ isWeighted absent =>
      cases isWeighted
      rw [store.sweep_exactly, absent]
      dsimp only
      have none : counters.recordInvalidations (Nat.toUInt64 0) = counters :=
        recordInvalidations_zero counters
      refine ⟨_, _, Or.inl rfl, ?_, .refl⟩
      rw [List.length_nil, none]
      exact .refl
  | sweepBegun _ isWeighted =>
      cases isWeighted
      rcases @leads_sweepEnded ⟨.weighted store, listener, overtaken loads scope, counters,
        .sweeping calls scope (store.matching scope) 0 :: stack, calls + 1,
        .began calls (.invalidate scope) :: earlier⟩ store calls scope _ stack quiet rfl rfl
        with ⟨journal, leads, shows⟩
      exact ⟨_, journal, Or.inr rfl, leads, shows⟩
  | cleared _ simple => cases simple

end Cache
end VolumeCache
