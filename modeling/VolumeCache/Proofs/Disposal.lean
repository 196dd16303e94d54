import VolumeCache.Proofs.Weights

namespace VolumeCache

/-!
# Where loaded values go

Every value that a loader has returned is stored, or has been removed; nothing is dropped without
a removal and nothing is removed twice.  Removals are reported one for one, some of them later
than they are made, and they are counted, most of them later than they are made; what is still to
be reported and to be counted stands in the frames of the calls under way.  That all of it is done
in the end needs listeners that do not panic, and weights that a simple store can sum.
-/

namespace Event

def loaded? : Event → Option Holding
  | .loaded call key payload => some ⟨key, payload, call⟩
  | _ => none

def removed? : Event → Option Removal
  | .removed removal => some removal
  | _ => none

def reported? : Event → Option Removal
  | .reported removal => some removal
  | _ => none

end Event

namespace Cache

/-- The blocks that loaders have brought, the latest first. -/
def arrivals (cache : Cache) : List Holding :=
  cache.journal.filterMap Event.loaded?

def removals (cache : Cache) : List Removal :=
  cache.journal.filterMap Event.removed?

def reports (cache : Cache) : List Removal :=
  cache.journal.filterMap Event.reported?

theorem arrivals_eq (cache : Cache) :
    cache.arrivals = (noted cache.journal).filterMap Event.loaded? :=
  (filterMap_noted (fun event idle => by
    cases event <;> simp_all [Event.isNoted, Event.loaded?]) _).symm

theorem removals_eq (cache : Cache) :
    cache.removals = (noted cache.journal).filterMap Event.removed? :=
  (filterMap_noted (fun event idle => by
    cases event <;> simp_all [Event.isNoted, Event.removed?]) _).symm

theorem reports_eq (cache : Cache) :
    cache.reports = (noted cache.journal).filterMap Event.reported? :=
  (filterMap_noted (fun event idle => by
    cases event <;> simp_all [Event.isNoted, Event.reported?]) _).symm

/-! ## Stored or removed -/

/-- Between the two states blocks have come in and gone out as the journal says.  Blocks are
compared with the loads that brought them, so none can stand in for another one. -/
def Flows (cache next : Cache) : Prop :=
  ∃ arrived gone, next.arrivals = arrived ++ cache.arrivals ∧
    next.removals = gone ++ cache.removals ∧
    (cache.store.holdings ++ arrived).Perm (gone.map Removal.holding ++ next.store.holdings)

theorem holding_removalsOf (cause : RemovalCause) (blocks : List (BlockKey × CachedBlock)) :
    (removalsOf cause blocks).map Removal.holding = blocks.map Holding.ofRow := by
  simp [removalsOf, Function.comp_def, Removal.holding, Holding.ofRow]

theorem Flows.still {cache next : Cache} (arrivals : next.arrivals = cache.arrivals)
    (removals : next.removals = cache.removals)
    (holdings : next.store.holdings = cache.store.holdings) : Flows cache next := by
  refine ⟨[], [], arrivals, removals, ?_⟩
  rw [holdings, List.append_nil]
  exact List.Perm.refl _

theorem Flows.lost {cache next : Cache} (removal : Removal)
    (arrivals : next.arrivals = cache.arrivals)
    (removals : next.removals = removal :: cache.removals)
    (holdings : cache.store.holdings.Perm (removal.holding :: next.store.holdings)) :
    Flows cache next := by
  refine ⟨[], [removal], arrivals, removals, ?_⟩
  rw [List.append_nil]
  exact holdings

/-- What a move brings in and takes out the journal tells, unless a simple store refuses a value.
Such a value is journalled as loaded and is never stored. -/
theorem flows_of_accepted {cache next : Cache} {move : Move} (staged : Staged cache)
    (accepts : ∀ {call key rest payload store left}, move = .loaderReturns payload →
      cache.stack = .loading call key :: rest → cache.store = .simple store →
      store.put key call payload ≠ .error left)
    (taken : Accepted cache move next) : Flows cache next := by
  cases taken with
  | found _ held | hit _ held | lateHit _ _ held =>
      refine .still ?_ ?_ (Store.lookup?_holdings held)
      · simp [arrivals_eq, Event.isNoted, Event.loaded?, List.filterMap_cons]
      · simp [removals_eq, Event.isNoted, Event.removed?, List.filterMap_cons]
  | missing | opened | nothingDropped | sweepBegun | joined | claimed | failed | panicked
  | listenerReturned | loadUnwound | clearingUnwound =>
      refine .still ?_ ?_ rfl
      · simp [arrivals_eq, Event.isNoted, Event.loaded?, List.filterMap_cons]
      · simp [removals_eq, Event.isNoted, Event.removed?, List.filterMap_cons]
  | passUnwound =>
      refine .still ?_ ?_ (congrArg holdingsOf (releasePass_entries cache))
      · simp [arrivals_eq, Event.isNoted, Event.loaded?, List.filterMap_cons]
      · simp [removals_eq, Event.isNoted, Event.removed?, List.filterMap_cons]
  | dropped _ weighted taken =>
      have gone := WeightedStore.remove?_holdings taken
      rw [← Store.holdings_weighted weighted] at gone
      refine .lost ⟨_, _, .explicit⟩ ?_ ?_ gone
      · simp [arrivals_eq, Event.isNoted, Event.loaded?, List.filterMap_cons]
      · simp [removals_eq, Event.isNoted, Event.removed?, List.filterMap_cons]
  | @cleared scope store left blocks _ simple taken =>
      have gone := SimpleStore.removeWhere_holdings taken
      rw [← Store.holdings_simple simple] at gone
      refine ⟨[], (removalsOf .explicit blocks).reverse, ?_, ?_, ?_⟩
      · simp [arrivals_eq, Event.isNoted, Event.loaded?, List.filterMap_cons]
      · simp [removals_eq, Event.isNoted, Event.removed?, List.filterMap_cons]
      · rw [List.append_nil, List.map_reverse, holding_removalsOf]
        exact gone.trans ((List.reverse_perm _).symm.append_right _)
  | @passBegun call key rest payload store top weighted _ _
  | @stored call key rest payload store top weighted _ =>
      have came := staged.insert_holdings top weighted payload
      refine ⟨[⟨key, payload, call⟩], [], ?_, ?_, .of_eq came.symm⟩
      · simp [arrivals_eq, Event.isNoted, Event.loaded?]
      · simp [removals_eq, Event.isNoted, Event.removed?, List.filterMap_cons]
  | @simplyStored call key rest payload store left blocks top simple put =>
      have came := staged.put_holdings top simple put
      refine ⟨[⟨key, payload, call⟩], (removalsOf .size blocks).reverse, ?_, ?_, ?_⟩
      · simp [arrivals_eq, Event.isNoted, Event.loaded?]
      · simp [removals_eq, Event.isNoted, Event.removed?, List.filterMap_cons]
      · rw [List.map_reverse, holding_removalsOf]
        exact came.trans ((List.reverse_perm _).symm.append_right _)
  | overflown top simple refused => exact absurd refused (accepts rfl top simple)

theorem flows_of_advanced {cache next : Cache} (taken : Advanced cache next) :
    Flows cache next := by
  cases taken with
  | outdated _ weighted _ first =>
      have same := congrArg holdingsOf (WeightedStore.outdated_entries first)
      rw [← Store.holdings_weighted weighted] at same
      refine .still ?_ ?_ same
      · simp [arrivals_eq, Event.isNoted, Event.loaded?, List.filterMap_cons]
      · simp [removals_eq, Event.isNoted, Event.removed?, List.filterMap_cons]
  | evicted _ weighted _ first =>
      have gone := WeightedStore.evicted_holdings first
      rw [← Store.holdings_weighted weighted] at gone
      refine .lost ⟨_, _, .size⟩ ?_ ?_ gone
      · simp [arrivals_eq, Event.isNoted, Event.loaded?, List.filterMap_cons]
      · simp [removals_eq, Event.isNoted, Event.removed?, List.filterMap_cons]
  | passEnded _ weighted _ =>
      apply Flows.still
      · simp [arrivals_eq]
      · simp [removals_eq]
      · rw [Store.holdings_weighted weighted]
        rfl
  | kept | goneAlready | retractionCounted | retractionReported | passedOver | admissionReported
  | clearingReported | reported =>
      refine .still ?_ ?_ rfl
      · simp [arrivals_eq, Event.isNoted, Event.loaded?, List.filterMap_cons]
      · simp [removals_eq, Event.isNoted, Event.removed?, List.filterMap_cons]
  | dropCounted | sweepEnded =>
      refine .still ?_ ?_ (congrArg holdingsOf (Store.compacted_entries _))
      · simp [arrivals_eq, Event.isNoted, Event.loaded?, List.filterMap_cons]
      · simp [removals_eq, Event.isNoted, Event.removed?, List.filterMap_cons]
  | retracted _ _ weighted taken =>
      have gone := WeightedStore.remove?_holdings taken
      rw [← Store.holdings_weighted weighted] at gone
      refine .lost ⟨_, _, .explicit⟩ ?_ ?_ gone
      · simp [arrivals_eq, Event.isNoted, Event.loaded?, List.filterMap_cons]
      · simp [removals_eq, Event.isNoted, Event.removed?]
  | takenBack _ _ simple taken =>
      have gone := SimpleStore.remove?_holdings taken
      rw [← Store.holdings_simple simple] at gone
      refine .lost ⟨_, _, .explicit⟩ ?_ ?_ gone
      · simp [arrivals_eq, Event.isNoted, Event.loaded?, List.filterMap_cons]
      · simp [removals_eq, Event.isNoted, Event.removed?]
  | swept _ weighted taken =>
      have gone := WeightedStore.removeLoaded?_holdings taken
      rw [← Store.holdings_weighted weighted] at gone
      refine .lost ⟨_, _, .explicit⟩ ?_ ?_ gone
      · simp [arrivals_eq, Event.isNoted, Event.loaded?, List.filterMap_cons]
      · simp [removals_eq, Event.isNoted, Event.removed?]

/-- Every block that came in is stored or has been removed.  Blocks are told apart by their loads,
so one that was loaded twice is accounted for twice. -/
def Disposed (cache : Cache) : Prop :=
  cache.arrivals.Perm (cache.store.holdings ++ cache.removals.map Removal.holding)

theorem Disposed.flows {cache next : Cache} (disposed : Disposed cache)
    (flows : Flows cache next) : Disposed next := by
  rcases flows with ⟨arrived, gone, arrivals, removals, holdings⟩
  unfold Disposed at disposed ⊢
  rw [arrivals, removals, List.map_append]
  calc arrived ++ cache.arrivals
      |>.Perm (arrived ++ (cache.store.holdings ++ cache.removals.map Removal.holding)) :=
        disposed.append_left _
    _ |>.Perm ((cache.store.holdings ++ arrived) ++ cache.removals.map Removal.holding) := by
        rw [← List.append_assoc]
        exact List.perm_append_comm.append_right _
    _ |>.Perm ((gone.map Removal.holding ++ next.store.holdings)
          ++ cache.removals.map Removal.holding) := holdings.append_right _
    _ |>.Perm (next.store.holdings
          ++ (gone.map Removal.holding ++ cache.removals.map Removal.holding)) := by
        rw [← List.append_assoc]
        exact List.perm_append_comm.append_right _

/-! ## Removed and reported -/

/-- The removals a frame has yet to report.  A weighted store reports each removal as it makes it,
so only the frames of a simple one owe any. -/
def unreported : Frame → List Removal
  | .reporting removals _ => removals
  | _ => []

/-- The removals that calls under way have yet to report. -/
def outstanding (cache : Cache) : List Removal :=
  cache.stack.flatMap unreported

@[simp] theorem running_unreported (listener : Listener) (removal : Removal) :
    (listener.running removal).flatMap unreported = [] := by
  cases listener <;> rfl

@[simp] theorem unreported_sequelOf (admission : Admission) (removals : List Removal) :
    unreported (sequelOf admission removals) = removals := by
  cases removals <;> rfl

/-- If anybody listens, every removal is reported or has yet to be.  Nothing is said of the order,
and a panic that takes a report off the stack breaks it. -/
def Told (cache : Cache) : Prop :=
  cache.listener ≠ .absent → cache.removals.Perm (cache.outstanding ++ cache.reports)

theorem told_of_balance {cache next : Cache} (made paid : List Removal)
    (told : cache.removals.Perm (cache.outstanding ++ cache.reports))
    (removals : next.removals = made ++ cache.removals)
    (reports : next.reports = paid ++ cache.reports)
    (balance : (made ++ cache.outstanding).Perm (paid ++ next.outstanding)) :
    next.removals.Perm (next.outstanding ++ next.reports) := by
  rw [removals, reports]
  calc made ++ cache.removals
      |>.Perm (made ++ (cache.outstanding ++ cache.reports)) := told.append_left _
    _ |>.Perm ((paid ++ next.outstanding) ++ cache.reports) := by
        rw [← List.append_assoc]
        exact balance.append_right _
    _ |>.Perm (next.outstanding ++ (paid ++ cache.reports)) := by
        rw [← List.append_assoc]
        exact List.perm_append_comm.append_right _

theorem Told.accepted {cache next : Cache} {move : Move} (told : Told cache)
    (undisturbed : cache.calm move = true) (taken : Accepted cache move next) : Told next := by
  intro present
  cases taken with
  | passUnwound | loadUnwound | clearingUnwound => cases undisturbed
  | @dropped key store left block =>
      apply told_of_balance [⟨key, block, .explicit⟩] [⟨key, block, .explicit⟩] (told present)
      · simp [removals_eq, Event.isNoted, Event.removed?, List.filterMap_cons]
      · simp [reports_eq, Event.isNoted, Event.reported?, List.filterMap_cons,
          present]
      · simp [outstanding, unreported]
  | @cleared scope store left blocks =>
      apply told_of_balance (removalsOf .explicit blocks).reverse [] (told present)
      · simp [removals_eq, Event.isNoted, Event.removed?, List.filterMap_cons]
      · simp [reports_eq, Event.isNoted, Event.reported?, List.filterMap_cons]
      · exact (List.reverse_perm _).append_right _
  | @simplyStored call key rest payload store left blocks top =>
      apply told_of_balance (removalsOf .size blocks).reverse [] (told present)
      · simp [removals_eq, Event.isNoted, Event.removed?, List.filterMap_cons]
      · simp [reports_eq, Event.isNoted, Event.reported?, List.filterMap_cons]
      · simp only [outstanding, top, List.flatMap_cons, unreported_sequelOf]
        exact (List.reverse_perm _).append_right _
  | _ =>
      apply told_of_balance [] [] (told present)
      · simp [removals_eq, Event.isNoted, Event.removed?, List.filterMap_cons]
      · simp [reports_eq, Event.isNoted, Event.reported?, List.filterMap_cons]
      · simp [outstanding, unreported, *]

theorem Told.advanced {cache next : Cache} (told : Told cache) (taken : Advanced cache next) :
    Told next := by
  intro present
  cases taken with
  | @evicted admission examined evicted rest store left key block top =>
      apply told_of_balance [⟨key, block, .size⟩] [⟨key, block, .size⟩] (told present)
      · simp [removals_eq, Event.isNoted, Event.removed?, List.filterMap_cons]
      · simp [reports_eq, Event.isNoted, Event.reported?, List.filterMap_cons,
          present]
      · simp [outstanding, unreported, top]
  | @retracted admission rest store left block top =>
      apply told_of_balance [⟨admission.key, block, .explicit⟩] [⟨admission.key, block, .explicit⟩]
        (told present)
      · simp [removals_eq, Event.isNoted, Event.removed?]
      · simp [reports_eq, Event.isNoted, Event.reported?, List.filterMap_cons,
          present]
      · simp [outstanding, unreported, top]
  | @swept call scope key load doomed removed rest store left block top =>
      apply told_of_balance [⟨key, block, .explicit⟩] [⟨key, block, .explicit⟩] (told present)
      · simp [removals_eq, Event.isNoted, Event.removed?]
      · simp [reports_eq, Event.isNoted, Event.reported?, List.filterMap_cons,
          present]
      · simp [outstanding, unreported, top]
  | @takenBack admission rest store left block top =>
      apply told_of_balance [⟨admission.key, block, .explicit⟩] [] (told present)
      · simp [removals_eq, Event.isNoted, Event.removed?]
      · simp [reports_eq, Event.isNoted, Event.reported?, List.filterMap_cons]
      · simp [outstanding, unreported, top]
  | @reported removal removals sequel rest top =>
      apply told_of_balance [] [removal] (told present)
      · simp [removals_eq, Event.removed?]
      · simp [reports_eq, Event.reported?, present]
      · simp [outstanding, unreported, top]
  | _ =>
      apply told_of_balance [] [] (told present)
      · simp [removals_eq, Event.isNoted, Event.removed?, List.filterMap_cons]
      · simp [reports_eq, Event.isNoted, Event.reported?, List.filterMap_cons]
      · simp [outstanding, unreported, *]

/-! ## Removed and counted -/

/-- The evictions a frame has yet to count. -/
def evictionsDue : Frame → Nat
  | .evicting _ _ evicted => evicted
  | _ => 0

def invalidationsDue : Frame → Nat
  | .retracting _ => 1
  | .dropping _ => 1
  | .sweeping _ _ _ removed => removed
  | _ => 0

/-- What the frames have yet to count. -/
def due (owed : Frame → Nat) (cache : Cache) : Nat :=
  (cache.stack.map owed).sum

/-- How many of the removals have this cause. -/
def removedFor (cause : RemovalCause) (cache : Cache) : Nat :=
  cache.removals.countP fun removal => removal.cause = cause

/-- A counter and what is yet to be counted make up, as a word, what has happened.  The sum may
wrap, and so may the counter; both do so alike. -/
def Tallied (counter : Counters → UInt64) (owed : Frame → Nat) (total : Cache → Nat)
    (cache : Cache) : Prop :=
  counter cache.counters + UInt64.ofNat (cache.due owed) = UInt64.ofNat (total cache)

/-- What happens is counted at once or is yet to be counted afterwards.  Counters and what is owed
to them are compared as words, so nothing is asked of their size. -/
theorem Tallied.balance {counter : Counters → UInt64} {owed : Frame → Nat} {total : Cache → Nat}
    {cache next : Cache} (tallied : Tallied counter owed total cache) (counted made : Nat)
    (counts : counter next.counters = counter cache.counters + UInt64.ofNat counted)
    (totals : total next = total cache + made)
    (balance : counted + next.due owed = made + cache.due owed) :
    Tallied counter owed total next := by
  unfold Tallied at tallied ⊢
  calc counter next.counters + UInt64.ofNat (next.due owed)
      = counter cache.counters + UInt64.ofNat (counted + next.due owed) := by
        rw [counts, UInt64.ofNat_add, UInt64.add_assoc]
    _ = counter cache.counters + UInt64.ofNat (cache.due owed) + UInt64.ofNat made := by
        rw [balance, Nat.add_comm, UInt64.ofNat_add, UInt64.add_assoc]
    _ = UInt64.ofNat (total next) := by
        rw [tallied, totals, UInt64.ofNat_add]

@[simp] theorem sum_running (owed : Frame → Nat) (listener : Listener) (removal : Removal) :
    ((listener.running removal).map owed).sum =
      if listener = .interactive then owed (.listening removal) else 0 := by
  cases listener <;> simp [Listener.running]

@[simp] theorem evictionsDue_sequelOf (admission : Admission) (removals : List Removal) :
    evictionsDue (sequelOf admission removals) = 0 := by
  cases removals <;> rfl

@[simp] theorem invalidationsDue_sequelOf (admission : Admission) (removals : List Removal) :
    invalidationsDue (sequelOf admission removals) = 0 := by
  cases removals <;> rfl

theorem countP_removalsOf (cause wanted : RemovalCause) (blocks : List (BlockKey × CachedBlock)) :
    (removalsOf cause blocks).countP (fun removal => removal.cause = wanted) =
      if cause = wanted then blocks.length else 0 := by
  unfold removalsOf
  rw [List.countP_map]
  by_cases same : cause = wanted
  · simp [same, Function.comp_def]
  · simp [same, Function.comp_def]

theorem due_nothing (cache : Cache) : cache.due (fun _ => 0) = 0 := by
  unfold due
  induction cache.stack with
  | nil => rfl
  | cons frame rest ih => rw [List.map_cons, List.sum_cons, ih]

/-- Loads are counted as soon as they succeed. -/
def LoadsTallied (cache : Cache) : Prop :=
  Tallied Counters.loads (fun _ => 0) (fun cache => cache.arrivals.length) cache

def EvictionsTallied (cache : Cache) : Prop :=
  Tallied Counters.evictions evictionsDue (removedFor .size) cache

def InvalidationsTallied (cache : Cache) : Prop :=
  Tallied Counters.invalidations invalidationsDue (removedFor .explicit) cache

theorem LoadsTallied.accepted {cache next : Cache} {move : Move} (tallied : LoadsTallied cache)
    (taken : Accepted cache move next) : LoadsTallied next := by
  cases taken with
  | passBegun | stored | simplyStored | overflown =>
      apply tallied.balance 1 1
      · simp [Counters.recordLoad, Counters.recordEvictions]
      · simp [arrivals_eq, Event.isNoted, Event.loaded?, List.filterMap_cons]
      · simp [due_nothing]
  | _ =>
      apply tallied.balance 0 0
      · simp [Counters.recordLoad, Counters.recordHit, Counters.recordMiss,
          Counters.recordCoalesced, Counters.recordInvalidations]
      · simp [arrivals_eq, Event.isNoted, Event.loaded?, List.filterMap_cons]
      · simp [due_nothing]

theorem LoadsTallied.advanced {cache next : Cache} (tallied : LoadsTallied cache)
    (taken : Advanced cache next) : LoadsTallied next := by
  cases taken with
  | _ =>
      apply tallied.balance 0 0
      · simp [Counters.recordEvictions, Counters.recordInvalidations]
      · simp [arrivals_eq, Event.isNoted, Event.loaded?, List.filterMap_cons]
      · simp [due_nothing]

theorem EvictionsTallied.accepted {cache next : Cache} {move : Move}
    (tallied : EvictionsTallied cache) (undisturbed : cache.calm move = true)
    (taken : Accepted cache move next) : EvictionsTallied next := by
  cases taken with
  | passUnwound | loadUnwound | clearingUnwound => cases undisturbed
  | @simplyStored call key rest payload store left blocks top =>
      apply tallied.balance blocks.length blocks.length
      · simp [Counters.recordLoad, Counters.recordEvictions]
      · simp [removedFor, removals_eq, Event.isNoted, Event.removed?, List.filterMap_cons,
          countP_removalsOf, Nat.add_comm]
      · simp only [due, top, List.map_cons, List.sum_cons, evictionsDue_sequelOf]
        rfl
  | _ =>
      apply tallied.balance 0 0
      · simp [Counters.recordLoad, Counters.recordHit, Counters.recordMiss,
          Counters.recordCoalesced, Counters.recordInvalidations]
      · simp [removedFor, removals_eq, Event.isNoted, Event.removed?, List.filterMap_cons,
          countP_removalsOf]
      · simp [due, evictionsDue, *]

theorem EvictionsTallied.advanced {cache next : Cache} (tallied : EvictionsTallied cache)
    (taken : Advanced cache next) : EvictionsTallied next := by
  cases taken with
  | evicted top =>
      apply tallied.balance 0 1
      · simp
      · simp [removedFor, removals_eq, Event.isNoted, Event.removed?, List.filterMap_cons]
      · simp [due, evictionsDue, top]
        omega
  | @passEnded admission examined evicted rest store top =>
      apply tallied.balance evicted 0
      · simp [Counters.recordEvictions]
      · simp [removedFor, removals_eq]
      · simp [due, evictionsDue, top]
  | _ =>
      apply tallied.balance 0 0
      · simp [Counters.recordInvalidations]
      · simp [removedFor, removals_eq, Event.isNoted, Event.removed?, List.filterMap_cons]
      · simp [due, evictionsDue, *]

theorem InvalidationsTallied.accepted {cache next : Cache} {move : Move}
    (tallied : InvalidationsTallied cache) (undisturbed : cache.calm move = true)
    (taken : Accepted cache move next) : InvalidationsTallied next := by
  cases taken with
  | passUnwound | loadUnwound | clearingUnwound => cases undisturbed
  | dropped =>
      apply tallied.balance 0 1
      · simp
      · simp [removedFor, removals_eq, Event.isNoted, Event.removed?, List.filterMap_cons]
      · simp [due, invalidationsDue]
  | @cleared scope store left blocks =>
      apply tallied.balance blocks.length blocks.length
      · simp [Counters.recordInvalidations]
      · simp [removedFor, removals_eq, Event.isNoted, Event.removed?, List.filterMap_cons,
          countP_removalsOf, Nat.add_comm]
      · simp [due, invalidationsDue]
  | simplyStored top =>
      apply tallied.balance 0 0
      · simp [Counters.recordLoad, Counters.recordEvictions]
      · simp [removedFor, removals_eq, Event.isNoted, Event.removed?, List.filterMap_cons,
          countP_removalsOf]
      · simp only [due, top, List.map_cons, List.sum_cons, invalidationsDue_sequelOf]
        rfl
  | _ =>
      apply tallied.balance 0 0
      · simp [Counters.recordLoad, Counters.recordHit, Counters.recordMiss,
          Counters.recordCoalesced]
      · simp [removedFor, removals_eq, Event.isNoted, Event.removed?, List.filterMap_cons]
      · simp [due, invalidationsDue, *]

theorem InvalidationsTallied.advanced {cache next : Cache} (tallied : InvalidationsTallied cache)
    (taken : Advanced cache next) : InvalidationsTallied next := by
  cases taken with
  | retracted top =>
      apply tallied.balance 0 1
      · simp
      · simp [removedFor, removals_eq, Event.isNoted, Event.removed?]
      · simp [due, invalidationsDue, top]
  | swept top =>
      apply tallied.balance 0 1
      · simp
      · simp [removedFor, removals_eq, Event.isNoted, Event.removed?]
      · simp [due, invalidationsDue, top]
        omega
  | takenBack top =>
      apply tallied.balance 1 1
      · simp [Counters.recordInvalidations]
      · simp [removedFor, removals_eq, Event.isNoted, Event.removed?]
      · simp [due, invalidationsDue, top]
  | retractionCounted top | dropCounted top =>
      apply tallied.balance 1 0
      · simp [Counters.recordInvalidations]
      · simp [removedFor, removals_eq, Event.isNoted, Event.removed?, List.filterMap_cons]
      · simp [due, invalidationsDue, top]
  | @sweepEnded call scope removed rest store top weighted =>
      apply tallied.balance removed 0
      · simp [Counters.recordInvalidations]
      · simp [removedFor, removals_eq, Event.isNoted, Event.removed?, List.filterMap_cons]
      · simp [due, invalidationsDue, top]
  | evicted top =>
      apply tallied.balance 0 0
      · simp
      · simp [removedFor, removals_eq, Event.isNoted, Event.removed?, List.filterMap_cons]
      · simp [due, invalidationsDue, top]
  | _ =>
      apply tallied.balance 0 0
      · simp [Counters.recordEvictions]
      · simp [removedFor, removals_eq, Event.isNoted, Event.removed?, List.filterMap_cons]
      · simp [due, invalidationsDue, *]

/-! ## When no call is under way -/

theorem listener_kept (listener : Listener) (allowed : Cache → Move → Bool) :
    Kept allowed fun cache => cache.listener = listener where
  accepted _ before taken := by cases taken <;> exact before
  advanced before taken := by cases taken <;> exact before

/-- The books of a cache: what has come in, what has been reported and what has been counted.  They
are kept as long as no listener panics and all loaded values fit. -/
structure Booked (cache : Cache) : Prop where
  disposed : Disposed cache
  told : Told cache
  loads : LoadsTallied cache
  evictions : EvictionsTallied cache
  invalidations : InvalidationsTallied cache

theorem booked_kept :
    Kept fitsCalmly fun cache => (Coherent cache ∧ Weighed cache) ∧ Booked cache := by
  apply (weighed_kept.restrict fits_of_fitsCalmly).and
  · intro cache next move may known booked taken
    have fit := fits_of_fitsCalmly _ _ may
    have undisturbed := calm_of_fitsCalmly _ _ may
    have flows := flows_of_accepted known.1.staged
      (fun returns => known.2.put_ne_error known.1.staged (returns ▸ fit)) taken
    exact
      { disposed := booked.disposed.flows flows
        told := booked.told.accepted undisturbed taken
        loads := booked.loads.accepted taken
        evictions := booked.evictions.accepted undisturbed taken
        invalidations := booked.invalidations.accepted undisturbed taken }
  · intro cache next known booked taken
    exact
      { disposed := booked.disposed.flows (flows_of_advanced taken)
        told := booked.told.advanced taken
        loads := booked.loads.advanced taken
        evictions := booked.evictions.advanced taken
        invalidations := booked.invalidations.advanced taken }

theorem booked_start (store : Store) (listener : Listener) (empty : store.holdings = []) :
    Booked (start store listener) where
  disposed := by simp [Disposed, arrivals, removals, start, empty]
  told := by simp [Told, outstanding, removals, reports, start]
  loads := rfl
  evictions := rfl
  invalidations := rfl

/-- What loaders have produced is what is stored and what has gone, and the counters tell how many
values have come and gone, and for which cause.  The counters are words, so of them the plain
numbers are said only while a word can count the loads. -/
structure Balanced (cache : Cache) (gone : List Removal) : Prop where
  pairs : (cache.arrivals.map fun holding => (holding.key, holding.value)).Perm
    ((cache.store.holdings.map fun holding => (holding.key, holding.value))
      ++ gone.map fun removal => (removal.key, removal.block.value))
  evictions : cache.counters.evictions =
    UInt64.ofNat (gone.countP fun removal => removal.cause = .size)
  invalidations : cache.counters.invalidations =
    UInt64.ofNat (gone.countP fun removal => removal.cause = .explicit)
  loads : cache.counters.loads = UInt64.ofNat cache.arrivals.length
  sum : cache.arrivals.length = cache.size + (gone.countP fun removal => removal.cause = .size)
    + gone.countP fun removal => removal.cause = .explicit
  unwrapped : cache.arrivals.length < 2 ^ 64 → cache.counters.loads.toNat =
    cache.size + cache.counters.evictions.toNat + cache.counters.invalidations.toNat

theorem countP_cause (gone : List Removal) :
    (gone.countP fun removal => removal.cause = .size)
      + (gone.countP fun removal => removal.cause = .explicit) = gone.length := by
  induction gone with
  | nil => rfl
  | cons removal rest ih =>
      rcases removal with ⟨key, block, cause⟩
      cases cause <;> simp <;> omega

theorem length_holdings (cache : Cache) : cache.store.holdings.length = cache.size := by
  simp [Store.holdings, holdingsOf, size, Table.size]

/-- The books balance as soon as nothing is due any more.  This is so whenever no call is under way,
and possibly earlier. -/
theorem Booked.balanced {cache : Cache} (booked : Booked cache) (idle : cache.stack = [])
    {gone : List Removal} (all : cache.removals.Perm gone) : Balanced cache gone := by
  have pairs : (cache.arrivals.map fun holding => (holding.key, holding.value)).Perm
      ((cache.store.holdings.map fun holding => (holding.key, holding.value))
        ++ gone.map fun removal => (removal.key, removal.block.value)) := by
    have disposed := booked.disposed.map fun holding => (holding.key, holding.value)
    rw [List.map_append, List.map_map] at disposed
    exact disposed.trans ((all.map _).append_left _)
  have evictions : cache.counters.evictions =
      UInt64.ofNat (gone.countP fun removal => removal.cause = .size) := by
    have tallied : _ = _ := booked.evictions
    simp only [due, idle, removedFor, List.map_nil, List.sum_nil, all.countP_eq] at tallied
    simpa using tallied
  have invalidations : cache.counters.invalidations =
      UInt64.ofNat (gone.countP fun removal => removal.cause = .explicit) := by
    have tallied : _ = _ := booked.invalidations
    simp only [due, idle, removedFor, List.map_nil, List.sum_nil, all.countP_eq] at tallied
    simpa using tallied
  have loads : cache.counters.loads = UInt64.ofNat cache.arrivals.length := by
    have tallied : _ = _ := booked.loads
    simp only [due_nothing] at tallied
    simpa using tallied
  have sum : cache.arrivals.length =
      cache.size + (gone.countP fun removal => removal.cause = .size)
        + gone.countP fun removal => removal.cause = .explicit := by
    have lengths := pairs.length_eq
    rw [List.length_map, List.length_append, List.length_map, List.length_map,
      length_holdings, ← countP_cause gone] at lengths
    omega
  refine ⟨pairs, evictions, invalidations, loads, sum, ?_⟩
  intro few
  have exactly : ∀ count, count ≤ cache.arrivals.length → (UInt64.ofNat count).toNat = count := by
    intro count most
    exact UInt64.toNat_ofNat_of_lt' (Nat.lt_of_le_of_lt most few)
  rw [loads, evictions, invalidations, exactly _ (Nat.le_refl _), exactly _ (by omega),
    exactly _ (by omega)]
  exact sum

/-- Whenever no call is under way, every value that a loader has produced is stored or has been
removed exactly once and reported exactly once, and every removal has been counted.  It is assumed
that no listener panics and that every loaded weight can be summed with those stored; calls may be
made from inside loaders and listeners in any order. -/
theorem every_value_accounted_for (kind : StoreKind) (budget : UInt64) (limit : Option UInt64)
    (listener : Listener) (moves : List Move) (cache : Cache)
    (run : Run fitsCalmly (start (Store.empty kind budget limit) listener) moves cache)
    (idle : cache.stack = []) :
    Balanced cache cache.removals ∧ (listener ≠ .absent → Balanced cache cache.reports) := by
  have empty := Store.holdings_empty kind budget limit
  have reached := booked_kept.run run
    ⟨⟨coherent_start _ _ empty, weighed_start _ _ empty (Store.weighed_empty kind budget limit)⟩,
      booked_start _ _ empty⟩
  have same : cache.listener = listener := (listener_kept listener fitsCalmly).run run rfl
  refine ⟨reached.2.balanced idle (List.Perm.refl _), fun present => reached.2.balanced idle ?_⟩
  have told := reached.2.told (same ▸ present)
  rw [outstanding, idle] at told
  exact told

/-- A listener that is told of an eviction invalidates everything, the load that caused the eviction
included; another load follows. -/
def clearedAmidPass : Cache :=
  reached fitsCalmly (start (.weighted (.empty 10)) .interactive)
    (loadMoves ⟨⟨0⟩, 0, 0, .index 1⟩ (.standIn 6 "")
      ++ loadMoves ⟨⟨0⟩, 0, 0, .index 2⟩ (.standIn 6 "")
      ++ [.begin (.invalidate .everything), .listenerReturns, .listenerReturns]
      ++ loadMoves ⟨⟨0⟩, 0, 0, .index 3⟩ (.standIn 6 ""))

theorem every_value_accounted_for_amid_pass :
    clearedAmidPass.stack = [] ∧ clearedAmidPass.size = 1 ∧ clearedAmidPass.arrivals.length = 3 ∧
      Balanced clearedAmidPass clearedAmidPass.reports := by
  have idle : clearedAmidPass.stack = [] := by decide +kernel
  have accounted := every_value_accounted_for .weighted 10 none .interactive _ clearedAmidPass
    (run_reached (by decide +kernel)) idle
  exact ⟨idle, by decide +kernel, by decide +kernel, accounted.2 (by decide)⟩

end Cache
end VolumeCache
