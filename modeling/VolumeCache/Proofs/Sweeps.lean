import Mathlib.Data.List.Nodup
import VolumeCache.Proofs.Balances
import VolumeCache.Proofs.Claims

namespace VolumeCache

/-!
# Sweeps

A sweep of a weighted store works off a list that was made when it began.  Each time it removes a
block a listener runs, and the listener may load the key again, load others, and have listed blocks
dropped, evicted or swept by someone else.  A block is listed with the load that brought it, and
that decides: what is listed is gone in the end, removed once by whomever, and the sweep itself has
removed nothing else.  The listener must not panic, for that would end the sweep.
-/

/-! ## Every load brings one block -/

/-- The call of a frame that may still have a loader bring a block. -/
def Frame.seeking? : Frame → Option Nat
  | .claiming call _ => some call
  | .loading call _ => some call
  | _ => none

namespace Cache

variable {cache next : Cache}

/-- The calls under way that may still have a loader bring a block. -/
def seekers (cache : Cache) : List Nat :=
  cache.stack.filterMap Frame.seeking?

@[simp] theorem seeking?_sequelOf (admission : Admission) (removals : List Removal) :
    (sequelOf admission removals).seeking? = none := by
  cases removals <;> rfl

theorem seekers_sublist_numbers (stack : List Frame) :
    (stack.filterMap Frame.seeking?).Sublist (stack.filterMap Frame.call?) := by
  induction stack with
  | nil => exact List.Sublist.refl _
  | cons frame rest ih =>
      cases frame <;> simp [List.filterMap_cons, Frame.seeking?, Frame.call?, ih, List.Sublist.cons]

/-- The blocks that came in were brought by different calls, none of which will bring another.  So
the number of a load tells blocks apart, those of one key included. -/
structure Apart (cache : Cache) : Prop where
  loads : (cache.arrivals.map Holding.load).Nodup
  begun : ∀ arrived ∈ cache.arrivals, arrived.load < cache.calls
  spent : ∀ arrived ∈ cache.arrivals, arrived.load ∉ cache.seekers

/-- A block comes in from a call that may have a loader bring one and then is no longer among those;
and a call joins them only when it begins. -/
theorem seekers_of_accepted {move : Move} (taken : Accepted cache move next) :
    (next.arrivals = cache.arrivals ∧
      (next.seekers.Sublist cache.seekers ∨ next.seekers = cache.calls :: cache.seekers)) ∨
    ∃ arrived, next.arrivals = arrived :: cache.arrivals ∧
      cache.seekers = arrived.load :: next.seekers := by
  unfold seekers
  cases taken with
  | @passBegun call key rest payload store top | @stored call key rest payload store top
  | @overflown call key rest payload store left top =>
      refine Or.inr ⟨⟨key, payload, call⟩, ?_, ?_⟩
      · simp [arrivals_eq, Event.isNoted, Event.loaded?, List.filterMap_cons]
      · simp [top, Frame.seeking?, List.filterMap_cons]
  | @simplyStored call key rest payload store left blocks top =>
      refine Or.inr ⟨⟨key, payload, call⟩, ?_, ?_⟩
      · simp [arrivals_eq, Event.isNoted, Event.loaded?]
      · simp only [top, List.filterMap_cons, seeking?_sequelOf]
        rfl
  | loadUnwound top leading =>
      refine Or.inl ⟨?_, ?_⟩
      · simp [arrivals_eq, Event.isNoted, Event.loaded?, List.filterMap_cons]
      · rcases leading with rfl | ⟨_, rfl⟩ | ⟨_, rfl⟩ <;>
          simp [top, Frame.seeking?, List.filterMap_cons]
  | clearingUnwound top clearing =>
      refine Or.inl ⟨?_, ?_⟩
      · simp [arrivals_eq, Event.isNoted, Event.loaded?, List.filterMap_cons]
      · rcases clearing with rfl | ⟨_, _, _, rfl⟩ | ⟨_, _, _, rfl⟩ <;>
          simp [top, Frame.seeking?, List.filterMap_cons]
  | _ =>
      refine Or.inl ⟨?_, ?_⟩
      · simp [arrivals_eq, Event.isNoted, Event.loaded?, List.filterMap_cons]
      · simp [Frame.seeking?, List.filterMap_cons, *]

theorem seekers_of_advanced (taken : Advanced cache next) :
    next.seekers = cache.seekers ∧ next.arrivals = cache.arrivals := by
  unfold seekers
  cases taken with
  | _ =>
      refine ⟨?_, ?_⟩
      · simp [Frame.seeking?, List.filterMap_cons, *]
      · simp [arrivals_eq, Event.isNoted, Event.loaded?, List.filterMap_cons]

theorem Apart.accepted {move : Move} (apart : Apart cache) (coherent : Coherent cache)
    (taken : Accepted cache move next) : Apart next := by
  have calls : cache.calls ≤ next.calls := by
    rcases numbers_of_accepted taken with ⟨-, more⟩ | ⟨-, more⟩ <;> omega
  rcases seekers_of_accepted taken with ⟨arrivals, seekers⟩ | ⟨came, arrivals, seekers⟩
  · constructor
    · exact arrivals ▸ apart.loads
    · intro arrived member
      exact Nat.lt_of_lt_of_le (apart.begun arrived (arrivals ▸ member)) calls
    · intro arrived member seeks
      rw [arrivals] at member
      rcases seekers with fewer | more
      · exact apart.spent arrived member (fewer.subset seeks)
      · rw [more] at seeks
        rcases List.mem_cons.mp seeks with isNew | old
        · exact Nat.lt_irrefl _ (isNew ▸ apart.begun arrived member)
        · exact apart.spent arrived member old
  · have sought : came.load ∈ cache.seekers := seekers ▸ List.mem_cons_self
    have listed := (seekers_sublist_numbers cache.stack).subset sought
    have descending := coherent.numbered.descending.sublist (seekers_sublist_numbers cache.stack)
    constructor
    · rw [arrivals, List.map_cons, List.nodup_cons]
      refine ⟨fun member => ?_, apart.loads⟩
      rcases List.mem_map.mp member with ⟨arrived, before, same⟩
      exact apart.spent arrived before (same ▸ sought)
    · intro arrived member
      refine Nat.lt_of_lt_of_le ?_ calls
      rcases List.mem_cons.mp (arrivals ▸ member) with rfl | before
      · exact coherent.numbered.below _ listed
      · exact apart.begun arrived before
    · intro arrived member seeks
      rcases List.mem_cons.mp (arrivals ▸ member) with rfl | before
      · change cache.seekers.Pairwise _ at descending
        rw [seekers, List.pairwise_cons] at descending
        exact Nat.lt_irrefl _ (descending.1 _ seeks)
      · exact apart.spent arrived before (seekers ▸ List.mem_cons_of_mem _ seeks)

theorem Apart.advanced (apart : Apart cache) (taken : Advanced cache next) : Apart next := by
  rcases seekers_of_advanced taken with ⟨seekers, arrivals⟩
  constructor
  · exact arrivals ▸ apart.loads
  · rw [arrivals, (numbers_of_advanced taken).2]
    exact apart.begun
  · rw [arrivals, seekers]
    exact apart.spent

theorem apart_kept (allowed : Cache → Move → Bool) :
    Kept allowed fun cache => Charged cache ∧ Apart cache :=
  (charged_kept allowed).and
    (fun _ known apart taken => apart.accepted known.coherent taken)
    (fun _ apart taken => apart.advanced taken)

/-! ## Every removal is reported at once -/

/-- A weighted store keeps no removal back: what it has removed it has reported.  Were there no
listener, nothing would be reported. -/
structure Prompt (cache : Cache) : Prop where
  nothingWaits : ∀ removals sequel, .reporting removals sequel ∉ cache.stack
  reported : cache.listener ≠ .absent → cache.reports = cache.removals

theorem Prompt.accepted {move : Move} (prompt : Prompt cache) (kind : cache.kind = .weighted)
    (taken : Accepted cache move next) : Prompt next := by
  have none := prompt.nothingWaits
  cases taken with
  | cleared _ simple | simplyStored _ simple | overflown _ simple =>
      exact absurd simple (not_simple kind _)
  | _ =>
      refine ⟨fun removals sequel => by simp_all, fun present => ?_⟩
      have before := prompt.reported present
      simp_all [removals_eq, reports_eq, Event.isNoted, Event.removed?, Event.reported?,
        List.filterMap_cons]

theorem Prompt.advanced (prompt : Prompt cache) (kind : cache.kind = .weighted)
    (taken : Advanced cache next) : Prompt next := by
  have none := prompt.nothingWaits
  cases taken with
  | takenBack _ _ simple => exact absurd simple (not_simple kind _)
  | reported top | admissionReported top | retractionReported top | clearingReported top =>
      exact absurd (top ▸ List.mem_cons_self) (none _ _)
  | _ =>
      refine ⟨fun removals sequel => by simp_all, fun present => ?_⟩
      have before := prompt.reported present
      simp_all [removals_eq, reports_eq, Event.isNoted, Event.removed?, Event.reported?,
        List.filterMap_cons]

theorem prompt_kept (allowed : Cache → Move → Bool) :
    Kept allowed fun cache => (Charged cache ∧ Apart cache) ∧ Prompt cache :=
  (apart_kept allowed).and
    (fun _ known prompt taken => prompt.accepted known.1.kind taken)
    (fun known prompt taken => prompt.advanced known.1.kind taken)

/-! ## What a sweep does itself -/

end Cache

/-- The frame is that of the sweep of this number. -/
def Frame.isSweepOf (call : Nat) : Frame → Bool
  | .sweeping other _ _ _ => other = call
  | _ => false

/-- How a removal stands on the list of a sweep: its key, and the load that brought the block. -/
def Removal.entry (removal : Removal) : BlockKey × Nat :=
  (removal.key, removal.block.load)

namespace Cache

variable {cache next begun : Cache} {call : Nat} {own : List Removal} {counted : UInt64}

/-- The sweep of this number has control: no listener is running and no other call is further in.
Of two nested sweeps at most one has control. -/
def inSweep (cache : Cache) (call : Nat) : Bool :=
  cache.stack.head?.any (Frame.isSweepOf call)

theorem inSweep_eq_true_iff :
    cache.inSweep call = true ↔
      ∃ scope doomed removed rest, cache.stack = .sweeping call scope doomed removed :: rest := by
  unfold inSweep
  cases stack : cache.stack with
  | nil => simp
  | cons frame rest =>
      cases frame <;> simp [Frame.isSweepOf]

/-- A state in the course of a sweep, with the removals that the sweep has made itself, the latest
first, and with what it has added to the counter of invalidations.  What is done while the sweep has
control is its own; everything else is done by the listener and by those it calls. -/
inductive Sweeping (call : Nat) (begun : Cache) : Cache → List Removal → UInt64 → Prop
  | begun : Sweeping call begun begun [] 0
  | own {cache next : Cache} {own made : List Removal} {counted : UInt64}
      (earlier : Sweeping call begun cache own counted)
      (control : cache.inSweep call = true) (stepped : Stepped calm cache next)
      (removed : next.removals = made ++ cache.removals) :
      Sweeping call begun next (made ++ own)
        (counted + (next.counters.invalidations - cache.counters.invalidations))
  | elsewhere {cache next : Cache} {own : List Removal} {counted : UInt64}
      (earlier : Sweeping call begun cache own counted)
      (control : cache.inSweep call = false) (stepped : Stepped calm cache next) :
      Sweeping call begun next own counted

theorem removals_grown (grown : cache.journal <:+ next.journal) :
    ∃ made, next.removals = made ++ cache.removals := by
  rcases grown with ⟨written, whole⟩
  exact ⟨written.filterMap Event.removed?, by rw [removals, ← whole, List.filterMap_append]; rfl⟩

/-- Every history from the beginning of a sweep, as long as no listener panics, is one in the course
of it. -/
theorem Visited.sweeping (visited : Visited calm begun cache) :
    ∃ own counted, Sweeping call begun cache own counted := by
  induction visited with
  | origin => exact ⟨[], 0, .begun⟩
  | @step cache next _ stepped ih =>
      rcases ih with ⟨own, counted, sweeping⟩
      cases control : cache.inSweep call with
      | true =>
          rcases removals_grown stepped.journal_suffix with ⟨made, removed⟩
          exact ⟨_, _, sweeping.own control stepped removed⟩
      | false => exact ⟨own, counted, sweeping.elsewhere control stepped⟩

/-! ## How far a sweep is -/

/-- What is beneath the innermost frame stays where it is, unless a listener panics.  A move or a
step works on the innermost frame only and may put others on top. -/
theorem beneath_stays (stepped : Stepped calm cache next) {frame : Frame}
    (beneath : frame ∈ cache.stack.tail) : frame ∈ next.stack := by
  rcases stepped.listed with ⟨move, may, taken⟩ | taken
  · cases taken with
    | passUnwound | loadUnwound | clearingUnwound => cases may
    | _ => simp_all [List.mem_of_mem_tail]
  · cases taken <;> simp_all

theorem eq_top_of_call? (coherent : Coherent cache) {top other : Frame} {rest : List Frame}
    (stack : cache.stack = top :: rest) (own : top.call? = some call)
    (member : other ∈ cache.stack) (same : other.call? = some call) : other = top := by
  have descending := coherent.numbered.descending
  rw [numbers, stack, List.filterMap_cons, own, List.pairwise_cons] at descending
  rcases List.mem_cons.mp (stack ▸ member) with isTop | below
  · exact isTop
  · exact absurd (descending.1 call (List.mem_filterMap.mpr ⟨other, below, same⟩))
      (Nat.lt_irrefl call)

/-- How far a sweep of this list is: it has seen to a beginning of the list and removed some of
that; it counts what it has removed at the end.  What of the list is gone already, because somebody
else has removed it, is passed over. -/
inductive Progress (list : List (BlockKey × Nat)) (call : Nat) (cache : Cache)
    (own : List Removal) : UInt64 → Prop
  | underWay {scope : Scope} {passed doomed : List (BlockKey × Nat)}
      (frame : .sweeping call scope doomed own.length ∈ cache.stack)
      (split : list = passed ++ doomed)
      (taken : (own.reverse.map Removal.entry).Sublist passed) : Progress list call cache own 0
  | atEnd (ended : cache.Ended call)
      (taken : (own.reverse.map Removal.entry).Sublist list) :
      Progress list call cache own (UInt64.ofNat own.length)

/-- While a sweep has control nobody else can make a move. -/
theorem advanced_of_inSweep (control : cache.inSweep call = true)
    (stepped : Stepped calm cache next) : Advanced cache next := by
  rcases inSweep_eq_true_iff.mp control with ⟨scope, doomed, removed, rest, top⟩
  rcases stepped.listed with ⟨move, -, taken⟩ | taken
  · cases taken <;> simp_all [isSettled, Frame.isOutside]
  · exact taken

/-- A step of the sweep itself drops the first block of the list, if that is still there, or passes
it over, or ends the sweep. -/
theorem Progress.goesOn {list : List (BlockKey × Nat)} {made : List Removal}
    (progress : Progress list call cache own counted) (coherent : Coherent cache)
    (control : cache.inSweep call = true) (stepped : Stepped calm cache next)
    (removed : next.removals = made ++ cache.removals) :
    Progress list call next (made ++ own)
      (counted + (next.counters.invalidations - cache.counters.invalidations)) := by
  have taken := advanced_of_inSweep control stepped
  rcases inSweep_eq_true_iff.mp control with ⟨scope, doomed, count, rest, top⟩
  have number : call ∈ cache.numbers := by simp [numbers, top, Frame.call?]
  cases progress with
  | atEnd ended => exact absurd number (coherent.endedApart call ended).2
  | @underWay _ passed _ frame split seen =>
      cases eq_top_of_call? coherent top rfl frame rfl
      have nothing : next.removals = cache.removals → made = [] := fun same =>
        List.append_cancel_right (removed.symm.trans (same.trans (List.nil_append _).symm))
      cases taken with
      | @swept _ _ key load later _ _ store left block here weighted found =>
          cases top.symm.trans here
          rcases WeightedStore.removeLoaded?_eq_some found with ⟨-, loaded, -⟩
          have one : made = [⟨key, block, .explicit⟩] := by
            refine List.append_cancel_right (removed.symm.trans ?_)
            simp [removals_eq, Event.isNoted, Event.removed?]
          subst one
          rw [UInt64.sub_self, UInt64.add_zero]
          refine .underWay (List.mem_append_right _ List.mem_cons_self)
            (split.trans (List.append_cons passed (key, load) later)) ?_
          have entry : Removal.entry ⟨key, block, .explicit⟩ = (key, load) := by
            rw [Removal.entry, loaded]
          rw [List.singleton_append, List.reverse_cons, List.map_append, List.map_singleton, entry]
          exact seen.append_right _
      | @passedOver _ _ key load later _ _ store here =>
          cases top.symm.trans here
          rw [nothing rfl, UInt64.sub_self, UInt64.add_zero]
          exact .underWay List.mem_cons_self
            (split.trans (List.append_cons passed (key, load) later))
            (seen.trans (List.sublist_append_left _ _))
      | sweepEnded here =>
          cases top.symm.trans here
          have same : made = [] := nothing (by
            simp [removals_eq, Event.isNoted, Event.removed?, List.filterMap_cons])
          have added : ((0 : UInt64) + (cache.counters.invalidations + own.length.toUInt64
              - cache.counters.invalidations)) = UInt64.ofNat own.length := by
            rw [UInt64.zero_add, UInt64.add_comm, UInt64.add_sub_cancel, Nat.toUInt64_eq]
          rw [same]
          refine added ▸ .atEnd (Or.inl ⟨.done, List.mem_cons_self⟩) ?_
          rw [split, List.append_nil]
          exact seen
      | _ => simp_all

theorem Progress.stays {list : List (BlockKey × Nat)}
    (progress : Progress list call cache own counted) (control : cache.inSweep call = false)
    (stepped : Stepped calm cache next) : Progress list call next own counted := by
  cases progress with
  | atEnd ended seen => exact .atEnd (ended.mono stepped.journal_suffix) seen
  | @underWay scope passed doomed frame split seen =>
      suffices beneath : .sweeping call scope doomed own.length ∈ cache.stack.tail from
        .underWay (beneath_stays stepped beneath) split seen
      cases stack : cache.stack with
      | nil => exact absurd (stack ▸ frame) List.not_mem_nil
      | cons first rest =>
          rcases List.mem_cons.mp (stack ▸ frame) with isFirst | beneath
          · rw [inSweep, stack, ← isFirst] at control
            simp [Frame.isSweepOf] at control
          · exact beneath

/-- A sweep that is over has removed some of its list and counted that. -/
theorem Progress.finished {list : List (BlockKey × Nat)}
    (progress : Progress list call cache own counted) (coherent : Coherent cache)
    (ended : cache.Ended call) :
    (own.reverse.map Removal.entry).Sublist list ∧ counted = UInt64.ofNat own.length := by
  cases progress with
  | atEnd _ seen => exact ⟨seen, rfl⟩
  | underWay frame =>
      have number : call ∈ cache.numbers := List.mem_filterMap.mpr ⟨_, frame, rfl⟩
      exact absurd number (coherent.endedApart call ended).2

theorem Sweeping.visited (sweeping : Sweeping call begun cache own counted) :
    Visited calm begun cache := by
  induction sweeping with
  | begun => exact .origin
  | own _ _ stepped _ ih => exact ih.step stepped
  | elsewhere _ _ stepped ih => exact ih.step stepped

theorem Sweeping.sublist (sweeping : Sweeping call begun cache own counted) :
    own.Sublist cache.removals := by
  induction sweeping with
  | begun => exact List.nil_sublist _
  | own _ _ _ removed ih => exact removed ▸ ih.append_left _
  | elsewhere _ _ stepped ih =>
      rcases removals_grown stepped.journal_suffix with ⟨made, removed⟩
      exact removed ▸ ih.trans (List.sublist_append_right _ _)

theorem Sweeping.progress (sweeping : Sweeping call begun cache own counted)
    (coherent : Coherent begun) {scope : Scope} {list : List (BlockKey × Nat)}
    (frame : .sweeping call scope list 0 ∈ begun.stack) :
    Progress list call cache own counted := by
  induction sweeping with
  | begun => exact .underWay frame (List.nil_append list).symm (List.Sublist.refl [])
  | own earlier control stepped removed ih =>
      have known := (coherent_kept calm).visited earlier.visited coherent
      exact ih.goesOn known control stepped removed
  | elsewhere earlier control stepped ih => exact ih.stays control stepped

/-! ## What is left of the list -/

theorem arrivals_subset_of_suffix (grown : cache.journal <:+ next.journal) :
    cache.arrivals ⊆ next.arrivals :=
  (grown.sublist.filterMap _).subset

theorem Visited.arrivals_subset {allowed : Cache → Move → Bool} {origin : Cache}
    (visited : Visited allowed origin cache) : origin.arrivals ⊆ cache.arrivals :=
  arrivals_subset_of_suffix
    ((journal_suffix_kept origin.journal allowed).visited visited List.suffix_rfl)

/-- The block came in at some time, and if it is still stored, the sweep has yet to come to it.  The
listener may remove it before the sweep does. -/
def Pending (call : Nat) (holding : Holding) (cache : Cache) : Prop :=
  holding ∈ cache.arrivals ∧
    (holding ∈ cache.store.holdings → Listed cache.stack call holding)

theorem pending_kept (call : Nat) (holding : Holding) :
    Kept calm fun cache => (Charged cache ∧ Apart cache) ∧ Pending call holding cache := by
  apply (apart_kept calm).and
  · intro cache next move may known pending taken
    have came := arrivals_subset_of_suffix (journal_suffix_of_accepted taken) pending.1
    refine ⟨came, fun held => ?_⟩
    rcases holding_of_accepted known.1.coherent.staged taken held with
      ⟨before, -⟩ | ⟨rest, -, top, -, -⟩
    · exact listed_of_accepted may taken (pending.2 before)
    · -- The call that brought the block would bring it again.
      have seeks : holding.load ∈ cache.seekers := by
        rw [seekers, top]
        exact List.mem_cons_self
      exact absurd seeks (known.2.spent holding pending.1)
  · intro cache next _ pending taken
    have came := arrivals_subset_of_suffix (journal_suffix_of_advanced taken) pending.1
    refine ⟨came, fun held => ?_⟩
    have before := (changed_of_advanced taken).1.holdings_subset held
    exact listed_of_advanced taken (pending.2 before) held

/-! ## What a sweep that has returned has done -/

/-- What is true when a sweep has returned, of the states before it began and after it returned, of
the removals it has made itself, and of what it has added to the counter of invalidations. -/
structure SweptOut (scope : Scope) (before final : Cache) (own : List Removal)
    (counted : UInt64) : Prop where
  /-- A block in the scope that was stored is gone. -/
  gone : ∀ holding ∈ before.store.holdings, scope.covers holding.key = true →
    ∀ stored ∈ final.store.holdings, stored.load ≠ holding.load
  /-- It was removed once, by whomever, and reported once. -/
  removedOnce : ∀ holding ∈ before.store.holdings, scope.covers holding.key = true →
    final.removals.countP (fun removal => removal.block.load = holding.load) = 1
  reportedOnce : final.listener ≠ .absent →
    ∀ holding ∈ before.store.holdings, scope.covers holding.key = true →
      final.reports.countP (fun removal => removal.block.load = holding.load) = 1
  /-- What the sweep has removed itself was in its scope and stored when it began. -/
  found : ∀ removal ∈ own,
    removal.holding ∈ before.store.holdings ∧ scope.covers removal.key = true
  /-- So it has removed nothing that came in afterwards. -/
  spared : ∀ arrived ∈ final.arrivals, arrived ∉ before.arrivals →
    ∀ removal ∈ own, removal.block.load ≠ arrived.load
  /-- It has counted what it has removed itself. -/
  counted : counted = UInt64.ofNat own.length

theorem Apart.eq_of_load (apart : Apart cache) {first second : Holding}
    (firstCame : first ∈ cache.arrivals) (secondCame : second ∈ cache.arrivals)
    (same : first.load = second.load) : first = second :=
  List.inj_on_of_nodup_map apart.loads firstCame secondCame same

theorem Disposed.came_of_stored (disposed : Disposed cache) {holding : Holding}
    (held : holding ∈ cache.store.holdings) : holding ∈ cache.arrivals :=
  disposed.symm.subset (List.mem_append_left _ held)

theorem Disposed.came_of_removed (disposed : Disposed cache) {removal : Removal}
    (removed : removal ∈ cache.removals) : removal.holding ∈ cache.arrivals :=
  disposed.symm.subset (List.mem_append_right _ (List.mem_map_of_mem removed))

/-- A block that came in and is not stored any more was removed once. -/
theorem Apart.removed_once (apart : Apart cache) (disposed : Disposed cache) {holding : Holding}
    (came : holding ∈ cache.arrivals)
    (gone : ∀ stored ∈ cache.store.holdings, stored.load ≠ holding.load) :
    cache.removals.countP (fun removal => removal.block.load = holding.load) = 1 := by
  have once : (cache.arrivals.map Holding.load).count holding.load = 1 :=
    List.count_eq_one_of_mem apart.loads (List.mem_map_of_mem came)
  have absent : (cache.store.holdings.map Holding.load).count holding.load = 0 := by
    apply List.count_eq_zero_of_not_mem
    intro member
    rcases List.mem_map.mp member with ⟨stored, held, same⟩
    exact gone stored held same
  rw [(disposed.map Holding.load).count_eq, List.map_append, List.count_append, absent,
    Nat.zero_add, List.map_map, List.count, List.countP_map] at once
  exact once

theorem holding_of_mem_matching {store : WeightedStore} {scope : Scope} {key : BlockKey}
    {load : Nat} (listed : (key, load) ∈ store.matching scope) :
    ∃ holding ∈ holdingsOf store.entries, holding.key = key ∧ holding.load = load ∧
      scope.covers key = true := by
  rcases List.mem_map.mp listed with ⟨row, among, same⟩
  rcases List.mem_filter.mp among with ⟨member, covered⟩
  cases same
  exact ⟨Holding.ofRow row, List.mem_map_of_mem member, rfl, rfl, covered⟩

/-- The blocks listed when the sweep began are gone in the end.  Blocks that came in since under the
same keys may be there. -/
theorem gone_of_pending {holding : Holding} (charged : Charged cache) (apart : Apart cache)
    (ended : cache.Ended call) (pending : Pending call holding cache) :
    ∀ stored ∈ cache.store.holdings, stored.load ≠ holding.load := by
  intro stored held same
  have came := charged.disposed.came_of_stored held
  cases apart.eq_of_load came pending.1 same
  rcases pending.2 held with ⟨scope, doomed, removed, member, -⟩
  have number : call ∈ cache.numbers := List.mem_filterMap.mpr ⟨_, member, rfl⟩
  exact (charged.coherent.endedApart call ended).2 number

/-- A sweep begins with a list and changes nothing that is stored.  Running loads in its scope are
marked at once, so no block that they bring stays. -/
theorem begun_of_accepted {scope : Scope} (kind : cache.kind = .weighted)
    (bulk : ∀ key, scope ≠ .exactly key)
    (taken : Accepted cache (.begin (.invalidate scope)) begun) :
    ∃ store, cache.store = .weighted store ∧ begun.store = cache.store ∧
      begun.arrivals = cache.arrivals ∧
      .sweeping cache.calls scope (store.matching scope) 0 ∈ begun.stack := by
  cases taken with
  | @dropped key | @nothingDropped key => exact absurd rfl (bulk key)
  | cleared _ simple => exact absurd simple (not_simple kind _)
  | sweepBegun _ weighted _ =>
      refine ⟨_, weighted, rfl, ?_, List.mem_cons_self⟩
      simp [arrivals_eq, Event.isNoted, Event.loaded?, List.filterMap_cons]

theorem prompt_start (budget : UInt64) (listener : Listener) :
    let cache := start (.weighted (.empty budget)) listener
    (Charged cache ∧ Apart cache) ∧ Prompt cache :=
  have apart : Apart (start (.weighted (.empty budget)) listener) :=
    ⟨List.nodup_nil, fun _ came => absurd came List.not_mem_nil,
      fun _ came => absurd came List.not_mem_nil⟩
  ⟨⟨charged_start budget listener, apart⟩, fun _ _ => List.not_mem_nil, fun _ => rfl⟩

/-- Whatever state a sweep of a weighted store begins in and whatever the listener does in its
course, as long as it does not panic: when the sweep has returned, every block in its scope that was
stored when it began is gone, removed once and reported once; the sweep itself has removed none that
came in later and none outside its scope; and it has counted what it has removed itself. -/
theorem sweep_removes_what_it_found (budget : UInt64) (listener : Listener)
    {cache begun final : Cache} {scope : Scope}
    (visited : Visited anyMove (start (.weighted (.empty budget)) listener) cache)
    (bulk : ∀ key, scope ≠ .exactly key)
    (begins : cache.accept (.begin (.invalidate scope)) = some begun)
    (later : Visited calm begun final) (isOver : .returned cache.calls .done ∈ final.journal) :
    (∃ own counted, Sweeping cache.calls begun final own counted) ∧
      ∀ own counted, Sweeping cache.calls begun final own counted →
        SweptOut scope cache final own counted := by
  refine ⟨later.sweeping, fun own counted sweeping => ?_⟩
  have before := (prompt_kept anyMove).visited visited (prompt_start budget listener)
  have taken := accepted_of_accept begins
  have known := (prompt_kept anyMove).accepted rfl before taken
  rcases (prompt_kept calm).visited later known with ⟨⟨charged, apart⟩, prompt⟩
  have ended : final.Ended cache.calls := Or.inl ⟨.done, isOver⟩
  rcases begun_of_accepted before.1.1.kind bulk taken with
    ⟨store, weighted, sameStore, sameArrivals, frame⟩
  have came : ∀ {holding}, holding ∈ cache.store.holdings → holding ∈ begun.arrivals :=
    fun held => sameArrivals.symm ▸ before.1.1.disposed.came_of_stored held
  have pending : ∀ holding ∈ cache.store.holdings, scope.covers holding.key = true →
      Pending cache.calls holding final := by
    intro holding held covered
    have listed : (holding.key, holding.load) ∈ store.matching scope :=
      mem_matching (Store.holdings_weighted weighted ▸ held) covered
    exact ((pending_kept cache.calls holding).visited later
      ⟨known.1, came held, fun _ => ⟨_, _, _, frame, listed⟩⟩).2
  have gone : ∀ holding ∈ cache.store.holdings, scope.covers holding.key = true →
      ∀ stored ∈ final.store.holdings, stored.load ≠ holding.load :=
    fun holding held covered => gone_of_pending charged apart ended (pending holding held covered)
  have once : ∀ holding ∈ cache.store.holdings, scope.covers holding.key = true →
      final.removals.countP (fun removal => removal.block.load = holding.load) = 1 :=
    fun holding held covered => apart.removed_once charged.disposed
      (pending holding held covered).1 (gone holding held covered)
  rcases (sweeping.progress known.1.1.coherent frame).finished charged.coherent ended with
    ⟨entries, sum⟩
  have found : ∀ removal ∈ own,
      removal.holding ∈ cache.store.holdings ∧ scope.covers removal.key = true := by
    intro removal member
    have entry : removal.entry ∈ store.matching scope :=
      entries.subset (List.mem_map_of_mem (List.mem_reverse.mpr member))
    rcases holding_of_mem_matching entry with ⟨holding, held, -, load, covered⟩
    rw [← Store.holdings_weighted weighted] at held
    have removed := charged.disposed.came_of_removed (sweeping.sublist.subset member)
    have same := apart.eq_of_load removed (later.arrivals_subset (came held)) load.symm
    exact ⟨same ▸ held, covered⟩
  exact
    { gone := gone
      removedOnce := once
      reportedOnce := fun present => prompt.reported present ▸ once
      found := found
      spared := fun arrived arrives isNew removal member same => by
        have old := before.1.1.disposed.came_of_stored (found removal member).1
        have again := later.arrivals_subset (sameArrivals.symm ▸ old)
        exact isNew (apart.eq_of_load again arrives same ▸ old)
      counted := sum }

def stocked : Cache :=
  reached anyMove (start (.weighted (.empty 100)) .interactive)
    (loadMoves ⟨⟨0⟩, 0, 0, .index 1⟩ (.standIn 4 "")
      ++ loadMoves ⟨⟨0⟩, 0, 0, .index 2⟩ (.standIn 4 "")
      ++ loadMoves ⟨⟨0⟩, 0, 0, .index 3⟩ (.standIn 4 "")
      ++ loadMoves ⟨⟨0⟩, 0, 1, .index 1⟩ (.standIn 4 ""))

def sweepBegun : Cache :=
  stocked.after (.begin (.invalidate (.within ⟨⟨0⟩, 0, 0⟩)))

/-- Told that the first block is gone, the listener loads it again and drops the second one. -/
def sweptOver : Cache :=
  reached calm (sweepBegun.advanceBy 1)
    (loadMoves ⟨⟨0⟩, 0, 0, .index 1⟩ (.standIn 5 "")
      ++ [.begin (.invalidate (.exactly ⟨⟨0⟩, 0, 0, .index 2⟩)), .listenerReturns,
        .listenerReturns, .listenerReturns])

theorem sweep_removes_what_it_found_reloaded :
    Visited calm sweepBegun sweptOver ∧ .returned stocked.calls .done ∈ sweptOver.journal ∧
      sweptOver.store.entries.keys = [⟨⟨0⟩, 0, 1, .index 1⟩, ⟨⟨0⟩, 0, 0, .index 1⟩] ∧
      (∃ own counted, Sweeping stocked.calls sweepBegun sweptOver own counted) ∧
      ∀ own counted, Sweeping stocked.calls sweepBegun sweptOver own counted →
        SweptOut (.within ⟨⟨0⟩, 0, 0⟩) stocked sweptOver own counted := by
  have visited : Visited anyMove (start (.weighted (.empty 100)) .interactive) stocked :=
    .of_run (run_reached (by decide +kernel))
  have later : Visited calm sweepBegun sweptOver :=
    (Visited.origin.advanceBy 1).run (run_reached (by decide +kernel))
  have isOver : .returned stocked.calls .done ∈ sweptOver.journal := by decide +kernel
  have swept := sweep_removes_what_it_found 100 .interactive visited (by simp)
    (accept_eq_after (by decide +kernel)) later isOver
  exact ⟨later, isOver, by decide +kernel, swept⟩

end Cache
end VolumeCache
