import VolumeCache.Proofs.Calls
import VolumeCache.Proofs.Holdings

namespace VolumeCache
namespace Cache

/-!
# Reading the journal

What a run has done is read off its journal.  The events that a step writes as a list (answers,
notices, removals, reports) are dealt with here once.  The main statement is that a call that has
ended is not under way any more.
-/

open PendingLoad

/-! ## Events that come in lists -/

@[simp] theorem mem_answers {leader : Nat} {outcome : Outcome} {calls : List Nat} {event : Event} :
    event ∈ answers leader outcome calls ↔
      ∃ call ∈ calls, .answered call leader outcome = event := by
  simp [answers]

@[simp] theorem mem_removedEvents {removals : List Removal} {event : Event} :
    event ∈ removedEvents removals ↔ ∃ removal ∈ removals, .removed removal = event := by
  simp [removedEvents]

@[simp] theorem mem_told {listener : Listener} {removal : Removal} {event : Event} :
    event ∈ listener.told removal ↔ listener ≠ .absent ∧ event = .reported removal := by
  cases listener <;> simp [Listener.told]

@[simp] theorem mem_passNotice {store : WeightedStore} {examined evicted : Nat} {event : Event} :
    event ∈ passNotice store examined evicted ↔
      evicted ≠ 0 ∧ event = .noticed (.evictionPass evicted examined store.total store.budget) := by
  unfold passNotice
  split <;> simp_all

@[simp] theorem mem_clearedNotice {scope : Scope} {removed : Nat} {event : Event} :
    event ∈ clearedNotice scope removed ↔
      (∃ level, scope = .within level ∧ event = .noticed (.levelInvalidated level removed)) ∨
        (scope = .everything ∧ event = .noticed (.allInvalidated removed)) := by
  cases scope <;> simp [clearedNotice]

@[simp] theorem mem_evictionNotice {removals : List Removal} {event : Event} :
    event ∈ evictionNotice removals ↔
      removals ≠ [] ∧ event = .noticed (.simpleEviction removals.length) := by
  cases removals <;> simp [evictionNotice]

@[simp] theorem mem_compactionNotice {store : Store} {event : Event} :
    event ∈ store.compactionNotice ↔
      ∃ inner rebuilt, store = .weighted inner ∧ inner.compact? = some rebuilt ∧
        event = .noticed (.indexCompacted rebuilt.recency.size) := by
  cases store with
  | simple store => simp [Store.compactionNotice]
  | weighted store =>
      cases due : store.compact? <;> simp [Store.compactionNotice, due]

/-! ### Lists read through a projection

What a projection reads off the removals or off a report is what it makes of the single event.  So
nothing need be said again for each projection: one that is silent on removals reads nothing off a
list of them.
-/

section Projections

variable {α : Type}

@[simp] theorem filterMap_removedEvents (shown : Event → Option α) (removals : List Removal) :
    (removedEvents removals).filterMap shown =
      (removals.filterMap fun removal => shown (.removed removal)).reverse := by
  rw [removedEvents, List.filterMap_reverse, List.filterMap_map]
  rfl

@[simp] theorem filterMap_told (shown : Event → Option α) (listener : Listener)
    (removal : Removal) :
    (listener.told removal).filterMap shown =
      if listener = .absent then [] else (shown (.reported removal)).toList := by
  cases listener <;> cases said : shown (.reported removal) <;> simp [Listener.told, said]

@[simp] theorem countP_removedEvents (counted : Event → Bool) (removals : List Removal) :
    (removedEvents removals).countP counted =
      removals.countP fun removal => counted (.removed removal) := by
  rw [removedEvents, List.countP_reverse, List.countP_map]
  rfl

@[simp] theorem countP_told (counted : Event → Bool) (listener : Listener) (removal : Removal) :
    (listener.told removal).countP counted =
      if listener = .absent then 0 else (counted (.reported removal)).toNat := by
  cases listener <;> cases counts : counted (.reported removal) <;> simp [Listener.told, counts]

end Projections

/-! ### Notices -/

/-- The events are notices, all of them.  Whatever is counted or listed of a journal in what follows
is silent on notices, so what a cache says in passing never matters to it. -/
def Notices (events : List Event) : Prop :=
  ∀ event ∈ events, ∃ notice, event = .noticed notice

theorem notices_passNotice (store : WeightedStore) (examined evicted : Nat) :
    Notices (passNotice store examined evicted) := by
  intro event member
  exact ⟨_, (mem_passNotice.mp member).2⟩

theorem notices_clearedNotice (scope : Scope) (removed : Nat) :
    Notices (clearedNotice scope removed) := by
  intro event member
  rcases mem_clearedNotice.mp member with ⟨_, -, said⟩ | ⟨-, said⟩
  · exact ⟨_, said⟩
  · exact ⟨_, said⟩

theorem notices_evictionNotice (removals : List Removal) : Notices (evictionNotice removals) := by
  intro event member
  exact ⟨_, (mem_evictionNotice.mp member).2⟩

theorem notices_compactionNotice (store : Store) : Notices store.compactionNotice := by
  intro event member
  rcases mem_compactionNotice.mp member with ⟨_, _, -, -, said⟩
  exact ⟨_, said⟩

/-- A projection that is silent on notices reads nothing off them. -/
theorem Notices.filterMap {α : Type} {shown : Event → Option α} {events : List Event}
    (notices : Notices events) (silent : ∀ notice, shown (.noticed notice) = none) :
    events.filterMap shown = [] := by
  apply List.filterMap_eq_nil_iff.mpr
  intro event member
  rcases notices event member with ⟨notice, rfl⟩
  exact silent notice

theorem Notices.filterMap_append {α : Type} {shown : Event → Option α} {events : List Event}
    (notices : Notices events) (silent : ∀ notice, shown (.noticed notice) = none)
    (journal : List Event) : (events ++ journal).filterMap shown = journal.filterMap shown := by
  rw [List.filterMap_append, notices.filterMap silent, List.nil_append]

/-! ## Events that matter to blocks -/

end Cache

/-- Answers and notices say nothing of blocks; every other event is noted.  A step that only answers
or says something leaves the noted events as they were, and with them everything that is counted or
listed among these. -/
def Event.isNoted : Event → Bool
  | .answered .. => false
  | .noticed _ => false
  | _ => true

namespace Cache

open PendingLoad

def noted (journal : List Event) : List Event :=
  journal.filter Event.isNoted

@[simp] theorem noted_nil : noted [] = [] := rfl

@[simp] theorem noted_cons (event : Event) (journal : List Event) :
    noted (event :: journal) =
      if event.isNoted = true then event :: noted journal else noted journal :=
  List.filter_cons

@[simp] theorem noted_append (first second : List Event) :
    noted (first ++ second) = noted first ++ noted second :=
  List.filter_append first second

@[simp] theorem noted_answers (leader : Nat) (outcome : Outcome) (calls : List Nat) :
    noted (answers leader outcome calls) = [] := by
  apply List.filter_eq_nil_iff.mpr
  intro event member
  rcases mem_answers.mp member with ⟨call, -, rfl⟩
  exact Bool.false_ne_true

theorem Notices.noted {events : List Event} (notices : Notices events) :
    Cache.noted events = [] := by
  apply List.filter_eq_nil_iff.mpr
  intro event member
  rcases notices event member with ⟨notice, rfl⟩
  exact Bool.false_ne_true

@[simp] theorem noted_passNotice (store : WeightedStore) (examined evicted : Nat) :
    noted (passNotice store examined evicted) = [] :=
  (notices_passNotice store examined evicted).noted

@[simp] theorem noted_clearedNotice (scope : Scope) (removed : Nat) :
    noted (clearedNotice scope removed) = [] :=
  (notices_clearedNotice scope removed).noted

@[simp] theorem noted_evictionNotice (removals : List Removal) :
    noted (evictionNotice removals) = [] :=
  (notices_evictionNotice removals).noted

@[simp] theorem noted_compactionNotice (store : Store) : noted store.compactionNotice = [] :=
  (notices_compactionNotice store).noted

@[simp] theorem noted_removedEvents (removals : List Removal) :
    noted (removedEvents removals) = removedEvents removals := by
  apply List.filter_eq_self.mpr
  intro event member
  rcases mem_removedEvents.mp member with ⟨removal, -, rfl⟩
  rfl

@[simp] theorem noted_told (listener : Listener) (removal : Removal) :
    noted (listener.told removal) = listener.told removal := by
  cases listener <;> rfl

/-- A projection that shows noted events only can be read off these. -/
theorem filterMap_noted {α : Type} {shown : Event → Option α}
    (blind : ∀ event, event.isNoted = false → shown event = none) (journal : List Event) :
    (noted journal).filterMap shown = journal.filterMap shown := by
  induction journal with
  | nil => rfl
  | cons event earlier ih =>
      rw [noted_cons]
      cases shows : event.isNoted with
      | true => simp [List.filterMap_cons, ih]
      | false => simp [ih, blind event shows]

theorem countP_noted {counted : Event → Bool}
    (blind : ∀ event, event.isNoted = false → counted event = false) (journal : List Event) :
    (noted journal).countP counted = journal.countP counted := by
  rw [noted, List.countP_filter]
  apply List.countP_congr
  intro event _
  cases shows : event.isNoted with
  | true => simp
  | false => simp [blind event shows]

/-! ## Accesses and uses -/

theorem accesses_eq (cache : Cache) :
    cache.accesses = (noted cache.journal).countP Event.isAccess :=
  (countP_noted (fun event idle => by
    cases event <;> simp_all [Event.isNoted, Event.isAccess]) _).symm

end Cache

namespace Event

/-- The key whose block was used: a look-up has found it, or a load has brought it in.  Events of
both kinds move a clock on by one. -/
def used? : Event → Option BlockKey
  | .touched key => some key
  | .loaded _ key _ => some key
  | _ => none

/-- What was evicted, if that is what the event says. -/
def victim? : Event → Option (BlockKey × Payload)
  | .removed removal =>
      match removal.cause with
      | .size => some (removal.key, removal.block.value)
      | .explicit => none
  | _ => none

end Event

namespace Cache

def uses (cache : Cache) : List BlockKey :=
  cache.journal.filterMap Event.used?

theorem uses_eq (cache : Cache) : cache.uses = (noted cache.journal).filterMap Event.used? :=
  (filterMap_noted (fun event idle => by
    cases event <;> simp_all [Event.isNoted, Event.used?]) _).symm

theorem length_uses (cache : Cache) : cache.uses.length = cache.accesses := by
  unfold uses accesses
  rw [List.length_filterMap_eq_countP]
  apply List.countP_congr
  intro event _
  cases event <;> simp [Event.used?, Event.isAccess]

def victims (journal : List Event) : List (BlockKey × Payload) :=
  journal.filterMap Event.victim?

@[simp] theorem victims_append (first second : List Event) :
    victims (first ++ second) = victims first ++ victims second :=
  List.filterMap_append

/-! ## Calls that have ended -/

/-- The call has returned or has been left by a panic.  A call that joined the load of another one
does neither; it is answered when that load is over. -/
def Ended (cache : Cache) (call : Nat) : Prop :=
  (∃ reply, .returned call reply ∈ cache.journal) ∨ ∃ text, .unwound call text ∈ cache.journal

/-- A move ends at most one call: the one it begins, or the innermost one under way.  Calls that
wait for a load are answered at its end, which is not what is meant by ended here. -/
theorem ended_of_accepted {cache next : Cache} {move : Move} (taken : Accepted cache move next)
    {call : Nat} (ended : next.Ended call) :
    cache.Ended call ∨
      (call = cache.calls ∧ next.numbers = cache.numbers ∧ next.calls = cache.calls + 1) ∨
      cache.numbers = call :: next.numbers := by
  unfold Ended at ended ⊢
  cases taken with
  | loadUnwound top leading =>
      rcases leading with rfl | ⟨_, rfl⟩ | ⟨_, rfl⟩ <;>
        simp_all [numbers, Frame.call?, Sequel.call, List.filterMap_cons] <;> grind
  | clearingUnwound top clearing =>
      rcases clearing with rfl | ⟨_, _, _, rfl⟩ | ⟨_, _, _, rfl⟩ <;>
        simp_all [numbers, Frame.call?, Sequel.call, List.filterMap_cons] <;> grind
  | _ => simp_all [numbers, Frame.call?, List.filterMap_cons] <;> grind

/-- A step ends at most one call, the innermost one. -/
theorem ended_of_advanced {cache next : Cache} (taken : Advanced cache next) {call : Nat}
    (ended : next.Ended call) : cache.Ended call ∨ cache.numbers = call :: next.numbers := by
  unfold Ended at ended ⊢
  cases taken <;> simp_all [numbers, Frame.call?, Sequel.call] <;> grind

/-- Calls that have ended are not under way.  They had begun, so their numbers are not given to
later calls. -/
def EndedApart (cache : Cache) : Prop :=
  ∀ call, cache.Ended call → call < cache.calls ∧ call ∉ cache.numbers

theorem endedApart_kept (allowed : Cache → Move → Bool) :
    Kept allowed fun cache => Numbered 0 cache ∧ EndedApart cache := by
  apply (numbered_kept 0 allowed).and
  · intro cache next move _ numbered apart taken call ended
    rcases ended_of_accepted taken ended with before | ⟨same, numbers, calls⟩ | innermost
    · have old := apart call before
      rcases numbers_of_accepted taken with ⟨fewer, calls⟩ | ⟨more, calls⟩
      · exact ⟨Nat.lt_of_lt_of_le old.1 calls, fun member => old.2 (fewer.subset member)⟩
      · refine ⟨calls ▸ Nat.lt_succ_of_lt old.1, fun member => ?_⟩
        rw [more] at member
        rcases List.mem_cons.mp member with isNew | inOld
        · exact Nat.lt_irrefl _ (isNew ▸ old.1)
        · exact old.2 inOld
    · rw [numbers, calls, same]
      exact ⟨Nat.lt_succ_self _, fun member => Nat.lt_irrefl _ (numbered.below _ member)⟩
    · have descending := numbered.descending
      rw [innermost, List.pairwise_cons] at descending
      have below := numbered.below call (innermost ▸ List.mem_cons_self)
      have calls : cache.calls ≤ next.calls := by
        rcases numbers_of_accepted taken with ⟨-, calls⟩ | ⟨-, calls⟩ <;> omega
      exact ⟨Nat.lt_of_lt_of_le below calls,
        fun member => Nat.lt_irrefl _ (descending.1 call member)⟩
  · intro cache next numbered apart taken call ended
    rcases numbers_of_advanced taken with ⟨fewer, calls⟩
    rw [calls]
    rcases ended_of_advanced taken ended with before | innermost
    · have old := apart call before
      exact ⟨old.1, fun member => old.2 (fewer.subset member)⟩
    · have descending := numbered.descending
      rw [innermost, List.pairwise_cons] at descending
      exact ⟨numbered.below call (innermost ▸ List.mem_cons_self),
        fun member => Nat.lt_irrefl _ (descending.1 call member)⟩

end Cache
end VolumeCache
