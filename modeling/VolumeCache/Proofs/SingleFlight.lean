import Mathlib.Data.List.Nodup
import VolumeCache.Proofs.Claims

namespace VolumeCache

/-!
# One load at a time, shared by all

A key is loaded by one call at a time, and the calls that ask for it meanwhile wait for that call.
What they are told in the end is what the leading call is told itself; if a panic leaves that call
they are told so.  Every one of them is told exactly once.  Nothing is assumed about loaders and
listeners, not even that they do not panic.
-/

/-- The value a frame is about to see into the store, or has seen there. -/
def Frame.admission? : Frame → Option Admission
  | .evicting admission _ _ => some admission
  | .concluding admission => some admission
  | .retracting admission => some admission
  | .reporting _ (.conclude admission) => some admission
  | .reporting _ (.finish admission) => some admission
  | _ => none

namespace Event

/-- The call that waits, and the call whose load it waits for. -/
def joined? : Event → Option (Nat × Nat)
  | .joined call _ leader => some (call, leader)
  | _ => none

/-- The call that waited, the call whose load it waited for, and what it is told. -/
def answered? : Event → Option (Nat × Nat × Outcome)
  | .answered call leader outcome => some (call, leader, outcome)
  | _ => none

end Event

namespace Cache

open PendingLoad

variable {cache next : Cache}

/-! ## Values on their way -/

/-- The values that calls under way have got from their loaders. -/
def admissions (cache : Cache) : List Admission :=
  cache.stack.filterMap Frame.admission?

@[simp] theorem admission?_sequelOf (admission : Admission) (removals : List Removal) :
    (sequelOf admission removals).admission? = some admission := by
  cases removals <;> rfl

theorem admissions_of_accepted {move : Move} (taken : Accepted cache move next)
    {admission : Admission} (carried : admission ∈ next.admissions) :
    admission ∈ cache.admissions ∨
      .loaded admission.call admission.key admission.value ∈ next.journal := by
  unfold admissions at carried ⊢
  cases taken with
  | passBegun top | stored top =>
      simp only [List.filterMap_cons, Frame.admission?, List.mem_cons] at carried
      rcases carried with rfl | below
      · exact Or.inr List.mem_cons_self
      · exact Or.inl (by simpa [top, Frame.admission?] using below)
  | simplyStored top =>
      simp only [List.filterMap_cons, admission?_sequelOf, List.mem_cons] at carried
      rcases carried with rfl | below
      · exact Or.inr (by simp)
      · exact Or.inl (by simpa [top, Frame.admission?] using below)
  | loadUnwound top leading | clearingUnwound top leading =>
      refine Or.inl ?_
      rw [top]
      exact ((List.sublist_cons_self _ _).trans (List.sublist_cons_self _ _)).filterMap _
        |>.subset carried
  | _ => exact Or.inl (by simp_all [Frame.admission?, List.filterMap_cons])

theorem admissions_of_advanced (taken : Advanced cache next) :
    next.admissions ⊆ cache.admissions := by
  unfold admissions
  cases taken with
  | @reported removal removals sequel rest top =>
      cases sequel <;> simp [top, Frame.admission?, List.filterMap_cons]
  | _ => simp_all [Frame.admission?, List.filterMap_cons]

/-- The value of a frame is one that the loader of its call has returned.  It is what the call and
those that wait for it are given in the end. -/
def Carried (cache : Cache) : Prop :=
  ∀ admission ∈ cache.admissions,
    .loaded admission.call admission.key admission.value ∈ cache.journal

theorem carried_kept (allowed : Cache → Move → Bool) : Kept allowed Carried where
  accepted _ carried taken admission member := by
    rcases admissions_of_accepted taken member with before | loaded
    · exact (journal_suffix_of_accepted taken).subset (carried admission before)
    · exact loaded
  advanced carried taken admission member :=
    (journal_suffix_of_advanced taken).subset
      (carried admission (admissions_of_advanced taken member))

/-! ## Waiting calls -/

/-- The calls that have waited or wait for a load, with its leader, the latest first. -/
def joins (cache : Cache) : List (Nat × Nat) :=
  cache.journal.filterMap Event.joined?

/-- What calls that waited were told, the latest first. -/
def replies (cache : Cache) : List (Nat × Nat × Outcome) :=
  cache.journal.filterMap Event.answered?

/-- The calls that wait for running loads, each with the leader of the load. -/
def awaiting (loads : Table BlockKey PendingLoad) : List (Nat × Nat) :=
  loads.rows.flatMap fun row => row.2.followers.map fun call => (call, row.2.leader)

theorem joins_eq (cache : Cache) : cache.joins = (noted cache.journal).filterMap Event.joined? :=
  (filterMap_noted (fun event idle => by
    cases event <;> simp_all [Event.isNoted, Event.joined?]) _).symm

@[simp] theorem answered?_answers (leader : Nat) (outcome : Outcome) (calls : List Nat) :
    (answers leader outcome calls).filterMap Event.answered? =
      (calls.map fun call => (call, leader, outcome)).reverse := by
  simp [answers, List.filterMap_reverse, List.filterMap_map, Function.comp_def, Event.answered?]

theorem Notices.answered? {events : List Event} (notices : Notices events) :
    events.filterMap Event.answered? = [] :=
  notices.filterMap fun _ => rfl

/-! ### Who waits after a change of the table -/

theorem awaiting_overtaken (loads : Table BlockKey PendingLoad) (scope : Scope) :
    awaiting (overtaken loads scope) = awaiting loads := by
  unfold awaiting overtaken Table.mapValues
  rw [List.flatMap_map]
  apply List.flatMap_congr
  intro row _
  by_cases covered : scope.covers row.1 = true
  · simp [covered]
  · simp [covered]

theorem awaiting_claimed {loads : Table BlockKey PendingLoad} {key : BlockKey}
    (free : loads.get? key = none) (call : Nat) :
    awaiting (loads.insert key ⟨call, false, []⟩) = awaiting loads := by
  simp [awaiting, Table.rows_insert_of_get?_none free]

theorem awaiting_joined {loads : Table BlockKey PendingLoad} {key : BlockKey}
    {pending : PendingLoad} (running : loads.get? key = some pending) (call : Nat) :
    (awaiting (loads.modify key fun load =>
        { load with followers := load.followers ++ [call] })).Perm
      ((call, pending.leader) :: awaiting loads) := by
  have changed : (loads.modify key fun load =>
      { load with followers := load.followers ++ [call] }).get? key =
        some { pending with followers := pending.followers ++ [call] } := by
    rw [Table.get?_modify, if_pos rfl, running]
    rfl
  have before := (Table.rows_perm_of_get? running).flatMap_right fun row =>
    row.2.followers.map fun follower => (follower, row.2.leader)
  have after := (Table.rows_perm_of_get? changed).flatMap_right fun row =>
    row.2.followers.map fun follower => (follower, row.2.leader)
  rw [Table.erase_modify] at after
  simp only [List.flatMap_cons, List.map_append, List.map_cons, List.map_nil,
    List.append_assoc] at before after
  exact after.trans (List.perm_middle.trans (before.symm.cons _))

theorem awaiting_released (loads : Table BlockKey PendingLoad) (call : Nat) (key : BlockKey) :
    (awaiting loads).Perm
      ((waiting loads call key).map (fun follower => (follower, call))
        ++ awaiting (released loads call key)) := by
  unfold waiting released
  split
  · rename_i pending running
    split
    · rename_i same
      have rows := (Table.rows_perm_of_get? running).flatMap_right fun row =>
        row.2.followers.map fun follower => (follower, row.2.leader)
      rw [List.flatMap_cons, same] at rows
      exact rows
    · exact List.Perm.refl _
  · exact List.Perm.refl _

/-! ## What is said to those who wait -/

/-- What the followers of a load may be told once its leader has ended: the value that the loader
returned and the leader gave back, the loader's failure, which the leader gave back too, or that a
panic has left the leader.  Whether it was the loader or a listener that panicked makes no
difference to them. -/
inductive Deserved (cache : Cache) (leader : Nat) (key : BlockKey) : Outcome → Prop
  | value {payload : Payload} (loaded : .loaded leader key payload ∈ cache.journal)
      (returned : .returned leader (.loaded (.value payload)) ∈ cache.journal) :
      Deserved cache leader key (.value payload)
  | failure {outermost : String} {causes : List String}
      (failed : .loaderFailed leader key ∈ cache.journal)
      (returned : .returned leader (.loaded (.failure (.loaderFailed outermost causes)))
        ∈ cache.journal) :
      Deserved cache leader key (.failure (.loaderFailed outermost causes))
  | panic {text : String} (unwound : .unwound leader text ∈ cache.journal) :
      Deserved cache leader key (.failure (.loaderPanicked key.description))

theorem Deserved.mono {leader : Nat} {key : BlockKey} {outcome : Outcome}
    (deserved : cache.Deserved leader key outcome) (grown : cache.journal <:+ next.journal) :
    next.Deserved leader key outcome := by
  cases deserved with
  | value loaded returned => exact .value (grown.subset loaded) (grown.subset returned)
  | failure failed returned => exact .failure (grown.subset failed) (grown.subset returned)
  | panic unwound => exact .panic (grown.subset unwound)

theorem Deserved.ended {leader : Nat} {key : BlockKey} {outcome : Outcome}
    (deserved : cache.Deserved leader key outcome) : cache.Ended leader := by
  cases deserved with
  | value _ returned => exact Or.inl ⟨_, returned⟩
  | failure _ returned => exact Or.inl ⟨_, returned⟩
  | panic unwound => exact Or.inr ⟨_, unwound⟩

/-- What a change does for the calls that wait: nothing; one more waits; or a load is given up and
all that wait for it are told what they deserve.  No change does two of these at once. -/
inductive Served (cache next : Cache) : Prop
  | nobody (joins : next.joins = cache.joins) (replies : next.replies = cache.replies)
      (waiting : awaiting next.loads = awaiting cache.loads)
  | oneMore {call : Nat} {key : BlockKey} {rest : List Frame} {pending : PendingLoad}
      (top : cache.stack = .claiming call key :: rest)
      (running : cache.loads.get? key = some pending) (leaves : next.stack = rest)
      (calls : next.calls = cache.calls)
      (joins : next.joins = (call, pending.leader) :: cache.joins)
      (replies : next.replies = cache.replies)
      (waiting : (awaiting next.loads).Perm ((call, pending.leader) :: awaiting cache.loads))
  | all {call : Nat} {key : BlockKey} {outcome : Outcome} (claims : (key, call) ∈ cache.claims)
      (joins : next.joins = cache.joins)
      (replies : next.replies = ((waiting cache.loads call key).map fun follower =>
        (follower, call, outcome)).reverse ++ cache.replies)
      (loads : next.loads = released cache.loads call key)
      (deserved : next.Deserved call key outcome)

theorem served_of_accepted {move : Move} (taken : Accepted cache move next) :
    Served cache next := by
  cases taken with
  | joined top running =>
      refine .oneMore top running rfl rfl ?_ ?_ (awaiting_joined running _)
      · simp [joins_eq, Event.isNoted, Event.joined?]
      · simp [replies, Event.answered?, List.filterMap_cons]
  | overflown top | panicked top =>
      refine .all (by simp [claims, top, Frame.claim?]) ?_ ?_ rfl
        (.panic List.mem_cons_self)
      · simp [joins_eq, Event.isNoted, Event.joined?, List.filterMap_cons]
      · simp [replies, Event.answered?, List.filterMap_cons, panicOutcome]
  | @failed call key rest outermost causes top =>
      refine .all (by simp [claims, top, Frame.claim?]) ?_ ?_ rfl
        (.failure (by simp) List.mem_cons_self)
      · simp [joins_eq, Event.isNoted, Event.joined?, List.filterMap_cons]
      · simp [replies, Event.answered?, List.filterMap_cons]
  | passUnwound top =>
      refine .all (by simp [claims, top, Frame.claim?]) ?_ ?_ rfl
        (.panic List.mem_cons_self)
      · simp [joins_eq, Event.isNoted, Event.joined?, List.filterMap_cons]
      · simp [replies, Event.answered?, List.filterMap_cons, panicOutcome]
  | loadUnwound top leading =>
      refine .all ?_ ?_ ?_ rfl (.panic List.mem_cons_self)
      · rcases leading with rfl | ⟨_, rfl⟩ | ⟨_, rfl⟩ <;> simp [claims, top, Frame.claim?]
      · simp [joins_eq, Event.isNoted, Event.joined?, List.filterMap_cons]
      · simp [replies, Event.answered?, List.filterMap_cons, panicOutcome]
  | dropped | nothingDropped | sweepBegun | cleared =>
      refine .nobody ?_ ?_ (awaiting_overtaken _ _)
      · simp [joins_eq, Event.isNoted, Event.joined?, List.filterMap_cons]
      · simp [replies, Event.answered?, List.filterMap_cons]
  | claimed _ free _ =>
      refine .nobody ?_ ?_ (awaiting_claimed free _)
      · simp [joins_eq, Event.isNoted, Event.joined?, List.filterMap_cons]
      · simp [replies, Event.answered?, List.filterMap_cons]
  | _ =>
      refine .nobody ?_ ?_ rfl
      · simp [joins_eq, Event.isNoted, Event.joined?, List.filterMap_cons]
      · simp [replies, Event.answered?, List.filterMap_cons, (notices_evictionNotice _).answered?]

theorem served_of_advanced (carried : Carried cache) (taken : Advanced cache next) :
    Served cache next := by
  cases taken with
  | @kept admission rest top | @goneAlready admission rest top
  | @retractionCounted admission rest top | @retractionReported admission rest top =>
      have loaded := carried admission (by simp [admissions, top, Frame.admission?])
      refine .all (by simp [claims, top, Frame.claim?]) ?_ ?_ rfl
        (.value (by simp [loaded]) List.mem_cons_self)
      · simp [joins_eq, Event.isNoted, Event.joined?, List.filterMap_cons]
      · simp [replies, Event.answered?, List.filterMap_cons]
  | _ =>
      refine .nobody ?_ ?_ rfl
      · simp [joins_eq, Event.isNoted, Event.joined?, List.filterMap_cons]
      · simp [replies, Event.answered?, List.filterMap_cons, (notices_passNotice _ _ _).answered?,
          (notices_clearedNotice _ _).answered?, (notices_compactionNotice _).answered?]

/-- Every call that waits or has waited does so for one load; it is told once, when that load is
over, and what it is told it deserves. -/
structure Followed (cache : Cache) : Prop where
  balance : cache.joins.Perm
    (cache.replies.map (fun reply => (reply.1, reply.2.1)) ++ awaiting cache.loads)
  once : (cache.joins.map Prod.fst).Nodup
  silent : ∀ join ∈ cache.joins, join.1 < cache.calls ∧ join.1 ∉ cache.askers
  deserved : ∀ call leader outcome, (call, leader, outcome) ∈ cache.replies →
    ∃ key, .claimed leader key ∈ cache.journal ∧ cache.Deserved leader key outcome

/-- Calls that do not ask still do not ask after the change.  Together with the numbering of calls
this keeps them silent for good. -/
def StaySilent (cache next : Cache) : Prop :=
  ∀ call, call < cache.calls ∧ call ∉ cache.askers → call < next.calls ∧ call ∉ next.askers

theorem Followed.balance_joined (followed : Followed cache) {join : Nat × Nat}
    (joins : next.joins = join :: cache.joins) (replies : next.replies = cache.replies)
    (waiting : (awaiting next.loads).Perm (join :: awaiting cache.loads)) :
    next.joins.Perm
      (next.replies.map (fun reply => (reply.1, reply.2.1)) ++ awaiting next.loads) := by
  rw [joins, replies]
  calc join :: cache.joins
      |>.Perm (join :: (cache.replies.map (fun reply => (reply.1, reply.2.1))
        ++ awaiting cache.loads)) := followed.balance.cons _
    _ |>.Perm (cache.replies.map (fun reply => (reply.1, reply.2.1))
        ++ join :: awaiting cache.loads) := List.perm_middle.symm
    _ |>.Perm (cache.replies.map (fun reply => (reply.1, reply.2.1))
        ++ awaiting next.loads) := waiting.symm.append_left _

theorem Followed.balance_answered (followed : Followed cache) {call : Nat} {key : BlockKey}
    {outcome : Outcome} (joins : next.joins = cache.joins)
    (replies : next.replies = ((waiting cache.loads call key).map fun follower =>
      (follower, call, outcome)).reverse ++ cache.replies)
    (loads : next.loads = released cache.loads call key) :
    next.joins.Perm
      (next.replies.map (fun reply => (reply.1, reply.2.1)) ++ awaiting next.loads) := by
  rw [joins, replies, loads, List.map_append, List.map_reverse, List.map_map]
  calc cache.joins
      |>.Perm (cache.replies.map (fun reply => (reply.1, reply.2.1))
        ++ awaiting cache.loads) := followed.balance
    _ |>.Perm (cache.replies.map (fun reply => (reply.1, reply.2.1))
        ++ ((waiting cache.loads call key).map (fun follower => (follower, call))
          ++ awaiting (released cache.loads call key))) :=
        (awaiting_released cache.loads call key).append_left _
    _ |>.Perm (((waiting cache.loads call key).map (fun follower => (follower, call))
        ++ cache.replies.map (fun reply => (reply.1, reply.2.1)))
          ++ awaiting (released cache.loads call key)) := by
        rw [← List.append_assoc]
        exact List.perm_append_comm.append_right _
    _ |>.Perm _ := ((List.reverse_perm _).symm.append_right _).append_right _

theorem Followed.served (followed : Followed cache) (coherent : Coherent cache)
    (known : ClaimsKnown cache) (grown : cache.journal <:+ next.journal)
    (quiet : StaySilent cache next) (served : Served cache next) : Followed next := by
  have silent : ∀ join ∈ cache.joins, join.1 < next.calls ∧ join.1 ∉ next.askers :=
    fun join member => quiet join.1 (followed.silent join member)
  have deserved : ∀ call leader outcome, (call, leader, outcome) ∈ cache.replies →
      ∃ key, .claimed leader key ∈ next.journal ∧ next.Deserved leader key outcome := by
    intro call leader outcome member
    rcases followed.deserved call leader outcome member with ⟨key, claimed, right⟩
    exact ⟨key, grown.subset claimed, right.mono grown⟩
  cases served with
  | nobody joins replies waiting =>
      refine ⟨?_, joins ▸ followed.once, joins ▸ silent, replies ▸ deserved⟩
      rw [joins, replies, waiting]
      exact followed.balance
  | @oneMore call key rest pending top running leaves calls joins replies waiting =>
      have alone := coherent.asker_leaves top
      have asks : call ∈ cache.askers := by simp [Cache.askers, top, asking?]
      refine ⟨followed.balance_joined joins replies waiting, ?_, ?_, replies ▸ deserved⟩
      · rw [joins, List.map_cons, List.nodup_cons]
        refine ⟨fun member => ?_, followed.once⟩
        rcases List.mem_map.mp member with ⟨join, listed, same⟩
        exact (followed.silent join listed).2 (same ▸ asks)
      · rw [joins]
        intro join member
        rcases List.mem_cons.mp member with rfl | old
        · refine ⟨calls ▸ alone.1, ?_⟩
          rw [Cache.askers, leaves]
          exact alone.2
        · exact silent join old
  | @all call key outcome claims joins replies loads right =>
      refine ⟨followed.balance_answered joins replies loads, joins ▸ followed.once,
        joins ▸ silent, ?_⟩
      intro follower leader told member
      rw [replies] at member
      rcases List.mem_append.mp member with isNew | old
      · rcases List.mem_map.mp (List.mem_reverse.mp isNew) with ⟨other, -, same⟩
        cases same
        have leads := coherent.claimsMatch.subset claims
        exact ⟨key, grown.subset (known.runningClaimed key call leads), right⟩
      · exact deserved follower leader told old

/-- What is known of loads, of the calls that lead them and of those that wait for them.  It is kept
by every move, panics of loaders and listeners included, in stores of either kind. -/
structure LoadsKnown (cache : Cache) : Prop where
  coherent : Coherent cache
  claims : ClaimsKnown cache
  requested : Requested cache
  carried : Carried cache
  followed : Followed cache

theorem loadsKnown_kept (allowed : Cache → Move → Bool) : Kept allowed LoadsKnown where
  accepted may known taken :=
    have both := (claimsKnown_kept allowed).accepted may ⟨known.coherent, known.claims⟩ taken
    { coherent := both.1
      claims := both.2
      requested := known.requested.accepted known.claims taken
      carried := (carried_kept allowed).accepted may known.carried taken
      followed := known.followed.served known.coherent known.claims
        (journal_suffix_of_accepted taken) (fun _ => silent_of_accepted taken)
        (served_of_accepted taken) }
  advanced known taken :=
    have both := (claimsKnown_kept allowed).advanced ⟨known.coherent, known.claims⟩ taken
    { coherent := both.1
      claims := both.2
      requested := known.requested.advanced taken
      carried := (carried_kept allowed).advanced known.carried taken
      followed := known.followed.served known.coherent known.claims
        (journal_suffix_of_advanced taken) (fun _ => silent_of_advanced taken)
        (served_of_advanced known.carried taken) }

theorem loadsKnown_start (store : Store) (listener : Listener) (empty : store.holdings = []) :
    LoadsKnown (start store listener) where
  coherent := coherent_start store listener empty
  claims := ⟨by simp [start, leaders, Table.empty], by simp [start]⟩
  requested := ⟨by simp [start], by simp [start], by simp [start], by simp [start], by simp [start]⟩
  carried := by simp [Carried, admissions, start]
  followed := by
    refine ⟨?_, ?_, ?_, ?_⟩ <;> simp [start, joins, replies, awaiting, Table.empty]

/-! ## What a call that waited is told -/

/-- What the call was told about loads of others, the latest first, each with the leader. -/
def answersTo (cache : Cache) (call : Nat) : List (Nat × Outcome) :=
  cache.replies.filterMap fun reply => if reply.1 = call then some reply.2 else none

theorem filterMap_eq_singleton {α β : Type} [DecidableEq α] {pairs : List (α × β)} {key : α}
    {value : β} (apart : (pairs.map Prod.fst).Nodup) (member : (key, value) ∈ pairs) :
    (pairs.filterMap fun pair => if pair.1 = key then some pair.2 else none) = [value] := by
  induction pairs with
  | nil => cases member
  | cons first rest ih =>
      rw [List.map_cons, List.nodup_cons] at apart
      rcases List.mem_cons.mp member with isFirst | later
      · subst isFirst
        have others :
            (rest.filterMap fun pair => if pair.1 = key then some pair.2 else none) = [] := by
          apply List.filterMap_eq_nil_iff.mpr
          intro pair listed
          have different : pair.1 ≠ key := fun same =>
            apart.1 (List.mem_map.mpr ⟨pair, listed, same⟩)
          simp [different]
        simp [others]
      · have different : first.1 ≠ key := fun same =>
          apart.1 (same ▸ List.mem_map_of_mem later)
        simpa [List.filterMap_cons, different] using ih apart.2 later

theorem mem_joins {call leader : Nat} :
    (call, leader) ∈ cache.joins ↔ ∃ key, .joined call key leader ∈ cache.journal := by
  unfold joins
  rw [List.mem_filterMap]
  constructor
  · rintro ⟨event, member, shown⟩
    cases event <;> simp_all [Event.joined?]
    exact ⟨_, member⟩
  · rintro ⟨key, member⟩
    exact ⟨_, member, rfl⟩

theorem Followed.replies_once (followed : Followed cache) : (cache.replies.map Prod.fst).Nodup := by
  have joined := (followed.balance.map Prod.fst).nodup_iff.mp followed.once
  rw [List.map_append, List.map_map, List.nodup_append] at joined
  exact joined.1

/-- What is told is told by the leader of the load that was waited for. -/
theorem Followed.joined_of_reply (followed : Followed cache) {call leader : Nat} {outcome : Outcome}
    (told : (call, leader, outcome) ∈ cache.replies) : (call, leader) ∈ cache.joins :=
  followed.balance.symm.subset
    (List.mem_append_left _ (List.mem_map.mpr ⟨(call, leader, outcome), told, rfl⟩))

theorem mem_answersTo {call leader : Nat} {outcome : Outcome} :
    (leader, outcome) ∈ cache.answersTo call ↔ (call, leader, outcome) ∈ cache.replies := by
  unfold answersTo
  rw [List.mem_filterMap]
  constructor
  · rintro ⟨⟨other, reply⟩, member, shown⟩
    by_cases same : other = call
    · rw [if_pos same] at shown
      cases shown
      exact same ▸ member
    · rw [if_neg same] at shown
      cases shown
  · intro member
    exact ⟨_, member, if_pos rfl⟩

/-- Nothing is told while the load goes on. -/
theorem LoadsKnown.answersTo_of_running (known : LoadsKnown cache) {call leader : Nat}
    (joined : (call, leader) ∈ cache.joins) (running : ¬ cache.Ended leader) :
    cache.answersTo call = [] := by
  rw [List.eq_nil_iff_forall_not_mem]
  rintro ⟨teller, outcome⟩ member
  have told := mem_answersTo.mp member
  have same := List.inj_on_of_nodup_map known.followed.once
    (known.followed.joined_of_reply told) joined rfl
  cases same
  rcases known.followed.deserved _ _ _ told with ⟨key, -, right⟩
  exact running right.ended

/-- Once the load is over the call has been told exactly once.  It is told by the leader of the load
it joined, and what it is told is what that leader deserves. -/
theorem LoadsKnown.answersTo_of_ended (known : LoadsKnown cache) {call leader : Nat}
    {key : BlockKey} (joined : (call, leader) ∈ cache.joins)
    (claimed : .claimed leader key ∈ cache.journal) (ended : cache.Ended leader) :
    ∃ outcome, cache.answersTo call = [(leader, outcome)] ∧ cache.Deserved leader key outcome := by
  rcases List.mem_append.mp (known.followed.balance.subset joined) with told | waits
  · rcases List.mem_map.mp told with ⟨⟨other, teller, outcome⟩, member, same⟩
    cases same
    rcases known.followed.deserved _ _ _ member with ⟨wanted, also, right⟩
    cases known.requested.one_claim claimed also
    exact ⟨outcome, filterMap_eq_singleton known.followed.replies_once member, right⟩
  · -- the leader of a load that still runs has not ended
    rcases List.mem_flatMap.mp waits with ⟨row, listed, among⟩
    rcases List.mem_map.mp among with ⟨follower, -, same⟩
    cases same
    have leads : (row.1, row.2.leader) ∈ leaders cache.loads := List.mem_map.mpr ⟨row, listed, rfl⟩
    exact absurd ended (known.coherent.leader_not_ended leads)

/-! ## Single flight -/

/-- Every key is loaded by one call at a time.  The running loads are exactly the claims that are
held; a call claims one key at most, and only one it has asked for; and its loader is started only
while nothing is stored under the key.

The calls that wait are told nothing while the load runs and one outcome once it is over, one that
its leader deserves, and nobody else is told anything.  A load that is over does not stand in the
way of the next one, and when no call is under way every load is over.  Nothing is said of which
value a store keeps. -/
structure SingleFlight (cache : Cache) : Prop where
  running : ∀ key call,
    (∃ pending, cache.loads.get? key = some pending ∧ pending.leader = call) ↔ cache.Holds call key
  oneLeader : ∀ key first second, cache.Holds first key → cache.Holds second key → first = second
  oneClaim : ∀ call key other, .claimed call key ∈ cache.journal →
    .claimed call other ∈ cache.journal → key = other
  asked : ∀ call key, .claimed call key ∈ cache.journal → .began call (.load key) ∈ cache.journal
  loading : ∀ call key, .loading call key ∈ cache.stack →
    cache.Holds call key ∧ cache.store.entries.get? key = none
  starting : ∀ next, Stepped anyMove cache next → next.starts = cache.starts ∨
    ∃ call key, next.starts = (call, key) :: cache.starts ∧ next.Holds call key ∧
      next.store.entries.get? key = none
  waiting : ∀ call key leader, .joined call key leader ∈ cache.journal →
    .began call (.load key) ∈ cache.journal ∧ .claimed leader key ∈ cache.journal ∧
      (¬ cache.Ended leader → cache.answersTo call = []) ∧
      (cache.Ended leader → ∃ outcome, cache.answersTo call = [(leader, outcome)] ∧
        cache.Deserved leader key outcome)
  answered : ∀ call leader outcome, (leader, outcome) ∈ cache.answersTo call →
    ∃ key, .joined call key leader ∈ cache.journal
  freed : ∀ next call key, Stepped anyMove cache next → cache.Holds call key → next.Ended call →
    next.loads.get? key = none
  again : ∀ call key rest, cache.stack = .claiming call key :: rest →
    cache.loads.get? key = none → cache.store.entries.get? key = none →
    ∃ next, cache.accept .claim = some next ∧ next.Holds call key ∧
      next.starts = (call, key) :: cache.starts
  finished : cache.stack = [] → ∀ call key, .claimed call key ∈ cache.journal → cache.Ended call

theorem LoadsKnown.singleFlight (known : LoadsKnown cache) : SingleFlight cache where
  running key call := mem_leaders.symm.trans (known.claims.leads_iff known.coherent)
  oneLeader key first second one other := by
    rcases mem_leaders.mp ((known.claims.leads_iff known.coherent).mpr one) with
      ⟨pending, held, same⟩
    rcases mem_leaders.mp ((known.claims.leads_iff known.coherent).mpr other) with
      ⟨also, alsoHeld, alsoSame⟩
    rw [held] at alsoHeld
    cases alsoHeld
    exact same.symm.trans alsoSame
  oneClaim call key other := known.requested.one_claim
  asked := known.requested.claimed
  loading call key member := by
    have claim : (key, call) ∈ cache.claims := List.mem_filterMap.mpr ⟨_, member, rfl⟩
    have vacant : key ∈ cache.vacancies := List.mem_filterMap.mpr ⟨_, member, rfl⟩
    exact ⟨(known.claims.leads_iff known.coherent).mp (known.coherent.claimsMatch.subset claim),
      known.coherent.staged.vacant key vacant⟩
  starting next stepped := by
    have after := (loadsKnown_kept anyMove).stepped known stepped
    rcases stepped.listed with ⟨move, -, taken⟩ | taken
    · rcases starts_of_accepted taken with same | ⟨call, key, starts, leads, absent⟩
      · exact Or.inl same
      · exact Or.inr ⟨call, key, starts, (after.claims.leads_iff after.coherent).mp leads, absent⟩
    · exact Or.inl (starts_of_advanced taken)
  waiting call key leader joined := by
    have member : (call, leader) ∈ cache.joins := mem_joins.mpr ⟨key, joined⟩
    rcases known.requested.joined call key leader joined with ⟨began, claimed⟩
    exact ⟨began, claimed, known.answersTo_of_running member,
      known.answersTo_of_ended member claimed⟩
  answered call leader outcome told :=
    mem_joins.mp (known.followed.joined_of_reply (mem_answersTo.mp told))
  freed next call key stepped := known.claims.free_of_ended known.coherent stepped
  again call key rest top free absent := by
    have taken := Accepted.claimed top free (Store.lookup?_eq_none_iff.mpr absent)
    have after := (loadsKnown_kept anyMove).accepted rfl known taken
    refine ⟨_, accept_of_accepted taken, (after.claims.leads_iff after.coherent).mp ?_, ?_⟩
    · simp [leaders, Table.rows_insert_of_get?_none free]
    · simp [starts, Event.started?, List.filterMap_cons]
  finished idle call key claimed := by
    rcases known.claims.claimedRunning call key claimed with leads | ended
    · have number := known.coherent.leader_mem_numbers leads
      simp [numbers, idle] at number
    · exact ended

/-- In every state that any use of a cache passes through, the middle of calls included, loads and
the calls that wait for them are as they should be.  Nothing is assumed of loaders and listeners:
they may fail, panic or call back, and the weights may be anything. -/
theorem single_flight (kind : StoreKind) (budget : UInt64) (limit : Option UInt64)
    (listener : Listener) (cache : Cache)
    (visited : Visited anyMove (start (Store.empty kind budget limit) listener) cache) :
    SingleFlight cache :=
  ((loadsKnown_kept anyMove).visited visited
    (loadsKnown_start _ _ (Store.holdings_empty kind budget limit))).singleFlight

/-- A second call waits for a load whose loader panics. -/
def abandoned : Cache :=
  reached anyMove (start (.simple (.empty 100 none)) .interactive)
    [.begin (.load ⟨⟨0⟩, 0, 0, .index 1⟩), .claim, .begin (.load ⟨⟨0⟩, 0, 0, .index 1⟩), .claim,
      .loaderPanics "boom"]

theorem single_flight_abandoned :
    SingleFlight abandoned ∧ .joined 1 ⟨⟨0⟩, 0, 0, .index 1⟩ 0 ∈ abandoned.journal ∧
      .unwound 0 "boom" ∈ abandoned.journal ∧
      ∃ outcome, abandoned.answersTo 1 = [(0, outcome)] ∧
        abandoned.Deserved 0 ⟨⟨0⟩, 0, 0, .index 1⟩ outcome := by
  have run : Run anyMove (start (Store.empty .simple 100 none) .interactive) _ abandoned :=
    run_reached (by decide +kernel)
  have shared := single_flight .simple 100 none .interactive abandoned (.of_run run)
  have joined : .joined 1 ⟨⟨0⟩, 0, 0, .index 1⟩ 0 ∈ abandoned.journal := by decide +kernel
  have unwound : .unwound 0 "boom" ∈ abandoned.journal := by decide +kernel
  exact ⟨shared, joined, unwound, (shared.waiting 1 _ 0 joined).2.2.2 (Or.inr ⟨_, unwound⟩)⟩

end Cache
end VolumeCache
