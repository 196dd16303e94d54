import VolumeCache.Proofs.Budget
import VolumeCache.Proofs.Undisturbed

namespace VolumeCache

/-!
# The two kinds of cache agree

A program that uses a cache cannot tell whether its store is weighted or simple, as long as the
simple store has no limit on the number of blocks, the weights and the clock do not overflow, and
no listener takes control.  The two caches take different steps for one move; what corresponds are
the states in which control is outside.  So the relation between them is followed from one such
state to the next, by letting both caches go on until they get there.
-/

/-- A caller is about to claim its key, or a loader is running.  These are the frames that stand
while control is outside, if no listener is running. -/
def Frame.awaits : Frame → Bool
  | .claiming .. => true
  | .loading .. => true
  | _ => false

namespace Cache

open PendingLoad

/-! ## Journals that look alike -/

/-- What can be told of two journals from outside is the same.  Examinations and notices are left
out of account, and so are the times of last uses. -/
structure LookAlike (first second : List Event) : Prop where
  seen : Cache.seen first = Cache.seen second
  gone : Cache.gone first = Cache.gone second

namespace LookAlike

variable {first second : List Event}

theorem refl : LookAlike first first := ⟨rfl, rfl⟩

theorem append (alike : LookAlike first second) (events : List Event) :
    LookAlike (events ++ first) (events ++ second) where
  seen := by rw [seen_append, seen_append, alike.seen]
  gone := by rw [gone_append, gone_append, alike.gone]

theorem cons (alike : LookAlike first second) (event : Event) :
    LookAlike (event :: first) (event :: second) :=
  alike.append [event]

end LookAlike

theorem timeless_removalsOf {blocks others : List (BlockKey × CachedBlock)}
    (same : blocks.map Holding.ofRow = others.map Holding.ofRow) (cause : RemovalCause) :
    (removalsOf cause blocks).map Removal.timeless =
      (removalsOf cause others).map Removal.timeless := by
  have stripped : ∀ rows : List (BlockKey × CachedBlock),
      (removalsOf cause rows).map Removal.timeless = (rows.map Holding.ofRow).map
        fun holding => ⟨holding.key, ⟨holding.value, 0, holding.load⟩, cause⟩ := by
    intro rows
    simp [removalsOf, Function.comp_def, Removal.timeless, Holding.ofRow]
  rw [stripped, stripped, same]

/-- Journals still look alike after the same blocks have gone. -/
theorem LookAlike.shows {first second firstAfter secondAfter : List Event}
    (look : LookAlike first second) {listener : Listener} {cause : RemovalCause}
    {blocks others : List (BlockKey × CachedBlock)}
    (same : others.map Holding.ofRow = blocks.map Holding.ofRow)
    (firstShows :
      Shows listener (removalsOf cause blocks) (removalsOf cause blocks) first firstAfter)
    (secondShows : Shows listener (removalsOf cause others) (removalsOf cause others) second
      secondAfter) : LookAlike firstAfter secondAfter where
  seen := by
    rw [firstShows.seen, secondShows.seen, heard, heard, timeless_removalsOf same, look.seen]
  gone := by rw [firstShows.gone, secondShows.gone, timeless_removalsOf same, look.gone]

theorem countP_isAccess_seen (journal : List Event) :
    (seen journal).countP Event.isAccess = journal.countP Event.isAccess := by
  induction journal with
  | nil => rfl
  | cons event earlier ih =>
      unfold seen at ih ⊢
      rw [List.countP_cons, List.filterMap_cons, ← ih]
      cases event <;> simp [Event.seen?, Event.isAccess, List.countP_cons]

theorem accesses_eq_seen (cache : Cache) :
    cache.accesses = (seen cache.journal).countP Event.isAccess :=
  (countP_isAccess_seen cache.journal).symm

/-! ## Caches that correspond -/

/-- A weighted and a simple cache that are at the same point of the same program: the stores mirror
each other, no pass is under way, and everything else is the same as far as it shows.  The listener
does not call back, for in the middle of a pass it would see one cache before and the other after
all its evictions. -/
inductive Alike : Cache → Cache → Prop
  | intro {lazy : WeightedStore} {exact : SimpleStore} {listener : Listener}
      {loads : Table BlockKey PendingLoad} {counters : Counters} {stack : List Frame} {calls : Nat}
      {first second : List Event} (mirrors : Mirrors lazy exact) (idle : lazy.evicting = false)
      (quiet : listener ≠ .interactive) (look : LookAlike first second) :
      Alike ⟨.weighted lazy, listener, loads, counters, stack, calls, first⟩
        ⟨.simple exact, listener, loads, counters, stack, calls, second⟩

/-- Control is with callers and loaders all the way down.  In particular the listener is not running
and no call is in the middle of its work. -/
def Waiting (stack : List Frame) : Prop :=
  ∀ frame ∈ stack, frame.awaits = true

theorem Waiting.push {stack : List Frame} {frame : Frame} (waiting : Waiting stack)
    (awaits : frame.awaits = true) : Waiting (frame :: stack) := by
  intro other member
  rcases List.mem_cons.mp member with rfl | below
  · exact awaits
  · exact waiting other below

theorem Waiting.pop {stack : List Frame} {frame : Frame} (waiting : Waiting (frame :: stack)) :
    Waiting stack :=
  fun other member => waiting other (List.mem_cons_of_mem _ member)

theorem isSettled_of_waiting {cache : Cache} (waiting : Waiting cache.stack) :
    cache.isSettled = true := by
  unfold isSettled
  split
  · rfl
  · rename_i frame below top
    have awaits := waiting frame (top ▸ List.mem_cons_self)
    cases frame <;> simp_all [Frame.awaits, Frame.isOutside]

theorem Alike.stack {first second : Cache} (alike : Alike first second) :
    second.stack = first.stack := by
  cases alike
  rfl

theorem Alike.accesses {first second : Cache} (alike : Alike first second) :
    second.accesses = first.accesses := by
  cases alike with
  | intro _ _ _ look => rw [accesses_eq_seen, accesses_eq_seen, look.seen]

/-- Left to themselves, the two caches get to states that correspond.  Each may take as many steps
as it needs, since the one works block by block where the other does all at once. -/
def Meets (first second : Cache) : Prop :=
  ∃ firstEnd secondEnd, Leads first firstEnd ∧ Leads second secondEnd ∧
    Alike firstEnd secondEnd ∧ Waiting firstEnd.stack

theorem Meets.here {first second : Cache} (alike : Alike first second)
    (waiting : Waiting first.stack) : Meets first second :=
  ⟨first, second, .refl, .refl, alike, waiting⟩

theorem meets_of_leads {first second firstNext secondNext : Cache}
    (firstLeads : Leads first firstNext) (secondLeads : Leads second secondNext)
    (meets : Meets firstNext secondNext) : Meets first second := by
  rcases meets with ⟨firstEnd, secondEnd, firstRest, secondRest, alike, waiting⟩
  exact ⟨firstEnd, secondEnd, firstLeads.trans firstRest, secondLeads.trans secondRest, alike,
    waiting⟩

/-! ## The end of a load -/

/-- Both caches decide alike whether an admitted value may stay, and take the same block back.  The
mark that decides it is in the table of running loads, which the two share. -/
theorem meets_concluding {first second : Cache} (alike : Alike first second)
    {admission : Admission} {rest : List Frame} (top : first.stack = .concluding admission :: rest)
    (waiting : Waiting rest) : Meets first second := by
  cases alike with
  | @intro lazy exact listener loads counters stack calls journal other mirrors idle quiet look =>
      cases top
      cases stale : isOvertaken ⟨.weighted lazy, listener, loads, counters,
          .concluding admission :: rest, calls, journal⟩ admission.key with
      | false =>
          have firstStep := advance_of_advanced (.kept rfl stale)
          have secondStep := advance_of_advanced (@Advanced.kept ⟨.simple exact, listener, loads,
            counters, .concluding admission :: rest, calls, other⟩ admission rest rfl stale)
          refine ⟨_, _, .one firstStep, .one secondStep, .intro mirrors idle quiet ?_, waiting⟩
          exact (look.append _).cons _
      | true =>
          cases held : lazy.entries.get? admission.key with
          | none =>
              have firstStep := advance_of_advanced (.goneAlready rfl stale held)
              have secondStep := advance_of_advanced (@Advanced.goneAlready ⟨.simple exact,
                listener, loads, counters, .concluding admission :: rest, calls, other⟩ admission
                rest rfl stale (mirrors.absent held))
              refine ⟨_, _, .one firstStep, .one secondStep, .intro mirrors idle quiet ?_, waiting⟩
              exact ((look.cons _).append _).cons _
          | some block =>
              have taken : lazy.remove? admission.key =
                  some (block, lazy.discard admission.key block) := by
                simp [WeightedStore.remove?, held]
              rcases mirrors.remove? held with ⟨found, left, alsoTaken, same, mirrored⟩
              rcases @leads_retracted ⟨.weighted lazy, listener, loads, counters,
                .concluding admission :: rest, calls, journal⟩ admission rest _ _ block quiet rfl
                stale rfl taken with ⟨firstAfter, firstLeads, firstShows⟩
              rcases @leads_takenBack ⟨.simple exact, listener, loads, counters,
                .concluding admission :: rest, calls, other⟩ admission rest exact left found quiet
                rfl stale rfl alsoTaken with ⟨secondAfter, secondLeads, secondShows⟩
              have blocks : [(admission.key, found)].map Holding.ofRow =
                  [(admission.key, block)].map Holding.ofRow :=
                congrArg (fun holding => [holding]) same
              have retold := look.shows blocks firstShows secondShows
              exact ⟨_, _, firstLeads, secondLeads, .intro mirrored idle quiet
                ((retold.append _).cons _), waiting⟩

/-! ## Admissions and invalidations -/

variable {first second : Cache} {listener : Listener} {loads : Table BlockKey PendingLoad}
  {counters : Counters} {rest : List Frame} {calls : Nat} {firstJournal secondJournal : List Event}

/-- After an admission both caches evict the same blocks, and then decide on the value.  The one
does so record by record through its index, the other all at once by its exact order. -/
theorem meets_admitted {grown final : WeightedStore} {exact left : SimpleStore} {count : Nat}
    {blocks others : List (BlockKey × CachedBlock)} {admission : Admission}
    (drained : Drained grown count blocks final) (mirrors : Mirrors grown exact)
    (indexed : grown.Indexed) (shrunk : exact.shrink = (others, left))
    (quiet : listener ≠ .interactive) (look : LookAlike firstJournal secondJournal)
    (waiting : Waiting rest)
    (passed : ∃ journal,
      Leads first ⟨.weighted { final with evicting := false }, listener, loads,
        counters.recordEvictions blocks.length.toUInt64, .concluding admission :: rest, calls,
        journal⟩ ∧
      Shows listener (removalsOf .size blocks) (removalsOf .size blocks) firstJournal journal) :
    Meets first ⟨.simple left, listener, loads, counters.recordEvictions others.length.toUInt64,
      sequelOf admission (removalsOf .size others) :: rest, calls,
      evictionNotice (removalsOf .size others) ++ removedEvents (removalsOf .size others)
        ++ secondJournal⟩ := by
  have shrinks := drained.shrinkBy mirrors indexed (Nat.le_refl _)
  change exact.shrink.1.map _ = _ ∧ Mirrors final exact.shrink.2 at shrinks
  rw [shrunk] at shrinks
  rcases shrinks with ⟨same, mirrored⟩
  have length : others.length = blocks.length := by simpa using congrArg List.length same
  rcases passed with ⟨firstAfter, firstLeads, firstShows⟩
  rcases @leads_admitted (removalsOf .size others) ⟨.simple left, listener, loads,
    counters.recordEvictions others.length.toUInt64,
    sequelOf admission (removalsOf .size others) :: rest, calls,
    evictionNotice (removalsOf .size others) ++ removedEvents (removalsOf .size others)
      ++ secondJournal⟩ admission rest secondJournal quiet rfl rfl
    with ⟨secondAfter, secondLeads, secondShows⟩
  rw [length] at secondLeads ⊢
  have retold := look.shows same firstShows secondShows
  apply meets_of_leads firstLeads secondLeads
  exact meets_concluding (.intro (mirrored.upkeep final.recency false) rfl quiet retold) rfl waiting

/-- An invalidation takes the same blocks out of both caches. -/
theorem meets_cleared {final : WeightedStore} {left : SimpleStore}
    {blocks others : List (BlockKey × CachedBlock)} {call : Nat} {scope : Scope}
    (mirrored : Mirrors final left) (idle : final.evicting = false)
    (same : others.map Holding.ofRow = blocks.map Holding.ofRow)
    (quiet : listener ≠ .interactive) (look : LookAlike firstJournal secondJournal)
    (waiting : Waiting rest)
    (swept : ∃ journal,
      Leads first ⟨.weighted final, listener, loads,
        counters.recordInvalidations blocks.length.toUInt64, rest, calls,
        .returned call .done :: journal⟩ ∧
      Shows listener (removalsOf .explicit blocks) (removalsOf .explicit blocks) firstJournal
        journal) :
    Meets first ⟨.simple left, listener, loads,
      counters.recordInvalidations others.length.toUInt64,
      .reporting (removalsOf .explicit others) (.close call scope others.length) :: rest, calls,
      removedEvents (removalsOf .explicit others) ++ secondJournal⟩ := by
  have length : others.length = blocks.length := by simpa using congrArg List.length same
  rcases swept with ⟨firstAfter, firstLeads, firstShows⟩
  rcases @leads_cleared ⟨.simple left, listener, loads,
    counters.recordInvalidations others.length.toUInt64,
    .reporting (removalsOf .explicit others) (.close call scope others.length) :: rest, calls,
    removedEvents (removalsOf .explicit others) ++ secondJournal⟩ _ call scope _ rest
    secondJournal quiet rfl rfl with ⟨secondAfter, secondLeads, secondShows⟩
  rw [length] at secondLeads ⊢
  have retold := look.shows same firstShows secondShows
  exact ⟨_, _, firstLeads, secondLeads, .intro mirrored idle quiet (retold.cons _), waiting⟩

/-! ## One move -/

/-- The second cache can make the same move, and counts as many accesses; as long as these are not
too many for the clock, the two caches meet again.  Beyond that bound the move can still be made,
but nothing is said of where it leads. -/
def Follows (second : Cache) (move : Move) (firstNext : Cache) : Prop :=
  ∃ secondNext, Accepted second move secondNext ∧ secondNext.accesses = firstNext.accesses ∧
    (firstNext.accesses < 2 ^ 64 → Meets firstNext secondNext)

theorem accesses_of_look {first second : Cache} (look : LookAlike first.journal second.journal) :
    second.accesses = first.accesses := by
  rw [accesses_eq_seen, accesses_eq_seen, look.seen]

/-- After most moves the states correspond at once. -/
theorem follows_at_once {second firstNext secondNext : Cache} {move : Move}
    (taken : Accepted second move secondNext) (waiting : Waiting firstNext.stack)
    (look : LookAlike firstNext.journal secondNext.journal)
    (alike : LookAlike firstNext.journal secondNext.journal → firstNext.accesses < 2 ^ 64 →
      Alike firstNext secondNext) : Follows second move firstNext :=
  ⟨secondNext, taken, accesses_of_look look, fun few => .here (alike look few) waiting⟩

/-- A move that is an access finds the index in order and a clock that still goes forward.  So the
bound on the accesses is used once, before the move, and not for each of its steps. -/
theorem forward_of_access {cache : Cache} {lazy : WeightedStore} (indexed : Indexed cache)
    (weighted : cache.store = .weighted lazy)
    (few : cache.journal.countP Event.isAccess + 1 < 2 ^ 64) :
    lazy.Indexed ∧ lazy.clock < lazy.clock + 1 := by
  have before := indexed (Nat.lt_of_succ_lt few)
  rw [weighted] at before
  exact ⟨before.1, (Store.Indexed.forward before few).1⟩

theorem lookup?_of_mirrors {lazy : WeightedStore} {exact : SimpleStore} {key : BlockKey}
    {payload : Payload} {store : Store} (mirrors : Mirrors lazy exact)
    (held : (Store.weighted lazy).lookup? key = some (payload, store)) :
    ∃ after touched, store = .weighted after ∧ after.evicting = lazy.evicting ∧
      (Store.simple exact).lookup? key = some (payload, .simple touched) ∧
      (lazy.Indexed → lazy.clock < lazy.clock + 1 → Mirrors after touched) := by
  have evicting := Store.lookup?_evicting held
  rcases Option.map_eq_some_iff.mp held with ⟨⟨value, after⟩, found, same⟩
  cases same
  rcases mirrors.lookup? found with ⟨touched, alsoFound, mirrored⟩
  exact ⟨after, touched, rfl, evicting, by simp [Store.lookup?, alsoFound], mirrored⟩

theorem lookup?_none_of_mirrors {lazy : WeightedStore} {exact : SimpleStore} {key : BlockKey}
    (mirrors : Mirrors lazy exact) (missing : (Store.weighted lazy).lookup? key = none) :
    (Store.simple exact).lookup? key = none := by
  rw [Store.lookup?_eq_none_iff] at missing ⊢
  exact mirrors.absent missing

/-- A value that is light enough is admitted by both caches.  Lightness is asked of the simple one
only, which would not store the value otherwise; the weighted one would go on with a sum that has
wrapped. -/
theorem follows_admitted {firstNext : Cache} {payload : Payload} (alike : Alike first second)
    (waiting : Waiting first.stack) (indexed : Indexed first) (weighed : Weighed second)
    (staged : Staged second) (fit : second.fits (.loaderReturns payload) = true)
    (taken : Accepted first (.loaderReturns payload) firstNext) :
    Follows second (.loaderReturns payload) firstNext := by
  cases alike with
  | @intro lazy exact listener loads counters stack calls journal other mirrors idle quiet look =>
  have loading : ∃ call key rest, stack = .loading call key :: rest ∧
      firstNext.journal = .loaded call key payload :: journal := by
    cases taken with
    | passBegun top | stored top => exact ⟨_, _, _, top, rfl⟩
    | simplyStored _ simple | overflown _ simple => cases simple
  rcases loading with ⟨call, key, rest, rfl, said⟩
  have absent := staged.absent rfl
  have alsoAbsent := get?_eq_none_of_holdingsOf_eq mirrors.blocks absent
  cases put : exact.put key call payload with
  | error left => exact absurd put (weighed.put_ne_error staged fit rfl rfl)
  | ok result =>
      obtain ⟨others, left⟩ := result
      refine ⟨_, .simplyStored rfl rfl put, ?_, fun few => ?_⟩
      · rw [accesses_eq_seen, accesses_eq_seen, said, seen_append, seen_append,
          (notices_evictionNotice _).seen, seen_removedEvents, (look.cons _).seen]
        rfl
      · have ready := forward_of_access indexed rfl
          (by simpa [accesses, said, List.countP_cons, Event.isAccess] using few)
        rcases leads_grown quiet rfl idle rfl taken with
          ⟨evicting, count, blocks, final, after, drained, leads, shows⟩
        have grown := ready.1.insert ready.2 key call payload
        have mirrored := mirrors.insert ready.1 ready.2 alsoAbsent call payload
        exact meets_admitted drained (mirrored.upkeep _ evicting) (grown.flagged evicting)
          (SimpleStore.put_eq_ok absent put).2 quiet (look.cons _) waiting.pop
          ⟨after, leads, shows⟩

theorem follows_invalidated {firstNext : Cache} {scope : Scope} (alike : Alike first second)
    (waiting : Waiting first.stack)
    (taken : Accepted first (.begin (.invalidate scope)) firstNext) :
    Follows second (.begin (.invalidate scope)) firstNext := by
  have settled := isSettled_of_waiting (alike.stack ▸ waiting : Waiting second.stack)
  have accesses := alike.accesses
  have uncounted : firstNext.accesses = first.accesses := by
    cases taken <;> simp [Cache.accesses, Event.isAccess]
  cases alike with
  | @intro lazy exact listener loads counters stack calls journal other mirrors idle quiet look =>
  cases cleared : exact.removeWhere scope with
  | mk others left =>
      have dropped := mirrors.removeWhere scope
      rw [cleared] at dropped
      rcases dropped with ⟨same, mirrored⟩
      refine ⟨_, .cleared settled rfl cleared, ?_, fun _ => ?_⟩
      · rw [uncounted, ← accesses]
        simp [Cache.accesses, Event.isAccess]
      · rcases leads_invalidated quiet rfl taken with ⟨final, after, swept, leads, shows⟩
        have still : (lazy.sweep (lazy.matching scope)).2.evicting = false :=
          (lazy.sweep_evicting _).trans idle
        rcases swept with rfl | rfl
        · exact meets_cleared mirrored still same quiet (look.cons _) waiting ⟨after, leads, shows⟩
        · have compacted :=
            Store.compacted_evicting (.weighted (lazy.sweep (lazy.matching scope)).2)
          exact meets_cleared mirrored.compacted (compacted.trans still) same quiet (look.cons _)
            waiting ⟨after, leads, shows⟩

theorem follows_of_accepted {first second firstNext : Cache} {move : Move}
    (alike : Alike first second) (waiting : Waiting first.stack) (indexed : Indexed first)
    (weighed : Weighed second) (staged : Staged second) (fit : second.fits move = true)
    (taken : Accepted first move firstNext) : Follows second move firstNext := by
  have settled := isSettled_of_waiting (alike.stack ▸ waiting : Waiting second.stack)
  cases alike with
  | @intro lazy exact listener loads counters stack calls journal other mirrors idle quiet look =>
  cases taken with
  | found _ held =>
      rcases lookup?_of_mirrors mirrors held with ⟨after, touched, rfl, still, alsoHeld, mirrored⟩
      refine follows_at_once (.found settled alsoHeld) waiting (((look.cons _).cons _).cons _)
        fun retold few => ?_
      have ready := forward_of_access indexed rfl
        (by simpa [accesses, List.countP_cons, Event.isAccess] using few)
      exact .intro (mirrored ready.1 ready.2) (still.trans idle) quiet retold
  | missing _ absent =>
      have alsoAbsent := lookup?_none_of_mirrors mirrors absent
      exact follows_at_once (.missing settled alsoAbsent) waiting ((look.cons _).cons _)
        fun retold _ => .intro mirrors idle quiet retold
  | hit _ held =>
      rcases lookup?_of_mirrors mirrors held with ⟨after, touched, rfl, still, alsoHeld, mirrored⟩
      refine follows_at_once (.hit settled alsoHeld) waiting (((look.cons _).cons _).cons _)
        fun retold few => ?_
      have ready := forward_of_access indexed rfl
        (by simpa [accesses, List.countP_cons, Event.isAccess] using few)
      exact .intro (mirrored ready.1 ready.2) (still.trans idle) quiet retold
  | opened _ absent =>
      have alsoAbsent := lookup?_none_of_mirrors mirrors absent
      exact follows_at_once (.opened settled alsoAbsent) (waiting.push rfl) (look.cons _)
        fun retold _ => .intro mirrors idle quiet retold
  | joined top running =>
      cases top
      exact follows_at_once (.joined rfl running) waiting.pop (look.cons _)
        fun retold _ => .intro mirrors idle quiet retold
  | lateHit top free held =>
      cases top
      rcases lookup?_of_mirrors mirrors held with ⟨after, touched, rfl, still, alsoHeld, mirrored⟩
      refine follows_at_once (.lateHit rfl free alsoHeld) waiting.pop
        (((look.cons _).cons _).cons _) fun retold few => ?_
      have ready := forward_of_access indexed rfl
        (by simpa [accesses, List.countP_cons, Event.isAccess] using few)
      exact .intro (mirrored ready.1 ready.2) (still.trans idle) quiet retold
  | claimed top free absent =>
      cases top
      have alsoAbsent := lookup?_none_of_mirrors mirrors absent
      exact follows_at_once (.claimed rfl free alsoAbsent) (waiting.pop.push rfl)
        (((look.cons _).cons _).cons _) fun retold _ => .intro mirrors idle quiet retold
  | failed top =>
      cases top
      exact follows_at_once (.failed rfl) waiting.pop (((look.cons _).append _).cons _)
        fun retold _ => .intro mirrors idle quiet retold
  | panicked top =>
      cases top
      exact follows_at_once (.panicked rfl) waiting.pop (((look.cons _).append _).cons _)
        fun retold _ => .intro mirrors idle quiet retold
  | listenerReturned top | passUnwound top | loadUnwound top | clearingUnwound top =>
      cases waiting _ (top ▸ List.mem_cons_self)
  | cleared _ simple | simplyStored _ simple | overflown _ simple => cases simple
  | passBegun top weighted heavy free =>
      exact follows_admitted (.intro mirrors idle quiet look) waiting indexed weighed staged fit
        (.passBegun top weighted heavy free)
  | stored top weighted within =>
      exact follows_admitted (.intro mirrors idle quiet look) waiting indexed weighed staged fit
        (.stored top weighted within)
  | dropped settled weighted taken =>
      exact follows_invalidated (.intro mirrors idle quiet look) waiting
        (.dropped settled weighted taken)
  | nothingDropped settled weighted absent =>
      exact follows_invalidated (.intro mirrors idle quiet look) waiting
        (.nothingDropped settled weighted absent)
  | sweepBegun settled weighted bulk =>
      exact follows_invalidated (.intro mirrors idle quiet look) waiting
        (.sweepBegun settled weighted bulk)

/-! ## Runs -/

/-- Whether a move can be made is decided by the calls under way. -/
theorem accept_isSome_of_stack {first second : Cache} (same : second.stack = first.stack)
    (move : Move) : (second.accept move).isSome = (first.accept move).isSome := by
  unfold accept
  rw [isSettled_eq, isSettled_eq, same]
  split
  · split <;> rfl
  · rfl
  · rfl
  · rfl
  · rfl
  · rfl
  · unfold unwind
    split <;> rfl
  · rfl

theorem Alike.fits {first second : Cache} (alike : Alike first second) (move : Move) :
    second.fits move = first.fits move := by
  cases alike with
  | intro mirrors _ _ _ =>
      have weights := congrArg weightOf mirrors.blocks
      cases move <;> simp [Cache.fits, heldWeight_eq, Store.holdings, Store.entries, weights]

/-- What is known of either cache along a run.  None of it compares the two. -/
structure Sound (cache : Cache) : Prop where
  accounted : Accounted cache
  orderly : Orderly cache

theorem sound_kept : Kept Cache.fits Sound where
  accepted fit sound taken :=
    { accounted := accounted_kept.accepted fit sound.accounted taken
      orderly := ((orderly_kept Cache.fits).accepted fit
        ⟨sound.accounted.coherent, sound.orderly⟩ taken).2 }
  advanced sound taken :=
    { accounted := accounted_kept.advanced sound.accounted taken
      orderly := ((orderly_kept Cache.fits).advanced
        ⟨sound.accounted.coherent, sound.orderly⟩ taken).2 }

/-- Two caches at rest at the same point of the same program.  As long as the clock does not wrap
this is what moves preserve; in the middle of a move the caches need not correspond. -/
structure Paired (first second : Cache) : Prop where
  alike : Alike first second
  waiting : Waiting first.stack
  firstSound : Sound first
  secondSound : Sound second

theorem Meets.settle {first second : Cache} (meets : Meets first second) (firstSound : Sound first)
    (secondSound : Sound second) : Paired first.settle second.settle := by
  rcases meets with ⟨firstEnd, secondEnd, firstLeads, secondLeads, alike, waiting⟩
  have firstSettled := isSettled_of_waiting waiting
  have secondSettled := isSettled_of_waiting (alike.stack ▸ waiting : Waiting secondEnd.stack)
  have firstEnds := firstLeads.settle firstSettled firstSound.accounted.coherent firstSound.orderly
  have secondEnds :=
    secondLeads.settle secondSettled secondSound.accounted.coherent secondSound.orderly
  exact
    { alike := firstEnds ▸ secondEnds ▸ alike
      waiting := firstEnds ▸ waiting
      firstSound := sound_kept.advanceBy _ firstSound
      secondSound := sound_kept.advanceBy _ secondSound }

theorem accesses_settle (cache : Cache) : cache.accesses ≤ cache.settle.accesses :=
  accesses_le_of_suffix
    ((journal_suffix_kept cache.journal anyMove).advanceBy _ List.suffix_rfl)

namespace Paired

variable {first second : Cache}

/-- What one of the two caches accepts the other accepts too. -/
theorem accept (paired : Paired first second) {move : Move} (fit : first.fits move = true)
    {firstNext : Cache} (taken : first.accept move = some firstNext) :
    ∃ secondNext, second.accept move = some secondNext ∧
      secondNext.accesses = firstNext.accesses ∧
      (firstNext.accesses < 2 ^ 64 → Paired firstNext.settle secondNext.settle) := by
  have alsoFit : second.fits move = true := (paired.alike.fits move).trans fit
  rcases follows_of_accepted paired.alike paired.waiting paired.firstSound.accounted.indexed
    paired.secondSound.accounted.weighed paired.secondSound.accounted.coherent.staged alsoFit
    (accepted_of_accept taken) with ⟨secondNext, alsoTaken, accesses, meets⟩
  refine ⟨secondNext, accept_of_accepted alsoTaken, accesses, fun few => ?_⟩
  exact (meets few).settle (sound_kept.accepted fit paired.firstSound (accepted_of_accept taken))
    (sound_kept.accepted alsoFit paired.secondSound alsoTaken)

theorem perform (paired : Paired first second) {move : Move} (fit : first.fits move = true)
    {next : Cache} (made : first.perform move = some next) (few : next.accesses < 2 ^ 64) :
    ∃ other, second.fits move = true ∧ second.perform move = some other ∧ Paired next other := by
  rcases Option.map_eq_some_iff.mp made with ⟨moved, taken, rfl⟩
  rcases paired.accept fit taken with ⟨alsoMoved, alsoTaken, -, again⟩
  have before := Nat.lt_of_le_of_lt (accesses_settle moved) few
  refine ⟨alsoMoved.settle, (paired.alike.fits move).trans fit, ?_, again before⟩
  rw [Cache.perform, alsoTaken]
  rfl

/-- The same the other way round: a move of the second cache is one of the first, and moves have
one outcome only. -/
theorem performed (paired : Paired first second) {move : Move} (fit : second.fits move = true)
    {other : Cache} (made : second.perform move = some other) (few : other.accesses < 2 ^ 64) :
    ∃ next, first.fits move = true ∧ first.perform move = some next ∧ Paired next other := by
  rcases Option.map_eq_some_iff.mp made with ⟨alsoMoved, alsoTaken, rfl⟩
  have alsoFit : first.fits move = true := (paired.alike.fits move).symm.trans fit
  have accepts := accept_isSome_of_stack paired.alike.stack move
  rw [alsoTaken, Option.isSome_some] at accepts
  rcases Option.isSome_iff_exists.mp accepts.symm with ⟨moved, taken⟩
  rcases paired.accept alsoFit taken with ⟨found, alsoFound, accesses, again⟩
  rw [alsoTaken] at alsoFound
  cases alsoFound
  have before := Nat.lt_of_le_of_lt (accesses_settle alsoMoved) few
  refine ⟨moved.settle, alsoFit, ?_, again (accesses ▸ before)⟩
  rw [Cache.perform, taken]
  rfl

theorem run (paired : Paired first second) {moves : List Move} {final : Cache}
    (run : Run fits first moves final) (few : final.accesses < 2 ^ 64) :
    ∃ other, Run fits second moves other ∧ Paired final other := by
  induction run generalizing second with
  | done => exact ⟨second, .done, paired⟩
  | step may made rest ih =>
      have before := Nat.lt_of_le_of_lt (accesses_le_of_suffix rest.journal_suffix) few
      rcases paired.perform may made before with ⟨next, alsoMay, alsoMade, again⟩
      rcases ih again few with ⟨other, alsoRest, ends⟩
      exact ⟨other, .step alsoMay alsoMade alsoRest, ends⟩

theorem ran (paired : Paired first second) {moves : List Move} {final : Cache}
    (run : Run fits second moves final) (few : final.accesses < 2 ^ 64) :
    ∃ other, Run fits first moves other ∧ Paired other final := by
  induction run generalizing first with
  | done => exact ⟨first, .done, paired⟩
  | step may made rest ih =>
      have before := Nat.lt_of_le_of_lt (accesses_le_of_suffix rest.journal_suffix) few
      rcases paired.performed may made before with ⟨next, alsoMay, alsoMade, again⟩
      rcases ih again few with ⟨other, alsoRest, ends⟩
      exact ⟨other, .step alsoMay alsoMade alsoRest, ends⟩

end Paired

/-- What callers, loaders and a recording listener can tell of two caches is the same: what is
stored, the accounts, the calls under way, and all that was asked, loaded, answered and reported,
in order.  So is what was removed, reported or not. -/
structure SameView (first second : Cache) : Prop where
  values : ∀ key, (first.store.entries.get? key).map CachedBlock.value =
    (second.store.entries.get? key).map CachedBlock.value
  size : first.size = second.size
  weight : first.weight = second.weight
  counters : first.counters = second.counters
  stack : first.stack = second.stack
  seen : Cache.seen first.journal = Cache.seen second.journal
  removals : first.removals.map Removal.timeless = second.removals.map Removal.timeless

theorem Alike.sameView {first second : Cache} (alike : Alike first second) :
    SameView first second := by
  cases alike with
  | @intro lazy exact listener loads counters stack calls journal other mirrors _ _ look =>
      constructor
      · intro key
        change (lazy.entries.get? key).map _ = (exact.entries.get? key).map _
        cases held : lazy.entries.get? key with
        | none => rw [mirrors.absent held]
        | some block =>
            rcases mirrors.held held with ⟨found, present, value, -⟩
            rw [present, Option.map_some, Option.map_some, value]
      · have lengths := congrArg List.length mirrors.blocks
        simpa [size, Store.entries, Table.size, holdingsOf] using lengths.symm
      · exact mirrors.weight.symm
      · rfl
      · rfl
      · exact look.seen
      · exact look.gone

/-- A program does the same on either kind of cache, the simple one without a limit on the number
of blocks: every sequence of moves that one of them can make the other can make too, and the two
caches then look the same.  Every beginning of such a sequence is one as well, so they look the
same after each move, calls made from inside loaders included. -/
theorem kinds_agree (budget : UInt64) (listener : Listener) (quiet : listener ≠ .interactive)
    (moves : List Move) :
    (∀ lazy, Run fits (start (.weighted (.empty budget)) listener) moves lazy →
      lazy.accesses < 2 ^ 64 →
      ∃ exact, Run fits (start (.simple (.empty budget none)) listener) moves exact ∧
        SameView lazy exact) ∧
      ∀ exact, Run fits (start (.simple (.empty budget none)) listener) moves exact →
        exact.accesses < 2 ^ 64 →
        ∃ lazy, Run fits (start (.weighted (.empty budget)) listener) moves lazy ∧
          SameView lazy exact := by
  have paired : Paired (start (.weighted (.empty budget)) listener)
      (start (.simple (.empty budget none)) listener) :=
    { alike := .intro (mirrors_empty budget) rfl quiet .refl
      waiting := nofun
      firstSound := ⟨accounted_start .weighted budget none listener, orderly_start _ _⟩
      secondSound := ⟨accounted_start .simple budget none listener, orderly_start _ _⟩ }
  constructor
  · intro lazy run few
    rcases paired.run run few with ⟨exact, alsoRun, ends⟩
    exact ⟨exact, alsoRun, ends.alike.sameView⟩
  · intro exact run few
    rcases paired.ran run few with ⟨lazy, alsoRun, ends⟩
    exact ⟨lazy, alsoRun, ends.alike.sameView⟩

/-- Three loads, the first block used again before the third one needs room; then a load during
which another call waits for it and everything is invalidated. -/
def overtakenLoads : List Move :=
  loadMoves ⟨⟨0⟩, 0, 0, .index 1⟩ (.standIn 6 "") ++ loadMoves ⟨⟨0⟩, 0, 0, .index 2⟩ (.standIn 6 "")
    ++ [.begin (.find ⟨⟨0⟩, 0, 0, .index 1⟩)]
    ++ loadMoves ⟨⟨0⟩, 0, 0, .index 3⟩ (.standIn 6 "")
    ++ [.begin (.load ⟨⟨0⟩, 0, 0, .index 2⟩), .claim, .begin (.load ⟨⟨0⟩, 0, 0, .index 2⟩), .claim,
      .begin (.invalidate .everything), .loaderReturns (.standIn 5 "")]

theorem kinds_agree_overtaken :
    let lazy := reached fits (start (.weighted (.empty 15)) .recording) overtakenLoads
    let exact := reached fits (start (.simple (.empty 15 none)) .recording) overtakenLoads
    (∃ other, Run fits (start (.simple (.empty 15 none)) .recording) overtakenLoads other ∧
        SameView lazy other) ∧
      (∃ other, Run fits (start (.weighted (.empty 15)) .recording) overtakenLoads other ∧
        SameView other exact) ∧
      lazy.counters.evictions = 1 ∧ lazy.counters.invalidations = 3 := by
  have agree := kinds_agree 15 .recording (by decide) overtakenLoads
  exact ⟨agree.1 _ (run_reached (by decide +kernel)) (by decide +kernel),
    agree.2 _ (run_reached (by decide +kernel)) (by decide +kernel), by decide +kernel,
    by decide +kernel⟩

end Cache
end VolumeCache
