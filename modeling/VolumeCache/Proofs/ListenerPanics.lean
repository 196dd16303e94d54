import VolumeCache.Proofs.Limits
import VolumeCache.Proofs.Settling

namespace VolumeCache

/-!
# Listeners that panic

A cache with a simple store removes and counts before it tells the listener, and what it has yet to
tell of is of no consequence for what it holds.  So a panic of the listener, at whichever removal,
leaves nothing undone but the telling: the call ends as it would have ended without a listener.
There is one exception.  Whether a loaded value may stay is decided after the listener was told of
what had to make room for it, so a panic there lets an overtaken value stay.
-/

namespace Frame

/-- The frames of a cache with a simple store. -/
def isPlain : Frame → Bool
  | .claiming .. => true
  | .loading .. => true
  | .listening _ => true
  | .concluding _ => true
  | .reporting .. => true
  | _ => false

end Frame

namespace Cache

open PendingLoad

variable {cache next : Cache} {base : Nat}

def listeners (cache : Cache) : Nat :=
  cache.stack.countP Frame.isListening

/-! ## How a call ends if nobody is told -/

/-- The cache without a listener and with a blank journal.  What is stored, counted and running does
not depend on either. -/
def silenced (cache : Cache) : Cache :=
  { cache with listener := .absent, journal := [] }

/-- The cache once a load is over; an overtaken value is taken back first.  Only caches with a
simple store are meant, so a weighted one is left as it is. -/
def resolved (cache : Cache) (admission : Admission) : Cache :=
  let freed := { cache with loads := released cache.loads admission.call admission.key }
  if cache.isOvertaken admission.key then
    match cache.store with
    | .simple store =>
        match store.remove? admission.key with
        | some (_, left) =>
            { freed with
              store := .simple left
              counters := cache.counters.recordInvalidations 1 }
        | none => freed
    | .weighted _ => freed
  else freed

/-- The cache once the call of a frame has ended, if it has control.  The listener is not told of
what still has to be reported. -/
def closed (cache : Cache) : Frame → Cache
  | .concluding admission => cache.resolved admission
  | .reporting _ (.conclude admission) => cache.resolved admission
  | .reporting _ (.finish admission) =>
      { cache with loads := released cache.loads admission.call admission.key }
  | .reporting _ (.close _ _ _) => cache
  | frame => cache.push frame

/-- The cache with this stack once the innermost call has ended, if it has control. -/
def ended (cache : Cache) : List Frame → Cache
  | [] => { cache with stack := [] }
  | frame :: rest => { cache with stack := rest }.closed frame

/-- Where a cache gets if nobody is told of anything any more.  Of the listener's runs so many do
not count; if there is one more, it is the innermost and is left at once.  No frame is run through
step by step for it, so two caches can be compared while one of them is still telling its listener.
-/
def outcome (base : Nat) (cache : Cache) : Cache :=
  cache.silenced.ended (if base < cache.listeners then cache.stack.tail else cache.stack)

theorem ended_of_rests {stack : List Frame} (outside : rests stack = true) :
    cache.ended stack = { cache with stack := stack } := by
  cases stack with
  | nil => rfl
  | cons frame rest => cases frame <;> simp_all [rests, Frame.isOutside, ended, closed, push]

theorem outcome_of_isSettled (settled : cache.isSettled = true) (heard : cache.listeners = base) :
    cache.outcome base = cache.silenced := by
  rw [isSettled_eq] at settled
  rw [outcome, if_neg (heard ▸ Nat.lt_irrefl base), ended_of_rests settled]
  rfl

/-! ## Caches with a simple store -/

/-- What is known of a cache with a simple store in every state, whatever panics.  There are no
passes and no sweeps among its frames, so a listener runs only above a frame that reports. -/
structure Plain (cache : Cache) : Prop where
  coherent : Coherent cache
  orderly : Orderly cache
  kind : cache.kind = .simple
  frames : ∀ frame ∈ cache.stack, frame.isPlain = true

@[simp] theorem isPlain_sequelOf (admission : Admission) (removals : List Removal) :
    (sequelOf admission removals).isPlain = true := by
  cases removals <;> rfl

theorem plain_kept (allowed : Cache → Move → Bool) : Kept allowed Plain where
  accepted may plain taken := by
    rcases changed_of_accepted plain.coherent.staged taken with ⟨change, changed, -, -⟩
    have known := (orderly_kept allowed).accepted may ⟨plain.coherent, plain.orderly⟩ taken
    refine ⟨known.1, known.2, changed.kind.trans plain.kind, ?_⟩
    have before := plain.frames
    cases taken with
    | dropped _ weighted | nothingDropped _ weighted | sweepBegun _ weighted
    | passBegun _ weighted | stored _ weighted =>
        exact absurd weighted (not_weighted plain.kind _)
    | simplyStored top =>
        intro frame member
        rcases List.mem_cons.mp member with rfl | below
        · exact isPlain_sequelOf _ _
        · exact before frame (top ▸ List.mem_cons_of_mem _ below)
    | _ => simp_all [Frame.isPlain]
  advanced plain taken := by
    have changed := (changed_of_advanced taken).1
    have known := (orderly_kept anyMove).advanced ⟨plain.coherent, plain.orderly⟩ taken
    refine ⟨known.1, known.2, changed.kind.trans plain.kind, ?_⟩
    have before := plain.frames
    cases taken with
    | reported top =>
        intro frame member
        rcases List.mem_append.mp member with listens | stays
        · rw [(Listener.mem_running.mp listens).2]
          rfl
        · rcases List.mem_cons.mp stays with rfl | below
          · rfl
          · exact before frame (top ▸ List.mem_cons_of_mem _ below)
    | retracted _ _ weighted | swept _ weighted | passedOver _ weighted | outdated _ weighted
    | evicted _ weighted | passEnded _ weighted | sweepEnded _ weighted =>
        exact absurd weighted (not_weighted plain.kind _)
    | _ => simp_all [Frame.isPlain]

/-- The listener is about to be heard of, or it is running.  It is not running twice, for a listener
that begins nothing has no other one above it. -/
def Heard (base : Nat) (cache : Cache) : Prop :=
  cache.listeners = base ∨
    (cache.listeners = base + 1 ∧ ∃ removal rest, cache.stack = .listening removal :: rest)

theorem Plain.simple (plain : Plain cache) : ∃ store, cache.store = .simple store := by
  cases held : cache.store with
  | weighted store => exact absurd held (not_weighted plain.kind store)
  | simple store => exact ⟨store, rfl⟩

theorem Plain.rests_below (plain : Plain cache) {frame : Frame} {rest : List Frame}
    (top : cache.stack = frame :: rest) (control : frame.isListening = false) :
    rests rest = true := by
  have nested := plain.orderly.nested
  rw [top] at nested
  exact nested.1.resolve_left (by simp [control])

/-- Where the cache gets is where it has control of itself and goes to. -/
theorem outcome_of_top {frame : Frame} {rest : List Frame} (top : cache.stack = frame :: rest)
    (heard : cache.listeners = base) :
    cache.outcome base = { cache.silenced with stack := rest }.closed frame := by
  rw [outcome, if_neg (heard ▸ Nat.lt_irrefl base), top]
  rfl

/-- While the listener is running it is as if it had already returned. -/
theorem outcome_of_listening {removal : Removal} {frame : Frame} {rest : List Frame}
    (top : cache.stack = .listening removal :: frame :: rest) (running : base < cache.listeners) :
    cache.outcome base = { cache.silenced with stack := rest }.closed frame := by
  rw [outcome, if_pos running, top]
  rfl

theorem outcome_of_end (plain : Plain cache) {frame : Frame} {rest : List Frame}
    (top : cache.stack = frame :: rest) (control : frame.isListening = false)
    (heard : cache.listeners = base) (left : next.stack = rest)
    (ends : next.silenced = { cache.silenced with stack := rest }.closed frame) :
    next.outcome base = cache.outcome base ∧ Heard base next := by
  have settled : next.isSettled = true := by
    rw [isSettled_eq, left]
    exact plain.rests_below top control
  have still : next.listeners = base := by
    rw [← heard]
    simp [listeners, left, top, control]
  exact ⟨by rw [outcome_of_isSettled settled still, outcome_of_top top heard, ends], Or.inl still⟩

theorem outcome_of_turn {frame other : Frame} {rest : List Frame}
    (top : cache.stack = frame :: rest) (control : frame.isListening = false)
    (heard : cache.listeners = base) (turned : next.stack = other :: rest)
    (alsoControl : other.isListening = false)
    (same : { next.silenced with stack := rest }.closed other =
      { cache.silenced with stack := rest }.closed frame) :
    next.outcome base = cache.outcome base ∧ Heard base next := by
  have still : next.listeners = base := by
    rw [← heard]
    simp [listeners, turned, top, control, alsoControl]
  exact ⟨by rw [outcome_of_top turned still, outcome_of_top top heard, same], Or.inl still⟩

theorem outcome_of_call {removal : Removal} {frame other : Frame} {rest : List Frame}
    (top : cache.stack = frame :: rest) (control : frame.isListening = false)
    (heard : cache.listeners = base) (called : next.stack = .listening removal :: other :: rest)
    (alsoControl : other.isListening = false)
    (same : { next.silenced with stack := rest }.closed other =
      { cache.silenced with stack := rest }.closed frame) :
    next.outcome base = cache.outcome base ∧ Heard base next := by
  have more : next.listeners = base + 1 := by
    have listens : (Frame.listening removal).isListening = true := rfl
    rw [← heard]
    simp [listeners, called, top, control, alsoControl, listens]
  have running : base < next.listeners := more ▸ Nat.lt_succ_self base
  exact ⟨by rw [outcome_of_listening called running, outcome_of_top top heard, same],
    Or.inr ⟨more, removal, _, called⟩⟩

/-- A step of its own gets a cache no nearer to another end.  This is the invariant of the
comparison: steps, reports and the listener's own moves leave the outcome alone. -/
theorem outcome_of_advanced (plain : Plain cache) (heard : cache.listeners = base)
    (taken : Advanced cache next) : next.outcome base = cache.outcome base ∧ Heard base next := by
  cases taken with
  | retracted _ _ weighted | swept _ weighted | passedOver _ weighted | outdated _ weighted
  | evicted _ weighted | passEnded _ weighted | sweepEnded _ weighted =>
      exact absurd weighted (not_weighted plain.kind _)
  | retractionCounted top | dropCounted top =>
      have listed := plain.frames _ (top ▸ List.mem_cons_self)
      cases listed
  | kept top fresh =>
      refine outcome_of_end plain top rfl heard rfl ?_
      simp only [isOvertaken] at fresh
      simp [closed, resolved, silenced, isOvertaken, fresh]
  | goneAlready top stale absent =>
      refine outcome_of_end plain top rfl heard rfl ?_
      rcases plain.simple with ⟨store, simple⟩
      rw [simple] at absent
      have missing := SimpleStore.remove?_eq_none_iff.mpr absent
      simp only [isOvertaken] at stale
      simp [closed, resolved, silenced, isOvertaken, stale, simple, missing]
  | takenBack top stale simple found =>
      refine outcome_of_turn top rfl heard rfl rfl ?_
      simp only [isOvertaken] at stale
      simp [closed, resolved, silenced, isOvertaken, stale, simple, found]
  | admissionReported top => exact outcome_of_turn top rfl heard rfl rfl rfl
  | retractionReported top | clearingReported top =>
      exact outcome_of_end plain top rfl heard rfl rfl
  | @reported removal removals sequel rest top =>
      have same : ∀ bare : Cache, bare.closed (.reporting removals sequel) =
          bare.closed (.reporting (removal :: removals) sequel) := fun _ => by cases sequel <;> rfl
      cases listening : cache.listener with
      | absent | recording =>
          refine outcome_of_turn top rfl heard ?_ rfl (same _)
          simp [Listener.running]
      | interactive =>
          have called : Listener.interactive.running removal ++ .reporting removals sequel :: rest =
              .listening removal :: .reporting removals sequel :: rest := rfl
          exact outcome_of_call top rfl heard called rfl (same _)

/-! ## Where moves lead -/

def Move.isListeners : Move → Bool
  | .listenerReturns => true
  | .listenerPanics _ => true
  | _ => false

/-- No panic keeps an overtaken value from being taken back: the listener does not panic while it is
told of what had to make room for such a value.  All other panics of the listener are allowed. -/
def sparesOvertaken (cache : Cache) : Move → Bool
  | .listenerPanics _ =>
      match cache.stack with
      | .listening _ :: .reporting _ (.conclude admission) :: _ => !cache.isOvertaken admission.key
      | _ => true
  | _ => true

theorem advance_of_listening {removal : Removal} {rest : List Frame}
    (top : cache.stack = .listening removal :: rest) : cache.advance = none :=
  advance_of_isSettled (by rw [isSettled_eq, top]; rfl)

theorem outcome_advanceBy (plain : Plain cache) (heard : Heard base cache) (steps : Nat) :
    (cache.advanceBy steps).outcome base = cache.outcome base ∧
      Heard base (cache.advanceBy steps) := by
  induction steps generalizing cache with
  | zero => exact ⟨rfl, heard⟩
  | succ steps ih =>
      unfold advanceBy
      cases taken : cache.advance with
      | none => exact ⟨rfl, heard⟩
      | some next =>
          rcases heard with still | ⟨-, removal, rest, top⟩
          · have listed := advanced_of_advance taken
            have goes := outcome_of_advanced plain still listed
            have later := ih ((plain_kept anyMove).advanced plain listed) goes.2
            exact ⟨later.1.trans goes.1, later.2⟩
          · rw [advance_of_listening top] at taken
            cases taken

/-- A call left by a panic has ended as it would have had to.  What it had counted and removed by
then is all that it would have counted and removed. -/
theorem outcome_of_unwound (plain : Plain cache) {removal : Removal} {frame : Frame}
    {rest : List Frame} (top : cache.stack = .listening removal :: frame :: rest)
    (control : frame.isListening = false) (running : cache.listeners = base + 1)
    (left : next.stack = rest)
    (ends : next.silenced = { cache.silenced with stack := rest }.closed frame) :
    next.outcome base = cache.outcome base ∧ next.listeners = base := by
  have nested := plain.orderly.nested
  rw [top] at nested
  have settled : next.isSettled = true := by
    rw [isSettled_eq, left]
    exact nested.2.1.resolve_left (by simp [control])
  have listens : (Frame.listening removal).isListening = true := rfl
  have still : next.listeners = base := by
    simp only [listeners, top, List.countP_cons, listens, control] at running
    simpa [listeners, left] using running
  have more : base < cache.listeners := running ▸ Nat.lt_succ_self base
  exact ⟨by rw [outcome_of_isSettled settled still, outcome_of_listening top more, ends], still⟩

/-- A listener that returns or panics leaves its call where it would have gone without it. -/
theorem outcome_of_listener {move : Move} (plain : Plain cache) (heard : Heard base cache)
    (running : base < cache.listeners) (inner : move.isListeners = true)
    (spares : cache.sparesOvertaken move = true) (taken : Accepted cache move next) :
    next.outcome base = cache.outcome base ∧ next.listeners = base := by
  have one : cache.listeners = base + 1 := by
    rcases heard with still | ⟨more, -⟩
    · exact absurd running (still ▸ Nat.lt_irrefl _)
    · exact more
  cases taken with
  | @listenerReturned removal rest top =>
      have listens : (Frame.listening removal).isListening = true := rfl
      have still : ({ cache with stack := rest } : Cache).listeners = base := by
        simpa [listeners, top, listens] using one
      refine ⟨?_, still⟩
      rw [outcome, outcome, if_neg (still ▸ Nat.lt_irrefl base), if_pos running, top]
      rfl
  | passUnwound top =>
      have listed := plain.frames _ (top ▸ List.mem_cons_of_mem _ List.mem_cons_self)
      cases listed
  | loadUnwound top leading =>
      rcases leading with rfl | ⟨removals, rfl⟩ | ⟨removals, rfl⟩
      · have listed := plain.frames _ (top ▸ List.mem_cons_of_mem _ List.mem_cons_self)
        cases listed
      · refine outcome_of_unwound plain top rfl one rfl ?_
        simp only [sparesOvertaken, top, isOvertaken] at spares
        simp_all [closed, resolved, silenced, isOvertaken]
      · exact outcome_of_unwound plain top rfl one rfl rfl
  | clearingUnwound top clearing =>
      rcases clearing with rfl | ⟨_, _, _, rfl⟩ | ⟨_, _, _, rfl⟩
      · have listed := plain.frames _ (top ▸ List.mem_cons_of_mem _ List.mem_cons_self)
        cases listed
      · have listed := plain.frames _ (top ▸ List.mem_cons_of_mem _ List.mem_cons_self)
        cases listed
      · exact outcome_of_unwound plain top rfl one rfl rfl
  | _ => cases inner

/-! ## With a listener and without -/

theorem outcome_of_silenced {other : Cache} (same : other.silenced = cache.silenced) :
    other.outcome base = cache.outcome base := by
  have outcome_eq : ∀ one : Cache, one.outcome base = one.silenced.outcome base := fun _ => rfl
  rw [outcome_eq, same, ← outcome_eq]

theorem listeners_of_silenced {other : Cache} (same : other.silenced = cache.silenced) :
    other.listeners = cache.listeners := by
  have below : other.silenced.stack = cache.silenced.stack := congrArg Cache.stack same
  exact congrArg (List.countP Frame.isListening) below

/-- A move that is not the listener's does the same whoever listens.  The two caches may differ in
their listeners and in their journals and in nothing else. -/
theorem accepted_alike {other : Cache} {move : Move} (kind : cache.kind = .simple)
    (same : other.silenced = cache.silenced) (outer : move.isListeners = false)
    (taken : Accepted cache move next) :
    ∃ after, Accepted other move after ∧ after.silenced = next.silenced := by
  rcases cache with ⟨store, listener, loads, counters, stack, calls, journal⟩
  rcases other with ⟨otherStore, whoever, otherLoads, otherCounters, otherStack, otherCalls, other⟩
  simp only [silenced, Cache.mk.injEq, true_and, and_true] at same
  rcases same with ⟨rfl, rfl, rfl, rfl, rfl⟩
  cases taken with
  | found settled held => exact ⟨_, .found settled held, rfl⟩
  | missing settled absent => exact ⟨_, .missing settled absent, rfl⟩
  | hit settled held => exact ⟨_, .hit settled held, rfl⟩
  | opened settled absent => exact ⟨_, .opened settled absent, rfl⟩
  | cleared settled simple found => exact ⟨_, .cleared settled simple found, rfl⟩
  | joined top running => exact ⟨_, .joined top running, rfl⟩
  | lateHit top free held => exact ⟨_, .lateHit top free held, rfl⟩
  | claimed top free absent => exact ⟨_, .claimed top free absent, rfl⟩
  | simplyStored top simple put => exact ⟨_, .simplyStored top simple put, rfl⟩
  | overflown top simple put => exact ⟨_, .overflown top simple put, rfl⟩
  | failed top => exact ⟨_, .failed top, rfl⟩
  | panicked top => exact ⟨_, .panicked top, rfl⟩
  | listenerReturned | passUnwound | loadUnwound | clearingUnwound => cases outer
  | dropped _ weighted | nothingDropped _ weighted | sweepBegun _ weighted
  | passBegun _ weighted | stored _ weighted => exact absurd weighted (not_weighted kind _)

/-- A move that is not the listener's leaves as many runs of the listener as there were. -/
theorem listeners_of_accepted {move : Move} (kind : cache.kind = .simple)
    (outer : move.isListeners = false) (taken : Accepted cache move next) :
    next.listeners = cache.listeners := by
  unfold listeners
  cases taken with
  | listenerReturned | passUnwound | loadUnwound | clearingUnwound => cases outer
  | dropped _ weighted => exact absurd weighted (not_weighted kind _)
  | simplyStored top =>
      simp only [top, List.countP_cons, isListening_sequelOf]
      rfl
  | _ => simp_all [Frame.isListening]

theorem listeners_advanceBy (absent : cache.listener = .absent) (steps : Nat) :
    (cache.advanceBy steps).listeners ≤ cache.listeners := by
  induction steps generalizing cache with
  | zero => exact Nat.le_refl _
  | succ steps ih =>
      unfold advanceBy
      cases taken : cache.advance with
      | none => exact Nat.le_refl _
      | some next =>
          have listed := advanced_of_advance taken
          have still : next.listener = .absent :=
            (listener_kept .absent anyMove).advanced absent listed
          have fewer : next.listeners ≤ cache.listeners := by
            unfold listeners
            cases listed <;> simp_all [Listener.running, Frame.isListening]
          exact Nat.le_trans (ih still) fewer

/-- A cache beside one without a listener that is where the first one will get.  The second one is
at rest whenever the first one is or its listener is running. -/
structure Shadows (base : Nat) (cache other : Cache) : Prop where
  plain : Plain cache
  settled : cache.isSettled = true
  heard : Heard base cache
  otherPlain : Plain other
  absent : other.listener = .absent
  same : other.silenced = cache.outcome base

theorem Shadows.alike {other : Cache} (shadows : Shadows base cache other)
    (heard : cache.listeners = base) : other.silenced = cache.silenced :=
  shadows.same.trans (outcome_of_isSettled shadows.settled heard)

theorem Plain.settle (plain : Plain cache) :
    Plain cache.settle ∧ cache.settle.isSettled = true :=
  ⟨(plain_kept anyMove).advanceBy _ plain, settle_isSettled plain.coherent plain.orderly⟩

theorem Shadows.listened {other : Cache} {move : Move} (shadows : Shadows base cache other)
    (running : base < cache.listeners) (inner : move.isListeners = true)
    (spares : cache.sparesOvertaken move = true) (made : cache.perform move = some next) :
    Shadows base next other := by
  rcases Option.map_eq_some_iff.mp made with ⟨moved, taken, rfl⟩
  have listed := accepted_of_accept taken
  have goes := outcome_of_listener shadows.plain shadows.heard running inner spares listed
  have after := (plain_kept anyMove).accepted rfl shadows.plain listed
  have leads := outcome_advanceBy after (Or.inl goes.2) moved.stepsLeft
  exact
    { shadows with
      plain := after.settle.1
      settled := after.settle.2
      heard := leads.2
      same := shadows.same.trans (leads.1.trans goes.1).symm }

/-- Whatever is done by others than the listener can be done without it. -/
theorem Shadows.moved {other : Cache} {move : Move} (shadows : Shadows base cache other)
    (heard : cache.listeners = base) (outer : move.isListeners = false)
    (made : cache.perform move = some next) :
    ∃ after, other.perform move = some after ∧ Shadows base next after := by
  rcases Option.map_eq_some_iff.mp made with ⟨moved, taken, rfl⟩
  have listed := accepted_of_accept taken
  rcases accepted_alike shadows.plain.kind (shadows.alike heard) outer listed with
    ⟨alsoMoved, alsoListed, same⟩
  have plain := (plain_kept anyMove).accepted rfl shadows.plain listed
  have alsoPlain := (plain_kept anyMove).accepted rfl shadows.otherPlain alsoListed
  have absent : alsoMoved.listener = .absent :=
    (listener_kept .absent anyMove).accepted rfl shadows.absent alsoListed
  have count := (listeners_of_accepted shadows.plain.kind outer listed).trans heard
  have alsoCount := (listeners_of_silenced same).trans count
  have leads := outcome_advanceBy plain (Or.inl count) moved.stepsLeft
  have alsoLeads := outcome_advanceBy alsoPlain (Or.inl alsoCount) alsoMoved.stepsLeft
  have still : alsoMoved.settle.listeners = base := by
    have fewer := listeners_advanceBy absent alsoMoved.stepsLeft
    rcases alsoLeads.2 with still | ⟨more, -⟩
    · exact still
    · exact absurd fewer (by omega)
  refine ⟨alsoMoved.settle, ?_, ?_⟩
  · rw [perform, accept_of_accepted alsoListed]
    rfl
  · exact
      { plain := plain.settle.1
        settled := plain.settle.2
        heard := leads.2
        otherPlain := alsoPlain.settle.1
        absent := (listener_kept .absent anyMove).advanceBy _ absent
        same := by
          rw [← outcome_of_isSettled alsoPlain.settle.2 still]
          exact alsoLeads.1.trans ((outcome_of_silenced same).trans leads.1.symm) }

/-- The listener begins nothing of its own: when it is run, the next move is that it returns or
panics.  So many runs of it were under way before. -/
def attentive (base : Nat) (cache : Cache) (move : Move) : Bool :=
  if move.isListeners then base < cache.listeners && cache.sparesOvertaken move
  else cache.listeners = base

def others (moves : List Move) : List Move :=
  moves.filter fun move => !move.isListeners

theorem Shadows.run {final other : Cache} {moves : List Move}
    (run : Run (attentive base) cache moves final) (heard : final.listeners = base)
    (shadows : Shadows base cache other) :
    ∃ alone, Run anyMove other (others moves) alone ∧ alone.silenced = final.silenced := by
  induction run generalizing other with
  | done => exact ⟨other, .done, shadows.alike heard⟩
  | @step cache next final move later may made _ ih =>
      unfold attentive at may
      cases whose : move.isListeners with
      | true =>
          rw [if_pos whose, Bool.and_eq_true, decide_eq_true_eq] at may
          rw [others, List.filter_cons_of_neg (by simp [whose])]
          exact ih heard (shadows.listened may.1 whose may.2 made)
      | false =>
          rw [if_neg (by simp [whose]), decide_eq_true_eq] at may
          rw [others, List.filter_cons_of_pos (by simp [whose])]
          rcases shadows.moved may whose made with ⟨after, alsoMade, still⟩
          rcases ih heard still with ⟨alone, run, same⟩
          exact ⟨alone, .step rfl alsoMade run, same⟩

/-- What a cache holds, has counted and is doing, all but whom it tells and what it has told. -/
structure SameState (cache other : Cache) : Prop where
  store : cache.store = other.store
  counters : cache.counters = other.counters
  loads : cache.loads = other.loads
  stack : cache.stack = other.stack

theorem sameState_of_silenced {other : Cache} (same : other.silenced = cache.silenced) :
    SameState cache other := by
  rcases cache with ⟨store, listener, loads, counters, stack, calls, journal⟩
  rcases other with ⟨otherStore, whoever, otherLoads, otherCounters, otherStack, otherCalls, other⟩
  simp only [silenced, Cache.mk.injEq, true_and, and_true] at same
  rcases same with ⟨rfl, rfl, rfl, rfl, rfl⟩
  exact ⟨rfl, rfl, rfl, rfl⟩

theorem Plain.unheard (plain : Plain cache) : Plain { cache with listener := .absent } :=
  { coherent := plain.coherent.heardBy .absent
    orderly := plain.orderly.heardBy .absent
    kind := plain.kind
    frames := plain.frames }

/-- From every state of a cache with a simple store, whatever calls are made and in whatever order
loaders make calls of their own: if the listener begins nothing but may panic each time it is told
of something, then in the end the blocks, their order of use, the weight, the counters and the
running loads are those that the same calls leave behind when there is no listener.  Only while it
is told of what had to make room for an overtaken value must the listener not panic. -/
theorem listener_panics_harmless (budget : UInt64) (limit : Option UInt64) (listener : Listener)
    {cache final : Cache} {moves : List Move}
    (visited : Visited anyMove (start (.simple (.empty budget limit)) listener) cache)
    (settled : cache.isSettled = true)
    (run : Run (attentive cache.listeners) cache moves final)
    (heard : final.listeners = cache.listeners) :
    ∃ alone, Run anyMove { cache with listener := .absent } (others moves) alone ∧
      SameState final alone := by
  have plain := (plain_kept anyMove).visited visited
    ⟨coherent_start _ listener rfl, orderly_start _ listener, rfl, fun _ member => nomatch member⟩
  have shadows : Shadows cache.listeners cache { cache with listener := .absent } :=
    { plain := plain
      settled := settled
      heard := Or.inl rfl
      otherPlain := plain.unheard
      absent := rfl
      same := (outcome_of_isSettled settled rfl).symm }
  rcases shadows.run run heard with ⟨alone, alsoRun, same⟩
  exact ⟨alone, alsoRun, sameState_of_silenced same⟩

def threeStored : Cache :=
  reached anyMove (start (.simple (.empty 10 none)) .interactive)
    (loadMoves ⟨⟨0⟩, 0, 0, .index 1⟩ (.standIn 3 "")
      ++ loadMoves ⟨⟨0⟩, 0, 0, .index 2⟩ (.standIn 3 "")
      ++ loadMoves ⟨⟨0⟩, 0, 0, .index 3⟩ (.standIn 3 ""))

/-- A fourth block drives out two others, and the listener panics at the second one; everything that
is left is dropped, and the listener panics at the first one. -/
def panickedMoves : List Move :=
  loadMoves ⟨⟨0⟩, 0, 0, .index 4⟩ (.standIn 6 "")
    ++ [.listenerReturns, .listenerPanics "second", .begin (.invalidate .everything),
      .listenerPanics "first"]

def panickedTwice : Cache :=
  reached (attentive threeStored.listeners) threeStored panickedMoves

theorem listener_panics_harmless_twice :
    panickedTwice.stack = [] ∧ panickedTwice.reports.length = 3 ∧
      panickedTwice.removals.length = 4 ∧ panickedTwice.size = 0 ∧
      panickedTwice.counters.invalidations = 2 ∧
      ∃ alone, Run anyMove { threeStored with listener := .absent } (others panickedMoves) alone ∧
        SameState panickedTwice alone := by
  have visited : Visited anyMove (start (.simple (.empty 10 none)) .interactive) threeStored :=
    .of_run (run_reached (by decide +kernel))
  have harmless := listener_panics_harmless 10 none .interactive visited (by decide +kernel)
    (run_reached (by decide +kernel) : Run _ threeStored panickedMoves panickedTwice)
    (by decide +kernel)
  exact ⟨by decide +kernel, by decide +kernel, by decide +kernel, by decide +kernel,
    by decide +kernel, harmless⟩

end Cache
end VolumeCache
