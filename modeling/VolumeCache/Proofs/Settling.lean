import VolumeCache.Proofs.Changes

namespace VolumeCache

/-!
# Control comes back

After every move the cache works on its own until control is outside it again.  That this always
happens, and within the number of steps set aside for it, follows from a count of the work that is
left: a record of the index is examined at most twice, and every other step shortens a list or
takes a frame away.  The listener may be of any sort; a listener that gets control only brings it
back earlier.
-/

namespace Timeline

variable {κ : Type}

theorem length_place_le (tick : UInt64) (what : κ) (records : List (UInt64 × κ)) :
    (place tick what records).length ≤ records.length + 1 := by
  induction records with
  | nil => simp [place]
  | cons first rest ih =>
      unfold place
      split
      · simp
      · split
        · simp
        · simpa using ih

theorem countP_place_le {test : UInt64 × κ → Bool} {tick : UInt64} {what : κ}
    (fails : test (tick, what) = false) (records : List (UInt64 × κ)) :
    (place tick what records).countP test ≤ records.countP test := by
  induction records with
  | nil => simp [place, fails]
  | cons first rest ih =>
      unfold place
      split
      · simp [List.countP_cons, fails]
      · split
        · simp [List.countP_cons, fails]
        · simp only [List.countP_cons]
          omega

end Timeline

namespace WeightedStore

/-- The record is of a block that was used later. -/
def isLate (store : WeightedStore) (record : UInt64 × BlockKey) : Bool :=
  match store.entries.get? record.2 with
  | some block => block.lastAccess != record.1
  | none => false

/-- How many records a pass can still examine: each one once, and those that come back once more.  A
record comes back at the time of its block's last use, so it does not come back again. -/
def examinations (store : WeightedStore) : Nat :=
  store.recency.records.length + store.recency.records.countP store.isLate

theorem examinations_le (store : WeightedStore) :
    store.examinations ≤ 2 * store.recency.size := by
  have late : store.recency.records.countP store.isLate ≤ store.recency.records.length :=
    List.countP_le_length
  unfold examinations Timeline.size
  omega

theorem examinations_outdated {store left : WeightedStore}
    (first : store.examine = .outdated left) : left.examinations < store.examinations := by
  rcases examine_eq_outdated first with
    ⟨tick, key, rest, popped, ⟨absent, rfl⟩ | ⟨block, held, later, rfl⟩⟩
  · have records := Timeline.popFirst?_eq_some popped
    have notLate : store.isLate (tick, key) = false := by simp [isLate, absent]
    have same : isLate { store with recency := rest } = store.isLate := rfl
    unfold examinations
    rw [records, List.length_cons, List.countP_cons, notLate, same]
    simp
  · have records := Timeline.popFirst?_eq_some popped
    have isLate_first : store.isLate (tick, key) = true := by simp [isLate, held, later]
    have current : store.isLate (block.lastAccess, key) = false := by simp [isLate, held]
    have same : isLate { store with recency := rest.insert block.lastAccess key } =
      store.isLate := rfl
    have fewer := Timeline.countP_place_le current rest.records
    have length := Timeline.length_place_le block.lastAccess key rest.records
    unfold examinations
    rw [records, List.length_cons, List.countP_cons, isLate_first, same]
    change (Timeline.place _ _ _).length + (Timeline.place _ _ _).countP _ < _
    simp only [if_true]
    omega

theorem examinations_evicted {store left : WeightedStore} {key : BlockKey} {block : CachedBlock}
    (first : store.examine = .evicted left key block) : left.examinations < store.examinations := by
  rcases examine_eq_evicted first with ⟨rest, popped, held, rfl⟩
  have records := Timeline.popFirst?_eq_some popped
  -- Records of the evicted block may be left, but none of them comes back.
  have fewer : rest.records.countP (discard { store with recency := rest } key block).isLate ≤
      rest.records.countP store.isLate := by
    apply List.countP_mono_left
    intro record _ late
    unfold isLate at late ⊢
    change (match (store.entries.erase key).get? record.2 with
      | some block => block.lastAccess != record.1
      | none => false) = true at late
    rw [Table.get?_erase] at late
    split at late
    · simp_all
    · simp_all
  unfold examinations
  rw [records, List.length_cons, List.countP_cons]
  change rest.records.length + rest.records.countP _ < _
  omega

end WeightedStore

namespace Frame

def isListening : Frame → Bool
  | .listening _ => true
  | _ => false

def isWeighted : Frame → Bool
  | .evicting .. => true
  | .sweeping .. => true
  | _ => false

/-- A bound on the steps that a frame and what follows it can take before it is taken off. -/
def work (store : Store) : Frame → Nat
  | .claiming .. => 0
  | .loading .. => 0
  | .listening _ => 0
  | .evicting .. =>
      match store with
      | .weighted inner => inner.examinations + 4
      | .simple _ => 4
  | .concluding _ => 3
  | .retracting _ => 1
  | .dropping _ => 1
  | .sweeping _ _ doomed _ => doomed.length + 1
  | .reporting removals (.conclude _) => removals.length + 4
  | .reporting removals _ => removals.length + 1

end Frame

namespace Cache

/-! ## The order of the stack -/

/-- The innermost frame, if there is one, leaves control outside. -/
def rests : List Frame → Bool
  | [] => true
  | frame :: _ => frame.isOutside

theorem isSettled_eq (cache : Cache) : cache.isSettled = rests cache.stack := by
  unfold isSettled rests
  cases cache.stack <;> rfl

/-- A frame that has control stands above the frames of callers, or the listener stands above it.
So beneath a frame that has control there is none that has it, too, unless a listener stands in
between. -/
def Nested : List Frame → Prop
  | [] => True
  | frame :: below => (frame.isListening = true ∨ rests below = true) ∧ Nested below

/-- The frames stand in order and suit the store.  This is all that is needed for a next step to be
there until control is outside; nothing is said of what is stored or counted. -/
structure Orderly (cache : Cache) : Prop where
  nested : Nested cache.stack
  seated : ∀ frame ∈ cache.stack, frame.isWeighted = true → cache.kind = .weighted

theorem nested_running {listener : Listener} {removal : Removal} {stack : List Frame}
    (nested : Nested stack) : Nested (listener.running removal ++ stack) := by
  cases listener with
  | absent | recording => exact nested
  | interactive => exact ⟨Or.inl rfl, nested⟩

@[simp] theorem isListening_sequelOf (admission : Admission) (removals : List Removal) :
    (sequelOf admission removals).isListening = false := by
  cases removals <;> rfl

@[simp] theorem isWeighted_sequelOf (admission : Admission) (removals : List Removal) :
    (sequelOf admission removals).isWeighted = false := by
  cases removals <;> rfl

theorem nested_of_accepted {cache next : Cache} {move : Move} (nested : Nested cache.stack)
    (taken : Accepted cache move next) : Nested next.stack := by
  cases taken with
  | found | missing | hit | nothingDropped => exact nested
  | opened settled | sweepBegun settled | cleared settled =>
      exact ⟨Or.inr (isSettled_eq cache ▸ settled), nested⟩
  | dropped settled => exact nested_running ⟨Or.inr (isSettled_eq cache ▸ settled), nested⟩
  | joined top | lateHit top | overflown top | failed top | panicked top | listenerReturned top =>
      rw [top] at nested
      exact nested.2
  | claimed top | passBegun top | stored top | simplyStored top =>
      rw [top] at nested
      rcases nested with ⟨listening | below, rest⟩
      · cases listening
      · exact ⟨Or.inr below, rest⟩
  | passUnwound top | loadUnwound top | clearingUnwound top =>
      rw [top] at nested
      exact nested.2.2

/-- The stack after a step, if the frame that took it is not a listener. -/
theorem nested_of_advanced {cache next : Cache} (nested : Nested cache.stack)
    (taken : Advanced cache next) : Nested next.stack := by
  cases taken with
  | outdated top | passEnded top | takenBack top | passedOver top | admissionReported top =>
      rw [top] at nested
      rcases nested with ⟨listening | below, rest⟩
      · cases listening
      · exact ⟨Or.inr below, rest⟩
  | evicted top | retracted top | swept top | reported top =>
      rw [top] at nested
      rcases nested with ⟨listening | below, rest⟩
      · cases listening
      · exact nested_running ⟨Or.inr below, rest⟩
  | kept top | goneAlready top | retractionCounted top | retractionReported top | dropCounted top
  | sweepEnded top | clearingReported top =>
      rw [top] at nested
      exact nested.2

/-- Frames for weighted stores come in over weighted stores.  The kind of a store never changes, so
they stay seated. -/
theorem seated_of_accepted {cache next : Cache} {move : Move}
    (taken : Accepted cache move next) :
    ∀ frame ∈ next.stack, frame.isWeighted = true →
      frame ∈ cache.stack ∨ cache.kind = .weighted := by
  intro frame member weighs
  cases taken with
  | found | missing | hit | nothingDropped => exact Or.inl member
  | opened | cleared =>
      rcases List.mem_cons.mp member with rfl | below
      · cases weighs
      · exact Or.inl below
  | dropped _ weighted | sweepBegun _ weighted | passBegun _ weighted =>
      exact Or.inr (congrArg Store.kind weighted)
  | joined top | lateHit top | overflown top | failed top | panicked top | listenerReturned top =>
      exact Or.inl (top ▸ List.mem_cons_of_mem _ member)
  | claimed top | stored top =>
      rcases List.mem_cons.mp member with rfl | below
      · cases weighs
      · exact Or.inl (top ▸ List.mem_cons_of_mem _ below)
  | simplyStored top =>
      rcases List.mem_cons.mp member with rfl | below
      · simp at weighs
      · exact Or.inl (top ▸ List.mem_cons_of_mem _ below)
  | passUnwound top | loadUnwound top | clearingUnwound top =>
      exact Or.inl (top ▸ List.mem_cons_of_mem _ (List.mem_cons_of_mem _ member))

theorem seated_of_advanced {cache next : Cache} (taken : Advanced cache next) :
    ∀ frame ∈ next.stack, frame.isWeighted = true →
      frame ∈ cache.stack ∨ cache.kind = .weighted := by
  intro frame member weighs
  cases taken with
  | outdated _ weighted | evicted _ weighted | passEnded _ weighted | retracted _ _ weighted
  | swept _ weighted | passedOver _ weighted => exact Or.inr (congrArg Store.kind weighted)
  | kept top | goneAlready top | retractionCounted top | retractionReported top | dropCounted top
  | sweepEnded top | clearingReported top => exact Or.inl (top ▸ List.mem_cons_of_mem _ member)
  | takenBack top | admissionReported top =>
      rcases List.mem_cons.mp member with rfl | below
      · cases weighs
      · exact Or.inl (top ▸ List.mem_cons_of_mem _ below)
  | reported top =>
      rcases List.mem_append.mp member with listens | stays
      · rw [(Listener.mem_running.mp listens).2] at weighs
        cases weighs
      · rcases List.mem_cons.mp stays with rfl | below
        · cases weighs
        · exact Or.inl (top ▸ List.mem_cons_of_mem _ below)

theorem orderly_kept (allowed : Cache → Move → Bool) :
    Kept allowed fun cache => Coherent cache ∧ Orderly cache := by
  apply (coherent_kept allowed).and
  · intro cache next move _ coherent orderly taken
    rcases changed_of_accepted coherent.staged taken with ⟨change, changed, -, -⟩
    refine ⟨nested_of_accepted orderly.nested taken, fun frame member weighs => ?_⟩
    rcases seated_of_accepted taken frame member weighs with before | kind
    · exact changed.kind.trans (orderly.seated frame before weighs)
    · exact changed.kind.trans kind
  · intro cache next _ orderly taken
    have changed := (changed_of_advanced taken).1
    refine ⟨nested_of_advanced orderly.nested taken, fun frame member weighs => ?_⟩
    rcases seated_of_advanced taken frame member weighs with before | kind
    · exact changed.kind.trans (orderly.seated frame before weighs)
    · exact changed.kind.trans kind

/-! ## Listeners -/

theorem running_of_quiet {listener : Listener} (quiet : listener ≠ .interactive)
    (removal : Removal) : listener.running removal = [] := by
  cases listener with
  | absent | recording => rfl
  | interactive => exact absurd rfl quiet

theorem unheard_of_accepted {cache next : Cache} {move : Move}
    (quiet : cache.listener ≠ .interactive)
    (unheard : ∀ frame ∈ cache.stack, frame.isListening = false)
    (taken : Accepted cache move next) : ∀ frame ∈ next.stack, frame.isListening = false := by
  cases taken with
  | dropped =>
      simp only [running_of_quiet quiet, List.nil_append]
      simpa [Frame.isListening] using unheard
  | simplyStored top =>
      rw [top] at unheard
      intro frame member
      rcases List.mem_cons.mp member with rfl | below
      · exact isListening_sequelOf _ _
      · exact unheard frame (List.mem_cons_of_mem _ below)
  | _ => simp_all [Frame.isListening]

theorem unheard_of_advanced {cache next : Cache} (quiet : cache.listener ≠ .interactive)
    (unheard : ∀ frame ∈ cache.stack, frame.isListening = false)
    (taken : Advanced cache next) : ∀ frame ∈ next.stack, frame.isListening = false := by
  cases taken <;> simp_all [running_of_quiet quiet, Frame.isListening]

def heardBy (cache : Cache) (listener : Listener) : Cache :=
  { cache with listener := listener }

theorem heardBy_of_listener {cache : Cache} {listener : Listener}
    (heard : cache.listener = listener) : cache.heardBy listener = cache := by
  rw [← heard]
  rfl

theorem Coherent.heardBy {cache : Cache} (coherent : Coherent cache) (listener : Listener) :
    Coherent (cache.heardBy listener) :=
  have numbered := coherent.numbered
  have staged := coherent.staged
  { numbered := ⟨numbered.1, numbered.2, numbered.3, numbered.4⟩
    endedApart := coherent.endedApart
    claimsMatch := coherent.claimsMatch
    staged := ⟨staged.1, staged.2⟩ }

theorem Orderly.heardBy {cache : Cache} (orderly : Orderly cache) (listener : Listener) :
    Orderly (cache.heardBy listener) :=
  ⟨orderly.nested, orderly.seated⟩

/-! ## The work that is left -/

/-- A bound on the steps before control is outside. -/
def work (cache : Cache) : Nat :=
  match cache.stack with
  | [] => 0
  | frame :: _ => frame.work cache.store

theorem work_eq_zero_of_rests {cache : Cache} (settled : rests cache.stack = true) :
    cache.work = 0 := by
  unfold work rests at *
  split
  · rfl
  · rename_i frame below top
    rw [top] at settled
    cases frame <;> simp_all [Frame.isOutside, Frame.work]

theorem work_pos_of_not_isSettled {cache : Cache} (busy : cache.isSettled = false) :
    0 < cache.work := by
  rw [isSettled_eq] at busy
  unfold work
  cases top : cache.stack with
  | nil =>
      rw [top] at busy
      cases busy
  | cons frame below =>
      rw [top] at busy
      cases frame with
      | evicting => cases cache.store <;> simp [Frame.work]
      | reporting removals sequel => cases sequel <;> simp [Frame.work]
      | _ => simp_all [rests, Frame.isOutside, Frame.work]

theorem work_le_stepsLeft (cache : Cache) : cache.work ≤ cache.stepsLeft := by
  unfold work stepsLeft
  cases cache.stack with
  | nil => exact Nat.zero_le _
  | cons frame below =>
      cases frame with
      | evicting =>
          cases held : cache.store with
          | weighted store =>
              have bound := store.examinations_le
              simp only [Frame.work]
              omega
          | simple store => simp [Frame.work]
      | reporting removals sequel => cases sequel <;> simp [Frame.work]
      | _ => simp [Frame.work]

theorem work_of_advanced {cache next : Cache} (nested : Nested cache.stack)
    (taken : Advanced cache next) : next.work < cache.work := by
  cases taken with
  | outdated top weighted _ first =>
      have less := WeightedStore.examinations_outdated first
      simp only [work, top, weighted, Frame.work]
      omega
  | evicted top weighted _ first =>
      have less := WeightedStore.examinations_evicted first
      cases listens : cache.listener <;>
        simp only [work, top, weighted, Listener.running, List.nil_append, List.cons_append,
          Frame.work] <;>
        omega
  | passEnded top weighted _ =>
      simp only [work, top, weighted, Frame.work]
      omega
  | kept top | goneAlready top | retractionCounted top | retractionReported top | dropCounted top
  | sweepEnded top | clearingReported top =>
      rw [top] at nested
      rcases nested with ⟨listening | below, -⟩
      · cases listening
      · rw [work_eq_zero_of_rests below]
        simp [work, top, Frame.work]
  | retracted top | swept top =>
      cases listens : cache.listener <;>
        simp [work, top, Listener.running, Frame.work]
  | takenBack top | passedOver top | admissionReported top => simp [work, top, Frame.work]
  | @reported removal removals sequel rest top =>
      cases listens : cache.listener <;> cases sequel <;>
        simp [work, top, Listener.running, Frame.work]

/-- While control is inside, a next step is to be had. -/
theorem advance_isSome {cache : Cache} (orderly : Orderly cache) (busy : cache.isSettled = false) :
    cache.advance.isSome = true := by
  rw [isSettled_eq] at busy
  unfold advance
  cases top : cache.stack with
  | nil =>
      rw [top] at busy
      cases busy
  | cons frame below =>
      rw [top] at busy
      have suits : frame.isWeighted = true → ∃ inner, cache.store = .weighted inner := by
        intro weighs
        have kind := orderly.seated frame (top ▸ List.mem_cons_self) weighs
        cases held : cache.store with
        | weighted inner => exact ⟨inner, rfl⟩
        | simple inner =>
            rw [Cache.kind, held] at kind
            cases kind
      cases frame with
      | claiming | loading | listening => cases busy
      | evicting =>
          rcases suits rfl with ⟨inner, weighted⟩
          simp [weighted]
      | sweeping =>
          rcases suits rfl with ⟨inner, weighted⟩
          simp [weighted]
      | concluding | retracting | dropping => simp
      | reporting removals sequel => cases removals <;> simp

/-- As many steps as there is work bring control outside. -/
theorem advanceBy_isSettled (steps : Nat) {cache : Cache} (coherent : Coherent cache)
    (orderly : Orderly cache) (enough : cache.work ≤ steps) :
    (cache.advanceBy steps).isSettled = true := by
  induction steps generalizing cache with
  | zero =>
      cases settled : cache.isSettled with
      | true => exact settled
      | false =>
          have some := work_pos_of_not_isSettled settled
          omega
  | succ steps ih =>
      unfold advanceBy
      cases taken : cache.advance with
      | none =>
          cases settled : cache.isSettled with
          | true => rfl
          | false =>
              have next := advance_isSome orderly settled
              rw [taken] at next
              cases next
      | some next =>
          have step := advanced_of_advance taken
          have kept := (orderly_kept anyMove).advanced ⟨coherent, orderly⟩ step
          have less := work_of_advanced orderly.nested step
          exact ih kept.1 kept.2 (by omega)

/-- Control is outside after every move.  So the bound on the steps that a move is given is enough;
neither the index nor the weights need be in order for it. -/
theorem settle_isSettled {cache : Cache} (coherent : Coherent cache) (orderly : Orderly cache) :
    cache.settle.isSettled = true :=
  advanceBy_isSettled _ coherent orderly (work_le_stepsLeft cache)

theorem orderly_start (store : Store) (listener : Listener) : Orderly (start store listener) where
  nested := trivial
  seated _ member := nomatch member

theorem run_isSettled (allowed : Cache → Move → Bool) (store : Store) (listener : Listener)
    (empty : store.holdings = []) (moves : List Move) (cache : Cache)
    (run : Run allowed (start store listener) moves cache) : cache.isSettled = true := by
  have known : ∀ {before after : Cache} {later : List Move}, Run allowed before later after →
      (Coherent before ∧ Orderly before) → before.isSettled = true → after.isSettled = true := by
    intro before after later run
    induction run with
    | done => exact fun _ settled => settled
    | @step cache next final move later may made _ ih =>
        intro orderly _
        have kept := (orderly_kept allowed).perform may orderly made
        rcases Option.map_eq_some_iff.mp made with ⟨moved, taken, rfl⟩
        have begun := (orderly_kept allowed).accepted may orderly (accepted_of_accept taken)
        exact ih kept (settle_isSettled begun.1 begun.2)
  exact known run ⟨coherent_start store listener empty, orderly_start store listener⟩ rfl

/-! ## Where a cache settles -/

/-- The cache gets from the first state to the second on its own, in any number of steps.  No move
is made in between, and neither of the two states need be one in which control is outside. -/
inductive Leads : Cache → Cache → Prop
  | refl {cache : Cache} : Leads cache cache
  | step {cache middle final : Cache} (taken : cache.advance = some middle)
      (rest : Leads middle final) : Leads cache final

theorem Leads.trans {cache middle final : Cache} (first : Leads cache middle)
    (second : Leads middle final) : Leads cache final := by
  induction first with
  | refl => exact second
  | step taken _ ih => exact .step taken (ih second)

theorem Leads.one {cache next : Cache} (taken : cache.advance = some next) : Leads cache next :=
  .step taken .refl

theorem advance_of_isSettled {cache : Cache} (settled : cache.isSettled = true) :
    cache.advance = none := by
  rw [isSettled_eq] at settled
  unfold advance
  cases top : cache.stack with
  | nil => rfl
  | cons frame below =>
      rw [top] at settled
      cases frame <;> simp_all [rests, Frame.isOutside]

/-- Only one settled state can be led to. -/
theorem Leads.advanceBy {cache final : Cache} (leads : Leads cache final)
    (settled : final.isSettled = true) (steps : Nat)
    (ends : (cache.advanceBy steps).isSettled = true) : cache.advanceBy steps = final := by
  induction leads generalizing steps with
  | refl =>
      cases steps with
      | zero => rfl
      | succ steps =>
          unfold Cache.advanceBy
          rw [advance_of_isSettled settled]
  | step taken _ ih =>
      cases steps with
      | zero =>
          rw [Cache.advanceBy] at ends
          rw [advance_of_isSettled ends] at taken
          cases taken
      | succ steps =>
          unfold Cache.advanceBy at ends ⊢
          rw [taken] at ends ⊢
          exact ih settled steps ends

/-- A settled state that can be led to is the one in which the cache settles.  This is how the
outcome of a move is found without counting its steps. -/
theorem Leads.settle {cache final : Cache} (leads : Leads cache final)
    (settled : final.isSettled = true) (coherent : Coherent cache) (orderly : Orderly cache) :
    cache.settle = final :=
  leads.advanceBy settled _ (settle_isSettled coherent orderly)

end Cache
end VolumeCache
