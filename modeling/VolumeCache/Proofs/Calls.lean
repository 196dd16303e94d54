import VolumeCache.Proofs.Runs

namespace VolumeCache

/-!
# The calls under way

The stack of a cache lists its calls from the innermost outwards.  Two facts about it hold along
every run, whatever panics: calls further in have later numbers, and the loads in the table are
exactly those whose leading call is on the stack between its claim and its end.  Nothing here
depends on what is stored.
-/

def Sequel.call : Sequel → Nat
  | .conclude admission => admission.call
  | .finish admission => admission.call
  | .close call _ _ => call

namespace Frame

/-- The number of the call a frame belongs to.  A listener runs for the call beneath it. -/
def call? : Frame → Option Nat
  | .claiming call _ => some call
  | .loading call _ => some call
  | .listening _ => none
  | .evicting admission _ _ => some admission.call
  | .concluding admission => some admission.call
  | .retracting admission => some admission.call
  | .dropping call => some call
  | .sweeping call _ _ _ => some call
  | .reporting _ sequel => some sequel.call

/-- The key whose claim the call of a frame holds, and the call.  A caller that is about to claim
does not hold the claim yet, and a call that only drops blocks never holds one. -/
def claim? : Frame → Option (BlockKey × Nat)
  | .loading call key => some (key, call)
  | .evicting admission _ _ => some (admission.key, admission.call)
  | .concluding admission => some (admission.key, admission.call)
  | .retracting admission => some (admission.key, admission.call)
  | .reporting _ (.conclude admission) => some (admission.key, admission.call)
  | .reporting _ (.finish admission) => some (admission.key, admission.call)
  | _ => none

theorem call?_of_claim? {frame : Frame} {key : BlockKey} {call : Nat}
    (claim : frame.claim? = some (key, call)) : frame.call? = some call := by
  cases frame with
  | reporting removals sequel => cases sequel <;> simp_all [claim?, call?, Sequel.call]
  | _ => simp_all [claim?, call?]

end Frame

namespace Cache

open PendingLoad

/-- The numbers of the calls under way, the innermost first. -/
def numbers (cache : Cache) : List Nat :=
  cache.stack.filterMap Frame.call?

def claims (cache : Cache) : List (BlockKey × Nat) :=
  cache.stack.filterMap Frame.claim?

/-- The keys of running loads with the calls that lead them.  The calls that wait are left out, and
so are the marks. -/
def leaders (loads : Table BlockKey PendingLoad) : List (BlockKey × Nat) :=
  loads.rows.map fun row => (row.1, row.2.leader)

@[simp] theorem call?_sequelOf (admission : Admission) (removals : List Removal) :
    (sequelOf admission removals).call? = some admission.call := by
  cases removals <;> rfl

@[simp] theorem claim?_sequelOf (admission : Admission) (removals : List Removal) :
    (sequelOf admission removals).claim? = some (admission.key, admission.call) := by
  cases removals <;> rfl

/-! ## Numbers -/

/-- A move ends calls, or goes on with them, or begins one with the next number.  A call that joins
the load of another leaves the stack here, though it has not ended. -/
theorem numbers_of_accepted {cache next : Cache} {move : Move}
    (taken : Accepted cache move next) :
    (next.numbers.Sublist cache.numbers ∧ cache.calls ≤ next.calls) ∨
      (next.numbers = cache.calls :: cache.numbers ∧ next.calls = cache.calls + 1) := by
  cases taken with
  | loadUnwound top leading =>
      refine Or.inl ⟨?_, Nat.le_refl _⟩
      rcases leading with rfl | ⟨_, rfl⟩ | ⟨_, rfl⟩ <;>
        simp [numbers, top, Frame.call?, List.filterMap_cons]
  | clearingUnwound top clearing =>
      refine Or.inl ⟨?_, Nat.le_refl _⟩
      rcases clearing with rfl | ⟨_, _, _, rfl⟩ | ⟨_, _, _, rfl⟩ <;>
        simp [numbers, top, Frame.call?, List.filterMap_cons]
  | simplyStored top _ _ =>
      refine Or.inl ⟨?_, Nat.le_refl _⟩
      simp only [numbers, top, List.filterMap_cons, call?_sequelOf]
      simp [Frame.call?]
  | _ => simp [numbers, Frame.call?, Sequel.call, List.filterMap_cons, *]

theorem numbers_of_advanced {cache next : Cache} (taken : Advanced cache next) :
    next.numbers.Sublist cache.numbers ∧ next.calls = cache.calls := by
  cases taken <;> simp [numbers, Frame.call?, Sequel.call, *]

/-- Calls further in have later numbers, and every call under way is one of those that began
since a moment at which `base` calls had begun. -/
structure Numbered (base : Nat) (cache : Cache) : Prop where
  descending : cache.numbers.Pairwise (· > ·)
  since : ∀ number ∈ cache.numbers, base ≤ number
  below : ∀ number ∈ cache.numbers, number < cache.calls
  base_le : base ≤ cache.calls

theorem Numbered.of_sublist {base : Nat} {cache next : Cache} (numbered : Numbered base cache)
    (fewer : next.numbers.Sublist cache.numbers) (calls : cache.calls ≤ next.calls) :
    Numbered base next where
  descending := numbered.descending.sublist fewer
  since number member := numbered.since number (fewer.subset member)
  below number member := Nat.lt_of_lt_of_le (numbered.below number (fewer.subset member)) calls
  base_le := Nat.le_trans numbered.base_le calls

theorem Numbered.of_cons {base : Nat} {cache next : Cache} (numbered : Numbered base cache)
    (more : next.numbers = cache.calls :: cache.numbers) (calls : next.calls = cache.calls + 1) :
    Numbered base next where
  descending := by
    rw [more, List.pairwise_cons]
    exact ⟨numbered.below, numbered.descending⟩
  since number member := by
    rw [more] at member
    rcases List.mem_cons.mp member with isNew | old
    · exact isNew ▸ numbered.base_le
    · exact numbered.since number old
  below number member := by
    rw [more] at member
    rcases List.mem_cons.mp member with isNew | old
    · omega
    · have := numbered.below number old
      omega
  base_le := by
    have := numbered.base_le
    omega

theorem numbered_kept (base : Nat) (allowed : Cache → Move → Bool) :
    Kept allowed (Numbered base) where
  accepted _ numbered taken := by
    rcases numbers_of_accepted taken with ⟨fewer, calls⟩ | ⟨more, calls⟩
    · exact numbered.of_sublist fewer calls
    · exact numbered.of_cons more calls
  advanced numbered taken := by
    rcases numbers_of_advanced taken with ⟨fewer, calls⟩
    exact numbered.of_sublist fewer (Nat.le_of_eq calls.symm)

/-! ## Claims -/

theorem leaders_overtaken (loads : Table BlockKey PendingLoad) (scope : Scope) :
    leaders (overtaken loads scope) = leaders loads := by
  unfold leaders overtaken Table.mapValues
  rw [List.map_map]
  apply List.map_congr_left
  intro row _
  by_cases covered : scope.covers row.1 = true
  · simp [covered]
  · simp [covered]

theorem leaders_modify (loads : Table BlockKey PendingLoad) (key : BlockKey)
    (change : PendingLoad → PendingLoad) (same : ∀ load, (change load).leader = load.leader) :
    leaders (loads.modify key change) = leaders loads := by
  unfold leaders Table.modify Table.mapValues
  rw [List.map_map]
  apply List.map_congr_left
  intro row _
  by_cases found : row.1 = key
  · simp [found, same]
  · simp [found]

theorem mem_leaders {loads : Table BlockKey PendingLoad} {key : BlockKey} {call : Nat} :
    (key, call) ∈ leaders loads ↔
      ∃ pending, loads.get? key = some pending ∧ pending.leader = call := by
  constructor
  · intro member
    rcases List.mem_map.mp member with ⟨row, listed, same⟩
    cases same
    exact ⟨row.2, (loads.get?_eq_some_iff _ _).mpr listed, rfl⟩
  · rintro ⟨pending, held, rfl⟩
    exact List.mem_map.mpr ⟨(key, pending), (loads.get?_eq_some_iff _ _).mp held, rfl⟩

/-- A call that leads the load of a key gives exactly this claim up. -/
theorem released_eq_erase {loads : Table BlockKey PendingLoad} {key : BlockKey} {call : Nat}
    (leads : (key, call) ∈ leaders loads) : released loads call key = loads.erase key := by
  rcases mem_leaders.mp leads with ⟨pending, held, same⟩
  simp [released, held, same]

theorem leaders_released {loads : Table BlockKey PendingLoad} {key : BlockKey} {call : Nat}
    {others : List (BlockKey × Nat)} (match_ : ((key, call) :: others).Perm (leaders loads)) :
    others.Perm (leaders (released loads call key)) := by
  have leads : (key, call) ∈ leaders loads := match_.subset List.mem_cons_self
  rw [released_eq_erase leads]
  rcases mem_leaders.mp leads with ⟨pending, held, same⟩
  have rows := (Table.rows_perm_of_get? held).map fun row => (row.1, row.2.leader)
  rw [List.map_cons, same] at rows
  exact List.Perm.cons_inv (match_.trans rows)

/-- The running loads are those whose leading calls are under way and hold the claim.  The keys of a
table are distinct, so no load has two leaders, and none is left behind by a call that has ended. -/
def ClaimsMatch (cache : Cache) : Prop :=
  cache.claims.Perm (leaders cache.loads)

theorem ClaimsMatch.accepted {cache next : Cache} {move : Move} (claimed : ClaimsMatch cache)
    (taken : Accepted cache move next) : ClaimsMatch next := by
  unfold ClaimsMatch claims at claimed ⊢
  cases taken with
  | dropped | nothingDropped | sweepBegun | cleared =>
      simpa [Frame.claim?, List.filterMap_cons, leaders_overtaken] using claimed
  | joined top _ => simpa [Frame.claim?, List.filterMap_cons, leaders_modify, top] using claimed
  | claimed top free _ =>
      rw [top] at claimed
      simp only [leaders, Table.rows_insert_of_get?_none free, List.map_append, List.map_cons,
        List.map_nil, List.filterMap_cons, Frame.claim?]
      simp only [List.filterMap_cons, Frame.claim?] at claimed
      exact (claimed.cons _).trans (List.perm_append_singleton _ _).symm
  | overflown top _ _ | failed top | panicked top | passUnwound top =>
      rw [top] at claimed
      simp only [List.filterMap_cons, Frame.claim?] at claimed
      exact leaders_released claimed
  | loadUnwound top leading =>
      rw [top] at claimed
      rcases leading with rfl | ⟨_, rfl⟩ | ⟨_, rfl⟩ <;>
        · simp only [List.filterMap_cons, Frame.claim?] at claimed
          exact leaders_released claimed
  | clearingUnwound top clearing =>
      rw [top] at claimed
      rcases clearing with rfl | ⟨_, _, _, rfl⟩ | ⟨_, _, _, rfl⟩ <;>
        simpa [Frame.claim?, List.filterMap_cons] using claimed
  | simplyStored top _ _ =>
      simp only [List.filterMap_cons, claim?_sequelOf]
      simpa [Frame.claim?, top] using claimed
  | lateHit top _ _ | passBegun top _ _ _ | stored top _ _ | listenerReturned top =>
      simpa [Frame.claim?, List.filterMap_cons, top] using claimed
  | found | missing | hit | opened => simpa [Frame.claim?, List.filterMap_cons] using claimed

theorem ClaimsMatch.advanced {cache next : Cache} (claimed : ClaimsMatch cache)
    (taken : Advanced cache next) : ClaimsMatch next := by
  unfold ClaimsMatch claims at claimed ⊢
  cases taken with
  | kept top _ | goneAlready top _ _ | retractionCounted top | retractionReported top =>
      rw [top] at claimed
      simp only [List.filterMap_cons, Frame.claim?] at claimed
      exact leaders_released claimed
  | reported top =>
      rename_i sequel _
      rw [top] at claimed
      cases sequel <;> simpa [Frame.claim?, List.filterMap_cons] using claimed
  | outdated top _ _ _ | evicted top _ _ _ | passEnded top _ _ | retracted top _ _ _
  | takenBack top _ _ _ | dropCounted top | swept top _ _ | passedOver top _ _ | sweepEnded top
  | admissionReported top | clearingReported top =>
      simpa [Frame.claim?, List.filterMap_cons, top] using claimed

end Cache
end VolumeCache
