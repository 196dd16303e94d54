import VolumeCache.Proofs.Weights

namespace VolumeCache

/-!
# Loads that have succeeded

A call whose loader has returned a value stores it and may then have to make room, report removals
or take the value back.  Unless a listener panics it returns in the end; a simple store must also
be able to weigh the value.
-/

/-- The call of a frame whose loader has returned a value. -/
def Frame.pursued? : Frame → Option Nat
  | .evicting admission _ _ => some admission.call
  | .concluding admission => some admission.call
  | .retracting admission => some admission.call
  | .reporting _ (.conclude admission) => some admission.call
  | .reporting _ (.finish admission) => some admission.call
  | _ => none

namespace Cache

@[simp] theorem pursued?_sequelOf (admission : Admission) (removals : List Removal) :
    (sequelOf admission removals).pursued? = some admission.call := by
  cases removals <;> rfl

/-- The loader of this call has returned a value.  The call itself may still be under way, and the
value may not stay. -/
def Succeeded (cache : Cache) (call : Nat) : Prop :=
  ∃ key payload, .loaded call key payload ∈ cache.journal

def Returned (cache : Cache) (call : Nat) : Prop :=
  ∃ reply, .returned call reply ∈ cache.journal

/-- The calls under way whose loaders have returned values, the innermost first. -/
def pursuits (cache : Cache) : List Nat :=
  cache.stack.filterMap Frame.pursued?

/-- If the load of this call has succeeded, it is still being seen to or the call has returned.  A
panic of the listener would break this, for it leaves a call that has not returned. -/
def SeenTo (call : Nat) (cache : Cache) : Prop :=
  cache.Succeeded call → call ∈ cache.pursuits ∨ cache.Returned call

theorem succeeded_of_accepted {cache next : Cache} {move : Move}
    (taken : Accepted cache move next) {call : Nat} (succeeded : next.Succeeded call) :
    cache.Succeeded call ∨ ∃ key payload rest, move = .loaderReturns payload ∧
      cache.stack = .loading call key :: rest := by
  unfold Succeeded at succeeded ⊢
  cases taken <;> simp_all <;> grind

theorem succeeded_of_advanced {cache next : Cache} (taken : Advanced cache next) {call : Nat}
    (succeeded : next.Succeeded call) : cache.Succeeded call := by
  unfold Succeeded at succeeded ⊢
  cases taken <;> simp_all

theorem Returned.mono {cache next : Cache} (grown : cache.journal <:+ next.journal) {call : Nat}
    (returned : cache.Returned call) : next.Returned call := by
  rcases returned with ⟨reply, member⟩
  exact ⟨reply, grown.subset member⟩

/-- No move takes a call off that sees to its value, unless a listener panics.  A loader that panics
ends its own call only, whose value has not come in. -/
theorem pursuits_of_accepted {cache next : Cache} {move : Move}
    (undisturbed : cache.calm move = true) (taken : Accepted cache move next) {call : Nat}
    (pursued : call ∈ cache.pursuits) : call ∈ next.pursuits := by
  unfold pursuits at pursued ⊢
  cases taken with
  | passUnwound | loadUnwound | clearingUnwound => cases undisturbed
  | simplyStored top =>
      rw [top] at pursued
      simp only [List.filterMap_cons, pursued?_sequelOf]
      exact List.mem_cons_of_mem _ pursued
  | _ => simp_all [Frame.pursued?, List.filterMap_cons]

theorem pursuits_of_advanced {cache next : Cache} (taken : Advanced cache next) {call : Nat}
    (pursued : call ∈ cache.pursuits) : call ∈ next.pursuits ∨ next.Returned call := by
  unfold pursuits at pursued ⊢
  unfold Returned
  cases taken with
  | @reported removal removals sequel rest top =>
      rw [top] at pursued
      apply Or.inl
      cases sequel <;> simpa [Frame.pursued?, List.filterMap_cons] using pursued
  | _ => simp_all [Frame.pursued?, List.filterMap_cons] <;> grind

theorem pursuits_of_loaderReturns {cache next : Cache} {call : Nat} {key : BlockKey}
    {rest : List Frame} {payload : Payload} (weighed : Weighed cache) (staged : Staged cache)
    (fit : cache.fits (.loaderReturns payload) = true)
    (top : cache.stack = .loading call key :: rest)
    (taken : Accepted cache (.loaderReturns payload) next) : call ∈ next.pursuits := by
  unfold pursuits
  cases taken with
  | passBegun here | stored here =>
      cases top.symm.trans here
      simp [Frame.pursued?]
  | simplyStored here =>
      cases top.symm.trans here
      simp only [List.filterMap_cons, pursued?_sequelOf]
      exact List.mem_cons_self
  | overflown here simple refused =>
      cases top.symm.trans here
      exact absurd refused (weighed.put_ne_error staged fit top simple)

theorem seenTo_kept (call : Nat) :
    Kept fitsCalmly fun cache => (Coherent cache ∧ Weighed cache) ∧ SeenTo call cache := by
  apply (weighed_kept.restrict fits_of_fitsCalmly).and
  · intro cache next move may known seen taken succeeded
    rcases succeeded_of_accepted taken succeeded with before | ⟨key, payload, rest, rfl, top⟩
    · rcases seen before with pursued | returned
      · exact Or.inl (pursuits_of_accepted (calm_of_fitsCalmly _ _ may) taken pursued)
      · exact Or.inr (returned.mono (journal_suffix_of_accepted taken))
    · exact Or.inl (pursuits_of_loaderReturns known.2 known.1.staged
        (fits_of_fitsCalmly _ _ may) top taken)
  · intro cache next _ seen taken succeeded
    rcases seen (succeeded_of_advanced taken succeeded) with pursued | returned
    · exact pursuits_of_advanced taken pursued
    · exact Or.inr (returned.mono (journal_suffix_of_advanced taken))

theorem succeeded_below_kept (allowed : Cache → Move → Bool) :
    Kept allowed fun cache =>
      Coherent cache ∧ ∀ call, cache.Succeeded call → call < cache.calls := by
  apply (coherent_kept allowed).and
  · intro cache next move _ coherent below taken call succeeded
    have calls : cache.calls ≤ next.calls := by
      rcases numbers_of_accepted taken with ⟨-, more⟩ | ⟨-, more⟩ <;> omega
    rcases succeeded_of_accepted taken succeeded with before | ⟨key, payload, rest, -, top⟩
    · exact Nat.lt_of_lt_of_le (below call before) calls
    · have listed : call ∈ cache.numbers := by simp [numbers, top, Frame.call?]
      exact Nat.lt_of_lt_of_le (coherent.numbered.below call listed) calls
  · intro cache next _ below taken call succeeded
    rw [(numbers_of_advanced taken).2]
    exact below call (succeeded_of_advanced taken succeeded)

theorem unsucceeded_kept (call : Nat) :
    Kept (fun _ move => match move with | .loaderReturns _ => false | _ => true)
      fun cache => ¬ cache.Succeeded call where
  accepted may before taken succeeded := by
    rcases succeeded_of_accepted taken succeeded with already | ⟨key, payload, rest, rfl, -⟩
    · exact before already
    · cases may
  advanced before taken succeeded := before (succeeded_of_advanced taken succeeded)

end Cache
end VolumeCache
