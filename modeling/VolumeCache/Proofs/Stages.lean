import VolumeCache.Proofs.Journal

namespace VolumeCache

/-!
# What is stored while loads are running

A load goes through stages: its loader runs, its value is stored, and in the end the value may be
taken back.  Before the value is stored, and after it has been taken back, no block of the key is
there; in between a block of the key is the load's own.  So a value never silently takes the place
of another one.
-/

/-- The key of which nothing is stored while a frame stands: the loader has not returned yet, or the
value it returned has been taken back. -/
def Frame.vacant? : Frame → Option BlockKey
  | .loading _ key => some key
  | .retracting admission => some admission.key
  | .reporting _ (.finish admission) => some admission.key
  | _ => none

namespace Cache

open PendingLoad

/-- The keys of which nothing is stored.  They are those of loads whose loaders are running and of
loads whose values have been taken back. -/
def vacancies (cache : Cache) : List BlockKey :=
  cache.stack.filterMap Frame.vacant?

@[simp] theorem vacant?_sequelOf (admission : Admission) (removals : List Removal) :
    (sequelOf admission removals).vacant? = none := by
  cases removals <;> rfl

theorem claim?_of_vacant? {frame : Frame} {key : BlockKey} (vacant : frame.vacant? = some key) :
    ∃ call, frame.claim? = some (key, call) := by
  cases frame with
  | reporting removals sequel => cases sequel <;> simp_all [Frame.vacant?, Frame.claim?]
  | _ => simp_all [Frame.vacant?, Frame.claim?]

theorem mem_claimed_of_vacant? {stack : List Frame} {key : BlockKey}
    (vacant : key ∈ stack.filterMap Frame.vacant?) :
    key ∈ (stack.filterMap Frame.claim?).map Prod.fst := by
  rcases List.mem_filterMap.mp vacant with ⟨frame, member, found⟩
  rcases claim?_of_vacant? found with ⟨call, claim⟩
  exact List.mem_map.mpr ⟨(key, call), List.mem_filterMap.mpr ⟨frame, member, claim⟩, rfl⟩

theorem ClaimsMatch.keys_nodup {cache : Cache} (claimed : ClaimsMatch cache) :
    (cache.claims.map Prod.fst).Nodup := by
  have keys : (leaders cache.loads).map Prod.fst = cache.loads.rows.map Prod.fst := by
    simp [leaders, Function.comp_def]
  rw [(claimed.map Prod.fst).nodup_iff, keys]
  exact cache.loads.distinct

theorem leaders_released_subset (loads : Table BlockKey PendingLoad) (call : Nat)
    (key : BlockKey) : leaders (released loads call key) ⊆ leaders loads := by
  unfold released
  split
  · split
    · intro claim member
      rcases List.mem_map.mp member with ⟨row, listed, same⟩
      exact List.mem_map.mpr ⟨row, (Table.mem_rows_erase.mp listed).1, same⟩
    · exact List.Subset.refl _
  · exact List.Subset.refl _

/-- The keys of running loads are kept vacant where they should be, and otherwise hold only what
their own load brought. -/
structure Staged (cache : Cache) : Prop where
  vacant : ∀ key ∈ cache.vacancies, cache.store.entries.get? key = none
  own : ∀ holding ∈ cache.store.holdings, ∀ call,
    (holding.key, call) ∈ leaders cache.loads → holding.load = call

namespace Staged

variable {cache next : Cache}

/-! ### The loader on top -/

section Loading

variable {call : Nat} {key : BlockKey} {rest : List Frame}

theorem absent (staged : Staged cache) (top : cache.stack = .loading call key :: rest) :
    cache.store.entries.get? key = none :=
  staged.vacant key (by simp [Cache.vacancies, top, Frame.vacant?])

theorem absent_weighted (staged : Staged cache) (top : cache.stack = .loading call key :: rest)
    {store : WeightedStore} (weighted : cache.store = .weighted store) :
    store.entries.get? key = none := by
  have absent := staged.absent top
  rw [weighted] at absent
  exact absent

theorem absent_simple (staged : Staged cache) (top : cache.stack = .loading call key :: rest)
    {store : SimpleStore} (simple : cache.store = .simple store) :
    store.entries.get? key = none := by
  have absent := staged.absent top
  rw [simple] at absent
  exact absent

theorem insert_holdings (staged : Staged cache) (top : cache.stack = .loading call key :: rest)
    {store : WeightedStore} (weighted : cache.store = .weighted store) (payload : Payload) :
    holdingsOf (store.insert key call payload).entries =
      cache.store.holdings ++ [⟨key, payload, call⟩] := by
  rw [Store.holdings_weighted weighted]
  exact WeightedStore.insert_holdings (staged.absent_weighted top weighted) call payload

theorem put_holdings (staged : Staged cache) (top : cache.stack = .loading call key :: rest)
    {store left : SimpleStore} (simple : cache.store = .simple store) {payload : Payload}
    {blocks : List (BlockKey × CachedBlock)}
    (put : store.put key call payload = .ok (blocks, left)) :
    (cache.store.holdings ++ [(⟨key, payload, call⟩ : Holding)]).Perm
      (blocks.map Holding.ofRow ++ holdingsOf left.entries) := by
  rw [Store.holdings_simple simple]
  exact SimpleStore.put_holdings (staged.absent_simple top simple) put

end Loading

/-! ### From step to step -/

theorem shrink (staged : Staged cache) (holdings : next.store.holdings ⊆ cache.store.holdings)
    (vacancies : next.vacancies ⊆ cache.vacancies)
    (loads : leaders next.loads ⊆ leaders cache.loads) : Staged next where
  vacant key member := by
    have absent := get?_eq_none_iff_holdingsOf.mp (staged.vacant key (vacancies member))
    exact get?_eq_none_iff_holdingsOf.mpr fun holding held => absent holding (holdings held)
  own holding held call leads := staged.own holding (holdings held) call (loads leads)

theorem turn (staged : Staged cache) {frame : Frame} {rest : List Frame}
    (top : cache.stack = frame :: rest) (vacancies : next.vacancies = rest.filterMap Frame.vacant?)
    (holdings : next.store.holdings ⊆ cache.store.holdings)
    (loads : leaders next.loads ⊆ leaders cache.loads) : Staged next := by
  refine staged.shrink holdings ?_ loads
  rw [vacancies, Cache.vacancies, top]
  exact ((List.sublist_cons_self frame rest).filterMap _).subset

/-- A block has been taken out, and its key is to be kept vacant from now on. -/
theorem takeOut (staged : Staged cache) {admission : Admission} {holding : Holding}
    {rest : List Frame} (top : cache.stack = .concluding admission :: rest)
    (vacancies : next.vacancies = admission.key :: rest.filterMap Frame.vacant?)
    (holdings : cache.store.holdings.Perm (holding :: next.store.holdings))
    (key : holding.key = admission.key) (loads : next.loads = cache.loads) : Staged next where
  vacant other member := by
    rw [vacancies] at member
    apply get?_eq_none_iff_holdingsOf.mpr
    intro left held same
    rcases List.mem_cons.mp member with isTop | below
    · have keys : (cache.store.holdings.map Holding.key).Nodup :=
        keys_holdingsOf_nodup cache.store.entries
      rw [(holdings.map Holding.key).nodup_iff, List.map_cons, List.nodup_cons] at keys
      exact keys.1 (List.mem_map.mpr ⟨left, held, same.trans (isTop.trans key.symm)⟩)
    · have member : other ∈ cache.vacancies := by
        simpa [Cache.vacancies, top, Frame.vacant?, List.filterMap_cons] using below
      have absent := get?_eq_none_iff_holdingsOf.mp (staged.vacant other member)
      exact absent left (holdings.symm.subset (List.mem_cons_of_mem _ held)) same
  own left held call leads :=
    staged.own left (holdings.symm.subset (List.mem_cons_of_mem _ held)) call (loads ▸ leads)

/-- A claim has been made: nothing was found under the key. -/
theorem claim (staged : Staged cache) {call : Nat} {key : BlockKey}
    (absent : cache.store.entries.get? key = none) (store : next.store = cache.store)
    (vacancies : next.vacancies = key :: cache.vacancies)
    (loads : leaders next.loads = leaders cache.loads ++ [(key, call)]) : Staged next where
  vacant other member := by
    rw [store]
    rw [vacancies] at member
    rcases List.mem_cons.mp member with isTop | below
    · exact isTop ▸ absent
    · exact staged.vacant other below
  own holding held leader leads := by
    rw [store] at held
    rw [loads] at leads
    rcases List.mem_append.mp leads with old | isNew
    · exact staged.own holding held leader old
    · rw [List.mem_singleton] at isNew
      cases isNew
      exact absurd rfl (get?_eq_none_iff_holdingsOf.mp absent holding held)

/-- The loader of a key has returned: its value comes in, and blocks may have to go.  Since no two
frames hold the claim of one key, nobody else keeps the key vacant. -/
theorem bringIn (staged : Staged cache) (claimed : ClaimsMatch cache) {call : Nat} {key : BlockKey}
    {rest : List Frame} {payload : Payload} (top : cache.stack = .loading call key :: rest)
    (vacancies : next.vacancies = rest.filterMap Frame.vacant?) (loads : next.loads = cache.loads)
    (holdings : next.store.holdings ⊆ cache.store.holdings ++ [⟨key, payload, call⟩]) :
    Staged next where
  vacant other member := by
    rw [vacancies] at member
    apply get?_eq_none_iff_holdingsOf.mpr
    intro holding held same
    rcases List.mem_append.mp (holdings held) with old | isNew
    · have listed : other ∈ cache.vacancies := by
        simp [Cache.vacancies, top, Frame.vacant?, member]
      exact get?_eq_none_iff_holdingsOf.mp (staged.vacant other listed) holding old same
    · rw [List.mem_singleton] at isNew
      subst isNew
      have keys := claimed.keys_nodup
      simp only [claims, top, List.filterMap_cons, Frame.claim?, List.map_cons,
        List.nodup_cons] at keys
      have taken := mem_claimed_of_vacant? member
      rw [← same] at taken
      exact keys.1 taken
  own holding held leader leads := by
    rw [loads] at leads
    rcases List.mem_append.mp (holdings held) with old | isNew
    · exact staged.own holding old leader leads
    · rw [List.mem_singleton] at isNew
      subst isNew
      have mine : (key, call) ∈ leaders cache.loads :=
        claimed.subset (by simp [claims, top, Frame.claim?])
      rcases mem_leaders.mp mine with ⟨pending, held, same⟩
      rcases mem_leaders.mp leads with ⟨other, found, alsoSame⟩
      rw [held] at found
      cases found
      exact same.symm.trans alsoSame

end Staged

theorem Staged.accepted {cache next : Cache} {move : Move} (staged : Staged cache)
    (claimed : ClaimsMatch cache) (taken : Accepted cache move next) : Staged next := by
  cases taken with
  | found _ held | hit _ held =>
      exact staged.shrink (List.Perm.subset (.of_eq (Store.lookup?_holdings held)))
        (List.Subset.refl _) (List.Subset.refl _)
  | lateHit top _ held =>
      exact staged.turn top rfl (List.Perm.subset (.of_eq (Store.lookup?_holdings held)))
        (List.Subset.refl _)
  | missing | opened =>
      exact staged.shrink (List.Subset.refl _) (List.Subset.refl _) (List.Subset.refl _)
  | nothingDropped | sweepBegun =>
      exact staged.shrink (List.Subset.refl _) (List.Subset.refl _)
        (List.Perm.subset (.of_eq (leaders_overtaken _ _)))
  | dropped _ weighted taken =>
      refine staged.shrink ?_ ?_ (List.Perm.subset (.of_eq (leaders_overtaken _ _)))
      · rw [weighted]
        exact subset_of_perm_cons (WeightedStore.remove?_holdings taken)
      · simp [vacancies, Frame.vacant?, List.filterMap_cons]
  | cleared _ simple taken =>
      refine staged.shrink ?_ (List.Subset.refl _)
        (List.Perm.subset (.of_eq (leaders_overtaken _ _)))
      rw [simple]
      exact subset_of_perm_append (SimpleStore.removeWhere_holdings taken)
  | joined top _ =>
      exact staged.turn top rfl (List.Subset.refl _)
        (List.Perm.subset (.of_eq (leaders_modify _ _ _ fun _ => rfl)))
  | @claimed call key rest top free absent =>
      have leads : leaders (cache.loads.insert key ⟨call, false, []⟩) =
          leaders cache.loads ++ [(key, call)] := by
        simp [leaders, Table.rows_insert_of_get?_none free]
      refine staged.claim (Store.lookup?_eq_none_iff.mp absent) rfl ?_ leads
      simp [vacancies, top, Frame.vacant?, List.filterMap_cons]
  | @passBegun call key rest payload store top weighted _ _
  | @stored call key rest payload store top weighted _ =>
      have came := staged.insert_holdings top weighted payload
      exact staged.bringIn claimed top rfl rfl (List.Perm.subset (.of_eq came))
  | simplyStored top simple put =>
      have came := staged.put_holdings top simple put
      refine staged.bringIn claimed top ?_ rfl (subset_of_perm_append came)
      simp [vacancies]
  | overflown top simple put =>
      rcases SimpleStore.put_eq_error (staged.absent_simple top simple) put with ⟨-, rfl⟩
      refine staged.turn top rfl ?_ (leaders_released_subset _ _ _)
      rw [simple]
      exact List.Subset.refl _
  | failed top | panicked top =>
      exact staged.turn top rfl (List.Subset.refl _) (leaders_released_subset _ _ _)
  | listenerReturned top => exact staged.turn top rfl (List.Subset.refl _) (List.Subset.refl _)
  | passUnwound top =>
      -- the listener and the pass above it go together
      have entries := congrArg holdingsOf (releasePass_entries cache)
      refine staged.shrink (List.Perm.subset (.of_eq entries)) ?_ (leaders_released_subset _ _ _)
      simp [vacancies, top, Frame.vacant?, List.filterMap_cons]
  | loadUnwound top leading =>
      refine staged.shrink (List.Subset.refl _) ?_ (leaders_released_subset _ _ _)
      rcases leading with rfl | ⟨_, rfl⟩ | ⟨_, rfl⟩ <;>
        simp [vacancies, top, Frame.vacant?, List.filterMap_cons]
  | clearingUnwound top clearing =>
      refine staged.shrink (List.Subset.refl _) ?_ (List.Subset.refl _)
      rcases clearing with rfl | ⟨_, _, _, rfl⟩ | ⟨_, _, _, rfl⟩ <;>
        simp [vacancies, top, Frame.vacant?, List.filterMap_cons]

theorem Staged.advanced {cache next : Cache} (staged : Staged cache)
    (taken : Advanced cache next) : Staged next := by
  cases taken with
  | outdated top weighted _ first =>
      refine staged.turn top rfl ?_ (List.Subset.refl _)
      rw [weighted]
      exact List.Perm.subset (.of_eq (congrArg holdingsOf (WeightedStore.outdated_entries first)))
  | evicted top weighted _ first =>
      refine staged.turn top (by simp [vacancies, Frame.vacant?, List.filterMap_cons]) ?_
        (List.Subset.refl _)
      rw [weighted]
      exact subset_of_perm_cons (WeightedStore.evicted_holdings first)
  | passEnded top weighted _ =>
      refine staged.turn top rfl ?_ (List.Subset.refl _)
      rw [weighted]
      exact List.Subset.refl _
  | kept top _ | goneAlready top _ _ | retractionCounted top | retractionReported top =>
      exact staged.turn top rfl (List.Subset.refl _) (leaders_released_subset _ _ _)
  | retracted top _ weighted taken =>
      have gone := WeightedStore.remove?_holdings taken
      rw [← Store.holdings_weighted weighted] at gone
      exact staged.takeOut top (by simp [vacancies, Frame.vacant?]) gone rfl rfl
  | takenBack top _ simple taken =>
      have gone := SimpleStore.remove?_holdings taken
      rw [← Store.holdings_simple simple] at gone
      exact staged.takeOut top (by simp [vacancies, Frame.vacant?]) gone rfl rfl
  | dropCounted top | sweepEnded top =>
      have entries := congrArg holdingsOf (Store.compacted_entries cache.store)
      exact staged.turn top rfl (List.Perm.subset (.of_eq entries)) (List.Subset.refl _)
  | swept top weighted taken =>
      refine staged.turn top (by simp [vacancies, Frame.vacant?, List.filterMap_cons]) ?_
        (List.Subset.refl _)
      rw [weighted]
      exact subset_of_perm_cons (WeightedStore.removeLoaded?_holdings taken)
  | passedOver top _ _ | admissionReported top | clearingReported top =>
      exact staged.turn top rfl (List.Subset.refl _) (List.Subset.refl _)
  | @reported removal removals sequel rest top =>
      -- a frame that takes its own value back still keeps the key vacant
      refine staged.shrink (List.Subset.refl _) ?_ (List.Subset.refl _)
      cases sequel <;> simp [vacancies, top, Frame.vacant?, List.filterMap_cons]

/-- What is known of the calls and loads of a cache along every run, whatever panics.  Neither the
weights nor the listener are assumed to behave; in which order the frames stand is another matter,
see `Orderly`. -/
structure Coherent (cache : Cache) : Prop where
  numbered : Numbered 0 cache
  endedApart : EndedApart cache
  claimsMatch : ClaimsMatch cache
  staged : Staged cache

theorem coherent_kept (allowed : Cache → Move → Bool) : Kept allowed Coherent where
  accepted may coherent taken :=
    have both := (endedApart_kept allowed).accepted may
      ⟨coherent.numbered, coherent.endedApart⟩ taken
    ⟨both.1, both.2, coherent.claimsMatch.accepted taken,
      coherent.staged.accepted coherent.claimsMatch taken⟩
  advanced coherent taken :=
    have both := (endedApart_kept allowed).advanced ⟨coherent.numbered, coherent.endedApart⟩ taken
    ⟨both.1, both.2, coherent.claimsMatch.advanced taken, coherent.staged.advanced taken⟩

theorem coherent_start (store : Store) (listener : Listener) (empty : store.holdings = []) :
    Coherent (start store listener) where
  numbered := ⟨List.Pairwise.nil, by simp [numbers, start], by simp [numbers, start], Nat.le_refl 0⟩
  endedApart := by simp [EndedApart, Ended, start]
  claimsMatch := List.Perm.refl _
  staged := ⟨by simp [vacancies, start], by simp [start, empty]⟩

end Cache
end VolumeCache
