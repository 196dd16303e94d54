import Mathlib.Data.List.Basic
import VolumeCache.Proofs.AccessOrders
import VolumeCache.Proofs.Weights

namespace VolumeCache

/-!
# What the limits of a simple store take away

A simple store keeps its blocks, their weight and the order of their uses in three places.  While
these agree the blocks can be listed in the order of their uses, and the store may be thought of as
that list: a use moves a block to the end, a new block comes in at the end, and the limits take
blocks away from the front, as few as will do.

The order of the uses can be trusted only until the clock wraps; the limits can be trusted always.
A block that comes in has a record, so if the records run out before the limits hold, the block that
came in is gone and what is left was stored before.  The two are therefore kept apart here: what a
store keeps true in any case comes first, and the order is added to it.
-/

/-! ## Blocks listed by their keys -/

/-- The blocks under these keys, in the order of the keys. -/
def holdingsUnder (entries : Table BlockKey CachedBlock) (keys : List BlockKey) : List Holding :=
  keys.filterMap fun key => (entries.get? key).map fun block => Holding.ofRow (key, block)

section HoldingsUnder

variable {entries : Table BlockKey CachedBlock} {keys : List BlockKey} {key : BlockKey}

theorem holdingsUnder_append (first second : List BlockKey) :
    holdingsUnder entries (first ++ second) =
      holdingsUnder entries first ++ holdingsUnder entries second :=
  List.filterMap_append

theorem holdingsUnder_cons {block : CachedBlock} (held : entries.get? key = some block) :
    holdingsUnder entries (key :: keys) =
      Holding.ofRow (key, block) :: holdingsUnder entries keys := by
  simp [holdingsUnder, held]

theorem holdingsUnder_congr {others : Table BlockKey CachedBlock}
    (same : ∀ key ∈ keys, others.get? key = entries.get? key) :
    holdingsUnder others keys = holdingsUnder entries keys :=
  List.filterMap_congr fun key member => by rw [same key member]

theorem holdingsUnder_filter {stays : BlockKey → Bool}
    (absent : ∀ key ∈ keys, stays key = false → entries.get? key = none) :
    holdingsUnder entries (keys.filter stays) = holdingsUnder entries keys := by
  unfold holdingsUnder
  rw [List.filterMap_filter]
  apply List.filterMap_congr
  intro key member
  cases stay : stays key with
  | true => rfl
  | false => rw [absent key member stay]; rfl

/-- Every key that has a block is listed once, so every block is. -/
theorem holdingsUnder_perm (once : keys.Nodup)
    (complete : ∀ key, key ∈ keys ↔ (entries.get? key).isSome = true) :
    (holdingsUnder entries keys).Perm (holdingsOf entries) := by
  have same : keys.Perm entries.keys := by
    apply (List.perm_ext_iff_of_nodup once entries.distinct).mpr
    intro key
    rw [complete, Option.isSome_iff_ne_none, Ne, Table.get?_eq_none_iff, not_not]
  have whole : holdingsUnder entries entries.keys = holdingsOf entries := by
    unfold holdingsUnder Table.keys holdingsOf
    rw [List.filterMap_map]
    apply List.filterMap_eq_map_iff_forall_eq_some.mpr
    intro row member
    have held := (entries.get?_eq_some_iff row.1 row.2).mpr member
    simp [held]
  exact whole ▸ same.filterMap _

theorem keys_holdingsUnder (complete : ∀ key ∈ keys, (entries.get? key).isSome = true) :
    (holdingsUnder entries keys).map Holding.key = keys := by
  unfold holdingsUnder
  rw [List.map_filterMap]
  refine Eq.trans (List.filterMap_congr ?_) List.filterMap_some
  intro key member
  rcases Option.isSome_iff_exists.mp (complete key member) with ⟨block, held⟩
  simp [held, Holding.ofRow]

end HoldingsUnder

/-! ## Limits -/

/-- The blocks keep to a byte budget and to a limit on their number, if there is one.  Their weights
are summed without wrapping here, while a store sums them as words. -/
def KeepsTo (budget : UInt64) (limit : Option UInt64) (blocks : List Holding) : Prop :=
  weightOf blocks ≤ budget.toNat ∧ ∀ most, limit = some most → blocks.length ≤ most.toNat

theorem keepsTo_nil (budget : UInt64) (limit : Option UInt64) : KeepsTo budget limit [] :=
  ⟨Nat.zero_le _, fun _ _ => Nat.zero_le _⟩

theorem weightOf_le_of_sublist {few blocks : List Holding} (fewer : few.Sublist blocks) :
    weightOf few ≤ weightOf blocks := by
  induction fewer with
  | slnil => exact Nat.le_refl _
  | cons _ _ ih => exact Nat.le_trans ih (Nat.le_add_left _ _)
  | cons_cons _ _ ih => exact Nat.add_le_add_left ih _

theorem KeepsTo.sublist {budget : UInt64} {limit : Option UInt64} {few blocks : List Holding}
    (keeps : KeepsTo budget limit blocks) (fewer : few.Sublist blocks) :
    KeepsTo budget limit few :=
  ⟨Nat.le_trans (weightOf_le_of_sublist fewer) keeps.1,
    fun most limited => Nat.le_trans fewer.length_le (keeps.2 most limited)⟩

theorem KeepsTo.perm {budget : UInt64} {limit : Option UInt64} {blocks others : List Holding}
    (keeps : KeepsTo budget limit blocks) (same : blocks.Perm others) :
    KeepsTo budget limit others :=
  ⟨weightOf_perm same ▸ keeps.1, fun most limited => same.length_eq ▸ keeps.2 most limited⟩

/-- The shortest beginning of a list is taken away that leaves something fitting.  If nothing fits
but the empty list, everything is taken away; what fits is left open. -/
structure Trimmed {α : Type} (fits : List α → Prop) (whole gone left : List α) : Prop where
  split : whole = gone ++ left
  fit : fits left
  shortest : ∀ fewer rest, whole = fewer ++ rest → fits rest → gone.length ≤ fewer.length

theorem trimmed_of_fits {α : Type} {fits : List α → Prop} {whole : List α} (fit : fits whole) :
    Trimmed fits whole [] whole where
  split := rfl
  fit := fit
  shortest _ _ _ _ := Nat.zero_le _

/-- What does not fit loses its first element and then what the others have to lose. -/
theorem Trimmed.cons {α : Type} {fits : List α → Prop} {first : α} {whole gone left : List α}
    (unfit : ¬ fits (first :: whole)) (trimmed : Trimmed fits whole gone left) :
    Trimmed fits (first :: whole) (first :: gone) left where
  split := congrArg (first :: ·) trimmed.split
  fit := trimmed.fit
  shortest fewer rest split fit := by
    cases fewer with
    | nil => exact absurd (split ▸ fit) unfit
    | cons head fewer =>
        rw [List.cons_append, List.cons.injEq] at split
        exact Nat.succ_le_succ (trimmed.shortest fewer rest split.2 fit)

/-- If even the last element does not fit alone, nothing is left.  This is how a block heavier than
the budget flushes everything, itself included. -/
theorem Trimmed.nothing_left {α : Type} {fits : List α → Prop} {before gone left : List α}
    {last : α} (trimmed : Trimmed fits (before ++ [last]) gone left)
    (unfit : ∀ some, ¬ fits (some ++ [last])) : left = [] := by
  rcases List.eq_nil_or_concat left with nothing | ⟨some, final, same⟩
  · exact nothing
  · rw [List.concat_eq_append] at same
    have split := trimmed.split
    rw [same, ← List.append_assoc] at split
    have final_eq : [last] = [final] := (List.append_inj' split rfl).2
    exact absurd (same ▸ trimmed.fit) (final_eq ▸ unfit some)

/-! ## What a store keeps true in any case -/

namespace SimpleStore

variable {store : SimpleStore} {key : BlockKey} {block : CachedBlock}

/-- The notes of the uses are those of the stored blocks, every record tells the use noted under its
key, and the weight is that of the blocks.  It is not said that every block has a record, nor in
which order the records stand. -/
structure Consistent (store : SimpleStore) : Prop where
  traced : store.order.Traced
  tracked : ∀ key, (store.order.ticks.get? key).isSome = (store.entries.get? key).isSome
  weight : store.weight.toNat = weightOf (holdingsOf store.entries)

theorem consistent_empty (budget : UInt64) (limit : Option UInt64) :
    Consistent (.empty budget limit) where
  traced := AccessOrder.traced_empty
  tracked _ := rfl
  weight := rfl

/-- What the store compares with its limits is what its blocks weigh and how many they are.  For
this the weight must be the true sum, which no word that has wrapped would be. -/
theorem Consistent.keepsTo_iff (consistent : Consistent store) :
    store.overCapacity = false ↔
      KeepsTo store.budget store.maxEntries (holdingsOf store.entries) := by
  have size : (holdingsOf store.entries).length = store.entries.size := List.length_map _
  unfold overCapacity KeepsTo
  rw [Bool.or_eq_false_iff, decide_eq_false_iff_not, UInt64.not_lt, UInt64.le_iff_toNat_le,
    consistent.weight, size]
  refine and_congr_right fun _ => ?_
  cases store.maxEntries <;> simp

theorem Consistent.weight_erase (consistent : Consistent store)
    (held : store.entries.get? key = some block) :
    (store.weight - block.weight).toNat = weightOf (holdingsOf (store.entries.erase key)) := by
  have parts := weightOf_perm (holdingsOf_erase held)
  rw [weightOf_cons, ← consistent.weight] at parts
  have own : Holding.weight ⟨key, block.value, block.load⟩ = block.weight.toNat := rfl
  have covered : block.weight ≤ store.weight := by
    rw [UInt64.le_iff_toNat_le]
    omega
  rw [UInt64.toNat_sub_of_le _ _ covered]
  omega

theorem Consistent.remove? {left : SimpleStore} (consistent : Consistent store)
    (taken : store.remove? key = some (block, left)) : Consistent left := by
  rcases remove?_eq_some taken with ⟨held, rfl⟩
  refine ⟨consistent.traced.remove key, fun other => ?_, consistent.weight_erase held⟩
  dsimp only
  rw [AccessOrder.ticks_remove, Table.get?_erase, Table.get?_erase]
  split
  · rfl
  · exact consistent.tracked other

/-- The key in the first record has a block, which goes with it. -/
theorem Consistent.evictOldest? (consistent : Consistent store) {order : AccessOrder BlockKey}
    (oldest : store.order.evictOldest? = some (key, order)) :
    ∃ block left, store.entries.get? key = some block ∧
      { store with order := order }.remove? key = some (block, left) ∧
      left = { store with
        entries := store.entries.erase key
        order := order
        weight := store.weight - block.weight } ∧ Consistent left := by
  have noted := consistent.traced.oldest_tracked oldest
  rw [consistent.tracked] at noted
  rcases Option.isSome_iff_exists.mp noted with ⟨block, held⟩
  have traced := consistent.traced.evictOldest? oldest
  rcases AccessOrder.evictOldest?_eq_some oldest with ⟨tick, rest, -, rfl⟩
  refine ⟨block, _, held, ?_, rfl, traced, fun other => ?_, consistent.weight_erase held⟩
  · unfold SimpleStore.remove?
    dsimp only
    rw [held, AccessOrder.remove_of_unused (Table.get?_erase_self _ _)]
  · dsimp only
    rw [Table.get?_erase, Table.get?_erase]
    split
    · rfl
    · exact consistent.tracked other

theorem Consistent.lookup? {left : SimpleStore} {payload : Payload}
    (consistent : Consistent store) (found : store.lookup? key = some (payload, left)) :
    Consistent left := by
  rcases lookup?_eq_some found with ⟨block, held, -, rfl⟩
  refine ⟨consistent.traced.touch key, fun other => ?_, consistent.weight⟩
  change ((store.order.ticks.insert key (store.order.clock + 1)).get? other).isSome = _
  rw [Table.get?_insert]
  split
  · rename_i same
    rw [same, held]
    rfl
  · exact consistent.tracked other

theorem Consistent.insert (consistent : Consistent store)
    (absent : store.entries.get? key = none) (load : Nat) {value : Payload}
    (light : store.canWeigh value.weight = true) : Consistent (store.insert key load value) := by
  have blocks : holdingsOf (store.insert key load value).entries =
      holdingsOf store.entries ++ [⟨key, value, load⟩] := holdingsOf_insert absent _
  refine ⟨consistent.traced.touch key, fun other => ?_, ?_⟩
  · change ((store.order.ticks.insert key (store.order.clock + 1)).get? other).isSome =
      ((store.entries.insert key _).get? other).isSome
    rw [Table.get?_insert, Table.get?_insert]
    split
    · rfl
    · exact consistent.tracked other
  · have fits : store.weight.toNat + value.weight.toNat < 2 ^ 64 := by
      have most : largestWord.toNat = 2 ^ 64 - 1 := rfl
      rw [canWeigh, decide_eq_true_eq, most] at light
      omega
    change (store.weight + value.weight).toNat = _
    rw [blocks, weightOf_append, ← consistent.weight, UInt64.toNat_add, Nat.mod_eq_of_lt fits]
    rfl

/-- The return to the limits ends within them, or only once every block that had a record is gone.
Which blocks go first is not said, since the records need not stand in the order of the uses. -/
theorem Consistent.shrinkBy (consistent : Consistent store) {steps : Nat}
    (enough : store.order.order.size ≤ steps) :
    Consistent (store.shrinkBy steps).2 ∧
      (store.shrinkBy steps).2.budget = store.budget ∧
      (store.shrinkBy steps).2.maxEntries = store.maxEntries ∧
      (store.shrinkBy steps).2.order.clock = store.order.clock ∧
      ((store.shrinkBy steps).2.overCapacity = false ∨
        ∀ key ∈ store.order.keys, (store.shrinkBy steps).2.entries.get? key = none) := by
  induction steps generalizing store with
  | zero =>
      have unrecorded : store.order.keys = [] := by
        rw [AccessOrder.keys, List.map_eq_nil_iff]
        exact List.eq_nil_of_length_eq_zero (Nat.le_zero.mp enough)
      exact ⟨consistent, rfl, rfl, rfl, Or.inr (by simp [unrecorded])⟩
  | succ steps ih =>
      unfold SimpleStore.shrinkBy
      cases full : store.overCapacity with
      | false =>
          rw [if_neg Bool.false_ne_true]
          exact ⟨consistent, rfl, rfl, rfl, Or.inl full⟩
      | true =>
          rw [if_pos rfl]
          cases oldest : store.order.evictOldest? with
          | none =>
              have unrecorded := AccessOrder.evictOldest?_eq_none_iff.mp oldest
              exact ⟨consistent, rfl, rfl, rfl, Or.inr (by simp [unrecorded])⟩
          | some result =>
              obtain ⟨first, order⟩ := result
              have size := AccessOrder.size_evictOldest? oldest
              have clock := AccessOrder.clock_evictOldest? oldest
              rcases consistent.evictOldest? oldest with ⟨block, left, -, taken, rfl, after⟩
              rcases ih after (by dsimp only; omega) with
                ⟨final, budget, limit, sameClock, ends⟩
              dsimp only
              rw [taken]
              refine ⟨final, budget, limit, sameClock.trans clock, ends.imp_right ?_⟩
              intro emptied key listed
              rw [AccessOrder.keys_evictOldest? oldest] at listed
              rcases List.mem_cons.mp listed with rfl | later
              · exact shrinkBy_kept (fun store => store.entries.get? key = none)
                  (fun _ _ gone => gone)
                  (fun _ _ _ _ taken gone => by
                    rcases remove?_eq_some taken with ⟨-, rfl⟩
                    dsimp only
                    rw [Table.get?_erase, gone, ite_self])
                  steps (Table.get?_erase_self _ _)
              · exact emptied key later

/-! ### Within the limits -/

/-- The store has these limits and keeps to them.  Nothing is assumed of its clock, so this holds
after the clock has wrapped, too. -/
structure Confined (budget : UInt64) (limit : Option UInt64) (store : SimpleStore) : Prop where
  allowed : store.budget = budget
  most : store.maxEntries = limit
  consistent : Consistent store
  within : KeepsTo budget limit (holdingsOf store.entries)

variable {budget : UInt64} {limit : Option UInt64}

theorem confined_empty (budget : UInt64) (limit : Option UInt64) :
    Confined budget limit (.empty budget limit) where
  allowed := rfl
  most := rfl
  consistent := consistent_empty budget limit
  within := keepsTo_nil budget limit

theorem Confined.lookup? {left : SimpleStore} {payload : Payload}
    (confined : Confined budget limit store)
    (found : store.lookup? key = some (payload, left)) : Confined budget limit left := by
  have consistent := confined.consistent.lookup? found
  rcases lookup?_eq_some found with ⟨block, -, -, rfl⟩
  exact ⟨confined.allowed, confined.most, consistent, confined.within⟩

theorem Confined.remove? {left : SimpleStore} (confined : Confined budget limit store)
    (taken : store.remove? key = some (block, left)) : Confined budget limit left := by
  have consistent := confined.consistent.remove? taken
  have parts := remove?_holdings taken
  rcases remove?_eq_some taken with ⟨-, rfl⟩
  exact ⟨confined.allowed, confined.most, consistent,
    (confined.within.perm parts).sublist (List.sublist_cons_self _ _)⟩

/-- A block that is no longer there after the blocks were split up is among those that went, and the
others were there before it came. -/
theorem keepsTo_of_gone {blocks gone left : List Holding} {new : Holding}
    (keeps : KeepsTo budget limit blocks) (parts : (blocks ++ [new]).Perm (gone ++ left))
    (absent : new ∉ left) : KeepsTo budget limit left := by
  have listed : new ∈ gone ++ left := parts.subset (List.mem_append_right _ List.mem_cons_self)
  rcases List.append_of_mem ((List.mem_append.mp listed).resolve_right absent) with
    ⟨before, after, rfl⟩
  have others : (new :: blocks).Perm (new :: (before ++ (after ++ left))) := by
    refine (List.perm_append_singleton new blocks).symm.trans (parts.trans ?_)
    rw [List.append_assoc, List.cons_append]
    exact List.perm_middle
  refine (keeps.perm others.cons_inv).sublist ?_
  exact (List.sublist_append_right after left).trans (List.sublist_append_right before _)

/-- After an admission the store is within its limits again, whatever its clock has done. -/
theorem Confined.put {left : SimpleStore} {load : Nat} {value : Payload}
    {blocks : List (BlockKey × CachedBlock)} (confined : Confined budget limit store)
    (absent : store.entries.get? key = none)
    (put : store.put key load value = .ok (blocks, left)) : Confined budget limit left := by
  rcases put_eq_ok absent put with ⟨light, shrunk⟩
  have shrinks := (confined.consistent.insert absent load light).shrinkBy (Nat.le_refl _)
  unfold shrink at shrunk
  rw [shrunk] at shrinks
  rcases shrinks with ⟨consistent, sameBudget, sameLimit, -, ends⟩
  have allowed := sameBudget.trans confined.allowed
  have most := sameLimit.trans confined.most
  refine ⟨allowed, most, consistent, ?_⟩
  rcases ends with within | emptied
  · exact allowed ▸ most ▸ consistent.keepsTo_iff.mp within
  · -- The new block has a record, so it is gone, and the blocks left were stored before it came.
    have gone := emptied key (store.order.mem_keys_touch key)
    refine keepsTo_of_gone confined.within (put_holdings absent put) fun stored => ?_
    rcases mem_holdingsOf.mp stored with ⟨_, held, -⟩
    rw [gone] at held
    cases held

theorem Confined.removeWhere {left : SimpleStore} {scope : Scope}
    {blocks : List (BlockKey × CachedBlock)} (confined : Confined budget limit store)
    (taken : store.removeWhere scope = (blocks, left)) : Confined budget limit left := by
  have clears : Confined budget limit (store.removeWhere scope).2 :=
    removeAll_kept _ (fun _ _ _ _ taken before => before.remove? taken) _ confined
  rw [taken] at clears
  exact clears

/-! ## The store as a list -/

/-- The blocks in the order of their uses, the one used longest ago first. -/
def byUse (store : SimpleStore) : List Holding :=
  holdingsUnder store.entries store.order.keys

/-- A consistent store whose clock has moved forward at every use, so that every block has a record
and the records stand in the order of the uses.  This is what `Consistent` leaves out and what a
wrapped clock would break. -/
structure Tidy (store : SimpleStore) : Prop extends Consistent store where
  sound : store.order.Sound

theorem Tidy.complete (tidy : Tidy store) (key : BlockKey) :
    key ∈ store.order.keys ↔ (store.entries.get? key).isSome = true := by
  rw [tidy.sound.mem_keys, tidy.tracked]

theorem Tidy.unlisted (tidy : Tidy store) (absent : store.entries.get? key = none) :
    key ∉ store.order.keys := by
  rw [tidy.complete, absent]
  exact Bool.false_ne_true

theorem Tidy.keys_byUse (tidy : Tidy store) :
    store.byUse.map Holding.key = store.order.keys :=
  keys_holdingsUnder fun key member => (tidy.complete key).mp member

theorem Tidy.byUse_perm (tidy : Tidy store) : store.byUse.Perm (holdingsOf store.entries) :=
  holdingsUnder_perm tidy.sound.keys_nodup tidy.complete

theorem Tidy.overCapacity_iff (tidy : Tidy store) :
    store.overCapacity = false ↔ KeepsTo store.budget store.maxEntries store.byUse :=
  tidy.keepsTo_iff.trans
    ⟨fun keeps => keeps.perm tidy.byUse_perm.symm, fun keeps => keeps.perm tidy.byUse_perm⟩

theorem keepsTo_of_untracked (none : store.order.keys = []) : KeepsTo budget limit store.byUse := by
  rw [byUse, none]
  exact keepsTo_nil budget limit

/-! ### One block taken out -/

theorem Tidy.remove? {left : SimpleStore} (tidy : Tidy store)
    (taken : store.remove? key = some (block, left)) : Tidy left := by
  refine ⟨tidy.toConsistent.remove? taken, ?_⟩
  rcases remove?_eq_some taken with ⟨-, rfl⟩
  exact tidy.sound.remove key

/-! ### The oldest blocks taken away -/

/-- The key used longest ago has a block, the first in the order of uses; without it the store is
the list without its first element. -/
theorem Tidy.evictOldest? (tidy : Tidy store) {order : AccessOrder BlockKey}
    (oldest : store.order.evictOldest? = some (key, order)) :
    ∃ block left, { store with order := order }.remove? key = some (block, left) ∧ Tidy left ∧
      store.byUse = Holding.ofRow (key, block) :: left.byUse ∧
      left.budget = store.budget ∧ left.maxEntries = store.maxEntries ∧
      store.order.order.size = left.order.order.size + 1 := by
  have keys := AccessOrder.keys_evictOldest? oldest
  rcases tidy.toConsistent.evictOldest? oldest with ⟨block, left, held, taken, rfl, consistent⟩
  refine ⟨block, _, taken, ⟨consistent, tidy.sound.evictOldest? oldest⟩, ?_, rfl, rfl,
    AccessOrder.size_evictOldest? oldest⟩
  unfold byUse
  rw [keys, holdingsUnder_cons held]
  refine congrArg _ (holdingsUnder_congr fun other member => ?_)
  have once := tidy.sound.keys_nodup
  rw [keys, List.nodup_cons] at once
  have different : other ≠ key := fun same => once.1 (same ▸ member)
  exact (Table.get?_erase_of_ne _ different).symm

/-- Bringing a store within its limits takes away the shortest beginning that has to go. -/
theorem Tidy.shrinkBy (tidy : Tidy store) {steps : Nat} (enough : store.order.order.size ≤ steps) :
    (store.shrinkBy steps).2.order.Sound ∧
      Trimmed (KeepsTo store.budget store.maxEntries) store.byUse
        ((store.shrinkBy steps).1.map Holding.ofRow) (store.shrinkBy steps).2.byUse := by
  induction steps generalizing store with
  | zero =>
      have none : store.order.keys = [] := by
        rw [AccessOrder.keys, List.map_eq_nil_iff]
        exact List.eq_nil_of_length_eq_zero (Nat.le_zero.mp enough)
      exact ⟨tidy.sound, trimmed_of_fits (keepsTo_of_untracked none)⟩
  | succ steps ih =>
      unfold SimpleStore.shrinkBy
      cases full : store.overCapacity with
      | false =>
          rw [if_neg Bool.false_ne_true]
          exact ⟨tidy.sound, trimmed_of_fits (tidy.overCapacity_iff.mp full)⟩
      | true =>
          have heavy : ¬ KeepsTo store.budget store.maxEntries store.byUse := fun keeps => by
            rw [tidy.overCapacity_iff.mpr keeps] at full
            cases full
          rw [if_pos rfl]
          cases oldest : store.order.evictOldest? with
          | none =>
              have none := AccessOrder.evictOldest?_eq_none_iff.mp oldest
              exact absurd (keepsTo_of_untracked none) heavy
          | some result =>
              obtain ⟨key, order⟩ := result
              rcases tidy.evictOldest? oldest with
                ⟨block, left, taken, tidied, parts, budget, limit, size⟩
              rcases ih tidied (by omega) with ⟨sound, trimmed⟩
              dsimp only
              rw [taken]
              refine ⟨sound, ?_⟩
              rw [budget, limit] at trimmed
              rw [parts] at heavy ⊢
              exact trimmed.cons heavy

/-! ### Blocks looked up and brought in -/

theorem Tidy.lookup? {left : SimpleStore} {payload : Payload} (tidy : Tidy store)
    (forward : store.order.clock < store.order.clock + 1)
    (found : store.lookup? key = some (payload, left)) : Tidy left := by
  refine ⟨tidy.toConsistent.lookup? found, ?_⟩
  rcases lookup?_eq_some found with ⟨block, -, -, rfl⟩
  exact tidy.sound.touch forward key

theorem Tidy.keys_touch (tidy : Tidy store) (forward : store.order.clock < store.order.clock + 1)
    (absent : store.entries.get? key = none) :
    (store.order.touch key).keys = store.order.keys ++ [key] := by
  have alone : store.order.keys.filter (· != key) = store.order.keys := by
    apply List.filter_eq_self.mpr
    intro other member
    have different : other ≠ key := fun same => tidy.unlisted absent (same ▸ member)
    simpa using different
  rw [tidy.sound.keys_touch forward, alone]

theorem Tidy.insert (tidy : Tidy store) (forward : store.order.clock < store.order.clock + 1)
    (absent : store.entries.get? key = none) (load : Nat) {value : Payload}
    (light : store.canWeigh value.weight = true) :
    Tidy (store.insert key load value) ∧
      (store.insert key load value).byUse = store.byUse ++ [⟨key, value, load⟩] := by
  refine ⟨⟨tidy.toConsistent.insert absent load light, tidy.sound.touch forward key⟩, ?_⟩
  change holdingsUnder (store.entries.insert key _) (store.order.touch key).keys = _
  rw [tidy.keys_touch forward absent, holdingsUnder_append,
    holdingsUnder_cons ((Table.get?_insert ..).trans (if_pos rfl))]
  refine congrArg (· ++ _) (holdingsUnder_congr fun other member => ?_)
  have different : other ≠ key := fun same => tidy.unlisted absent (same ▸ member)
  rw [Table.get?_insert, if_neg different]

/-- A new block comes in at the end, and the shortest beginning that has to go makes room for it;
this may be everything, the new block included.  The clock must have room for one more use, and
nothing may be stored under the key. -/
theorem Tidy.put {left : SimpleStore} {load : Nat} {value : Payload}
    {blocks : List (BlockKey × CachedBlock)} (tidy : Tidy store)
    (forward : store.order.clock < store.order.clock + 1)
    (absent : store.entries.get? key = none)
    (put : store.put key load value = .ok (blocks, left)) :
    Tidy left ∧
      Trimmed (KeepsTo store.budget store.maxEntries)
        (store.byUse ++ [⟨key, value, load⟩]) (blocks.map Holding.ofRow) left.byUse ∧
      left.order.clock = store.order.clock + 1 := by
  rcases put_eq_ok absent put with ⟨light, shrunk⟩
  rcases tidy.insert forward absent load light with ⟨tidied, listed⟩
  have consistent := tidied.toConsistent.shrinkBy (Nat.le_refl _)
  have shrinks := tidied.shrinkBy (Nat.le_refl _)
  unfold shrink at shrunk
  rw [shrunk] at consistent
  rw [shrunk, listed] at shrinks
  exact ⟨⟨consistent.1, shrinks.1⟩, shrinks.2, consistent.2.2.2.1⟩

/-! ### Stores that follow a history of uses -/

/-- The store is within its limits and knows in which order its blocks were last used.  In the
history the latest use stands first; the clock has not gone beyond its length. -/
structure Ordered (budget : UInt64) (limit : Option UInt64) (history : List BlockKey)
    (store : SimpleStore) : Prop extends Confined budget limit store where
  sound : store.order.Sound
  follows : store.order.keys.Sublist (AccessOrder.lastUses history)
  past : store.order.clock.toNat ≤ history.length

variable {history : List BlockKey}

theorem ordered_empty (budget : UInt64) (limit : Option UInt64) :
    Ordered budget limit [] (.empty budget limit) where
  toConfined := confined_empty budget limit
  sound := AccessOrder.sound_empty
  follows := List.Sublist.slnil
  past := Nat.le_refl _

theorem Ordered.tidy (ordered : Ordered budget limit history store) : Tidy store :=
  ⟨ordered.consistent, ordered.sound⟩

theorem Ordered.forward (ordered : Ordered budget limit history store)
    (room : history.length + 1 < 2 ^ 64) :
    store.order.clock < store.order.clock + 1 ∧
      (store.order.clock + 1).toNat ≤ history.length + 1 := by
  rcases Timeline.next_tick ordered.past room with ⟨forward, next⟩
  exact ⟨forward, next ▸ Nat.succ_le_succ ordered.past⟩

/-- The order of uses that the store keeps is the one the history tells. -/
theorem Ordered.byUse_eq (ordered : Ordered budget limit history store) :
    holdingsUnder store.entries (AccessOrder.lastUses history) = store.byUse := by
  have stored : ∀ key ∈ store.order.keys, (store.entries.get? key).isSome = true :=
    fun key member => (ordered.tidy.complete key).mp member
  have same : store.order.keys =
      (AccessOrder.lastUses history).filter fun key => (store.entries.get? key).isSome := by
    have part := ordered.follows.filter fun key => (store.entries.get? key).isSome
    rw [List.filter_eq_self.mpr stored] at part
    have once := (AccessOrder.lastUses_nodup history).filter
      fun key => (store.entries.get? key).isSome
    have perm := (List.perm_ext_iff_of_nodup ordered.tidy.sound.keys_nodup once).mpr fun key =>
      ⟨fun member => part.subset member,
        fun member => (ordered.tidy.complete key).mpr (List.mem_filter.mp member).2⟩
    exact part.eq_of_length perm.length_eq
  rw [byUse, same]
  refine (holdingsUnder_filter fun key _ absent => ?_).symm
  exact Option.isNone_iff_eq_none.mp (by simpa using absent)

theorem Ordered.lookup? {left : SimpleStore} {payload : Payload}
    (ordered : Ordered budget limit history store) (room : history.length + 1 < 2 ^ 64)
    (found : store.lookup? key = some (payload, left)) :
    Ordered budget limit (key :: history) left := by
  rcases ordered.forward room with ⟨forward, past⟩
  have confined := ordered.toConfined.lookup? found
  have sound := (ordered.tidy.lookup? forward found).sound
  have follows := ordered.sound.follows_touch forward ordered.follows key
  rcases lookup?_eq_some found with ⟨block, -, -, rfl⟩
  exact ⟨confined, sound, follows, past⟩

theorem Ordered.put {left : SimpleStore} {load : Nat} {value : Payload}
    {blocks : List (BlockKey × CachedBlock)} (ordered : Ordered budget limit history store)
    (room : history.length + 1 < 2 ^ 64) (absent : store.entries.get? key = none)
    (put : store.put key load value = .ok (blocks, left)) :
    Ordered budget limit (key :: history) left ∧
      Trimmed (KeepsTo budget limit) (store.byUse ++ [⟨key, value, load⟩])
        (blocks.map Holding.ofRow) left.byUse := by
  rcases ordered.forward room with ⟨forward, past⟩
  rcases ordered.tidy.put forward absent put with ⟨tidy, trimmed, clock⟩
  have follows := ordered.sound.follows_touch forward ordered.follows key
  rw [ordered.allowed, ordered.most] at trimmed
  have keys : left.order.keys.Sublist (store.order.touch key).keys := by
    have listed := congrArg (List.map Holding.key) trimmed.split
    rw [List.map_append, List.map_append, ordered.tidy.keys_byUse, tidy.keys_byUse] at listed
    rw [ordered.tidy.keys_touch forward absent]
    exact listed ▸ List.sublist_append_right _ _
  exact ⟨⟨ordered.toConfined.put absent put, tidy.sound, keys.trans follows, clock ▸ past⟩,
    trimmed⟩

theorem Ordered.remove? {left : SimpleStore} (ordered : Ordered budget limit history store)
    (taken : store.remove? key = some (block, left)) : Ordered budget limit history left := by
  have confined := ordered.toConfined.remove? taken
  have follows := ordered.sound.follows_remove ordered.follows key
  have clock := AccessOrder.clock_remove store.order key
  rcases remove?_eq_some taken with ⟨-, rfl⟩
  exact ⟨confined, ordered.sound.remove key, follows, clock ▸ ordered.past⟩

theorem Ordered.removeWhere {left : SimpleStore} {scope : Scope}
    {blocks : List (BlockKey × CachedBlock)} (ordered : Ordered budget limit history store)
    (taken : store.removeWhere scope = (blocks, left)) : Ordered budget limit history left := by
  have clears : Ordered budget limit history (store.removeWhere scope).2 :=
    removeAll_kept _ (fun _ _ _ _ taken before => before.remove? taken) _ ordered
  rw [taken] at clears
  exact clears

end SimpleStore
end VolumeCache
