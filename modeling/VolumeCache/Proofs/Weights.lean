import VolumeCache.Proofs.Changes

namespace VolumeCache

/-!
# The weight of a store

A store keeps its weight as a word beside its blocks.  The word is the sum of the blocks' weights,
reduced to a word, whatever happens to the store: nothing is assumed here about the weights of the
values that come in.  Only where these are light enough does the word also tell the sum itself.
-/

/-- The weights of blocks, summed without wrapping. -/
def weightOf (holdings : List Holding) : Nat :=
  (holdings.map Holding.weight).sum

@[simp] theorem weightOf_nil : weightOf [] = 0 := rfl

@[simp] theorem weightOf_cons (holding : Holding) (holdings : List Holding) :
    weightOf (holding :: holdings) = holding.weight + weightOf holdings := rfl

@[simp] theorem weightOf_append (first second : List Holding) :
    weightOf (first ++ second) = weightOf first + weightOf second := by
  simp [weightOf]

theorem weightOf_perm {first second : List Holding} (same : first.Perm second) :
    weightOf first = weightOf second :=
  (same.map Holding.weight).sum_nat

theorem Cache.heldWeight_eq (cache : Cache) : cache.heldWeight = weightOf cache.store.holdings := by
  simp [heldWeight, weightOf, Store.holdings, holdingsOf, Function.comp_def, Holding.ofRow,
    Holding.weight, CachedBlock.weight]

/-! ## Words that stand for sums -/

private theorem word_add {word : UInt64} {sum : Nat} (stands : word = UInt64.ofNat sum)
    (weight : UInt64) : word + weight = UInt64.ofNat (sum + weight.toNat) := by
  rw [stands, UInt64.ofNat_add, UInt64.ofNat_toNat]

private theorem word_sub {word weight : UInt64} {sum : Nat}
    (stands : word = UInt64.ofNat (weight.toNat + sum)) : word - weight = UInt64.ofNat sum := by
  rw [stands, UInt64.ofNat_add, UInt64.ofNat_toNat, UInt64.add_comm, UInt64.add_sub_cancel]

theorem toNat_of_word {word : UInt64} {sum : Nat} (stands : word = UInt64.ofNat sum)
    (light : sum < 2 ^ 64) : word.toNat = sum := by
  rw [stands, UInt64.toNat_ofNat_of_lt' light]

/-! ## Simple stores -/

namespace SimpleStore

/-- The weight is the sum of the weights of the blocks as a word.  Whether the sum itself fits into
a word is not said. -/
def Weighed (store : SimpleStore) : Prop :=
  store.weight = UInt64.ofNat (weightOf (holdingsOf store.entries))

theorem Weighed.remove? {store left : SimpleStore} {key : BlockKey} {block : CachedBlock}
    (taken : store.remove? key = some (block, left)) (weighed : Weighed store) : Weighed left := by
  have parts := weightOf_perm (remove?_holdings taken)
  rcases remove?_eq_some taken with ⟨-, rfl⟩
  unfold Weighed at weighed ⊢
  rw [parts, weightOf_cons] at weighed
  exact word_sub weighed

theorem Weighed.insert {store : SimpleStore} {key : BlockKey} (weighed : Weighed store)
    (absent : store.entries.get? key = none) (load : Nat) (value : Payload) :
    Weighed (store.insert key load value) := by
  have blocks : holdingsOf (store.insert key load value).entries =
      holdingsOf store.entries ++ [⟨key, value, load⟩] := holdingsOf_insert absent _
  unfold Weighed at weighed ⊢
  rw [blocks, weightOf_append]
  exact word_add weighed value.weight

theorem Weighed.put {store left : SimpleStore} {key : BlockKey} {load : Nat} {value : Payload}
    {blocks : List (BlockKey × CachedBlock)} (weighed : Weighed store)
    (absent : store.entries.get? key = none)
    (put : store.put key load value = .ok (blocks, left)) : Weighed left := by
  rcases put_eq_ok absent put with ⟨-, shrunk⟩
  have shrinks : Weighed (store.insert key load value).shrink.2 :=
    shrinkBy_kept Weighed (fun _ _ before => before) (fun _ _ _ _ taken => Weighed.remove? taken) _
      (weighed.insert absent load value)
  rw [shrunk] at shrinks
  exact shrinks

theorem Weighed.removeWhere {store left : SimpleStore} {scope : Scope}
    {blocks : List (BlockKey × CachedBlock)} (weighed : Weighed store)
    (taken : store.removeWhere scope = (blocks, left)) : Weighed left := by
  have clears : Weighed (store.removeWhere scope).2 :=
    removeAll_kept Weighed (fun _ _ _ _ taken => Weighed.remove? taken) _ weighed
  rw [taken] at clears
  exact clears

end SimpleStore

/-! ## Stores of either kind -/

namespace Store

def Weighed (store : Store) : Prop :=
  store.weight = UInt64.ofNat (weightOf store.holdings)

theorem holdings_empty (kind : StoreKind) (budget : UInt64) (limit : Option UInt64) :
    (empty kind budget limit).holdings = [] := by
  cases kind <;> rfl

theorem weighed_empty (kind : StoreKind) (budget : UInt64) (limit : Option UInt64) :
    Weighed (empty kind budget limit) := by
  cases kind <;> rfl

theorem lookup?_weight {store after : Store} {key : BlockKey} {payload : Payload}
    (found : store.lookup? key = some (payload, after)) : after.weight = store.weight := by
  rcases lookup?_eq_some found with ⟨inner, left, rfl, taken, rfl⟩ | ⟨inner, left, rfl, taken, rfl⟩
  · rcases WeightedStore.lookup?_eq_some taken with ⟨block, -, -, rfl⟩
    rfl
  · rcases SimpleStore.lookup?_eq_some taken with ⟨block, -, -, rfl⟩
    rfl

private theorem weighed_discard {store : WeightedStore} {key : BlockKey} {block : CachedBlock}
    (held : store.entries.get? key = some block) (weighed : Weighed (.weighted store)) :
    Weighed (.weighted (store.discard key block)) := by
  have parts := weightOf_perm (WeightedStore.discard_holdings held)
  have sum : store.total = UInt64.ofNat (weightOf (holdingsOf store.entries)) := weighed
  rw [parts, weightOf_cons] at sum
  exact word_sub sum

theorem Changed.weighed {before after : Store} {change : Change}
    (changed : Changed before change after) (weighed : Weighed before) : Weighed after := by
  cases changed with
  | same | flagged => exact weighed
  | used found =>
      unfold Weighed
      rw [lookup?_weight found, lookup?_holdings found]
      exact weighed
  | @admitted store key load payload evicting absent =>
      have sum : store.total = UInt64.ofNat (weightOf (holdingsOf store.entries)) := weighed
      have grown := word_add sum payload.weight
      simp only [Weighed, weight, holdings, entries]
      rw [WeightedStore.insert_holdings absent, weightOf_append]
      simp only [WeightedStore.insert, absent, UInt64.sub_zero]
      exact grown
  | put absent taken => exact SimpleStore.Weighed.put weighed absent taken
  | discarded held => exact weighed_discard held weighed
  | outdated first =>
      rcases WeightedStore.reindexed_of_outdated first with ⟨recency, rfl⟩
      exact weighed
  | @evicted store left key block first =>
      rcases WeightedStore.examine_eq_evicted first with ⟨rest, -, held, rfl⟩
      have popped : Weighed (.weighted { store with recency := rest }) := weighed
      exact weighed_discard held popped
  | compacted due =>
      rw [WeightedStore.compact?_eq_some due]
      exact weighed
  | cleared taken => exact SimpleStore.Weighed.removeWhere weighed taken
  | takenBack taken => exact SimpleStore.Weighed.remove? taken weighed

end Store

def Change.incoming : Change → Nat
  | .admission payload => payload.weight.toNat
  | _ => 0

theorem Store.Changed.weightOf_le {before after : Store} {change : Change}
    (changed : Changed before change after) :
    weightOf after.holdings ≤ weightOf before.holdings + change.incoming := by
  cases changed with
  | same | flagged => exact Nat.le_refl _
  | used found => exact Nat.le_of_eq (congrArg weightOf (lookup?_holdings found))
  | @admitted store key load payload evicting absent =>
      have parts := congrArg weightOf (WeightedStore.insert_holdings absent load payload)
      rw [weightOf_append] at parts
      exact Nat.le_of_eq parts
  | put absent taken =>
      have parts := weightOf_perm (SimpleStore.put_holdings absent taken)
      simp only [weightOf_append, weightOf_cons, weightOf_nil, Holding.weight] at parts
      simp only [holdings, entries, Change.incoming]
      omega
  | discarded held =>
      have parts := weightOf_perm (WeightedStore.discard_holdings held)
      rw [weightOf_cons] at parts
      simp only [holdings, entries, Change.incoming]
      omega
  | outdated first =>
      exact Nat.le_of_eq (congrArg (weightOf ∘ holdingsOf) (WeightedStore.outdated_entries first))
  | evicted first =>
      have parts := weightOf_perm (WeightedStore.evicted_holdings first)
      rw [weightOf_cons] at parts
      simp only [holdings, entries, Change.incoming]
      omega
  | compacted due =>
      rw [WeightedStore.compact?_eq_some due]
      exact Nat.le_refl _
  | cleared taken =>
      have parts := weightOf_perm (SimpleStore.removeWhere_holdings taken)
      rw [weightOf_append] at parts
      simp only [holdings, entries, Change.incoming]
      omega
  | takenBack taken =>
      have parts := weightOf_perm (SimpleStore.remove?_holdings taken)
      rw [weightOf_cons] at parts
      simp only [holdings, entries, Change.incoming]
      omega

/-! ## Along runs -/

namespace Cache

/-- The weights stored fit into a word together, and the weight the cache accounts for is their sum.
This is kept only by loaders that return values light enough, see `Cache.fits`. -/
structure Weighed (cache : Cache) : Prop where
  word : cache.store.Weighed
  light : cache.heldWeight < 2 ^ 64

theorem Weighed.toNat {cache : Cache} (weighed : Weighed cache) :
    cache.store.weight.toNat = cache.heldWeight := by
  have sum : cache.store.weight = UInt64.ofNat cache.heldWeight :=
    cache.heldWeight_eq ▸ weighed.word
  exact toNat_of_word sum weighed.light

theorem weighed_start (store : Store) (listener : Listener) (empty : store.holdings = [])
    (word : store.Weighed) : Weighed (start store listener) := by
  refine ⟨word, ?_⟩
  rw [heldWeight_eq]
  change weightOf store.holdings < _
  rw [empty]
  exact Nat.pow_pos Nat.zero_lt_two

theorem Weighed.put_ne_error {cache : Cache} {call : Nat} {key : BlockKey} {rest : List Frame}
    {payload : Payload} {store left : SimpleStore} (weighed : Weighed cache)
    (staged : Staged cache) (fit : cache.fits (.loaderReturns payload) = true)
    (top : cache.stack = .loading call key :: rest) (simple : cache.store = .simple store) :
    store.put key call payload ≠ .error left := by
  intro refused
  have heavy := (SimpleStore.put_eq_error (staged.absent_simple top simple) refused).1
  have sum := weighed.toNat
  rw [simple] at sum
  have light : store.weight.toNat + payload.weight.toNat < 2 ^ 64 := by
    change store.weight.toNat = _ at sum
    rw [sum]
    simpa [fits] using fit
  have most : largestWord.toNat = 2 ^ 64 - 1 := rfl
  rw [SimpleStore.canWeigh, decide_eq_false_iff_not, most] at heavy
  omega

theorem light_of_changed {cache next : Cache} {change : Change}
    (changed : Store.Changed cache.store change next.store)
    (light : cache.heldWeight + change.incoming < 2 ^ 64) : next.heldWeight < 2 ^ 64 := by
  have bounded := changed.weightOf_le
  rw [heldWeight_eq] at light ⊢
  omega

theorem Weighed.accepted {cache next : Cache} {move : Move} (weighed : Weighed cache)
    (staged : Staged cache) (fit : cache.fits move = true) (taken : Accepted cache move next) :
    Weighed next := by
  rcases changed_of_accepted staged taken with ⟨change, changed, -, comes⟩
  have light := weighed.light
  refine ⟨changed.weighed weighed.word, light_of_changed changed ?_⟩
  cases change with
  | use => exact light
  | upkeep => exact light
  | admission payload =>
      rw [comes payload rfl] at fit
      simpa [fits, Change.incoming] using fit

theorem Weighed.advanced {cache next : Cache} (weighed : Weighed cache)
    (taken : Advanced cache next) : Weighed next := by
  have changed := (changed_of_advanced taken).1
  exact ⟨changed.weighed weighed.word, light_of_changed changed weighed.light⟩

theorem weighed_kept : Kept fits fun cache => Coherent cache ∧ Weighed cache :=
  (coherent_kept fits).and
    (fun fit coherent weighed taken => weighed.accepted coherent.staged fit taken)
    (fun _ weighed taken => weighed.advanced taken)

end Cache
end VolumeCache
