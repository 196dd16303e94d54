import Mathlib.Logic.Function.Iterate
import VolumeCache.Proofs.AccessOrders
import VolumeCache.Proofs.Journal
import VolumeCache.Proofs.Settling
import VolumeCache.Proofs.Weights

namespace VolumeCache

/-!
# One call after the other

A cache that is at rest, with nobody listening, answers a call and is at rest again, and what it
holds then depends on what it held before and on nothing else.  So what a sequence of calls leads to
is put together from the single calls, and the same call made over and over comes to a power of one
function of the store.  In this way a clock can be followed for as many ticks as a word can count.

Two such powers are given in closed form.  A key that is touched again and again, or found again and
again, has the time of its last use only; a block that is stored and taken back again and again
leaves one record of the index for each time.
-/

def BlockKey.nth (number : UInt64) : BlockKey :=
  ⟨⟨0⟩, 0, 0, .index number⟩

/-! ## Stores -/

namespace AccessOrder

variable {κ : Type} [DecidableEq κ] {order : AccessOrder κ}

/-- The order in which this was the time of the last use of a key.  The clock is set to it, wherever
it stood before. -/
def stamp (order : AccessOrder κ) (key : κ) (tick : UInt64) : AccessOrder κ where
  clock := tick
  ticks := order.ticks.insert key tick
  order := (order.remove key).2.order.insert tick key

theorem touch_eq_stamp (order : AccessOrder κ) (key : κ) :
    order.touch key = order.stamp key (order.clock + 1) := by
  unfold touch stamp remove
  cases order.ticks.get? key <;> rfl

theorem mem_records_remove {key : κ} {record : UInt64 × κ}
    (member : record ∈ (order.remove key).2.order.records) : record ∈ order.order.records := by
  cases used : order.ticks.get? key with
  | none => rwa [remove_of_unused used] at member
  | some tick =>
      rw [remove_of_used used] at member
      exact (Timeline.mem_records_erase.mp member).1

/-- A key that was stamped is only stamped anew, unless its record has taken another one's place.
The clock moves from one stamp to the next and may wrap in between. -/
theorem touch_stamp {key : κ} {tick : UInt64}
    (apart : ∀ record ∈ order.order.records, record.1 ≠ tick) :
    (order.stamp key tick).touch key = order.stamp key (tick + 1) := by
  have used : (order.stamp key tick).ticks.get? key = some tick := by
    rw [stamp, Table.get?_insert, if_pos rfl]
  have records : ((order.stamp key tick).remove key).2.order = (order.remove key).2.order := by
    rw [remove_of_used used]
    exact Timeline.erase_insert fun record member => apart record (mem_records_remove member)
  rw [touch_eq_stamp, stamp, records]
  simp only [stamp, Table.insert_insert]

/-- Of many uses of one key the last one counts, and it may be the one at which the clock wraps.
The keys used before it must not be noted at a time that is still to come. -/
theorem iterate_touch (key : κ) {count : Nat} (room : order.clock.toNat + count < 2 ^ 64)
    (past : ∀ record ∈ order.order.records, record.1 ≤ order.clock) :
    (fun order => touch order key)^[count + 1] order =
      order.stamp key (order.clock + UInt64.ofNat (count + 1)) := by
  induction count with
  | zero => exact touch_eq_stamp order key
  | succ count ih =>
      have forward : order.clock < order.clock + UInt64.ofNat (count + 1) := by
        rw [UInt64.lt_iff_toNat_lt, Timeline.toNat_ahead room]
        omega
      have apart : ∀ record ∈ order.order.records,
          record.1 ≠ order.clock + UInt64.ofNat (count + 1) := fun record member =>
        UInt64.ne_of_lt (UInt64.lt_of_le_of_lt (past record member) forward)
      rw [Function.iterate_succ_apply', ih (Nat.lt_of_succ_lt room), touch_stamp apart,
        Timeline.ahead_succ]

theorem lastUses_replicate (count : Nat) (key : κ) (earlier : List κ) :
    lastUses (List.replicate count key ++ key :: earlier) = lastUses (key :: earlier) := by
  induction count with
  | zero => rfl
  | succ count ih =>
      rw [List.replicate_succ, List.cons_append, lastUses, ih]
      simp [lastUses, List.filter_filter]

end AccessOrder

def SimpleStore.used (store : SimpleStore) (key : BlockKey) : SimpleStore :=
  { store with order := store.order.touch key }

theorem SimpleStore.put_of_room {store : SimpleStore} {key : BlockKey} {load : Nat}
    {value : Payload} (absent : store.entries.get? key = none)
    (weighs : store.canWeigh value.weight = true)
    (within : (store.insert key load value).overCapacity = false) :
    store.put key load value = .ok ([], store.insert key load value) := by
  have same : store.without key = store := by rw [without, remove?, absent]
  have nothing : ∀ steps, shrinkBy steps (store.insert key load value) =
      ([], store.insert key load value) := by
    intro steps
    cases steps with
    | zero => rfl
    | succ steps => simp [shrinkBy, within]
  rw [put, same, if_pos weighs, shrink, nothing]

namespace WeightedStore

variable {store : WeightedStore} {key : BlockKey}

def used (store : WeightedStore) (key : BlockKey) : WeightedStore :=
  { store with
    clock := store.clock + 1
    entries := store.entries.modify key (·.touch (store.clock + 1)) }

/-- Of many uses of one block the last one counts, as long as the clock does not wrap. -/
theorem iterate_used {count : Nat} (room : store.clock.toNat + (count + 1) < 2 ^ 64) :
    (fun store => used store key)^[count + 1] store =
      { store with
        clock := store.clock + UInt64.ofNat (count + 1)
        entries := store.entries.modify key
          (·.touch (store.clock + UInt64.ofNat (count + 1))) } := by
  induction count with
  | zero => rfl
  | succ count ih =>
      have less : store.clock.toNat + (count + 1) < 2 ^ 64 := Nat.lt_of_succ_lt room
      have forward : store.clock + UInt64.ofNat (count + 1) ≤
          store.clock + UInt64.ofNat (count + 1 + 1) := by
        rw [UInt64.le_iff_toNat_le, Timeline.toNat_ahead less, Timeline.toNat_ahead room]
        omega
      have last : ∀ block : CachedBlock,
          (block.touch (store.clock + UInt64.ofNat (count + 1))).touch
            (store.clock + UInt64.ofNat (count + 1 + 1)) =
          block.touch (store.clock + UInt64.ofNat (count + 1 + 1)) := fun block =>
        block.touch_touch forward
      rw [Function.iterate_succ_apply', ih less, used]
      simp only [Timeline.ahead_succ, Table.modify_modify, last]

/-- At the use at which the clock wraps the block keeps the time of the use before.  Times only move
forward in a block, and zero is not later than any. -/
theorem iterate_used_wrapped {count : Nat} (wraps : store.clock.toNat + (count + 2) = 2 ^ 64) :
    (fun store => used store key)^[count + 2] store =
      { store with clock := 0, entries := store.entries.modify key (·.touch largestWord) } := by
  have last : store.clock + UInt64.ofNat (count + 1) = largestWord := by
    apply UInt64.toNat_inj.mp
    rw [Timeline.toNat_ahead (by omega)]
    exact Nat.add_right_cancel (m := 1) wraps
  have zero : largestWord + 1 = 0 := rfl
  rw [Function.iterate_succ_apply', iterate_used (by omega), last, used]
  simp only [zero, Table.modify_modify, CachedBlock.touch_zero]

/-- The store after a new block under a key was stored and taken out again.  The clock has moved on
and the index has a record more; the weight is what it was. -/
def passed (store : WeightedStore) (key : BlockKey) : WeightedStore :=
  { store with
    clock := store.clock + 1
    recency := store.recency.insert (store.clock + 1) key }

/-- A block that is taken out right after it has come in leaves its record behind. -/
theorem taken_back (absent : store.entries.get? key = none) (load : Nat) (value : Payload) :
    (store.insert key load value).remove? key =
      some (⟨value, store.clock + 1, load⟩, store.passed key) := by
  have left : (store.insert key load value).discard key ⟨value, store.clock + 1, load⟩ =
      store.passed key := by
    simp only [discard, insert, passed, absent, CachedBlock.weight, UInt64.sub_zero,
      UInt64.add_sub_cancel, Table.erase_insert_of_get?_none absent]
  rw [← left]
  simp [remove?, insert, Table.get?_insert]

theorem within_of_room {value : Payload} (absent : store.entries.get? key = none)
    (room : store.total + value.weight ≤ store.budget) (load : Nat) :
    (store.insert key load value).overBudget = false := by
  simpa [overBudget, insert, absent] using room

theorem iterate_passed (store : WeightedStore) (key : BlockKey) (count : Nat) :
    ∃ clock recency, (fun store => passed store key)^[count] store =
      { store with clock := clock, recency := recency } := by
  induction count with
  | zero => exact ⟨store.clock, store.recency, rfl⟩
  | succ count ih =>
      rcases ih with ⟨clock, recency, passed⟩
      rw [Function.iterate_succ_apply', passed]
      exact ⟨_, _, rfl⟩

/-- Blocks of one key have come and gone, each leaving a record behind.  The clock has counted them,
no record is ahead of it, and the blocks stored before are as they were. -/
structure Strewn (key : BlockKey) (count : Nat) (before after : WeightedStore) : Prop where
  same : after = { before with clock := after.clock, recency := after.recency }
  clock : after.clock = before.clock + UInt64.ofNat count
  records : ∃ added, after.recency.records = before.recency.records ++ added ∧
    added.length = count ∧ ∀ record ∈ added, record.2 = key
  past : ∀ record ∈ after.recency.records, record.1 ≤ after.clock

theorem Strewn.refl (past : ∀ record ∈ store.recency.records, record.1 ≤ store.clock) :
    Strewn key 0 store store :=
  ⟨rfl, (UInt64.add_zero _).symm, ⟨[], (List.append_nil _).symm, rfl, nofun⟩, past⟩

theorem Strewn.passed {count : Nat} {before after : WeightedStore}
    (strewn : Strewn key count before after) (room : before.clock.toNat + (count + 1) < 2 ^ 64) :
    Strewn key (count + 1) before (after.passed key) := by
  rcases strewn with ⟨same, clock, ⟨added, records, length, keys⟩, past⟩
  have next : after.clock + 1 = before.clock + UInt64.ofNat (count + 1) := by
    rw [clock, Timeline.ahead_succ]
  have forward : after.clock < after.clock + 1 := by
    rw [UInt64.lt_iff_toNat_lt, next, clock, Timeline.toNat_ahead room,
      Timeline.toNat_ahead (Nat.lt_of_succ_lt room)]
    omega
  have later : ∀ record ∈ after.recency.records, record.1 < after.clock + 1 :=
    fun record member => UInt64.lt_of_le_of_lt (past record member) forward
  have placed : (after.passed key).recency.records =
      after.recency.records ++ [(after.clock + 1, key)] := Timeline.place_of_later later
  refine ⟨?_, next, ⟨added ++ [(after.clock + 1, key)], ?_, ?_, ?_⟩, ?_⟩
  · rw [same]
    rfl
  · rw [placed, records, List.append_assoc]
  · rw [List.length_append, length, List.length_singleton]
  · intro record member
    rcases List.mem_append.mp member with old | isNew
    · exact keys record old
    · rw [List.mem_singleton.mp isNew]
  · intro record member
    rw [placed] at member
    rcases List.mem_append.mp member with old | isNew
    · exact UInt64.le_of_lt (later record old)
    · rw [List.mem_singleton.mp isNew]
      exact UInt64.le_refl _

theorem Strewn.keys {count : Nat} {before after : WeightedStore}
    (strewn : Strewn key count before after)
    (own : ∀ record ∈ before.recency.records, record.2 = key) :
    ∀ record ∈ after.recency.records, record.2 = key := by
  rcases strewn.records with ⟨added, records, -, keys⟩
  rw [records]
  intro record member
  exact (List.mem_append.mp member).elim (own record) (keys record)

theorem strewn_iterate_passed (past : ∀ record ∈ store.recency.records, record.1 ≤ store.clock)
    {count : Nat} (room : store.clock.toNat + count < 2 ^ 64) :
    Strewn key count store ((fun store => passed store key)^[count] store) := by
  induction count with
  | zero => exact .refl past
  | succ count ih =>
      rw [Function.iterate_succ_apply']
      exact (ih (Nat.lt_of_succ_lt room)).passed room

end WeightedStore

namespace Store

def used (key : BlockKey) : Store → Store
  | .weighted store => .weighted (store.used key)
  | .simple store => .simple (store.used key)

variable {store : Store} {key : BlockKey}

theorem lookup?_eq_used {block : CachedBlock} (held : store.entries.get? key = some block) :
    store.lookup? key = some (block.value, store.used key) := by
  cases store with
  | weighted inner =>
      have found : inner.entries.get? key = some block := held
      simp [lookup?, WeightedStore.lookup?, found, used, WeightedStore.used]
  | simple inner =>
      have found : inner.entries.get? key = some block := held
      simp [lookup?, SimpleStore.lookup?, found, used, SimpleStore.used]

theorem isSome_get?_used :
    ((store.used key).entries.get? key).isSome = (store.entries.get? key).isSome := by
  cases store with
  | weighted inner => simp [used, entries, WeightedStore.used, Table.get?_modify]
  | simple inner => rfl

theorem isSome_get?_iterate_used (count : Nat) :
    (((used key)^[count] store).entries.get? key).isSome = (store.entries.get? key).isSome := by
  induction count with
  | zero => rfl
  | succ count ih => rw [Function.iterate_succ_apply', isSome_get?_used, ih]

theorem iterate_used_weighted (store : WeightedStore) (key : BlockKey) (count : Nat) :
    (used key)^[count] (.weighted store) =
      .weighted ((fun store => store.used key)^[count] store) := by
  induction count with
  | zero => rfl
  | succ count ih => rw [Function.iterate_succ_apply', ih, Function.iterate_succ_apply', used]

theorem iterate_used_simple (store : SimpleStore) (key : BlockKey) (count : Nat) :
    (used key)^[count] (.simple store) =
      .simple { store with order := (fun order => order.touch key)^[count] store.order } := by
  induction count with
  | zero => rfl
  | succ count ih => rw [Function.iterate_succ_apply', ih, Function.iterate_succ_apply']; rfl

end Store

namespace Cache

open PendingLoad

variable {cache middle final : Cache}

/-! ## Caches at rest -/

/-- Control is outside, nobody listens, and the calls under way are in order.  Loaders may be
running; what is stored is left open. -/
structure AtRest (cache : Cache) : Prop where
  coherent : Coherent cache
  orderly : Orderly cache
  settled : cache.isSettled = true
  silent : cache.listener = .absent

theorem AtRest.outside (rest : AtRest cache) : rests cache.stack = true :=
  (isSettled_eq cache).symm.trans rest.settled

theorem atRest_start {store : Store} (empty : store.holdings = []) :
    AtRest (start store .absent) :=
  ⟨coherent_start store .absent empty, orderly_start store .absent, rfl, rfl⟩

/-- A move is made, and the cache goes on until it is at rest again.  The state right after the move
and the way from there are given; that the cache settles there follows. -/
theorem AtRest.moved {move : Move} (rest : AtRest cache) (taken : Accepted cache move middle)
    (leads : Leads middle final) (settled : rests final.stack = true)
    (silent : final.listener = cache.listener) :
    cache.perform move = some final ∧ AtRest final := by
  have begun := (orderly_kept anyMove).accepted rfl ⟨rest.coherent, rest.orderly⟩ taken
  have settles := (isSettled_eq final).trans settled
  have made : cache.perform move = some final := by
    rw [Cache.perform, accept_of_accepted taken, Option.map_some,
      leads.settle settles begun.1 begun.2]
  have ends := (orderly_kept anyMove).perform rfl ⟨rest.coherent, rest.orderly⟩ made
  exact ⟨made, ends.1, ends.2, settles, silent.trans rest.silent⟩

/-- What the answers to later calls depend on, and what the journal tells of uses and evictions.
Counters and the rest of the journal are left out: they grow with every repetition and nothing later
depends on them. -/
structure Standing where
  store : Store
  loads : Table BlockKey PendingLoad
  stack : List Frame
  calls : Nat
  uses : List BlockKey
  victims : List (BlockKey × Payload)

def standing (cache : Cache) : Standing where
  store := cache.store
  loads := cache.loads
  stack := cache.stack
  calls := cache.calls
  uses := cache.uses
  victims := victims cache.journal

/-- Every cache that is at rest where the moves begin can make them, and is at rest where they end.
Such statements are joined one behind the other, and those of one and the same turn are repeated any
number of times, without the journals in between. -/
def Turns (moves : List Move) (before after : Standing) : Prop :=
  ∀ cache, AtRest cache → cache.standing = before →
    ∃ next, Run fits cache moves next ∧ AtRest next ∧ next.standing = after

variable {before after : Standing} {key : BlockKey} {payload : Payload}

theorem Turns.none (before : Standing) : Turns [] before before :=
  fun cache rest stands => ⟨cache, .done, rest, stands⟩

theorem Turns.one {move : Move}
    (turns : ∀ cache, AtRest cache → cache.standing = before → cache.fits move = true ∧
      ∃ middle final, Accepted cache move middle ∧ Leads middle final ∧
        rests final.stack = true ∧ final.listener = cache.listener ∧ final.standing = after) :
    Turns [move] before after := by
  intro cache rest stands
  rcases turns cache rest stands with ⟨fit, middle, final, taken, leads, settled, silent, ends⟩
  have moved := rest.moved taken leads settled silent
  exact ⟨final, .step fit moved.1 .done, moved.2, ends⟩

theorem Turns.trans {moves more : List Move} {between : Standing}
    (first : Turns moves before between) (second : Turns more between after) :
    Turns (moves ++ more) before after := by
  intro cache rest stands
  rcases first cache rest stands with ⟨next, run, alsoRest, turned⟩
  rcases second next alsoRest turned with ⟨final, later, finalRest, ends⟩
  exact ⟨final, run.append later, finalRest, ends⟩

theorem fits_of_light {payload : Payload}
    (light : weightOf cache.store.holdings + payload.weight.toNat < 2 ^ 64) :
    cache.fits (.loaderReturns payload) = true := by
  rw [fits, heldWeight_eq]
  exact decide_eq_true light

/-! ## Single calls -/

theorem turns_find {store : Store} (held : before.store.lookup? key = some (payload, store)) :
    Turns [.begin (.find key)] before
      { before with store := store, calls := before.calls + 1, uses := key :: before.uses } := by
  refine .one fun cache rest stands => ?_
  cases stands
  exact ⟨rfl, _, _, .found rest.settled held, .refl, rest.outside, rfl, rfl⟩

theorem turns_open (absent : before.store.lookup? key = none) :
    Turns [.begin (.load key)] before
      { before with
        stack := .claiming before.calls key :: before.stack
        calls := before.calls + 1 } := by
  refine .one fun cache rest stands => ?_
  cases stands
  exact ⟨rfl, _, _, .opened rest.settled absent, .refl, rfl, rfl, rfl⟩

variable {call : Nat} {below : List Frame}

theorem turns_claim (top : before.stack = .claiming call key :: below)
    (absent : before.store.lookup? key = none) (free : before.loads.get? key = none) :
    Turns [.claim] before
      { before with
        loads := before.loads.insert key ⟨call, false, []⟩
        stack := .loading call key :: below } := by
  refine .one fun cache rest stands => ?_
  cases stands
  exact ⟨rfl, _, _, .claimed top free absent, .refl, rfl, rfl, rfl⟩

/-- A call finds nothing, and its loader is running.  No other load of the key may be running, for
the call would then wait for it. -/
theorem turns_start (absent : before.store.lookup? key = none)
    (free : before.loads.get? key = none) :
    Turns [.begin (.load key), .claim] before
      { before with
        loads := before.loads.insert key ⟨before.calls, false, []⟩
        stack := .loading before.calls key :: before.stack
        calls := before.calls + 1 } :=
  (turns_open absent).trans (turns_claim rfl absent free)

/-- A value that is loaded comes into the store as this block, and nothing has to go for it.  Where
something would have to go nothing is said. -/
inductive Received (key : BlockKey) (call : Nat) (payload : Payload) : Store → Store → Prop
  | weighted {store : WeightedStore}
      (within : (store.insert key call payload).overBudget = false) :
      Received key call payload (.weighted store) (.weighted (store.insert key call payload))
  | simple {store : SimpleStore} (absent : store.entries.get? key = none)
      (weighs : store.canWeigh payload.weight = true)
      (within : (store.insert key call payload).overCapacity = false) :
      Received key call payload (.simple store) (.simple (store.insert key call payload))

theorem Received.accepted {store : Store}
    (received : Received key call payload cache.store store)
    (top : cache.stack = .loading call key :: below) :
    ∃ middle, Accepted cache (.loaderReturns payload) middle ∧ middle.store = store ∧
      middle.loads = cache.loads ∧ middle.stack = .concluding ⟨call, key, payload⟩ :: below ∧
      middle.calls = cache.calls ∧ middle.listener = cache.listener ∧
      middle.journal = .loaded call key payload :: cache.journal := by
  cases held : cache.store with
  | weighted inner =>
      rw [held] at received
      cases received with
      | weighted within => exact ⟨_, .stored top held (Or.inl within), rfl, rfl, rfl, rfl, rfl, rfl⟩
  | simple inner =>
      rw [held] at received
      cases received with
      | simple absent weighs within =>
          have put := SimpleStore.put_of_room absent weighs within
          exact ⟨_, .simplyStored top held put, rfl, rfl, rfl, rfl, rfl, rfl⟩

/-- A call for another caller is under way only where control is outside. -/
theorem AtRest.rests_below {frame : Frame} (rest : AtRest cache)
    (top : cache.stack = frame :: below) (busy : frame.isListening = false) :
    rests below = true := by
  have nested := rest.orderly.nested
  rw [top] at nested
  rcases nested with ⟨listens | below, -⟩
  · rw [busy] at listens
    cases listens
  · exact below

/-- Nobody waits for the load, and once it has ended the key can be claimed again. -/
theorem ends_alone {stale : Bool} (running : cache.loads.get? key = some ⟨call, stale, []⟩) :
    cache.isOvertaken key = stale ∧ waiting cache.loads call key = [] ∧
      released cache.loads call key = cache.loads.erase key := by
  simp [isOvertaken, waiting, released, running]

theorem turns_receive {store : Store} (top : before.stack = .loading call key :: below)
    (running : before.loads.get? key = some ⟨call, false, []⟩)
    (received : Received key call payload before.store store)
    (light : weightOf before.store.holdings + payload.weight.toNat < 2 ^ 64) :
    Turns [.loaderReturns payload] before
      { before with
        store := store
        loads := before.loads.erase key
        stack := below
        uses := key :: before.uses } := by
  refine .one fun cache rest stands => ?_
  cases stands
  rcases received.accepted top with ⟨middle, taken, rfl, loads, stack, calls, listener, journal⟩
  have fit : cache.fits (.loaderReturns payload) = true := fits_of_light light
  have stillRunning : middle.loads.get? key = some ⟨call, false, []⟩ := loads ▸ running
  rcases ends_alone stillRunning with ⟨fresh, nobody, free⟩
  refine ⟨fit, middle, _, taken, .one (advance_of_advanced (.kept stack fresh)),
    rest.rests_below top rfl, listener, ?_⟩
  dsimp only [standing, uses]
  rw [nobody, free, loads, calls, journal]
  rfl

theorem turns_load {store : Store} (absent : before.store.lookup? key = none)
    (free : before.loads.get? key = none)
    (received : Received key before.calls payload before.store store)
    (light : weightOf before.store.holdings + payload.weight.toNat < 2 ^ 64) :
    Turns (loadMoves key payload) before
      { before with
        store := store
        calls := before.calls + 1
        uses := key :: before.uses } := by
  have running : (before.loads.insert key ⟨before.calls, false, []⟩).get? key =
      some ⟨before.calls, false, []⟩ := by rw [Table.get?_insert, if_pos rfl]
  have loaded := (turns_start absent free).trans (turns_receive rfl running received light)
  rw [Table.erase_insert_of_get?_none free] at loaded
  exact loaded

/-- An invalidation of a key without a block marks the load that is running, if there is one.  It
drops nothing and does not look after the index. -/
theorem turns_mark {store : WeightedStore} (weighted : before.store = .weighted store)
    (absent : store.entries.get? key = none) :
    Turns [.begin (.invalidate (.exactly key))] before
      { before with
        loads := overtaken before.loads (.exactly key)
        calls := before.calls + 1 } := by
  have nothing : store.remove? key = none := by rw [WeightedStore.remove?, absent, Option.map_none]
  refine .one fun cache rest stands => ?_
  cases stands
  exact ⟨rfl, _, _, .nothingDropped rest.settled weighted nothing, .refl, rest.outside, rfl, rfl⟩

/-- The loader of an overtaken load returns a value, which is stored and taken back. -/
theorem turns_take_back {store : WeightedStore} (top : before.stack = .loading call key :: below)
    (running : before.loads.get? key = some ⟨call, true, []⟩)
    (weighted : before.store = .weighted store) (absent : store.entries.get? key = none)
    (within : (store.insert key call payload).overBudget = false)
    (light : weightOf before.store.holdings + payload.weight.toNat < 2 ^ 64) :
    Turns [.loaderReturns payload] before
      { before with
        store := .weighted (store.passed key)
        loads := before.loads.erase key
        stack := below
        uses := key :: before.uses } := by
  refine .one fun cache rest stands => ?_
  cases stands
  have fit : cache.fits (.loaderReturns payload) = true := fits_of_light light
  have outside := rest.rests_below top rfl
  have silent := rest.silent
  have stillRunning : cache.loads.get? key = some ⟨call, true, []⟩ := running
  rcases ends_alone stillRunning with ⟨stale, nobody, free⟩
  rcases cache with ⟨_, _, loads, counters, _, calls, journal⟩
  cases weighted
  cases top
  cases silent
  have back := store.taken_back absent call payload
  refine ⟨fit, _, _, .stored rfl rfl (.inl within), .step (advance_of_advanced
    (.retracted rfl stale rfl back)) (.one (advance_of_advanced (.retractionCounted rfl))),
    outside, rfl, ?_⟩
  dsimp only [standing, uses] at nobody free ⊢
  rw [nobody, free]
  rfl

/-- The moves of a load that is overtaken while its loader runs. -/
def overtakenMoves (key : BlockKey) (payload : Payload) : List Move :=
  [.begin (.load key), .claim] ++ [.begin (.invalidate (.exactly key))] ++ [.loaderReturns payload]

theorem overtaken_exactly (loads : Table BlockKey PendingLoad) (key : BlockKey) :
    overtaken loads (.exactly key) =
      loads.modify key fun pending => { pending with stale := true } := by
  apply Table.mapValues_congr
  intro row _
  simp [Scope.covers]

/-- Of the running loads only the one that has just been claimed is overtaken. -/
theorem overtaken_insert {loads : Table BlockKey PendingLoad} (free : loads.get? key = none) :
    (overtaken (loads.insert key ⟨call, false, []⟩) (.exactly key)).get? key =
        some ⟨call, true, []⟩ ∧
      (overtaken (loads.insert key ⟨call, false, []⟩) (.exactly key)).erase key = loads := by
  rw [overtaken_exactly]
  constructor
  · rw [Table.get?_modify, if_pos rfl, Table.get?_insert, if_pos rfl]
    rfl
  · rw [Table.erase_modify, Table.erase_insert_of_get?_none free]

/-- A load that is overtaken leaves a record of the index behind, and nothing else.  For the moment
in which the block is stored it must fit the budget together with the others. -/
theorem turns_overtaken_load {store : WeightedStore} (weighted : before.store = .weighted store)
    (absent : store.entries.get? key = none) (free : before.loads.get? key = none)
    (within : (store.insert key before.calls payload).overBudget = false)
    (light : weightOf before.store.holdings + payload.weight.toNat < 2 ^ 64) :
    Turns (overtakenMoves key payload) before
      { before with
        store := .weighted (store.passed key)
        calls := before.calls + 2
        uses := key :: before.uses } := by
  have missing : before.store.lookup? key = none :=
    Store.lookup?_eq_none_iff.mpr (weighted ▸ absent)
  rcases @overtaken_insert key before.calls _ free with ⟨running, left⟩
  have taken := ((turns_start missing free).trans (turns_mark weighted absent)).trans
    (turns_take_back rfl running weighted absent within light)
  rw [left] at taken
  exact taken

/-! ## The same call over and over -/

theorem turns_finds (key : BlockKey) (held : (before.store.entries.get? key).isSome = true)
    (count : Nat) :
    Turns (List.replicate count (.begin (.find key))) before
      { before with
        store := (Store.used key)^[count] before.store
        calls := before.calls + count
        uses := List.replicate count key ++ before.uses } := by
  induction count with
  | zero => exact .none before
  | succ count ih =>
      have still := Store.isSome_get?_iterate_used count ▸ held
      rcases Option.isSome_iff_exists.mp still with ⟨block, found⟩
      rw [List.replicate_succ', Function.iterate_succ_apply']
      exact ih.trans (turns_find (Store.lookup?_eq_used found))

theorem turns_overtaken_loads (key : BlockKey) (payload : Payload) {store : WeightedStore}
    (weighted : before.store = .weighted store)
    (absent : store.entries.get? key = none) (free : before.loads.get? key = none)
    (room : store.total + payload.weight ≤ store.budget)
    (light : weightOf before.store.holdings + payload.weight.toNat < 2 ^ 64) (count : Nat) :
    Turns (List.replicate count (overtakenMoves key payload)).flatten before
      { before with
        store := .weighted ((fun store => store.passed key)^[count] store)
        calls := before.calls + 2 * count
        uses := List.replicate count key ++ before.uses } := by
  induction count with
  | zero =>
      have same := Turns.none before
      rcases before with ⟨_, loads, stack, calls, uses, victims⟩
      cases weighted
      exact same
  | succ count ih =>
      rcases store.iterate_passed key count with ⟨clock, recency, passed⟩
      rw [List.replicate_succ', List.flatten_append, List.flatten_singleton,
        Function.iterate_succ_apply']
      rw [passed] at ih ⊢
      rw [weighted] at light
      exact ih.trans (turns_overtaken_load rfl absent free
        (WeightedStore.within_of_room absent room (before.calls + 2 * count)) light)

/-! ## A full cache -/

end Cache

/-- Two blocks that fill the budget. -/
def WeightedStore.full : WeightedStore :=
  ((empty 10).insert (.nth 1) 0 (.standIn 6 "")).insert (.nth 2) 1 (.standIn 4 "")

namespace Cache

theorem turns_full :
    Turns (loadMoves (.nth 1) (.standIn 6 "") ++ loadMoves (.nth 2) (.standIn 4 ""))
      (start (.weighted (.empty 10)) .absent).standing
      ⟨.weighted .full, Table.empty, [], 2, [.nth 2, .nth 1], []⟩ :=
  (turns_load rfl rfl (.weighted rfl) (by decide)).trans
    (turns_load rfl rfl (.weighted rfl) (by decide))

end Cache
end VolumeCache
