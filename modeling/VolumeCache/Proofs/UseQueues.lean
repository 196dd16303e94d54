import VolumeCache.Proofs.AccessOrders

namespace VolumeCache

/-!
# The order of uses as a queue

An access order keeps a table and a timeline and moves them on together.  What its operations give
back can be told without either: it is what a queue gives back in which no key stands twice, the
oldest key in front, and a use puts its key at the end.  Nothing is assumed about the operations but
that there are not more uses than the clock can count.
-/

namespace AccessOrder

variable {κ : Type}

inductive Operation (κ : Type) where
  | touch (key : κ)
  | remove (key : κ)
  | evictOldest
deriving DecidableEq, Repr

/-- What an operation gives back: nothing, whether the key was tracked, or the oldest key. -/
inductive Answer (κ : Type) where
  | done
  | tracked (was : Bool)
  | oldest (key : Option κ)
deriving DecidableEq, Repr

def Operation.isTouch : Operation κ → Bool
  | .touch _ => true
  | _ => false

def touches (operations : List (Operation κ)) : Nat :=
  operations.countP Operation.isTouch

variable [DecidableEq κ]

/-- What an operation gives back and the order it leaves.  An order without keys is left as it is by
a request for the oldest one. -/
def perform (order : AccessOrder κ) : Operation κ → Answer κ × AccessOrder κ
  | .touch key => (.done, order.touch key)
  | .remove key => (.tracked (order.remove key).1, (order.remove key).2)
  | .evictOldest =>
      match order.evictOldest? with
      | some (key, left) => (.oldest (some key), left)
      | none => (.oldest none, order)

/-- One operation after the other, with everything they give back. -/
def performAll (order : AccessOrder κ) : List (Operation κ) → List (Answer κ) × AccessOrder κ
  | [] => ([], order)
  | operation :: later =>
      let (answer, next) := order.perform operation
      let (answers, final) := next.performAll later
      (answer :: answers, final)

/-- The same operation on a queue of keys, the oldest in front.  No clock is needed here, so nothing
wraps; a key that is not in the queue is not removed from it either. -/
def Operation.queued : Operation κ → List κ → Answer κ × List κ
  | .touch key, queue => (.done, queue.erase key ++ [key])
  | .remove key, queue => (.tracked (queue.contains key), queue.erase key)
  | .evictOldest, [] => (.oldest none, [])
  | .evictOldest, first :: later => (.oldest (some first), later)

def queuedAll (queue : List κ) : List (Operation κ) → List (Answer κ) × List κ
  | [] => ([], queue)
  | operation :: later =>
      let (answer, next) := operation.queued queue
      let (answers, final) := queuedAll next later
      (answer :: answers, final)

/-! ## One operation -/

/-- The order tracks the keys of the queue, in the order of the queue.  At what times the keys were
used is left open. -/
structure Represents (order : AccessOrder κ) (queue : List κ) : Prop where
  sound : Sound order
  keys : order.keys = queue

variable {order : AccessOrder κ} {queue : List κ}

theorem represents_empty : Represents (empty : AccessOrder κ) [] where
  sound := sound_empty
  keys := rfl

theorem Represents.nodup (represents : Represents order queue) : queue.Nodup :=
  represents.keys ▸ represents.sound.keys_nodup

theorem Represents.contains (represents : Represents order queue) (key : κ) :
    queue.contains key = (order.ticks.get? key).isSome := by
  rw [Bool.eq_iff_iff, List.contains_iff_mem, ← represents.keys]
  exact represents.sound.mem_keys

theorem Represents.size (represents : Represents order queue) : order.size = queue.length := by
  have same : ∀ key, key ∈ order.ticks.keys ↔ key ∈ queue := by
    intro key
    have listed := not_congr (order.ticks.get?_eq_none_iff key)
    rw [not_not, ← ne_eq, Option.ne_none_iff_isSome] at listed
    rw [← represents.keys, represents.sound.mem_keys]
    exact listed.symm
  have perm := (List.perm_ext_iff_of_nodup order.ticks.distinct represents.nodup).mpr same
  have length := perm.length_eq
  rwa [List.length_map] at length

theorem Represents.touch (represents : Represents order queue)
    (forward : order.clock < order.clock + 1) (key : κ) :
    Represents (order.touch key) (queue.erase key ++ [key]) where
  sound := represents.sound.touch forward key
  keys := by
    rw [represents.sound.keys_touch forward, represents.keys, represents.nodup.erase_eq_filter]

theorem Represents.remove (represents : Represents order queue) (key : κ) :
    (order.remove key).1 = queue.contains key ∧
      Represents (order.remove key).2 (queue.erase key) := by
  refine ⟨?_, represents.sound.remove key, ?_⟩
  · rw [represents.contains]
    unfold AccessOrder.remove
    cases order.ticks.get? key <;> rfl
  · rw [represents.sound.keys_remove, represents.keys, represents.nodup.erase_eq_filter]

theorem Represents.perform (represents : Represents order queue) (operation : Operation κ)
    (forward : operation.isTouch = true → order.clock < order.clock + 1) :
    (order.perform operation).1 = (operation.queued queue).1 ∧
      Represents (order.perform operation).2 (operation.queued queue).2 := by
  cases operation with
  | touch key => exact ⟨rfl, represents.touch (forward rfl) key⟩
  | remove key =>
      rcases represents.remove key with ⟨was, left⟩
      exact ⟨congrArg Answer.tracked was, left⟩
  | evictOldest =>
      unfold AccessOrder.perform
      cases oldest : order.evictOldest? with
      | none =>
          have nothing : queue = [] :=
            represents.keys.symm.trans (evictOldest?_eq_none_iff.mp oldest)
          subst nothing
          exact ⟨rfl, represents⟩
      | some found =>
          have front : queue = found.1 :: found.2.keys :=
            represents.keys.symm.trans (keys_evictOldest? oldest)
          subst front
          exact ⟨rfl, represents.sound.evictOldest? oldest, rfl⟩

theorem Sound.clock_perform (sound : Sound order) (operation : Operation κ)
    (room : order.clock.toNat + touches [operation] < 2 ^ 64) :
    (order.perform operation).2.clock.toNat = order.clock.toNat + touches [operation] := by
  cases operation with
  | touch key => exact (Timeline.next_tick (Nat.le_refl _) room).2
  | remove key => exact congrArg UInt64.toNat (clock_remove order key)
  | evictOldest =>
      unfold AccessOrder.perform
      cases oldest : order.evictOldest? with
      | none => rfl
      | some found =>
          exact congrArg UInt64.toNat (sound.tracks.evictOldest? oldest).2.2.1

/-! ## Any number of operations -/

/-- As long as the clock does not wrap, everything is given back as of the queue. -/
theorem Represents.performAll (operations : List (Operation κ))
    (represents : Represents order queue)
    (room : order.clock.toNat + touches operations < 2 ^ 64) :
    (order.performAll operations).1 = (queuedAll queue operations).1 ∧
      Represents (order.performAll operations).2 (queuedAll queue operations).2 := by
  induction operations generalizing order queue with
  | nil => exact ⟨rfl, represents⟩
  | cons operation later ih =>
      have split : touches ([operation] ++ later) = touches [operation] + touches later :=
        List.countP_append
      rw [List.singleton_append] at split
      have now : order.clock.toNat + touches [operation] < 2 ^ 64 := by omega
      have forward : operation.isTouch = true → order.clock < order.clock + 1 := by
        intro uses
        have one : touches [operation] = 1 := by simp [touches, uses]
        exact (Timeline.next_tick (Nat.le_refl _) (one ▸ now)).1
      rcases represents.perform operation forward with ⟨answer, next⟩
      have clock := represents.sound.clock_perform operation now
      rcases ih next (by omega) with ⟨answers, final⟩
      exact ⟨congrArg₂ List.cons answer answers, final⟩

/-- Whatever is done with an access order, from the one that tracks nothing on and with fewer uses
than a word counts: every operation gives back what it gives back of a queue in which no key stands
twice; the order then tracks the keys of the queue, in their order, and as many as stand in it; and
its two directions are inverse to each other and know of no use later than the clock.  Removals are
not limited in number. -/
theorem refines_queue (operations : List (Operation κ)) (few : touches operations < 2 ^ 64) :
    let answers := ((empty : AccessOrder κ).performAll operations).1
    let order := ((empty : AccessOrder κ).performAll operations).2
    let queue := (queuedAll [] operations).2
    answers = (queuedAll [] operations).1 ∧ queue.Nodup ∧ order.keys = queue ∧
      order.size = queue.length ∧ order.isEmpty = queue.isEmpty ∧
      (∀ tick key, (tick, key) ∈ order.order.records ↔ order.ticks.get? key = some tick) ∧
      ∀ tick key, order.ticks.get? key = some tick → tick ≤ order.clock := by
  have room : (empty : AccessOrder κ).clock.toNat + touches operations < 2 ^ 64 := by
    rwa [show (empty : AccessOrder κ).clock.toNat = 0 from rfl, Nat.zero_add]
  intro answers order queue
  rcases represents_empty.performAll operations room with ⟨same, represents⟩
  refine ⟨same, represents.nodup, represents.keys, represents.size, ?_,
    represents.sound.tracks.records, ?_⟩
  · rw [Bool.eq_iff_iff, List.isEmpty_iff_length_eq_zero, ← represents.size]
    exact beq_iff_eq
  · intro tick key used
    exact represents.sound.past _ ((represents.sound.tracks.records tick key).mpr used)

/-- The first key is used again, the second one given up, one that was never used given up, and
more keys are asked for than there are. -/
def churned : List (Operation Nat) :=
  [.touch 1, .touch 2, .touch 3, .touch 1, .remove 2, .remove 4, .evictOldest, .touch 2, .touch 1,
    .evictOldest, .evictOldest, .evictOldest, .touch 4]

theorem refines_queue_churned :
    touches churned < 2 ^ 64 ∧
      ((empty : AccessOrder Nat).performAll churned).1 =
        [.done, .done, .done, .done, .tracked true, .tracked false, .oldest (some 3), .done, .done,
          .oldest (some 2), .oldest (some 1), .oldest none, .done] ∧
      ((empty : AccessOrder Nat).performAll churned).2.keys = [4] ∧
      ((empty : AccessOrder Nat).performAll churned).2.size = 1 := by
  have few : touches churned < 2 ^ 64 := by decide
  rcases refines_queue churned few with ⟨answers, -, keys, size, -⟩
  exact ⟨few, answers.trans (by decide), keys.trans (by decide), size.trans (by decide)⟩

end AccessOrder
end VolumeCache
