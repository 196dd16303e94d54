import VolumeCache.AccessOrder
import VolumeCache.Proofs.Tables
import VolumeCache.Proofs.Timelines

namespace VolumeCache

/-!
# The exact order of uses

What an access order knows is the last use of every key it tracks, by key and by time.  As long as
its clock does not wrap, the keys in the order of those times are the keys from the one used longest
ago to the one used last: a use moves a key to the end, giving a key up takes it out, and the oldest
key stands first.

Less is left once the clock has wrapped.  A tick may then come up again while the record of its
first use is still there, and the new record takes its place, so that a tracked key may have no
record.  What no wrapping takes away is that a record, where there is one, is of the last use noted
under its key.
-/

namespace AccessOrder

variable {κ : Type} [DecidableEq κ] {order : AccessOrder κ} {uses : κ → Option UInt64}

/-- The order knows exactly these last uses, by key and by time.  So no two keys were last used at
one time; where the times stand with regard to the clock is not said. -/
structure Tracks (order : AccessOrder κ) (uses : κ → Option UInt64) : Prop where
  ticks : ∀ key, order.ticks.get? key = uses key
  records : ∀ tick key, (tick, key) ∈ order.order.records ↔ uses key = some tick

theorem tracks_empty : Tracks (empty : AccessOrder κ) fun _ => none where
  ticks _ := rfl
  records _ _ := ⟨nofun, nofun⟩

theorem Tracks.apart (tracks : Tracks order uses) {key other : κ} {use : UInt64}
    (used : uses key = some use) (alsoUsed : uses other = some use) : key = other := by
  have first := (tracks.records use key).mpr used
  have second := (tracks.records use other).mpr alsoUsed
  exact congrArg Prod.snd (Timeline.eq_of_mem_records first second rfl)

theorem remove_of_unused {key : κ} (unused : order.ticks.get? key = none) :
    order.remove key = (false, order) := by
  unfold remove
  rw [unused]

theorem remove_of_used {key : κ} {tick : UInt64}
    (used : order.ticks.get? key = some tick) :
    (order.remove key).2 =
      { order with ticks := order.ticks.erase key, order := order.order.erase tick } := by
  unfold remove
  rw [used]

theorem ticks_remove (order : AccessOrder κ) (key : κ) :
    (order.remove key).2.ticks = order.ticks.erase key := by
  cases used : order.ticks.get? key with
  | none => rw [remove_of_unused used, Table.erase_of_get?_none used]
  | some tick => rw [remove_of_used used]

theorem remove_comm (order : AccessOrder κ) (key other : κ) :
    ((order.remove key).2.remove other).2 = ((order.remove other).2.remove key).2 :=
  Table.withdrawals_comm ticks (fun order key => (order.remove key).2)
    (fun order key tick =>
      { order with ticks := order.ticks.erase key, order := order.order.erase tick })
    (fun _ _ unused => congrArg Prod.snd (remove_of_unused unused))
    (fun _ _ _ used => remove_of_used used) ticks_remove
    (fun order key other tick later => by
      simp only [order.ticks.erase_comm key other, order.order.erase_comm tick later])
    order key other

theorem clock_remove (order : AccessOrder κ) (key : κ) :
    (order.remove key).2.clock = order.clock := by
  unfold remove
  split <;> rfl

/-- After a use the key's previous record, if it had one, is no longer there. -/
theorem Tracks.mem_records_touch (tracks : Tracks order uses) (key : κ) (record : UInt64 × κ) :
    record ∈ (order.touch key).order.records ↔
      record = (order.clock + 1, key) ∨
        ((record ∈ order.order.records ∧ record.2 ≠ key) ∧ record.1 ≠ order.clock + 1) := by
  unfold AccessOrder.touch
  dsimp only
  rw [tracks.ticks, Timeline.mem_records_insert]
  refine or_congr_right (and_congr_left fun _ => ?_)
  cases used : uses key with
  | none =>
      refine ⟨fun member => ⟨member, fun same => ?_⟩, And.left⟩
      have recorded := (tracks.records record.1 record.2).mp member
      rw [same, used] at recorded
      cases recorded
  | some earlier =>
      rw [Timeline.mem_records_erase]
      apply and_congr_right
      intro member
      apply not_congr
      have recorded := (tracks.records record.1 record.2).mp member
      constructor
      · intro same
        exact tracks.apart (same ▸ recorded) used
      · intro same
        rw [same, used] at recorded
        exact (Option.some.inj recorded).symm

/-- A use at a time at which nothing was used becomes the key's last use.  Had another key been used
at that time, its record would give way while its note stayed. -/
theorem Tracks.touch (tracks : Tracks order uses) (key : κ)
    (unused : ∀ other, uses other ≠ some (order.clock + 1)) :
    Tracks (order.touch key) fun other =>
      if other = key then some (order.clock + 1) else uses other := by
  constructor
  · intro other
    change (order.ticks.insert key (order.clock + 1)).get? other = _
    rw [Table.get?_insert, tracks.ticks]
  · intro tick other
    rw [tracks.mem_records_touch, tracks.records]
    by_cases same : other = key
    · simp [same, eq_comm]
    · simp only [same, Prod.mk.injEq, and_false, false_or, ne_eq, not_false_eq_true, and_true,
        if_false, and_iff_left_iff_imp]
      intro used now
      exact unused other (now ▸ used)

theorem Tracks.remove (tracks : Tracks order uses) (key : κ) :
    Tracks (order.remove key).2 fun other => if other = key then none else uses other := by
  unfold AccessOrder.remove
  rw [tracks.ticks]
  cases used : uses key with
  | none =>
      have same : (fun other => if other = key then none else uses other) = uses := by
        funext other
        split
        · rename_i same
          rw [same, used]
        · rfl
      rw [same]
      exact tracks
  | some tick =>
      constructor
      · intro other
        change (order.ticks.erase key).get? other = _
        rw [Table.get?_erase, tracks.ticks]
      · intro time other
        change (time, other) ∈ (order.order.erase tick).records ↔ _
        rw [Timeline.mem_records_erase, tracks.records]
        by_cases same : other = key
        · simp [same, used, eq_comm]
        · simp only [same, if_false, and_iff_left_iff_imp]
          intro otherUsed equal
          exact same (tracks.apart (equal ▸ otherUsed) used)

/-- The oldest key was used before every other one, and is given up.  Every tracked key has a record
here, so none that is older can be passed over. -/
theorem Tracks.evictOldest? (tracks : Tracks order uses) {key : κ} {left : AccessOrder κ}
    (oldest : order.evictOldest? = some (key, left)) :
    (∃ tick, uses key = some tick ∧ ∀ other use, uses other = some use → tick ≤ use) ∧
      (Tracks left fun other => if other = key then none else uses other) ∧
      left.clock = order.clock ∧ order.order.size = left.order.size + 1 := by
  unfold AccessOrder.evictOldest? at oldest
  split at oldest
  · rename_i tick first rest popped
    cases oldest
    have records := Timeline.popFirst?_eq_some popped
    have used := (tracks.records tick key).mp (records ▸ List.mem_cons_self)
    refine ⟨⟨tick, used, ?_⟩, ⟨?_, ?_⟩, rfl, ?_⟩
    · intro other use otherUsed
      have member := (tracks.records use other).mpr otherUsed
      rw [records] at member
      rcases List.mem_cons.mp member with isFirst | later
      · cases isFirst
        exact UInt64.le_refl _
      · exact UInt64.le_of_lt (Timeline.first_lt_of_popFirst? popped later)
    · intro other
      rw [Table.get?_erase, tracks.ticks]
    · intro time other
      have member_iff := tracks.records time other
      rw [records, List.mem_cons] at member_iff
      by_cases same : other = key
      · simp only [same, if_true, reduceCtorEq, iff_false]
        intro later
        have alsoUsed := (tracks.records time key).mp (records ▸ List.mem_cons_of_mem _ later)
        rw [used] at alsoUsed
        cases alsoUsed
        exact UInt64.lt_irrefl _ (Timeline.first_lt_of_popFirst? popped later)
      · simp only [same, if_false, ← member_iff, Prod.mk.injEq, and_false, false_or]
    · exact congrArg List.length records
  · cases oldest

theorem Tracks.evictOldest?_eq_none (tracks : Tracks order uses)
    (exhausted : order.evictOldest? = none) (key : κ) : uses key = none := by
  unfold AccessOrder.evictOldest? at exhausted
  split at exhausted
  · cases exhausted
  · rename_i popped
    have records := Timeline.popFirst?_eq_none_iff.mp popped
    cases used : uses key with
    | none => rfl
    | some tick =>
        have member := (tracks.records tick key).mpr used
        rw [records] at member
        cases member

/-! ## Whatever the clock has done -/

/-- Every record tells the last use that is noted under its key.  The converse is not asked for: of
the notes some may have lost their records. -/
def Traced (order : AccessOrder κ) : Prop :=
  ∀ record ∈ order.order.records, order.ticks.get? record.2 = some record.1

theorem traced_empty : Traced (empty : AccessOrder κ) := nofun

/-- The oldest key is the one in the first record, and both its note and this record go. -/
theorem evictOldest?_eq_some {key : κ} {left : AccessOrder κ}
    (oldest : order.evictOldest? = some (key, left)) :
    ∃ tick rest, order.order.popFirst? = some ((tick, key), rest) ∧
      left = { order with ticks := order.ticks.erase key, order := rest } := by
  unfold AccessOrder.evictOldest? at oldest
  split at oldest
  · rename_i tick first rest popped
    cases oldest
    exact ⟨tick, rest, popped, rfl⟩
  · cases oldest

theorem size_evictOldest? {key : κ} {left : AccessOrder κ}
    (oldest : order.evictOldest? = some (key, left)) :
    order.order.size = left.order.size + 1 := by
  rcases evictOldest?_eq_some oldest with ⟨tick, rest, popped, rfl⟩
  exact congrArg List.length (Timeline.popFirst?_eq_some popped)

theorem clock_evictOldest? {key : κ} {left : AccessOrder κ}
    (oldest : order.evictOldest? = some (key, left)) : left.clock = order.clock := by
  rcases evictOldest?_eq_some oldest with ⟨tick, rest, -, rfl⟩
  rfl

/-- The first record is that of a tracked key. -/
theorem Traced.oldest_tracked {key : κ} {left : AccessOrder κ} (traced : Traced order)
    (oldest : order.evictOldest? = some (key, left)) : (order.ticks.get? key).isSome = true := by
  rcases evictOldest?_eq_some oldest with ⟨tick, rest, popped, -⟩
  rw [traced (tick, key) (Timeline.popFirst?_eq_some popped ▸ List.mem_cons_self)]
  rfl

/-- A record at another time than the one noted under a key is not of that key.  Two keys may still
be noted at one time, if the clock has wrapped. -/
theorem Traced.other_key (traced : Traced order) {record : UInt64 × κ} {key : κ}
    (member : record ∈ order.order.records) (apart : order.ticks.get? key ≠ some record.1) :
    record.2 ≠ key :=
  fun same => apart (same ▸ traced record member)

/-- A record that stays is of another key, for the key's own earlier record is taken out.  This
holds whatever the clock does, since a record that gives way only leaves a note behind. -/
theorem Traced.touch (traced : Traced order) (key : κ) : Traced (order.touch key) := by
  intro record member
  unfold AccessOrder.touch at member ⊢
  dsimp only at member ⊢
  rw [Table.get?_insert]
  rcases Timeline.mem_records_insert.mp member with rfl | ⟨old, -⟩
  · exact if_pos rfl
  · cases used : order.ticks.get? key with
    | none =>
        rw [used] at old
        rw [if_neg (traced.other_key old (by rw [used]; nofun)), traced record old]
    | some earlier =>
        rw [used] at old
        rcases Timeline.mem_records_erase.mp old with ⟨kept, differs⟩
        have apart : order.ticks.get? key ≠ some record.1 := by
          rw [used]
          exact fun same => differs (Option.some.inj same).symm
        rw [if_neg (traced.other_key kept apart), traced record kept]

theorem Traced.remove (traced : Traced order) (key : κ) : Traced (order.remove key).2 := by
  cases used : order.ticks.get? key with
  | none => rwa [remove_of_unused used]
  | some tick =>
      rw [remove_of_used used]
      intro record member
      rcases Timeline.mem_records_erase.mp member with ⟨kept, differs⟩
      have apart : order.ticks.get? key ≠ some record.1 := by
        rw [used]
        exact fun same => differs (Option.some.inj same).symm
      exact (Table.get?_erase_of_ne _ (traced.other_key kept apart)).trans (traced record kept)

theorem Traced.evictOldest? {key : κ} {left : AccessOrder κ} (traced : Traced order)
    (oldest : order.evictOldest? = some (key, left)) : Traced left := by
  rcases evictOldest?_eq_some oldest with ⟨tick, rest, popped, rfl⟩
  have records := Timeline.popFirst?_eq_some popped
  have first := traced (tick, key) (records ▸ List.mem_cons_self)
  intro record member
  have kept : record ∈ order.order.records := records ▸ List.mem_cons_of_mem _ member
  have apart : order.ticks.get? key ≠ some record.1 := by
    rw [first]
    exact fun same => UInt64.ne_of_lt (Timeline.first_lt_of_popFirst? popped member)
      (Option.some.inj same)
  exact (Table.get?_erase_of_ne _ (traced.other_key kept apart)).trans (traced record kept)

/-! ## The keys in the order of their uses -/

def keys (order : AccessOrder κ) : List κ :=
  order.order.records.map Prod.snd

/-- The two directions agree, and no use is later than the clock.  Unlike `Traced` this needs a
clock that moves forward at every use. -/
structure Sound (order : AccessOrder κ) : Prop where
  tracks : Tracks order fun key => order.ticks.get? key
  past : ∀ record ∈ order.order.records, record.1 ≤ order.clock

theorem Sound.traced (sound : Sound order) : Traced order :=
  fun record member => (sound.tracks.records record.1 record.2).mp member

theorem mem_keys_touch (order : AccessOrder κ) (key : κ) : key ∈ (order.touch key).keys :=
  List.mem_map_of_mem (Timeline.mem_records_insert.mpr (Or.inl rfl))

theorem sound_empty : Sound (empty : AccessOrder κ) where
  tracks := tracks_empty
  past _ member := by cases member

theorem Tracks.self (tracks : Tracks order uses) :
    Tracks order fun key => order.ticks.get? key := by
  have same : uses = fun key => order.ticks.get? key := funext fun key => (tracks.ticks key).symm
  exact same ▸ tracks

theorem Sound.mem_keys (sound : Sound order) {key : κ} :
    key ∈ order.keys ↔ (order.ticks.get? key).isSome = true := by
  unfold keys
  rw [List.mem_map, Option.isSome_iff_exists]
  constructor
  · rintro ⟨⟨tick, other⟩, member, rfl⟩
    exact ⟨tick, (sound.tracks.records tick other).mp member⟩
  · rintro ⟨tick, used⟩
    exact ⟨(tick, key), (sound.tracks.records tick key).mpr used, rfl⟩

theorem Sound.keys_nodup (sound : Sound order) : order.keys.Nodup := by
  unfold keys
  rw [List.Nodup, List.pairwise_map]
  refine order.order.ascending.imp_of_mem ?_
  intro earlier later first second before same
  have one := (sound.tracks.records earlier.1 earlier.2).mp first
  have other := (sound.tracks.records later.1 later.2).mp second
  rw [same, other] at one
  exact UInt64.lt_irrefl _ (Option.some.inj one ▸ before)

/-- Taking the record at a key's last use out takes the key out. -/
theorem Sound.records_erase (sound : Sound order) {key : κ} {tick : UInt64}
    (used : order.ticks.get? key = some tick) :
    (order.order.erase tick).records =
      order.order.records.filter fun record => record.2 != key := by
  apply List.filter_congr
  intro record member
  have recorded := (sound.tracks.records record.1 record.2).mp member
  have same : record.1 = tick ↔ record.2 = key := by
    constructor
    · intro sameTick
      exact sound.tracks.apart (sameTick ▸ recorded) used
    · intro sameKey
      rw [sameKey, used] at recorded
      exact (Option.some.inj recorded).symm
  simp [bne, Bool.beq_eq_decide_eq, same]

theorem Sound.filter_eq_self (sound : Sound order) {key : κ}
    (unused : order.ticks.get? key = none) :
    (order.order.records.filter fun record => record.2 != key) = order.order.records := by
  apply List.filter_eq_self.mpr
  intro record member
  have recorded := (sound.tracks.records record.1 record.2).mp member
  have different : record.2 ≠ key := by
    intro same
    rw [same, unused] at recorded
    cases recorded
  simpa using different

theorem keys_filter (records : List (UInt64 × κ)) (key : κ) :
    (records.filter fun record => record.2 != key).map Prod.snd =
      (records.map Prod.snd).filter (· != key) := by
  simp [List.filter_map, Function.comp_def]

/-- A use moves the key to the end.  The keys of a sound order stand in the order of their times, so
it is enough that the clock moves forward. -/
theorem Sound.keys_touch (sound : Sound order) (forward : order.clock < order.clock + 1) (key : κ) :
    (order.touch key).keys = order.keys.filter (· != key) ++ [key] := by
  have later : ∀ record ∈ order.order.records.filter (fun record => record.2 != key),
      record.1 < order.clock + 1 := by
    intro record member
    exact UInt64.lt_of_le_of_lt (sound.past record (List.mem_filter.mp member).1) forward
  have records : (order.touch key).order.records =
      Timeline.place (order.clock + 1) key
        (order.order.records.filter fun record => record.2 != key) := by
    unfold touch
    cases used : order.ticks.get? key with
    | none => exact congrArg _ (sound.filter_eq_self used).symm
    | some tick => exact congrArg _ (sound.records_erase used)
  rw [keys, records, Timeline.place_of_later later, List.map_append, keys_filter]
  rfl

theorem Sound.keys_remove (sound : Sound order) (key : κ) :
    (order.remove key).2.keys = order.keys.filter (· != key) := by
  unfold keys remove
  rw [← keys_filter]
  split
  · rename_i tick used
    exact congrArg (List.map Prod.snd) (sound.records_erase used)
  · rename_i unused
    rw [sound.filter_eq_self unused]

theorem keys_evictOldest? {key : κ} {left : AccessOrder κ}
    (oldest : order.evictOldest? = some (key, left)) : order.keys = key :: left.keys := by
  rcases evictOldest?_eq_some oldest with ⟨tick, rest, popped, rfl⟩
  exact congrArg (List.map Prod.snd) (Timeline.popFirst?_eq_some popped)

theorem evictOldest?_eq_none_iff : order.evictOldest? = none ↔ order.keys = [] := by
  unfold AccessOrder.evictOldest? keys
  rw [List.map_eq_nil_iff, ← Timeline.popFirst?_eq_none_iff]
  split <;> simp_all

/-! ### Orders stay sound -/

theorem Sound.touch (sound : Sound order) (forward : order.clock < order.clock + 1) (key : κ) :
    Sound (order.touch key) where
  tracks := by
    refine (sound.tracks.touch key ?_).self
    intro other used
    have past := sound.past _ ((sound.tracks.records _ other).mpr used)
    exact UInt64.not_le.mpr forward past
  past record member := by
    rcases (sound.tracks.mem_records_touch key record).mp member with rfl | ⟨⟨old, -⟩, -⟩
    · exact UInt64.le_refl _
    · exact UInt64.le_of_lt (UInt64.lt_of_le_of_lt (sound.past record old) forward)

theorem Sound.remove (sound : Sound order) (key : κ) : Sound (order.remove key).2 where
  tracks := (sound.tracks.remove key).self
  past record member := by
    rw [clock_remove]
    refine sound.past record ?_
    unfold AccessOrder.remove at member
    split at member
    · exact (Timeline.mem_records_erase.mp member).1
    · exact member

theorem Sound.evictOldest? (sound : Sound order) {key : κ} {left : AccessOrder κ}
    (oldest : order.evictOldest? = some (key, left)) : Sound left where
  tracks := (sound.tracks.evictOldest? oldest).2.1.self
  past record member := by
    rcases evictOldest?_eq_some oldest with ⟨tick, rest, popped, rfl⟩
    refine sound.past record ?_
    rw [Timeline.popFirst?_eq_some popped]
    exact List.mem_cons_of_mem _ member

/-! ### Histories -/

/-- The keys of a history in the order of their last uses; in the history the latest use stands
first, in the result it stands last.  Keys that have been given up since are not left out, so an
order that follows a history lists some of these keys only. -/
def lastUses : List κ → List κ
  | [] => []
  | key :: earlier => (lastUses earlier).filter (· != key) ++ [key]

theorem lastUses_nodup (history : List κ) : (lastUses history).Nodup := by
  induction history with
  | nil => exact List.nodup_nil
  | cons key earlier ih =>
      rw [lastUses, List.nodup_append]
      refine ⟨ih.filter _, List.pairwise_singleton _ key, ?_⟩
      intro other member last isLast
      have different : other ≠ key := by simpa using (List.mem_filter.mp member).2
      exact List.mem_singleton.mp isLast ▸ different

/-- An order that follows a history up to now follows it after one more use. -/
theorem Sound.follows_touch (sound : Sound order) (forward : order.clock < order.clock + 1)
    {history : List κ} (follows : order.keys.Sublist (lastUses history)) (key : κ) :
    (order.touch key).keys.Sublist (lastUses (key :: history)) := by
  rw [sound.keys_touch forward]
  exact (follows.filter _).append (List.Sublist.refl _)

theorem Sound.follows_remove (sound : Sound order) {history : List κ}
    (follows : order.keys.Sublist (lastUses history)) (key : κ) :
    (order.remove key).2.keys.Sublist (lastUses history) := by
  rw [sound.keys_remove]
  exact List.filter_sublist.trans follows

end AccessOrder
end VolumeCache
