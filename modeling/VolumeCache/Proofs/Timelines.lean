import Mathlib.Algebra.Ring.Nat
import VolumeCache.Timeline

namespace VolumeCache
namespace Timeline

/-!
# The records of a timeline after a change

A timeline is known by its records: since they stand in ascending order, which records there are
decides everything else.  So each operation is described by the records it leaves.
-/

variable {κ : Type}

/-- A clock that was not moved on too often moves on without wrapping.  The count may be larger than
the clock. -/
theorem next_tick {clock : UInt64} {count : Nat} (past : clock.toNat ≤ count)
    (room : count + 1 < 2 ^ 64) :
    clock < clock + 1 ∧ (clock + 1).toNat = clock.toNat + 1 := by
  have next : (clock + 1).toNat = clock.toNat + 1 := by
    rw [UInt64.toNat_add]
    exact Nat.mod_eq_of_lt (Nat.lt_of_le_of_lt (Nat.succ_le_succ past) room)
  rw [UInt64.lt_iff_toNat_lt, next]
  exact ⟨Nat.lt_succ_self _, rfl⟩

/-- So far ahead the clock has not wrapped yet. -/
theorem toNat_ahead {clock : UInt64} {count : Nat} (room : clock.toNat + count < 2 ^ 64) :
    (clock + UInt64.ofNat count).toNat = clock.toNat + count := by
  have less : count < 2 ^ 64 := Nat.lt_of_le_of_lt (Nat.le_add_left _ _) room
  rw [UInt64.toNat_add, UInt64.toNat_ofNat', Nat.mod_eq_of_lt less, Nat.mod_eq_of_lt room]

theorem ahead_eq_zero {clock : UInt64} {count : Nat} (wraps : clock.toNat + count = 2 ^ 64) :
    clock + UInt64.ofNat count = 0 := by
  apply UInt64.toNat_inj.mp
  rw [UInt64.toNat_add, UInt64.toNat_ofNat', Nat.add_mod_mod, wraps, Nat.mod_self]
  rfl

theorem ahead_succ (clock : UInt64) (count : Nat) :
    clock + UInt64.ofNat count + 1 = clock + UInt64.ofNat (count + 1) := by
  rw [UInt64.add_assoc, UInt64.ofNat_add]
  rfl

/-- Placing a record displaces a record of the same tick and no other. -/
theorem mem_place_iff {tick : UInt64} {what : κ} {records : List (UInt64 × κ)}
    (ascending : records.Pairwise fun earlier later => earlier.1 < later.1)
    {record : UInt64 × κ} :
    record ∈ place tick what records ↔
      record = (tick, what) ∨ (record ∈ records ∧ record.1 ≠ tick) := by
  induction records with
  | nil => simp [place]
  | cons first rest ih =>
      rw [List.pairwise_cons] at ascending
      obtain ⟨firstLeast, restAscending⟩ := ascending
      unfold place
      split
      · rename_i before
        -- The new record comes first, so no record has its tick.
        have apart : ∀ other ∈ first :: rest, other.1 ≠ tick := by
          intro other member same
          rcases List.mem_cons.mp member with isFirst | inRest
          · exact UInt64.lt_irrefl _ (same ▸ isFirst ▸ before)
          · exact UInt64.lt_irrefl _ (UInt64.lt_trans before (same ▸ firstLeast other inRest))
        rw [List.mem_cons]
        exact or_congr_right ⟨fun member => ⟨member, apart record member⟩, And.left⟩
      · split
        · rename_i same
          have apart : ∀ other ∈ rest, other.1 ≠ tick := by
            intro other member equal
            exact UInt64.lt_irrefl _ ((equal.trans same) ▸ firstLeast other member)
          simp only [List.mem_cons]
          constructor
          · rintro (isNew | inRest)
            · exact Or.inl isNew
            · exact Or.inr ⟨Or.inr inRest, apart record inRest⟩
          · rintro (isNew | ⟨isFirst | inRest, different⟩)
            · exact Or.inl isNew
            · exact absurd (isFirst ▸ same.symm) different
            · exact Or.inr inRest
        · rename_i notSame
          simp only [List.mem_cons, ih restAscending]
          constructor
          · rintro (isFirst | isNew | ⟨inRest, different⟩)
            · exact Or.inr ⟨Or.inl isFirst, fun equal => notSame (isFirst ▸ equal.symm)⟩
            · exact Or.inl isNew
            · exact Or.inr ⟨Or.inr inRest, different⟩
          · rintro (isNew | ⟨isFirst | inRest, different⟩)
            · exact Or.inr (Or.inl isNew)
            · exact Or.inl isFirst
            · exact Or.inr (Or.inr ⟨inRest, different⟩)

/-- A record later than all others stands last. -/
theorem place_of_later {tick : UInt64} {what : κ} {records : List (UInt64 × κ)}
    (later : ∀ record ∈ records, record.1 < tick) :
    place tick what records = records ++ [(tick, what)] := by
  induction records with
  | nil => rfl
  | cons first rest ih =>
      have before := later first List.mem_cons_self
      have notEarlier : ¬ tick < first.1 := UInt64.not_lt.mpr (UInt64.le_of_lt before)
      have notSame : tick ≠ first.1 := fun same => UInt64.lt_irrefl tick (same ▸ before)
      rw [place, if_neg notEarlier, if_neg notSame,
        ih fun record member => later record (List.mem_cons_of_mem _ member)]
      rfl

theorem mem_records_insert {timeline : Timeline κ} {tick : UInt64} {what : κ}
    {record : UInt64 × κ} :
    record ∈ (timeline.insert tick what).records ↔
      record = (tick, what) ∨ (record ∈ timeline.records ∧ record.1 ≠ tick) :=
  mem_place_iff timeline.ascending

theorem mem_records_erase {timeline : Timeline κ} {tick : UInt64} {record : UInt64 × κ} :
    record ∈ (timeline.erase tick).records ↔ record ∈ timeline.records ∧ record.1 ≠ tick := by
  simp [erase]

theorem popFirst?_eq_none_iff {timeline : Timeline κ} :
    timeline.popFirst? = none ↔ timeline.records = [] := by
  unfold popFirst?
  split <;> simp_all

theorem popFirst?_eq_some {timeline rest : Timeline κ} {first : UInt64 × κ}
    (popped : timeline.popFirst? = some (first, rest)) :
    timeline.records = first :: rest.records := by
  unfold popFirst? at popped
  split at popped
  · cases popped
  · rename_i held
    cases popped
    exact held

theorem first_lt_of_popFirst? {timeline rest : Timeline κ} {first record : UInt64 × κ}
    (popped : timeline.popFirst? = some (first, rest)) (member : record ∈ rest.records) :
    first.1 < record.1 := by
  have ascending := timeline.ascending
  rw [popFirst?_eq_some popped, List.pairwise_cons] at ascending
  exact ascending.1 record member

theorem eq_of_mem_records {timeline : Timeline κ} {first second : UInt64 × κ}
    (firstMember : first ∈ timeline.records) (secondMember : second ∈ timeline.records)
    (same : first.1 = second.1) : first = second := by
  have ascending := timeline.ascending
  generalize timeline.records = records at ascending firstMember secondMember
  induction records with
  | nil => cases firstMember
  | cons head rest ih =>
      rw [List.pairwise_cons] at ascending
      rcases List.mem_cons.mp firstMember with isHead | inRest
      · rcases List.mem_cons.mp secondMember with alsoHead | later
        · exact isHead.trans alsoHead.symm
        · exact absurd (ascending.1 second later) (by simp [← isHead, same])
      · rcases List.mem_cons.mp secondMember with alsoHead | later
        · exact absurd (ascending.1 first inRest) (by simp [← alsoHead, same])
        · exact ih ascending.2 inRest later

private theorem mem_records_foldl {records : List (UInt64 × κ)}
    (apart : (records.map Prod.fst).Nodup) {timeline : Timeline κ}
    (fresh : ∀ record ∈ timeline.records, record.1 ∉ records.map Prod.fst)
    {record : UInt64 × κ} :
    record ∈ (records.foldl (fun line entry => line.insert entry.1 entry.2) timeline).records ↔
      record ∈ timeline.records ∨ record ∈ records := by
  induction records generalizing timeline with
  | nil => simp
  | cons first rest ih =>
      rw [List.map_cons, List.nodup_cons] at apart
      have freshNext : ∀ entry ∈ (timeline.insert first.1 first.2).records,
          entry.1 ∉ rest.map Prod.fst := by
        intro entry member
        rcases mem_records_insert.mp member with isNew | ⟨old, -⟩
        · exact isNew ▸ apart.1
        · exact fun listed => fresh entry old (List.mem_cons_of_mem _ listed)
      rw [List.foldl_cons, ih apart.2 freshNext, mem_records_insert, List.mem_cons]
      constructor
      · rintro ((isNew | ⟨old, -⟩) | later)
        · exact Or.inr (Or.inl isNew)
        · exact Or.inl old
        · exact Or.inr (Or.inr later)
      · rintro (old | isNew | later)
        · exact Or.inl (Or.inr ⟨old, fun same => fresh record old (same ▸ List.mem_cons_self)⟩)
        · exact Or.inl (Or.inl isNew)
        · exact Or.inr later

/-- A timeline built from records of different ticks has exactly these records. -/
theorem mem_records_ofList {records : List (UInt64 × κ)} (apart : (records.map Prod.fst).Nodup)
    {record : UInt64 × κ} : record ∈ (ofList records).records ↔ record ∈ records := by
  have none : ∀ entry ∈ (empty : Timeline κ).records, entry.1 ∉ records.map Prod.fst := by
    intro entry member
    cases member
  rw [ofList, mem_records_foldl apart none]
  exact or_iff_right (List.not_mem_nil)

/-- A record that was placed at a free tick can be told from the others by its tick. -/
theorem filter_place {tick : UInt64} {what : κ} {records : List (UInt64 × κ)}
    (free : ∀ record ∈ records, record.1 ≠ tick) :
    (place tick what records).filter (fun record => record.1 != tick) = records := by
  induction records with
  | nil => simp [place]
  | cons first rest ih =>
      have apart := free first List.mem_cons_self
      have others : ∀ record ∈ rest, record.1 ≠ tick := fun record member =>
        free record (List.mem_cons_of_mem _ member)
      unfold place
      split
      · simpa [apart] using others
      · rw [if_neg fun same => apart same.symm, List.filter_cons_of_pos (by simpa using apart),
          ih others]

theorem erase_insert {timeline : Timeline κ} {tick : UInt64} {what : κ}
    (free : ∀ record ∈ timeline.records, record.1 ≠ tick) :
    (timeline.insert tick what).erase tick = timeline :=
  ext_records (filter_place free)

theorem erase_comm (timeline : Timeline κ) (tick other : UInt64) :
    (timeline.erase tick).erase other = (timeline.erase other).erase tick := by
  apply ext_records
  simp [erase, Bool.and_comm]

end Timeline
end VolumeCache
