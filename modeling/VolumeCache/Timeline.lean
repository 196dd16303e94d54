namespace VolumeCache

/-!
# Timelines

Records of something that happened, each at a moment of its own, in ascending order of the
moments.  The order is part of the type.  The earliest record is the one at the front, so taking
the oldest record away costs one step.
-/

/-- Records in strictly ascending order of their ticks.  So no two records share a tick; a record
that comes in at a taken tick displaces the other one. -/
structure Timeline (κ : Type) where
  records : List (UInt64 × κ)
  ascending : records.Pairwise fun earlier later => earlier.1 < later.1

namespace Timeline

variable {κ : Type}

theorem ext_records {first second : Timeline κ} (same : first.records = second.records) :
    first = second := by
  cases first
  cases second
  cases same
  rfl

def empty : Timeline κ where
  records := []
  ascending := List.Pairwise.nil

instance : Inhabited (Timeline κ) := ⟨empty⟩

def size (timeline : Timeline κ) : Nat :=
  timeline.records.length

/-- A record put in its place; it takes the place of a record of the same tick. -/
def place (tick : UInt64) (what : κ) : List (UInt64 × κ) → List (UInt64 × κ)
  | [] => [(tick, what)]
  | record :: rest =>
      if tick < record.1 then (tick, what) :: record :: rest
      else if tick = record.1 then (tick, what) :: rest
      else record :: place tick what rest

/-- The records after placing one are that one and, possibly, the earlier ones. -/
theorem mem_place {tick : UInt64} {what : κ} {records : List (UInt64 × κ)}
    {record : UInt64 × κ} (member : record ∈ place tick what records) :
    record = (tick, what) ∨ record ∈ records := by
  induction records with
  | nil => simpa [place] using member
  | cons first rest ih =>
      unfold place at member
      split at member
      · simpa using member
      · split at member
        · simp only [List.mem_cons] at member ⊢
          rcases member with isNew | inRest
          · exact Or.inl isNew
          · exact Or.inr (Or.inr inRest)
        · simp only [List.mem_cons] at member ⊢
          rcases member with isFirst | inRest
          · exact Or.inr (Or.inl isFirst)
          · rcases ih inRest with isNew | old
            · exact Or.inl isNew
            · exact Or.inr (Or.inr old)

theorem place_ascending {tick : UInt64} {what : κ} {records : List (UInt64 × κ)}
    (ascending : records.Pairwise fun earlier later => earlier.1 < later.1) :
    (place tick what records).Pairwise fun earlier later => earlier.1 < later.1 := by
  induction records with
  | nil => simp [place]
  | cons first rest ih =>
      rw [List.pairwise_cons] at ascending
      unfold place
      split
      · rename_i before
        rw [List.pairwise_cons]
        refine ⟨?_, List.pairwise_cons.mpr ascending⟩
        intro later member
        rcases List.mem_cons.mp member with isFirst | inRest
        · exact isFirst ▸ before
        · exact UInt64.lt_trans before (ascending.1 later inRest)
      · split
        · rename_i same
          rw [List.pairwise_cons]
          exact ⟨fun later member => same ▸ ascending.1 later member, ascending.2⟩
        · rename_i notBefore notSame
          rw [List.pairwise_cons]
          refine ⟨?_, ih ascending.2⟩
          intro later member
          rcases mem_place member with isNew | old
          · subst isNew
            have atMost : first.1 ≤ tick := UInt64.not_lt.mp notBefore
            exact UInt64.lt_of_le_of_ne atMost (fun equal => notSame equal.symm)
          · exact ascending.1 later old

def insert (timeline : Timeline κ) (tick : UInt64) (what : κ) : Timeline κ where
  records := place tick what timeline.records
  ascending := place_ascending timeline.ascending

def erase (timeline : Timeline κ) (tick : UInt64) : Timeline κ where
  records := timeline.records.filter fun record => record.1 != tick
  ascending := timeline.ascending.sublist List.filter_sublist

/-- The earliest record and the timeline without it. -/
def popFirst? (timeline : Timeline κ) : Option ((UInt64 × κ) × Timeline κ) :=
  match held : timeline.records with
  | [] => none
  | first :: rest =>
      some (first, ⟨rest, (List.pairwise_cons.mp (held ▸ timeline.ascending)).2⟩)

/-- The timeline of the given records; of two records at one tick the later one stays. -/
def ofList (records : List (UInt64 × κ)) : Timeline κ :=
  records.foldl (fun timeline record => timeline.insert record.1 record.2) empty

end Timeline

end VolumeCache
