import VolumeCache.Table

namespace VolumeCache
namespace Table

/-!
# The rows of a table after a change

Looking up says what a table holds for one key.  Sums and multisets over a table need its rows as
a whole: which rows are left after an erasure, and how the old rows are made up of the new ones.
Everything here is about rows up to their order unless it says otherwise.
-/

variable {κ α β γ : Type}

/-! ## Every value changed -/

theorem mapValues_mapValues (table : Table κ α) (change : κ → α → β) (further : κ → β → γ) :
    (table.mapValues change).mapValues further =
      table.mapValues fun key value => further key (change key value) := by
  apply ext_rows
  simp [mapValues]

theorem mapValues_congr {table : Table κ α} {change other : κ → α → β}
    (same : ∀ row ∈ table.rows, change row.1 row.2 = other row.1 row.2) :
    table.mapValues change = table.mapValues other := by
  apply ext_rows
  apply List.map_congr_left
  intro row member
  rw [same row member]

theorem keys_mapValues (table : Table κ α) (change : κ → α → β) :
    (table.mapValues change).keys = table.keys := by
  simp [keys, mapValues, Function.comp_def]

variable [DecidableEq κ]

/-! ## Keys and values -/

theorem get?_eq_none_iff (table : Table κ α) (key : κ) :
    table.get? key = none ↔ key ∉ table.rows.map Prod.fst := by
  constructor
  · intro missing listed
    obtain ⟨row, member, same⟩ := List.mem_map.mp listed
    have found : table.get? key = some row.2 :=
      (table.get?_eq_some_iff key row.2).mpr (same ▸ member)
    rw [missing] at found
    cases found
  · intro unlisted
    cases held : table.get? key with
    | none => rfl
    | some value =>
        have member := (table.get?_eq_some_iff key value).mp held
        exact absurd (List.mem_map_of_mem member) unlisted

theorem get?_mapValues (table : Table κ α) (change : κ → α → β) (key : κ) :
    (table.mapValues change).get? key = (table.get? key).map (change key) := by
  ext value
  rw [get?_eq_some_iff, Option.map_eq_some_iff]
  constructor
  · intro member
    obtain ⟨row, listed, same⟩ := List.mem_map.mp member
    cases same
    exact ⟨row.2, (table.get?_eq_some_iff _ _).mpr listed, rfl⟩
  · rintro ⟨old, held, rfl⟩
    exact List.mem_map.mpr ⟨(key, old), (table.get?_eq_some_iff _ _).mp held, rfl⟩

theorem get?_modify (table : Table κ α) (key other : κ) (change : α → α) :
    (table.modify key change).get? other =
      if other = key then (table.get? other).map change else table.get? other := by
  rw [modify, get?_mapValues]
  split
  · rfl
  · exact Option.map_id'

theorem modify_modify (table : Table κ α) (key : κ) (change further : α → α) :
    (table.modify key change).modify key further =
      table.modify key fun value => further (change value) := by
  unfold modify
  rw [mapValues_mapValues]
  apply mapValues_congr
  intro row _
  split <;> rfl

/-! ## Rows -/

theorem mem_rows_erase {table : Table κ α} {key : κ} {row : κ × α} :
    row ∈ (table.erase key).rows ↔ row ∈ table.rows ∧ row.1 ≠ key := by
  simp [erase, filter]

theorem rows_insert (table : Table κ α) (key : κ) (value : α) :
    (table.insert key value).rows = (table.erase key).rows ++ [(key, value)] := rfl

theorem erase_insert (table : Table κ α) (key : κ) (value : α) :
    (table.insert key value).erase key = table.erase key := by
  apply ext_rows
  simp [insert, erase, filter]

theorem insert_insert (table : Table κ α) (key : κ) (value other : α) :
    (table.insert key value).insert key other = table.insert key other := by
  apply ext_rows
  rw [rows_insert, erase_insert, rows_insert]

theorem erase_of_get?_none {table : Table κ α} {key : κ} (missing : table.get? key = none) :
    table.erase key = table := by
  apply ext_rows
  have unlisted := (table.get?_eq_none_iff key).mp missing
  apply List.filter_eq_self.mpr
  intro row member
  have different : row.1 ≠ key := fun same => unlisted (same ▸ List.mem_map_of_mem member)
  simpa using different

/-- A new key comes in behind the rows that are there. -/
theorem rows_insert_of_get?_none {table : Table κ α} {key : κ} (missing : table.get? key = none)
    (value : α) : (table.insert key value).rows = table.rows ++ [(key, value)] := by
  rw [rows_insert, erase_of_get?_none missing]

theorem erase_insert_of_get?_none {table : Table κ α} {key : κ} (missing : table.get? key = none)
    (value : α) : (table.insert key value).erase key = table :=
  (table.erase_insert key value).trans (erase_of_get?_none missing)

/-- The rows are the row of a key and the rows left when it is erased. -/
theorem rows_perm_of_get? {table : Table κ α} {key : κ} {value : α}
    (held : table.get? key = some value) :
    table.rows.Perm ((key, value) :: (table.erase key).rows) := by
  have member := (table.get?_eq_some_iff key value).mp held
  obtain ⟨before, after, split⟩ := List.append_of_mem member
  have keys : (before.map Prod.fst ++ key :: after.map Prod.fst).Nodup := by
    simpa [split] using table.distinct
  rw [List.nodup_append, List.nodup_cons] at keys
  obtain ⟨-, ⟨notAfter, -⟩, apart⟩ := keys
  have keepBefore : before.filter (fun row => row.1 != key) = before := by
    apply List.filter_eq_self.mpr
    intro row listed
    have different := apart row.1 (List.mem_map_of_mem listed) key List.mem_cons_self
    simpa using different
  have keepAfter : after.filter (fun row => row.1 != key) = after := by
    apply List.filter_eq_self.mpr
    intro row listed
    have different : row.1 ≠ key := fun same => notAfter (same ▸ List.mem_map_of_mem listed)
    simpa using different
  have left : (table.erase key).rows = before ++ after := by
    simp [erase, filter, split, keepBefore, keepAfter]
  rw [left, split]
  exact List.perm_middle

theorem erase_modify (table : Table κ α) (key : κ) (change : α → α) :
    (table.modify key change).erase key = table.erase key := by
  apply ext_rows
  simp only [erase, filter, modify, mapValues, List.filter_map]
  refine (List.map_congr_left ?_).trans (List.map_id _)
  intro row listed
  have different : row.1 ≠ key := by simpa using (List.mem_filter.mp listed).2
  simp [different]

theorem get?_erase_of_ne (table : Table κ α) {key other : κ} (different : other ≠ key) :
    (table.erase key).get? other = table.get? other := by
  rw [get?_erase, if_neg different]

theorem get?_erase_self (table : Table κ α) (key : κ) : (table.erase key).get? key = none := by
  rw [get?_erase, if_pos rfl]

theorem get?_erase_eq_some_iff {table : Table κ α} {key other : κ} {value : α} :
    (table.erase key).get? other = some value ↔ other ≠ key ∧ table.get? other = some value := by
  rw [get?_erase]
  split <;> simp_all

theorem mapValues_erase (table : Table κ α) (key : κ) (change : κ → α → β) :
    (table.erase key).mapValues change = (table.mapValues change).erase key := by
  apply ext_rows
  simp [mapValues, erase, filter, List.filter_map, Function.comp_def]

theorem mapValues_insert (table : Table κ α) (key : κ) (value : α) (change : κ → α → β) :
    (table.insert key value).mapValues change =
      (table.mapValues change).insert key (change key value) := by
  apply ext_rows
  simp [mapValues, insert, erase, filter, List.filter_map, Function.comp_def]

theorem erase_comm (table : Table κ α) (key other : κ) :
    (table.erase key).erase other = (table.erase other).erase key := by
  apply ext_rows
  simp [erase, filter, Bool.and_comm]

/-- Taking the row of a key out of a table, and whatever goes with that row, is done in either order
if it can be for two rows that are there. -/
theorem withdrawals_comm {σ : Type} (table : σ → Table κ α) (without : σ → κ → σ)
    (discard : σ → κ → α → σ)
    (absent : ∀ state key, (table state).get? key = none → without state key = state)
    (present : ∀ state key value, (table state).get? key = some value →
      without state key = discard state key value)
    (erased : ∀ state key, table (without state key) = (table state).erase key)
    (either : ∀ state key other value found,
      discard (discard state key value) other found = discard (discard state other found) key value)
    (state : σ) (key other : κ) :
    without (without state key) other = without (without state other) key := by
  by_cases same : key = other
  · rw [same]
  · have first := (table state).get?_erase_of_ne same
    have second := (table state).get?_erase_of_ne (Ne.symm same)
    rw [← erased] at first second
    cases held : (table state).get? key with
    | none => rw [absent state key held, absent _ key (first.trans held)]
    | some value =>
        cases alsoHeld : (table state).get? other with
        | none => rw [absent state other alsoHeld, absent _ other (second.trans alsoHeld)]
        | some found =>
            rw [present _ other found (second.trans alsoHeld),
              present _ key value (first.trans held), present _ key value held,
              present _ other found alsoHeld, either]

end Table
end VolumeCache
