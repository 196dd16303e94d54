namespace VolumeCache

/-!
# Keyed tables

A finite table with one row a key, the rows standing in the order in which their keys came in.
That no key stands twice is part of the type, so every operation carries its proof; nothing is
assumed about the keys beyond that they can be compared.
-/

/-- Rows of a key and a value, no key twice.  A row that is inserted stands last, whether or not the
key had a row before. -/
structure Table (κ α : Type) where
  rows : List (κ × α)
  distinct : (rows.map Prod.fst).Nodup

namespace Table

variable {κ α : Type}

theorem ext_rows {first second : Table κ α} (same : first.rows = second.rows) :
    first = second := by
  cases first
  cases second
  cases same
  rfl

def empty : Table κ α where
  rows := []
  distinct := List.nodup_nil

instance : Inhabited (Table κ α) := ⟨empty⟩

def size (table : Table κ α) : Nat :=
  table.rows.length

def keys (table : Table κ α) : List κ :=
  table.rows.map Prod.fst

/-- The rows that satisfy a test, in their order. -/
def filter (table : Table κ α) (keep : κ → α → Bool) : Table κ α where
  rows := table.rows.filter fun row => keep row.1 row.2
  distinct := table.distinct.sublist (List.filter_sublist.map Prod.fst)

/-- Every value replaced by a function of its key and itself; the keys and their order stay. -/
def mapValues {β : Type} (table : Table κ α) (change : κ → α → β) : Table κ β where
  rows := table.rows.map fun row => (row.1, change row.1 row.2)
  distinct := by
    simpa [List.map_map, Function.comp_def] using table.distinct

variable [DecidableEq κ]

def get? (table : Table κ α) (key : κ) : Option α :=
  (table.rows.find? fun row => row.1 == key).map Prod.snd

def contains (table : Table κ α) (key : κ) : Bool :=
  table.rows.any fun row => row.1 == key

def erase (table : Table κ α) (key : κ) : Table κ α :=
  table.filter fun other _ => other != key

theorem not_mem_keys_erase (table : Table κ α) (key : κ) :
    key ∉ (table.erase key).rows.map Prod.fst := by
  simp [erase, filter]

/-- The table in which the key has this value; its row stands last. -/
def insert (table : Table κ α) (key : κ) (value : α) : Table κ α where
  rows := (table.erase key).rows ++ [(key, value)]
  distinct := by
    rw [List.map_append, List.nodup_append]
    refine ⟨(table.erase key).distinct, by simp, ?_⟩
    intro earlier member last isLast equal
    simp only [List.map_cons, List.map_nil, List.mem_singleton] at isLast
    subst isLast
    exact table.not_mem_keys_erase last (equal ▸ member)

/-- The table in which the value of a key, if it has one, is changed in place. -/
def modify (table : Table κ α) (key : κ) (change : α → α) : Table κ α :=
  table.mapValues fun other value => if other = key then change value else value

/-! ## What is found after a change -/

/-- A key has a value exactly if the pair is a row. -/
theorem get?_eq_some_iff (table : Table κ α) (key : κ) (value : α) :
    table.get? key = some value ↔ (key, value) ∈ table.rows := by
  obtain ⟨rows, distinct⟩ := table
  induction rows with
  | nil => simp [get?]
  | cons first rest ih =>
      obtain ⟨other, held⟩ := first
      rw [List.map_cons, List.nodup_cons] at distinct
      by_cases same : other = key
      · subst same
        have absent : (other, value) ∉ rest := fun member =>
          distinct.1 (List.mem_map.mpr ⟨(other, value), member, rfl⟩)
        simp [get?, absent, eq_comm]
      · have later := ih distinct.2
        have differs : key ≠ other := fun equal => same equal.symm
        simp only [get?] at later ⊢
        rw [List.find?_cons_of_neg (by simpa using same), later]
        simp [differs]

theorem contains_eq_isSome (table : Table κ α) (key : κ) :
    table.contains key = (table.get? key).isSome := by
  simp [contains, get?, List.isSome_find?]

@[simp] theorem get?_empty (key : κ) : (empty : Table κ α).get? key = none := rfl

theorem get?_erase (table : Table κ α) (key other : κ) :
    (table.erase key).get? other = if other = key then none else table.get? other := by
  ext value
  split
  · rename_i same
    simp [get?_eq_some_iff, erase, filter, same]
  · rename_i differs
    simp [get?_eq_some_iff, erase, filter, differs]

theorem get?_insert (table : Table κ α) (key other : κ) (value : α) :
    (table.insert key value).get? other =
      if other = key then some value else table.get? other := by
  ext found
  split
  · rename_i same
    rw [get?_eq_some_iff]
    simp [insert, erase, filter, same, eq_comm]
  · rename_i differs
    simp [get?_eq_some_iff, insert, erase, filter, differs]

end Table

end VolumeCache
