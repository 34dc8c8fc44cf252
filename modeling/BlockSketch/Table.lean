/-!
# Table: finite maps with text keys

A table is a list of entries in ascending order of their keys, by code points, with every key at
most once. So two tables with the same entries are equal, whatever order the entries came in.
-/

namespace BlockSketch

/-- A finite map from texts, as the list of its entries. -/
abbrev Table (α : Type) := List (String × α)

namespace Table

variable {α : Type}

/-- The entry under a key. -/
def get? (table : Table α) (key : String) : Option α :=
  List.lookup key table

/-- The table with one more entry; an entry that already has this key is replaced. -/
def insert (key : String) (value : α) : Table α → Table α
  | [] => [(key, value)]
  | (k, v) :: rest =>
    if key = k then (key, value) :: rest
    else if key < k then (key, value) :: (k, v) :: rest
    else (k, v) :: insert key value rest

/-! ### Laws -/

/-- The entry that was put in is found. -/
theorem get?_insert_self (key : String) (value : α) (table : Table α) :
    Table.get? (Table.insert key value table) key = some value := by
  induction table with
  | nil => simp [insert, get?]
  | cons entry rest ih =>
    obtain ⟨k, v⟩ := entry
    simp only [insert]
    split
    · simp [get?]
    · next hne =>
      split
      · simp [get?]
      · have hk : (key == k) = false := beq_false_of_ne hne
        simpa [get?, List.lookup_cons, hk] using ih

/-- The other entries are untouched. -/
theorem get?_insert_of_ne {key other : String} (hne : other ≠ key) (value : α) (table : Table α) :
    Table.get? (Table.insert key value table) other = Table.get? table other := by
  have hk : (other == key) = false := beq_false_of_ne hne
  induction table with
  | nil => simp [insert, get?, List.lookup_cons, hk]
  | cons entry rest ih =>
    obtain ⟨k, v⟩ := entry
    simp only [insert]
    split
    · next heq =>
      subst heq
      simp [get?, List.lookup_cons, hk]
    · split
      · simp [get?, List.lookup_cons, hk]
      · simp only [get?, List.lookup_cons] at ih ⊢
        rw [ih]

end Table

end BlockSketch
