import Mathlib.Data.List.Basic

/-!
# Looking keys up in lists of entries

Declarations and files are kept as lists of entries, a key and what it stands for, in which the
first entry with a key counts. Here is what becomes of a lookup when the entries of one key are
dropped.
-/

namespace BlockSketch

variable {α β : Type} [BEq α] [LawfulBEq α]

/-- Dropping the entries of another key makes no difference to a key. -/
theorem lookup_filter_of_ne {key other : α} (hne : key ≠ other) (entries : List (α × β)) :
    (entries.filter (·.1 != other)).lookup key = entries.lookup key := by
  induction entries with
  | nil => rfl
  | cons entry entries ih =>
    obtain ⟨k, value⟩ := entry
    by_cases hk : k = other
    · subst hk
      have hkey : (key == k) = false := beq_false_of_ne hne
      simp [List.lookup_cons, hkey, ih]
    · simp [List.lookup_cons, hk, ih]

/-- A key whose entries are dropped has none. -/
theorem lookup_filter_self (key : α) (entries : List (α × β)) :
    (entries.filter (·.1 != key)).lookup key = none := by
  rw [List.lookup_eq_none_iff]
  intro entry hentry
  have hne : entry.1 ≠ key := bne_iff_ne.mp (List.mem_filter.mp hentry).2
  exact bne_iff_ne.mpr hne.symm

/-- The first entry with a key has what is looked up. -/
theorem find?_eq_lookup (key : α) (entries : List (α × β)) :
    (entries.find? fun entry => entry.1 == key).map Prod.snd = entries.lookup key := by
  induction entries with
  | nil => rfl
  | cons entry entries ih =>
    obtain ⟨k, value⟩ := entry
    have hsame : (k == key) = (key == k) := BEq.comm
    rw [List.find?_cons, List.lookup_cons, hsame]
    cases key == k with
    | true => rfl
    | false => exact ih

end BlockSketch
