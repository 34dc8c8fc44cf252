import Mathlib.Data.List.Perm.Basic
import BlockSketch.Proofs.Json.Renderings

/-!
# Tables put together from their entries

An object is read into a table member by member. The entries are put in one after the other, in the
order in which the members come, and the table that they make does not depend on it.
-/

namespace BlockSketch

namespace Table

variable {α : Type}

theorem mem_insert {key : String} {value : α} {table : Table α} {entry : String × α}
    (h : entry ∈ Table.insert key value table) : entry = (key, value) ∨ entry ∈ table := by
  induction table with
  | nil => exact .inl (List.mem_singleton.mp h)
  | cons first table ih =>
    obtain ⟨k, v⟩ := first
    rw [insert] at h
    split at h
    · exact (List.mem_cons.mp h).imp_right (List.mem_cons_of_mem _)
    · split at h
      · exact List.mem_cons.mp h
      · rcases List.mem_cons.mp h with rfl | h
        · exact .inr List.mem_cons_self
        · exact (ih h).imp_right (List.mem_cons_of_mem _)

/-- Putting an entry in keeps the keys ascending. -/
theorem Ascending.insert {table : Table α} (h : Ascending table) (key : String) (value : α) :
    Ascending (Table.insert key value table) := by
  induction table with
  | nil => exact List.pairwise_singleton _ _
  | cons entry table ih =>
    obtain ⟨k, v⟩ := entry
    obtain ⟨hfirst, htable⟩ := List.pairwise_cons.mp h
    rw [Table.insert]
    split
    · next heq =>
      subst heq
      exact List.pairwise_cons.mpr ⟨hfirst, htable⟩
    · next hne =>
      split
      · next hlt =>
        refine List.pairwise_cons.mpr ⟨?_, h⟩
        intro entry hentry
        rcases List.mem_cons.mp hentry with rfl | hentry
        · exact hlt
        · exact String.lt_trans hlt (hfirst entry hentry)
      · next hnlt =>
        refine List.pairwise_cons.mpr ⟨fun entry hentry => ?_, ih htable⟩
        rcases mem_insert hentry with rfl | hentry
        · exact Std.lt_of_le_of_ne (String.not_lt.mp hnlt) (Ne.symm hne)
        · exact hfirst entry hentry

/-- A new entry is put in somewhere. -/
theorem insert_perm {key : String} (value : α) {table : Table α}
    (h : key ∉ table.map Prod.fst) : (Table.insert key value table).Perm ((key, value) :: table) := by
  induction table with
  | nil => exact .refl _
  | cons entry table ih =>
    obtain ⟨k, v⟩ := entry
    rw [List.map_cons, List.mem_cons, not_or] at h
    rw [insert, if_neg h.1]
    split
    · exact .refl _
    · exact ((ih h.2).cons _).trans (.swap _ _ _)

/-- Entries with different keys, put in one after the other. -/
theorem foldl_insert_perm {ms : List (String × α)} {table : Table α} (hascending : Ascending table)
    (h : ((ms ++ table).map Prod.fst).Nodup) :
    Ascending (ms.foldl (fun table m => Table.insert m.1 m.2 table) table) ∧
      (ms.foldl (fun table m => Table.insert m.1 m.2 table) table).Perm (ms ++ table) := by
  induction ms generalizing table with
  | nil => exact ⟨hascending, .refl _⟩
  | cons m ms ih =>
    obtain ⟨key, value⟩ := m
    have hkey : key ∉ table.map Prod.fst := by
      rw [List.cons_append, List.map_cons, List.nodup_cons, List.map_append] at h
      exact fun hmem => h.1 (List.mem_append_right _ hmem)
    have hperm := insert_perm value hkey
    have hmoved : (ms ++ Table.insert key value table).Perm ((key, value) :: ms ++ table) :=
      (hperm.append_left ms).trans List.perm_middle
    obtain ⟨hasc, hfold⟩ := ih (hascending.insert key value)
      ((hmoved.map Prod.fst).nodup_iff.mpr h)
    exact ⟨hasc, hfold.trans hmoved⟩

/-- **The order of the entries does not matter.** -/
theorem foldl_insert_of_perm {ms : List (String × α)} {table : Table α}
    (hascending : Ascending table) (hperm : ms.Perm table) :
    ms.foldl (fun table m => Table.insert m.1 m.2 table) [] = table := by
  have hnodup : (table.map Prod.fst).Nodup := by
    rw [List.nodup_iff_pairwise_ne, List.pairwise_map]
    refine List.Pairwise.imp (fun {entry entry'} hlt heq => ?_) hascending
    rw [heq] at hlt
    exact String.lt_irrefl _ hlt
  have hkeys : ((ms ++ []).map Prod.fst).Nodup := by
    rw [List.append_nil]
    exact (hperm.map Prod.fst).nodup_iff.mpr hnodup
  have hfold := foldl_insert_perm List.Pairwise.nil hkeys
  rw [List.append_nil] at hfold
  refine List.Perm.eq_of_pairwise ?_ hfold.1 hascending (hfold.2.trans hperm)
  exact fun _ _ _ _ hlt hgt => absurd hgt (String.lt_asymm hlt)

end Table

end BlockSketch
