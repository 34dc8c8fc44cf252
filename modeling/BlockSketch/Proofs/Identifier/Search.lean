import BlockSketch.Proofs.Identifier.Registry
import Mathlib.Data.Finset.Card
import Mathlib.Order.Bounds.Defs

/-!
# The search for a free identifier

A new identifier is searched for among numbered candidates, the base first and then the base with 2,
3, … behind it, until one is free. Put like this the search has no bound: nothing in the loop gets
smaller from one candidate to the next, and other names may have taken candidates here and there,
with gaps between them. `Registry.Finds` is that search, and `Registry.search_is_least` says that it
comes to an end, how soon, and with what.

The bound is a count. Different numbers make different candidates, and each candidate that was
passed over is an identifier that is taken or a word that is reserved. So no more of them can be
passed over than there are of these (`Registry.le_card_of_passed`). That the registry looks at so
many candidates and then stops looking does therefore not show: what it chooses is what the search
without a bound ends with.
-/

namespace BlockSketch

namespace Registry

variable {r : Registry} {base : String}

/-! ### The search without a bound -/

/-- The candidates from number `k` on are looked at one after the other until one is free. It takes
`looked` of them, and the last is `x`. -/
inductive Finds (r : Registry) (base : String) : Nat → Nat → String → Prop
  | here {k : Nat} : r.isFree (candidate base k) = true → Finds r base k 1 (candidate base k)
  | later {k looked : Nat} {x : String} : r.isFree (candidate base k) = false →
      Finds r base (k + 1) looked x → Finds r base k (looked + 1) x

/-- The search can end in one way only. -/
theorem Finds.unique {k looked looked' : Nat} {x x' : String} (h : r.Finds base k looked x)
    (h' : r.Finds base k looked' x') : looked = looked' ∧ x = x' := by
  induction h generalizing looked' with
  | here hfree =>
    cases h' with
    | here _ => exact ⟨rfl, rfl⟩
    | later hnot _ => exact absurd hfree (Bool.eq_false_iff.mp hnot)
  | later hnot _ ih =>
    cases h' with
    | here hfree => exact absurd hfree (Bool.eq_false_iff.mp hnot)
    | later _ hrest =>
      obtain ⟨rfl, rfl⟩ := ih hrest
      exact ⟨rfl, rfl⟩

/-- It ends with the first candidate that is free. -/
theorem finds_of_passed {j k : Nat}
    (hpassed : ∀ i < j, r.isFree (candidate base (k + i)) = false)
    (hfree : r.isFree (candidate base (k + j)) = true) :
    r.Finds base k (j + 1) (candidate base (k + j)) := by
  induction j generalizing k with
  | zero => exact .here hfree
  | succ j ih =>
    have hshift (i : Nat) : k + (i + 1) = k + 1 + i := by omega
    rw [hshift] at hfree ⊢
    refine .later (hpassed 0 (Nat.succ_pos j)) (ih (fun i hi => ?_) hfree)
    rw [← hshift]
    exact hpassed (i + 1) (Nat.succ_lt_succ hi)

/-- Candidates that are passed over are no more than there are identifiers that are taken and words
that are reserved. -/
theorem le_card_of_passed {j : Nat} (hpassed : ∀ i < j, r.isFree (candidate base i) = false) :
    j ≤ r.taken.toFinset.card + Identifier.reserved.toFinset.card := by
  have hsub : (Finset.range j).image (candidate base) ⊆
      r.taken.toFinset ∪ Identifier.reserved.toFinset := by
    intro x hx
    obtain ⟨i, hi, rfl⟩ := Finset.mem_image.mp hx
    have hnot := hpassed i (Finset.mem_range.mp hi)
    by_contra hmem
    rw [Finset.mem_union, List.mem_toFinset, List.mem_toFinset, not_or] at hmem
    rw [isFree_iff.mpr hmem] at hnot
    cases hnot
  calc j = ((Finset.range j).image (candidate base)).card := by
        rw [Finset.card_image_of_injective _ fun _ _ => candidate_injective base, Finset.card_range]
    _ ≤ (r.taken.toFinset ∪ Identifier.reserved.toFinset).card := Finset.card_le_card hsub
    _ ≤ r.taken.toFinset.card + Identifier.reserved.toFinset.card := Finset.card_union_le _ _

/-! ### What it ends with -/

/-- The base with a number behind it is a candidate, if the number is at least two. -/
theorem candidate_of_two_le {k : Nat} (hk : 2 ≤ k) :
    candidate base (k - 1) = base ++ toString k := by
  obtain ⟨k, rfl⟩ := Nat.exists_eq_add_of_le' hk
  rfl

/-- The first candidate that is free is the base, or the base with the least number that will do. -/
theorem least_of_passed {j : Nat} (hpassed : ∀ i < j, r.isFree (candidate base i) = false)
    (hfree : r.isFree (candidate base j) = true) :
    if base ∈ r.taken ∨ base ∈ Identifier.reserved then
      ∃ k, candidate base j = base ++ toString k ∧
        IsLeast {k | 2 ≤ k ∧ base ++ toString k ∉ r.taken ∧
          base ++ toString k ∉ Identifier.reserved} k
    else candidate base j = base := by
  have hbase : r.isFree base = true ↔ ¬ (base ∈ r.taken ∨ base ∈ Identifier.reserved) :=
    isFree_iff.trans not_or.symm
  cases j with
  | zero =>
    rw [if_neg (hbase.mp hfree)]
    rfl
  | succ j =>
    -- the base was passed over, and so were all smaller numbers behind it
    have hnot : ¬ r.isFree base = true := Bool.eq_false_iff.mp (hpassed 0 (Nat.succ_pos j))
    rw [if_pos (not_not.mp (mt hbase.mpr hnot))]
    refine ⟨j + 2, rfl, ⟨Nat.le_add_left 2 j, isFree_iff.mp hfree⟩, ?_⟩
    rintro k ⟨hk, hkfree⟩
    by_contra hlt
    refine Bool.eq_false_iff.mp (hpassed (k - 1) (by omega)) ?_
    rw [candidate_of_two_le hk]
    exact isFree_iff.mpr hkfree

-- the search is known by its laws alone; unfolding it would count the reserved words
attribute [local irreducible] choose

/-- **The search ends, and with the least candidate.** Take any registry and any name. The search
for a new identifier, to which nobody has set a bound, looks at no more candidates than there are
identifiers taken and words reserved, and one. It ends with the base itself, if that is neither
taken nor reserved, and otherwise with the base and behind it the least number from two on that
makes a text neither taken nor reserved. What it ends with was not taken before, it is taken then,
and nothing else has changed. -/
theorem search_is_least (r : Registry) (name : String) :
    let base := Identifier.ofName name
    let x := (r.fresh name).1
    (∃ looked ≤ r.taken.toFinset.card + Identifier.reserved.toFinset.card + 1,
      ∀ looked' x', r.Finds base 0 looked' x' ↔ looked' = looked ∧ x' = x) ∧
    (if base ∈ r.taken ∨ base ∈ Identifier.reserved then
      ∃ k, x = base ++ toString k ∧
        IsLeast {k | 2 ≤ k ∧ base ++ toString k ∉ r.taken ∧
          base ++ toString k ∉ Identifier.reserved} k
    else x = base) ∧
    x ∉ r.taken ∧ (r.fresh name).2 = { r with taken := r.taken ++ [x] } := by
  intro base x
  obtain ⟨j, -, hx, hfree, hpassed⟩ := choose_spec r name
  have hx : x = candidate base j := hx
  have hfinds : r.Finds base 0 (j + 1) (candidate base j) := by
    have hpassed' : ∀ i < j, r.isFree (candidate base (0 + i)) = false := by simpa using hpassed
    simpa using finds_of_passed hpassed' (by simpa using hfree)
  have hleast := least_of_passed hpassed hfree
  rw [← hx] at hfinds hleast
  refine ⟨⟨j + 1, Nat.succ_le_succ (le_card_of_passed hpassed), fun looked' x' => ?_⟩, hleast,
    (isFree_iff.mp (isFree_choose r name)).1, rfl⟩
  constructor
  · exact fun h => h.unique hfinds
  · rintro ⟨rfl, rfl⟩
    exact hfinds

-- a gap between numbers that are taken is filled
example : (({ taken := ["x", "x2", "x4"] } : Registry).fresh "x").1 = "x3" := by
  decide +kernel

end Registry

end BlockSketch
