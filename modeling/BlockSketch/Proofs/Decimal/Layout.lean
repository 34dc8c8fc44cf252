import BlockSketch.Decimal.Layout
import BlockSketch.Proofs.Decimal.Digits
import Mathlib.Data.List.TakeWhile

/-!
# Numerals have a digit before the point

Whatever double is laid out, and however, the digits before the point are not empty. For a number
other than zero this needs a digit that is not zero among those that were found, which there is since
a number that reads back as the double is not zero.
-/

namespace BlockSketch

namespace Digits

/-- Digits without one that is not zero spell zero. -/
theorem toNat_of_forall_zero {digits : List Digit} (h : ∀ d ∈ digits, d = Digit.zero) :
    toNat digits = 0 := by
  rw [toNat]
  induction digits with
  | nil => rfl
  | cons d digits ih =>
    rw [List.foldl_cons, h d List.mem_cons_self]
    exact ih fun d' hd' => h d' (List.mem_cons_of_mem d hd')

/-- The digits of a number other than zero are not all dropped. -/
theorem dropTrailingZeros_ne_nil {n : Nat} (h : n ≠ 0) : dropTrailingZeros (ofNat n) ≠ [] := by
  intro hnil
  rw [dropTrailingZeros, List.reverse_eq_nil_iff, List.dropWhile_eq_nil_iff] at hnil
  apply h
  rw [← toNat_ofNat n]
  refine toNat_of_forall_zero fun d hd => ?_
  exact eq_of_beq (hnil d (List.mem_reverse.mpr hd))

end Digits

namespace Magnitude

/-- A number that reads back as another than zero is not zero. -/
theorem significand_ne_zero_of_readsBack {v : Magnitude} (hv : v.significand ≠ 0) {d : Decimal}
    (h : v.readsBack d = true) : d.significand ≠ 0 := by
  intro hzero
  rw [readsBack, ofDecimal, hzero] at h
  apply hv
  rw [← Option.some.inj (eq_of_beq h)]
  rfl

theorem decimal_significand_ne_zero {v : Magnitude} (hv : v.significand ≠ 0) :
    v.decimal.significand ≠ 0 := by
  rw [decimal]
  have htwo : Nat.pow 2 v.exponent.toNat ≠ 0 := by simp
  have hfive : Nat.pow 5 (-v.exponent).toNat ≠ 0 := by simp
  exact Nat.mul_ne_zero (Nat.mul_ne_zero hv htwo) hfive

/-- The shortest number for a double other than zero is not zero. -/
theorem shortest_significand_ne_zero (tie : Tie) {v : Magnitude} (hv : v.significand ≠ 0) :
    (v.shortest tie).significand ≠ 0 := by
  rw [shortest]
  cases hfound : (List.range (Digits.ofNat v.decimal.significand).length).findSome?
      (fun n => neighbour? tie v ((Digits.ofNat v.decimal.significand).length - 1 - n)) with
  | none => exact decimal_significand_ne_zero hv
  | some d =>
    obtain ⟨n, -, hn⟩ := List.exists_of_findSome?_eq_some hfound
    exact significand_ne_zero_of_readsBack hv (List.find?_some hn)

end Magnitude

namespace Layout

theorem positional_whole_ne_nil (layout : Layout) (digits : List Digit) (place : Int) :
    (layout.positional digits place).whole ≠ [] := by
  rw [positional]
  simp only
  split
  · exact List.cons_ne_nil _ _
  · split
    · next hshort =>
      intro hnil
      have hlength := congrArg List.length hnil
      simp only [List.length_append, List.length_replicate, List.length_nil] at hlength
      omega
    · next hlong =>
      intro hnil
      have hlength := congrArg List.length hnil
      simp only [List.length_take, List.length_nil] at hlength
      omega

/-- **Every laid out number has a digit before the point.** -/
theorem numeral_whole_ne_nil (layout : Layout) (v : Magnitude) :
    (layout.numeral v).whole ≠ [] := by
  rw [numeral]
  by_cases hzero : v.significand = 0
  · rw [if_pos hzero]
    exact positional_whole_ne_nil layout _ _
  · rw [if_neg hzero]
    simp only
    split
    · exact positional_whole_ne_nil layout _ _
    · have hdigits := Digits.dropTrailingZeros_ne_nil
        (Magnitude.shortest_significand_ne_zero layout.tie hzero)
      obtain ⟨d, digits, hcons⟩ := List.exists_cons_of_ne_nil hdigits
      rw [scientific, hcons]
      exact List.cons_ne_nil _ _

end Layout

end BlockSketch
