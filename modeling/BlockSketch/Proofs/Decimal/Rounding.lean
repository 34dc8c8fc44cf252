import BlockSketch.Decimal.Binary64
import BlockSketch.Proofs.Decimal.Digits
import Mathlib.Data.Nat.Log
import Mathlib.Data.Rat.Cast.Order
import Mathlib.Algebra.Order.Field.Power
import Mathlib.Tactic.FieldSimp
import Mathlib.Tactic.Linarith
import Mathlib.Tactic.Positivity
import Mathlib.Tactic.Ring
import Mathlib.Tactic.NormNum

/-!
# Rounding gives the canonical form

As a rational number a magnitude is `Magnitude.toRat`. Every magnitude that comes out of rounding is
in canonical form (`Magnitude.canonical_rounded`), and in that form there is only one magnitude for
a number (`Magnitude.Canonical.ext_toRat`). So a double that is read from a text is known as soon as
its number is.
-/

namespace BlockSketch

/-- The number that a decimal is. -/
def Decimal.toRat (d : Decimal) : ℚ :=
  d.significand * 10 ^ d.exponent

theorem Decimal.toRat_nonneg (d : Decimal) : 0 ≤ d.toRat := by
  rw [toRat]
  positivity

namespace Magnitude

/-- The number that a magnitude is. -/
def toRat (v : Magnitude) : ℚ :=
  v.significand * 2 ^ v.exponent

theorem toRat_nonneg (v : Magnitude) : 0 ≤ v.toRat := by
  rw [toRat]
  positivity

/-- The form in which every number has one magnitude at most. -/
structure Canonical (v : Magnitude) : Prop where
  lt : v.significand < 2 ^ 53
  exponent_ge : -1074 ≤ v.exponent
  full : v.exponent = -1074 ∨ 2 ^ 52 ≤ v.significand

theorem canonical_zero : zero.Canonical :=
  ⟨by decide, le_rfl, .inl rfl⟩

/-- Of two magnitudes of one number, neither has the smaller exponent. -/
theorem Canonical.exponent_le {v w : Magnitude} (hv : v.Canonical) (hw : w.Canonical)
    (h : v.toRat = w.toRat) : w.exponent ≤ v.exponent := by
  by_contra hlt
  rw [not_le] at hlt
  obtain ⟨n, hn⟩ : ∃ n : ℕ, w.exponent = v.exponent + (n + 1 : ℕ) :=
    ⟨(w.exponent - v.exponent - 1).toNat, by omega⟩
  have hfull : 2 ^ 52 ≤ w.significand := hw.full.resolve_left (by have := hv.exponent_ge; omega)
  have heq : (v.significand : ℚ) = w.significand * 2 ^ (n + 1) := by
    rw [toRat, toRat, hn, zpow_add₀ two_ne_zero, mul_comm (2 ^ v.exponent), ← mul_assoc] at h
    exact_mod_cast mul_right_cancel₀ (zpow_ne_zero _ two_ne_zero) h
  have hnat : v.significand = w.significand * 2 ^ n * 2 := by
    rw [mul_assoc, ← pow_succ]
    exact_mod_cast heq
  have hle : w.significand ≤ w.significand * 2 ^ n := Nat.le_mul_of_pos_right _ (by positivity)
  have hlt := hv.lt
  omega

/-- **A number has one canonical magnitude.** -/
theorem Canonical.ext_toRat {v w : Magnitude} (hv : v.Canonical) (hw : w.Canonical)
    (h : v.toRat = w.toRat) : v = w := by
  have hexponent : v.exponent = w.exponent :=
    le_antisymm (hw.exponent_le hv h.symm) (hv.exponent_le hw h)
  have hsignificand : (v.significand : ℚ) = w.significand := by
    rw [toRat, toRat, hexponent] at h
    exact mul_right_cancel₀ (zpow_ne_zero _ two_ne_zero) h
  obtain ⟨s, e⟩ := v
  obtain ⟨s', e'⟩ := w
  simp only [Magnitude.mk.injEq]
  exact ⟨by exact_mod_cast hsignificand, hexponent⟩

/-! ### Rounding -/

/-- A power that is put above or below the line, as its sign wants, shifts a quotient. -/
theorem ratio_shift (base : ℕ) (hbase : base ≠ 0) (num den : ℕ) (e : ℤ) :
    ((num * base ^ (-e).toNat : ℕ) : ℚ) / (den * base ^ e.toNat : ℕ) =
      num / den * (base : ℚ) ^ (-e) := by
  have hb : (base : ℚ) ≠ 0 := Nat.cast_ne_zero.mpr hbase
  push_cast
  rcases le_total 0 e with he | he
  · obtain ⟨n, rfl⟩ := Int.eq_ofNat_of_zero_le he
    simp only [Int.toNat_natCast, Int.toNat_neg_natCast, pow_zero, mul_one, zpow_neg, zpow_natCast]
    rw [← div_div, div_eq_mul_inv _ ((base : ℚ) ^ n)]
  · obtain ⟨n, hn⟩ := Int.eq_ofNat_of_zero_le (neg_nonneg.mpr he)
    obtain rfl : e = -(n : ℤ) := by omega
    simp only [Int.toNat_natCast, Int.toNat_neg_natCast, neg_neg, pow_zero, mul_one, zpow_natCast]
    rw [mul_div_right_comm]

theorem roundQuotient_le {num den m : ℕ} (hden : 0 < den) (h : num ≤ m * den) :
    roundQuotient num den ≤ m := by
  have hdiv : num / den ≤ m := Nat.div_le_of_le_mul (by rwa [Nat.mul_comm] at h)
  have hparts := Nat.div_add_mod num den
  rw [roundQuotient]
  split
  · next hup =>
    -- there is something to round up, so the quotient is not yet `m`
    refine Nat.lt_of_le_of_ne hdiv fun heq => ?_
    rw [heq, Nat.mul_comm] at hparts
    have hrest : num % den = 0 := by omega
    rw [hrest] at hup
    simp only [Nat.mul_zero, Nat.not_lt_zero, decide_false, Bool.false_or, Bool.and_eq_true,
      beq_iff_eq] at hup
    omega
  · exact hdiv

theorem le_roundQuotient {num den m : ℕ} (hden : 0 < den) (h : m * den ≤ num) :
    m ≤ roundQuotient num den := by
  have hdiv : m ≤ num / den := (Nat.le_div_iff_mul_le hden).mpr h
  rw [roundQuotient]
  split <;> omega

theorem roundQuotient_one (n : ℕ) : roundQuotient n 1 = n := by
  simp [roundQuotient, Nat.mod_one]

/-- **The logarithm of a quotient** is the one power of two that does not pass it while the next one
does. -/
theorem logQuotient_spec {num den : ℕ} (hnum : num ≠ 0) (hden : den ≠ 0) :
    (2 : ℚ) ^ logQuotient num den ≤ num / den ∧
      (num / den : ℚ) < 2 ^ (logQuotient num den + 1) := by
  have hdenpos : (0 : ℚ) < den := Nat.cast_pos.mpr (Nat.pos_of_ne_zero hden)
  have hnumlog : (2 : ℚ) ^ (num.log2 : ℤ) ≤ num ∧ (num : ℚ) < 2 ^ ((num.log2 : ℤ) + 1) :=
    ⟨by exact_mod_cast Nat.log2_self_le hnum, by exact_mod_cast Nat.lt_log2_self⟩
  have hdenlog : (2 : ℚ) ^ (den.log2 : ℤ) ≤ den ∧ (den : ℚ) < 2 ^ ((den.log2 : ℤ) + 1) :=
    ⟨by exact_mod_cast Nat.log2_self_le hden, by exact_mod_cast Nat.lt_log2_self⟩
  have htest (k : ℤ) : num * Nat.pow 2 (-k).toNat < den * Nat.pow 2 k.toNat ↔
      (num / den : ℚ) < 2 ^ k := by
    have hshift := ratio_shift 2 two_ne_zero num den k
    have hpos : (0 : ℚ) < ((den * 2 ^ k.toNat : ℕ) : ℚ) := by positivity
    rw [← Nat.cast_lt (α := ℚ)]
    change ((num * 2 ^ (-k).toNat : ℕ) : ℚ) < ((den * 2 ^ k.toNat : ℕ) : ℚ) ↔ _
    rw [← div_lt_one hpos, hshift, zpow_neg, Nat.cast_ofNat, mul_inv_lt_iff₀ (by positivity),
      one_mul]
  rw [logQuotient]
  simp only [htest]
  split
  · next hlt =>
    refine ⟨?_, by rwa [sub_add_cancel]⟩
    rw [le_div_iff₀ hdenpos]
    calc (2 : ℚ) ^ ((num.log2 : ℤ) - den.log2 - 1) * den
        ≤ 2 ^ ((num.log2 : ℤ) - den.log2 - 1) * 2 ^ ((den.log2 : ℤ) + 1) := by
          gcongr
          exact hdenlog.2.le
      _ = 2 ^ (num.log2 : ℤ) := by
          rw [← zpow_add₀ two_ne_zero]
          congr 1
          omega
      _ ≤ num := hnumlog.1
  · next hle =>
    refine ⟨not_lt.mp hle, ?_⟩
    rw [div_lt_iff₀ hdenpos]
    calc (num : ℚ) < 2 ^ ((num.log2 : ℤ) + 1) := hnumlog.2
      _ = 2 ^ ((num.log2 : ℤ) - den.log2 + 1) * 2 ^ (den.log2 : ℤ) := by
          rw [← zpow_add₀ two_ne_zero]
          congr 1
          omega
      _ ≤ 2 ^ ((num.log2 : ℤ) - den.log2 + 1) * den := by
          gcongr
          exact hdenlog.1

/-- A significand of at most 54 digits comes out of the carry with at most 53. -/
theorem canonical_carry {s : ℕ} {e : ℤ} (hs : s ≤ 2 ^ 53) (he : -1074 ≤ e)
    (hfull : e = -1074 ∨ 2 ^ 52 ≤ s) : (carry s e).Canonical := by
  rw [carry]
  split
  · exact ⟨Nat.pow_lt_pow_right one_lt_two (by decide), Int.le_add_one he, .inr le_rfl⟩
  · next hne => exact ⟨lt_of_le_of_ne hs hne, he, hfull⟩

/-- A positive quotient rounded to a magnitude, which may be past the largest double. -/
def rounded (num den : ℕ) : Magnitude :=
  carry (roundQuotient (num * 2 ^ (-roundingExponent num den).toNat)
    (den * 2 ^ (roundingExponent num den).toNat)) (roundingExponent num den)

theorem ofRatio_eq (num den : ℕ) :
    ofRatio num den =
      if num = 0 then some zero
      else if (rounded num den).exponent ≤ 971 then some (rounded num den) else none :=
  rfl

/-- The exponent leaves 53 digits before the point, or it is the smallest there is. -/
theorem roundingExponent_cases (num den : ℕ) :
    roundingExponent num den = -1074 ∨ logQuotient num den = 52 + roundingExponent num den := by
  rw [roundingExponent]
  omega

/-- **What was rounded is in canonical form.** -/
theorem canonical_rounded {num den : ℕ} (hnum : num ≠ 0) (hden : den ≠ 0) :
    (rounded num den).Canonical := by
  obtain ⟨hlow, hhigh⟩ := logQuotient_spec hnum hden
  have hcases := roundingExponent_cases num den
  have hge : -1074 ≤ roundingExponent num den ∧
      logQuotient num den - 52 ≤ roundingExponent num den := by
    rw [roundingExponent]
    omega
  rw [rounded]
  generalize roundingExponent num den = e at hcases hge
  have hpos : 0 < den * 2 ^ e.toNat := by positivity
  have hposRat : (0 : ℚ) < ((den * 2 ^ e.toNat : ℕ) : ℚ) := by exact_mod_cast hpos
  have hshift := ratio_shift 2 two_ne_zero num den e
  rw [Nat.cast_ofNat] at hshift
  refine canonical_carry ?_ hge.1 (hcases.imp_right fun heq => ?_)
  · refine roundQuotient_le hpos ?_
    have hlt : (num / den : ℚ) * 2 ^ (-e) < 2 ^ (53 : ℤ) := by
      calc (num / den : ℚ) * 2 ^ (-e)
          < 2 ^ (logQuotient num den + 1) * 2 ^ (-e) := by gcongr
        _ = 2 ^ (logQuotient num den + 1 + -e) := (zpow_add₀ two_ne_zero _ _).symm
        _ ≤ 2 ^ (53 : ℤ) := zpow_le_zpow_right₀ one_le_two (by omega)
    rw [← hshift, div_lt_iff₀ hposRat] at hlt
    exact_mod_cast hlt.le
  · refine le_roundQuotient hpos ?_
    have hle : (2 : ℚ) ^ (52 : ℤ) ≤ num / den * 2 ^ (-e) := by
      calc (2 : ℚ) ^ (52 : ℤ) = 2 ^ logQuotient num den * 2 ^ (-e) := by
            rw [← zpow_add₀ two_ne_zero]
            congr 1
            omega
        _ ≤ num / den * 2 ^ (-e) := by gcongr
    rw [← hshift, le_div_iff₀ hposRat] at hle
    exact_mod_cast hle

end Magnitude

end BlockSketch
