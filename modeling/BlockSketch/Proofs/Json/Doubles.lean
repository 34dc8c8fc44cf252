import BlockSketch.Json.Number
import BlockSketch.Proofs.Decimal.Denoted

/-!
# Where JSON numbers are rounded once

A JSON number that is read as a double may be rounded twice: as a significand, and when it is scaled
by a power of ten, which may itself be rounded. Whatever comes out is a finite double
(`JsonNumber.finite_double?`), but it need not be the one that the number is rounded to.

It is that one if neither the digits nor the power have to be rounded
(`JsonNumber.roundsTo_double?`): digits that spell a number below `2 ^ 53` are taken as they are, and
the powers up to `10 ^ 22` are doubles, since `5 ^ 22` is below `2 ^ 53`.
-/

namespace BlockSketch

namespace Magnitude

theorem finite_ofWhole {m : ℕ} (h : m < 2 ^ 53) : (ofWhole m).Finite :=
  ((ofRatio_eq_some_iff one_ne_zero).mp (ofRatio_whole h)).finite

/-- Small numbers times powers of two are doubles. -/
theorem exists_finite {m : ℕ} (hm : m < 2 ^ 53) {e : ℕ} (he : e ≤ 971) :
    ∃ v : Magnitude, v.Finite ∧ v.toRat = m * 2 ^ e := by
  by_cases hzero : m = 0
  · refine ⟨zero, finite_zero, ?_⟩
    rw [toRat_zero, hzero, Nat.cast_zero, zero_mul]
  have hlog := log2_le hm hzero
  have hcanonical := canonical_ofWhole hm
  have hvalue := toRat_ofWhole hm
  rw [ofWhole, if_neg hzero] at hcanonical hvalue
  have hfull := hcanonical.full.resolve_left (by simp only; omega)
  refine ⟨⟨m * 2 ^ (52 - m.log2), m.log2 - 52 + e⟩, ⟨⟨hcanonical.lt, ?_, .inr hfull⟩, ?_⟩, ?_⟩
  · simp only
    omega
  · simp only
    omega
  · rw [toRat, zpow_add₀ two_ne_zero, ← mul_assoc, ← hvalue, zpow_natCast]
    rfl

/-- What is at least one is not rounded to zero. -/
theorem RoundsTo.toRat_ne_zero {v : Magnitude} {x : ℚ} (h : v.RoundsTo x) (hx : 1 ≤ x) :
    v.toRat ≠ 0 := by
  intro hzero
  have hle := h.le (canonical_ofWhole (n := 1) (by decide))
  rw [hzero, toRat_ofWhole (by decide), Nat.cast_one, sub_zero, abs_of_nonneg (by linarith),
    abs_of_nonneg (by linarith)] at hle
  linarith

end Magnitude

/-- Neither the digits of a numeral nor its power of ten have to be rounded. -/
structure Numeral.Exact (n : Numeral) : Prop where
  digits : n.decimal.significand < 2 ^ 53
  power : n.decimal.exponent.natAbs ≤ 22

namespace JsonNumber

open Magnitude (RoundsTo)

variable {v w : Magnitude} {n : Numeral}

/-! ### Powers of ten -/

theorem roundsTo_powerOfTen {k : ℕ} (h : k ≤ 308) : (powerOfTen k).RoundsTo (10 ^ k) := by
  have hlargest : (10 : ℚ) ^ k ≤ Magnitude.largest.toRat := by
    have hpower : 10 ^ 308 ≤ Magnitude.largest.significand * 2 ^ 971 := by decide +kernel
    have hpower := Nat.cast_le (α := ℚ).mpr hpower
    rw [Nat.cast_pow, Nat.cast_mul, Nat.cast_pow, Nat.cast_ofNat, Nat.cast_ofNat, ← zpow_natCast 2]
      at hpower
    exact (pow_le_pow_right₀ (by norm_num) h).trans hpower
  obtain ⟨p, hp⟩ := Magnitude.exists_roundsTo (by positivity) hlargest
  have hread : Magnitude.ofDecimal ⟨1, k⟩ = some p := by
    rw [Magnitude.ofDecimal_eq_some_iff, Decimal.toRat, Nat.cast_one, one_mul, zpow_natCast]
    exact hp
  rw [powerOfTen, hread, Option.getD_some]
  exact hp

theorem powerOfTen_ne_zero {k : ℕ} (h : k ≤ 308) : (powerOfTen k).toRat ≠ 0 :=
  (roundsTo_powerOfTen h).toRat_ne_zero (one_le_pow₀ (by norm_num))

/-- Small powers of ten are doubles. -/
theorem toRat_powerOfTen {k : ℕ} (h : k ≤ 22) : (powerOfTen k).toRat = 10 ^ k := by
  have hfive : 5 ^ k < 2 ^ 53 :=
    Nat.lt_of_le_of_lt (Nat.pow_le_pow_right (by decide) h) (by decide)
  obtain ⟨p, hp, hvalue⟩ := Magnitude.exists_finite hfive (e := k) (by omega)
  have hten : p.toRat = 10 ^ k := by
    rw [hvalue, Nat.cast_pow, Nat.cast_ofNat, ← mul_pow]
    norm_num
  rw [(roundsTo_powerOfTen (by omega)).unique (hten ▸ hp.roundsTo), hten]

/-! ### Finite doubles -/

theorem finite_divideSteps {steps e : ℕ} (hv : v.Finite) (he : e ≤ 308 * (steps + 1))
    (h : divideSteps steps e v = some w) : w.Finite := by
  induction steps generalizing e v with
  | zero => exact ((Magnitude.div_eq_some_iff (powerOfTen_ne_zero (by omega))).mp h).finite
  | succ steps ih =>
    rw [divideSteps] at h
    split at h
    · exact Option.some.inj h ▸ hv
    · obtain ⟨u, hu, hrest⟩ := Option.bind_eq_some_iff.mp h
      have hfinite := ((Magnitude.div_eq_some_iff (powerOfTen_ne_zero le_rfl)).mp hu).finite
      exact ih hfinite (by omega) hrest

theorem finite_scale {e : ℤ} (hv : v.Finite) (h : scale v e = some w) : w.Finite := by
  rw [scale] at h
  split at h
  · split at h
    · exact Option.some.inj h ▸ hv
    · split at h
      · exact (Magnitude.mul_eq_some_iff.mp h).finite
      · cases h
  · exact finite_divideSteps hv (by omega) h

/-- **What is read is a finite double.** -/
theorem finite_double? (h : double? n = some v) : v.Finite := by
  obtain ⟨u, hu, hscale⟩ := Option.bind_eq_some_iff.mp h
  exact finite_scale ((Magnitude.ofRatio_eq_some_iff one_ne_zero).mp hu).finite hscale

/-! ### Rounding once -/

namespace Significand

variable {digits : List Digit} {m : ℕ} {e : ℤ}

theorem foldl_takeWhole (h : digits.foldl (fun n d => 10 * n + d.val) m < wordBound) :
    digits.foldl takeWhole ⟨m, e, false⟩ =
      ⟨digits.foldl (fun n d => 10 * n + d.val) m, e, false⟩ := by
  induction digits generalizing m with
  | nil => rfl
  | cons d digits ih =>
    rw [List.foldl_cons] at h ⊢
    have hstep : 10 * m + d.val < wordBound := (Digits.le_foldl digits _).trans_lt h
    rw [takeWhole, if_pos (by simpa using hstep)]
    exact ih h

theorem foldl_takeFraction (h : digits.foldl (fun n d => 10 * n + d.val) m < wordBound) :
    digits.foldl takeFraction ⟨m, e, false⟩ =
      ⟨digits.foldl (fun n d => 10 * n + d.val) m, e - digits.length, false⟩ := by
  induction digits generalizing m e with
  | nil => simp
  | cons d digits ih =>
    rw [List.foldl_cons] at h ⊢
    have hstep : 10 * m + d.val < wordBound := (Digits.le_foldl digits _).trans_lt h
    rw [takeFraction, if_pos (by simpa using hstep)]
    refine (ih h).trans ?_
    rw [List.length_cons, Nat.cast_succ, ← sub_sub, sub_right_comm]
    rfl

/-- Digits that fit are collected as they are. -/
theorem ofNumeral_eq (h : n.decimal.significand < wordBound) :
    ofNumeral n = ⟨n.decimal.significand, -n.fraction.length, false⟩ := by
  rw [Numeral.decimal, Digits.toNat, List.foldl_append] at h
  rw [ofNumeral, foldl_takeWhole ((Digits.le_foldl _ _).trans_lt h)]
  simp only
  rw [foldl_takeFraction h, zero_sub, Numeral.decimal, Digits.toNat, List.foldl_append]

end Significand

/-- **A number is rounded once** if its digits and its power of ten need not be rounded. -/
theorem roundsTo_double? (hn : n.Exact) (h : double? n = some v) : v.RoundsTo n.decimal.toRat := by
  obtain ⟨hdigits, hpower⟩ := hn
  have hword : n.decimal.significand < wordBound := hdigits.trans (by decide)
  have hexponent : -n.fraction.length + n.exponent.getD 0 = n.decimal.exponent := by
    simp only [Numeral.decimal]
    omega
  have hvalue := Magnitude.toRat_ofWhole hdigits
  simp only [double?, Significand.ofNumeral_eq hword, Magnitude.ofRatio_whole hdigits,
    Option.bind_some, hexponent, scale] at h
  rw [Decimal.toRat, ← hvalue]
  split at h
  · next hnonneg =>
    obtain ⟨k, hk⟩ := Int.eq_ofNat_of_zero_le hnonneg
    rw [hk, Int.natAbs_natCast] at hpower
    split at h
    · next hzero =>
      have hnumber : (Magnitude.ofWhole n.decimal.significand).toRat = 0 := by
        rw [Magnitude.toRat, hzero, Nat.cast_zero, zero_mul]
      rw [← Option.some.inj h, hnumber, zero_mul, ← hnumber]
      exact (Magnitude.finite_ofWhole hdigits).roundsTo
    · rw [hk, if_pos (by omega), Int.toNat_natCast, Magnitude.mul_eq_some_iff,
        toRat_powerOfTen hpower] at h
      rwa [hk, zpow_natCast]
  · next hneg =>
    obtain ⟨k, hk⟩ := Int.eq_ofNat_of_zero_le (show 0 ≤ -n.decimal.exponent by omega)
    have hk : n.decimal.exponent = -(k : ℤ) := by omega
    rw [hk, Int.natAbs_neg, Int.natAbs_natCast] at hpower h
    rw [Nat.div_eq_of_lt (by omega), divideSteps,
      Magnitude.div_eq_some_iff (powerOfTen_ne_zero (by omega)), toRat_powerOfTen hpower] at h
    rwa [hk, zpow_neg, zpow_natCast, ← div_eq_mul_inv]

end JsonNumber

end BlockSketch
