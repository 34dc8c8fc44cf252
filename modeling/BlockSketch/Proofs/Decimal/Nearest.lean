import BlockSketch.Proofs.Decimal.Rounding
import Mathlib.Algebra.Group.Even
import Mathlib.Algebra.Order.Group.Abs

/-!
# Rounding gives the nearest double

What it means to round a number to a double is said without an algorithm: `Magnitude.RoundsTo x v` if
no double is nearer to `x` than `v` is, and `v` is even if another one is as near. There is at most
one such double (`Magnitude.Nearest.unique`), and it is the one that the rounding of quotients finds,
if it finds one at all (`Magnitude.ofRatio_eq_some_iff`). The same is then true of the reading of
decimals, of the product and of the quotient of doubles.

Doubles lie on grids. Those from one exponent upwards are multiples of a power of two, and the
others are all smaller than what is to be rounded: that is why it suffices to round to a multiple.
-/

namespace BlockSketch.Magnitude

variable {x : ℚ} {v w : Magnitude} {num den : ℕ}

/-- No magnitude of a double is nearer to `x` than `v`, and `v` is even if another one is as near.
Exponents past the largest take part in this: a number that is nearest to one of these is past the
largest double. -/
structure Nearest (x : ℚ) (v : Magnitude) : Prop where
  canonical : v.Canonical
  le {w : Magnitude} : w.Canonical → |x - v.toRat| ≤ |x - w.toRat|
  even {w : Magnitude} : w.Canonical → |x - w.toRat| = |x - v.toRat| → w ≠ v → Even v.significand

/-- The magnitude of a finite double. -/
structure Finite (v : Magnitude) : Prop extends v.Canonical where
  exponent_le : v.exponent ≤ 971

/-- **`x` is rounded to the double `v`.** -/
structure RoundsTo (x : ℚ) (v : Magnitude) : Prop extends Nearest x v where
  exponent_le : v.exponent ≤ 971

theorem RoundsTo.finite (h : v.RoundsTo x) : v.Finite :=
  ⟨h.canonical, h.exponent_le⟩

theorem finite_zero : zero.Finite :=
  ⟨canonical_zero, by decide⟩

theorem toRat_zero : zero.toRat = 0 := by
  rw [toRat, zero, Nat.cast_zero, zero_mul]

/-! ### Grids -/

/-- Magnitudes from an exponent upwards are multiples of its power. -/
theorem exists_toRat_eq_mul {e : ℤ} (h : e ≤ v.exponent) :
    ∃ k : ℕ, v.toRat = k * 2 ^ e := by
  obtain ⟨n, hn⟩ := Int.le.dest h
  refine ⟨v.significand * 2 ^ n, ?_⟩
  rw [toRat, ← hn, zpow_add₀ two_ne_zero, zpow_natCast]
  push_cast
  ring

/-- Magnitudes below an exponent are smaller than all full ones from there upwards. -/
theorem Canonical.toRat_lt (h : v.Canonical) {e : ℤ} (he : v.exponent < e) :
    v.toRat < 2 ^ (52 + e) := by
  have hlt : (v.significand : ℚ) < 2 ^ (53 : ℤ) := by exact_mod_cast h.lt
  calc v.toRat < 2 ^ (53 : ℤ) * 2 ^ v.exponent := by rw [toRat]; gcongr
    _ = 2 ^ (53 + v.exponent) := (zpow_add₀ two_ne_zero _ _).symm
    _ ≤ 2 ^ (52 + e) := zpow_le_zpow_right₀ one_le_two (by omega)

theorem le_toRat (h : 2 ^ 52 ≤ v.significand) : 2 ^ (52 + v.exponent) ≤ v.toRat := by
  have hle : (2 : ℚ) ^ (52 : ℤ) ≤ v.significand := by exact_mod_cast h
  rw [toRat, zpow_add₀ two_ne_zero]
  gcongr

/-- The larger of two magnitudes has no smaller exponent. -/
theorem Canonical.exponent_le_of_lt (hv : v.Canonical) (hw : w.Canonical)
    (h : v.toRat < w.toRat) : v.exponent ≤ w.exponent := by
  by_contra hlt
  rw [not_le] at hlt
  have hfull : 2 ^ 52 ≤ v.significand := hv.full.resolve_left (by have := hw.exponent_ge; omega)
  exact lt_asymm h ((hw.toRat_lt hlt).trans_le (le_toRat hfull))

/-- The next magnitude of the same exponent. -/
def next (v : Magnitude) : Magnitude :=
  ⟨v.significand + 1, v.exponent⟩

theorem lt_next (v : Magnitude) : v.toRat < v.next.toRat := by
  rw [toRat, toRat, next, Nat.cast_succ]
  gcongr
  exact lt_add_one _

/-- An even significand is not the last one of its exponent. -/
theorem Canonical.next (hv : v.Canonical) (heven : Even v.significand) : v.next.Canonical where
  lt := by
    obtain ⟨k, hk⟩ := heven
    have := hv.lt
    change v.significand + 1 < _
    omega
  exponent_ge := hv.exponent_ge
  full := hv.full.imp_right Nat.le_succ_of_le

/-- There is no magnitude between one and the next. -/
theorem Canonical.next_le (hv : v.Canonical) (hw : w.Canonical) (h : v.toRat < w.toRat) :
    v.next.toRat ≤ w.toRat := by
  obtain ⟨k, hk⟩ := exists_toRat_eq_mul (hv.exponent_le_of_lt hw h)
  have hlt : v.significand < k := by
    rw [hk, toRat] at h
    exact_mod_cast lt_of_mul_lt_mul_right h (by positivity)
  rw [hk, toRat, Magnitude.next]
  gcongr
  exact hlt

/-! ### The nearest magnitude -/

/-- Between two even magnitudes there is a third one. -/
theorem Canonical.exists_between (hv : v.Canonical) (hw : w.Canonical)
    (heven : Even v.significand) (heven' : Even w.significand) (h : v.toRat < w.toRat) :
    ∃ u : Magnitude, u.Canonical ∧ v.toRat < u.toRat ∧ u.toRat < w.toRat := by
  have hnext := hv.next heven
  refine ⟨v.next, hnext, v.lt_next, lt_of_le_of_ne (hv.next_le hw h) fun heq => ?_⟩
  obtain rfl := hnext.ext_toRat hw heq
  exact Nat.even_add_one.mp heven' heven

/-- **There is one nearest magnitude** at most. -/
theorem Nearest.unique (hv : v.Nearest x) (hw : w.Nearest x) : v = w := by
  have hdistance : |x - v.toRat| = |x - w.toRat| :=
    le_antisymm (hv.le hw.canonical) (hw.le hv.canonical)
  -- of two that are as near, both are even, and one between them is nearer
  have hnot {v w : Magnitude} (hv : v.Nearest x) (hw : w.Nearest x)
      (hdistance : |x - v.toRat| = |x - w.toRat|) : ¬ v.toRat < w.toRat := by
    intro hlt
    have hne : v ≠ w := fun heq => hlt.ne (congrArg toRat heq)
    obtain ⟨u, hu, hvu, huw⟩ := hv.canonical.exists_between hw.canonical
      (hv.even hw.canonical hdistance.symm hne.symm) (hw.even hv.canonical hdistance hne) hlt
    have hmiddle : x - v.toRat = w.toRat - x := by
      rcases abs_eq_abs.mp hdistance with heq | heq
      · linarith
      · linarith
    have hnearer : |x - u.toRat| < |x - v.toRat| := by
      rw [abs_of_nonneg (a := x - v.toRat) (by linarith), abs_lt]
      constructor <;> linarith
    exact (hv.le hu).not_gt hnearer
  refine hv.canonical.ext_toRat hw.canonical (le_antisymm ?_ ?_)
  · exact not_lt.mp (hnot hw hv hdistance.symm)
  · exact not_lt.mp (hnot hv hw hdistance)

theorem RoundsTo.unique (hv : v.RoundsTo x) (hw : w.RoundsTo x) : v = w :=
  hv.toNearest.unique hw.toNearest

/-- A magnitude is nearest to itself. -/
theorem Canonical.nearest (hv : v.Canonical) : v.Nearest v.toRat where
  canonical := hv
  le _ := by
    rw [sub_self, abs_zero]
    exact abs_nonneg _
  even hw h hne := by
    rw [sub_self, abs_zero, abs_eq_zero, sub_eq_zero] at h
    exact absurd (hw.ext_toRat hv h.symm) hne

theorem Finite.roundsTo (hv : v.Finite) : v.RoundsTo v.toRat :=
  ⟨hv.toCanonical.nearest, hv.exponent_le⟩

/-! ### The nearest whole number -/

/-- The rounded quotient is off by at most a half, and even if it is off by just that. -/
theorem roundQuotient_spec (num : ℕ) (hden : 0 < den) :
    |(num / den : ℚ) - roundQuotient num den| ≤ 1 / 2 ∧
      (|(num / den : ℚ) - roundQuotient num den| = 1 / 2 → Even (roundQuotient num den)) := by
  have hpos : (0 : ℚ) < den := Nat.cast_pos.mpr hden
  have hparts : (num : ℚ) = den * (num / den : ℕ) + (num % den : ℕ) := by
    exact_mod_cast (Nat.div_add_mod num den).symm
  have hrest : ((num % den : ℕ) : ℚ) < den := Nat.cast_lt.mpr (Nat.mod_lt num hden)
  have hquotient : (num / den : ℚ) = (num / den : ℕ) + (num % den : ℕ) / den := by
    rw [hparts]
    field_simp
  rw [roundQuotient]
  simp only [Bool.or_eq_true, decide_eq_true_eq, Bool.and_eq_true, beq_iff_eq]
  split
  · next hup =>
    have hhalf : (den : ℚ) ≤ 2 * (num % den : ℕ) := by
      exact_mod_cast hup.elim Nat.le_of_lt fun h => h.1.le
    have hdistance : |(num / den : ℚ) - (num / den + 1 : ℕ)| = (den - (num % den : ℕ)) / den := by
      rw [hquotient, Nat.cast_succ, add_sub_add_left_eq_sub, abs_sub_comm, abs_of_nonneg]
      · field_simp
      · rw [sub_nonneg, div_le_one hpos]
        exact hrest.le
    rw [hdistance, div_le_iff₀ hpos, div_eq_iff hpos.ne']
    refine ⟨by linarith, fun hexact => ?_⟩
    have hexact : den = 2 * (num % den) := by
      have : (den : ℚ) = 2 * (num % den : ℕ) := by linarith
      exact_mod_cast this
    rcases hup with hlt | ⟨-, hodd⟩
    · omega
    · rw [Nat.even_add_one, Nat.not_even_iff]
      exact hodd
  · next hdown =>
    rw [not_or, not_lt, not_and] at hdown
    have hhalf : 2 * ((num % den : ℕ) : ℚ) ≤ den := by exact_mod_cast hdown.1
    have hdistance : |(num / den : ℚ) - (num / den : ℕ)| = (num % den : ℕ) / den := by
      rw [hquotient, add_sub_cancel_left, abs_of_nonneg (by positivity)]
    rw [hdistance, div_le_iff₀ hpos, div_eq_iff hpos.ne']
    refine ⟨by linarith, fun hexact => ?_⟩
    have hexact : den = 2 * (num % den) := by
      have : (den : ℚ) = 2 * (num % den : ℕ) := by linarith
      exact_mod_cast this
    have hodd := hdown.2 hexact
    rw [Nat.even_iff]
    omega

/-- No whole number is nearer than one that is off by at most a half. -/
theorem abs_sub_le_of_half {m k : ℕ} (h : |x - m| ≤ 1 / 2) (hne : k ≠ m) : 1 / 2 ≤ |x - k| := by
  have hone : (1 : ℚ) ≤ |(m : ℚ) - k| := by
    have hsub : (m : ℤ) - k ≠ 0 := by omega
    exact_mod_cast Int.one_le_abs hsub
  have htriangle : |(m : ℚ) - k| ≤ |x - m| + |x - k| := by
    rw [abs_sub_comm x (m : ℚ)]
    exact abs_sub_le _ _ _
  linarith

/-! ### The carry -/

theorem toRat_carry (s : ℕ) (e : ℤ) : (carry s e).toRat = s * 2 ^ e := by
  rw [carry]
  split
  · next hs =>
    rw [hs, toRat, zpow_add_one₀ two_ne_zero]
    change ((2 ^ 52 : ℕ) : ℚ) * (2 ^ e * 2) = ((2 ^ 53 : ℕ) : ℚ) * 2 ^ e
    push_cast
    ring
  · rfl

theorem even_carry {s : ℕ} {e : ℤ} (h : Even s) : Even (carry s e).significand := by
  rw [carry]
  split
  · exact ⟨2 ^ 51, rfl⟩
  · exact h

/-! ### Rounding a quotient -/

/-- A number that is rounded to a multiple of a power of two has that multiple as its nearest
magnitude, if all magnitudes that are no such multiples are below a multiple that is no larger than
the number. -/
theorem nearest_of_grid (base : ℕ) {m : ℕ} {e : ℤ} (hv : v.Canonical) (hvalue : v.toRat = m * 2 ^ e)
    (hhalf : |x / 2 ^ e - m| ≤ 1 / 2) (heven : |x / 2 ^ e - m| = 1 / 2 → Even v.significand)
    (hbase : base * 2 ^ e ≤ x)
    (hbelow : ∀ w : Magnitude, w.Canonical → w.exponent < e → w.toRat < base * 2 ^ e) :
    v.Nearest x := by
  have hpos : (0 : ℚ) < 2 ^ e := by positivity
  have hscale (k : ℕ) : |x - k * 2 ^ e| = |x / 2 ^ e - k| * 2 ^ e := by
    rw [← abs_of_pos hpos, ← abs_mul, abs_of_pos hpos, sub_mul, div_mul_cancel₀ x hpos.ne']
  -- among the multiples
  have hgrid (k : ℕ) : |x - v.toRat| ≤ |x - k * 2 ^ e| := by
    rw [hvalue, hscale, hscale]
    by_cases hk : k = m
    · rw [hk]
    · exact mul_le_mul_of_nonneg_right (hhalf.trans (abs_sub_le_of_half hhalf hk)) hpos.le
  -- below them
  have hlow {w : Magnitude} (hw : w.Canonical) (he : w.exponent < e) :
      |x - v.toRat| < |x - w.toRat| := by
    have hlt := hbelow w hw he
    calc |x - v.toRat| ≤ |x - base * 2 ^ e| := hgrid base
      _ = x - base * 2 ^ e := abs_of_nonneg (sub_nonneg.mpr hbase)
      _ < x - w.toRat := by linarith
      _ ≤ |x - w.toRat| := le_abs_self _
  refine ⟨hv, fun {w} hw => ?_, fun {w} hw htie hne => ?_⟩
  · rcases lt_or_ge w.exponent e with he | he
    · exact (hlow hw he).le
    · obtain ⟨k, hk⟩ := exists_toRat_eq_mul he
      rw [hk]
      exact hgrid k
  · rcases lt_or_ge w.exponent e with he | he
    · exact absurd htie (hlow hw he).ne'
    · obtain ⟨k, hk⟩ := exists_toRat_eq_mul he
      have hkm : k ≠ m := by
        rintro rfl
        exact hne (hw.ext_toRat hv (hk.trans hvalue.symm))
      rw [hk, hvalue, hscale, hscale] at htie
      have htie := mul_right_cancel₀ hpos.ne' htie
      exact heven (le_antisymm hhalf (htie ▸ abs_sub_le_of_half hhalf hkm))

/-- A rounded quotient is the nearest magnitude. -/
theorem nearest_rounded (hnum : num ≠ 0) (hden : den ≠ 0) :
    (rounded num den).Nearest (num / den) := by
  obtain ⟨hlow, -⟩ := logQuotient_spec hnum hden
  have hcanonical := canonical_rounded hnum hden
  have hcases := roundingExponent_cases num den
  rw [rounded] at hcanonical ⊢
  generalize roundingExponent num den = e at hcanonical hcases ⊢
  have hscaled := roundQuotient_spec (num * 2 ^ (-e).toNat)
    (show 0 < den * 2 ^ e.toNat by positivity)
  rw [ratio_shift 2 two_ne_zero, Nat.cast_ofNat, zpow_neg, ← div_eq_mul_inv] at hscaled
  refine nearest_of_grid (if e = -1074 then 0 else 2 ^ 52) hcanonical (toRat_carry _ _)
    hscaled.1 (fun h => even_carry (hscaled.2 h)) ?_ fun w hw hlt => ?_
  · split
    · rw [Nat.cast_zero, zero_mul]
      positivity
    · next he =>
      rw [hcases.resolve_left he, zpow_add₀ two_ne_zero] at hlow
      exact_mod_cast hlow
  · -- below the smallest exponent there is nothing
    rw [if_neg (by have := hw.exponent_ge; omega), Nat.cast_pow, Nat.cast_ofNat, ← zpow_natCast,
      ← zpow_add₀ two_ne_zero]
    exact hw.toRat_lt hlt

/-- **The rounding of quotients** finds the double that a quotient is rounded to, if there is one. -/
theorem ofRatio_eq_some_iff (hden : den ≠ 0) :
    ofRatio num den = some v ↔ v.RoundsTo (num / den) := by
  rw [ofRatio_eq]
  split
  · next hnum =>
    have hzero : zero.RoundsTo (num / den) := by
      rw [hnum, Nat.cast_zero, zero_div, ← toRat_zero]
      exact finite_zero.roundsTo
    exact ⟨fun h => Option.some.inj h ▸ hzero, fun h => congrArg some (hzero.unique h)⟩
  · next hnum =>
    have hnearest := nearest_rounded hnum hden
    constructor
    · intro h
      split at h
      · next hle => exact Option.some.inj h ▸ ⟨hnearest, hle⟩
      · cases h
    · intro h
      obtain rfl := hnearest.unique h.toNearest
      rw [if_pos h.exponent_le]

/-- The largest finite double. -/
def largest : Magnitude :=
  ⟨2 ^ 53 - 1, 971⟩

theorem canonical_largest : largest.Canonical :=
  ⟨by decide, by decide, .inr (by decide)⟩

/-- **There is a double to round to**, unless the largest one is exceeded. -/
theorem exists_roundsTo (hx : 0 ≤ x) (h : x ≤ largest.toRat) : ∃ v : Magnitude, v.RoundsTo x := by
  obtain ⟨num, hnum⟩ := Int.eq_ofNat_of_zero_le (Rat.num_nonneg.mpr hx)
  have hratio : x = num / x.den := by
    have hparts := (Rat.num_div_den x).symm
    rwa [hnum, Int.cast_natCast] at hparts
  by_cases hzero : num = 0
  · rw [hratio, hzero, Nat.cast_zero, zero_div, ← toRat_zero]
    exact ⟨zero, finite_zero.roundsTo⟩
  have hnearest := nearest_rounded hzero x.den_ne_zero
  rw [← hratio] at hnearest
  refine ⟨_, hnearest, ?_⟩
  -- past the largest exponent, the largest double would be nearer
  by_contra hexponent
  rw [not_le] at hexponent
  have hfull := hnearest.canonical.full.resolve_left (by omega)
  have hlt : largest.toRat < (rounded num x.den).toRat :=
    (canonical_largest.toRat_lt hexponent).trans_le (le_toRat hfull)
  have hle := hnearest.le canonical_largest
  rw [abs_of_nonpos (by linarith), abs_of_nonpos (by linarith)] at hle
  linarith

/-! ### Reading a decimal -/

/-- A number above zero lies between the powers of ten that its digits tell. -/
theorem decimal_bounds {d : Decimal} (h : d.significand ≠ 0) :
    (10 : ℚ) ^ (d.exponent + (Digits.ofNat d.significand).length - 1) ≤ d.toRat ∧
      d.toRat < 10 ^ (d.exponent + (Digits.ofNat d.significand).length) := by
  obtain ⟨n, hn⟩ : ∃ n, (Digits.ofNat d.significand).length = n + 1 :=
    Nat.exists_eq_succ_of_ne_zero (List.length_pos_iff.mpr (Digits.ofNat_ne_nil _)).ne'
  have hhigh : d.significand < 10 ^ (n + 1) :=
    (Digits.length_ofNat_le_iff n.succ_pos).mp hn.le
  have hlow : 10 ^ n ≤ d.significand := by
    by_contra hlt
    rw [not_le] at hlt
    rcases Nat.eq_zero_or_pos n with rfl | hpos
    · rw [pow_zero] at hlt
      omega
    · have := (Digits.length_ofNat_le_iff hpos).mpr hlt
      omega
  have hlow : (10 : ℚ) ^ n ≤ d.significand := by exact_mod_cast hlow
  have hhigh : (d.significand : ℚ) < 10 ^ (n + 1) := by exact_mod_cast hhigh
  have hten : (10 : ℚ) ≠ 0 := by norm_num
  rw [hn, Decimal.toRat, Nat.cast_succ, ← add_assoc, add_sub_cancel_right, add_comm _ (n : ℤ),
    zpow_add₀ hten, zpow_natCast, add_comm (n : ℤ), add_assoc, ← Nat.cast_succ,
    add_comm d.exponent, zpow_add₀ hten, zpow_natCast]
  constructor <;> gcongr

/-- The powers of ten past which no digits have to be looked at. -/
theorem powers_apart :
    2 * (10 : ℚ) ^ (-331 : ℤ) < 2 ^ (-1074 : ℤ) ∧ (2 : ℚ) ^ (1025 : ℤ) ≤ 10 ^ (310 : ℤ) := by
  have hlow : 2 * 2 ^ 1074 < 10 ^ 331 := by decide +kernel
  have hhigh : 2 ^ 1025 ≤ 10 ^ 310 := by decide +kernel
  constructor
  · rw [zpow_neg, zpow_neg, ← div_eq_mul_inv, ← one_div, div_lt_div_iff₀ (by positivity)
      (by positivity), one_mul]
    exact_mod_cast hlow
  · exact_mod_cast hhigh

/-- What is less than half of the smallest double is rounded to zero. -/
theorem roundsTo_zero (hx : 0 ≤ x) (h : 2 * x < 2 ^ (-1074 : ℤ)) : zero.RoundsTo x := by
  have hsmallest {w : Magnitude} (hw : w.Canonical) (hne : w ≠ zero) :
      2 ^ (-1074 : ℤ) ≤ w.toRat := by
    have hlt : zero.toRat < w.toRat := by
      refine lt_of_le_of_ne (toRat_zero ▸ w.toRat_nonneg) fun heq => hne ?_
      exact hw.ext_toRat canonical_zero heq.symm
    have hnext := canonical_zero.next_le hw hlt
    rwa [toRat, next, zero, zero_add, Nat.cast_one, one_mul] at hnext
  have hfar {w : Magnitude} (hw : w.Canonical) (hne : w ≠ zero) :
      |x - zero.toRat| < |x - w.toRat| := by
    have hle := hsmallest hw hne
    rw [toRat_zero, sub_zero, abs_of_nonneg hx, abs_sub_comm]
    exact lt_of_lt_of_le (by linarith) (le_abs_self _)
  refine ⟨⟨canonical_zero, fun {w} hw => ?_, fun {w} hw htie hne => ?_⟩, finite_zero.exponent_le⟩
  · by_cases hne : w = zero
    · rw [hne]
    · exact (hfar hw hne).le
  · exact absurd htie (hfar hw hne).ne'

/-- What is too large is rounded to no double. -/
theorem not_roundsTo (h : 2 ^ (1025 : ℤ) ≤ x) : ¬ v.RoundsTo x := by
  intro hv
  have hlow : v.toRat < 2 ^ (1024 : ℤ) := by
    have := hv.exponent_le
    exact hv.canonical.toRat_lt (e := 972) (by omega)
  have hcanonical : (⟨2 ^ 52, 973⟩ : Magnitude).Canonical := ⟨by decide, by decide, .inr le_rfl⟩
  have hvalue : (⟨2 ^ 52, 973⟩ : Magnitude).toRat = 2 ^ (1025 : ℤ) := by
    rw [toRat, Nat.cast_pow, Nat.cast_ofNat, ← zpow_natCast, ← zpow_add₀ two_ne_zero]
    rfl
  have hle := hv.le hcanonical
  have hlt : (2 : ℚ) ^ (1024 : ℤ) < 2 ^ (1025 : ℤ) := zpow_lt_zpow_right₀ one_lt_two (by decide)
  rw [hvalue] at hle
  generalize (2 : ℚ) ^ (1024 : ℤ) = last, (2 : ℚ) ^ (1025 : ℤ) = past at h hlow hlt hle
  rw [abs_of_nonneg (by linarith), abs_of_nonneg (by linarith)] at hle
  linarith

/-- **Reading a decimal** finds the double that the number is rounded to, if there is one. -/
theorem ofDecimal_eq_some_iff {d : Decimal} : ofDecimal d = some v ↔ v.RoundsTo d.toRat := by
  have hratio : d.toRat = ((d.significand * 10 ^ d.exponent.toNat : ℕ) : ℚ) /
      (10 ^ (-d.exponent).toNat : ℕ) := by
    have hshift := ratio_shift 10 (by decide) d.significand 1 (-d.exponent)
    rw [neg_neg, Nat.cast_one, div_one, Nat.cast_ofNat, one_mul] at hshift
    exact hshift.symm
  rw [ofDecimal]
  simp only [Bool.or_eq_true, decide_eq_true_eq]
  split
  · next h =>
    have hzero : zero.RoundsTo d.toRat := by
      refine roundsTo_zero d.toRat_nonneg ?_
      by_cases hs : d.significand = 0
      · rw [Decimal.toRat, hs, Nat.cast_zero, zero_mul, mul_zero]
        positivity
      · have hplace := h.resolve_left hs
        have hlt : d.toRat < 10 ^ (-331 : ℤ) := by
          refine (decimal_bounds hs).2.trans_le ?_
          exact zpow_le_zpow_right₀ (by norm_num) (by omega)
        exact (mul_lt_mul_of_pos_left hlt two_pos).trans powers_apart.1
    exact ⟨fun h => Option.some.inj h ▸ hzero, fun h => congrArg some (hzero.unique h)⟩
  · next h =>
    rw [not_or] at h
    split
    · next hplace =>
      refine ⟨fun h => absurd h.symm (Option.some_ne_none v), fun hv => absurd hv (not_roundsTo ?_)⟩
      calc (2 : ℚ) ^ (1025 : ℤ) ≤ 10 ^ (310 : ℤ) := powers_apart.2
        _ ≤ 10 ^ (d.exponent + (Digits.ofNat d.significand).length - 1) :=
          zpow_le_zpow_right₀ (by norm_num) (by omega)
        _ ≤ d.toRat := (decimal_bounds h.1).1
    · rw [hratio]
      exact ofRatio_eq_some_iff (pow_ne_zero _ (by decide))

/-! ### Products and quotients of doubles -/

theorem toRat_eq_ratio (v : Magnitude) : v.toRat = v.num / v.den := by
  have hshift := ratio_shift 2 two_ne_zero v.significand 1 (-v.exponent)
  rw [neg_neg, Nat.cast_one, div_one, Nat.cast_ofNat, one_mul] at hshift
  exact hshift.symm

theorem den_ne_zero (v : Magnitude) : v.den ≠ 0 :=
  pow_ne_zero _ two_ne_zero

/-- The product of two doubles is the exact one, rounded once. -/
theorem mul_eq_some_iff {u : Magnitude} :
    v.mul w = some u ↔ u.RoundsTo (v.toRat * w.toRat) := by
  rw [mul, ofRatio_eq_some_iff (Nat.mul_ne_zero v.den_ne_zero w.den_ne_zero), toRat_eq_ratio v,
    toRat_eq_ratio w, Nat.cast_mul, Nat.cast_mul, div_mul_div_comm]

/-- The quotient of two doubles is the exact one, rounded once. -/
theorem div_eq_some_iff {u : Magnitude} (hw : w.toRat ≠ 0) :
    v.div w = some u ↔ u.RoundsTo (v.toRat / w.toRat) := by
  have hnum : w.num ≠ 0 := by
    intro h
    rw [toRat_eq_ratio, h, Nat.cast_zero, zero_div] at hw
    exact hw rfl
  rw [div, ofRatio_eq_some_iff (Nat.mul_ne_zero v.den_ne_zero hnum), toRat_eq_ratio v,
    toRat_eq_ratio w, Nat.cast_mul, Nat.cast_mul, div_div_div_eq]

end BlockSketch.Magnitude
