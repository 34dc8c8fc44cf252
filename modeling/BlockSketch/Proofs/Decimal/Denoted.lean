import BlockSketch.Proofs.Decimal.Layout
import BlockSketch.Proofs.Decimal.Nearest
import BlockSketch.Proofs.Decimal.Whole

/-!
# Numerals denote the doubles they are written for

Whatever the layout is, the numeral for a double denotes the number that the search for the shortest
one has found (`Layout.toRat_numeral`). That number reads back, and so it is rounded to the double
(`Layout.roundsTo_numeral`): no digits are lost that the double needs.

Numerals are also in good form: no zero leads the digits before the point, unless it is the only one
(`Layout.tidy_numeral`), and there are no more of them than the layout allows
(`Layout.length_whole_numeral`).
-/

namespace BlockSketch

namespace Digits

/-- Digits behind a number. -/
theorem foldl_eq (digits : List Digit) (n : ℕ) :
    digits.foldl (fun n d => 10 * n + d.val) n = n * 10 ^ digits.length + toNat digits := by
  induction digits generalizing n with
  | nil => simp [toNat]
  | cons d digits ih =>
    rw [toNat, List.foldl_cons, List.foldl_cons, ih, ih (10 * 0 + d.val), List.length_cons, pow_succ]
    ring

theorem le_foldl (digits : List Digit) (n : ℕ) :
    n ≤ digits.foldl (fun n d => 10 * n + d.val) n := by
  rw [foldl_eq]
  exact (Nat.le_mul_of_pos_right n (by positivity)).trans (Nat.le_add_right _ _)

theorem toNat_append (front back : List Digit) :
    toNat (front ++ back) = toNat front * 10 ^ back.length + toNat back := by
  rw [toNat, List.foldl_append, foldl_eq]
  rfl

theorem toNat_replicate_zero (n : ℕ) : toNat (List.replicate n Digit.zero) = 0 :=
  toNat_of_forall_zero fun _ hd => List.eq_of_mem_replicate hd

theorem length_dropTrailingZeros_le (digits : List Digit) :
    (dropTrailingZeros digits).length ≤ digits.length := by
  rw [dropTrailingZeros, List.length_reverse]
  exact (List.length_dropWhile_le _ _).trans List.length_reverse.le

/-- Without the zeros that end them, digits spell the number without as many tens. -/
theorem toNat_dropTrailingZeros (digits : List Digit) :
    toNat digits = toNat (dropTrailingZeros digits) *
      10 ^ (digits.length - (dropTrailingZeros digits).length) := by
  conv_lhs => rw [← dropTrailingZeros_append digits]
  rw [toNat_append, toNat_replicate_zero, List.length_replicate, Nat.add_zero]

/-- The digits of a number other than zero start with one that is not zero, also when the zeros that
end them have been dropped. -/
theorem exists_dropTrailingZeros_eq_cons {n : ℕ} (h : n ≠ 0) :
    ∃ d rest, dropTrailingZeros (ofNat n) = d :: rest ∧ d ≠ Digit.zero := by
  obtain ⟨d, rest, hcons⟩ := List.exists_cons_of_ne_nil (dropTrailingZeros_ne_nil h)
  refine ⟨d, rest, hcons, ?_⟩
  rintro rfl
  have hback := dropTrailingZeros_append (ofNat n)
  rw [hcons, List.cons_append] at hback
  have hrest := ofNat_leading hback.symm
  rw [hrest] at hback
  rw [← toNat_ofNat n, ← hback] at h
  exact h rfl

end Digits

namespace Magnitude

/-- The exact expansion of a double is the double. -/
theorem toRat_decimal (v : Magnitude) : v.decimal.toRat = v.toRat := by
  rw [Decimal.toRat, toRat, decimal]
  change ((v.significand * 2 ^ v.exponent.toNat * 5 ^ (-v.exponent).toNat : ℕ) : ℚ) * _ = _
  push_cast
  rcases le_total 0 v.exponent with he | he
  · obtain ⟨n, hn⟩ := Int.eq_ofNat_of_zero_le he
    rw [hn, Int.toNat_natCast, Int.toNat_neg_natCast, min_eq_right (Int.natCast_nonneg n), pow_zero,
      zpow_zero, mul_one, mul_one, zpow_natCast]
  · obtain ⟨n, hn⟩ := Int.eq_ofNat_of_zero_le (neg_nonneg.mpr he)
    have he : v.exponent = -(n : ℤ) := by omega
    have hten : (10 : ℚ) ^ n = 5 ^ n * 2 ^ n := by rw [← mul_pow]; norm_num
    rw [he, Int.toNat_neg_natCast, neg_neg, Int.toNat_natCast, min_eq_left (by omega), pow_zero,
      mul_one, zpow_neg, zpow_neg, zpow_natCast, zpow_natCast, hten]
    field_simp

/-- **The shortest number reads back** as the double. -/
theorem Finite.roundsTo_shortest {v : Magnitude} (hv : v.Finite) (tie : Tie) :
    v.RoundsTo (v.shortest tie).toRat := by
  have hexact : v.readsBack v.decimal = true := by
    rw [readsBack, beq_iff_eq, ofDecimal_eq_some_iff, toRat_decimal]
    exact hv.roundsTo
  have hback : v.readsBack (v.shortest tie) = true := readsBack_shortest hexact
  rwa [readsBack, beq_iff_eq, ofDecimal_eq_some_iff] at hback

end Magnitude

namespace Layout

variable (layout : Layout)

/-! ### The number -/

theorem toRat_positional (digits : List Digit) (place : ℤ) :
    (layout.positional digits place).decimal.toRat =
      Digits.toNat digits * 10 ^ (place + 1 - digits.length) := by
  have hten : (10 : ℚ) ≠ 0 := by norm_num
  rw [positional]
  simp only
  split
  · next hplace =>
    have hexponent : (0 : ℤ) - ((-place).toNat - 1 + digits.length : ℕ) =
        place + 1 - digits.length := by omega
    simp only [Numeral.decimal, Decimal.toRat, Option.getD_none, List.length_append,
      List.length_replicate, hexponent, ← List.append_assoc]
    rw [Digits.toNat_append, ← List.replicate_one, ← List.replicate_add,
      Digits.toNat_replicate_zero, Nat.zero_mul, Nat.zero_add]
  · next hplace =>
    split
    · next hshort =>
      -- the zero behind the point, if there is one, changes nothing
      set bare : List Digit := if layout.keepsPoint then [Digit.zero] else [] with hbare
      have hzeros : bare = List.replicate bare.length Digit.zero := by
        rw [hbare]
        split <;> rfl
      have hexponent : (place + 1 - digits.length : ℤ) =
          ((place.toNat + 1 - digits.length : ℕ) : ℤ) := by omega
      simp only [Numeral.decimal, Decimal.toRat, Option.getD_none]
      rw [hzeros, List.append_assoc, ← List.replicate_add, Digits.toNat_append,
        Digits.toNat_replicate_zero, List.length_replicate, List.length_replicate, hexponent,
        zpow_natCast, zero_sub, zpow_neg, zpow_natCast]
      push_cast
      rw [add_zero, pow_add]
      field_simp
    · next hlong =>
      have hexponent : (0 : ℤ) - (digits.drop (place.toNat + 1)).length =
          place + 1 - digits.length := by
        rw [List.length_drop]
        omega
      simp only [Numeral.decimal, Decimal.toRat, Option.getD_none, List.take_append_drop, hexponent]

theorem toRat_scientific {digits : List Digit} (h : digits ≠ []) (place : ℤ) :
    (scientific digits place).decimal.toRat =
      Digits.toNat digits * 10 ^ (place + 1 - digits.length) := by
  have hpos := List.length_pos_iff.mpr h
  have hexponent : place - (digits.drop 1).length = place + 1 - digits.length := by
    rw [List.length_drop]
    omega
  simp only [scientific, Numeral.decimal, Decimal.toRat, Option.getD_some, List.take_append_drop,
    hexponent]

/-- **The numeral denotes the shortest number.** -/
theorem toRat_numeral {v : Magnitude} (hv : v.significand ≠ 0) :
    (layout.numeral v).decimal.toRat = (v.shortest layout.tie).toRat := by
  have hshortest := Magnitude.shortest_significand_ne_zero layout.tie hv
  have hne := Digits.dropTrailingZeros_ne_nil hshortest
  have hvalue := Digits.toNat_dropTrailingZeros (Digits.ofNat (v.shortest layout.tie).significand)
  have hle := Digits.length_dropTrailingZeros_le
    (Digits.ofNat (v.shortest layout.tie).significand)
  rw [Digits.toNat_ofNat] at hvalue
  rw [numeral, if_neg hv]
  generalize hd : v.shortest layout.tie = d at *
  simp only
  have hnumber : d.toRat = Digits.toNat (Digits.dropTrailingZeros (Digits.ofNat d.significand)) *
      10 ^ (d.exponent + (Digits.ofNat d.significand).length - 1 + 1 -
        (Digits.dropTrailingZeros (Digits.ofNat d.significand)).length) := by
    conv_lhs => rw [Decimal.toRat, hvalue]
    have hexponent : d.exponent + (Digits.ofNat d.significand).length - 1 + 1 -
        (Digits.dropTrailingZeros (Digits.ofNat d.significand)).length =
        (((Digits.ofNat d.significand).length -
          (Digits.dropTrailingZeros (Digits.ofNat d.significand)).length : ℕ) : ℤ) +
        d.exponent := by omega
    rw [hexponent, zpow_add₀ (by norm_num), zpow_natCast]
    push_cast
    ring
  rw [hnumber]
  split
  · exact toRat_positional layout _ _
  · exact toRat_scientific hne _

/-- **Every double is what its numeral is rounded to.** -/
theorem roundsTo_numeral {v : Magnitude} (hv : v.Finite) :
    v.RoundsTo (layout.numeral v).decimal.toRat := by
  by_cases hzero : v.significand = 0
  · have hvalue : (layout.numeral v).decimal.toRat = v.toRat := by
      rw [numeral, if_pos hzero, toRat_positional, Magnitude.toRat, hzero]
      simp [Digits.toNat, Digit.zero]
    rw [hvalue]
    exact hv.roundsTo
  · rw [toRat_numeral layout hzero]
    exact hv.roundsTo_shortest layout.tie

/-! ### The form -/

/-- Digits that do not start with a zero make a numeral in good form. -/
theorem tidy_positional {d : Digit} (hd : d ≠ Digit.zero) (rest : List Digit) (place : ℤ) :
    (layout.positional (d :: rest) place).Tidy := by
  rw [positional]
  simp only
  split
  · exact ⟨Digit.zero, [], rfl, fun _ => rfl⟩
  · split
    · exact ⟨d, _, rfl, fun h => absurd h hd⟩
    · exact ⟨d, _, List.take_succ_cons, fun h => absurd h hd⟩

/-- **No zero leads a numeral**, unless it is the only digit before the point. -/
theorem tidy_numeral (v : Magnitude) : (layout.numeral v).Tidy := by
  rw [numeral]
  split
  · exact ⟨Digit.zero, [], rfl, fun _ => rfl⟩
  · next hzero =>
    obtain ⟨d, rest, hcons, hd⟩ := Digits.exists_dropTrailingZeros_eq_cons
      (Magnitude.shortest_significand_ne_zero layout.tie hzero)
    simp only [hcons]
    split
    · exact tidy_positional layout hd rest _
    · exact ⟨d, [], rfl, fun _ => rfl⟩

theorem length_whole_positional (digits : List Digit) (place : ℤ) :
    (layout.positional digits place).whole.length ≤ place.toNat + 1 := by
  rw [positional]
  simp only
  split
  · exact Nat.succ_le_succ (Nat.zero_le _)
  · split
    · rw [List.length_append, List.length_replicate]
      omega
    · exact List.length_take_le _ _

/-- There are no more digits before the point than the layout has places for. -/
theorem length_whole_numeral (v : Magnitude) :
    (layout.numeral v).whole.length ≤ layout.greatestPlace.toNat + 1 := by
  rw [numeral]
  split
  · exact (length_whole_positional layout _ _).trans (Nat.succ_le_succ (Nat.zero_le _))
  · simp only
    split
    · next hplace =>
      rw [Bool.and_eq_true, decide_eq_true_eq, decide_eq_true_eq] at hplace
      refine (length_whole_positional layout _ _).trans (Nat.succ_le_succ ?_)
      exact Int.toNat_le_toNat hplace.2
    · exact (List.length_take_le _ _).trans (Nat.succ_le_succ (Nat.zero_le _))

end Layout

/-! ### Signs -/

namespace Binary64

/-- **`x` is rounded to the double `v`**: none is nearer to `x`, it is even if another number is as
near, and it has a minus sign if `x` is below zero. -/
structure RoundsTo (x : ℚ) (v : Binary64) : Prop where
  finite : v.magnitude.Finite
  le {w : Binary64} : w.magnitude.Canonical → |x - v.toRat| ≤ |x - w.toRat|
  even {w : Binary64} : w.magnitude.Canonical → |x - w.toRat| = |x - v.toRat| → w.toRat ≠ v.toRat →
    Even v.magnitude.significand
  negative_iff : v.negative = true ↔ x < 0

/-- A double that was read from a text is finite. -/
theorem finite_ofChars? {text : List Char} {v : Binary64} (h : ofChars? text = some v) :
    v.magnitude.Finite := by
  obtain ⟨⟨negative, numeral⟩, -, h⟩ := Option.bind_eq_some_iff.mp h
  obtain ⟨magnitude, hmagnitude, h⟩ := Option.bind_eq_some_iff.mp h
  obtain rfl := Option.some.inj h
  exact (Magnitude.ofDecimal_eq_some_iff.mp hmagnitude).finite

variable {v : Binary64} {x : ℚ}

/-- Numbers are rounded by their magnitudes. -/
theorem roundsTo_of_magnitude (hmagnitude : v.magnitude.RoundsTo |x|)
    (hsign : v.negative = true ↔ x < 0) : v.RoundsTo x := by
  have hvalue : |x - v.toRat| = |(|x|) - v.magnitude.toRat| := by
    rw [toRat]
    by_cases hx : x < 0
    · rw [if_pos (hsign.mpr hx), abs_of_neg hx, sub_neg_eq_add, ← neg_add', abs_neg]
    · rw [if_neg (fun h => hx (hsign.mp h)), abs_of_nonneg (not_lt.mp hx)]
  have hdistance (w : Binary64) : |(|x|) - w.magnitude.toRat| ≤ |x - w.toRat| := by
    rw [← abs_toRat]
    exact abs_abs_sub_abs_le _ _
  refine ⟨hmagnitude.finite, fun {w} hw => ?_, fun {w} hw htie hne => ?_, hsign⟩
  · rw [hvalue]
    exact (hmagnitude.le hw).trans (hdistance w)
  · have heq : |(|x|) - w.magnitude.toRat| = |(|x|) - v.magnitude.toRat| :=
      le_antisymm ((hdistance w).trans (htie.trans hvalue).le) (hmagnitude.le hw)
    refine hmagnitude.even hw heq fun hmagnitudes => hne ?_
    -- with the same magnitude and the other sign, `w` is as near to zero only if it is zero
    have hv : |w.toRat| = |v.toRat| := by rw [abs_toRat, abs_toRat, hmagnitudes]
    rcases abs_eq_abs.mp hv with hsame | hopposite
    · exact hsame
    · rw [hopposite] at htie ⊢
      rcases abs_eq_abs.mp htie with h | h
      · linarith
      · have hx : x = 0 := by linarith
        have hle := hmagnitude.le Magnitude.canonical_zero
        rw [hx, abs_zero, Magnitude.toRat_zero, sub_zero, zero_sub, abs_neg, abs_zero,
          ← abs_toRat, abs_abs] at hle
        rw [abs_eq_zero.mp (le_antisymm hle (abs_nonneg _)), neg_zero]

end Binary64

end BlockSketch
