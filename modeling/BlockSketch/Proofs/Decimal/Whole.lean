import BlockSketch.Expr
import BlockSketch.Json.Printer
import BlockSketch.Proofs.Decimal.Rounding
import BlockSketch.Proofs.Decimal.Written
import Mathlib.Data.List.TakeWhile

/-!
# Whole numbers are written as they are

A whole number below `2 ^ 53` is a double (`Magnitude.ofWhole`), so reading it does not round. It is
the only whole number that reads back as this double, and so the search for the shortest number can
only end with it: what it finds is the number without some of the zeros at its end
(`Magnitude.shortest_ofWhole`). The layout of sketches puts these back, and so whole numbers of up
to 15 digits are written in plain digits (`Expr.numeral_ofWhole`).
-/

namespace BlockSketch

namespace Digits

/-- One more digit at the end of a number. -/
theorem ofNat_ten_mul_add {n : ℕ} (h : 0 < n) (d : Digit) :
    ofNat (10 * n + d.val) = ofNat n ++ [d] := by
  have hdigits := Nat.toDigits_append_toDigits (b := 10) (by decide) h d.isLt
  have hlast : ofNat d.val = [d] := (by decide : ∀ d : Digit, ofNat d.val = [d]) d
  rw [ofNat, ← hdigits, List.map_append, ← ofNat, ← ofNat, hlast]

theorem ofNat_mul_pow {n : ℕ} (h : 0 < n) (j : ℕ) :
    ofNat (n * 10 ^ j) = ofNat n ++ List.replicate j Digit.zero := by
  induction j with
  | zero => rw [pow_zero, mul_one, List.replicate_zero, List.append_nil]
  | succ j ih =>
    have hnext := ofNat_ten_mul_add (Nat.mul_pos h (show 0 < 10 ^ j by positivity)) Digit.zero
    rw [pow_succ, ← mul_assoc, mul_comm _ 10, List.replicate_succ', ← List.append_assoc, ← ih]
    exact hnext

/-- The zeros that were dropped can be put back. -/
theorem dropTrailingZeros_append (digits : List Digit) :
    dropTrailingZeros digits ++
      List.replicate (digits.length - (dropTrailingZeros digits).length) Digit.zero = digits := by
  have hparts := List.takeWhile_append_dropWhile (p := (· == Digit.zero)) (l := digits.reverse)
  have hzeros : digits.reverse.takeWhile (· == Digit.zero) =
      List.replicate (digits.reverse.takeWhile (· == Digit.zero)).length Digit.zero :=
    List.eq_replicate_of_mem fun d hd =>
      eq_of_beq (List.mem_takeWhile_imp (p := (· == Digit.zero)) hd)
  have hlength := congrArg List.length hparts
  rw [List.length_append, List.length_reverse] at hlength
  have hcount : digits.length - (digits.reverse.dropWhile (· == Digit.zero)).length =
      (digits.reverse.takeWhile (· == Digit.zero)).length := by omega
  rw [dropTrailingZeros, List.length_reverse, hcount, ← List.reverse_replicate, ← hzeros,
    ← List.reverse_append, hparts, List.reverse_reverse]

end Digits

namespace Magnitude

/-- A whole number below `2 ^ 53` in canonical form. -/
def ofWhole (n : ℕ) : Magnitude :=
  if n = 0 then zero else ⟨n * 2 ^ (52 - n.log2), n.log2 - 52⟩

variable {n : ℕ}

theorem log2_le (h : n < 2 ^ 53) (hn : n ≠ 0) : n.log2 ≤ 52 := by
  have := (Nat.log2_lt hn).mpr h
  omega

theorem canonical_ofWhole (h : n < 2 ^ 53) : (ofWhole n).Canonical := by
  rw [ofWhole]
  split
  · exact canonical_zero
  · next hn =>
    have hlog := log2_le h hn
    have hpow : 2 ^ n.log2 * 2 ^ (52 - n.log2) = 2 ^ 52 := by rw [← pow_add]; congr 1; omega
    have hpos : 0 < 2 ^ (52 - n.log2) := by positivity
    refine ⟨?_, by simp only; omega, .inr ?_⟩
    · calc n * 2 ^ (52 - n.log2) < 2 ^ (n.log2 + 1) * 2 ^ (52 - n.log2) :=
            Nat.mul_lt_mul_of_pos_right Nat.lt_log2_self hpos
        _ = 2 ^ 53 := by rw [pow_succ, mul_right_comm, hpow, ← pow_succ]
    · rw [← hpow]
      exact Nat.mul_le_mul_right _ (Nat.log2_self_le hn)

theorem toRat_ofWhole (h : n < 2 ^ 53) : (ofWhole n).toRat = n := by
  rw [ofWhole]
  split
  · next hn => simp [toRat, zero, hn]
  · next hn =>
    have hlog := log2_le h hn
    have hexponent : (n.log2 : ℤ) - 52 = -((52 - n.log2 : ℕ) : ℤ) := by omega
    rw [toRat, hexponent, zpow_neg, zpow_natCast]
    push_cast
    exact mul_inv_cancel_right₀ (by positivity) _

theorem ofWhole_injective {m : ℕ} (hm : m < 2 ^ 53) (hn : n < 2 ^ 53)
    (h : ofWhole m = ofWhole n) : m = n := by
  have hrat := congrArg toRat h
  rw [toRat_ofWhole hm, toRat_ofWhole hn] at hrat
  exact_mod_cast hrat

/-- Whole numbers are not rounded. -/
theorem ofRatio_whole (h : n < 2 ^ 53) : ofRatio n 1 = some (ofWhole n) := by
  rw [ofRatio, ofWhole]
  split
  · rfl
  · next hn =>
    have hlog := log2_le h hn
    have hquotient : logQuotient n 1 = n.log2 := by
      have hle := Nat.log2_self_le hn
      have hone : Nat.log2 1 = 0 := by decide
      rw [logQuotient, hone]
      simp only [Nat.cast_zero, sub_zero, Int.toNat_neg_natCast, Int.toNat_natCast, one_mul]
      rw [if_neg]
      change ¬ n * 2 ^ 0 < 2 ^ n.log2
      omega
    have hexponent : roundingExponent n 1 = -((52 - n.log2 : ℕ) : ℤ) := by
      rw [roundingExponent, hquotient]
      omega
    have hcanonical := (canonical_ofWhole h).lt
    rw [ofWhole, if_neg hn] at hcanonical
    have hscaled : roundQuotient (n * Nat.pow 2 (52 - n.log2)) (1 * Nat.pow 2 0) =
        n * 2 ^ (52 - n.log2) := roundQuotient_one _
    simp only [hexponent, neg_neg, Int.toNat_natCast, Int.toNat_neg_natCast, hscaled]
    have hcarry (e : ℤ) : carry (n * 2 ^ (52 - n.log2)) e = ⟨n * 2 ^ (52 - n.log2), e⟩ := by
      rw [carry]
      exact if_neg (Nat.ne_of_lt hcanonical)
    rw [hcarry, if_pos (by simp only; omega)]
    congr 2
    omega

/-- So a whole number in decimal form is read as what it is. -/
theorem ofDecimal_whole {m j : ℕ} (h : m * 10 ^ j < 2 ^ 53) :
    ofDecimal ⟨m, j⟩ = some (ofWhole (m * 10 ^ j)) := by
  rw [ofDecimal]
  by_cases hm : m = 0
  · subst hm
    simp [ofWhole]
  have hplaces : (Digits.ofNat m).length + j ≤ 16 := by
    have hdigits := congrArg List.length (Digits.ofNat_mul_pow (Nat.pos_of_ne_zero hm) j)
    rw [List.length_append, List.length_replicate] at hdigits
    rw [← hdigits, Digits.length_ofNat_le_iff (by decide)]
    omega
  simp only [Bool.or_eq_true, decide_eq_true_eq]
  rw [if_neg (by omega), if_neg (by omega), Int.toNat_natCast, Int.toNat_neg_natCast]
  exact ofRatio_whole h

/-- The exact expansion of a whole number ends in zeros. -/
theorem decimal_ofWhole (h : n < 2 ^ 53) (hn : n ≠ 0) :
    (ofWhole n).decimal = ⟨n * 10 ^ (52 - n.log2), -((52 - n.log2 : ℕ) : ℤ)⟩ := by
  have hlog := log2_le h hn
  have hexponent : (n.log2 : ℤ) - 52 = -((52 - n.log2 : ℕ) : ℤ) := by omega
  rw [ofWhole, if_neg hn, decimal, hexponent]
  simp only [Int.toNat_neg_natCast, neg_neg, Int.toNat_natCast]
  congr 1
  · change n * 2 ^ (52 - n.log2) * 2 ^ 0 * 5 ^ (52 - n.log2) = _
    rw [pow_zero, mul_one, mul_assoc, ← mul_pow, show 2 * 5 = 10 from rfl]
  · omega

/-- Only the number itself reads back. -/
theorem readsBack_ofWhole {m j : ℕ} (hn : n < 2 ^ 53) (hm : m * 10 ^ j < 2 ^ 53) :
    (ofWhole n).readsBack ⟨m, j⟩ = decide (m * 10 ^ j = n) := by
  rw [readsBack, ofDecimal_whole hm, Bool.eq_iff_iff, beq_iff_eq, decide_eq_true_iff,
    Option.some_inj]
  exact ⟨ofWhole_injective hm hn, congrArg ofWhole⟩

/-- On a grid of whole numbers, the search finds the number if it is on the grid, and nothing if
not. -/
theorem neighbour?_ofWhole (tie : Tie) {j : ℕ} (hn : n ≠ 0) (h : n + 10 ^ j < 2 ^ 53) :
    neighbour? tie (ofWhole n) (52 - n.log2 + j) =
      if 10 ^ j ∣ n then some ⟨n / 10 ^ j, j⟩ else none := by
  have hlt : n < 2 ^ 53 := Nat.lt_of_le_of_lt (Nat.le_add_right _ _) h
  have hbelow : n * 10 ^ (52 - n.log2) / Nat.pow 10 (52 - n.log2 + j) = n / 10 ^ j := by
    change _ / 10 ^ (52 - n.log2 + j) = _
    rw [pow_add, mul_comm n, Nat.mul_div_mul_left _ _ (by positivity)]
  have hexponent : -((52 - n.log2 : ℕ) : ℤ) + ((52 - n.log2 + j : ℕ) : ℤ) = j := by omega
  have hpos : 0 < 10 ^ j := by positivity
  have hle := Nat.div_mul_le_self n (10 ^ j)
  have hlow : (ofWhole n).readsBack ⟨n / 10 ^ j, j⟩ = decide (10 ^ j ∣ n) := by
    rw [readsBack_ofWhole hlt (Nat.lt_of_le_of_lt hle hlt)]
    exact decide_eq_decide.mpr ⟨fun heq => ⟨_, by rw [mul_comm, heq]⟩, Nat.div_mul_cancel⟩
  have hhigh : (ofWhole n).readsBack ⟨n / 10 ^ j + 1, j⟩ = false := by
    have hgt := Nat.lt_mul_div_succ n hpos
    rw [mul_comm] at hgt
    have hsucc : (n / 10 ^ j + 1) * 10 ^ j = n / 10 ^ j * 10 ^ j + 10 ^ j := Nat.succ_mul _ _
    rw [readsBack_ofWhole hlt (by rw [hsucc]; omega), decide_eq_false_iff_not]
    exact Nat.ne_of_gt hgt
  rw [neighbour?, decimal_ofWhole hlt hn]
  simp only [hbelow, hexponent]
  split <;> split <;> simp_all

/-- **The shortest number** for a whole number is the number itself. -/
theorem shortest_ofWhole (tie : Tie) (hn : n ≠ 0) (h : n < 10 ^ 15) :
    ∃ j : ℕ, 10 ^ j ∣ n ∧ (ofWhole n).shortest tie = ⟨n / 10 ^ j, j⟩ := by
  have hlt : n < 2 ^ 53 := by omega
  have hpos := Nat.pos_of_ne_zero hn
  -- the expansion has the digits of the number and then zeros
  have hcount : (Digits.ofNat (ofWhole n).decimal.significand).length =
      (Digits.ofNat n).length + (52 - n.log2) := by
    rw [decimal_ofWhole hlt hn, Digits.ofNat_mul_pow hpos, List.length_append,
      List.length_replicate]
  have hlength : 0 < (Digits.ofNat n).length := List.length_pos_iff.mpr (Digits.ofNat_ne_nil n)
  have hgrid {i : ℕ} (hi : i < (Digits.ofNat n).length) :
      ∃ j : ℕ, neighbour? tie (ofWhole n) ((Digits.ofNat n).length + (52 - n.log2) - 1 - i) =
        if 10 ^ j ∣ n then some ⟨n / 10 ^ j, j⟩ else none := by
    have hle : 10 ^ ((Digits.ofNat n).length - 1 - i) ≤ 10 ^ 14 := by
      refine Nat.pow_le_pow_right (by decide) ?_
      have := (Digits.length_ofNat_le_iff (k := 15) (by decide)).mpr h
      omega
    refine ⟨(Digits.ofNat n).length - 1 - i, ?_⟩
    rw [← neighbour?_ofWhole tie hn (by omega)]
    congr 1
    omega
  -- the grids of whole numbers come first, and the last of them has the number
  rw [shortest, hcount, List.range_add, List.findSome?_append]
  cases hfound : (List.range (Digits.ofNat n).length).findSome?
      (fun i => neighbour? tie (ofWhole n) ((Digits.ofNat n).length + (52 - n.log2) - 1 - i)) with
  | none =>
    rw [List.findSome?_eq_none_iff] at hfound
    have hlast := hfound ((Digits.ofNat n).length - 1) (List.mem_range.mpr (by omega))
    have hplace : (Digits.ofNat n).length + (52 - n.log2) - 1 - ((Digits.ofNat n).length - 1) =
        52 - n.log2 + 0 := by omega
    rw [hplace, neighbour?_ofWhole tie hn (by omega), pow_zero, if_pos (one_dvd n)] at hlast
    cases hlast
  | some d =>
    obtain ⟨i, hi, hd⟩ := List.exists_of_findSome?_eq_some hfound
    obtain ⟨j, hj⟩ := hgrid (List.mem_range.mp hi)
    rw [hj] at hd
    split at hd
    · next hdvd => exact ⟨j, hdvd, (Option.some.inj hd).symm⟩
    · cases hd

end Magnitude

/-- Digits without a point and an exponent denote what they spell. -/
theorem Numeral.decimal_digits (digits : List Digit) :
    decimal { whole := digits } = ⟨Digits.toNat digits, 0⟩ := by
  rw [decimal, List.append_nil]
  rfl

namespace Binary64

/-- The number that a double is. -/
def toRat (v : Binary64) : ℚ :=
  if v.negative then -v.magnitude.toRat else v.magnitude.toRat

theorem abs_toRat (v : Binary64) : |v.toRat| = v.magnitude.toRat := by
  rw [toRat]
  split
  · rw [abs_neg, abs_of_nonneg v.magnitude.toRat_nonneg]
  · rw [abs_of_nonneg v.magnitude.toRat_nonneg]

/-- A zero is not below zero, whatever its sign is. -/
theorem isNegative_eq (v : Binary64) : v.isNegative = decide (v.toRat < 0) := by
  have hzero : v.magnitude.toRat = 0 ↔ v.magnitude.significand = 0 := by
    rw [Magnitude.toRat, mul_eq_zero, Nat.cast_eq_zero, or_iff_left (zpow_ne_zero _ two_ne_zero)]
  have hnonneg := v.magnitude.toRat_nonneg
  rw [isNegative, toRat, Bool.eq_iff_iff, Bool.and_eq_true, bne_iff_ne, decide_eq_true_iff, ne_eq,
    ← hzero]
  cases v.negative with
  | true =>
    rw [if_pos rfl, neg_lt_zero, lt_iff_le_and_ne, and_iff_right rfl, and_iff_right hnonneg, ne_comm]
  | false =>
    rw [if_neg Bool.false_ne_true]
    exact ⟨fun h => absurd h.1 Bool.false_ne_true, fun h => absurd h hnonneg.not_gt⟩

/-- **A double that is a whole number** has the magnitude of that number, and its sign. -/
theorem eq_ofWhole_of_toRat {v : Binary64} (hv : v.magnitude.Canonical) {n : ℤ}
    (h : v.toRat = n) (hn : n.natAbs < 2 ^ 53) :
    v.magnitude = Magnitude.ofWhole n.natAbs ∧ v.isNegative = decide (n < 0) := by
  refine ⟨hv.ext_toRat (Magnitude.canonical_ofWhole hn) ?_, ?_⟩
  · rw [← abs_toRat, h, Magnitude.toRat_ofWhole hn, Nat.cast_natAbs, Int.cast_abs]
  · rw [isNegative_eq, h]
    exact decide_eq_decide.mpr Int.cast_lt_zero

/-- A numeral in writing is read as the double that it is rounded to, with its sign. -/
theorem ofChars?_text {n : Numeral} {negative : Bool} {sign chars : List Char}
    (hsign : Numeral.SignText negative sign) (h : n.Text chars) :
    ofChars? (sign ++ chars) = (Magnitude.ofDecimal n.decimal).map (⟨negative, ·⟩) := by
  rw [ofChars?, Numeral.ofChars?_text hsign h, Option.bind_eq_bind, Option.bind_some]
  simp only [bind_pure_comp, Option.map_eq_map]

/-- Digits are read as the whole number that they spell, also if zeros stand in front. -/
theorem ofChars?_digits {negative : Bool} {sign : List Char} {digits : List Digit}
    (hsign : Numeral.SignText negative sign) (hne : digits ≠ []) (h : Digits.toNat digits < 2 ^ 53) :
    ofChars? (sign ++ Digits.chars digits) =
      some ⟨negative, Magnitude.ofWhole (Digits.toNat digits)⟩ := by
  have hread := Magnitude.ofDecimal_whole (m := Digits.toNat digits) (j := 0) (by omega)
  rw [pow_zero, mul_one, Nat.cast_zero] at hread
  rw [ofChars?_text hsign (Numeral.text_digits hne), Numeral.decimal_digits, hread, Option.map_some]

/-- The sign of an integer in writing. -/
theorem signText_int (n : ℤ) : Numeral.SignText (decide (n < 0)) (if n < 0 then ['-'] else []) := by
  have hsign := Numeral.signText_minus (decide (n < 0))
  simp only [decide_eq_true_eq] at hsign
  exact hsign

/-- A whole number in digits is read as what it is. -/
theorem ofChars?_int {n : ℤ} (h : n.natAbs < 2 ^ 53) :
    ofChars? (JsonNumber.int n).chars = some ⟨decide (n < 0), Magnitude.ofWhole n.natAbs⟩ := by
  rw [JsonNumber.chars, ofChars?_digits (signText_int n) (Digits.ofNat_ne_nil _)
    (by rwa [Digits.toNat_ofNat]), Digits.toNat_ofNat]

end Binary64

namespace Expr

/-- **Whole numbers are written in plain digits**, if they have at most 15. -/
theorem numeral_ofWhole {n : ℕ} (h : n < 10 ^ 15) :
    numberLayout.numeral (Magnitude.ofWhole n) = Numeral.ofNat n := by
  by_cases hn : n = 0
  · subst hn
    decide
  have hpos := Nat.pos_of_ne_zero hn
  have hsignificand : (Magnitude.ofWhole n).significand ≠ 0 := by
    rw [Magnitude.ofWhole, if_neg hn]
    exact Nat.mul_ne_zero hn (by positivity)
  obtain ⟨j, ⟨m, rfl⟩, hshortest⟩ := Magnitude.shortest_ofWhole numberLayout.tie hn h
  have hm : 0 < m := Nat.pos_of_mul_pos_left hpos
  rw [Nat.mul_div_cancel_left m (by positivity)] at hshortest
  rw [Nat.mul_comm] at hshortest hsignificand h ⊢
  have hdigits := Digits.ofNat_mul_pow hm j
  have hlength := congrArg List.length hdigits
  rw [List.length_append, List.length_replicate] at hlength
  have hplaces := (Digits.length_ofNat_le_iff (k := 15) (by decide)).mpr h
  have hsome : 0 < (Digits.ofNat m).length := List.length_pos_iff.mpr (Digits.ofNat_ne_nil m)
  have hback := Digits.dropTrailingZeros_append (Digits.ofNat m)
  have hshorter := congrArg List.length hback
  rw [List.length_append, List.length_replicate] at hshorter
  rw [Layout.numeral, if_neg hsignificand, hshortest]
  simp only
  rw [if_pos (by simp [numberLayout]; omega), Layout.positional]
  simp only
  rw [if_neg (by omega), if_pos (by omega), Numeral.ofNat, hdigits]
  congr 1
  conv_rhs => rw [← hback]
  rw [List.append_assoc, ← List.replicate_add]
  congr 2
  omega

end Expr

end BlockSketch
