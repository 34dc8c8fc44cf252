import BlockSketch.Decimal.Digits
import Mathlib.Algebra.Group.Nat.Defs
import Mathlib.Data.List.Basic

/-!
# Digits read back

Digits are read back from a text up to the first character that is none, and the digits of a number
spell that number.
-/

namespace BlockSketch

namespace Digit

/-- Which characters are digits. -/
theorem ofChar?_eq_none_iff {c : Char} : ofChar? c = none ↔ ('0' ≤ c && c ≤ '9') = false := by
  rw [ofChar?]
  split
  · next h => simp [h]
  · next h => simpa using h

end Digit

namespace Digits

/-- Digits at the start of a text are all taken, and nothing else is. -/
theorem take_chars (digits : List Digit) {rest : List Char}
    (h : ∀ c ∈ rest.head?, Digit.ofChar? c = none) : take (chars digits ++ rest) = (digits, rest) := by
  induction digits with
  | nil =>
    cases rest with
    | nil => rfl
    | cons c rest =>
      have hc : Digit.ofChar? c = none := h c rfl
      simp [chars, take, hc]
  | cons d digits ih =>
    change take (d.char :: (chars digits ++ rest)) = _
    rw [take, Digit.ofChar?_char, ih]

theorem ofNat_ne_nil (n : Nat) : ofNat n ≠ [] := by
  rw [ofNat, ne_eq, List.map_eq_nil_iff]
  exact Nat.toDigits_ne_nil

/-- A digit character stands for its distance from `0`. -/
theorem val_ofNat_of_isDigit {c : Char} (h : c.isDigit = true) :
    (Fin.ofNat 10 (c.toNat - 48) : Digit).val = c.toNat - '0'.toNat := by
  have hrange : 48 ≤ c.toNat ∧ c.toNat ≤ 57 := by
    simp only [Char.isDigit, Bool.and_eq_true, decide_eq_true_eq, ge_iff_le,
      UInt32.le_iff_toNat_le] at h
    exact h
  have hzero : '0'.toNat = 48 := rfl
  rw [Fin.val_ofNat, hzero, Nat.mod_eq_of_lt (by omega)]

theorem foldl_map_digits {cs : List Char} (h : ∀ c ∈ cs, c.isDigit = true) (n : Nat) :
    (cs.map fun c => (Fin.ofNat 10 (c.toNat - 48) : Digit)).foldl (fun n d => 10 * n + d.val) n =
      Nat.ofDigitChars 10 cs n := by
  induction cs generalizing n with
  | nil => rfl
  | cons c cs ih =>
    rw [List.map_cons, List.foldl_cons, ih (fun d hd => h d (List.mem_cons_of_mem c hd)),
      val_ofNat_of_isDigit (h c List.mem_cons_self)]
    rfl

/-- **The digits of a number spell it.** -/
theorem toNat_ofNat (n : Nat) : toNat (ofNat n) = n := by
  have hdigits : ∀ c ∈ Nat.toDigits 10 n, c.isDigit = true := fun c hc =>
    Nat.isDigit_of_mem_toDigits (by decide) (by decide) hc
  rw [toNat, ofNat, foldl_map_digits hdigits, Nat.ofDigitChars_toDigits (by decide) (by decide)]

/-- The characters of the digits of a number. -/
theorem chars_ofNat (m : Nat) : chars (ofNat m) = Nat.toDigits 10 m := by
  have hback : ∀ c ∈ Nat.toDigits 10 m, Digit.char (Fin.ofNat 10 (c.toNat - 48)) = c := by
    intro c hc
    have hdigit := Nat.isDigit_of_mem_toDigits (by decide) (by decide) hc
    have hrange : 48 ≤ c.toNat := by
      simp only [Char.isDigit, Bool.and_eq_true, decide_eq_true_eq, ge_iff_le,
        UInt32.le_iff_toNat_le] at hdigit
      exact hdigit.1
    rw [Digit.char, val_ofNat_of_isDigit hdigit]
    change Char.ofNat (48 + (c.toNat - 48)) = c
    rw [Nat.add_sub_cancel' hrange, Char.ofNat_toNat]
  rw [chars, ofNat, List.map_map]
  exact (List.map_congr_left hback).trans (List.map_id _)

/-- Digits spell less than the power of ten that follows them. -/
theorem foldl_lt (digits : List Digit) (n : Nat) :
    digits.foldl (fun n d => 10 * n + d.val) n < (n + 1) * 10 ^ digits.length := by
  induction digits generalizing n with
  | nil => simp
  | cons d digits ih =>
    rw [List.foldl_cons, List.length_cons, Nat.pow_succ, Nat.mul_comm _ 10, ← Nat.mul_assoc]
    refine Nat.lt_of_lt_of_le (ih _) (Nat.mul_le_mul_right _ ?_)
    have := d.isLt
    omega

theorem toNat_lt (digits : List Digit) : toNat digits < 10 ^ digits.length := by
  have hlt := foldl_lt digits 0
  rwa [Nat.zero_add, Nat.one_mul] at hlt

theorem length_ofNat_le_iff {n k : Nat} (hk : 0 < k) : (ofNat n).length ≤ k ↔ n < 10 ^ k := by
  rw [ofNat, List.length_map, Nat.length_toDigits_le_iff (by decide) hk]

/-- **No zero leads**, unless it is the only digit. -/
theorem ofNat_leading {n : Nat} {rest : List Digit} (h : ofNat n = Digit.zero :: rest) :
    rest = [] := by
  have hvalue := toNat_ofNat n
  rw [h, toNat, List.foldl_cons] at hvalue
  have hlt := foldl_lt rest (10 * 0 + Digit.zero.val)
  rw [hvalue] at hlt
  by_contra hne
  have hpos : 0 < rest.length := List.length_pos_iff.mpr hne
  have hlength := (length_ofNat_le_iff hpos).mpr (by simpa [Digit.zero] using hlt)
  rw [h, List.length_cons] at hlength
  omega

end Digits

end BlockSketch
