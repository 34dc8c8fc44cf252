import BlockSketch.Expr
import BlockSketch.Proofs.Decimal.Rounding

/-!
# Scalars: numbers with the types of C

C has two kinds of numbers, and what an operator does depends on the kinds of its operands: whole
numbers are divided by dropping the fraction, and as soon as one operand is of a floating type the
other one is converted. `Scalar` keeps the two kinds apart. Apart from that all arithmetic here is
exact: there is no largest whole number, and a number of a floating type is an element of a field,
which is not rounded.

`BinaryOp.apply` is what an operator computes. There is no result where C has none: for a division
by zero, and for the remainder of numbers that are not whole numbers by type.
-/

namespace BlockSketch

/-- A number of C: a whole number by type, or one of a floating type. -/
inductive Scalar (K : Type)
  | int (n : ℤ)
  | float (x : K)
deriving DecidableEq, Repr

namespace Scalar

variable {K : Type}

/-- Whether the type is that of whole numbers. -/
def isInt : Scalar K → Bool
  | int _ => true
  | float _ => false

section
variable [Field K]

/-- The number, whatever its type is. -/
def number : Scalar K → K
  | int n => n
  | float x => x

/-- An operator on two numbers that are brought to one type first. -/
def combine (onInt : ℤ → ℤ → ℤ) (onField : K → K → K) : Scalar K → Scalar K → Scalar K
  | int m, int n => int (onInt m n)
  | a, b => float (onField a.number b.number)

/-- The number with its sign changed. -/
def negate : Scalar K → Scalar K
  | int n => int (-n)
  | float x => float (-x)

/-- The remainder of a division, with the sign of the dividend. -/
def remainder : Scalar K → Scalar K → Option (Scalar K)
  | int m, int n => if n = 0 then none else some (int (m.tmod n))
  | _, _ => none

end

/-- The outcome of a test: one if it holds and zero if not. -/
def truth (p : Prop) [Decidable p] : Scalar K :=
  int (if p then 1 else 0)

/-! ### Laws -/

@[simp] theorem isInt_int (n : ℤ) : (int n : Scalar K).isInt = true := rfl

@[simp] theorem isInt_float (x : K) : (float x).isInt = false := rfl

theorem exists_int_of_isInt {a : Scalar K} (h : a.isInt = true) : ∃ n, a = int n := by
  cases a with
  | int n => exact ⟨n, rfl⟩
  | float x => cases h

theorem truth_congr {p q : Prop} [Decidable p] [Decidable q] (h : p ↔ q) :
    (truth p : Scalar K) = truth q := by
  simp [truth, h]

section
variable [Field K]

/-- Tests that hold are told from those that fail by a comparison with zero. -/
theorem number_truth_ne_zero (p : Prop) [Decidable p] : (truth p : Scalar K).number ≠ 0 ↔ p := by
  by_cases hp : p <;> simp [truth, number, hp]

@[simp] theorem number_int (n : ℤ) : (int n : Scalar K).number = n := rfl

@[simp] theorem number_float (x : K) : (float x).number = x := rfl

@[simp] theorem isInt_negate (a : Scalar K) : a.negate.isInt = a.isInt := by
  cases a <;> rfl

@[simp] theorem number_negate (a : Scalar K) : a.negate.number = -a.number := by
  cases a with
  | int n => exact Int.cast_neg n
  | float x => rfl

theorem isInt_combine (f : ℤ → ℤ → ℤ) (g : K → K → K) (a b : Scalar K) :
    (combine f g a b).isInt = (a.isInt && b.isInt) := by
  cases a <;> cases b <;> rfl

/-- An operator gives what it gives in the field, if it does so on whole numbers. -/
theorem number_combine {f : ℤ → ℤ → ℤ} {g : K → K → K} {a b : Scalar K}
    (h : ∀ m n : ℤ, a = int m → b = int n → ((f m n : ℤ) : K) = g m n) :
    (combine f g a b).number = g a.number b.number := by
  cases a with
  | int m =>
    cases b with
    | int n => exact h m n rfl rfl
    | float y => rfl
  | float x => cases b <;> rfl

end

end Scalar

/-- What an operator computes. -/
def BinaryOp.apply {K : Type} [Field K] [LinearOrder K] (a b : Scalar K) :
    BinaryOp → Option (Scalar K)
  | mul => some (.combine (· * ·) (· * ·) a b)
  | div => if b.number = 0 then none else some (.combine Int.tdiv (· / ·) a b)
  | rem => a.remainder b
  | add => some (.combine (· + ·) (· + ·) a b)
  | sub => some (.combine (· - ·) (· - ·) a b)
  | less => some (.truth (a.number < b.number))
  | greater => some (.truth (b.number < a.number))
  | equal => some (.truth (a.number = b.number))

/-- The number that a numeral is: a whole number by type if it has neither a point nor an
exponent. -/
def Numeral.scalar (n : Numeral) : Scalar ℚ :=
  if n.fraction.isEmpty && n.exponent.isNone then .int (Digits.toNat n.whole)
  else .float n.decimal.toRat

/-- The type has no part in what the number is. -/
theorem Numeral.number_scalar (n : Numeral) : n.scalar.number = n.decimal.toRat := by
  obtain ⟨whole, fraction, e⟩ := n
  rw [scalar]
  split
  · next h =>
    simp only [Bool.and_eq_true, List.isEmpty_iff, Option.isNone_iff_eq_none] at h
    obtain ⟨rfl, rfl⟩ := h
    simp [decimal, Decimal.toRat]
  · rfl

theorem Numeral.scalar_ofNat (n : ℕ) : (Numeral.ofNat n).scalar = .int n := by
  simp [scalar, ofNat, Digits.toNat_ofNat]

end BlockSketch
