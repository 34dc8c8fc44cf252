import BlockSketch.Json.Value

/-!
# Number: the value of a JSON number

A number that is written without point and exponent and fits 64 bits is kept as an integer. Every
other number becomes a double, in two steps that may each round.

1. The digits are collected into a 64-bit significand as long as it can hold them. An integer digit
   that comes later raises the exponent instead, and a fraction digit that comes later is dropped.
2. The significand becomes a double, and is multiplied or divided by the double nearest to the
   power of ten that is left. A power past `10 ^ 308` is taken in steps.

So the result need not be the double nearest to the number as written; it is where the significand
has at most 15 digits and the power of ten is at most `10 ^ 22`, as both are then exact. A result
past the largest double is no number at all.
-/

namespace BlockSketch

namespace JsonNumber

/-- The bound of 64-bit words. -/
def wordBound : Nat := Nat.pow 2 64

/-- A significand that is being collected: its value, the power of ten it is to be multiplied
with, and whether it has already run full. -/
structure Significand where
  value : Nat
  exponent : Int
  full : Bool

namespace Significand

/-- Takes in a digit before the point. Once the significand is full, every digit counts as a power
of ten. -/
def takeWhole (s : Significand) (d : Digit) : Significand :=
  if !s.full && 10 * s.value + d.val < wordBound then { s with value := 10 * s.value + d.val }
  else { s with exponent := s.exponent + 1, full := true }

/-- Takes in a digit after the point. Once the significand is full, digits are dropped. -/
def takeFraction (s : Significand) (d : Digit) : Significand :=
  if !s.full && 10 * s.value + d.val < wordBound then
    { s with value := 10 * s.value + d.val, exponent := s.exponent - 1 }
  else { s with full := true }

/-- The significand of a numeral. A fraction digit is tried even if integer digits did not fit
any more. -/
def ofNumeral (n : Numeral) : Significand :=
  let whole := n.whole.foldl takeWhole ⟨0, 0, false⟩
  n.fraction.foldl takeFraction { whole with full := false }

end Significand

/-- The double nearest to a power of ten up to `10 ^ 308`. -/
def powerOfTen (n : Nat) : Magnitude :=
  (Magnitude.ofDecimal ⟨1, n⟩).getD Magnitude.zero

/-- Divides by `10 ^ 308` as many times as `steps` says and then by the rest of `10 ^ e`. -/
def divideSteps : Nat → Nat → Magnitude → Option Magnitude
  | 0, e, v => v.div (powerOfTen e)
  | steps + 1, e, v =>
    if v.significand = 0 then some v
    else (v.div (powerOfTen 308)).bind (divideSteps steps (e - 308))

/-- Multiplies by `10 ^ e`, in the steps that the range of doubles allows. -/
def scale (v : Magnitude) (e : Int) : Option Magnitude :=
  if 0 ≤ e then
    if v.significand = 0 then some v
    else if e ≤ 308 then v.mul (powerOfTen e.toNat)
    else none
  else divideSteps ((e.natAbs - 1) / 308) e.natAbs v

/-- The magnitude of a numeral that is read as a double. -/
def double? (n : Numeral) : Option Magnitude :=
  let s := Significand.ofNumeral n
  (Magnitude.ofRatio s.value 1).bind fun v => scale v (s.exponent + n.exponent.getD 0)

/-- The integer that a numeral denotes, if it is written as one and fits 64 bits. A zero with a
minus sign is none. -/
def int? (negative : Bool) (n : Numeral) : Option Int :=
  if n.fraction.isEmpty && n.exponent.isNone then
    let value := Digits.toNat n.whole
    if negative then
      if 0 < value && value ≤ wordBound / 2 then some (-(value : Int)) else none
    else if value < wordBound then some value else none
  else none

/-- The number that a numeral with its sign denotes, or `none` if that is past the largest
double. -/
def ofNumeral? (negative : Bool) (n : Numeral) : Option JsonNumber :=
  match int? negative n with
  | some i => some (.int i)
  | none => (double? n).map fun v => .double ⟨negative, v⟩

end JsonNumber

end BlockSketch
