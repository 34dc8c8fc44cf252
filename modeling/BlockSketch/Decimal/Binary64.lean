import BlockSketch.Decimal.Numeral

/-!
# Binary64: doubles as the exact numbers they are

A finite double is a sign and a magnitude `significand * 2 ^ exponent`. Nothing here computes in
floating point: a double is obtained by rounding an exact quotient of natural numbers once, to the
nearest representable magnitude and to the even one of two equally near.

* `Magnitude.ofRatio` rounds a quotient. It is the only place where rounding happens.
* `Magnitude.ofDecimal` reads a decimal number with that one rounding.
* `Magnitude.mul` and `Magnitude.div` are the operations on doubles: exact, then rounded once.

Every magnitude made here is in *canonical form*: the significand is below `2 ^ 53`, the exponent
lies between `-1074` and `971`, and the significand is at least `2 ^ 52` unless the exponent is
`-1074`. So two magnitudes are the same number exactly if they are equal.
-/

namespace BlockSketch

/-- The nonnegative number `significand * 2 ^ exponent`. -/
structure Magnitude where
  significand : Nat
  exponent : Int
deriving DecidableEq, Repr

namespace Magnitude

/-- Zero in canonical form. -/
def zero : Magnitude := ⟨0, -1074⟩

/-- The numerator of the number as a quotient of natural numbers. -/
def num (v : Magnitude) : Nat :=
  v.significand * Nat.pow 2 v.exponent.toNat

/-- The denominator that belongs to `num`. -/
def den (v : Magnitude) : Nat :=
  Nat.pow 2 (-v.exponent).toNat

/-! ### Rounding -/

/-- A quotient rounded to the nearest natural number; a half goes to the even neighbour. -/
def roundQuotient (num den : Nat) : Nat :=
  let quotient := num / den
  let twice := 2 * (num % den)
  if den < twice || (den == twice && quotient % 2 == 1) then quotient + 1 else quotient

/-- The integer part of the binary logarithm of a positive quotient. The difference of the two
logarithms is that or one more. -/
def logQuotient (num den : Nat) : Int :=
  let k : Int := num.log2 - den.log2
  if num * Nat.pow 2 (-k).toNat < den * Nat.pow 2 k.toNat then k - 1 else k

/-- The exponent at which a positive quotient is rounded: the one that leaves 53 binary digits
before the point, but none below that of the smallest double. -/
def roundingExponent (num den : Nat) : Int :=
  max (logQuotient num den - 52) (-1074)

/-- A significand that was rounded up to 54 binary digits is halved, so that the form stays
canonical. -/
def carry (significand : Nat) (exponent : Int) : Magnitude :=
  if significand = Nat.pow 2 53 then ⟨Nat.pow 2 52, exponent + 1⟩ else ⟨significand, exponent⟩

/-- The double nearest to the quotient `num / den`, or `none` if that lies past the largest. -/
def ofRatio (num den : Nat) : Option Magnitude :=
  if num = 0 then some zero
  else
    let e := roundingExponent num den
    let scaled := roundQuotient (num * Nat.pow 2 (-e).toNat) (den * Nat.pow 2 e.toNat)
    let v := carry scaled e
    if v.exponent ≤ 971 then some v else none

/-- The double nearest to a decimal number, or `none` if that lies past the largest. Far outside
the range of doubles the answer is known from the place of the first digit, and no power of ten is
computed. -/
def ofDecimal (d : Decimal) : Option Magnitude :=
  let place := d.exponent + (Digits.ofNat d.significand).length
  if d.significand = 0 || place < -330 then some zero
  else if 310 < place then none
  else ofRatio (d.significand * Nat.pow 10 d.exponent.toNat) (Nat.pow 10 (-d.exponent).toNat)

/-! ### Operations -/

/-- The product, rounded once. -/
def mul (v w : Magnitude) : Option Magnitude :=
  ofRatio (v.num * w.num) (v.den * w.den)

/-- The quotient by a positive magnitude, rounded once. -/
def div (v w : Magnitude) : Option Magnitude :=
  ofRatio (v.num * w.den) (v.den * w.num)

/-- The exact decimal expansion, which every double has. -/
def decimal (v : Magnitude) : Decimal :=
  ⟨v.significand * Nat.pow 2 v.exponent.toNat * Nat.pow 5 (-v.exponent).toNat, min v.exponent 0⟩

end Magnitude

/-- A finite double: a sign and a magnitude. Zero has two signs. -/
structure Binary64 where
  negative : Bool
  magnitude : Magnitude
deriving DecidableEq, Repr

namespace Binary64

/-- Whether the number is below zero; a zero is not, whatever its sign. -/
def isNegative (v : Binary64) : Bool :=
  v.negative && v.magnitude.significand != 0

/-- The double nearest to a number in writing, or `none` if the text is no numeral or denotes a
number past the largest double. -/
def ofChars? (text : List Char) : Option Binary64 := do
  let (negative, numeral) ← Numeral.ofChars? text
  let magnitude ← Magnitude.ofDecimal numeral.decimal
  return ⟨negative, magnitude⟩

end Binary64

end BlockSketch
