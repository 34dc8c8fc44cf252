/-!
# Digits: decimal digits and the numbers they spell

A list of digits, most significant first, is how numbers stand in texts. `Digits.toNat` is the
number that such a list spells and `Digits.ofNat` the shortest list that spells a number, with a
single zero for zero.
-/

namespace BlockSketch

/-- A decimal digit. -/
abbrev Digit := Fin 10

namespace Digit

/-- The digit `0`. -/
def zero : Digit := ⟨0, by decide⟩

/-- The character of a digit. -/
def char (d : Digit) : Char :=
  Char.ofNat (48 + d.val)

/-- The digit that a character stands for, if it is one of `0` to `9`. -/
def ofChar? (c : Char) : Option Digit :=
  if '0' ≤ c && c ≤ '9' then some (Fin.ofNat 10 (c.toNat - 48)) else none

/-- Every digit is read back from its character. -/
theorem ofChar?_char (d : Digit) : ofChar? d.char = some d := by
  revert d
  decide

end Digit

namespace Digits

/-- The number that the digits spell. -/
def toNat (digits : List Digit) : Nat :=
  digits.foldl (fun n d => 10 * n + d.val) 0

/-- The digits of a number, without leading zeros; zero has the one digit `0`. -/
def ofNat (n : Nat) : List Digit :=
  (Nat.toDigits 10 n).map fun c => Fin.ofNat 10 (c.toNat - 48)

/-- The characters of the digits. -/
def chars (digits : List Digit) : List Char :=
  digits.map Digit.char

/-- The digits at the start of a text, and the text after them. -/
def take : List Char → List Digit × List Char
  | [] => ([], [])
  | c :: rest =>
    match Digit.ofChar? c with
    | some d => (d :: (take rest).1, (take rest).2)
    | none => ([], c :: rest)

/-- The digits without the zeros that end them. -/
def dropTrailingZeros (digits : List Digit) : List Digit :=
  (digits.reverse.dropWhile (· == Digit.zero)).reverse

end Digits

end BlockSketch
