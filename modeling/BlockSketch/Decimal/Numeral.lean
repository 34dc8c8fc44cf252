import BlockSketch.Decimal.Digits

/-!
# Numeral: a number as it is written

A numeral is a row of digits, perhaps a point with more digits, and perhaps an exponent of ten.
`Numeral.chars` writes one, `Numeral.ofChars?` reads one with a sign in front, and
`Numeral.decimal` is the exact number it denotes, as a `Decimal`: a whole number times a power
of ten.
-/

namespace BlockSketch

/-- The number `significand * 10 ^ exponent`. -/
structure Decimal where
  significand : Nat
  exponent : Int
deriving DecidableEq, Repr

/-- An unsigned number in writing. Without fraction digits no point is written, and `none` as the
exponent means that no exponent is written. -/
structure Numeral where
  whole : List Digit
  fraction : List Digit := []
  exponent : Option Int := none
deriving DecidableEq, Repr

namespace Numeral

/-- A natural number in plain digits. -/
def ofNat (n : Nat) : Numeral :=
  { whole := Digits.ofNat n }

/-- An exponent in writing; a positive one has `plus` in front. -/
def exponentChars (plus : List Char) (e : Int) : List Char :=
  (if e < 0 then ['-'] else plus) ++ Digits.chars (Digits.ofNat e.natAbs)

/-- The numeral in writing, with `plus` in front of an exponent that is not negative. -/
def charsWith (plus : List Char) (n : Numeral) : List Char :=
  Digits.chars n.whole ++
    (if n.fraction.isEmpty then [] else '.' :: Digits.chars n.fraction) ++
    (match n.exponent with
      | none => []
      | some e => 'e' :: exponentChars plus e)

/-- The numeral as C reads it: an exponent has a sign only if it is negative. -/
def chars (n : Numeral) : List Char :=
  charsWith [] n

/-- The number that a numeral denotes. -/
def decimal (n : Numeral) : Decimal where
  significand := Digits.toNat (n.whole ++ n.fraction)
  exponent := n.exponent.getD 0 - n.fraction.length

/-! ### Reading -/

/-- A sign that may stand in front, as "is it a minus", and the text after it. -/
def takeSign : List Char → Bool × List Char
  | '-' :: rest => (true, rest)
  | '+' :: rest => (false, rest)
  | text => (false, text)

/-- The point and the digits after it, if a point stands here. -/
def takeFraction : List Char → List Digit × List Char
  | '.' :: rest => Digits.take rest
  | text => ([], text)

/-- What may follow the digits of a numeral that ends its text: nothing, or an exponent with at
least one digit. -/
def exponent? : List Char → Option (Option Int)
  | [] => some none
  | c :: rest =>
    if c = 'e' || c = 'E' then
      match takeSign rest with
      | (negative, text) =>
        match Digits.take text with
        | (d :: ds, []) =>
          let e : Int := Digits.toNat (d :: ds)
          some (some (if negative then -e else e))
        | _ => none
    else none

/-- Reads a text that is one numeral, perhaps with a sign in front; the answer says whether the
sign was a minus. There must be a digit before or after the point, and both `5.` and `.5` have
one. -/
def ofChars? (text : List Char) : Option (Bool × Numeral) :=
  match takeSign text with
  | (negative, unsigned) =>
    match Digits.take unsigned with
    | (whole, afterWhole) =>
      match takeFraction afterWhole with
      | (fraction, afterFraction) =>
        if whole.isEmpty && fraction.isEmpty then none
        else (exponent? afterFraction).map fun e => (negative, ⟨whole, fraction, e⟩)

end Numeral

end BlockSketch
