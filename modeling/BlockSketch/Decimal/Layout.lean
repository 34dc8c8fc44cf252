import BlockSketch.Decimal.Shortest

/-!
# Layout: how a double becomes a numeral

Formats differ in where they stop writing numbers out in full, in whether a whole number keeps a
point, and in the choice between two equally short texts. A `Layout` holds these decisions of one
format, and `Layout.numeral` carries them out.
-/

namespace BlockSketch

/-- The decisions of a format. -/
structure Layout where
  /-- The least power of ten of a first digit for which the number is written out in full. -/
  leastPlace : Int
  /-- The greatest such power of ten. -/
  greatestPlace : Int
  /-- Whether a whole number that is written out in full gets a point and a zero. -/
  keepsPoint : Bool
  /-- The choice between two equally near numbers of the same length. -/
  tie : Tie

namespace Layout

/-- The digits of a positive number whose first digit has the given power of ten, written out in
full. -/
def positional (layout : Layout) (digits : List Digit) (place : Int) : Numeral :=
  let zeros (n : Nat) : List Digit := List.replicate n .zero
  let bare : List Digit := if layout.keepsPoint then [.zero] else []
  if place < 0 then ⟨[.zero], zeros ((-place).toNat - 1) ++ digits, none⟩
  else if digits.length ≤ place.toNat + 1 then
    ⟨digits ++ zeros (place.toNat + 1 - digits.length), bare, none⟩
  else ⟨digits.take (place.toNat + 1), digits.drop (place.toNat + 1), none⟩

/-- The digits with a point after the first one and an exponent. -/
def scientific (digits : List Digit) (place : Int) : Numeral :=
  ⟨digits.take 1, digits.drop 1, some place⟩

/-- The numeral for a magnitude in this layout. -/
def numeral (layout : Layout) (v : Magnitude) : Numeral :=
  if v.significand = 0 then layout.positional [.zero] 0
  else
    let shortest := v.shortest layout.tie
    let all := Digits.ofNat shortest.significand
    let place := shortest.exponent + all.length - 1
    let digits := Digits.dropTrailingZeros all
    if layout.leastPlace ≤ place && place ≤ layout.greatestPlace then
      layout.positional digits place
    else scientific digits place

end Layout

end BlockSketch
