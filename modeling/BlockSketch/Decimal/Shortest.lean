import BlockSketch.Decimal.Binary64

/-!
# Shortest: the fewest digits that read back

Of all decimal numbers that round to a given double, the one with the fewest digits is what people
expect to see. A double has an exact decimal expansion, so the search is over its prefixes: for one
digit, two digits and so on, the expansion cut after that many digits and the next number on the
same grid are tried, and the first that reads back wins. If both do, the nearer one is taken, and
`Tie` says what happens if they are equally near.

The whole expansion reads back, so the search always ends with an answer; and if any number of a
grid reads back, one of these two does, because they are the double's neighbours on that grid.
-/

namespace BlockSketch

/-- Which of two equally near decimals is taken: the one whose last digit is even, or the upper
one. -/
inductive Tie
  | toEven
  | upward
deriving DecidableEq, Repr

namespace Magnitude

/-- Whether a decimal number rounds to this double. -/
def readsBack (v : Magnitude) (d : Decimal) : Bool :=
  ofDecimal d == some v

/-- Whether the upper neighbour `below + 1` is to be preferred to `below`, where `rest` out of
`unit` was cut off. -/
def prefersAbove (tie : Tie) (below rest unit : Nat) : Bool :=
  decide (unit < 2 * rest) ||
    (unit == 2 * rest &&
      match tie with
      | .toEven => below % 2 == 1
      | .upward => true)

/-- The better of the two neighbours of `v` on the grid that lacks the last `dropped` digits of
the expansion, among those that read back. -/
def neighbour? (tie : Tie) (v : Magnitude) (dropped : Nat) : Option Decimal :=
  let unit := Nat.pow 10 dropped
  let expansion := v.decimal
  let below := expansion.significand / unit
  let exponent := expansion.exponent + dropped
  let candidates : List Decimal :=
    if prefersAbove tie below (expansion.significand % unit) unit then
      [⟨below + 1, exponent⟩, ⟨below, exponent⟩]
    else [⟨below, exponent⟩, ⟨below + 1, exponent⟩]
  candidates.find? v.readsBack

/-- The decimal number with the fewest digits that reads back. -/
def shortest (tie : Tie) (v : Magnitude) : Decimal :=
  let count := (Digits.ofNat v.decimal.significand).length
  ((List.range count).findSome? fun n => neighbour? tie v (count - 1 - n)).getD v.decimal

/-- What the search returns reads back, if the whole expansion does. -/
theorem readsBack_shortest {tie : Tie} {v : Magnitude} (h : v.readsBack v.decimal = true) :
    v.readsBack (v.shortest tie) = true := by
  unfold shortest
  simp only
  cases hs : (List.range (Digits.ofNat v.decimal.significand).length).findSome?
      (fun n => neighbour? tie v ((Digits.ofNat v.decimal.significand).length - 1 - n)) with
  | none => simpa using h
  | some d =>
    obtain ⟨n, -, hn⟩ := List.exists_of_findSome?_eq_some hs
    exact List.find?_some hn

end Magnitude

end BlockSketch
