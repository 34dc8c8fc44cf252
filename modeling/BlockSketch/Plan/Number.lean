import BlockSketch.Plan.Basic
import BlockSketch.Selector

/-!
# Number: plans for blocks that compute with numbers

One plan for each kind of block. Where a block has a setting that selects what it does, the plan is a
function of that setting, which has been read by then.

Most of these need the mathematics header. An empty socket counts as zero.
-/

namespace BlockSketch.Plan

/-- The header with the mathematical functions and constants. -/
def mathHeader : Declaration where
  key := "include_math"
  text := "#define _USE_MATH_DEFINES\n#include \"math.h\"\n"

/-- The lines of the test for prime numbers. -/
def primeTestLines : List String :=
  ["bool mathIsPrime(double n) \x7b",
    "  if (isnan(n) || n != floor(n) || n < 2) \x7b",
    "    return false;",
    "  \x7d",
    "  long k = (long)n;",
    "  if (k == 2 || k == 3) \x7b",
    "    return true;",
    "  \x7d",
    "  if (k % 2 == 0 || k % 3 == 0) \x7b",
    "    return false;",
    "  \x7d",
    "  // only 6k - 1 and 6k + 1 can divide what is left",
    "  for (long x = 6; x <= sqrt(n) + 1; x += 6) \x7b",
    "    if (k % (x - 1) == 0 || k % (x + 1) == 0) \x7b",
    "      return false;",
    "    \x7d",
    "  \x7d",
    "  return true;",
    "\x7d"]

/-- The test for prime numbers, a function of its own in the sketch. -/
def primeTest : Declaration where
  key := "define_mathIsPrime"
  text := String.join (primeTestLines.map (· ++ "\n"))

/-- The number in a socket, zero if it is empty. -/
def askNumber (socket : String) (place : Precedence) : Plan Expr :=
  .ask socket place (.nat 0)

/-- A number as it was typed. A negative one is a minus sign before a number. -/
def number (v : Binary64) : Plan Code :=
  return .value ⟨.number v, if v.isNegative then .unaryPrefix else .atomic⟩

/-- An operator between two numbers, whose tier both of them must fit. -/
def operation (op : BinaryOp) (tier : Precedence) (left right : String) : Plan Code := do
  let a ← askNumber left tier
  let b ← askNumber right tier
  return .value ⟨.binary op a b, tier⟩

/-- Two numbers in arithmetic. Powers have no operator and need a function. -/
def arithmetic : Arithmetic → Plan Code
  | .add => operation .add .additive "A" "B"
  | .subtract => operation .sub .additive "A" "B"
  | .multiply => operation .mul .multiplicative "A" "B"
  | .divide => operation .div .multiplicative "A" "B"
  | .power => do
    .need mathHeader
    let a ← askNumber "A" .comma
    let b ← askNumber "B" .comma
    return .value ⟨.callTwo "pow" a b, .functionCall⟩

/-- The negated number. -/
def negation : Plan Code := do
  let a ← askNumber "NUM" .unaryPrefix
  return .value ⟨.negate a, .unaryPrefix⟩

/-- An angle in degrees as one in radians. -/
def radians (degrees : Expr) : Expr :=
  .binary .mul (.binary .div degrees (.nat 180)) (.identifier "M_PI")

/-- An angle in radians as one in degrees. -/
def degrees (radians : Expr) : Expr :=
  .binary .mul (.binary .div radians (.identifier "M_PI")) (.nat 180)

/-- The tier that the argument of a function must fit: angles are divided first, every other
argument stands alone. -/
def argumentPlace : NumberFunction → Precedence
  | .sine | .cosine | .tangent => .multiplicative
  | _ => .any

/-- A function applied to its argument. -/
def applied (a : Expr) : NumberFunction → Fragment
  | .absolute => ⟨.call "abs" a, .functionCall⟩
  | .root => ⟨.call "sqrt" a, .functionCall⟩
  | .logarithm => ⟨.call "log" a, .functionCall⟩
  | .exponential => ⟨.call "exp" a, .functionCall⟩
  | .powerOfTen => ⟨.callTwo "pow" (.nat 10) a, .functionCall⟩
  | .round => ⟨.call "round" a, .functionCall⟩
  | .roundUp => ⟨.call "ceil" a, .functionCall⟩
  | .roundDown => ⟨.call "floor" a, .functionCall⟩
  | .sine => ⟨.call "sin" (radians a), .functionCall⟩
  | .cosine => ⟨.call "cos" (radians a), .functionCall⟩
  | .tangent => ⟨.call "tan" (radians a), .functionCall⟩
  | .commonLogarithm =>
    ⟨.binary .div (.call "log" a) (.call "log" (.nat 10)), .multiplicative⟩
  | .arcSine => ⟨degrees (.call "asin" a), .multiplicative⟩
  | .arcCosine => ⟨degrees (.call "acos" a), .multiplicative⟩
  | .arcTangent => ⟨degrees (.call "atan" a), .multiplicative⟩

/-- A function of one number. -/
def function (f : NumberFunction) : Plan Code := do
  .need mathHeader
  let a ← askNumber "NUM" (argumentPlace f)
  return .value (applied a f)

/-- A constant. There is no infinity that the target could compute with, so a large number stands
in for it. -/
def constantFragment : NumberConstant → Fragment
  | .pi => ⟨.identifier "M_PI", .atomic⟩
  | .e => ⟨.identifier "M_E", .atomic⟩
  | .goldenRatio =>
    ⟨.binary .div (.paren (.binary .add (.nat 1) (.call "sqrt" (.nat 5)))) (.nat 2),
      .multiplicative⟩
  | .rootOfTwo => ⟨.identifier "M_SQRT2", .atomic⟩
  | .rootOfHalf => ⟨.identifier "M_SQRT1_2", .atomic⟩
  | .infinity => ⟨.nat 10000000, .atomic⟩

/-- A constant. -/
def constant (c : NumberConstant) : Plan Code := do
  .need mathHeader
  return .value (constantFragment c)

/-- The comparison of a remainder with a number. -/
def remainderIs (a divisor : Expr) (rest : Nat) : Code :=
  .value ⟨.binary .equal (.binary .rem a divisor) (.nat rest), .equality⟩

/-- A test of a number. A comparison is taken to bind as loosely as an equation. -/
def property (p : NumberProperty) : Plan Code := do
  .need mathHeader
  let a ← askNumber "NUMBER_TO_CHECK" .multiplicative
  match p with
  | .even => return remainderIs a (.nat 2) 0
  | .odd => return remainderIs a (.nat 2) 1
  | .whole => return remainderIs a (.nat 1) 0
  | .positive => return .value ⟨.binary .greater a (.nat 0), .equality⟩
  | .negative => return .value ⟨.binary .less a (.nat 0), .equality⟩
  | .divisibleBy =>
    let divisor ← askNumber "DIVISOR" .multiplicative
    return remainderIs a divisor 0
  | .prime =>
    .need primeTest
    return .value ⟨.call "mathIsPrime" a, .functionCall⟩

/-- A variable that is increased. The amount is asked for before the variable. -/
def change : Plan Code := do
  let amount ← askNumber "DELTA" .additive
  let name ← .refer "VAR"
  return .statement (.increase name amount)

/-- The remainder of a division. -/
def remainder : Plan Code :=
  operation .rem .multiplicative "DIVIDEND" "DIVISOR"

/-- A number between two bounds. Without an upper bound a large number is one. -/
def constrain : Plan Code := do
  let a ← askNumber "VALUE" .comma
  let low ← askNumber "LOW" .comma
  let high ← .ask "HIGH" .comma (.nat 100000000)
  return .value ⟨.callTwo "min" (.callTwo "max" a low) high, .functionCall⟩

/-- A random number between two bounds. -/
def randomInteger : Plan Code := do
  let low ← askNumber "FROM" .comma
  let high ← askNumber "TO" .comma
  return .value ⟨.callTwo "random" low high, .functionCall⟩

end BlockSketch.Plan
