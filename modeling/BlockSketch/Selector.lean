/-!
# Selector: the settings of drop-down lists

Several blocks do one of a few things, which a field selects by a word. Each list of choices is a
type, and `ofField?` reads its words.
-/

namespace BlockSketch

/-- What an arithmetic block does with its two numbers. -/
inductive Arithmetic
  | add
  | subtract
  | multiply
  | divide
  | power
deriving DecidableEq, Repr

/-- The choice that a word selects. -/
def Arithmetic.ofField? : String → Option Arithmetic
  | "ADD" => some add
  | "MINUS" => some subtract
  | "MULTIPLY" => some multiply
  | "DIVIDE" => some divide
  | "POWER" => some power
  | _ => none

/-- The functions of one number. Negation is not among them: it is an operator. -/
inductive NumberFunction
  | absolute
  | root
  | logarithm
  | exponential
  | powerOfTen
  | round
  | roundUp
  | roundDown
  | sine
  | cosine
  | tangent
  | commonLogarithm
  | arcSine
  | arcCosine
  | arcTangent
deriving DecidableEq, Repr

/-- The choice that a word selects. -/
def NumberFunction.ofField? : String → Option NumberFunction
  | "ABS" => some absolute
  | "ROOT" => some root
  | "LN" => some logarithm
  | "EXP" => some exponential
  | "POW10" => some powerOfTen
  | "ROUND" => some round
  | "ROUNDUP" => some roundUp
  | "ROUNDDOWN" => some roundDown
  | "SIN" => some sine
  | "COS" => some cosine
  | "TAN" => some tangent
  | "LOG10" => some commonLogarithm
  | "ASIN" => some arcSine
  | "ACOS" => some arcCosine
  | "ATAN" => some arcTangent
  | _ => none

/-- The constants. -/
inductive NumberConstant
  | pi
  | e
  | goldenRatio
  | rootOfTwo
  | rootOfHalf
  | infinity
deriving DecidableEq, Repr

/-- The choice that a word selects. -/
def NumberConstant.ofField? : String → Option NumberConstant
  | "PI" => some pi
  | "E" => some e
  | "GOLDEN_RATIO" => some goldenRatio
  | "SQRT2" => some rootOfTwo
  | "SQRT1_2" => some rootOfHalf
  | "INFINITY" => some infinity
  | _ => none

/-- The properties that a number can be tested for. -/
inductive NumberProperty
  | even
  | odd
  | whole
  | positive
  | negative
  | divisibleBy
  | prime
deriving DecidableEq, Repr

/-- The choice that a word selects. -/
def NumberProperty.ofField? : String → Option NumberProperty
  | "EVEN" => some even
  | "ODD" => some odd
  | "WHOLE" => some whole
  | "POSITIVE" => some positive
  | "NEGATIVE" => some negative
  | "DIVISIBLE_BY" => some divisibleBy
  | "PRIME" => some prime
  | _ => none

/-- The ways to change the case of a text. -/
inductive CaseChange
  | upper
  | lower
  | title
deriving DecidableEq, Repr

/-- The choice that a word selects. -/
def CaseChange.ofField? : String → Option CaseChange
  | "UPPERCASE" => some upper
  | "LOWERCASE" => some lower
  | "TITLECASE" => some title
  | _ => none

/-- The end of a text from which a search starts. -/
inductive SearchEnd
  | first
  | last
deriving DecidableEq, Repr

/-- The choice that a word selects. -/
def SearchEnd.ofField? : String → Option SearchEnd
  | "FIRST" => some first
  | "LAST" => some last
  | _ => none

/-- The end of a text from which positions are counted. -/
inductive Origin
  | start
  | finish
deriving DecidableEq, Repr

/-- The choice that a word selects. -/
def Origin.ofField? : String → Option Origin
  | "FROM_START" => some start
  | "FROM_END" => some finish
  | _ => none

end BlockSketch
