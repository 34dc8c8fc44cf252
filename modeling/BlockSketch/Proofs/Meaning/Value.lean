import BlockSketch.Proofs.Grammar.Tree
import BlockSketch.Proofs.Meaning.Scalar

/-!
# Values: what a C expression comes to

`Tree.value` evaluates the meaning of a C expression: arithmetic and comparisons by the types of C,
with numbers that are exact, and texts with the methods that the target has for them, which count
positions from zero. It is told nothing of variables and of the functions of libraries, so an
expression that has one of these has no value here.

A text is a row of characters. How many bytes the target needs for one is not looked at.
-/

namespace BlockSketch

/-- What an expression can come to. -/
inductive Value
  | scalar (s : Scalar ℚ)
  | text (characters : List Char)
  | character (c : Char)
deriving DecidableEq

/-! ### Texts -/

namespace Text

/-- The places in a text where another one stands, in ascending order. -/
def places (sought text : List Char) : List ℕ :=
  (List.range text.length).filter fun k => sought.isPrefixOf (text.drop k)

/-- The first place of one text in another, or else a number below all places. -/
def indexOf (sought text : List Char) : ℤ :=
  match (places sought text).head? with
  | some k => k
  | none => -1

/-- The last place of one text in another, or else a number below all places. The empty text has no
last place. -/
def lastIndexOf (sought text : List Char) : ℤ :=
  match (if sought.isEmpty then none else (places sought text).getLast?) with
  | some k => k
  | none => -1

/-- The character at a place. Outside of the text it is the character that ends texts in C. -/
def charAt (text : List Char) (place : ℤ) : Char :=
  if 0 ≤ place then text.getD place.toNat '\x00' else '\x00'

end Text

namespace Value

/-- The number, if it is one. -/
def scalar? : Value → Option (Scalar ℚ)
  | scalar s => some s
  | _ => none

/-- The text, if it is one. -/
def text? : Value → Option (List Char)
  | text characters => some characters
  | _ => none

/-- What a method of a text gives. -/
def method (name : String) (object : List Char) : Value → Option Value
  | text sought =>
    if name = "indexOf" then some (scalar (.int (Text.indexOf sought object)))
    else if name = "lastIndexOf" then some (scalar (.int (Text.lastIndexOf sought object)))
    else none
  | scalar (.int place) =>
    if name = "charAt" then some (character (Text.charAt object place)) else none
  | _ => none

end Value

namespace Tree

/-- **The value of an expression**, if it has one. -/
def value : Tree → Option Value
  | numeral n => some (.scalar n.scalar)
  | literal text => some (.text text.toList)
  | negate a => do return .scalar (← (← a.value).scalar?).negate
  | binary op a b => do
    let x ← (← a.value).scalar?
    let y ← (← b.value).scalar?
    return .scalar (← op.apply x y)
  | call (identifier "String") [a] => do return .text (← (← a.value).text?)
  | call (member object name) [a] => do
    let text ← (← object.value).text?
    Value.method name text (← a.value)
  | _ => none

end Tree

end BlockSketch
