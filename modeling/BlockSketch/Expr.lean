import BlockSketch.Decimal.Layout
import BlockSketch.Precedence
import BlockSketch.Text.Quoted

/-!
# Expr: the C expressions that blocks become

An expression is kept as a tree until the sketch is put together. Parentheses are nodes of their
own: they stand exactly where some rule put a looser expression into a tighter place, and printing
adds none and removes none. So whether the printed text means what the tree says is a question
about the tree alone.

* `Expr.chars` prints a tree.
* `Fragment` is an expression together with its tier, which is what a value block becomes, and
  `Fragment.fit` makes it fit for the place it is put into.
-/

namespace BlockSketch

/-- The operators between two operands. -/
inductive BinaryOp
  | mul
  | div
  | rem
  | add
  | sub
  | less
  | greater
  | equal
deriving DecidableEq, Repr

namespace BinaryOp

/-- The sign of an operator. -/
def sign : BinaryOp → List Char
  | mul => ['*']
  | div => ['/']
  | rem => ['%']
  | add => ['+']
  | sub => ['-']
  | less => ['<']
  | greater => ['>']
  | equal => ['=', '=']

end BinaryOp

/-- A C expression. Calls have as many arguments as the rules need, one or two, and methods none,
one or two. -/
inductive Expr
  /-- An unsigned number. -/
  | numeral (n : Numeral)
  /-- A variable or a constant. -/
  | identifier (name : String)
  /-- A string literal, by the text it denotes. -/
  | literal (text : String)
  | call (function : String) (argument : Expr)
  | callTwo (function : String) (first second : Expr)
  | method (object : Expr) (name : String)
  | methodOne (object : Expr) (name : String) (argument : Expr)
  | methodTwo (object : Expr) (name : String) (first second : Expr)
  | negate (operand : Expr)
  | not (operand : Expr)
  | binary (op : BinaryOp) (left right : Expr)
  | paren (inner : Expr)
deriving DecidableEq, Repr

namespace Expr

/-- The characters of a minus sign before an operand. A blank keeps two minus signs from becoming
one operator. -/
def minusChars (operand : List Char) : List Char :=
  if operand.head? = some '-' then '-' :: ' ' :: operand else '-' :: operand

/-- The characters of an expression. -/
def chars : Expr → List Char
  | numeral n => n.chars
  | identifier name => name.toList
  | literal text => Text.Quoted.encode text.toList
  | call function argument => function.toList ++ '(' :: (argument.chars ++ [')'])
  | callTwo function first second =>
    function.toList ++ '(' :: (first.chars ++ ',' :: ' ' :: (second.chars ++ [')']))
  | method object name => object.chars ++ '.' :: (name.toList ++ ['(', ')'])
  | methodOne object name argument =>
    object.chars ++ '.' :: (name.toList ++ '(' :: (argument.chars ++ [')']))
  | methodTwo object name first second =>
    object.chars ++ '.' :: (name.toList ++ '(' ::
      (first.chars ++ ',' :: ' ' :: (second.chars ++ [')'])))
  | negate operand => minusChars operand.chars
  | not operand => '!' :: operand.chars
  | binary op left right => left.chars ++ ' ' :: (op.sign ++ ' ' :: right.chars)
  | paren inner => '(' :: (inner.chars ++ [')'])

/-- The text of an expression. -/
def text (e : Expr) : String :=
  String.ofList e.chars

/-! ### Numbers and texts -/

/-- A natural number in plain digits. -/
def nat (n : Nat) : Expr :=
  numeral (Numeral.ofNat n)

/-- A text as an object that has methods. -/
def string (content : String) : Expr :=
  call "String" (literal content)

/-- Numbers are written in full if their first digit stands for a power of ten from `-6` to `14`,
since whole digits past that overflow integer literals. Whole numbers have no point, and of two
equally near texts the upper one is taken. -/
def numberLayout : Layout where
  leastPlace := -6
  greatestPlace := 14
  keepsPoint := false
  tie := .upward

/-- A number: a numeral, behind a minus sign if the number is below zero. -/
def number (v : Binary64) : Expr :=
  let magnitude := numeral (numberLayout.numeral v.magnitude)
  if v.isNegative then negate magnitude else magnitude

end Expr

/-- An expression and how tightly it is taken to bind. The tier may be looser than the expression
itself, never tighter. -/
structure Fragment where
  expr : Expr
  tier : Precedence
deriving DecidableEq, Repr

namespace Fragment

/-- The text of a fragment. -/
def text (f : Fragment) : String :=
  f.expr.text

/-- Whether a fragment has no text. -/
def isEmpty (f : Fragment) : Bool :=
  f.expr.chars.isEmpty

/-- The expression, enclosed if it is too loose for a place that demands `required`. -/
def fit (f : Fragment) (required : Precedence) : Expr :=
  if required.needsParens f.tier then .paren f.expr else f.expr

end Fragment

end BlockSketch
