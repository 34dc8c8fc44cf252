import BlockSketch.Expr

/-!
# Statement: the lines of the main loop

Every block of a stack becomes one statement, and every statement is one line of the sketch.
-/

namespace BlockSketch

/-- A C statement. -/
inductive Statement
  /-- Adds a value to a variable. -/
  | increase (target : String) (value : Expr)
  /-- Gives a variable a value. -/
  | assign (target : String) (value : Expr)
  /-- Computes a value and drops it. -/
  | evaluate (value : Expr)
deriving DecidableEq, Repr

namespace Statement

/-- The characters of a statement, without a line ending. -/
def chars : Statement → List Char
  | increase target value => target.toList ++ [' ', '+', '=', ' '] ++ value.chars ++ [';']
  | assign target value => target.toList ++ [' ', '=', ' '] ++ value.chars ++ [';']
  | evaluate value => value.chars ++ [';']

/-- The line of a statement. -/
def line (s : Statement) : List Char :=
  s.chars ++ ['\n']

/-- The text of a statement, with its line ending. -/
def text (s : Statement) : String :=
  String.ofList s.line

end Statement

/-- What a block becomes: a value that other blocks may use, or a statement. -/
inductive Code
  | value (fragment : Fragment)
  | statement (statement : Statement)
deriving DecidableEq, Repr

namespace Code

/-- The code as a statement of its own: a value is computed and dropped. -/
def asStatement : Code → Statement
  | value fragment => .evaluate fragment.expr
  | statement s => s

end Code

end BlockSketch
