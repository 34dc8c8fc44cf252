import BlockSketch.Decimal.Digits
import BlockSketch.Proofs.Grammar.Tree

/-!
# Routines: small functions of C

A `Routine` is a function of one number in the part of C that sketches define functions in:
variables with a first value, branches, loops and `return`, and expressions with operators,
conversions and calls of functions of one argument. `Routine.read` reads one.

* `words` cuts a text into words and signs. Comments go up to the end of their line, and of two
  signs of which one begins the other, the longer one is taken.
* Operators bind in layers, as in C, and operators of one layer are taken from the left.
* A `for` is a loop in a scope of its own, with the first part of its head in front of it and the
  last part at the end of its body.
-/

namespace BlockSketch

/-- The types that routines know. -/
inductive Routine.Kind
  | bool
  | long
  | double
deriving DecidableEq, Repr

/-- The operators that routines know. -/
inductive Routine.Operator
  | basic (op : BinaryOp)
  | unequal
  | atMost
  | either
deriving DecidableEq, Repr

/-- An expression in a routine. -/
inductive Routine.Term
  | truth (b : Bool)
  | number (n : Nat)
  | name (x : String)
  | convert (kind : Kind) (a : Term)
  | call (function : String) (a : Term)
  | operation (op : Operator) (a b : Term)
deriving DecidableEq, Repr

/-- What a routine does. -/
inductive Routine.Action
  | skip
  | seq (a b : Action)
  /-- a block, at the end of which its variables are forgotten -/
  | scope (a : Action)
  | declare (kind : Kind) (x : String) (t : Term)
  | increase (x : String) (t : Term)
  | branch (condition : Term) (a : Action)
  | loop (condition : Term) (body : Action)
  | give (t : Term)
deriving DecidableEq, Repr

/-- A function of one number. -/
structure Routine where
  kind : Routine.Kind
  name : String
  parameterKind : Routine.Kind
  parameter : String
  body : Routine.Action
deriving DecidableEq, Repr

namespace Routine

/-! ### Words -/

/-- A word or a sign. -/
inductive Word
  | name (x : String)
  | number (n : Nat)
  | truth (b : Bool)
  | kind (kind : Kind)
  | branch
  | loop
  | give
  | openParen
  | closeParen
  | openBrace
  | closeBrace
  | semicolon
  | assign
  | increase
  | operator (op : Operator)
deriving DecidableEq, Repr

/-- The text without its comments; `inside` says whether it starts in one. -/
def withoutComments (inside : Bool) : List Char → List Char
  | [] => []
  | '/' :: '/' :: rest => withoutComments true rest
  | '\n' :: rest => '\n' :: withoutComments false rest
  | c :: rest => if inside then withoutComments true rest else c :: withoutComments false rest

/-- The word that some letters and digits are. -/
def word? : List Char → Option Word
  | ['t', 'r', 'u', 'e'] => some (.truth true)
  | ['f', 'a', 'l', 's', 'e'] => some (.truth false)
  | ['b', 'o', 'o', 'l'] => some (.kind .bool)
  | ['l', 'o', 'n', 'g'] => some (.kind .long)
  | ['d', 'o', 'u', 'b', 'l', 'e'] => some (.kind .double)
  | ['i', 'f'] => some .branch
  | ['f', 'o', 'r'] => some .loop
  | ['r', 'e', 't', 'u', 'r', 'n'] => some .give
  | [] => none
  | c :: rest =>
    if Identifier.isLetter c then some (.name (String.ofList (c :: rest)))
    else if rest.all Identifier.isDigit then
      some (.number (Digits.toNat (Digits.take (c :: rest)).1))
    else none

/-- The signs of C that have two characters. -/
def longSigns : List (Char × Char) :=
  [('=', '='), ('!', '='), ('<', '='), ('>', '='), ('|', '|'), ('&', '&'), ('+', '='), ('-', '='),
    ('*', '='), ('/', '='), ('%', '='), ('+', '+'), ('-', '-'), ('<', '<'), ('>', '>'), ('-', '>'),
    ('/', '*')]

/-- The sign of two characters, if routines know it. -/
def longSign? : Char → Char → Option Word
  | '=', '=' => some (.operator (.basic .equal))
  | '!', '=' => some (.operator .unequal)
  | '<', '=' => some (.operator .atMost)
  | '|', '|' => some (.operator .either)
  | '+', '=' => some .increase
  | _, _ => none

/-- The sign of one character, if routines know it. -/
def sign? : Char → Option Word
  | '(' => some .openParen
  | ')' => some .closeParen
  | '\x7b' => some .openBrace
  | '\x7d' => some .closeBrace
  | ';' => some .semicolon
  | '=' => some .assign
  | '*' => some (.operator (.basic .mul))
  | '/' => some (.operator (.basic .div))
  | '%' => some (.operator (.basic .rem))
  | '+' => some (.operator (.basic .add))
  | '-' => some (.operator (.basic .sub))
  | '<' => some (.operator (.basic .less))
  | '>' => some (.operator (.basic .greater))
  | _ => none

/-- The word that has been collected, of which the last character comes first; there may be none. -/
def collected (part : List Char) : Option (List Word) :=
  if part.isEmpty then some [] else (word? part.reverse).map fun word => [word]

/-- The words and signs of a text without comments; `part` are the characters of a word that has
been begun, the last one first. -/
def words (part : List Char) : List Char → Option (List Word)
  | [] => collected part
  | c :: rest =>
    if Identifier.isWordChar c then words (c :: part) rest
    else do
      let before ← collected part
      if c.isWhitespace then return before ++ (← words [] rest)
      else
        match rest with
        | [] => return before ++ [← sign? c]
        | d :: after =>
          if (c, d) ∈ longSigns then return before ++ (← longSign? c d) :: (← words [] after)
          else return before ++ (← sign? c) :: (← words [] (d :: after))

/-! ### Expressions -/

/-- Reads something from the start of some words and says which words are left. -/
abbrev Reader (α : Type) := List Word → Option (α × List Word)

/-- Takes one word. -/
def expect (word : Word) : List Word → Option (List Word)
  | w :: rest => if w = word then some rest else none
  | [] => none

/-- The layer of an operator. -/
def Operator.level : Operator → Nat
  | basic op => op.level
  | atMost => BinaryOp.level .less
  | unequal => BinaryOp.level .equal
  | either => 6

mutual

/-- An expression of a layer. Above layer 1 it is a row of expressions of the layer below. The first
argument bounds how deep expressions are nested. -/
def term : Nat → Nat → Reader Term
  | 0, _, _ => none
  | bound + 1, layer + 2, ws => do
    let (a, rest) ← term bound (layer + 1) ws
    row bound (layer + 2) a rest
  | bound + 1, _, ws => operand bound ws

/-- The rest of a row behind `a`. -/
def row : Nat → Nat → Term → Reader Term
  | 0, _, _, _ => none
  | bound + 1, layer, a, .operator op :: rest =>
    if op.level = layer then do
      let (b, rest) ← term bound (layer - 1) rest
      row bound layer (.operation op a b) rest
    else some (a, .operator op :: rest)
  | _ + 1, _, a, ws => some (a, ws)

/-- A number, a name, a call, a conversion or something in parentheses. -/
def operand : Nat → Reader Term
  | 0, _ => none
  | _ + 1, .truth b :: rest => some (.truth b, rest)
  | _ + 1, .number n :: rest => some (.number n, rest)
  | bound + 1, .name function :: .openParen :: rest => do
    let (a, rest) ← term bound 6 rest
    return (.call function a, ← expect .closeParen rest)
  | _ + 1, .name x :: rest => some (.name x, rest)
  | bound + 1, .openParen :: .kind kind :: .closeParen :: rest => do
    let (a, rest) ← operand bound rest
    return (.convert kind a, rest)
  | bound + 1, .openParen :: rest => do
    let (a, rest) ← term bound 6 rest
    return (a, ← expect .closeParen rest)
  | _ + 1, _ => none

end

/-- An expression. -/
def expression : Reader Term := fun ws =>
  term (8 * ws.length + 8) 6 ws

/-! ### Actions -/

/-- A variable with its first value, or an increase of a variable. -/
def simple : Reader Action
  | .kind kind :: .name x :: .assign :: rest => do
    let (t, rest) ← expression rest
    return (.declare kind x t, rest)
  | .name x :: .increase :: rest => do
    let (t, rest) ← expression rest
    return (.increase x t, rest)
  | _ => none

mutual

/-- An action. The first argument bounds how deep actions are nested. -/
def action : Nat → Reader Action
  | 0, _ => none
  | bound + 1, .openBrace :: rest => do
    let (a, rest) ← actions bound rest
    return (.scope a, rest)
  | bound + 1, .branch :: rest => do
    let (condition, rest) ← expression (← expect .openParen rest)
    let (a, rest) ← action bound (← expect .closeParen rest)
    return (.branch condition a, rest)
  | bound + 1, .loop :: rest => do
    let (first, rest) ← simple (← expect .openParen rest)
    let (condition, rest) ← expression (← expect .semicolon rest)
    let (last, rest) ← simple (← expect .semicolon rest)
    let (body, rest) ← action bound (← expect .closeParen rest)
    return (.scope (.seq first (.loop condition (.seq body last))), rest)
  | _ + 1, .give :: rest => do
    let (t, rest) ← expression rest
    return (.give t, ← expect .semicolon rest)
  | _ + 1, ws => do
    let (a, rest) ← simple ws
    return (a, ← expect .semicolon rest)

/-- The actions up to the end of a block. -/
def actions : Nat → Reader Action
  | 0, _ => none
  | _ + 1, .closeBrace :: rest => some (.skip, rest)
  | bound + 1, ws => do
    let (a, rest) ← action bound ws
    let (b, rest) ← actions bound rest
    return (.seq a b, rest)

end

/-- The routine that some words are. -/
def ofWords? : List Word → Option Routine
  | .kind kind :: .name name :: .openParen :: .kind parameterKind :: .name parameter ::
      .closeParen :: .openBrace :: rest => do
    match ← actions (2 * rest.length + 2) rest with
    | (body, []) => return ⟨kind, name, parameterKind, parameter, body⟩
    | _ => none
  | _ => none

/-- **Reads a routine**; `none` if the text is no routine. -/
def read (text : List Char) : Option Routine :=
  (words [] (withoutComments false text)).bind ofWords?

end Routine

end BlockSketch
