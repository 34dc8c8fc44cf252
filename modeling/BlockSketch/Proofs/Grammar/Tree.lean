import BlockSketch.Proofs.Grammar.Token

/-!
# Trees: what a C expression means

`Tree.read` is a reader of C expressions that knows nothing of how they are printed: it cuts the text
into tokens and gives them the tree that the grammar of C has for them. A tree has no parentheses,
since they only say how to read.

The grammar comes in layers, each built on the one below:

* names, numbers, literals and what stands in parentheses,
* calls and members behind these (layer 0),
* the operators in front of one operand (layer 1),
* the operators between two operands, four layers of them by `BinaryOp.level`, grouped from the left.

Parentheses and arguments start at the top again, and the parser has a bound on how often. Each time
takes a token, so their number is bound enough.
-/

namespace BlockSketch

/-- The meaning of a C expression. -/
inductive Tree
  | numeral (n : Numeral)
  | identifier (name : String)
  /-- a string literal, by the text it denotes -/
  | literal (text : String)
  | call (function : Tree) (arguments : List Tree)
  | member (object : Tree) (name : String)
  | negate (operand : Tree)
  | not (operand : Tree)
  | binary (op : BinaryOp) (left right : Tree)
deriving Repr

namespace BinaryOp

/-- The layer of an operator. -/
def level : BinaryOp → Nat
  | mul | div | rem => 2
  | add | sub => 3
  | less | greater => 4
  | equal => 5

end BinaryOp

/-- The operator between two operands that a token is, if it is one. -/
def Token.operator? : Token → Option BinaryOp
  | star => some .mul
  | slash => some .div
  | percent => some .rem
  | plus => some .add
  | minus => some .sub
  | less => some .less
  | greater => some .greater
  | equal => some .equal
  | _ => none

namespace Grammar

/-- A parser takes tokens from the front and leaves the others. -/
abbrev Parser (α : Type) := List Token → Option (α × List Token)

/-! ### The layers

`inner` is the parser for what stands in parentheses. -/

/-- What has no parts, or stands in parentheses. -/
def primary (inner : Parser Tree) : Parser Tree
  | .numeral n :: rest => some (.numeral n, rest)
  | .identifier name :: rest => some (.identifier name, rest)
  | .literal text :: rest => some (.literal text, rest)
  | .openParen :: rest =>
    match inner rest with
    | some (t, .closeParen :: after) => some (t, after)
    | _ => none
  | _ => none

/-- The arguments after the first one, up to the closing parenthesis. -/
def moreArguments (inner : Parser Tree) (tokens : List Token) : Option (List Tree × List Token) :=
  match tokens with
  | .closeParen :: rest => some ([], rest)
  | .comma :: rest =>
    match inner rest with
    | none => none
    | some (t, after) =>
      if after.length ≤ rest.length then
        (moreArguments inner after).map fun parsed => (t :: parsed.1, parsed.2)
      else none
  | _ => none
termination_by tokens.length

/-- The arguments of a call whose opening parenthesis has been taken. -/
def arguments (inner : Parser Tree) : Parser (List Tree)
  | .closeParen :: rest => some ([], rest)
  | tokens =>
    match inner tokens with
    | none => none
    | some (t, after) => (moreArguments inner after).map fun parsed => (t :: parsed.1, parsed.2)

/-- All calls and members behind `t`. -/
def suffixes (inner : Parser Tree) (t : Tree) (tokens : List Token) : Option (Tree × List Token) :=
  match tokens with
  | .openParen :: rest =>
    match arguments inner rest with
    | none => none
    | some (ts, after) =>
      if after.length ≤ rest.length then suffixes inner (.call t ts) after else none
  | .dot :: .identifier name :: rest => suffixes inner (.member t name) rest
  | .dot :: _ => none
  | _ => some (t, tokens)
termination_by tokens.length

/-- Layer 0. -/
def suffixed (inner : Parser Tree) : Parser Tree := fun tokens =>
  match primary inner tokens with
  | none => none
  | some (t, rest) => suffixes inner t rest

/-- Layer 1, given the layer below. -/
def unary (operand : Parser Tree) : Parser Tree
  | .minus :: rest => (unary operand rest).map fun parsed => (.negate parsed.1, parsed.2)
  | .bang :: rest => (unary operand rest).map fun parsed => (.not parsed.1, parsed.2)
  | tokens => operand tokens

/-- All operators of a level behind `left`, each with its right operand. -/
def operations (level : Nat) (operand : Parser Tree) (left : Tree) (tokens : List Token) :
    Option (Tree × List Token) :=
  match tokens with
  | [] => some (left, [])
  | token :: rest =>
    match token.operator? with
    | none => some (left, token :: rest)
    | some op =>
      if op.level = level then
        match operand rest with
        | none => none
        | some (right, after) =>
          if after.length ≤ rest.length then
            operations level operand (.binary op left right) after
          else none
      else some (left, token :: rest)
termination_by tokens.length
decreasing_by exact Nat.lt_succ_of_le ‹_›

/-- All layers. From 2 on, each is a row of operands of the layer below. -/
def layer (inner : Parser Tree) : Nat → Parser Tree
  | 0 => suffixed inner
  | 1 => unary (suffixed inner)
  | k + 2 => fun tokens =>
    match layer inner (k + 1) tokens with
    | none => none
    | some (left, rest) => operations (k + 2) (layer inner (k + 1)) left rest

/-- An expression with at most so many parentheses inside each other. -/
def expression : Nat → Parser Tree
  | 0 => fun _ => none
  | bound + 1 => layer (expression bound) 5

end Grammar

namespace Tree

/-- The tree of some tokens; `none` if they are no expression. -/
def parse (tokens : List Token) : Option Tree :=
  match Grammar.expression (tokens.length + 1) tokens with
  | some (t, []) => some t
  | _ => none

/-- The tree of a text; `none` if the text is no expression. -/
def read (text : List Char) : Option Tree :=
  (Token.lex text).bind parse

end Tree

end BlockSketch
