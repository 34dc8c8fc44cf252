import BlockSketch.Proofs.Grammar.Tree
import BlockSketch.Proofs.Session.Ensures

/-!
# What blocks mean

The tree that every block stands for, said without a look at how its code is made: there are no
tiers, no parentheses and no texts here, and nothing is asked for in any order.

* `Rule.intended` is the tree of a block with given settings, where `operand socket fallback` is the
  tree in a socket.
* `Rule.assignment` is the same for the rules that make statements: the sign between the variable
  and the new value, and the tree of that value.
* `Block.intended` and `Block.assignment` put the trees of the blocks in the sockets together.

A block has no tree if a setting of it or a block that it needs is wrong. Whether its code fails then
is another matter.
-/

namespace BlockSketch

namespace Tree

/-- A natural number in plain digits. -/
def nat (n : Nat) : Tree :=
  numeral (Numeral.ofNat n)

/-- A function applied to arguments. -/
def apply (function : String) (arguments : List Tree) : Tree :=
  call (identifier function) arguments

/-- A method of an object applied to arguments. -/
def invoke (object : Tree) (name : String) (arguments : List Tree) : Tree :=
  call (member object name) arguments

/-- A text as an object that has methods. -/
def string (content : String) : Tree :=
  apply "String" [literal content]

/-- The constant π. -/
def pi : Tree :=
  identifier "M_PI"

/-- A double: a number below zero is minus its magnitude. -/
def number (v : Binary64) : Tree :=
  let magnitude := numeral (Expr.numberLayout.numeral v.magnitude)
  if v.isNegative then negate magnitude else magnitude

end Tree

/-- Two numbers in arithmetic. -/
def Arithmetic.intended (a b : Tree) : Arithmetic → Tree
  | add => .binary .add a b
  | subtract => .binary .sub a b
  | multiply => .binary .mul a b
  | divide => .binary .div a b
  | power => .apply "pow" [a, b]

/-- A function of one number. Angles are in degrees. -/
def NumberFunction.intended (a : Tree) : NumberFunction → Tree
  | absolute => .apply "abs" [a]
  | root => .apply "sqrt" [a]
  | logarithm => .apply "log" [a]
  | exponential => .apply "exp" [a]
  | powerOfTen => .apply "pow" [.nat 10, a]
  | round => .apply "round" [a]
  | roundUp => .apply "ceil" [a]
  | roundDown => .apply "floor" [a]
  | sine => .apply "sin" [.binary .mul (.binary .div a (.nat 180)) .pi]
  | cosine => .apply "cos" [.binary .mul (.binary .div a (.nat 180)) .pi]
  | tangent => .apply "tan" [.binary .mul (.binary .div a (.nat 180)) .pi]
  | commonLogarithm => .binary .div (.apply "log" [a]) (.apply "log" [.nat 10])
  | arcSine => .binary .mul (.binary .div (.apply "asin" [a]) .pi) (.nat 180)
  | arcCosine => .binary .mul (.binary .div (.apply "acos" [a]) .pi) (.nat 180)
  | arcTangent => .binary .mul (.binary .div (.apply "atan" [a]) .pi) (.nat 180)

/-- A constant. -/
def NumberConstant.intended : NumberConstant → Tree
  | pi => .pi
  | e => .identifier "M_E"
  | goldenRatio => .binary .div (.binary .add (.nat 1) (.apply "sqrt" [.nat 5])) (.nat 2)
  | rootOfTwo => .identifier "M_SQRT2"
  | rootOfHalf => .identifier "M_SQRT1_2"
  | infinity => .nat 10000000

/-- A test of the number `a`. Only one test needs a second number, the divisor. -/
def NumberProperty.intended (a : Tree) (divisor : Option Tree) : NumberProperty → Option Tree
  | even => some (.binary .equal (.binary .rem a (.nat 2)) (.nat 0))
  | odd => some (.binary .equal (.binary .rem a (.nat 2)) (.nat 1))
  | whole => some (.binary .equal (.binary .rem a (.nat 1)) (.nat 0))
  | positive => some (.binary .greater a (.nat 0))
  | negative => some (.binary .less a (.nat 0))
  | divisibleBy => divisor.map fun d => .binary .equal (.binary .rem a d) (.nat 0)
  | prime => some (.apply "mathIsPrime" [a])

/-- A search for a text in another. A position counted from one is one more. -/
def SearchEnd.intended (oneBased : Bool) (sought text : Tree) (searchEnd : SearchEnd) : Tree :=
  let method := match searchEnd with
    | first => "indexOf"
    | last => "lastIndexOf"
  let found := Tree.invoke text method [sought]
  if oneBased then .binary .add found (.nat 1) else found

/-- A position in `text`. -/
def Origin.intended (text position : Tree) : Origin → Tree
  | start => position
  | finish => .binary .sub (.invoke text "length" []) position

/-- A text in other letters, which title case does not change. -/
def CaseChange.intended (text : Tree) : CaseChange → Tree
  | upper => .invoke text "toUpperCase" []
  | lower => .invoke text "toLowerCase" []
  | title => text

namespace Rule

/-- The tree of a block, for the rules that make values. -/
def intended (rule : Rule) (oneBased : Bool) (head : Block.Head)
    (operand : String → Tree → Option Tree) : Option Tree :=
  match rule with
  | number => return .number (← (head.number "NUM").toOption)
  | arithmetic => do
    let op ← (head.selector "OP" Arithmetic.ofField?).toOption
    return op.intended (← operand "A" (.nat 0)) (← operand "B" (.nat 0))
  | function => do
    let word ← (head.text "OP").toOption
    let a ← operand "NUM" (.nat 0)
    if word = "NEG" then return .negate a
    else return (← NumberFunction.ofField? word).intended a
  | constant => return (← (head.selector "CONSTANT" NumberConstant.ofField?).toOption).intended
  | property => do
    let p ← (head.selector "PROPERTY" NumberProperty.ofField?).toOption
    p.intended (← operand "NUMBER_TO_CHECK" (.nat 0)) (operand "DIVISOR" (.nat 0))
  | change => none
  | remainder =>
    return .binary .rem (← operand "DIVIDEND" (.nat 0)) (← operand "DIVISOR" (.nat 0))
  | constrain => do
    let a ← operand "VALUE" (.nat 0)
    let low ← operand "LOW" (.nat 0)
    let high ← operand "HIGH" (.nat 100000000)
    return .apply "min" [.apply "max" [a, low], high]
  | randomInteger => return .apply "random" [← operand "FROM" (.nat 0), ← operand "TO" (.nat 0)]
  | text => some (.string ((head.text? "TEXT").getD ""))
  | append => none
  | length => return .invoke (← operand "VALUE" (.string "")) "length" []
  | isEmpty => return .not (.invoke (← operand "VALUE" (.string "")) "length" [])
  | indexOf => do
    let searchEnd ← (searchEnd head).toOption
    return searchEnd.intended oneBased (← operand "FIND" (.literal ""))
      (← operand "VALUE" (.string ""))
  | charAt => do
    let origin ← (origin head "WHERE").toOption
    let text ← operand "VALUE" (.string "")
    return .invoke text "charAt" [origin.intended text (← operand "AT" (.nat 0))]
  | substring => do
    let first ← (origin head "WHERE1").toOption
    let last ← (origin head "WHERE2").toOption
    let text ← operand "STRING" (.string "")
    return .invoke text "substring" [first.intended text (← operand "AT1" (.nat 0)),
      last.intended text (← operand "AT2" (.nat 0))]
  | changeCase => do
    let case ← (head.selector "CASE" CaseChange.ofField?).toOption
    return case.intended (← operand "TEXT" (.string ""))
  | trim => return .invoke (← operand "TEXT" (.string "")) "trim" []

/-- The sign and the right-hand side of the assignment to `target`, for the rules that make
statements. -/
def assignment (rule : Rule) (target : String) (operand : String → Tree → Option Tree) :
    Option (Token × Tree) :=
  match rule with
  | change => return (.plusAssign, ← operand "DELTA" (.nat 0))
  | append =>
    return (.assign, .binary .add (.apply "String" [.identifier target])
      (.apply "String" [← operand "TEXT" (.literal "")]))
  | _ => none

end Rule

namespace Block

/-- **The tree that a block stands for.** -/
def intended (oneBased : Bool) (b : Block) : Option Tree :=
  match Rule.ofType? b.type with
  | none => none
  | some rule =>
    rule.intended oneBased b.head fun socket fallback =>
      match _hchild : b.inSocket socket with
      | none => some fallback
      | some child => child.intended oneBased
termination_by sizeOf b
decreasing_by exact sizeOf_inSocket _hchild

/-- The tree in a socket. -/
def operand (oneBased : Bool) (b : Block) (socket : String) (fallback : Tree) : Option Tree :=
  match b.inSocket socket with
  | none => some fallback
  | some child => child.intended oneBased

/-- The sign and the right-hand side of the assignment to `target` that a block stands for. -/
def assignment (oneBased : Bool) (b : Block) (target : String) : Option (Token × Tree) :=
  match Rule.ofType? b.type with
  | none => none
  | some rule => rule.assignment target (b.operand oneBased)

theorem intended_eq (oneBased : Bool) (b : Block) {rule : Rule}
    (h : Rule.ofType? b.type = some rule) :
    b.intended oneBased = rule.intended oneBased b.head (b.operand oneBased) := by
  rw [intended, h]
  simp only
  congr 1
  funext socket fallback
  rw [operand]
  cases b.inSocket socket <;> rfl

end Block

end BlockSketch
