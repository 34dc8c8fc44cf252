import BlockSketch.Block.Field
import BlockSketch.Plan.Text

/-!
# Rule: which code belongs to which block

Every type of block that is known has a rule, and a rule makes a plan from the settings of a block.
`Rule.plan` reads the settings first, each in its turn. If one of them is wrong there is no plan, and
so nothing has been asked for.
-/

namespace BlockSketch

/-- The rules. -/
inductive Rule
  | number
  | arithmetic
  | function
  | constant
  | property
  | change
  | remainder
  | constrain
  | randomInteger
  | text
  | append
  | length
  | isEmpty
  | indexOf
  | charAt
  | substring
  | changeCase
  | trim
deriving DecidableEq, Repr

namespace Rule

/-- The rule for a type of block. Rounding and trigonometry have the rule of the other functions of
one number. -/
def ofType? : String → Option Rule
  | "math_number" => some number
  | "math_arithmetic" => some arithmetic
  | "math_single" => some function
  | "math_round" => some function
  | "math_trig" => some function
  | "math_constant" => some constant
  | "math_number_property" => some property
  | "math_change" => some change
  | "math_modulo" => some remainder
  | "math_constrain" => some constrain
  | "math_random_int" => some randomInteger
  | "text" => some text
  | "text_append" => some append
  | "text_length" => some length
  | "text_isEmpty" => some isEmpty
  | "text_indexOf" => some indexOf
  | "text_charAt" => some charAt
  | "text_getSubstring" => some substring
  | "text_changeCase" => some changeCase
  | "text_trim" => some trim
  | _ => none

/-- What a function block does: the word for negation is told apart before the functions are. -/
def functionPlan (head : Block.Head) : Except GenerationError (Plan Code) := do
  let word ← head.text "OP"
  if word = "NEG" then return Plan.negation
  else
    match NumberFunction.ofField? word with
    | some f => return Plan.function f
    | none => throw (.unknownOperator head.type word)

/-- The end from which a search block starts. -/
def searchEnd (head : Block.Head) : Except GenerationError SearchEnd := do
  let word ← head.text "END"
  match SearchEnd.ofField? word with
  | some e => return e
  | none => throw (.unhandledOption head.type word)

/-- The end from which a position is counted; the start if the field has no text. -/
def origin (head : Block.Head) (field : String) : Except GenerationError Origin :=
  match head.text? field with
  | none => .ok .start
  | some word =>
    match Origin.ofField? word with
    | some o => .ok o
    | none => .error (.unhandledOption head.type word)

/-- The plan that a rule makes for a block with these settings; `oneBased` says whether positions
that are found are counted from one. -/
def plan (rule : Rule) (oneBased : Bool) (head : Block.Head) :
    Except GenerationError (Plan Code) :=
  match rule with
  | number => return Plan.number (← head.number "NUM")
  | arithmetic => return Plan.arithmetic (← head.selector "OP" Arithmetic.ofField?)
  | function => functionPlan head
  | constant => return Plan.constant (← head.selector "CONSTANT" NumberConstant.ofField?)
  | property => return Plan.property (← head.selector "PROPERTY" NumberProperty.ofField?)
  | change => return Plan.change
  | remainder => return Plan.remainder
  | constrain => return Plan.constrain
  | randomInteger => return Plan.randomInteger
  | text => return Plan.literal ((head.text? "TEXT").getD "")
  | append => return Plan.append
  | length => return Plan.length
  | isEmpty => return Plan.isEmpty
  | indexOf => return Plan.indexOf oneBased (← searchEnd head)
  | charAt => return Plan.charAt (← origin head "WHERE")
  | substring => return Plan.substring (← origin head "WHERE1") (← origin head "WHERE2")
  | changeCase => return Plan.changeCase (← head.selector "CASE" CaseChange.ofField?)
  | trim => return Plan.trim

end Rule

end BlockSketch
