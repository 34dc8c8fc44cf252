import BlockSketch.Declarations
import BlockSketch.Identifier.Registry
import BlockSketch.Rule
import BlockSketch.Workspace.Basic

/-!
# Session: making code, block after block

A session is what one block leaves behind for the next: the declarations that were asked for and the
identifiers that were handed out. Its options and the names of the declared variables never change.

`Generate` is the monad of the work in a session. It keeps the session when something fails, so a
later piece of work finds everything that was done before the failure.

* `Block.code` makes the code of a block, by carrying out the plan of its rule.
* `Block.socketExpr` makes the expression in one socket, fit for its place, and `Block.socketText`
  writes it, or another text if there is none.
* `Block.stackCode` makes the statements of a stack.
* `Session.start` opens a session for a workspace and declares its variables.

A block's code needs the code of the blocks in its sockets. They are handed to the plan as a table of
`Plug`s, each of which makes its code when it is asked for. So the recursion is on the block, and a
socket that no plan asks for does nothing.
-/

namespace BlockSketch

/-- What can be chosen about a sketch. -/
structure Options where
  /-- Whether text positions that are found are counted from one. -/
  oneBased : Bool := true
  /-- What stands in front of every line of the main loop. -/
  indent : String := "  "
deriving DecidableEq, Repr

namespace Options

/-- The options that a workspace asks for. -/
def ofWorkspace (w : Workspace) : Options :=
  { oneBased := w.oneBased.getD true }

end Options

/-- The state of the work on a sketch. -/
structure Session where
  options : Options := {}
  declarations : Declarations := .empty
  registry : Registry := .empty
  /-- The names of the declared variables by their identities. -/
  variableNames : Table String := []

/-- Work in a session that may fail. -/
abbrev Generate := ExceptT GenerationError (StateM Session)

namespace Generate

/-- Sees to it that something is declared. -/
def declare (key text : String) : Generate Unit :=
  modify fun s => { s with declarations := s.declarations.register key text }

/-- The identifier of a name. -/
def identify (name : String) : Generate String :=
  modifyGet fun s =>
    let (identifier, registry) := s.registry.identify name
    (identifier, { s with registry })

/-- The identifier of the variable that a field refers to. -/
def reference (head : Block.Head) (field : String) : Generate String := do
  let name ← head.reference (← get).variableNames field
  identify name

end Generate

/-- A block in a socket: its type, and how its code is made. -/
structure Plug where
  type : String
  code : Generate Code

namespace Plug

/-- The expression of a block in a socket, fit for a place; `none` if its code has no text. The code
is made before it is looked at, so an error inside a statement comes before the error that it is
one. -/
def expr? (plug : Plug) (place : Precedence) : Generate (Option Expr) := do
  match ← plug.code with
  | .value fragment => return if fragment.isEmpty then none else some (fragment.fit place)
  | .statement _ => throw (.expectedValue plug.type)

/-- The expression of a block in a socket, fit for a place, or else the fallback. -/
def expr (plug : Plug) (place : Precedence) (fallback : Expr) : Generate Expr :=
  return (← plug.expr? place).getD fallback

end Plug

namespace Plan

/-- Carries out a plan for a block, of whose sockets the plugs are given. -/
def run {α : Type} (head : Block.Head) (plugs : List (String × Option Plug)) :
    Plan α → Generate α
  | done result => return result
  | declare declaration rest => do
    Generate.declare declaration.key declaration.text
    rest.run head plugs
  | value socket place fallback rest => do
    let e ←
      match (plugs.lookup socket).join with
      | some plug => plug.expr place fallback
      | none => pure fallback
    (rest e).run head plugs
  | reference field rest => do
    let name ← Generate.reference head field
    (rest name).run head plugs

end Plan

namespace Rule

/-- Applies a rule to a block with these settings and plugs. -/
def apply (rule : Rule) (head : Block.Head) (plugs : List (String × Option Plug)) :
    Generate Code := do
  let plan ← rule.plan (← get).options.oneBased head
  plan.run head plugs

end Rule

mutual

/-- Makes the code of a block. -/
def Block.code : Block → Generate Code
  | ⟨head, _, inputs, _⟩ =>
    match Rule.ofType? head.type with
    | some rule => rule.apply head (Block.plugs inputs)
    | none => throw (.unknownBlockType head.type)

/-- The plugs of the sockets. -/
def Block.plugs : List (String × Connection) → List (String × Option Plug)
  | [] => []
  | (socket, connection) :: rest => (socket, connection.plug) :: Block.plugs rest

/-- The plug of a connection: the real block, or else the shadow. -/
def Connection.plug : Connection → Option Plug
  | ⟨some block, _⟩ => some ⟨block.type, block.code⟩
  | ⟨none, some shadow⟩ => some ⟨shadow.type, shadow.code⟩
  | ⟨none, none⟩ => none

end

namespace Block

/-- Makes the code of a block by a rule that need not be that of its type. -/
def codeBy (rule : Rule) (b : Block) : Generate Code :=
  rule.apply b.head (plugs b.inputs)

/-- Makes the expression in a socket, fit for a place; `none` if the socket is empty, or the code of
the block in it is. -/
def socketExpr (b : Block) (socket : String) (place : Precedence) : Generate (Option Expr) :=
  match b.inSocket socket with
  | none => return none
  | some child => Plug.expr? ⟨child.type, child.code⟩ place

/-- Makes the text of the expression in a socket, fit for a place; `fallback` if there is none. -/
def socketText (b : Block) (socket : String) (place : Precedence) (fallback : String) :
    Generate String :=
  return ((← b.socketExpr socket place).map Expr.text).getD fallback

/-- Makes the statements of a stack, from the top. -/
def stackCode (b : Block) : Generate (List Statement) :=
  b.stack.mapM fun block => Code.asStatement <$> block.code

end Block

namespace Session

/-- A session in which nothing has been done. -/
def new (options : Options) : Session :=
  { options }

/-- Takes in the declared variables one after the other: each gets its identifier, and its line in
the text of the declarations. -/
def declareVariables : List Declared → Session → String × Session
  | [], s => ("", s)
  | v :: rest, s =>
    let (identifier, registry) := s.registry.identify v.name
    let (lines, s) := declareVariables rest
      { s with registry, variableNames := Table.insert v.id v.name s.variableNames }
    (v.cType ++ " " ++ identifier ++ ";\n" ++ lines, s)

/-- The key of the declared variables. -/
def variablesKey : String := "variables"

/-- A session for a workspace. Its variables are the first declaration, if there are any. -/
def start (w : Workspace) (options : Options) : Session :=
  let (lines, s) := declareVariables w.declared (new options)
  if lines.isEmpty then s
  else { s with declarations := s.declarations.register variablesKey lines }

/-- Does some work in a session. -/
def perform {α : Type} (s : Session) (work : Generate α) : Except GenerationError α × Session :=
  StateT.run (ExceptT.run work) s

end Session

end BlockSketch
