import BlockSketch.Session
import BlockSketch.Text.Lines

/-!
# Sketch: the whole program

A sketch has a header, an empty `setup` and a `loop` with one line for each block of each stack.
The header has the includes first, then an empty line if there are any, and then all other
declarations with an empty line after each.

`Workspace.sketch` makes the sketch of a workspace; `Sketch.write` puts one together from the
declarations and the text of the loop.
-/

namespace BlockSketch

namespace Sketch

/-- What the key of an include starts with. -/
def includeMark : List Char := "include_".toList

/-- Whether a declaration is an include, which its key tells. -/
def isInclude (entry : String × String) : Bool :=
  includeMark.isPrefixOf entry.1.toList

/-- What stands before the functions. -/
def header (d : Declarations) : String :=
  let includes := d.entries.filter isInclude
  let others := d.entries.filter (!isInclude ·)
  String.join (includes.map Prod.snd) ++ (if includes.isEmpty then "" else "\n") ++
    String.join (others.map (·.2 ++ "\n"))

/-- The two functions, with the lines of `body` in the second. -/
def functions (indent body : String) : String :=
  "void setup() \x7b\n\x7d\n\nvoid loop() \x7b\n" ++
    String.ofList (Text.indentLines indent.toList body.toList) ++ "\x7d\n"

/-- The text of a sketch. -/
def write (d : Declarations) (indent body : String) : String :=
  header d ++ functions indent body

end Sketch

namespace Session

/-- Puts the sketch together around the text of its loop. -/
def finish (s : Session) (body : String) : String :=
  Sketch.write s.declarations s.options.indent body

end Session

namespace Workspace

/-- Makes the statements of all stacks. -/
def code (w : Workspace) : Generate (List Statement) :=
  return (← w.blocks.mapM Block.stackCode).flatten

/-- The sketch of a workspace. -/
def sketch (w : Workspace) (options : Options) : Except GenerationError String :=
  match (Session.start w options).perform w.code with
  | (.ok statements, s) => .ok (s.finish (String.join (statements.map Statement.text)))
  | (.error e, _) => .error e

end Workspace

end BlockSketch
