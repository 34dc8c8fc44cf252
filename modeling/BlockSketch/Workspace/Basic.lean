import BlockSketch.Block.Basic

/-!
# Workspace: what is saved

A workspace has stacks of blocks, each given by its topmost block, the variables that the user
declared, and perhaps a choice between counting text positions from zero or from one.
-/

namespace BlockSketch

/-- A declared variable. Blocks refer to it by its identity `id`; an empty type is none. -/
structure Declared where
  name : String
  id : String
  type : String := ""
deriving DecidableEq, Repr

namespace Declared

/-- The C type of a variable. Types that are not known by name are taken over as they are. -/
def cType (v : Declared) : String :=
  match v.type with
  | "" => "int"
  | "Number" => "double"
  | "String" => "String"
  | "Boolean" => "boolean"
  | other => other

end Declared

/-- A saved workspace. -/
structure Workspace where
  blocks : List Block := []
  declared : List Declared := []
  oneBased : Option Bool := none

end BlockSketch
