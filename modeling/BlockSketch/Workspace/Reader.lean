import BlockSketch.Block.Reader
import BlockSketch.Workspace.Basic

/-!
# Reader: workspaces from JSON

A workspace is a record of three members that may all be missing: `blocks`, which is a record of its
own around the list of topmost blocks, `variables`, and `options`, a record with the one choice that
matters here. `Workspace.parse` and `Block.parse` read whole texts.
-/

namespace BlockSketch

namespace Declared

/-- A variable of which some members have been read. -/
structure Draft where
  name : Option String := none
  id : Option String := none
  type : Option String := none

namespace Draft

/-- Whether a member of this name may come now. -/
def accepts (draft : Draft) (name : String) : Bool :=
  match name with
  | "name" => draft.name.isNone
  | "id" => draft.id.isNone
  | "type" => draft.type.isNone
  | _ => true

/-- The variable, if it has a name and an identity. -/
def complete (draft : Draft) : Reader Declared :=
  match draft.name, draft.id with
  | some name, some id => return ⟨name, id, draft.type.getD ""⟩
  | _, _ => throw .unsuitable

end Draft

/-- The two ways to write a variable. -/
def ways : Reader.Record Declared where
  inPlaces := do
    let draft : Draft := {
      name := ← Reader.nextItem true Reader.text
      id := ← Reader.nextItem false Reader.text
      type := ← Reader.nextItem false Reader.text }
    let declared ← draft.complete
    Reader.closeArray
    return declared
  named := do
    let member (draft : Draft) (name : String) : Reader Draft := do
      match name with
      | "name" => return { draft with name := some (← Reader.text) }
      | "id" => return { draft with id := some (← Reader.text) }
      | "type" => return { draft with type := some (← Reader.text) }
      | _ =>
        Reader.skip
        return draft
    let draft ← Reader.members Draft.accepts member (← Reader.rounds) true {}
    draft.complete

/-- Reads a variable in which at most `budget` brackets are open at once. -/
def reader (budget : Nat) : Reader Declared :=
  Reader.record (Reader.within budget fun _ => ways)

end Declared

namespace Workspace

/-! ### The parts of a workspace -/

/-- A record with one member: how it is called, how it is read, and what stands for it if an object
lacks it. An array that lacks it is that too, unless the member is `needed`. -/
def soleMember {α : Type} (name : String) (member : Reader α) (missing : α) (needed : Bool) :
    Reader.Record α where
  inPlaces := do
    let value ← Reader.nextItem true member
    if needed && value.isNone then throw .unsuitable
    Reader.closeArray
    return value.getD missing
  named := do
    let accepts (soFar : Option α) (other : String) : Bool := other != name || soFar.isNone
    let read (soFar : Option α) (other : String) : Reader (Option α) := do
      if other = name then return some (← member)
      else
        Reader.skip
        return soFar
    return (← Reader.members accepts read (← Reader.rounds) true none).getD missing

/-- Reads the record around the topmost blocks. -/
def blocksReader (budget : Nat) : Reader (List Block) :=
  Reader.record (Reader.within budget fun inner =>
    soleMember "blocks" (Reader.list (Reader.within inner Block.reader)) [] false)

/-- Reads the list of variables. -/
def variablesReader (budget : Nat) : Reader (List Declared) :=
  Reader.list (Reader.within budget Declared.reader)

/-- Reads the record around the choice of counting. -/
def optionsReader (budget : Nat) : Reader (Option Bool) :=
  Reader.record (Reader.within budget fun _ =>
    soleMember "oneBasedIndex" (Reader.optional Reader.flag) none true)

/-! ### The workspace -/

/-- A workspace of which some members have been read. -/
structure Draft where
  blocks : Option (List Block) := none
  declared : Option (List Declared) := none
  options : Option (Option Bool) := none

namespace Draft

/-- Whether a member of this name may come now. -/
def accepts (draft : Draft) (name : String) : Bool :=
  match name with
  | "blocks" => draft.blocks.isNone
  | "variables" => draft.declared.isNone
  | "options" => draft.options.isNone
  | _ => true

/-- The workspace. -/
def complete (draft : Draft) : Workspace :=
  ⟨draft.blocks.getD [], draft.declared.getD [], draft.options.getD none⟩

end Draft

/-- The two ways to write a workspace, given how many brackets may be open inside it. -/
def ways (inner : Nat) : Reader.Record Workspace where
  inPlaces := do
    let draft : Draft := {
      blocks := ← Reader.nextItem true (blocksReader inner)
      declared := ← Reader.nextItem false (variablesReader inner)
      options := ← Reader.nextItem false (optionsReader inner) }
    Reader.closeArray
    return draft.complete
  named := do
    let member (draft : Draft) (name : String) : Reader Draft := do
      match name with
      | "blocks" => return { draft with blocks := some (← blocksReader inner) }
      | "variables" => return { draft with declared := some (← variablesReader inner) }
      | "options" => return { draft with options := some (← optionsReader inner) }
      | _ =>
        Reader.skip
        return draft
    return (← Reader.members Draft.accepts member (← Reader.rounds) true {}).complete

/-- Reads a workspace in which at most `budget` brackets are open at once. -/
def reader (budget : Nat) : Reader Workspace :=
  Reader.record (Reader.within budget ways)

/-- The workspace that a text describes. -/
def parse (source : String) : Except Fault Workspace :=
  Reader.whole reader source

end Workspace

/-- The block that a text describes. -/
def Block.parse (source : String) : Except Fault Block :=
  Reader.whole Block.reader source

end BlockSketch
