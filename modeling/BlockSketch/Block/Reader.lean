import BlockSketch.Block.Basic
import BlockSketch.Json.Reader

/-!
# Reader: blocks from JSON

A block is a record of `type`, `id`, `fields`, `inputs` and `next`, and a connection one of `block`
and `shadow`. Only the type of a block must be there. An object may have other members too, which
are passed over; a member that comes twice is refused.

Blocks hold connections and connections hold blocks. Each reader is made of the readers for what may
stand inside, where fewer brackets are left, so they are all made together: `Block.readers` are those
for a given number of brackets.
-/

namespace BlockSketch

namespace Block

/-- A block of which some members have been read. -/
structure Draft where
  type : Option String := none
  id : Option (Option String) := none
  fields : Option (Table Json) := none
  inputs : Option (Table Connection) := none
  next : Option (Option Connection) := none

namespace Draft

/-- Whether a member of this name may come now. -/
def accepts (draft : Draft) (name : String) : Bool :=
  match name with
  | "type" => draft.type.isNone
  | "id" => draft.id.isNone
  | "fields" => draft.fields.isNone
  | "inputs" => draft.inputs.isNone
  | "next" => draft.next.isNone
  | _ => true

/-- The block, if all members that must be there are. -/
def complete (draft : Draft) : Reader Block :=
  match draft.type with
  | some type =>
    return {
      head := ⟨type, draft.fields.getD []⟩
      id := draft.id.getD none
      inputs := draft.inputs.getD []
      next := draft.next.getD none }
  | none => throw .unsuitable

end Draft

/-- The two ways to write a block, given readers for its parts. -/
def ways (fields : Reader (Table Json)) (inputs : Reader (Table Connection))
    (next : Reader Connection) : Reader.Record Block where
  inPlaces := do
    let draft : Draft := {
      type := ← Reader.nextItem true Reader.text
      id := ← Reader.nextItem false (Reader.optional Reader.text)
      fields := ← Reader.nextItem false fields
      inputs := ← Reader.nextItem false inputs
      next := ← Reader.nextItem false (Reader.optional next) }
    let block ← draft.complete
    Reader.closeArray
    return block
  named := do
    let member (draft : Draft) (name : String) : Reader Draft := do
      match name with
      | "type" => return { draft with type := some (← Reader.text) }
      | "id" => return { draft with id := some (← Reader.optional Reader.text) }
      | "fields" => return { draft with fields := some (← fields) }
      | "inputs" => return { draft with inputs := some (← inputs) }
      | "next" => return { draft with next := some (← Reader.optional next) }
      | _ =>
        Reader.skip
        return draft
    let draft ← Reader.members Draft.accepts member (← Reader.rounds) true {}
    draft.complete

end Block

namespace Connection

/-- A connection of which some members have been read. -/
structure Draft where
  block : Option (Option Block) := none
  shadow : Option (Option Block) := none

namespace Draft

/-- Whether a member of this name may come now. -/
def accepts (draft : Draft) (name : String) : Bool :=
  match name with
  | "block" => draft.block.isNone
  | "shadow" => draft.shadow.isNone
  | _ => true

/-- The connection. -/
def complete (draft : Draft) : Connection :=
  ⟨draft.block.getD none, draft.shadow.getD none⟩

end Draft

/-- The two ways to write a connection, given a reader for blocks. -/
def ways (block : Reader Block) : Reader.Record Connection where
  inPlaces := do
    let draft : Draft := {
      block := ← Reader.nextItem true (Reader.optional block)
      shadow := ← Reader.nextItem false (Reader.optional block) }
    Reader.closeArray
    return draft.complete
  named := do
    let member (draft : Draft) (name : String) : Reader Draft := do
      match name with
      | "block" => return { draft with block := some (← Reader.optional block) }
      | "shadow" => return { draft with shadow := some (← Reader.optional block) }
      | _ =>
        Reader.skip
        return draft
    return (← Reader.members Draft.accepts member (← Reader.rounds) true {}).complete

end Connection

namespace Block

/-- The readers that a budget of open brackets gives. -/
structure Readers where
  block : Reader Block
  connection : Reader Connection
  /-- For the connections in a table that takes the first bracket; `none` if there is none to take. -/
  input : Option (Reader Connection)

/-- The readers for at most `budget` open brackets. Each is made of those for one bracket less. -/
def readers : Nat → Readers
  | 0 => ⟨Reader.record none, Reader.record none, none⟩
  | inner + 1 =>
    let deeper := readers inner
    { block := Reader.record (some (ways (Reader.table (Reader.within inner Reader.json))
        (Reader.table deeper.input) deeper.connection))
      connection := Reader.record (some (Connection.ways deeper.block))
      input := some deeper.connection }

/-- Reads a block in which at most `budget` brackets are open at once. -/
def reader (budget : Nat) : Reader Block :=
  (readers budget).block

end Block

/-- Reads a connection in which at most `budget` brackets are open at once. -/
def Connection.reader (budget : Nat) : Reader Connection :=
  (Block.readers budget).connection

end BlockSketch
