import BlockSketch.Json.Value

/-!
# Block: what the user has put together

A block has a type, fields with the settings made on it, sockets that other blocks are plugged into,
and a link to the block below it. A socket, and the link too, can hold two blocks: a real one and a
shadow, which counts only while there is no real one.

The type and the fields are the block's `Head`. They are all that a rule reads of the block itself.
-/

namespace BlockSketch

/-- The type of a block and its fields. -/
structure Block.Head where
  type : String
  fields : Table Json

mutual

/-- A block with everything that hangs on it. -/
structure Block where
  head : Block.Head
  id : Option String
  inputs : List (String × Connection)
  next : Option Connection

/-- What is plugged into a socket. -/
structure Connection where
  block : Option Block
  shadow : Option Block

end

namespace Connection

/-- The block that counts: the real one, or else the shadow. -/
def connected (c : Connection) : Option Block :=
  match c.block with
  | some block => some block
  | none => c.shadow

end Connection

namespace Block

/-- The type of a block. -/
abbrev type (b : Block) : String :=
  b.head.type

/-- The block in a socket. -/
def inSocket (b : Block) (socket : String) : Option Block :=
  (Table.get? b.inputs socket).bind Connection.connected

/-- The block right below. -/
def following (b : Block) : Option Block :=
  b.next.bind Connection.connected

/-- The block and all blocks below it, from the top. -/
def stack : Block → List Block
  | ⟨head, id, inputs, some ⟨some next, shadow⟩⟩ =>
    ⟨head, id, inputs, some ⟨some next, shadow⟩⟩ :: next.stack
  | ⟨head, id, inputs, some ⟨none, some next⟩⟩ =>
    ⟨head, id, inputs, some ⟨none, some next⟩⟩ :: next.stack
  | b => [b]

end Block

end BlockSketch
