import BlockSketch.Proofs.Json.Loops
import BlockSketch.Workspace.Reader

/-!
# The records of a workspace

Blocks, links, variables and workspaces are records, and each of them is read by one loop over its
members. Here the loops are given by what they do with a single member (`Block.readMember` and its
kin), which is the form that `Reader.reads_record` and `Reader.refuses_record` ask for.

`Block.reader_succ` and `Connection.reader_succ` say how the brackets are counted: a record takes one
of them, and what is left is for its members.
-/

namespace BlockSketch

open Reader (Reads Refuses)

variable {ms : List (String × Json)} {fault : Fault}

/-! ### Blocks -/

namespace Block

/-- Reads the value of a member of a block into what has been read so far. -/
def readMember (fields : Reader (Table Json)) (inputs : Reader (Table Connection))
    (next : Reader Connection) (draft : Draft) (name : String) : Reader Draft :=
  match name with
  | "type" => return { draft with type := some (← Reader.text) }
  | "id" => return { draft with id := some (← Reader.optional Reader.text) }
  | "fields" => return { draft with fields := some (← fields) }
  | "inputs" => return { draft with inputs := some (← inputs) }
  | "next" => return { draft with next := some (← Reader.optional next) }
  | _ => do
    Reader.skip
    return draft

variable {fields : Reader (Table Json)} {inputs : Reader (Table Connection)}
  {next : Reader Connection}

theorem named_eq : (ways fields inputs next).named = (do
    Draft.complete (← Reader.members Draft.accepts (readMember fields inputs next)
      (← Reader.rounds) true {})) :=
  rfl

/-- The readers for a positive budget are made of those for one bracket less. -/
theorem reader_succ (inner : Nat) :
    reader (inner + 1) = Reader.record (some (ways (Reader.table (Reader.within inner Reader.json))
      (Reader.table (readers inner).input) (Connection.reader inner))) :=
  rfl

/-- The link of a block. -/
theorem reads_next {link : Connection} (h : Reads next (Json.object ms).chars link)
    (draft : Draft) :
    Reads (readMember fields inputs next draft "next") (Json.object ms).chars
      { draft with next := some (some link) } :=
  h.optional_object.map fun link => ({ draft with next := some link } : Draft)

theorem refuses_next (h : Refuses next (Json.object ms).chars fault) (draft : Draft) :
    Refuses (readMember fields inputs next draft "next") (Json.object ms).chars fault :=
  h.optional_object.map fun link => ({ draft with next := some link } : Draft)

end Block

/-! ### Links -/

namespace Connection

/-- Reads the value of a member of a connection into what has been read so far. -/
def readMember (block : Reader Block) (draft : Draft) (name : String) : Reader Draft :=
  match name with
  | "block" => return { draft with block := some (← Reader.optional block) }
  | "shadow" => return { draft with shadow := some (← Reader.optional block) }
  | _ => do
    Reader.skip
    return draft

theorem named_eq (block : Reader Block) : (ways block).named = (do
    let draft ← Reader.members Draft.accepts (readMember block) (← Reader.rounds) true {}
    return draft.complete) :=
  rfl

theorem reader_succ (inner : Nat) :
    reader (inner + 1) = Reader.record (some (ways (Block.reader inner))) :=
  rfl

variable {budget : Nat}

/-- A link with a real block takes one bracket more than the block. -/
theorem reads_block {b : Block} (h : Reads (Block.reader budget) (Json.object ms).chars b) :
    Reads (reader (budget + 1)) (Json.object [("block", .object ms)]).chars ⟨some b, none⟩ := by
  have hblock : Reads (readMember (Block.reader budget) {} "block") (Json.object ms).chars
      { block := some (some b) } :=
    h.optional_object.map fun b => ({ block := some b } : Draft)
  rw [reader_succ]
  exact Reader.reads_record (named_eq _) (.cons rfl hblock (.nil _)) rfl

theorem refuses_block (h : Refuses (Block.reader budget) (Json.object ms).chars fault) :
    Refuses (reader (budget + 1)) (Json.object [("block", .object ms)]).chars fault := by
  have hblock : Refuses (readMember (Block.reader budget) {} "block") (Json.object ms).chars fault :=
    h.optional_object.map fun b => ({ block := some b } : Draft)
  rw [reader_succ]
  exact Reader.refuses_record (named_eq _) (.nil _) rfl hblock []

end Connection

/-! ### Variables -/

namespace Declared

/-- Reads the value of a member of a variable into what has been read so far. -/
def readMember (draft : Draft) (name : String) : Reader Draft :=
  match name with
  | "name" => return { draft with name := some (← Reader.text) }
  | "id" => return { draft with id := some (← Reader.text) }
  | "type" => return { draft with type := some (← Reader.text) }
  | _ => do
    Reader.skip
    return draft

theorem named_eq : ways.named = (do
    Draft.complete (← Reader.members Draft.accepts readMember (← Reader.rounds) true {})) :=
  rfl

theorem reader_succ (inner : Nat) : reader (inner + 1) = Reader.record (some ways) :=
  rfl

end Declared

/-! ### Workspaces -/

namespace Workspace

/-- Reads the value of a member of a workspace into what has been read so far. -/
def readMember (inner : Nat) (draft : Draft) (name : String) : Reader Draft :=
  match name with
  | "blocks" => return { draft with blocks := some (← blocksReader inner) }
  | "variables" => return { draft with declared := some (← variablesReader inner) }
  | "options" => return { draft with options := some (← optionsReader inner) }
  | _ => do
    Reader.skip
    return draft

theorem named_eq (inner : Nat) : (ways inner).named = (do
    let draft ← Reader.members Draft.accepts (readMember inner) (← Reader.rounds) true {}
    return draft.complete) :=
  rfl

theorem reader_succ (inner : Nat) : reader (inner + 1) = Reader.record (some (ways inner)) :=
  rfl

variable {α : Type} {name : String} {member : Reader α} {v : Json}

/-- Reads the value of a member of a record with one member. -/
def readSole (name : String) (member : Reader α) (soFar : Option α) (other : String) :
    Reader (Option α) := do
  if other = name then return some (← member)
  else
    Reader.skip
    return soFar

theorem soleMember_named_eq (name : String) (member : Reader α) (missing : α) (needed : Bool) :
    (soleMember name member missing needed).named = (do
      let value ← Reader.members (fun soFar other => other != name || soFar.isNone)
        (readSole name member) (← Reader.rounds) true none
      return value.getD missing) :=
  rfl

theorem reads_sole {a : α} (h : Reads member v.chars a) (soFar : Option α) :
    Reads (readSole name member soFar name) v.chars (some a) := by
  rw [readSole, if_pos rfl]
  exact h.map some

theorem refuses_sole (h : Refuses member v.chars fault) (soFar : Option α) :
    Refuses (readSole name member soFar name) v.chars fault := by
  rw [readSole, if_pos rfl]
  exact h.map some

/-- The record around the topmost blocks takes one bracket, and their list another. -/
theorem blocksReader_eq (budget : Nat) :
    blocksReader (budget + 2) = Reader.record (some
      (soleMember "blocks" (Reader.list (some (Block.reader budget))) [] false)) :=
  rfl

end Workspace

end BlockSketch
