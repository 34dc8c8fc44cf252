import BlockSketch.Proofs.Json.Renderings
import BlockSketch.Workspace.Basic

/-!
# How a workspace may be written

A workspace is made of records: the workspace itself, the record around its topmost blocks, that of
its options, its variables, its blocks, and the connections between them. Here each of them has its
members, with the names they go by, the texts of their values, and the values that may be left out.

Blocks stand inside connections and connections inside blocks, always with a bracket in between, so
their texts are told together and by the number of brackets: `Block.texts`.

`Workspace.Renders` is about whole texts. It goes by the format alone; nothing here refers to how a
text is read.
-/

namespace BlockSketch

/-- What stands behind a bracket, if there is one left to open. -/
def Json.Inside (budget : Nat) (P : Nat → Prop) : Prop :=
  ∃ inner, budget = inner + 1 ∧ P inner

/-! ### Blocks -/

/-- The texts of blocks, of connections, and of what a block has in its sockets. -/
structure Block.Texts where
  block : List Char → Block → Prop
  connection : List Char → Connection → Prop
  inputs : List Char → Table Connection → Prop

/-- The members of a block, given the texts with one bracket less. -/
def Block.members (inner : Nat) (deeper : Texts) (b : Block) : List Json.Field :=
  [⟨"type", (Json.StringText · b.type), False⟩,
   ⟨"id", (Json.OptionText Json.StringText · b.id), b.id = none⟩,
   ⟨"fields", (Json.ValueText inner · (.object b.head.fields)), b.head.fields = []⟩,
   ⟨"inputs", (deeper.inputs · b.inputs), b.inputs = []⟩,
   ⟨"next", (Json.OptionText deeper.connection · b.next), b.next = none⟩]

/-- The members of a connection, given how blocks are written. -/
def Connection.members (block : List Char → Block → Prop) (c : Connection) : List Json.Field :=
  [⟨"block", (Json.OptionText block · c.block), c.block = none⟩,
   ⟨"shadow", (Json.OptionText block · c.shadow), c.shadow = none⟩]

/-- The texts in which at most so many brackets are open at once. -/
def Block.texts : Nat → Texts
  | 0 => ⟨fun _ _ => False, fun _ _ => False, fun _ _ => False⟩
  | inner + 1 =>
    let deeper := texts inner
    { block := fun chars b => Json.RecordText (b.members inner deeper) chars
      connection := fun chars c => Json.RecordText (c.members deeper.block) chars
      inputs := Json.TableText deeper.connection }

/-! ### Variables -/

/-- The members of a variable. -/
def Declared.members (v : Declared) : List Json.Field :=
  [⟨"name", (Json.StringText · v.name), False⟩,
   ⟨"id", (Json.StringText · v.id), False⟩,
   ⟨"type", (Json.StringText · v.type), v.type = ""⟩]

/-- A variable. -/
def Declared.Text (budget : Nat) (chars : List Char) (v : Declared) : Prop :=
  Json.Inside budget fun _ => Json.RecordText v.members chars

/-! ### Workspaces -/

namespace Workspace

/-- The record around the topmost blocks. -/
def BlocksText (budget : Nat) (chars : List Char) (blocks : List Block) : Prop :=
  Json.Inside budget fun inner =>
    Json.RecordText
      [⟨"blocks", fun chars =>
          Json.Inside inner fun inner => Json.ArrayText (Block.texts inner).block chars blocks,
        blocks = []⟩]
      chars

/-- The list of the variables. -/
def VariablesText (budget : Nat) (chars : List Char) (declared : List Declared) : Prop :=
  Json.Inside budget fun inner => Json.ArrayText (Declared.Text inner) chars declared

/-- A choice, as a truth value. -/
def FlagText (chars : List Char) (b : Bool) : Prop :=
  Json.ValueText 0 chars (.bool b)

/-- The record of the options. -/
def OptionsText (budget : Nat) (chars : List Char) (oneBased : Option Bool) : Prop :=
  Json.Inside budget fun _ =>
    Json.RecordText [⟨"oneBasedIndex", (Json.OptionText FlagText · oneBased), oneBased = none⟩] chars

/-- The members of a workspace. -/
def members (inner : Nat) (w : Workspace) : List Json.Field :=
  [⟨"blocks", (BlocksText inner · w.blocks), w.blocks = []⟩,
   ⟨"variables", (VariablesText inner · w.declared), w.declared = []⟩,
   ⟨"options", (OptionsText inner · w.oneBased), w.oneBased = none⟩]

/-- A workspace. -/
def Text (budget : Nat) (chars : List Char) (w : Workspace) : Prop :=
  Json.Inside budget fun inner => Json.RecordText (w.members inner) chars

/-- The text is one of those of a workspace: fewer than 128 brackets are open at once, and blanks may
stand around it. -/
def Renders (text : String) (w : Workspace) : Prop :=
  ∃ before chars after, Json.Gap before ∧ Text 127 chars w ∧ Json.Gap after ∧
    text.toList = before ++ (chars ++ after)

end Workspace

end BlockSketch
