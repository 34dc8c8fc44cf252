import BlockSketch.Block.Basic
import BlockSketch.GenerationError
import BlockSketch.Json.Printer
import BlockSketch.Text.Blank

/-!
# Field: reading the settings of a block

Most fields are wanted as a text: the setting of a drop-down list, or what the user typed. A number
field takes a number or a text that holds one. A reference names a variable, either by its identity
in the workspace or by its name.
-/

namespace BlockSketch.Block.Head

/-- The value of a field. -/
def field? (head : Head) (field : String) : Option Json :=
  Table.get? head.fields field

/-- The text of a field with a scalar value. -/
def text? (head : Head) (field : String) : Option String :=
  (head.field? field).bind Json.scalarText?

/-- The text of a field that must have one. -/
def text (head : Head) (field : String) : Except GenerationError String :=
  match head.text? field with
  | some text => .ok text
  | none => .error (.missingField head.type field)

/-- The setting of a field that selects one of several operators. -/
def selector {α : Type} (head : Head) (field : String) (ofField? : String → Option α) :
    Except GenerationError α := do
  let text ← head.text field
  match ofField? text with
  | some a => return a
  | none => throw (.unknownOperator head.type text)

/-- The number in a field. A text is read without the blanks around it, and every other value as it
is printed; it must denote a finite double. -/
def number (head : Head) (field : String) : Except GenerationError Binary64 :=
  match head.field? field with
  | none => .error (.missingField head.type field)
  | some value =>
    let written :=
      match value with
      | .string s => Text.trim s.toList
      | other => other.chars
    match Binary64.ofChars? written with
    | some v => .ok v
    | none => .error (.invalidNumber head.type field (String.ofList written))

/-- The name of the variable that a field refers to, where `declared` has the names of the declared
variables by their identities. A plain text is an identity if it is declared and a name otherwise;
an object has an identity, which must be declared, or a name. -/
def reference (declared : Table String) (head : Head) (field : String) :
    Except GenerationError String :=
  match head.field? field with
  | some (.string s) => .ok ((Table.get? declared s).getD s)
  | some (.object members) =>
    match (Table.get? members "id").bind Json.string? with
    | some id =>
      match Table.get? declared id with
      | some name => .ok name
      | none => .error (.unknownVariable id)
    | none =>
      match (Table.get? members "name").bind Json.string? with
      | some name => .ok name
      | none => .error (.missingField head.type field)
  | _ => .error (.missingField head.type field)

end BlockSketch.Block.Head
