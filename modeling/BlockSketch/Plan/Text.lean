import BlockSketch.Plan.Number

/-!
# Text: plans for blocks that work with texts

One plan for each kind of block. An empty socket counts as the empty text,
which is an object where its methods are wanted and a plain literal where it is an argument.

Positions are counted from the start of a text or from its end. From the end, the position is
subtracted from the length of the text, so the expression for the text stands twice in the code.
-/

namespace BlockSketch.Plan

/-- The text in a socket, as an object. -/
def askText (socket : String) (place : Precedence) : Plan Expr :=
  .ask socket place (.string "")

/-- The text in a socket, as an argument. -/
def askArgument (socket : String) : Plan Expr :=
  .ask socket .any (.literal "")

/-- A text as it was typed. -/
def literal (text : String) : Plan Code :=
  return .value ⟨.string text, .atomic⟩

/-- A variable that gets a text appended. The variable is asked for before the text. -/
def append : Plan Code := do
  let name ← .refer "VAR"
  let text ← askArgument "TEXT"
  return .statement (.assign name
    (.binary .add (.call "String" (.identifier name)) (.call "String" text)))

/-- The length of a text. -/
def length : Plan Code := do
  let text ← askText "VALUE" .functionCall
  return .value ⟨.method text "length", .member⟩

/-- Whether a text is empty. -/
def isEmpty : Plan Code := do
  let text ← askText "VALUE" .member
  return .value ⟨.not (.method text "length"), .unaryPrefix⟩

/-- The method that searches from an end. -/
def searchMethod : SearchEnd → String
  | .first => "indexOf"
  | .last => "lastIndexOf"

/-- The position of one text in another. Where positions are counted from one, one is added. -/
def indexOf (oneBased : Bool) (searchEnd : SearchEnd) : Plan Code := do
  let sought ← askArgument "FIND"
  let text ← askText "VALUE" .member
  let found : Expr := .methodOne text (searchMethod searchEnd) sought
  if oneBased then return .value ⟨.binary .add found (.nat 1), .additive⟩
  else return .value ⟨found, .functionCall⟩

/-- The position in a socket, counted from an end of `text`. -/
def position (origin : Origin) (socket : String) (text : Expr) : Plan Expr :=
  match origin with
  | .start => askNumber socket .any
  | .finish => do
    let a ← askNumber socket .additive
    return .binary .sub (.method text "length") a

/-- The character at a position. -/
def charAt (origin : Origin) : Plan Code := do
  let text ← askText "VALUE" .member
  let index ← position origin "AT" text
  return .value ⟨.methodOne text "charAt" index, .functionCall⟩

/-- The part of a text between two positions. -/
def substring (fromOrigin toOrigin : Origin) : Plan Code := do
  let text ← askText "STRING" .functionCall
  let first ← position fromOrigin "AT1" text
  let last ← position toOrigin "AT2" text
  return .value ⟨.methodTwo text "substring" first last, .functionCall⟩

/-- A text in other letters. Title case has no method and leaves the text as it is, whatever its
tier was. -/
def changeCase : CaseChange → Plan Code
  | .upper => do
    let text ← askText "TEXT" .member
    return .value ⟨.method text "toUpperCase", .functionCall⟩
  | .lower => do
    let text ← askText "TEXT" .member
    return .value ⟨.method text "toLowerCase", .functionCall⟩
  | .title => do
    let text ← askText "TEXT" .any
    return .value ⟨text, .any⟩

/-- A text without the blanks around it. -/
def trim : Plan Code := do
  let text ← askText "TEXT" .member
  return .value ⟨.method text "trim", .functionCall⟩

end BlockSketch.Plan
