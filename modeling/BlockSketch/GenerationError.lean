/-!
# GenerationError: why a block has no code

The first error ends the generation. Each names the type of the block it was found in, as the
workspace has it, or the part of the workspace that is missing.
-/

namespace BlockSketch

/-- What is wrong with a block. -/
inductive GenerationError
  /-- A selector has a value that its rule does not know. -/
  | unknownOperator (blockType operator : String)
  /-- A position or direction has a value that its rule does not handle. -/
  | unhandledOption (blockType option : String)
  /-- No rule is known for the type. -/
  | unknownBlockType (blockType : String)
  /-- A field is absent or has the wrong kind of value. -/
  | missingField (blockType field : String)
  /-- A number field does not hold a number. -/
  | invalidNumber (blockType field value : String)
  /-- A statement stands where a value is needed. -/
  | expectedValue (blockType : String)
  /-- A reference names a variable that the workspace does not have. -/
  | unknownVariable (id : String)
deriving DecidableEq, Repr

namespace GenerationError

/-- The wording of an error. -/
def message : GenerationError → String
  | unknownOperator blockType operator => "Unknown " ++ blockType ++ " operator '" ++ operator ++ "'."
  | unhandledOption blockType option => "Unhandled option '" ++ option ++ "' (" ++ blockType ++ ")."
  | unknownBlockType blockType => "Unknown block type '" ++ blockType ++ "'."
  | missingField blockType field =>
    "Block '" ++ blockType ++ "' is missing field '" ++ field ++ "'."
  | invalidNumber blockType field value =>
    "Invalid number '" ++ value ++ "' in field '" ++ field ++ "' of '" ++ blockType ++ "'."
  | expectedValue blockType =>
    "Block '" ++ blockType ++ "' is a statement and cannot be used as a value."
  | unknownVariable id => "Variable id '" ++ id ++ "' is not declared in the workspace."

end GenerationError

end BlockSketch
