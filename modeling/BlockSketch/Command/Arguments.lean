/-!
# Arguments: reading the command line

The command takes an input path and perhaps an output path, and two options among them:
`--zero-based-index`, and `--indent` with a number. Options and paths come in any order, and after
`--` there are only paths.

Arguments are read one after the other. A path, or the number of `--indent`, is *pending* until the
next argument that is understood, or the end, settles it. So what is wrong with a value is reported
after what is wrong with the form of the argument right behind it.
-/

namespace BlockSketch

/-- What is wrong with a command line, or that help was asked for. -/
inductive UsageFault
  /-- Nothing is wrong: the user asks what the command does. -/
  | displayHelp
  /-- An option that is not known, or a path too many. -/
  | unknownArgument
  /-- An option is given twice. -/
  | argumentConflict
  /-- An option that takes no value has one. -/
  | tooManyValues
  /-- A value is missing or empty. -/
  | invalidValue
  /-- A value is not a number. -/
  | valueValidation
  /-- There is no input path. -/
  | missingRequiredArgument
deriving DecidableEq, Repr

/-- What the command line asks for. -/
structure Arguments where
  input : String
  output : Option String := none
  /-- Whether text positions are counted from zero, whatever the workspace says. -/
  zeroBased : Bool := false
  /-- The number of blanks in front of every line of the main loop. -/
  indent : Nat := 2
deriving DecidableEq, Repr

namespace Arguments

/-- A value that has been seen but not settled. -/
inductive Pending
  | nothing
  | path (text : String)
  | indent (text : Option String)

/-- What has been read of a command line. -/
structure Draft where
  input : Option String := none
  output : Option String := none
  zeroBased : Bool := false
  indent : Option Nat := none
  pending : Pending := .nothing
  /-- The number of paths, settled or not. -/
  paths : Nat := 0
  /-- Whether the next argument is the value of an option. -/
  wantsValue : Bool := false
  /-- Whether only paths follow. -/
  onlyPaths : Bool := false

/-- The bound of the numbers that are understood. -/
def numberBound : Nat := Nat.pow 2 64

/-- The number that a text denotes: digits, perhaps with a plus sign in front. -/
def number? (text : String) : Option Nat :=
  let digits :=
    match text.toList with
    | '+' :: digits => digits
    | digits => digits
  if digits.isEmpty || !digits.all Char.isDigit then none
  else
    let n := digits.foldl (fun n c => 10 * n + (c.toNat - 48)) 0
    if n < numberBound then some n else none

namespace Draft

/-- Settles the value of `--indent`. -/
def settleIndent (draft : Draft) (text : String) : Except UsageFault Draft :=
  if draft.indent.isSome then .error .argumentConflict
  else
    match number? text with
    | some n => .ok { draft with indent := some n }
    | none => .error .valueValidation

/-- Settles what is pending. -/
def settle (draft : Draft) : Except UsageFault Draft :=
  let settled := { draft with pending := .nothing }
  match draft.pending with
  | .nothing => .ok settled
  | .path text =>
    if text.isEmpty then .error .invalidValue
    else if draft.input.isNone then .ok { settled with input := some text }
    else .ok { settled with output := some text }
  | .indent none => .error .invalidValue
  | .indent (some text) => settled.settleIndent text

/-- Takes a path. -/
def takePath (draft : Draft) (text : String) : Except UsageFault Draft := do
  if 2 ≤ draft.paths then throw .unknownArgument
  let draft ← draft.settle
  return { draft with pending := .path text, paths := draft.paths + 1, wantsValue := false }

/-- Takes an option by its name, which may have a value attached. -/
def takeOption (draft : Draft) (name : String) (attached : Option String) :
    Except UsageFault Draft := do
  match name, attached with
  | "indent", some text =>
    let draft ← draft.settle
    let draft ← draft.settleIndent text
    return { draft with wantsValue := false }
  | "indent", none =>
    let draft ← draft.settle
    return { draft with pending := .indent none, wantsValue := true }
  | "zero-based-index", some _ => throw .tooManyValues
  | "zero-based-index", none =>
    let draft ← draft.settle
    if draft.zeroBased then throw .argumentConflict
    return { draft with zeroBased := true, wantsValue := false }
  | "help", some _ => throw .tooManyValues
  | "help", none =>
    let _ ← draft.settle
    throw .displayHelp
  | _, _ => throw .unknownArgument

/-- Takes the next argument. A single minus sign is a path like any other. -/
def take (draft : Draft) (argument : String) : Except UsageFault Draft := do
  if draft.onlyPaths then draft.takePath argument
  else
    match argument.toList with
    | ['-', '-'] => return { draft with onlyPaths := true }
    | '-' :: '-' :: option =>
      let name := String.ofList (option.takeWhile (· != '='))
      match option.dropWhile (· != '=') with
      | _ :: value => draft.takeOption name (some (String.ofList value))
      | [] => draft.takeOption name none
    | '-' :: 'h' :: _ =>
      let _ ← draft.settle
      throw .displayHelp
    | '-' :: _ :: _ => throw .unknownArgument
    | _ =>
      if draft.wantsValue then
        return { draft with pending := .indent (some argument), wantsValue := false }
      else draft.takePath argument

/-- What the command line asks for, when all arguments have been taken. -/
def complete (draft : Draft) : Except UsageFault Arguments := do
  let draft ← draft.settle
  match draft.input with
  | none => throw .missingRequiredArgument
  | some input =>
    return {
      input
      output := draft.output
      zeroBased := draft.zeroBased
      indent := draft.indent.getD 2 }

end Draft

/-- Reads a command line, without the name of the command. -/
def parse (arguments : List String) : Except UsageFault Arguments := do
  (← arguments.foldlM Draft.take {}).complete

end Arguments

end BlockSketch
