import BlockSketch.Command.Run
import BlockSketch.Files.Path

/-!
# Main: the command on a computer

The host whose files are those of the computer, and the program around it: a wrong command line and
a failure are told on the error output and by the exit code.
-/

namespace BlockSketch

/-- What an error of the operating system means to us. -/
def FileFault.ofError : IO.Error → FileFault
  | .noFileOrDirectory .. => .notFound
  | .alreadyExists .. => .alreadyExists
  | .inappropriateType .. => .notADirectory
  | .invalidArgument .. => .invalidInput
  | _ => .other

/-- Does something with files and answers with the fault if it fails. -/
def tellFault {α : Type} (action : IO α) : IO (Except FileFault α) := do
  try
    return .ok (← action)
  catch e =>
    return .error (.ofError e)

instance : Host IO where
  find path := do
    try
      let full ← IO.FS.realPath path
      if (← full.metadata).type == .file then return some full.toString else return none
    catch _ => return none
  read path := do
    match ← tellFault (IO.FS.readBinFile path) with
    | .error fault => return .error fault
    | .ok content =>
      match String.fromUTF8? content with
      | some text => return .ok text
      | none => return .error .invalidData
  makeParent path := tellFault do
    let parent := Path.parentText path
    if !parent.isEmpty then IO.FS.createDirAll parent
  write path content := tellFault (IO.FS.writeBinFile path content.toUTF8)
  print text := do
    (← IO.getStdout).putStr text
  note text := do
    (← IO.getStderr).putStr text

/-- What the command does, in a few lines. -/
def helpText : String :=
  "Generate an Arduino sketch from a Blockly workspace (JSON serialization).\n\n" ++
    "Usage: blocksketch [OPTIONS] <INPUT> [OUTPUT]\n\n" ++
    "  --zero-based-index  Generate zero-based text indices, overriding the workspace setting.\n" ++
    "  --indent <N>        Spaces used to indent the loop() body. [default: 2]\n" ++
    "  -h, --help          Print help\n"

end BlockSketch

open BlockSketch in
/-- The program. -/
def main (arguments : List String) : IO UInt32 := do
  match Arguments.parse arguments with
  | .error .displayHelp =>
    IO.print helpText
    return 0
  | .error _ =>
    IO.eprint helpText
    return 2
  | .ok arguments =>
    match ← (Command.run arguments : ExceptT Failure IO Unit).run with
    | .ok () => return 0
    | .error failure =>
      IO.eprintln ("Error: " ++ ": ".intercalate failure.messages)
      return 1
