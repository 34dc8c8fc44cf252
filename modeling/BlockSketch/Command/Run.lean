import BlockSketch.Command.Arguments
import BlockSketch.Failure
import BlockSketch.Files.Host

/-!
# Run: the command

The command finds its input file, reads the workspace in it, makes the sketch, and prints it or
writes it to the output file. Each of these stages is announced by a line that shows how far the work
is. Nothing is printed or written before the sketch is complete.

`sketchOfFile` is the same without the announcements and with the options of the workspace alone.
-/

namespace BlockSketch

namespace Progress

/-- The length of the bar. -/
def width : Nat := 14

/-- A bar that is filled as far as `step` of `total` stages are reached, rounded to the nearest
mark. -/
def bar (step total : Nat) : String :=
  let filled := (step * width + total / 2) / total
  String.ofList
    ('[' :: ((List.range width).map fun i => if i < filled then '=' else '-') ++ [']'])

/-- The line that announces a stage. -/
def line (step total : Nat) (stage : String) : String :=
  "[Generate] " ++ stage ++ "... (" ++ toString step ++ "/" ++ toString total ++ ") " ++
    bar step total ++ "\n"

end Progress

namespace Command

variable {m : Type → Type} [Monad m] [Host m]

/-- Finds the input file; the answer is its full path. -/
def findInput (path : String) : ExceptT Failure m String := do
  match ← Host.find path with
  | some full => return full
  | none => throw ⟨[], .noInput path⟩

/-- Reads the workspace in the input file, whose full path is `full`. -/
def readWorkspace (path full : String) : ExceptT Failure m Workspace := do
  match ← Host.read path with
  | .error fault => throw ⟨["Failed to read '" ++ full ++ "'."], .file fault⟩
  | .ok source =>
    match Workspace.ofText source with
    | .ok workspace => return workspace
    | .error failure => throw (failure.within ("While reading '" ++ full ++ "'."))

/-- Makes the sketch of the workspace in the file with the full path `full`. -/
def makeSketch (full : String) (workspace : Workspace) (options : Options) :
    ExceptT Failure m String :=
  match workspace.sketchWith options with
  | .ok sketch => return sketch
  | .error failure => throw (failure.within ("Code generation failed for '" ++ full ++ "'."))

/-- The sketch of the workspace in a file, with the options that the workspace asks for. -/
def sketchOfFile (path : String) : ExceptT Failure m String := do
  let full ← findInput path
  let workspace ← readWorkspace path full
  makeSketch full workspace (.ofWorkspace workspace)

/-- The options of a workspace, as far as the command line does not say otherwise. -/
def options (arguments : Arguments) (workspace : Workspace) : Options where
  oneBased := !arguments.zeroBased && (Options.ofWorkspace workspace).oneBased
  indent := String.ofList (List.replicate arguments.indent ' ')

/-- Writes the sketch to the output file, in a directory that is created if need be. -/
def writeSketch (output sketch : String) : ExceptT Failure m Unit := do
  match ← Host.makeParent output with
  | .error fault => throw ⟨[], .file fault⟩
  | .ok () => pure ()
  match ← Host.write output sketch with
  | .error fault => throw ⟨["Failed to write '" ++ output ++ "'."], .file fault⟩
  | .ok () => pure ()

/-- Carries out what the command line asks for. -/
def run (arguments : Arguments) : ExceptT Failure m Unit := do
  let total := if arguments.output.isSome then 4 else 3
  Host.note (Progress.line 1 total "Resolving input path")
  let full ← findInput arguments.input
  Host.note (Progress.line 2 total "Reading workspace")
  let workspace ← readWorkspace arguments.input full
  Host.note (Progress.line 3 total "Generating Arduino code")
  let sketch ← makeSketch full workspace (options arguments workspace)
  match arguments.output with
  | none => Host.print sketch
  | some output =>
    Host.note (Progress.line 4 total "Writing sketch")
    writeSketch output sketch

end Command

end BlockSketch
