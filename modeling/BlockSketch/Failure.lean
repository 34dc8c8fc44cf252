import BlockSketch.Files.Host
import BlockSketch.GenerationError
import BlockSketch.Sketch
import BlockSketch.Workspace.Reader

/-!
# Failure: why there is no sketch

A failure has a cause and the circumstances in which it came up, outermost first.
`Workspace.sketchOfText` is the way from the text of a workspace to its sketch, with the options that
the workspace has.
-/

namespace BlockSketch

/-- What went wrong. -/
inductive Cause
  /-- The text is no workspace. -/
  | reading (fault : Fault)
  /-- A block has no code. -/
  | generation (error : GenerationError)
  /-- An operation on files failed. -/
  | file (fault : FileFault)
  /-- There is no file to read. -/
  | noInput (path : String)
deriving DecidableEq, Repr

namespace Cause

/-- The wording of a cause. The reader of texts and the operating system have words of their own,
which are not ours to choose. -/
def message? : Cause → Option String
  | reading _ => none
  | generation error => some error.message
  | file _ => none
  | noInput path => some ("Input file not found: '" ++ path ++ "'.")

end Cause

/-- A cause and its circumstances, outermost first. -/
structure Failure where
  circumstances : List String := []
  cause : Cause
deriving DecidableEq, Repr

namespace Failure

/-- The failure, told with one more circumstance around it. -/
def within (circumstance : String) (failure : Failure) : Failure :=
  { failure with circumstances := circumstance :: failure.circumstances }

/-- All that there is to say, outermost first. -/
def messages (failure : Failure) : List String :=
  failure.circumstances ++ failure.cause.message?.toList

end Failure

namespace Workspace

/-- Reads a workspace. -/
def ofText (source : String) : Except Failure Workspace :=
  match parse source with
  | .ok workspace => .ok workspace
  | .error fault => .error ⟨["Invalid workspace JSON."], .reading fault⟩

/-- Makes the sketch of a workspace. -/
def sketchWith (w : Workspace) (options : Options) : Except Failure String :=
  match w.sketch options with
  | .ok text => .ok text
  | .error error => .error ⟨[], .generation error⟩

/-- The sketch of the workspace that a text describes, with the options that it asks for. -/
def sketchOfText (source : String) : Except Failure String := do
  let w ← ofText source
  w.sketchWith (.ofWorkspace w)

end Workspace

end BlockSketch
