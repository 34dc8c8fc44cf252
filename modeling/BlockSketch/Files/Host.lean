/-!
# Host: what the program needs of its surroundings

The command reads one file, may write another, and prints. `Host` is the interface for that: the
program is written for any host, runs on the file system of a computer, and is reasoned about on a
`FileTree`.
-/

namespace BlockSketch

/-- Why an operation on files failed. -/
inductive FileFault
  | notFound
  | notADirectory
  | isADirectory
  | alreadyExists
  /-- The content is no text. -/
  | invalidData
  /-- The path cannot be the path of anything. -/
  | invalidInput
  /-- The path, or a name in it, is longer than paths and names may be. -/
  | nameTooLong
  | other
deriving DecidableEq, Repr

/-- The operations of a host. Texts are files' contents, and paths are as the user gives them. -/
class Host (m : Type → Type) where
  /-- The full path of the regular file at a path, if there is one. -/
  find : String → m (Option String)
  /-- The content of the file at a path. -/
  read : String → m (Except FileFault String)
  /-- Creates the directories that a file at this path would lie in, as far as they are missing. -/
  makeParent : String → m (Except FileFault Unit)
  /-- Gives the file at a path a content, and creates it if it is missing. -/
  write : String → String → m (Except FileFault Unit)
  /-- Prints a text that is the program's result. -/
  print : String → m Unit
  /-- Prints a text for the user to follow the work. -/
  note : String → m Unit

/-- Work that may fail has the operations of the host that it is done on. -/
instance {ε : Type} {m : Type → Type} [Monad m] [Host m] : Host (ExceptT ε m) where
  find path := ExceptT.lift (Host.find path)
  read path := ExceptT.lift (Host.read path)
  makeParent path := ExceptT.lift (Host.makeParent path)
  write path content := ExceptT.lift (Host.write path content)
  print text := ExceptT.lift (Host.print text)
  note text := ExceptT.lift (Host.note text)

end BlockSketch
