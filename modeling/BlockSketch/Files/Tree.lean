import BlockSketch.Files.Host
import BlockSketch.Files.Path

/-!
# Tree: a file system as a value

A `FileTree` says what lies where. The working directory, the directories above it and the root
always exist; everything else is listed. Paths are walked as an operating system walks them: every
piece must start from a directory, so `file/..` and `missing/..` lead nowhere, and a slash at the end
demands a directory. Names and paths have a greatest length, counted in bytes.

`World` is a tree together with what has been printed, and is a `Host`.
-/

namespace BlockSketch

/-- What lies at a place. -/
inductive FileTree.Entry
  | file (content : ByteArray)
  | directory

/-- Directories and files. -/
structure FileTree where
  /-- The full path of the working directory. -/
  home : String
  entries : List (Place × FileTree.Entry)

namespace FileTree

/-- What lies at a place, if anything does. -/
def entry? (tree : FileTree) (place : Place) : Option Entry :=
  if place.names.isEmpty then some .directory else tree.entries.lookup place

/-- Puts something at a place, in place of what was there. -/
def put (tree : FileTree) (place : Place) (entry : Entry) : FileTree :=
  { tree with
    entries := tree.entries.filter (fun other => other.1 != place) ++ [(place, entry)] }

/-- The greatest length of a name. -/
def nameLimit : Nat := 255

/-- The greatest length of a path. -/
def pathLimit : Nat := 4095

/-- Looks for what lies at a place. Nothing has a name that is too long, and looking for one is a
fault. -/
def look (tree : FileTree) (place : Place) : Except FileFault (Option Entry) :=
  if place.names.getLast?.any (nameLimit < ·.utf8ByteSize) then .error .nameTooLong
  else .ok (tree.entry? place)

/-- Whether a directory lies at a place; if not, why it cannot be walked on from there. -/
def enter (tree : FileTree) (place : Place) : Except FileFault Unit := do
  match ← tree.look place with
  | some .directory => return ()
  | some (.file _) => throw .notADirectory
  | none => throw .notFound

/-- Walks from a place along pieces. There need not be anything at the end. -/
def walk (tree : FileTree) : List String → Place → Except FileFault Place
  | [], place => .ok place
  | piece :: rest, place => do
    tree.enter place
    tree.walk rest (place.step piece)

/-- Refuses texts that cannot be paths. -/
def checkText (text : String) : Except FileFault Unit :=
  if text.isEmpty then .error .notFound
  else if text.toList.contains '\x00' then .error .invalidInput
  else if pathLimit < text.utf8ByteSize then .error .nameTooLong
  else .ok ()

/-- What lies at the end of a path, and where that is. -/
def locate (tree : FileTree) (text : String) : Except FileFault (Place × Entry) := do
  checkText text
  let path := Path.ofText text
  let place ← tree.walk path.pieces (Place.start path)
  if path.slashed then tree.enter place
  match ← tree.look place with
  | some entry => return (place, entry)
  | none => throw .notFound

/-- The full path of the regular file at a path, if there is one. -/
def find (tree : FileTree) (text : String) : Option String :=
  match tree.locate text with
  | .ok (place, .file _) => some (place.text tree.home)
  | _ => none

/-- The text in the file at a path. -/
def read (tree : FileTree) (text : String) : Except FileFault String := do
  match ← tree.locate text with
  | (_, .directory) => throw .isADirectory
  | (_, .file content) =>
    match String.fromUTF8? content with
    | some content => return content
    | none => throw .invalidData

/-- Gives the file at a path a content. A slash at the end of the path makes it a directory's. -/
def write (tree : FileTree) (text content : String) : Except FileFault FileTree := do
  checkText text
  let path := Path.ofText text
  if path.slashed then
    let place ← tree.walk path.pieces.dropLast (Place.start path)
    tree.enter place
    throw .isADirectory
  else
    let place ← tree.walk path.pieces (Place.start path)
    match ← tree.look place with
    | some .directory => throw .isADirectory
    | _ => return tree.put place (.file content.toUTF8)

/-! ### Creating directories -/

/-- Creates one directory, in a directory that exists. -/
def makeDirectory (tree : FileTree) (start : Place) (steps : List String) :
    Except FileFault FileTree := do
  let place ← tree.walk steps start
  match ← tree.look place with
  | some _ => throw .alreadyExists
  | none => return tree.put place .directory

/-- Whether the steps lead to a directory. -/
def isDirectory (tree : FileTree) (start : Place) (steps : List String) : Bool :=
  match tree.walk steps start with
  | .ok place => (tree.enter place).isOk
  | .error _ => false

/-- One directory, created if it is not there; the answer tells why it could not be. -/
def ensureDirectory (tree : FileTree) (start : Place) (steps : List String) :
    Except FileFault Unit × FileTree :=
  match tree.makeDirectory start steps with
  | .ok tree => (.ok (), tree)
  | .error fault => (if tree.isDirectory start steps then .ok () else .error fault, tree)

/-- All directories along some steps, the last step first. A directory is tried first, and those
before it only if it lies in none. What has been created stays if a later one fails. -/
def ensureDirectories (tree : FileTree) (start : Place) :
    List String → Except FileFault Unit × FileTree
  | [] => (.ok (), tree)
  | last :: before =>
    match tree.ensureDirectory start (last :: before).reverse with
    | (.error .notFound, _) =>
      match tree.ensureDirectories start before with
      | (.ok (), tree) => tree.ensureDirectory start (last :: before).reverse
      | failed => failed
    | result => result

/-- The directories that a file at a path would lie in, created as far as they are missing. -/
def makeParent (tree : FileTree) (text : String) : Except FileFault Unit × FileTree :=
  let parent := Path.parentText text
  if parent.isEmpty then (.ok (), tree)
  else
    match checkText parent with
    | .error fault => (.error fault, tree)
    | .ok () =>
      let path := Path.ofText parent
      tree.ensureDirectories (Place.start path) path.steps.reverse

end FileTree

/-- A file system and what has been printed. -/
structure World where
  files : FileTree
  printed : String := ""
  noted : String := ""

namespace World

instance : Host (StateM World) where
  find path := return (← get).files.find path
  read path := return (← get).files.read path
  makeParent path := modifyGet fun world =>
    let (result, files) := world.files.makeParent path
    (result, { world with files })
  write path content := modifyGet fun world =>
    match world.files.write path content with
    | .ok files => (.ok (), { world with files })
    | .error fault => (.error fault, world)
  print text := modify fun world => { world with printed := world.printed ++ text }
  note text := modify fun world => { world with noted := world.noted ++ text }

end World

end BlockSketch
