/-!
# Path: the places that paths name

A path is cut at its slashes into pieces; empty pieces count for nothing. The pieces `.` and `..`
are steps like names, since a path is walked piece by piece and each step starts at a directory.
-/

namespace BlockSketch

/-- A path, cut into pieces. -/
structure Path where
  /-- Whether the path starts at the root and not at the working directory. -/
  absolute : Bool
  pieces : List String
  /-- Whether a slash ends the path. -/
  slashed : Bool
deriving DecidableEq, Repr

namespace Path

/-- The pieces of a text; `pending` holds what has been read of the current one, last character
first. -/
def split (pending : List Char) : List Char → List String
  | [] => if pending.isEmpty then [] else [String.ofList pending.reverse]
  | c :: rest =>
    if c = '/' then
      if pending.isEmpty then split [] rest
      else String.ofList pending.reverse :: split [] rest
    else split (c :: pending) rest

/-- The path that a text gives. -/
def ofText (text : String) : Path where
  absolute := text.toList.head? == some '/'
  pieces := split [] text.toList
  slashed := text.toList.getLast? == some '/'

/-- The pieces without those that stay where they are; only at the very start of a relative path is
such a piece kept. -/
def steps (p : Path) : List String :=
  match p.absolute, p.pieces with
  | false, "." :: rest => "." :: rest.filter (· != ".")
  | _, pieces => pieces.filter (· != ".")

/-- A text, last character first, without the slashes at its end and without the pieces there that
stay where they are, unless such a piece is the whole text. -/
def trimEnd : List Char → List Char
  | '/' :: rest => trimEnd rest
  | '.' :: '/' :: rest => trimEnd rest
  | text => text

/-- The text that gives the directory in which the last step of a path is taken. It is empty if that
is the working directory or the root. -/
def parentText (text : String) : String :=
  let last := trimEnd text.toList.reverse
  String.ofList (trimEnd (last.dropWhile (· != '/'))).reverse

end Path

/-- A place among the directories: some levels above the working directory or at the root, and from
there down along names. -/
structure Place where
  /-- The levels above the working directory, or `none` for the root. -/
  above : Option Nat
  names : List String
deriving DecidableEq, Repr

namespace Place

/-- The working directory. -/
def working : Place := ⟨some 0, []⟩

/-- The root. -/
def root : Place := ⟨none, []⟩

/-- The place that one piece of a path leads to. The directory above the root is the root. -/
def step (place : Place) (piece : String) : Place :=
  if piece = "." then place
  else if piece = ".." then
    if place.names.isEmpty then { place with above := place.above.map (· + 1) }
    else { place with names := place.names.dropLast }
  else { place with names := place.names ++ [piece] }

/-- The place where walking along a path starts. -/
def start (p : Path) : Place :=
  if p.absolute then root else working

/-- The full path of a place, where `home` is that of the working directory. -/
def text (home : String) (place : Place) : String :=
  match place.above with
  | none => String.join (place.names.map ("/" ++ ·))
  | some levels =>
    home ++ String.join (List.replicate levels "/..") ++ String.join (place.names.map ("/" ++ ·))

end Place

end BlockSketch
