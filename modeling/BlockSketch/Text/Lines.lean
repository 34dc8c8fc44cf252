/-!
# Lines: cutting a text into lines and indenting them

A line ends at a line feed, and a carriage return right before that line feed belongs to the ending
and not to the line. Text after the last line feed is a line of its own, unless it is empty; a
carriage return that ends the whole text without a line feed stays.
-/

namespace BlockSketch.Text

namespace Lines

/-- A line without the carriage return that may end it. -/
def dropReturn (line : List Char) : List Char :=
  if line.getLast? = some '\r' then line.dropLast else line

/-- The lines of a text; `pending` holds what has been read of the current line, last character
first. -/
def split (pending : List Char) : List Char → List (List Char)
  | [] => if pending.isEmpty then [] else [pending.reverse]
  | c :: rest =>
    if c = '\n' then dropReturn pending.reverse :: split [] rest
    else split (c :: pending) rest

end Lines

/-- The lines of a text, without their endings. -/
def lines (text : List Char) : List (List Char) :=
  Lines.split [] text

/-- One line with `indent` in front of it and a line feed behind it; an empty line stays empty. -/
def indentLine (indent line : List Char) : List Char :=
  (if line.isEmpty then [] else indent) ++ line ++ ['\n']

/-- Every line of a text, indented. -/
def indentLines (indent text : List Char) : List Char :=
  (lines text).flatMap (indentLine indent)

end BlockSketch.Text
