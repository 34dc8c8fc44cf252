/-!
# Identifier: names that C accepts

A user may name a variable with any text. `Identifier.ofName` makes a C identifier of it, character
by character: what may not stand in an identifier becomes an underscore. Different names can become
the same identifier; keeping them apart is the registry's work.
-/

namespace BlockSketch.Identifier

/-- Whether a character may stand in an identifier: the letters and digits of ASCII and the
underscore. -/
def isPart (c : Char) : Bool :=
  c.isAlphanum || c == '_'

/-- The identifier made of a name. An empty name has a word of its own, and a digit in front is
not left there. -/
def ofName (name : String) : String :=
  match name.toList with
  | [] => "unnamed"
  | c :: rest =>
    let cleaned := String.ofList ((c :: rest).map fun c => if isPart c then c else '_')
    if c.isDigit then "my_" ++ cleaned else cleaned

end BlockSketch.Identifier
