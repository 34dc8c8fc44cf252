/-!
# Quoted: string literals of C

A text is written between double quotes, and the five characters that would end the literal, start
an escape or break the line are written as escapes: the backslash, the double quote, line feed,
carriage return and tab. Every other character, whatever its code point, stands for itself.

`Quoted.encode` works on characters, so that laws about it are laws about lists; `Text.quote` is
the same on strings.
-/

namespace BlockSketch.Text

namespace Quoted

/-- The characters that stand for one character inside a literal. -/
def escape : Char → List Char
  | '\\' => ['\\', '\\']
  | '"' => ['\\', '"']
  | '\n' => ['\\', 'n']
  | '\r' => ['\\', 'r']
  | '\t' => ['\\', 't']
  | c => [c]

/-- A literal: the text's characters, escaped, between double quotes. -/
def encode (text : List Char) : List Char :=
  '"' :: (text.flatMap escape ++ ['"'])

end Quoted

/-- The C string literal that denotes `text`. -/
def quote (text : String) : String :=
  String.ofList (Quoted.encode text.toList)

end BlockSketch.Text
