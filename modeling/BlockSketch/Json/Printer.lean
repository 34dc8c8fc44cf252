import BlockSketch.Decimal.Layout
import BlockSketch.Json.Value

/-!
# Printer: JSON values in their compact form

No blanks, members in the order of their names, and in strings escapes only where JSON demands
them. Numbers are printed in the layout `JsonNumber.layout`: doubles in full from `0.00001` up to
sixteen digits before the point, always with a point, and otherwise with an exponent that always
has its sign.
-/

namespace BlockSketch

namespace JsonNumber

/-- A double is written in full if its first digit stands for a power of ten from `-5` to `15`, and
then a whole number has a point and a zero. Of two equally near texts the even one is taken. -/
def layout : Layout where
  leastPlace := -5
  greatestPlace := 15
  keepsPoint := true
  tie := .toEven

/-- The text of a number. -/
def chars : JsonNumber → List Char
  | int n => (if n < 0 then ['-'] else []) ++ Digits.chars (Digits.ofNat n.natAbs)
  | double v => (if v.negative then ['-'] else []) ++ (layout.numeral v.magnitude).charsWith ['+']

end JsonNumber

namespace Json

/-- The hexadecimal digit for a number below 16, in lower case. -/
def hexChar (n : Nat) : Char :=
  Char.ofNat (if n < 10 then 48 + n else 87 + n)

/-- The characters that stand for one character inside a string. -/
def escape (c : Char) : List Char :=
  if c = '"' then ['\\', '"']
  else if c = '\\' then ['\\', '\\']
  else if c = '\x08' then ['\\', 'b']
  else if c = '\x0c' then ['\\', 'f']
  else if c = '\n' then ['\\', 'n']
  else if c = '\r' then ['\\', 'r']
  else if c = '\t' then ['\\', 't']
  else if c.toNat < 0x20 then ['\\', 'u', '0', '0', hexChar (c.toNat / 16), hexChar (c.toNat % 16)]
  else [c]

/-- A text in quotes. -/
def quoted (s : String) : List Char :=
  '"' :: (s.toList.flatMap escape ++ ['"'])

mutual

/-- The characters of a value. -/
def chars : Json → List Char
  | null => ['n', 'u', 'l', 'l']
  | bool true => ['t', 'r', 'u', 'e']
  | bool false => ['f', 'a', 'l', 's', 'e']
  | number n => n.chars
  | string s => quoted s
  | array items => '[' :: (charsOfItems items ++ [']'])
  | object members => '\x7b' :: (charsOfMembers members ++ ['\x7d'])

/-- The items of an array with commas between them. -/
def charsOfItems : List Json → List Char
  | [] => []
  | [item] => item.chars
  | item :: rest => item.chars ++ ',' :: charsOfItems rest

/-- The members of an object with commas between them. -/
def charsOfMembers : List (String × Json) → List Char
  | [] => []
  | [(name, value)] => quoted name ++ ':' :: value.chars
  | (name, value) :: rest => quoted name ++ ':' :: value.chars ++ ',' :: charsOfMembers rest

end

/-- The text of a value. -/
def text (value : Json) : String :=
  String.ofList value.chars

/-- What a scalar reads as in a field: a string itself, the text of a number or a truth value.
The other values have no such text. -/
def scalarText? : Json → Option String
  | string s => some s
  | number n => some (String.ofList n.chars)
  | bool true => some "true"
  | bool false => some "false"
  | _ => none

end Json

end BlockSketch
