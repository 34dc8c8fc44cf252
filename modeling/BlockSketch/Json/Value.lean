import BlockSketch.Decimal.Binary64
import BlockSketch.Table

/-!
# Json: values

The values of fields. A number is either an integer that fits 64 bits, which is kept exactly, or a
double. The members of an object are a `Table`, so the order in which they were written is not part
of the value.
-/

namespace BlockSketch

/-- A JSON number: a 64-bit integer, signed or unsigned, or a double. -/
inductive JsonNumber
  | int (n : Int)
  | double (v : Binary64)
deriving DecidableEq, Repr

/-- A JSON value. -/
inductive Json
  | null
  | bool (b : Bool)
  | number (n : JsonNumber)
  | string (s : String)
  | array (items : List Json)
  | object (members : List (String × Json))

namespace Json

/-- The text of a string value. -/
def string? : Json → Option String
  | string s => some s
  | _ => none

end Json

end BlockSketch
