import BlockSketch.Declarations

/-!
# Indexed: declarations with an index of their keys

Most blocks ask for a declaration that another block has asked for before them.
`Declarations.Indexed` keeps the keys beside the entries, so that whether a key is there is told
without a look at the entries. Texts, numbers and the order are told by the entries, and nothing but
`register` sees to it that the two go together.
-/

namespace BlockSketch.Declarations

/-- The entries in the order of registration, and the keys that have one. -/
structure Indexed where
  entries : List (String × String) := []
  /-- The keys, each once, in no order that counts. -/
  index : List String := []
deriving DecidableEq, Repr

namespace Indexed

/-- No declarations. -/
def empty : Indexed := {}

/-- The declarations without the index. -/
def declarations (t : Indexed) : Declarations :=
  ⟨t.entries⟩

/-- Whether a key is in the index. -/
def contains (t : Indexed) (key : String) : Bool :=
  t.index.contains key

/-- The text of the first entry with a key. -/
def get? (t : Indexed) (key : String) : Option String :=
  (t.entries.find? fun entry => entry.1 == key).map Prod.snd

/-- The number of entries. -/
def size (t : Indexed) : Nat :=
  t.entries.length

/-- Whether there are no entries. -/
def isEmpty (t : Indexed) : Bool :=
  t.entries.isEmpty

/-- Adds an entry, unless its key is in the index; the answer is whether it was added. -/
def register (t : Indexed) (key text : String) : Bool × Indexed :=
  if t.contains key then (false, t)
  else (true, { entries := t.entries ++ [(key, text)], index := key :: t.index })

end Indexed

end BlockSketch.Declarations
