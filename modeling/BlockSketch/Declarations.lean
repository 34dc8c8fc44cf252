/-!
# Declarations: what a sketch declares before its code

Includes, helper functions and variables are collected while the code is made, each under a key.
The first text that is registered under a key stays, and entries keep the order in which they came.
-/

namespace BlockSketch

/-- The entries, key and text, in the order of registration. -/
structure Declarations where
  entries : List (String × String) := []
deriving DecidableEq, Repr

namespace Declarations

/-- No declarations. -/
def empty : Declarations := {}

/-- Whether a key has an entry. -/
def contains (d : Declarations) (key : String) : Bool :=
  d.entries.any fun entry => entry.1 == key

/-- The text under a key. -/
def get? (d : Declarations) (key : String) : Option String :=
  d.entries.lookup key

/-- The number of entries. -/
def size (d : Declarations) : Nat :=
  d.entries.length

/-- Whether there are no entries. -/
def isEmpty (d : Declarations) : Bool :=
  d.entries.isEmpty

/-- The keys in the order of registration. -/
def keys (d : Declarations) : List String :=
  d.entries.map Prod.fst

/-- Adds an entry, unless its key has one. -/
def register (d : Declarations) (key text : String) : Declarations :=
  if d.contains key then d else ⟨d.entries ++ [(key, text)]⟩

/-! ### Laws -/

variable {d : Declarations} {key : String}

theorem contains_iff : d.contains key = true ↔ key ∈ d.keys := by
  simp [contains, keys]

/-- Registering adds the key, if it is not there. -/
theorem mem_keys_register {text key' : String} :
    key' ∈ (d.register key text).keys ↔ key' ∈ d.keys ∨ key' = key := by
  rw [register]
  split
  · next h =>
    rw [contains_iff] at h
    exact (or_iff_left_of_imp fun heq => heq ▸ h).symm
  · simp [keys]

/-- A text that was registered stays what it is, whatever is registered afterwards. -/
theorem get?_register {text : String} (h : d.get? key = some text) (key' text' : String) :
    (d.register key' text').get? key = some text := by
  rw [register]
  split
  · exact h
  · rw [get?] at h ⊢
    rw [List.lookup_append, h]
    rfl

end Declarations

end BlockSketch
