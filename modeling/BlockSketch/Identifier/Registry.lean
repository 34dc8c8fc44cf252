import BlockSketch.Identifier.Basic
import BlockSketch.Identifier.Reserved
import BlockSketch.Text.Lowercase

/-!
# Registry: which name has which identifier

A registry hands out identifiers and remembers them.

* `Registry.fresh` hands out an identifier that nobody has: the one made of the name if it is free,
  otherwise the same with the least number from 2 on behind it that makes it free.
* `Registry.identify` does so once for each name, where names that differ in letter case alone are
  one name, and answers from memory afterwards.

The search for a free identifier tries one candidate more than there are identifiers that are not
free. The candidates are all different, so one of them is free, and the search needs no end of its
own.
-/

namespace BlockSketch

/-- What has been handed out: identifiers by the lowercase form of the name they stand for, and all
identifiers that are taken, in the order in which they were. -/
structure Registry where
  assigned : List (String × String) := []
  taken : List String := []
deriving DecidableEq, Repr

namespace Registry

/-- Nothing handed out. -/
def empty : Registry := {}

/-- Whether an identifier may be handed out. -/
def isFree (registry : Registry) (identifier : String) : Bool :=
  !registry.taken.contains identifier && !Identifier.reserved.contains identifier

/-- The candidates for an identifier: the base itself, then the base with 2, 3, … behind it. -/
def candidate (base : String) : Nat → String
  | 0 => base
  | k + 1 => base ++ toString (k + 2)

/-- The first free candidate from number `k` on, of which `rounds` are tried before the next one is
taken as it is. -/
def search (registry : Registry) (base : String) : Nat → Nat → String
  | 0, k => candidate base k
  | rounds + 1, k =>
    if registry.isFree (candidate base k) then candidate base k
    else search registry base rounds (k + 1)

/-- A free identifier for a name. -/
def choose (registry : Registry) (name : String) : String :=
  search registry (Identifier.ofName name)
    (registry.taken.length + Identifier.reserved.length) 0

/-- Hands out an identifier that differs from all others. -/
def fresh (registry : Registry) (name : String) : String × Registry :=
  let identifier := registry.choose name
  (identifier, { registry with taken := registry.taken ++ [identifier] })

/-- The identifier of a name, the same each time. -/
def identify (registry : Registry) (name : String) : String × Registry :=
  let key := Text.lowercase name
  match registry.assigned.lookup key with
  | some identifier => (identifier, registry)
  | none =>
    let (identifier, registry) := registry.fresh name
    (identifier, { registry with assigned := registry.assigned ++ [(key, identifier)] })

end Registry

end BlockSketch
