import Mathlib.Data.List.Forall2
import BlockSketch.Proofs.Workspace.Records

/-!
# Saved stacks

A workspace is saved as an object of objects. The blocks of a stack are saved inside each other: a
block has a member `next`, which is an object with a member `block`, which is the block below. So each
block of a stack stands two brackets deeper than the one above it, and the number of brackets that a
reader lets be open is a bound on the length of the stack.

Here the blocks are those that change a variable, with their identities, and the topmost ones with
their positions. `SavedChange.reads_block` says which stacks are read with a given budget and
`SavedChange.refuses_block` that the others are malformed; `Workspace.parse_saved` and
`Workspace.parse_saved_refused` say the same of whole workspaces.
-/

namespace BlockSketch

/-- A block that changes a variable, as it is saved: its identity, its variable, and its position,
which is saved only for topmost blocks. -/
structure SavedChange where
  id : String
  target : String
  x : Int
  y : Int

namespace SavedChange

/-- The position of a topmost block. -/
def position (c : SavedChange) : List (String × Json) :=
  [("x", .number (.int c.x)), ("y", .number (.int c.y))]

/-- The members of a block, with those for its position and for what is below it. -/
def members (c : SavedChange) (position below : List (String × Json)) : List (String × Json) :=
  [("type", .string "math_change"), ("id", .string c.id)] ++ position ++
    [("fields", .object [("VAR", .string c.target)])] ++ below

/-- The link to the blocks below, if there are any. -/
def below : List SavedChange → List (String × Json)
  | [] => []
  | c :: rest => [("next", .object [("block", .object (c.members [] (below rest)))])]

/-- A topmost block with the blocks below it. -/
def topmost (c : SavedChange) (rest : List SavedChange) : Json :=
  .object (c.members c.position (below rest))

/-- The topmost blocks of a workspace in which all blocks are one stack. -/
def stacked : List SavedChange → List Json
  | [] => []
  | c :: rest => [c.topmost rest]

/-- The topmost blocks of a workspace in which every block stands alone. -/
def separate (changes : List SavedChange) : List Json :=
  changes.map fun c => c.topmost []

/-- The block itself. -/
def block (c : SavedChange) (next : Option Connection) : Block :=
  ⟨⟨"math_change", [("VAR", .string c.target)]⟩, some c.id, [], next⟩

/-- The link to the blocks below. -/
def link : List SavedChange → Option Connection
  | [] => none
  | c :: rest => some ⟨some (c.block (link rest)), none⟩

end SavedChange

/-! ### Stacks -/

namespace SavedChange

open Reader (Reads Refuses Takes)

variable {fields : Reader (Table Json)} {inputs : Reader (Table Connection)}
  {next : Reader Connection}

/-- Whether these are the members for a position: those of a topmost block or none. -/
def Placed (c : SavedChange) (position : List (String × Json)) : Prop :=
  position = [] ∨ position = c.position

/-- What has been read of a block before its variable. -/
def named (c : SavedChange) : Block.Draft where
  type := some "math_change"
  id := some (some c.id)

/-- What has been read of a block before what is below it. -/
def draft (c : SavedChange) : Block.Draft :=
  { c.named with fields := some [("VAR", .string c.target)] }

/-- The type and the identity of a block. Its position is passed over. -/
theorem takes_named (c : SavedChange) {position : List (String × Json)}
    (hposition : c.Placed position) :
    Takes Block.Draft.accepts (Block.readMember fields inputs next) {}
      ([("type", .string "math_change"), ("id", .string c.id)] ++ position) c.named := by
  have hid := (Reader.reads_text c.id).optional rfl (by decide)
  refine .append (.cons rfl ((Reader.reads_text "math_change").map _) (.cons rfl
    (hid.map fun id : Option String =>
      ({ type := some "math_change", id := some id } : Block.Draft)) (.nil c.named))) ?_
  rcases hposition with rfl | rfl
  · exact .nil c.named
  · exact .cons rfl ((Reader.reads_skip_int c.x).map fun _ => c.named)
      (.cons rfl ((Reader.reads_skip_int c.y).map fun _ => c.named) (.nil c.named))

/-- The variable of a block. -/
theorem reads_fields (c : SavedChange) (budget : Nat) :
    Reads (Reader.table (Reader.within (budget + 1) Reader.json))
      (Json.object [("VAR", .string c.target)]).chars [("VAR", .string c.target)] :=
  Reader.reads_table (.cons rfl ((Reader.reads_json_string budget c.target).map _) (.nil _))

/-- All of a block but what is below it. -/
theorem takes_draft (c : SavedChange) {position : List (String × Json)}
    (hposition : c.Placed position)
    (hfields : Reads fields (Json.object [("VAR", .string c.target)]).chars
      [("VAR", .string c.target)]) :
    Takes Block.Draft.accepts (Block.readMember fields inputs next) {} (c.members position [])
      c.draft := by
  rw [members, List.append_nil]
  exact (c.takes_named hposition).append (.cons rfl
    (hfields.map fun fields => ({ c.named with fields := some fields } : Block.Draft)) (.nil _))

/-- Where no bracket is left for the fields, the block is malformed. -/
theorem refuses_fields (c : SavedChange) {position : List (String × Json)}
    (hposition : c.Placed position) (below : List (String × Json)) :
    Refuses (Block.reader 1) (Json.object (c.members position below)).chars .malformed := by
  have hfields : Refuses (Block.readMember (Reader.table none) (Reader.table none)
      (Connection.reader 0) c.named "fields") (Json.object [("VAR", .string c.target)]).chars
      .malformed :=
    (Reader.refuses_table_none _).map _
  rw [Block.reader_succ, members, List.append_assoc, List.singleton_append]
  exact Reader.refuses_record Block.named_eq (c.takes_named hposition) rfl hfields below

theorem members_append (c : SavedChange) (position below : List (String × Json)) :
    c.members position below = c.members position [] ++ below := by
  rw [members, members, List.append_nil]

/-- **A stack is read** if there is a budget of two brackets for each of its blocks. -/
theorem reads_block (rest : List SavedChange) (c : SavedChange) {budget : Nat}
    (hbudget : 2 * (rest.length + 1) ≤ budget) {position : List (String × Json)}
    (hposition : c.Placed position) :
    Reads (Block.reader budget) (Json.object (c.members position (below rest))).chars
      (c.block (link rest)) := by
  induction rest generalizing c budget position with
  | nil =>
    rw [List.length_nil] at hbudget
    obtain ⟨budget, rfl⟩ : ∃ b, budget = b + 2 := ⟨budget - 2, by omega⟩
    rw [Block.reader_succ]
    exact Reader.reads_record Block.named_eq (c.takes_draft hposition (c.reads_fields budget)) rfl
  | cons c' rest ih =>
    rw [List.length_cons] at hbudget
    obtain ⟨budget, rfl⟩ : ∃ b, budget = b + 2 := ⟨budget - 2, by omega⟩
    -- one bracket is for the block and one for the link to what is below
    have hlink := Connection.reads_block (ih c' (by omega : _ ≤ budget) (.inl rfl))
    rw [Block.reader_succ, members_append]
    exact Reader.reads_record Block.named_eq
      ((c.takes_draft hposition (c.reads_fields budget)).append
        (.cons rfl (Block.reads_next hlink c.draft) (.nil _))) rfl

/-- **A longer stack is malformed**, whatever its blocks are. -/
theorem refuses_block (rest : List SavedChange) (c : SavedChange) {budget : Nat}
    (hbudget : budget < 2 * (rest.length + 1)) {position : List (String × Json)}
    (hposition : c.Placed position) :
    Refuses (Block.reader budget) (Json.object (c.members position (below rest))).chars
      .malformed := by
  induction rest generalizing c budget position with
  | nil =>
    -- one bracket is enough for the block, but not for its fields
    rw [List.length_nil] at hbudget
    obtain rfl | rfl : budget = 0 ∨ budget = 1 := by omega
    · exact Reader.refuses_record_none _
    · exact c.refuses_fields hposition _
  | cons c' rest ih =>
    rw [List.length_cons] at hbudget
    obtain rfl | rfl | ⟨budget, rfl⟩ : budget = 0 ∨ budget = 1 ∨ ∃ b, budget = b + 2 := by
      by_cases hsmall : budget < 2
      · omega
      · exact .inr (.inr ⟨budget - 2, by omega⟩)
    · exact Reader.refuses_record_none _
    · exact c.refuses_fields hposition _
    · have hlink := Connection.refuses_block (ih c' (by omega : budget < _) (.inl rfl))
      rw [Block.reader_succ, members_append]
      exact Reader.refuses_record Block.named_eq (c.takes_draft hposition (c.reads_fields budget))
        rfl (Block.refuses_next hlink c.draft) []

end SavedChange

/-! ### Variables -/

namespace Declared

open Reader (Reads Takes)

/-- A variable as it is saved. Its type is there only if it has one. -/
def saved (v : Declared) : Json :=
  .object ([("name", .string v.name), ("id", .string v.id)] ++
    if v.type.isEmpty then [] else [("type", .string v.type)])

/-- **A saved variable is read.** -/
theorem reads_saved (v : Declared) (budget : Nat) :
    Reads (reader (budget + 1)) v.saved.chars v := by
  have hnamed : Takes Draft.accepts readMember {} [("name", .string v.name), ("id", .string v.id)]
      { name := some v.name, id := some v.id } :=
    .cons rfl ((Reader.reads_text v.name).map fun name => ({ name := some name } : Draft))
      (.cons rfl ((Reader.reads_text v.id).map fun id =>
        ({ name := some v.name, id := some id } : Draft)) (.nil _))
  have htyped : Takes Draft.accepts readMember { name := some v.name, id := some v.id }
      [("type", .string v.type)] { name := some v.name, id := some v.id, type := some v.type } :=
    .cons rfl ((Reader.reads_text v.type).map fun type =>
      ({ name := some v.name, id := some v.id, type := some type } : Draft)) (.nil _)
  rw [saved, reader_succ]
  by_cases htype : v.type.isEmpty
  · rw [if_pos htype, List.append_nil]
    refine Reader.reads_record named_eq hnamed ?_
    obtain ⟨name, id, type⟩ := v
    obtain rfl : type = "" := String.isEmpty_iff.mp htype
    rfl
  · rw [if_neg htype]
    exact Reader.reads_record named_eq (hnamed.append htyped) rfl

end Declared

/-! ### Workspaces -/

namespace Workspace

open Reader (Reads Refuses Takes)

/-- A workspace as it is saved, of which the topmost blocks are given. The variables are there only
if there are any. -/
def saved (declared : List Declared) (topmost : List Json) : Json :=
  .object
    ([("blocks", .object [("languageVersion", .number (.int 0)), ("blocks", .array topmost)])] ++
      if declared.isEmpty then [] else [("variables", .array (declared.map Declared.saved))])

variable {budget : Nat} {topmost : List Json}

/-- The version of a list of blocks is passed over. -/
theorem takes_version {α : Type} (member : Reader α) :
    Takes (fun soFar other => other != "blocks" || soFar.isNone) (readSole "blocks" member) none
      [("languageVersion", .number (.int 0))] none :=
  .cons rfl ((Reader.reads_skip_int 0).map fun _ => none) (.nil none)

/-- The record around the topmost blocks takes two brackets. -/
theorem reads_blocks {blocks : List Block}
    (h : List.Forall₂ (fun v b => Reads (Block.reader budget) v.chars b) topmost blocks) :
    Reads (blocksReader (budget + 2))
      (Json.object [("languageVersion", .number (.int 0)), ("blocks", .array topmost)]).chars
      blocks := by
  have htakes := (takes_version (Reader.list (some (Block.reader budget)))).append
    (.cons rfl (reads_sole (Reader.reads_list h) none) (.nil _))
  rw [blocksReader_eq]
  exact Reader.reads_record (soleMember_named_eq _ _ _ _) htakes rfl

theorem refuses_blocks {v : Json} {fault : Fault}
    (h : Refuses (Block.reader budget) v.chars fault) (topmost : List Json) :
    Refuses (blocksReader (budget + 2))
      (Json.object [("languageVersion", .number (.int 0)), ("blocks", .array (v :: topmost))]).chars
      fault := by
  rw [blocksReader_eq]
  exact Reader.refuses_record (soleMember_named_eq _ _ _ _) (takes_version _) rfl
    (refuses_sole (Reader.refuses_list h topmost) none) []

/-- The list of the variables. -/
theorem reads_variables (declared : List Declared) (budget : Nat) :
    Reads (variablesReader (budget + 2)) (Json.array (declared.map Declared.saved)).chars
      declared := by
  refine Reader.reads_list ?_
  rw [List.forall₂_map_left_iff]
  exact List.forall₂_same.mpr fun v _ => v.reads_saved budget

theorem reads_saved (declared : List Declared) {blocks : List Block}
    (h : List.Forall₂ (fun v b => Reads (Block.reader budget) v.chars b) topmost blocks) :
    Reads (reader (budget + 3)) (saved declared topmost).chars { blocks, declared } := by
  have hblocks : Takes Draft.accepts (readMember (budget + 2)) {}
      [("blocks", .object [("languageVersion", .number (.int 0)), ("blocks", .array topmost)])]
      { blocks := some blocks } :=
    .cons rfl ((reads_blocks h).map fun blocks => ({ blocks := some blocks } : Draft)) (.nil _)
  have hvariables : Takes Draft.accepts (readMember (budget + 2)) { blocks := some blocks }
      [("variables", .array (declared.map Declared.saved))]
      { blocks := some blocks, declared := some declared } :=
    .cons rfl ((reads_variables declared budget).map fun declared =>
      ({ blocks := some blocks, declared := some declared } : Draft)) (.nil _)
  rw [saved, reader_succ]
  by_cases hdeclared : declared.isEmpty
  · obtain rfl := List.isEmpty_iff.mp hdeclared
    exact Reader.reads_record (named_eq _) hblocks rfl
  · rw [if_neg hdeclared]
    exact Reader.reads_record (named_eq _) (hblocks.append hvariables) rfl

/-- A workspace is refused if its first topmost block is. -/
theorem refuses_saved (declared : List Declared) {v : Json} {fault : Fault}
    (h : Refuses (Block.reader budget) v.chars fault) (topmost : List Json) :
    Refuses (reader (budget + 3)) (saved declared (v :: topmost)).chars fault := by
  have hblocks : Refuses (readMember (budget + 2) {} "blocks") (Json.object
      [("languageVersion", .number (.int 0)), ("blocks", .array (v :: topmost))]).chars fault :=
    (refuses_blocks h topmost).map fun blocks => ({ blocks := some blocks } : Draft)
  rw [saved, reader_succ]
  exact Reader.refuses_record (named_eq _) (.nil _) rfl hblocks _

/-- **A saved workspace is read** if its topmost blocks are, for which 124 brackets are left. -/
theorem parse_saved (declared : List Declared) {blocks : List Block}
    (h : List.Forall₂ (fun v b => Reads (Block.reader 124) v.chars b) topmost blocks) :
    parse (saved declared topmost).text = .ok { blocks, declared } :=
  (reads_saved declared h).whole

theorem parse_saved_refused (declared : List Declared) {v : Json} {fault : Fault}
    (h : Refuses (Block.reader 124) v.chars fault) (topmost : List Json) :
    parse (saved declared (v :: topmost)).text = .error fault :=
  (refuses_saved declared h topmost).whole

end Workspace

end BlockSketch
