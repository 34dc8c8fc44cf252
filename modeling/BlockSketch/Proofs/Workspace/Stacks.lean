import BlockSketch.Failure
import BlockSketch.Proofs.Session.Variables
import BlockSketch.Proofs.Text.Lines
import BlockSketch.Proofs.Workspace.Saved

/-!
# Long stacks

A stack of blocks and the same blocks side by side have the same sketch: a line for each block, from
the top. The two ways to save them differ, though. Side by side the blocks of a workspace are at the
same depth, however many they are, but a stack is as deep as it is long, and the reader lets only so
many brackets be open. Of the 127 there are, three are around the topmost block, and every block of
the stack takes two, so a stack of 62 blocks is the longest that is read. A longer one is no
workspace.
-/

namespace BlockSketch

namespace SavedChange

/-! ### The same statements -/

/-- The statement of a block. -/
def statement (c : SavedChange) : Generate Statement :=
  Code.asStatement <$> (c.block none).code

theorem code_block (c : SavedChange) (next : Option Connection) :
    (c.block next).code = (c.block none).code := by
  rw [Block.code_eq, Block.code_eq]
  rfl

/-- The blocks of a stack, one after another. -/
theorem stackCode_block (rest : List SavedChange) (c : SavedChange) :
    (c.block (link rest)).stackCode = (c :: rest).mapM statement := by
  induction rest generalizing c with
  | nil => rfl
  | cons c' rest ih =>
    have hstack : (c.block (link (c' :: rest))).stack =
        c.block (link (c' :: rest)) :: (c'.block (link rest)).stack := rfl
    -- what is below a block has no part in the code of the block itself
    have ih' := ih c'
    rw [Block.stackCode] at ih' ⊢
    rw [hstack, List.mapM_cons, List.mapM_cons, ih', code_block]
    rfl

/-- The topmost blocks where all blocks are one stack. -/
def oneStack : List SavedChange → List Block
  | [] => []
  | c :: rest => [c.block (link rest)]

theorem code_oneStack (changes : List SavedChange) (w : Workspace)
    (h : w.blocks = oneStack changes) : w.code = changes.mapM statement := by
  rw [Workspace.code, h]
  cases changes with
  | nil => rfl
  | cons c rest => simp [oneStack, stackCode_block]

theorem code_sideBySide (changes : List SavedChange) (w : Workspace)
    (h : w.blocks = changes.map fun c => c.block none) : w.code = changes.mapM statement := by
  rw [Workspace.code, h]
  clear h
  induction changes with
  | nil => rfl
  | cons c changes ih =>
    have hone : (c.block none).stackCode = [c].mapM statement := stackCode_block [] c
    simp only [List.map_cons, List.mapM_cons, hone] at ih ⊢
    rw [← ih]
    simp

/-! ### What the statements are -/

/-- A variable is increased by nothing. -/
def increase (x : String) : Statement :=
  .increase x (.nat 0)

/-- The name of a block's variable in a session. -/
def name (c : SavedChange) (s : Session) : String :=
  (Table.get? s.variableNames c.target).getD c.target

/-- The variable is increased, and its name has an identifier then. -/
theorem perform_statement (c : SavedChange) (s : Session) :
    s.perform c.statement = (.ok (increase (s.registry.identify (c.name s)).1),
      { s with registry := (s.registry.identify (c.name s)).2 }) := by
  rw [statement, Block.code_eq]
  rfl

/-- The statements of blocks: each increases its variable. -/
theorem perform_statements (changes : List SavedChange) {s : Session} (hs : s.registry.Sound) :
    ∃ s', s.perform (changes.mapM statement) =
        (.ok ((changes.map fun c => s'.identifierOf (c.name s)).map increase), s') ∧
      (∀ c ∈ changes, Identifier.Legal (s'.identifierOf (c.name s))) ∧
      s.registry.Extends s'.registry ∧
      s'.declarations = s.declarations ∧ s'.options = s.options := by
  induction changes generalizing s with
  | nil => exact ⟨s, rfl, nofun, Registry.Extends.refl _, rfl, rfl⟩
  | cons c changes ih =>
    have hlegal := ((hs.identify (c.name s)).legal _ (hs.mem_taken_identify (c.name s))).1
    obtain ⟨s', hperform, hall, hextends, hdeclarations, hoptions⟩ :=
      ih (s := { s with registry := (s.registry.identify (c.name s)).2 }) (hs.identify (c.name s))
    -- the blocks further down leave the identifier of this one's name what it is
    have hidentifier : s'.identifierOf (c.name s) = (s.registry.identify (c.name s)).1 := by
      rw [Session.identifierOf, hextends.lookup (Registry.lookup_identify s.registry (c.name s))]
      rfl
    refine ⟨s', ?_, List.forall_mem_cons.mpr ⟨hidentifier ▸ hlegal, hall⟩,
      (Registry.extends_identify s.registry (c.name s)).trans hextends, hdeclarations, hoptions⟩
    rw [List.mapM_cons, Session.perform_bind, perform_statement]
    simp only
    rw [Session.perform_bind, hperform, List.map_cons, List.map_cons, hidentifier]
    rfl

/-- The line for one variable. -/
def loopLine (x : String) : String :=
  "  " ++ x ++ " += 0;\n"

/-- An identifier has no characters that end a line. -/
theorem isLine_increase {x : String} (h : Identifier.Legal x) :
    Text.IsLine (increase x).chars := by
  have hword : '\n' ∉ x.toList := by
    intro hmem
    exact absurd (Identifier.isWordChar_of_legal h hmem) (by decide)
  have hchars : (increase x).chars = x.toList ++ [' ', '+', '=', ' ', '0'] ++ [';'] := by
    rw [increase, Statement.chars, List.append_assoc x.toList]
    rfl
  refine ⟨?_, by rw [hchars, List.getLast?_concat]; decide⟩
  rw [hchars]
  simp [hword]

/-- What a variable's statement is, indented. -/
theorem indentLine_increase (x : String) :
    Text.indentLine "  ".toList (increase x).chars = (loopLine x).toList := by
  rw [loopLine, String.toList_append, String.toList_append, Text.indentLine, increase,
    Statement.chars]
  simp
  rfl

/-- The lines are indented. -/
theorem indentLines_increase {identifiers : List String}
    (h : ∀ x ∈ identifiers, Identifier.Legal x) :
    String.ofList (Text.indentLines "  ".toList
        (String.join ((identifiers.map increase).map Statement.text)).toList) =
      String.join (identifiers.map loopLine) := by
  have htext : (String.join ((identifiers.map increase).map Statement.text)).toList =
      (identifiers.map fun x => (increase x).chars).flatMap (· ++ ['\n']) := by
    simp [String.toList_join, List.flatMap_map, Statement.text, Statement.line]
  have hlines : ∀ line ∈ identifiers.map fun x => (increase x).chars, Text.IsLine line := by
    intro line hline
    obtain ⟨x, hx, rfl⟩ := List.mem_map.mp hline
    exact isLine_increase (h x hx)
  rw [htext, Text.indentLines_flatMap _ hlines, List.flatMap_map]
  simp only [indentLine_increase]
  rw [← List.flatMap_map, ← String.toList_join, String.ofList_toList]

/-! ### The same sketch -/

/-- The sketch with a line for each of some identifiers. -/
def sketch (d : Declarations) (identifiers : List String) : String :=
  Sketch.header d ++ "void setup() \x7b\n\x7d\n\nvoid loop() \x7b\n" ++
    String.join (identifiers.map loopLine) ++ "\x7d\n"

theorem finish_increase {s : Session} (hindent : s.options.indent = "  ")
    {identifiers : List String} (h : ∀ x ∈ identifiers, Identifier.Legal x) :
    s.finish (String.join ((identifiers.map increase).map Statement.text)) =
      sketch s.declarations identifiers := by
  unfold Session.finish Sketch.write Sketch.functions sketch
  rw [hindent, indentLines_increase h]
  simp only [String.append_assoc]

/-- The session in which the statements have been made comes about when the stack is asked for. -/
theorem reachable_statements (changes : List SavedChange) {s : Session} (hs : s.Reachable) :
    (s.perform (changes.mapM statement)).2.Reachable := by
  cases changes with
  | nil => exact hs
  | cons c rest =>
    rw [← stackCode_block]
    exact hs.serve (.stack (c.block (link rest)))

/-- The sketch of a workspace whose code is that of some blocks: a line for each. -/
theorem sketch_eq {w : Workspace} {changes : List SavedChange}
    (hcode : w.code = changes.mapM statement) :
    ∃ s : Session, s.Reachable ∧
      (∀ c ∈ changes, Identifier.Legal (s.identifierOf (c.name (.start w {})))) ∧
      w.sketch {} = .ok (sketch (Session.start w {}).declarations
        (changes.map fun c => s.identifierOf (c.name (.start w {})))) := by
  obtain ⟨s, hperform, hlegal, -, hdeclarations, hoptions⟩ :=
    perform_statements changes (Session.sound_start w {})
  have hreachable := reachable_statements changes (.start w {})
  rw [hperform] at hreachable
  refine ⟨s, hreachable, hlegal, ?_⟩
  have hindent : s.options.indent = "  " := by
    rw [hoptions, Session.options_start]
  have hfinish := finish_increase hindent (List.forall_mem_map.mpr hlegal)
  rw [Workspace.sketch, hcode, hperform, ← hdeclarations, ← hfinish]

/-! ### Reading and making -/

theorem parse_separate (declared : List Declared) (changes : List SavedChange) :
    Workspace.parse (Workspace.saved declared (separate changes)).text =
      .ok { blocks := changes.map fun c => c.block none, declared } := by
  refine Workspace.parse_saved declared ?_
  rw [separate, List.forall₂_map_left_iff, List.forall₂_map_right_iff, List.forall₂_same]
  exact fun c _ => reads_block [] c (by decide) (.inr rfl)

theorem parse_stacked (declared : List Declared) {changes : List SavedChange}
    (h : changes.length ≤ 62) :
    Workspace.parse (Workspace.saved declared (stacked changes)).text =
      .ok { blocks := oneStack changes, declared } := by
  refine Workspace.parse_saved declared ?_
  cases changes with
  | nil => exact .nil
  | cons c rest =>
    rw [List.length_cons] at h
    exact .cons (reads_block rest c (by omega) (.inr rfl)) .nil

theorem parse_stacked_refused (declared : List Declared) {changes : List SavedChange}
    (h : 62 < changes.length) :
    Workspace.parse (Workspace.saved declared (stacked changes)).text = .error .malformed := by
  cases changes with
  | nil => exact absurd h (by decide)
  | cons c rest =>
    rw [List.length_cons] at h
    exact Workspace.parse_saved_refused declared (refuses_block rest c (by omega) (.inr rfl)) []

end SavedChange

namespace Workspace

open SavedChange (stacked separate)

/-- What is read without options has the sketch with the usual ones. -/
theorem sketchOfText_of_parse {source : String} {blocks : List Block} {declared : List Declared}
    (h : parse source = .ok { blocks, declared }) :
    sketchOfText source = sketchWith { blocks, declared } {} := by
  rw [sketchOfText, ofText, h]
  rfl

theorem sketchOfText_of_fault {source : String} {fault : Fault} (h : parse source = .error fault) :
    sketchOfText source = .error ⟨["Invalid workspace JSON."], .reading fault⟩ := by
  rw [sketchOfText, ofText, h]
  rfl

/-- Side by side blocks have a sketch with a line for each of them. -/
theorem sketchOfText_separate (declared : List Declared) (changes : List SavedChange) :
    ∃ s : Session, s.Reachable ∧
      (∀ c ∈ changes, Identifier.Legal (s.identifierOf (c.name (.start { declared } {})))) ∧
      sketchOfText (saved declared (separate changes)).text =
        .ok (SavedChange.sketch (Session.start { declared } {}).declarations
          (changes.map fun c => s.identifierOf (c.name (.start { declared } {})))) := by
  have hcode := SavedChange.code_sideBySide changes
    { blocks := changes.map fun c => c.block none, declared } rfl
  obtain ⟨s, hreachable, hlegal, hsketch⟩ := SavedChange.sketch_eq hcode
  refine ⟨s, hreachable, hlegal, ?_⟩
  rw [sketchOfText_of_parse (SavedChange.parse_separate declared changes), sketchWith, hsketch]
  rfl

/-- A stack has the same sketch as its blocks side by side, if it is read. -/
theorem sketchOfText_stacked (declared : List Declared) {changes : List SavedChange}
    (h : changes.length ≤ 62) :
    sketchOfText (saved declared (stacked changes)).text =
      sketchOfText (saved declared (separate changes)).text := by
  have hcode : code { blocks := SavedChange.oneStack changes, declared } =
      code { blocks := changes.map fun c => c.block none, declared } :=
    (SavedChange.code_oneStack changes _ rfl).trans (SavedChange.code_sideBySide changes _ rfl).symm
  rw [sketchOfText_of_parse (SavedChange.parse_stacked declared h),
    sketchOfText_of_parse (SavedChange.parse_separate declared changes), sketchWith, sketchWith,
    sketch, sketch, hcode]
  rfl

theorem sketchOfText_stacked_refused (declared : List Declared) {changes : List SavedChange}
    (h : 62 < changes.length) :
    sketchOfText (saved declared (stacked changes)).text =
      .error ⟨["Invalid workspace JSON."], .reading .malformed⟩ :=
  sketchOfText_of_fault (SavedChange.parse_stacked_refused declared h)

end Workspace

end BlockSketch
