import BlockSketch.Proofs.Grammar.Spelled
import BlockSketch.Proofs.Meaning.Faithful
import BlockSketch.Proofs.Session.Coupled
import BlockSketch.Sketch

/-!
# A sketch, line by line

The loop of a sketch is put together as one text and cut into lines again to be indented. What comes
out is a line for each block that stands in a stack: the indentation, and then the statement that
the block became when its turn came. No text, name or number that a user may have put into a block
makes a line of its own or ends one, since a statement is on one line whatever is in it
(`Statement.Spelled.unbroken`).

* `Session.Writes` says which statements a row of blocks becomes, block after block.
* `Workspace.sketch_eq_ok_iff` says that a sketch is its header and the lines of these statements.
* `Workspace.sketch_line_by_line` says the same for all indentations at once. The indentation has no
  part in the statements, nor in the header.
-/

namespace BlockSketch

/-! ### The statements of a workspace -/

/-- The statement that a block becomes. -/
def Block.statement (b : Block) : Generate Statement :=
  Code.asStatement <$> b.code

/-- The statements of a workspace are those of its blocks, stack after stack and from the top. -/
theorem Workspace.code_eq_mapM (w : Workspace) :
    w.code = (w.blocks.flatMap Block.stack).mapM Block.statement := by
  rw [Workspace.code]
  induction w.blocks with
  | nil => rfl
  | cons b blocks ih =>
    have hstack : b.stackCode = b.stack.mapM Block.statement := rfl
    rw [List.flatMap_cons, List.mapM_append, List.mapM_cons, hstack, ← ih]
    simp

namespace Session

/-- The statements that a row of blocks becomes: each is made in the session that the blocks before
it left behind. -/
inductive Writes : Session → List Block → List Statement → Session → Prop
  | nil (s : Session) : Writes s [] [] s
  | cons {s s' s'' : Session} {b : Block} {code : Code} {blocks : List Block}
      {statements : List Statement} : s.perform b.code = (.ok code, s') →
      Writes s' blocks statements s'' → Writes s (b :: blocks) (code.asStatement :: statements) s''

theorem perform_statement_eq (s : Session) (b : Block) :
    s.perform b.statement =
      match s.perform b.code with
      | (.ok code, s') => (.ok code.asStatement, s')
      | (.error e, s') => (.error e, s') := by
  rw [Block.statement, ← bind_pure_comp, perform_bind]
  rcases s.perform b.code with ⟨_ | _, s'⟩ <;> rfl

theorem writes_iff {s s' : Session} {blocks : List Block} {statements : List Statement} :
    s.Writes blocks statements s' ↔
      s.perform (blocks.mapM Block.statement) = (.ok statements, s') := by
  induction blocks generalizing s statements with
  | nil =>
    constructor
    · rintro ⟨⟩
      rfl
    · intro h
      obtain ⟨hstatements, rfl⟩ := Prod.mk.inj h
      obtain rfl := Except.ok.inj hstatements
      exact .nil s
  | cons b blocks ih =>
    rw [List.mapM_cons, perform_bind, perform_statement_eq]
    constructor
    · rintro (_ | ⟨hcode, hrest⟩)
      simp only [hcode]
      rw [perform_bind, ih.mp hrest]
      rfl
    · intro h
      rcases hcode : s.perform b.code with ⟨code | code, s₁⟩
      · rw [hcode] at h
        cases h
      · simp only [hcode, perform_bind] at h
        rcases hrest : s₁.perform (blocks.mapM Block.statement) with ⟨rest | rest, s₂⟩
        · rw [hrest] at h
          cases h
        · rw [hrest] at h
          obtain ⟨hstatements, rfl⟩ := Prod.mk.inj h
          obtain rfl := Except.ok.inj hstatements
          exact .cons hcode (ih.mpr hrest)

/-- In two sessions that `R` relates, blocks whose codes are the same in both become the same
statements, and in the one session they become any only if they do in the other. -/
theorem Writes.coupled {R : Session → Session → Prop} {s s' : Session} {blocks : List Block}
    (hcode : ∀ b ∈ blocks, Generate.Coupled R b.code b.code Eq) (hs : R s s')
    (statements : List Statement) :
    (∀ s₁, s.Writes blocks statements s₁ → ∃ s₁', s'.Writes blocks statements s₁' ∧ R s₁ s₁') ∧
    ∀ s₁', s'.Writes blocks statements s₁' → ∃ s₁, s.Writes blocks statements s₁ ∧ R s₁ s₁' := by
  have hself : List.Forall₂ (fun b b' => b = b' ∧ b ∈ blocks) blocks blocks :=
    List.forall₂_same.mpr fun b hb => ⟨rfl, hb⟩
  have hblocks : Generate.Coupled R (blocks.mapM Block.statement) (blocks.mapM Block.statement)
      (List.Forall₂ Eq) := by
    refine Generate.coupled_mapM hself ?_
    rintro b _ ⟨rfl, hb⟩
    exact (hcode b hb).map fun _ _ h => congrArg Code.asStatement h
  obtain ⟨hafter, hagree⟩ := hblocks s s' hs
  simp only [writes_iff]
  rcases hrun : s.perform (blocks.mapM Block.statement) with ⟨result, t⟩
  rcases hrun' : s'.perform (blocks.mapM Block.statement) with ⟨result', t'⟩
  rw [hrun, hrun'] at hafter hagree
  rcases hagree.outcomes with ⟨e, rfl, rfl⟩ | ⟨written, written', rfl, rfl, heq⟩
  · exact ⟨nofun, nofun⟩
  · obtain rfl : written = written' := List.forall₂_eq_eq_eq ▸ heq
    constructor
    · rintro s₁ ⟨⟩
      exact ⟨t', rfl, hafter⟩
    · rintro s₁' ⟨⟩
      exact ⟨t, rfl, hafter⟩

end Session

/-! ### What statements are printed as -/

/-- Code that means something is spelled. -/
theorem Code.Means.spelled {code : Code} {intended : Option Tree}
    {assignment : String → Option (Token × Tree)} (h : code.Means intended assignment) :
    code.asStatement.Spelled := by
  cases code with
  | value f =>
    obtain ⟨t, -, hf⟩ := h
    exact Expr.Means.spelled hf
  | statement st =>
    obtain ⟨target, sign, t, hlegal, -, hst⟩ := h
    cases st with
    | increase x value =>
      obtain ⟨rfl, -, hvalue⟩ := hst
      exact ⟨hlegal, hvalue.spelled⟩
    | assign x value =>
      obtain ⟨rfl, -, hvalue⟩ := hst
      exact ⟨hlegal, hvalue.spelled⟩
    | evaluate value => exact hst.elim

namespace Session.Writes

variable {s s' : Session} {blocks : List Block} {statements : List Statement}

/-- What is true of the code of every block is true of all statements. -/
theorem ensures {Inv : Session → Prop} {Q : Statement → Prop}
    (hcode : ∀ b : Block, b.code.Ensures Inv fun code => Q code.asStatement)
    (h : s.Writes blocks statements s') (hs : Inv s) : (∀ st ∈ statements, Q st) ∧ Inv s' := by
  induction h with
  | nil s => exact ⟨nofun, hs⟩
  | @cons s s₁ s₂ b code blocks statements hperform _ ih =>
    obtain ⟨hinv, hresult⟩ := hcode b s hs
    rw [hperform] at hinv hresult
    obtain ⟨hall, hend⟩ := ih hinv
    exact ⟨List.forall_mem_cons.mpr ⟨hresult code rfl, hall⟩, hend⟩

/-- The statements are spelled, and the options are what they were. -/
theorem spelled (h : s.Writes blocks statements s') (hs : s.registry.Sound) :
    (∀ st ∈ statements, st.Spelled) ∧ s'.options = s.options := by
  have hcode (b : Block) : b.code.Ensures
      (fun s' => s'.options = s.options ∧ s'.registry.Sound) fun code => code.asStatement.Spelled :=
    (b.ensures_means s.options).mono fun code hcode => hcode.spelled
  obtain ⟨hall, hoptions, -⟩ := h.ensures hcode ⟨rfl, hs⟩
  exact ⟨hall, hoptions⟩

end Session.Writes

namespace Sketch

/-- The lines of the statements, each behind the indentation. -/
def loopLines (indent : String) (statements : List Statement) : String :=
  String.join (statements.map fun st => indent ++ (String.ofList st.chars ++ "\n"))

/-- The sketch with these statements in its loop. -/
def lined (header indent : String) (statements : List Statement) : String :=
  header ++ "void setup() \x7b\n\x7d\n\nvoid loop() \x7b\n" ++ loopLines indent statements ++
    "\x7d\n"

/-- The lines are found in the text of the statements, and each of them is indented. -/
theorem indentLines_statements (indent : String) {statements : List Statement}
    (h : ∀ st ∈ statements, st.Spelled) :
    String.ofList (Text.indentLines indent.toList
      (String.join (statements.map Statement.text)).toList) = loopLines indent statements := by
  have htext : (String.join (statements.map Statement.text)).toList =
      (statements.map Statement.chars).flatMap (· ++ ['\n']) := by
    simp [String.toList_join, List.flatMap_map, Statement.text, Statement.line]
  have hlines : ∀ line ∈ statements.map Statement.chars, Text.IsLine line :=
    List.forall_mem_map.mpr fun st hst => (h st hst).isLine
  have hindent (st : Statement) : Text.indentLine indent.toList st.chars =
      (indent ++ (String.ofList st.chars ++ "\n")).toList := by
    have hne : st.chars.isEmpty = false := by
      cases hchars : st.chars with
      | nil =>
        have hlast := st.getLast?_chars
        rw [hchars] at hlast
        cases hlast
      | cons c rest => rfl
    simp [Text.indentLine, hne]
  rw [htext, Text.indentLines_flatMap _ hlines, List.flatMap_map]
  simp only [hindent]
  rw [← List.flatMap_map, ← String.toList_join, String.ofList_toList]
  rfl

theorem finish_eq (s : Session) {statements : List Statement} (h : ∀ st ∈ statements, st.Spelled) :
    s.finish (String.join (statements.map Statement.text)) =
      lined (header s.declarations) s.options.indent statements := by
  unfold Session.finish write functions lined
  rw [indentLines_statements _ h]
  simp only [String.append_assoc]

end Sketch

namespace Workspace

/-- **A sketch is its header and a line for each block.** -/
theorem sketch_eq_ok_iff (w : Workspace) (options : Options) (text : String) :
    w.sketch options = .ok text ↔
      ∃ statements s, (Session.start w options).Writes (w.blocks.flatMap Block.stack) statements s ∧
        text = Sketch.lined (Sketch.header s.declarations) options.indent statements := by
  have hfinish {statements : List Statement} {s : Session}
      (h : (Session.start w options).Writes (w.blocks.flatMap Block.stack) statements s) :
      s.finish (String.join (statements.map Statement.text)) =
        Sketch.lined (Sketch.header s.declarations) options.indent statements := by
    obtain ⟨hspelled, hoptions⟩ := h.spelled (Session.sound_start w options)
    rw [Sketch.finish_eq s hspelled, hoptions, Session.options_start]
  rw [sketch, code_eq_mapM]
  constructor
  · intro h
    rcases hperform : (Session.start w options).perform
      ((w.blocks.flatMap Block.stack).mapM Block.statement) with ⟨e | statements, s⟩
    · rw [hperform] at h
      cases h
    · rw [hperform] at h
      have hwrites := Session.writes_iff.mpr hperform
      exact ⟨statements, s, hwrites, (Except.ok.inj h).symm.trans (hfinish hwrites)⟩
  · rintro ⟨statements, s, hwrites, rfl⟩
    rw [Session.writes_iff.mp hwrites, ← hfinish hwrites]

end Workspace

/-! ### Other indentations -/

namespace Session

/-- The two sessions are the same but for the indentation. -/
structure SameButIndent (s s' : Session) : Prop where
  oneBased : s.options.oneBased = s'.options.oneBased
  declarations : s.declarations = s'.declarations
  registry : s.registry = s'.registry
  variableNames : s.variableNames = s'.variableNames

/-- Work in a session takes no notice of the indentation. -/
theorem coupling_sameButIndent : Generate.Coupling SameButIndent Eq where
  oneBased := fun h => h.oneBased
  variableNames := fun h => h.variableNames
  declare := by
    intro s s' key text h
    exact { h with declarations := by rw [h.declarations] }
  identify := by
    intro s s' name h
    have hregistry := h.registry
    exact ⟨{ h with registry := by rw [hregistry] }, by rw [hregistry]⟩

theorem sameButIndent_declareVariables (declared : List Declared) {s s' : Session}
    (h : s.SameButIndent s') :
    (declareVariables declared s).1 = (declareVariables declared s').1 ∧
      (declareVariables declared s).2.SameButIndent (declareVariables declared s').2 := by
  induction declared generalizing s s' with
  | nil => exact ⟨rfl, h⟩
  | cons v declared ih =>
    have hnext : SameButIndent
        { s with
          registry := (s.registry.identify v.name).2
          variableNames := Table.insert v.id v.name s.variableNames }
        { s' with
          registry := (s'.registry.identify v.name).2
          variableNames := Table.insert v.id v.name s'.variableNames } :=
      { h with
        registry := by rw [h.registry]
        variableNames := by rw [h.variableNames] }
    obtain ⟨hlines, hafter⟩ := ih hnext
    simp only [declareVariables]
    rw [hlines]
    rw [h.registry] at hafter ⊢
    exact ⟨rfl, hafter⟩

theorem sameButIndent_start (w : Workspace) (options : Options) (indent : String) :
    (start w options).SameButIndent (start w { options with indent }) := by
  have hnew : (new options).SameButIndent (new { options with indent }) := ⟨rfl, rfl, rfl, rfl⟩
  obtain ⟨hlines, hafter⟩ := sameButIndent_declareVariables w.declared hnew
  rw [start, start]
  simp only [hlines]
  split
  · exact hafter
  · exact coupling_sameButIndent.declare _ _ hafter

/-- With another indentation the statements are the same. -/
theorem Writes.sameButIndent {s s₁ s' : Session} {blocks : List Block} {statements : List Statement}
    (h : s.Writes blocks statements s₁) (hs : s.SameButIndent s') :
    ∃ s₁', s'.Writes blocks statements s₁' ∧ s₁.SameButIndent s₁' :=
  (coupled (fun b _ => b.coupled_code_self coupling_sameButIndent) hs statements).1 s₁ h

end Session

namespace Workspace

/-- **A sketch is written line by line.** If a workspace has a sketch, the sketch is a header, the
two functions, and between the braces of the second a line for each block of each stack, in their
order: the indentation, and then the statement that the block became in the session that the blocks
before it left behind. The statement ends in a semicolon and has no character that ends a line. With
any other indentation the header and the statements are the same. -/
theorem sketch_line_by_line {w : Workspace} {options : Options} {text : String}
    (h : w.sketch options = .ok text) :
    ∃ header statements,
      (∀ st ∈ statements, Text.Unbroken st.chars ∧ st.chars.getLast? = some ';') ∧
      text = Sketch.lined header options.indent statements ∧
      ∀ indent, ∃ s, (Session.start w { options with indent }).Writes
          (w.blocks.flatMap Block.stack) statements s ∧
        header = Sketch.header s.declarations ∧
        w.sketch { options with indent } = .ok (Sketch.lined header indent statements) := by
  obtain ⟨statements, s, hwrites, htext⟩ := (sketch_eq_ok_iff w options text).mp h
  obtain ⟨hspelled, -⟩ := hwrites.spelled (Session.sound_start w options)
  refine ⟨Sketch.header s.declarations, statements, ?_, htext, ?_⟩
  · intro st hst
    exact ⟨(hspelled st hst).unbroken, st.getLast?_chars⟩
  · intro indent
    obtain ⟨s', hwrites', hsame⟩ :=
      hwrites.sameButIndent (Session.sameButIndent_start w options indent)
    have hheader := congrArg Sketch.header hsame.declarations
    refine ⟨s', hwrites', hheader, (sketch_eq_ok_iff w _ _).mpr ⟨statements, s', hwrites', ?_⟩⟩
    rw [hheader]

/-- A line break that is typed, and a brace that would end the loop, stay in the literal of their
line. -/
theorem typed_line_break_stays_in_line :
    let w : Workspace := { blocks := [⟨⟨"text", [("TEXT", .string "a\n\x7d")]⟩, none, [], none⟩] }
    let text := "void setup() \x7b\n\x7d\n\nvoid loop() \x7b\n  String(\"a\\n\x7d\");\n\x7d\n"
    w.sketch {} = .ok text ∧ ∃ header statements, text = Sketch.lined header "  " statements := by
  intro w text
  have h : w.sketch {} = .ok text := by
    refine (sketch_eq_ok_iff w {} text).mpr ⟨[.evaluate (.string "a\n\x7d")], .new {}, ?_, ?_⟩
    · have hcode : (Session.start w {}).perform (w.blocks.head (List.cons_ne_nil _ _)).code =
          (.ok (.value ⟨.string "a\n\x7d", .atomic⟩), .new {}) := rfl
      exact .cons hcode (.nil _)
    · decide +kernel
  obtain ⟨header, statements, -, htext, -⟩ := sketch_line_by_line h
  exact ⟨h, header, statements, htext⟩

end Workspace

end BlockSketch
