import BlockSketch.Proofs.Grammar.Literals
import BlockSketch.Proofs.Sketch.Lines
import BlockSketch.Proofs.Sketch.Retyped
import BlockSketch.Proofs.Sketch.Vocabulary

/-!
# Texts stay in their literals

A user can type any text into a block, with quotes, backslashes, line breaks and pieces of code in
it. Whatever it is, nothing of the sketch changes but the literal that denotes it: with another text
typed, there is the same error or the same header, and the loop has the same tokens, with the other
text where this one was. `Workspace.texts_stay_in_literals` says so of all texts of a workspace at
once.

The indentation of a line may have quotes too, and then the tokens of the whole loop are not those
of its statements. So the theorem speaks of both, of the tokens of every statement and of those of
the loop.
-/

namespace BlockSketch

variable {P : String → String → Prop}

namespace Statement

variable {st st' : Statement}

/-- Statements that are the same but for their literals have the same tokens but for these. -/
theorem SameBut.tokens (h : st.SameBut P st') (hspelled : st.Spelled) :
    ∃ ts ts', Token.lex st.chars = some ts ∧ Token.lex st'.chars = some ts' ∧
      List.Forall₂ (Token.SameBut P) ts ts' := by
  have hlex {st : Statement} (h : st.Spelled) : Token.lex st.chars = some st.tokens ∧
      Token.lex (st.chars ++ ['\n']) = some st.tokens := by
    have hnil := st.lex_chars h []
    have hfeed := st.lex_chars h ['\n']
    rw [Token.lex_whitespace rfl] at hfeed
    rw [Token.lex, Option.map_some, List.append_nil] at hnil hfeed
    rw [List.append_nil] at hnil
    exact ⟨hnil, hfeed⟩
  have hnone : Token.LexedAlike P [] [] := by
    rw [Token.LexedAlike, Token.lex]
    exact .some .nil
  have hline := Token.LexedAlike.line (h.chars hspelled) hnone [] List.not_mem_nil
  obtain ⟨htokens, hfeed⟩ := hlex hspelled
  obtain ⟨htokens', hfeed'⟩ := hlex (h.spelled_iff.mp hspelled)
  rw [Token.LexedAlike, List.nil_append, List.nil_append, hfeed, hfeed'] at hline
  obtain ⟨hsame⟩ := hline
  exact ⟨st.tokens, st'.tokens, htokens, htokens', hsame⟩

end Statement

namespace Sketch

theorem toList_loopLines (indent : String) (statements : List Statement) :
    (loopLines indent statements).toList =
      (statements.map Statement.chars).flatMap fun u => indent.toList ++ (u ++ ['\n']) := by
  simp [loopLines, String.toList_join, List.flatMap_map]

/-- Behind a blank indentation the tokens of the loop are those of its statements. -/
theorem lex_loopLines {indent : String} (hindent : ∀ c ∈ indent.toList, c.isWhitespace = true)
    {statements : List Statement} (h : ∀ st ∈ statements, st.Spelled) :
    Token.lex (loopLines indent statements).toList =
      some (statements.flatMap Statement.tokens) := by
  have hblank (rest : List Char) : Token.lex (indent.toList ++ rest) = Token.lex rest := by
    generalize indent.toList = blanks at hindent
    induction blanks with
    | nil => rfl
    | cons c blanks ih =>
      obtain ⟨hc, hblanks⟩ := List.forall_mem_cons.mp hindent
      rw [List.cons_append, Token.lex_whitespace hc, ih hblanks]
  rw [toList_loopLines]
  induction statements with
  | nil => rw [List.map_nil, List.flatMap_nil, Token.lex, List.flatMap_nil]
  | cons st statements ih =>
    obtain ⟨hst, hrest⟩ := List.forall_mem_cons.mp h
    rw [List.map_cons, List.flatMap_cons, List.append_assoc, List.append_assoc, hblank,
      st.lex_chars hst, List.singleton_append, Token.lex_whitespace rfl, ih hrest]
    rfl

/-- The tokens of the loop as a whole, behind any indentation. -/
theorem lexedAlike_loopLines (indent : String) {statements statements' : List Statement}
    (h : List.Forall₂ (Statement.SameBut P) statements statements')
    (hspelled : ∀ st ∈ statements, st.Spelled)
    (hstart : ∀ st ∈ statements, Text.startsPlain st.chars = true) :
    Token.LexedAlike (fun a b => P a b ∨ a = b ∧ '"' ∈ indent.toList)
      (loopLines indent statements).toList (loopLines indent statements').toList := by
  rw [toList_loopLines, toList_loopLines]
  refine Token.LexedAlike.lines (fun hquote text => .inr ⟨rfl, hquote⟩) ?_
  rw [List.forall₂_map_left_iff, List.forall₂_map_right_iff]
  have hall := fun st hst => And.intro (hspelled st hst) (hstart st hst)
  have hlines := (List.forall₂_and_left statements statements').mpr ⟨hall, h⟩
  refine hlines.imp ?_
  rintro st st' ⟨⟨hspelled, hstart⟩, hsame⟩
  exact ⟨(hsame.chars hspelled).mono fun a b hab => .inl hab, hstart⟩

end Sketch

/-- The two workspaces are the same but for what was typed into texts, which `P` relates. -/
structure Workspace.SameBut (P : String → String → Prop) (w w' : Workspace) : Prop where
  blocks : List.Forall₂ (Block.SameBut P) w.blocks w'.blocks
  declared : w.declared = w'.declared
  oneBased : w.oneBased = w'.oneBased

namespace Workspace

variable {w w' : Workspace}

theorem SameBut.start_eq (h : w.SameBut P w') (options : Options) :
    Session.start w options = Session.start w' options := by
  rw [Session.start, Session.start, h.declared]

/-- The statements are the same but for what was typed, and nothing else comes of making them. -/
theorem SameBut.coupled_code (h : w.SameBut P w') :
    Generate.Coupled Eq w.code w'.code (List.Forall₂ (Statement.SameBut (Typed P))) := by
  have hblocks : List.Forall₂ (Block.SameBut P) (w.blocks.flatMap Block.stack)
      (w'.blocks.flatMap Block.stack) :=
    List.rel_flatMap h.blocks fun b b' hb => hb.stack
  rw [code_eq_mapM, code_eq_mapM]
  refine Generate.coupled_mapM hblocks fun b b' hb => hb.coupled_code.map fun code code' hcode => ?_
  cases hcode with
  | value he => exact .evaluate he
  | statement hst => exact hst

/-- A workspace with a text by itself. -/
def oneText (text : String) : Workspace :=
  { blocks := [⟨⟨"text", [("TEXT", .string text)]⟩, none, [], none⟩] }

theorem sameBut_oneText {a b : String} (h : P a b) : (oneText a).SameBut P (oneText b) :=
  ⟨.cons (.mk (.text (.cons (.typed h) .nil)) .nil .none) .nil, rfl, rfl⟩

theorem perform_oneText (text : String) :
    (Session.start (oneText text) {}).perform (oneText text).code =
      (.ok [.evaluate (.string text)], .new {}) :=
  rfl

end Workspace

end BlockSketch
