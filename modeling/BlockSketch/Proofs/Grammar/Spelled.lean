import BlockSketch.Proofs.Grammar.Printed
import BlockSketch.Proofs.Text.Lines
import BlockSketch.Proofs.Text.Literals
import BlockSketch.Statement

/-!
# Printed code

What is printed outside of literals are names, numbers and signs, and none of them has a character
that is not plain. So if two expressions are the same but for the texts of their literals, what is
printed for them is the same but for its literals (`Expr.SameBut.chars`), and the same is true of
statements.

A statement ends in a semicolon, which no token goes on behind. So its tokens are found in its line
whatever comes after it (`Statement.lex_chars`).
-/

namespace BlockSketch

/-! ### Names and numbers are plain -/

namespace Identifier

theorem isPlain_of_isWordChar {c : Char} (h : isWordChar c = true) : Text.isPlain c = true := by
  simp only [Text.isPlain, Bool.and_eq_true, bne_iff_ne]
  refine ⟨⟨⟨?_, ?_⟩, ?_⟩, ?_⟩ <;> rintro rfl <;> cases h

theorem Legal.isPlain {name : String} (h : Legal name) :
    ∀ c ∈ name.toList, Text.isPlain c = true := by
  obtain ⟨c, rest, hname, hc, hrest⟩ := h
  rw [hname]
  refine List.forall_mem_cons.mpr ⟨?_, fun d hd => isPlain_of_isWordChar (hrest d hd)⟩
  exact isPlain_of_isWordChar (by rw [isWordChar, hc, Bool.true_or])

end Identifier

namespace Numeral

theorem isPlain_digits (digits : List Digit) :
    ∀ c ∈ Digits.chars digits, Text.isPlain c = true := by
  rw [Digits.chars, List.forall_mem_map]
  exact fun d _ => (by decide : ∀ d : Digit, Text.isPlain d.char = true) d

theorem isPlain_chars (n : Numeral) : ∀ c ∈ n.chars, Text.isPlain c = true := by
  obtain ⟨whole, fraction, e⟩ := n
  rw [chars, charsWith, List.forall_mem_append, List.forall_mem_append]
  refine ⟨⟨isPlain_digits whole, ?_⟩, ?_⟩
  · cases fraction with
    | nil => exact List.forall_mem_nil _
    | cons d digits => exact List.forall_mem_cons.mpr ⟨rfl, isPlain_digits (d :: digits)⟩
  · cases e with
    | none => exact List.forall_mem_nil _
    | some e =>
      refine List.forall_mem_cons.mpr ⟨rfl, ?_⟩
      rw [exponentChars, List.forall_mem_append]
      refine ⟨?_, isPlain_digits _⟩
      split
      · exact List.forall_mem_singleton.mpr rfl
      · exact List.forall_mem_nil _

end Numeral

namespace Expr

variable {P : String → String → Prop}

/-- The two expressions are the same but for the texts of their literals, which `P` relates. -/
inductive SameBut (P : String → String → Prop) : Expr → Expr → Prop
  | numeral (n : Numeral) : SameBut P (.numeral n) (.numeral n)
  | identifier (name : String) : SameBut P (.identifier name) (.identifier name)
  | literal {a b : String} : P a b → SameBut P (.literal a) (.literal b)
  | call {a a' : Expr} (function : String) : SameBut P a a' →
      SameBut P (.call function a) (.call function a')
  | callTwo {a a' b b' : Expr} (function : String) : SameBut P a a' → SameBut P b b' →
      SameBut P (.callTwo function a b) (.callTwo function a' b')
  | method {a a' : Expr} (name : String) : SameBut P a a' →
      SameBut P (.method a name) (.method a' name)
  | methodOne {a a' b b' : Expr} (name : String) : SameBut P a a' → SameBut P b b' →
      SameBut P (.methodOne a name b) (.methodOne a' name b')
  | methodTwo {a a' b b' c c' : Expr} (name : String) : SameBut P a a' → SameBut P b b' →
      SameBut P c c' → SameBut P (.methodTwo a name b c) (.methodTwo a' name b' c')
  | negate {a a' : Expr} : SameBut P a a' → SameBut P (.negate a) (.negate a')
  | not {a a' : Expr} : SameBut P a a' → SameBut P (.not a) (.not a')
  | binary {a a' b b' : Expr} (op : BinaryOp) : SameBut P a a' → SameBut P b b' →
      SameBut P (.binary op a b) (.binary op a' b')
  | paren {a a' : Expr} : SameBut P a a' → SameBut P (.paren a) (.paren a')

theorem sameBut_self (e : Expr) : e.SameBut Eq e := by
  induction e with
  | numeral n => exact .numeral n
  | identifier name => exact .identifier name
  | literal text => exact .literal rfl
  | call f _ ih => exact .call f ih
  | callTwo f _ _ iha ihb => exact .callTwo f iha ihb
  | method _ name ih => exact .method name ih
  | methodOne _ name _ ih iha => exact .methodOne name ih iha
  | methodTwo _ name _ _ ih iha ihb => exact .methodTwo name ih iha ihb
  | negate _ ih => exact .negate ih
  | not _ ih => exact .not ih
  | binary op _ _ iha ihb => exact .binary op iha ihb
  | paren _ ih => exact .paren ih

/-- **Expressions that are the same but for their literals are printed so.** -/
theorem SameBut.chars {e e' : Expr} (h : e.SameBut P e') (hspelled : e.Spelled) :
    Text.SameBut P e.chars e'.chars := by
  have hclose : Text.SameBut P [')'] [')'] := .char rfl .nil
  induction h with
  | numeral n => exact .of_isPlain n.isPlain_chars
  | identifier name => exact .of_isPlain (Identifier.Legal.isPlain hspelled)
  | literal hab => exact .of_encode hab
  | call f _ ih =>
    have hname := Text.SameBut.of_isPlain (P := P) hspelled.1.isPlain
    exact hname.append (.char rfl ((ih hspelled.2).append hclose))
  | callTwo f _ _ iha ihb =>
    obtain ⟨hf, ha, hb⟩ := hspelled
    refine (Text.SameBut.of_isPlain hf.isPlain).append (.char rfl ((iha ha).append ?_))
    exact .char rfl (.char rfl ((ihb hb).append hclose))
  | method name _ ih =>
    obtain ⟨ho, hname⟩ := hspelled
    refine (ih ho).append (.char rfl ((Text.SameBut.of_isPlain hname.isPlain).append ?_))
    exact .char rfl hclose
  | methodOne name _ _ ih iha =>
    obtain ⟨ho, hname, ha⟩ := hspelled
    refine (ih ho).append (.char rfl ((Text.SameBut.of_isPlain hname.isPlain).append ?_))
    exact .char rfl ((iha ha).append hclose)
  | methodTwo name _ _ _ ih iha ihb =>
    obtain ⟨ho, hname, ha, hb⟩ := hspelled
    refine (ih ho).append (.char rfl ((Text.SameBut.of_isPlain hname.isPlain).append ?_))
    refine .char rfl ((iha ha).append ?_)
    exact .char rfl (.char rfl ((ihb hb).append hclose))
  | negate _ ih =>
    have ha := ih hspelled
    rw [Expr.chars, Expr.chars, minusChars, minusChars, ha.head?_eq]
    split
    · exact .char rfl (.char rfl ha)
    · exact .char rfl ha
  | not _ ih => exact .char rfl (ih hspelled)
  | binary op _ _ iha ihb =>
    have hsign : Text.SameBut P op.sign op.sign := by
      cases op <;> exact .of_isPlain (List.all_eq_true.mp rfl)
    exact (iha hspelled.1).append (.char rfl (hsign.append (.char rfl (ihb hspelled.2))))
  | paren _ ih => exact .char rfl ((ih hspelled).append hclose)

/-- Names and numbers are the same in both. -/
theorem SameBut.spelled_iff {e e' : Expr} (h : e.SameBut P e') : e.Spelled ↔ e'.Spelled := by
  induction h with
  | numeral | identifier | literal => exact Iff.rfl
  | call | method => simp_all only [Spelled]
  | callTwo | methodOne | methodTwo | binary => simp_all only [Spelled]
  | negate _ ih | not _ ih | paren _ ih => exact ih

end Expr

/-! ### Statements -/

namespace Statement

variable {P : String → String → Prop} {st st' : Statement}

/-- The target is an identifier, and the value is spelled. -/
def Spelled : Statement → Prop
  | increase target value | assign target value => Identifier.Legal target ∧ value.Spelled
  | evaluate value => value.Spelled

/-- The tokens of a statement. -/
def tokens : Statement → List Token
  | increase target value => .identifier target :: .plusAssign :: (value.tokens ++ [.semicolon])
  | assign target value => .identifier target :: .assign :: (value.tokens ++ [.semicolon])
  | evaluate value => value.tokens ++ [.semicolon]

/-- The two statements are the same but for the texts of their literals, which `P` relates. -/
inductive SameBut (P : String → String → Prop) : Statement → Statement → Prop
  | increase {e e' : Expr} (target : String) : e.SameBut P e' →
      SameBut P (.increase target e) (.increase target e')
  | assign {e e' : Expr} (target : String) : e.SameBut P e' →
      SameBut P (.assign target e) (.assign target e')
  | evaluate {e e' : Expr} : e.SameBut P e' → SameBut P (.evaluate e) (.evaluate e')

theorem sameBut_self (st : Statement) : st.SameBut Eq st := by
  cases st with
  | increase target value => exact .increase target value.sameBut_self
  | assign target value => exact .assign target value.sameBut_self
  | evaluate value => exact .evaluate value.sameBut_self

/-- Statements that are the same but for their literals are printed so. -/
theorem SameBut.chars (h : st.SameBut P st') (hspelled : st.Spelled) :
    Text.SameBut P st.chars st'.chars := by
  have hend : Text.SameBut P [';'] [';'] := .char rfl .nil
  cases h with
  | increase target h =>
    obtain ⟨htarget, hvalue⟩ := hspelled
    have hsign : Text.SameBut P [' ', '+', '=', ' '] [' ', '+', '=', ' '] :=
      .of_isPlain (List.all_eq_true.mp rfl)
    have hname := Text.SameBut.of_isPlain (P := P) htarget.isPlain
    exact ((hname.append hsign).append (h.chars hvalue)).append hend
  | assign target h =>
    obtain ⟨htarget, hvalue⟩ := hspelled
    have hsign : Text.SameBut P [' ', '=', ' '] [' ', '=', ' '] :=
      .of_isPlain (List.all_eq_true.mp rfl)
    have hname := Text.SameBut.of_isPlain (P := P) htarget.isPlain
    exact ((hname.append hsign).append (h.chars hvalue)).append hend
  | evaluate h => exact (h.chars hspelled).append hend

theorem SameBut.spelled_iff (h : st.SameBut P st') : st.Spelled ↔ st'.Spelled := by
  cases h with
  | increase target h | assign target h => exact and_congr_right fun _ => h.spelled_iff
  | evaluate h => exact h.spelled_iff

/-- **A statement is on one line**, whatever texts are in it. -/
theorem Spelled.unbroken (h : st.Spelled) : Text.Unbroken st.chars :=
  (st.sameBut_self.chars h).unbroken

theorem getLast?_chars (st : Statement) : st.chars.getLast? = some ';' := by
  cases st <;> exact List.getLast?_concat

theorem Spelled.isLine (h : st.Spelled) : Text.IsLine st.chars := by
  refine ⟨fun hmem => (h.unbroken _ hmem).1 rfl, ?_⟩
  rw [getLast?_chars]
  decide

/-- **The tokens of a printed statement** are those of the statement, whatever follows it. -/
theorem lex_chars (h : st.Spelled) (rest : List Char) :
    Token.lex (st.chars ++ rest) = (Token.lex rest).map (st.tokens ++ ·) := by
  have hsemicolon : Token.lex (';' :: rest) = (Token.lex rest).map (.semicolon :: ·) :=
    Token.lex_cons rfl rfl (Nat.le_refl _)
  have hbreaks : Token.Breaks (';' :: rest) := Expr.breaks_cons rfl (by decide) rest
  have hblank (rest : List Char) : Token.Breaks (' ' :: rest) :=
    Expr.breaks_cons rfl (by decide) rest
  cases st with
  | increase target value =>
    obtain ⟨htarget, hvalue⟩ := h
    simp only [chars, List.append_assoc, List.cons_append, List.nil_append]
    rw [Token.lex_identifier htarget (hblank _), Token.lex_blank,
      Token.lex_cons (t := .plusAssign) rfl rfl (by simp), Token.lex_blank,
      Expr.lex_chars hvalue hbreaks, hsemicolon]
    simp [tokens, Function.comp_def]
  | assign target value =>
    obtain ⟨htarget, hvalue⟩ := h
    simp only [chars, List.append_assoc, List.cons_append, List.nil_append]
    rw [Token.lex_identifier htarget (hblank _), Token.lex_blank,
      Token.lex_cons (t := .assign) rfl rfl (by simp), Token.lex_blank,
      Expr.lex_chars hvalue hbreaks, hsemicolon]
    simp [tokens, Function.comp_def]
  | evaluate value =>
    simp only [chars, List.append_assoc, List.cons_append, List.nil_append]
    rw [Expr.lex_chars h hbreaks, hsemicolon]
    simp [tokens, Function.comp_def]

end Statement

end BlockSketch
