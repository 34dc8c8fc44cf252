import BlockSketch.Proofs.Decimal.Layout
import BlockSketch.Proofs.Grammar.Printed
import BlockSketch.Proofs.Meaning.Intended

/-!
# Expressions that have a tree

What has to be kept in mind while code is put together is `Expr.Means`: an expression has a tree,
nothing in it is out of place, and it is of a certain layer of the grammar or of a tighter one. There
is a law for each way to build an expression, and none of them looks at a text.

A tier and the grammar meet in two places. `Precedence.level` is the loosest layer that an expression
of a tier may be of; some rules give their code a looser tier than it has, and so it need not be of
just that layer. `Precedence.room` is the loosest layer that fits where a tier is demanded. That the
first is within the second whenever no parentheses are put (`Precedence.level_le_room`) is the whole
truth about parentheses, and the rules have to see to it only that the places of their sockets demand
enough.
-/

namespace BlockSketch

/-! ### Tiers and layers -/

namespace Precedence

/-- The loosest layer of the grammar that an expression of a tier may be of. -/
def level : Precedence → Nat
  | atomic | member | functionCall | unaryPostfix => 0
  | unaryPrefix => 1
  | multiplicative => 2
  | additive | shift => 3
  | relational => 4
  | _ => 5

/-- The loosest layer that an expression may be of where a tier is demanded. -/
def room : Precedence → Nat
  | atomic | member | functionCall | unaryPostfix => 0
  | unaryPrefix | multiplicative => 1
  | additive => 2
  | shift | relational => 3
  | equality => 4
  | _ => 5

/-- **Without parentheses there is room.** -/
theorem level_le_room {required actual : Precedence} (h : required.needsParens actual = false) :
    actual.level ≤ required.room := by
  have hrank : actual.rank ≤ required.rank := by
    by_contra hlt
    rw [needsParens_of_rank_lt (Nat.lt_of_not_le hlt)] at h
    cases h
  rcases Nat.lt_or_eq_of_le hrank with hlt | heq
  · revert hlt
    cases required <;> cases actual <;> decide
  · obtain rfl := rank_injective heq
    rw [needsParens_self] at h
    revert h
    cases actual <;> decide

end Precedence

/-! ### Expressions -/

namespace Expr

section Trees

/-! #### The tree of a compound expression -/

variable (f name : String) (op : BinaryOp) (a b object : Expr)

theorem tree_call : (call f a).tree = .apply f [a.tree] := rfl

theorem tree_callTwo : (callTwo f a b).tree = .apply f [a.tree, b.tree] := rfl

theorem tree_method : (method object name).tree = .invoke object.tree name [] := rfl

theorem tree_methodOne : (methodOne object name a).tree = .invoke object.tree name [a.tree] := rfl

theorem tree_methodTwo :
    (methodTwo object name a b).tree = .invoke object.tree name [a.tree, b.tree] := rfl

theorem tree_negate : (negate a).tree = .negate a.tree := rfl

theorem tree_not : (not a).tree = .not a.tree := rfl

theorem tree_binary : (binary op a b).tree = .binary op a.tree b.tree := rfl

end Trees

/-! #### What is kept in mind -/

/-- The expression has the tree `t`, nothing in it is out of place, and it is of a layer up to
`level`. -/
structure Means (e : Expr) (t : Tree) (level : Nat) : Prop where
  spelled : e.Spelled
  grouped : e.Grouped
  tree_eq : e.tree = t
  level_le : e.level ≤ level

/-- What an expression means is read off its text. -/
theorem Means.read {e : Expr} {t : Tree} {level : Nat} (h : e.Means t level) :
    Tree.read e.chars = some t := by
  rw [read_chars h.spelled h.grouped, h.tree_eq]

variable {e a b object : Expr} {t ta tb : Tree} {i j k : Nat}

theorem Means.mono (h : e.Means t i) (hle : i ≤ j) : e.Means t j :=
  { h with level_le := Nat.le_trans h.level_le hle }

theorem Means.level_eq (h : e.Means t 0) : e.level = 0 :=
  Nat.le_zero.mp h.level_le

theorem means_numeral {n : Numeral} (h : n.whole ≠ []) :
    (numeral n).Means (.numeral n) 0 :=
  ⟨h, trivial, rfl, Nat.le_refl 0⟩

theorem means_nat (n : Nat) : (nat n).Means (.nat n) 0 :=
  means_numeral (Digits.ofNat_ne_nil n)

theorem means_identifier {name : String} (h : Identifier.Legal name) :
    (identifier name).Means (.identifier name) 0 :=
  ⟨h, trivial, rfl, Nat.le_refl 0⟩

theorem means_literal (text : String) : (literal text).Means (.literal text) 0 :=
  ⟨trivial, trivial, rfl, Nat.le_refl 0⟩

theorem means_pi : (identifier "M_PI").Means .pi 0 :=
  means_identifier (by decide)

theorem Means.call {f : String} (hname : Identifier.Legal f) (ha : a.Means ta i) :
    (call f a).Means (.apply f [ta]) 0 :=
  ⟨⟨hname, ha.spelled⟩, ha.grouped, by rw [tree_call, ha.tree_eq], Nat.le_refl 0⟩

theorem Means.callTwo {f : String} (hname : Identifier.Legal f) (ha : a.Means ta i)
    (hb : b.Means tb j) : (callTwo f a b).Means (.apply f [ta, tb]) 0 :=
  ⟨⟨hname, ha.spelled, hb.spelled⟩, ⟨ha.grouped, hb.grouped⟩,
    by rw [tree_callTwo, ha.tree_eq, hb.tree_eq], Nat.le_refl 0⟩

theorem Means.method {name : String} (hname : Identifier.Legal name) (h : object.Means t 0) :
    (method object name).Means (.invoke t name []) 0 :=
  ⟨⟨h.spelled, hname⟩, ⟨h.level_eq, h.grouped⟩, by rw [tree_method, h.tree_eq],
    Nat.le_refl 0⟩

theorem Means.methodOne {name : String} (hname : Identifier.Legal name) (h : object.Means t 0)
    (ha : a.Means ta i) : (methodOne object name a).Means (.invoke t name [ta]) 0 :=
  ⟨⟨h.spelled, hname, ha.spelled⟩, ⟨h.level_eq, h.grouped, ha.grouped⟩,
    by rw [tree_methodOne, h.tree_eq, ha.tree_eq], Nat.le_refl 0⟩

theorem Means.methodTwo {name : String} (hname : Identifier.Legal name) (h : object.Means t 0)
    (ha : a.Means ta i) (hb : b.Means tb j) :
    (methodTwo object name a b).Means (.invoke t name [ta, tb]) 0 :=
  ⟨⟨h.spelled, hname, ha.spelled, hb.spelled⟩, ⟨h.level_eq, h.grouped, ha.grouped, hb.grouped⟩,
    by rw [tree_methodTwo, h.tree_eq, ha.tree_eq, hb.tree_eq], Nat.le_refl 0⟩

theorem Means.negate (h : e.Means t 1) : (negate e).Means (.negate t) 1 :=
  ⟨h.spelled, ⟨h.level_le, h.grouped⟩, by rw [tree_negate, h.tree_eq], Nat.le_refl 1⟩

theorem Means.not (h : e.Means t 1) : (not e).Means (.not t) 1 :=
  ⟨h.spelled, ⟨h.level_le, h.grouped⟩, by rw [tree_not, h.tree_eq], Nat.le_refl 1⟩

/-- An operator needs a right operand of a tighter layer than its own. -/
theorem Means.binary (op : BinaryOp) (ha : a.Means ta i) (hb : b.Means tb j)
    (hi : i ≤ op.level) (hj : j < op.level) :
    (binary op a b).Means (.binary op ta tb) op.level :=
  ⟨⟨ha.spelled, hb.spelled⟩,
    ⟨Nat.le_trans ha.level_le hi, Nat.lt_of_le_of_lt hb.level_le hj, ha.grouped, hb.grouped⟩,
    by rw [tree_binary, ha.tree_eq, hb.tree_eq], Nat.le_refl _⟩

theorem Means.paren (h : e.Means t i) : (paren e).Means t 0 :=
  ⟨h.spelled, h.grouped, h.tree_eq, Nat.le_refl 0⟩

theorem means_string (content : String) : (string content).Means (.string content) 0 :=
  (means_literal content).call (by decide)

/-- A number in writing. -/
theorem means_number (v : Binary64) :
    (number v).Means (.number v) (if v.isNegative then 1 else 0) := by
  have hmagnitude := means_numeral (numberLayout.numeral_whole_ne_nil v.magnitude)
  rw [number, Tree.number]
  cases v.isNegative with
  | true => exact (hmagnitude.mono (Nat.zero_le 1)).negate
  | false => exact hmagnitude

end Expr

/-! ### Code -/

namespace Fragment

/-- The expression means `t`, and the tier does not promise more than the layer keeps. -/
def Means (f : Fragment) (t : Tree) : Prop :=
  f.expr.Means t f.tier.level

/-- **What is put into a place fits it.** -/
theorem Means.fit {f : Fragment} {t : Tree} (h : f.Means t) (place : Precedence) :
    (f.fit place).Means t place.room := by
  rw [Fragment.fit]
  split
  · exact (Expr.Means.paren h).mono (Nat.zero_le _)
  · next hbare => exact Expr.Means.mono h (Precedence.level_le_room (Bool.not_eq_true _ ▸ hbare))

end Fragment

namespace Statement

/-- The statement puts `target`, then `sign`, then an expression with the tree `t`. -/
def Means (st : Statement) (target : String) (sign : Token) (t : Tree) : Prop :=
  match st with
  | increase x value => x = target ∧ sign = .plusAssign ∧ value.Means t 5
  | assign x value => x = target ∧ sign = .assign ∧ value.Means t 5
  | evaluate _ => False

/-- A statement is read as the assignment that it means. -/
theorem Means.lex {st : Statement} {target : String} {sign : Token} {t : Tree}
    (hlegal : Identifier.Legal target) (h : st.Means target sign t) :
    ∃ rhs, Token.lex st.text.toList = some (.identifier target :: sign :: (rhs ++ [.semicolon])) ∧
      Tree.parse rhs = some t := by
  have hbreaks : Token.Breaks [';', '\n'] := Expr.breaks_cons rfl (by decide) _
  have hblank (rest : List Char) : Token.Breaks (' ' :: rest) :=
    Expr.breaks_cons rfl (by decide) rest
  have hend : Token.lex [';', '\n'] = some [.semicolon] := by
    rw [Token.lex_cons (t := .semicolon) rfl rfl (Nat.le_refl _),
      Token.lex_whitespace (c := '\n') rfl, Token.lex, Option.map_some]
  cases st with
  | increase x value =>
    obtain ⟨rfl, rfl, hvalue⟩ := h
    refine ⟨value.tokens, ?_, by rw [Expr.parse_tokens hvalue.grouped, hvalue.tree_eq]⟩
    rw [text, String.toList_ofList, line, chars]
    simp only [List.append_assoc, List.cons_append, List.nil_append]
    rw [Token.lex_identifier hlegal (hblank _), Token.lex_blank,
      Token.lex_cons (t := .plusAssign) rfl rfl (by simp), Token.lex_blank,
      Expr.lex_chars hvalue.spelled hbreaks, hend]
    rfl
  | assign x value =>
    obtain ⟨rfl, rfl, hvalue⟩ := h
    refine ⟨value.tokens, ?_, by rw [Expr.parse_tokens hvalue.grouped, hvalue.tree_eq]⟩
    rw [text, String.toList_ofList, line, chars]
    simp only [List.append_assoc, List.cons_append, List.nil_append]
    rw [Token.lex_identifier hlegal (hblank _), Token.lex_blank,
      Token.lex_cons (t := .assign) rfl rfl (by simp), Token.lex_blank,
      Expr.lex_chars hvalue.spelled hbreaks, hend]
    rfl
  | evaluate value => exact h.elim

end Statement

namespace Code

/-- A value has the tree that is intended, and a statement assigns what is intended to some
variable. -/
def Means (code : Code) (intended : Option Tree) (assignment : String → Option (Token × Tree)) :
    Prop :=
  match code with
  | value f => ∃ t, intended = some t ∧ f.Means t
  | statement st => ∃ target sign t, Identifier.Legal target ∧
      assignment target = some (sign, t) ∧ st.Means target sign t

end Code

end BlockSketch
