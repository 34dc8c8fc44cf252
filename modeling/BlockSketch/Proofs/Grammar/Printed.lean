import BlockSketch.Proofs.Grammar.Tree

/-!
# Printed expressions are read as what they are

An expression that is printed without regard to the grammar is read as something else as soon as an
operand is too loose for its place. `Expr.Grouped` says where no operand is, with the place of each
operand given by `Expr.level`, and `Expr.Spelled` says that names and numbers are such. The two are
enough: `Expr.read_chars` says that the printed text is then read as `Expr.tree`, the expression with
its parentheses forgotten.

The proof has two halves. `Expr.lex_chars` gets from characters to tokens, and `Expr.layer_tokens`
from tokens to the tree. For the second, what a layer does with the tokens behind an operand is
`Grammar.resume`, and where it does nothing with them the tokens start with one at which the layer
`Grammar.Stops`.
-/

namespace BlockSketch

/-- A numeral with a digit before the point has a text. -/
theorem Numeral.chars_ne_nil {n : Numeral} (h : n.whole ≠ []) : n.chars ≠ [] := by
  obtain ⟨d, digits, hwhole⟩ := List.exists_cons_of_ne_nil h
  rw [chars, charsWith, hwhole]
  exact List.cons_ne_nil _ _

namespace Expr

/-! ### What an expression means and where it fits -/

/-- The expression without its parentheses. -/
def tree : Expr → Tree
  | numeral n => .numeral n
  | identifier name => .identifier name
  | literal text => .literal text
  | call function argument => .call (.identifier function) [argument.tree]
  | callTwo function first second => .call (.identifier function) [first.tree, second.tree]
  | method object name => .call (.member object.tree name) []
  | methodOne object name argument => .call (.member object.tree name) [argument.tree]
  | methodTwo object name first second =>
    .call (.member object.tree name) [first.tree, second.tree]
  | negate operand => .negate operand.tree
  | not operand => .not operand.tree
  | binary op left right => .binary op left.tree right.tree
  | paren inner => inner.tree

/-- The layer of the grammar that an expression comes from. -/
def level : Expr → Nat
  | negate _ | not _ => 1
  | binary op _ _ => op.level
  | _ => 0

/-- No operand is too loose for its place: objects are of layer 0, operands of `-` and `!` of the
layer of these, and of the two operands of an operator the right one is of a tighter layer. -/
def Grouped : Expr → Prop
  | numeral _ | identifier _ | literal _ => True
  | call _ argument => argument.Grouped
  | callTwo _ first second => first.Grouped ∧ second.Grouped
  | method object _ => object.level = 0 ∧ object.Grouped
  | methodOne object _ argument => object.level = 0 ∧ object.Grouped ∧ argument.Grouped
  | methodTwo object _ first second =>
    object.level = 0 ∧ object.Grouped ∧ first.Grouped ∧ second.Grouped
  | negate operand | not operand => operand.level ≤ 1 ∧ operand.Grouped
  | binary op left right =>
    left.level ≤ op.level ∧ right.level < op.level ∧ left.Grouped ∧ right.Grouped
  | paren inner => inner.Grouped

/-- Names are identifiers and numbers have a digit before the point. -/
def Spelled : Expr → Prop
  | numeral n => n.whole ≠ []
  | identifier name => Identifier.Legal name
  | literal _ => True
  | call function argument => Identifier.Legal function ∧ argument.Spelled
  | callTwo function first second =>
    Identifier.Legal function ∧ first.Spelled ∧ second.Spelled
  | method object name => object.Spelled ∧ Identifier.Legal name
  | methodOne object name argument =>
    object.Spelled ∧ Identifier.Legal name ∧ argument.Spelled
  | methodTwo object name first second =>
    object.Spelled ∧ Identifier.Legal name ∧ first.Spelled ∧ second.Spelled
  | negate operand | not operand => operand.Spelled
  | binary _ left right => left.Spelled ∧ right.Spelled
  | paren inner => inner.Spelled

/-- The tokens of an expression. -/
def tokens : Expr → List Token
  | numeral n => [.numeral n]
  | identifier name => [.identifier name]
  | literal text => [.literal text]
  | call function argument =>
    .identifier function :: .openParen :: (argument.tokens ++ [.closeParen])
  | callTwo function first second =>
    .identifier function :: .openParen ::
      (first.tokens ++ .comma :: (second.tokens ++ [.closeParen]))
  | method object name =>
    object.tokens ++ [.dot, .identifier name, .openParen, .closeParen]
  | methodOne object name argument =>
    object.tokens ++ .dot :: .identifier name :: .openParen :: (argument.tokens ++ [.closeParen])
  | methodTwo object name first second =>
    object.tokens ++ .dot :: .identifier name :: .openParen ::
      (first.tokens ++ .comma :: (second.tokens ++ [.closeParen]))
  | negate operand => .minus :: operand.tokens
  | not operand => .bang :: operand.tokens
  | binary op left right => left.tokens ++ op.token :: right.tokens
  | paren inner => .openParen :: (inner.tokens ++ [.closeParen])

/-! ### From characters to tokens -/

theorem minusChars_ne_nil (operand : List Char) : minusChars operand ≠ [] := by
  rw [minusChars]
  split <;> exact List.cons_ne_nil _ _

/-- Only names and numerals can be without a text. -/
theorem chars_ne_nil_of_ne {e : Expr} (hname : ∀ name, e ≠ .identifier name)
    (hnumeral : ∀ n, e ≠ .numeral n) : e.chars ≠ [] := by
  cases e with
  | numeral n => exact absurd rfl (hnumeral n)
  | identifier name => exact absurd rfl (hname name)
  | literal | not | paren => exact List.cons_ne_nil _ _
  | call | callTwo | method | methodOne | methodTwo | binary =>
    exact List.append_ne_nil_of_right_ne_nil _ (List.cons_ne_nil _ _)
  | negate operand => exact minusChars_ne_nil operand.chars

theorem chars_ne_nil {e : Expr} (h : e.Spelled) : e.chars ≠ [] := by
  cases e with
  | numeral n => exact Numeral.chars_ne_nil h
  | identifier name =>
    obtain ⟨c, rest, hname, -, -⟩ := h
    change name.toList ≠ []
    rw [hname]
    exact List.cons_ne_nil _ _
  | _ => exact chars_ne_nil_of_ne nofun nofun

theorem breaks_cons {c : Char} (hc : Identifier.isWordChar c = false) (hdot : c ≠ '.')
    (rest : List Char) : Token.Breaks (c :: rest) :=
  ⟨hc, fun h => absurd h hdot⟩

/-- The point before a name is no part of the object before it. -/
theorem breaks_dot {name : String} (h : Identifier.Legal name) (rest : List Char) :
    Token.Breaks ('.' :: (name.toList ++ rest)) := by
  obtain ⟨c, more, hname, hc, -⟩ := h
  refine ⟨rfl, fun _ d hd => ?_⟩
  rw [hname] at hd
  obtain rfl : c = d := Option.some.inj hd
  exact Identifier.isDigit_of_isLetter hc

/-- A minus sign before an operand is a token of its own, whatever the operand starts with. -/
theorem lex_minusChars {operand : List Char} (h : operand ≠ []) (rest : List Char) :
    Token.lex (minusChars operand ++ rest) =
      (Token.lex (operand ++ rest)).map (.minus :: ·) := by
  rw [minusChars]
  split
  · rw [List.cons_append, List.cons_append, Token.lex_minus (by simp), Token.lex_blank]
  · next hhead =>
    rw [List.cons_append, Token.lex_minus]
    obtain ⟨c, more, rfl⟩ := List.exists_cons_of_ne_nil h
    exact hhead

/-- **The tokens of a printed expression** are those of the expression. -/
theorem lex_chars {e : Expr} (h : e.Spelled) {rest : List Char} (hrest : Token.Breaks rest) :
    Token.lex (e.chars ++ rest) = (Token.lex rest).map (e.tokens ++ ·) := by
  have hclose (rest : List Char) : Token.Breaks (')' :: rest) :=
    breaks_cons rfl (by decide) rest
  have hopen (rest : List Char) : Token.Breaks ('(' :: rest) :=
    breaks_cons rfl (by decide) rest
  have hcomma (rest : List Char) : Token.Breaks (',' :: rest) :=
    breaks_cons rfl (by decide) rest
  have hblank (rest : List Char) : Token.Breaks (' ' :: rest) :=
    breaks_cons rfl (by decide) rest
  induction e generalizing rest with
  | numeral n => exact Token.lex_numeral h hrest
  | identifier name => exact Token.lex_identifier h hrest
  | literal text => exact Token.lex_literal text rest
  | call function a iha =>
    simp only [chars, List.append_assoc, List.cons_append, List.nil_append]
    rw [Token.lex_identifier h.1 (hopen _), Token.lex_openParen, iha h.2 (hclose _),
      Token.lex_closeParen]
    simp [tokens, Function.comp_def]
  | callTwo function a b iha ihb =>
    simp only [chars, List.append_assoc, List.cons_append, List.nil_append]
    rw [Token.lex_identifier h.1 (hopen _), Token.lex_openParen, iha h.2.1 (hcomma _),
      Token.lex_comma, Token.lex_blank, ihb h.2.2 (hclose _), Token.lex_closeParen]
    simp [tokens, Function.comp_def]
  | method object name ih =>
    simp only [chars, List.append_assoc, List.cons_append, List.nil_append]
    rw [ih h.1 (breaks_dot h.2 _), Token.lex_dot, Token.lex_identifier h.2 (hopen _),
      Token.lex_openParen, Token.lex_closeParen]
    simp [tokens, Function.comp_def]
  | methodOne object name a ih iha =>
    simp only [chars, List.append_assoc, List.cons_append, List.nil_append]
    rw [ih h.1 (breaks_dot h.2.1 _), Token.lex_dot, Token.lex_identifier h.2.1 (hopen _),
      Token.lex_openParen, iha h.2.2 (hclose _), Token.lex_closeParen]
    simp [tokens, Function.comp_def]
  | methodTwo object name a b ih iha ihb =>
    simp only [chars, List.append_assoc, List.cons_append, List.nil_append]
    rw [ih h.1 (breaks_dot h.2.1 _), Token.lex_dot, Token.lex_identifier h.2.1 (hopen _),
      Token.lex_openParen, iha h.2.2.1 (hcomma _), Token.lex_comma, Token.lex_blank,
      ihb h.2.2.2 (hclose _), Token.lex_closeParen]
    simp [tokens, Function.comp_def]
  | negate operand ih =>
    rw [chars, lex_minusChars (chars_ne_nil (e := operand) h), ih h hrest]
    simp [tokens, Function.comp_def]
  | not operand ih =>
    rw [chars, List.cons_append, Token.lex_bang, ih h hrest]
    simp [tokens, Function.comp_def]
  | binary op left right ihl ihr =>
    simp only [chars, List.append_assoc, List.cons_append]
    rw [ihl h.1 (hblank _), BinaryOp.lex_sign, ihr h.2 hrest]
    simp [tokens, Function.comp_def]
  | paren inner ih =>
    simp only [chars, List.append_assoc, List.cons_append, List.nil_append]
    rw [Token.lex_openParen, ih h (hclose _), Token.lex_closeParen]
    simp [tokens, Function.comp_def]

end Expr

/-! ### From tokens to the tree -/

namespace Grammar

/-- What a layer does with the tokens behind an operand that is `t`. -/
def resume (inner : Parser Tree) : Nat → Tree → Parser Tree
  | 0, t => suffixes inner t
  | 1, t => fun tokens => some (t, tokens)
  | k + 2, t => operations (k + 2) (layer inner (k + 1)) t

/-- The tokens go on with nothing that a layer below `k` could take. -/
def Stops (k : Nat) (tokens : List Token) : Prop :=
  ∀ token ∈ tokens.head?, (1 ≤ k → token ≠ .openParen ∧ token ≠ .dot) ∧
    ∀ op, token.operator? = some op → k ≤ op.level

theorem Stops.mono {k l : Nat} {tokens : List Token} (h : Stops k tokens) (hle : l ≤ k) :
    Stops l tokens := by
  intro token htoken
  obtain ⟨hsuffix, hoperator⟩ := h token htoken
  exact ⟨fun hl => hsuffix (Nat.le_trans hl hle), fun op hop => Nat.le_trans hle (hoperator op hop)⟩

theorem stops_nil (k : Nat) : Stops k [] := by
  intro token htoken
  cases htoken

theorem stops_zero (tokens : List Token) : Stops 0 tokens :=
  fun _ _ => ⟨nofun, fun _ _ => Nat.zero_le _⟩

/-- A sign that no expression goes on with stops every layer. -/
theorem stops_cons {t : Token} (hopen : t ≠ .openParen) (hdot : t ≠ .dot)
    (hoperator : t.operator? = none) (k : Nat) (tokens : List Token) :
    Stops k (t :: tokens) := by
  intro other hother
  obtain rfl : t = other := Option.some.inj hother
  refine ⟨fun _ => ⟨hopen, hdot⟩, fun op hop => ?_⟩
  rw [hoperator] at hop
  cases hop

end Grammar

namespace BinaryOp

theorem operator?_token (op : BinaryOp) : op.token.operator? = some op := by
  cases op <;> rfl

theorem two_le_level (op : BinaryOp) : 2 ≤ op.level := by
  cases op <;> decide

theorem level_le_five (op : BinaryOp) : op.level ≤ 5 := by
  cases op <;> decide

/-- The token of an operator stops the layers below that of the operator. -/
theorem stops_token (op : BinaryOp) (tokens : List Token) :
    Grammar.Stops op.level (op.token :: tokens) := by
  intro other hother
  obtain rfl : op.token = other := Option.some.inj hother
  refine ⟨fun _ => ?_, fun op' hop => ?_⟩
  · cases op <;> exact ⟨nofun, nofun⟩
  · rw [operator?_token] at hop
    exact Nat.le_of_eq (congrArg level (Option.some.inj hop))

end BinaryOp

namespace Grammar

variable {inner : Parser Tree}

/-- A layer that stops leaves the operand as it is. -/
theorem resume_of_stops {k : Nat} {tokens : List Token} (h : Stops (k + 1) tokens) (t : Tree) :
    resume inner k t tokens = some (t, tokens) := by
  match k with
  | 0 =>
    rw [resume, suffixes.eq_def]
    split
    · exact absurd rfl (((h .openParen rfl).1 (by decide)).1)
    · exact absurd rfl (((h .dot rfl).1 (by decide)).2)
    · exact absurd rfl (((h .dot rfl).1 (by decide)).2)
    · rfl
  | 1 => rfl
  | k + 2 =>
    rw [resume, operations.eq_def]
    cases tokens with
    | nil => rfl
    | cons token rest =>
      simp only
      split
      · rfl
      · next op hop =>
        have hlevel : k + 3 ≤ op.level := (h token rfl).2 op hop
        rw [if_neg (by omega)]

end Grammar

namespace Expr

open Grammar (Parser layer resume Stops)

variable {inner : Parser Tree}

/-- The first token of an expression closes nothing, and it is an operator in front of an operand
only if the expression is of a layer above 0. -/
theorem tokens_eq_cons {e : Expr} (h : e.Grouped) :
    ∃ token rest, e.tokens = token :: rest ∧ token ≠ .closeParen ∧
      (e.level = 0 → token ≠ .minus ∧ token ≠ .bang) := by
  induction e with
  | numeral | identifier | literal | call | callTwo | paren =>
    exact ⟨_, _, rfl, nofun, fun _ => ⟨nofun, nofun⟩⟩
  | negate | not => exact ⟨_, _, rfl, nofun, nofun⟩
  | method object name ih =>
    obtain ⟨token, rest, htokens, hclose, hoperator⟩ := ih h.2
    exact ⟨token, _, congrArg (· ++ _) htokens, hclose, fun _ => hoperator h.1⟩
  | methodOne object name a ih _ =>
    obtain ⟨token, rest, htokens, hclose, hoperator⟩ := ih h.2.1
    exact ⟨token, _, congrArg (· ++ _) htokens, hclose, fun _ => hoperator h.1⟩
  | methodTwo object name a b ih _ _ =>
    obtain ⟨token, rest, htokens, hclose, hoperator⟩ := ih h.2.1
    exact ⟨token, _, congrArg (· ++ _) htokens, hclose, fun _ => hoperator h.1⟩
  | binary op left right ih _ =>
    obtain ⟨token, rest, htokens, hclose, -⟩ := ih h.2.2.1
    refine ⟨token, _, congrArg (· ++ _) htokens, hclose, fun hlevel => ?_⟩
    have := op.two_le_level
    change op.level = 0 at hlevel
    omega

/-- What a layer reads is read by every layer above it too. -/
theorem layer_of_level_le {e : Expr} (h : e.Grouped)
    (hread : ∀ rest, Stops e.level rest →
      layer inner e.level (e.tokens ++ rest) = resume inner e.level e.tree rest)
    {k : Nat} (hle : e.level ≤ k) {rest : List Token} (hstop : Stops k rest) :
    layer inner k (e.tokens ++ rest) = resume inner k e.tree rest := by
  induction hle with
  | refl => exact hread rest hstop
  | @step k hle ih =>
    have hbelow := ih (hstop.mono (Nat.le_succ k))
    rw [Grammar.resume_of_stops hstop] at hbelow
    match k with
    | 0 =>
      -- layer 1 looks for a sign in front, and what layer 0 reads starts with none
      obtain ⟨token, more, htokens, -, hoperator⟩ := tokens_eq_cons h
      obtain ⟨hminus, hbang⟩ := hoperator (Nat.le_zero.mp hle)
      rw [htokens, List.cons_append] at hbelow ⊢
      rw [layer, Grammar.unary.eq_3 _ _ (fun _ hr => hminus (List.cons.inj hr).1)
        (fun _ hr => hbang (List.cons.inj hr).1)]
      exact hbelow
    | k + 1 =>
      -- a row of operands starts with what the layer below reads
      rw [layer]
      simp only [hbelow]
      rfl

/-! #### Calls -/

/-- A parser for what stands in parentheses that can be relied on for expressions of fewer than
`bound` tokens. -/
def ReadBy (inner : Parser Tree) (bound : Nat) : Prop :=
  ∀ e : Expr, e.Grouped → e.tokens.length < bound → ∀ rest, Stops 6 rest →
    inner (e.tokens ++ rest) = some (e.tree, rest)

theorem stops_closeParen (k : Nat) (rest : List Token) : Stops k (.closeParen :: rest) :=
  Grammar.stops_cons (t := .closeParen) nofun nofun rfl k rest

theorem stops_comma (k : Nat) (rest : List Token) : Stops k (.comma :: rest) :=
  Grammar.stops_cons (t := .comma) nofun nofun rfl k rest

/-- The first argument, and then the others. -/
theorem arguments_tokens {a : Expr} (h : a.Grouped) {rest : List Token}
    (ha : inner (a.tokens ++ rest) = some (a.tree, rest)) :
    Grammar.arguments inner (a.tokens ++ rest) =
      (Grammar.moreArguments inner rest).map fun parsed => (a.tree :: parsed.1, parsed.2) := by
  obtain ⟨token, more, htokens, hclose, -⟩ := tokens_eq_cons h
  rw [htokens, List.cons_append] at ha ⊢
  rw [Grammar.arguments.eq_2 _ _ fun _ hr => hclose (List.cons.inj hr).1]
  simp only [ha]

/-- A call with one argument behind `t`. -/
theorem suffixes_call {a : Expr} (h : a.Grouped) (t : Tree) (rest : List Token)
    (ha : inner (a.tokens ++ .closeParen :: rest) = some (a.tree, .closeParen :: rest)) :
    Grammar.suffixes inner t (.openParen :: (a.tokens ++ .closeParen :: rest)) =
      Grammar.suffixes inner (.call t [a.tree]) rest := by
  have harguments := arguments_tokens h ha
  rw [Grammar.moreArguments, Option.map_some] at harguments
  rw [Grammar.suffixes]
  simp only [harguments]
  rw [if_pos (by simp; omega)]

/-- A call with two arguments behind `t`. -/
theorem suffixes_callTwo {a b : Expr} (h : a.Grouped) (t : Tree) (rest : List Token)
    (ha : inner (a.tokens ++ .comma :: (b.tokens ++ .closeParen :: rest)) =
      some (a.tree, .comma :: (b.tokens ++ .closeParen :: rest)))
    (hb : inner (b.tokens ++ .closeParen :: rest) = some (b.tree, .closeParen :: rest)) :
    Grammar.suffixes inner t
        (.openParen :: (a.tokens ++ .comma :: (b.tokens ++ .closeParen :: rest))) =
      Grammar.suffixes inner (.call t [a.tree, b.tree]) rest := by
  have harguments := arguments_tokens h ha
  rw [Grammar.moreArguments] at harguments
  simp only [hb] at harguments
  rw [if_pos (by simp), Grammar.moreArguments, Option.map_some, Option.map_some] at harguments
  rw [Grammar.suffixes]
  simp only [harguments]
  rw [if_pos (by simp; omega)]

/-- A member behind `t`. -/
theorem suffixes_member (t : Tree) (name : String) (rest : List Token) :
    Grammar.suffixes inner t (.dot :: .identifier name :: rest) =
      Grammar.suffixes inner (.member t name) rest := by
  rw [Grammar.suffixes]

/-- An object, and then all that stands behind it. -/
theorem suffixed_of_primary {tokens rest : List Token} {t : Tree}
    (h : Grammar.primary inner tokens = some (t, rest)) :
    layer inner 0 tokens = Grammar.suffixes inner t rest := by
  rw [layer, Grammar.suffixed, h]

/-! #### Operators -/

/-- A sign in front of an operand. -/
theorem layer_sign {sign : Token} {make : Tree → Tree}
    (hsign : ∀ tokens, Grammar.unary (Grammar.suffixed inner) (sign :: tokens) =
      (Grammar.unary (Grammar.suffixed inner) tokens).map fun parsed => (make parsed.1, parsed.2))
    {tokens rest : List Token} {t : Tree} (h : layer inner 1 tokens = resume inner 1 t rest) :
    layer inner 1 (sign :: tokens) = resume inner 1 (make t) rest := by
  change Grammar.unary (Grammar.suffixed inner) tokens = some (t, rest) at h
  change Grammar.unary (Grammar.suffixed inner) (sign :: tokens) = some (make t, rest)
  rw [hsign, h]
  rfl

/-- An operator behind its left operand, at its own layer. -/
theorem layer_operator (op : BinaryOp) {left right : Tree} {tokens behind rest : List Token}
    (hleft : layer inner op.level tokens = resume inner op.level left (op.token :: behind))
    (hright : layer inner (op.level - 1) behind = some (right, rest))
    (hrest : rest.length ≤ behind.length) :
    layer inner op.level tokens = resume inner op.level (.binary op left right) rest := by
  obtain ⟨k, hk⟩ : ∃ k, op.level = k + 2 := ⟨op.level - 2, by have := op.two_le_level; omega⟩
  rw [hk] at hleft hright ⊢
  change layer inner (k + 1) behind = _ at hright
  rw [hleft, resume, Grammar.operations]
  simp only [op.operator?_token, hk, hright]
  rw [if_pos trivial, if_pos hrest]
  rfl

/-! #### The whole expression -/

/-- **The tokens of an expression are read as its tree.** Each layer from that of the expression on
reads the expression and goes on with the tokens behind it, as it would behind any other operand. -/
theorem layer_tokens {bound : Nat} (hinner : ReadBy inner bound) {e : Expr} (h : e.Grouped)
    (hbound : e.tokens.length ≤ bound) {k : Nat} (hle : e.level ≤ k) {rest : List Token}
    (hstop : Stops k rest) :
    layer inner k (e.tokens ++ rest) = resume inner k e.tree rest := by
  induction e generalizing k rest with
  | numeral n => exact layer_of_level_le h (fun rest _ => rfl) hle hstop
  | identifier name => exact layer_of_level_le h (fun rest _ => rfl) hle hstop
  | literal text => exact layer_of_level_le h (fun rest _ => rfl) hle hstop
  | call function a _ =>
    simp only [tokens, List.length_cons, List.length_append, List.length_nil] at hbound
    refine layer_of_level_le h (fun rest _ => ?_) hle hstop
    have ha := hinner a h (by omega) _ (stops_closeParen 6 rest)
    simp only [tokens, List.cons_append, List.append_assoc, List.nil_append]
    exact (suffixed_of_primary rfl).trans (suffixes_call (a := a) h _ rest ha)
  | callTwo function a b _ _ =>
    simp only [tokens, List.length_cons, List.length_append, List.length_nil] at hbound
    refine layer_of_level_le h (fun rest _ => ?_) hle hstop
    have hb := hinner b h.2 (by omega) _ (stops_closeParen 6 rest)
    have ha := hinner a h.1 (by omega) _ (stops_comma 6 (b.tokens ++ .closeParen :: rest))
    simp only [tokens, List.cons_append, List.append_assoc, List.nil_append]
    exact (suffixed_of_primary rfl).trans (suffixes_callTwo h.1 _ rest ha hb)
  | method object name ih =>
    simp only [tokens, List.length_cons, List.length_append, List.length_nil] at hbound
    refine layer_of_level_le h (fun rest _ => ?_) hle hstop
    simp only [tokens, List.cons_append, List.append_assoc, List.nil_append]
    refine (ih h.2 (by omega) (Nat.le_of_eq h.1) (Grammar.stops_zero _)).trans ?_
    rw [resume, suffixes_member, Grammar.suffixes, Grammar.arguments]
    exact if_pos (Nat.le_succ _)
  | methodOne object name a ih _ =>
    simp only [tokens, List.length_cons, List.length_append, List.length_nil] at hbound
    refine layer_of_level_le h (fun rest _ => ?_) hle hstop
    have ha := hinner a h.2.2 (by omega) _ (stops_closeParen 6 rest)
    simp only [tokens, List.cons_append, List.append_assoc, List.nil_append]
    refine (ih h.2.1 (by omega) (Nat.le_of_eq h.1) (Grammar.stops_zero _)).trans ?_
    rw [resume, suffixes_member]
    exact suffixes_call h.2.2 _ rest ha
  | methodTwo object name a b ih _ _ =>
    simp only [tokens, List.length_cons, List.length_append, List.length_nil] at hbound
    refine layer_of_level_le h (fun rest _ => ?_) hle hstop
    have hb := hinner b h.2.2.2 (by omega) _ (stops_closeParen 6 rest)
    have ha := hinner a h.2.2.1 (by omega) _ (stops_comma 6 (b.tokens ++ .closeParen :: rest))
    simp only [tokens, List.cons_append, List.append_assoc, List.nil_append]
    refine (ih h.2.1 (by omega) (Nat.le_of_eq h.1) (Grammar.stops_zero _)).trans ?_
    rw [resume, suffixes_member]
    exact suffixes_callTwo h.2.2.1 _ rest ha hb
  | negate operand ih =>
    simp only [tokens, List.length_cons] at hbound
    refine layer_of_level_le h (fun rest hrest => ?_) hle hstop
    exact layer_sign (fun _ => rfl) (ih h.2 (by omega) h.1 hrest)
  | not operand ih =>
    simp only [tokens, List.length_cons] at hbound
    refine layer_of_level_le h (fun rest hrest => ?_) hle hstop
    exact layer_sign (fun _ => rfl) (ih h.2 (by omega) h.1 hrest)
  | binary op left right ihl ihr =>
    simp only [tokens, List.length_cons, List.length_append] at hbound
    refine layer_of_level_le h (fun rest hrest => ?_) hle hstop
    obtain ⟨hleft, hright, hgl, hgr⟩ := h
    simp only [tokens, List.cons_append, List.append_assoc]
    have hstart := ihl hgl (by omega) hleft (op.stops_token (right.tokens ++ rest))
    -- the right operand ends where the operator's own layer goes on
    have hoperand : layer inner (op.level - 1) (right.tokens ++ rest) = some (right.tree, rest) := by
      obtain ⟨k, hk⟩ : ∃ k, op.level = k + 1 := ⟨op.level - 1, by omega⟩
      change Stops op.level rest at hrest
      rw [hk] at hrest hright ⊢
      rw [← Grammar.resume_of_stops hrest]
      exact ihr hgr (by omega) (Nat.le_of_lt_succ hright) (hrest.mono (Nat.le_succ k))
    exact layer_operator op hstart hoperand (by simp)
  | paren e _ =>
    simp only [tokens, List.length_cons, List.length_append, List.length_nil] at hbound
    refine layer_of_level_le h (fun rest _ => ?_) hle hstop
    have he := hinner e h (by omega) _ (stops_closeParen 6 rest)
    simp only [tokens, List.cons_append, List.append_assoc, List.nil_append]
    refine suffixed_of_primary ?_
    rw [Grammar.primary]
    simp only [he]
    rfl

/-- The bound of the parser is enough. -/
theorem readBy_expression (bound : Nat) : ReadBy (Grammar.expression bound) bound := by
  induction bound with
  | zero => exact fun e _ hbound => absurd hbound (Nat.not_lt_zero _)
  | succ bound ih =>
    intro e h hbound rest hstop
    have hlevel : e.level ≤ 5 := by
      cases e with
      | binary op => exact op.level_le_five
      | _ => simp [level]
    rw [Grammar.expression,
      layer_tokens ih h (Nat.le_of_lt_succ hbound) hlevel (hstop.mono (Nat.le_succ 5)),
      Grammar.resume_of_stops hstop]

/-- The tokens of an expression are parsed as its tree. -/
theorem parse_tokens {e : Expr} (h : e.Grouped) : Tree.parse e.tokens = some e.tree := by
  have hparse := readBy_expression (e.tokens.length + 1) e h (Nat.lt_succ_self _) []
    (Grammar.stops_nil 6)
  rw [List.append_nil] at hparse
  rw [Tree.parse, hparse]

/-- **A printed expression is read as what it is**, if nothing in it is out of place. -/
theorem read_chars {e : Expr} (hspelled : e.Spelled) (hgrouped : e.Grouped) :
    Tree.read e.chars = some e.tree := by
  have hlex := lex_chars hspelled (show Token.Breaks [] from trivial)
  rw [List.append_nil, Token.lex, Option.map_some, List.append_nil] at hlex
  rw [Tree.read, hlex, Option.bind_some, parse_tokens hgrouped]

end Expr

end BlockSketch
