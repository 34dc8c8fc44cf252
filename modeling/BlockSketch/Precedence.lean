/-!
# Precedence: how tightly a piece of C binds

A block's code is a C expression that will be put into the code of another block. Whether it needs
parentheses there depends on two tiers only: the tier of the expression itself and the tier that
the surrounding code demands.

* `Precedence` lists the tiers, tightest first; `Precedence.rank` is the place in that list.
* `Precedence.needsParens` is the decision. A looser expression is always enclosed and a tighter
  one never; at equal tiers the answer is `Precedence.nestsFreely`, which holds where regrouping
  cannot change the meaning.
* `Precedence.wrap` carries the decision out on a text.
-/

namespace BlockSketch

/-- The tiers of C expressions, tightest first. The last tier, `any`, is what a place demands that
accepts every expression as it stands, such as the argument of a call with one argument. -/
inductive Precedence
  | atomic
  | member
  | functionCall
  | unaryPostfix
  | unaryPrefix
  | multiplicative
  | additive
  | shift
  | relational
  | equality
  | bitwiseAnd
  | bitwiseXor
  | bitwiseOr
  | logicalAnd
  | logicalOr
  | conditional
  | assignment
  | comma
  | any
deriving DecidableEq, Repr

namespace Precedence

/-- The place of a tier, counted from the tightest: a larger rank binds more loosely. -/
def rank : Precedence → Nat
  | atomic => 0
  | member => 1
  | functionCall => 2
  | unaryPostfix => 3
  | unaryPrefix => 4
  | multiplicative => 5
  | additive => 6
  | shift => 7
  | relational => 8
  | equality => 9
  | bitwiseAnd => 10
  | bitwiseXor => 11
  | bitwiseOr => 12
  | logicalAnd => 13
  | logicalOr => 14
  | conditional => 15
  | assignment => 16
  | comma => 17
  | any => 18

/-- Whether an expression of this tier may stand bare where just this tier is demanded. It may
where there is nothing to regroup (names, calls, member access, prefix and postfix operators) and
where regrouping is harmless (the logical connectives); `1 - (2 - 3)` shows why the arithmetic
tiers are not among them. -/
def nestsFreely : Precedence → Bool
  | atomic | member | functionCall | unaryPostfix | unaryPrefix | logicalAnd | logicalOr | any =>
    true
  | _ => false

/-- Whether an expression of tier `actual` has to be enclosed where `required` is demanded. -/
def needsParens (required actual : Precedence) : Bool :=
  decide (required.rank < actual.rank) || (required == actual && !actual.nestsFreely)

/-- A text of tier `actual`, made fit for a place that demands `required`. -/
def wrap (required : Precedence) (code : String) (actual : Precedence) : String :=
  if needsParens required actual then "(" ++ code ++ ")" else code

/-! ### Laws -/

/-- A tier is determined by its rank. -/
theorem rank_injective {p q : Precedence} (h : p.rank = q.rank) : p = q := by
  cases p <;> cases q <;> first | rfl | (simp [rank] at h)

/-- What binds more loosely than its place demands is always enclosed. -/
theorem needsParens_of_rank_lt {required actual : Precedence} (h : required.rank < actual.rank) :
    needsParens required actual = true := by
  simp [needsParens, h]

/-- What binds more tightly than its place demands is never enclosed. -/
theorem needsParens_of_rank_gt {required actual : Precedence} (h : actual.rank < required.rank) :
    needsParens required actual = false := by
  have hne : required ≠ actual := by
    rintro rfl
    exact Nat.lt_irrefl _ h
  simp [needsParens, hne, Nat.lt_asymm h]

/-- At equal tiers the tier itself decides. -/
theorem needsParens_self (p : Precedence) : needsParens p p = !p.nestsFreely := by
  simp [needsParens]

end Precedence

end BlockSketch
