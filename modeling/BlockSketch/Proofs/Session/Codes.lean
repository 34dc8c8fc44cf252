import BlockSketch.Proofs.Session.Filled

/-!
# The codes of blocks

`Block.ensures_code` says that all code keeps an invariant, and reduces every statement about the
codes of blocks to one about the plans of the rules, where the sockets have been answered in
accordance with the statement. So nothing about blocks has to be proved by induction more than once.
-/

namespace BlockSketch

namespace Block

/-- The answers that a block's sockets give if `Q` is true of the codes of the blocks in them. -/
def Answer (Q : Block → Code → Prop) (b : Block) (socket : String) (place : Precedence)
    (fallback e : Expr) : Prop :=
  match b.inSocket socket with
  | none => e = fallback
  | some child => ∃ f, Q child (.value f) ∧ e = f.fit place

variable {Inv : Session → Prop} {Q : Block → Code → Prop} {N : String → Prop}

/-- What an expression in a socket is, given what the code of the block in it is. -/
theorem ensures_fitted {child : Block} {R : Code → Prop} (h : child.code.Ensures Inv R)
    (place : Precedence) :
    (child.fitted place).Ensures Inv fun e => ∃ f, R (.value f) ∧ e = f.fit place := by
  refine Generate.Ensures.bind h fun code hcode => ?_
  cases code with
  | value f => exact Generate.ensures_pure ⟨f, hcode, rfl⟩
  | statement st => exact Generate.ensures_throw _ _

/-- A rule applied to a block whose sockets hold blocks that have `Q`. -/
theorem ensures_apply (hInv : Generate.Invariant Inv)
    (hnamed : ∀ s name, Inv s → N (s.registry.identify name).1) {rule : Rule} {b : Block}
    {R : Code → Prop}
    (hchildren : ∀ socket child, b.inSocket socket = some child → child.code.Ensures Inv (Q child))
    (hrule : ∀ s plan, Inv s → rule.plan s.options.oneBased b.head = .ok plan →
      plan.Meets (b.Answer Q) N R) :
    (rule.apply b.head (plugs b.inputs)).Ensures Inv R := by
  refine ensures_apply_of_answers hInv hnamed ?_ ?_ hrule
  · intro socket place fallback hempty
    rw [Answer, hempty]
  · intro socket place fallback child hchild
    rw [expr_plug]
    refine (ensures_fitted (hchildren socket child hchild) place).mono fun e he => ?_
    rw [Answer, hchild]
    exact he

/-- **Statements about codes are statements about plans.** If the plan of every rule meets `Q`
wherever the blocks in the sockets have it, the code of every block has it. -/
theorem ensures_code (hInv : Generate.Invariant Inv)
    (hnamed : ∀ s name, Inv s → N (s.registry.identify name).1)
    (hrule : ∀ rule (b : Block) s plan, Inv s → Rule.ofType? b.type = some rule →
      rule.plan s.options.oneBased b.head = .ok plan → plan.Meets (b.Answer Q) N (Q b))
    (b : Block) : b.code.Ensures Inv (Q b) := by
  induction b using socketInduction with
  | block b hchildren =>
    rw [code_eq]
    cases hrule' : Rule.ofType? b.type with
    | none => exact Generate.ensures_throw _ _
    | some rule =>
      exact ensures_apply hInv hnamed hchildren fun s plan hs => hrule rule b s plan hs hrule'

end Block

end BlockSketch
