import BlockSketch.Proofs.Meaning.Scalar
import BlockSketch.Proofs.Routine.Syntax
import Mathlib.Analysis.Real.Sqrt
import Mathlib.Algebra.Order.Archimedean.Real.Basic

/-!
# What routines do

Numbers are `Scalar ℝ`: whole numbers have no bound, and real numbers stand for the floating types,
so nothing is rounded.

* `Term.value` is what an expression comes to, by the types of C. `Term.Decides` says when it holds
  as a condition, and the laws at the end put that together from the parts of the expression.
* `Action.Run` is how an action ends: with other values of the variables, or with a `return`. An
  action that does not end has no outcome.
* There is one outcome at most (`Action.Run.unique`), and so one result of a call
  (`Routine.Returns.unique`).
-/

namespace BlockSketch.Routine

/-- The variables in scope with their types and values, the latest one first. -/
abbrev Env := List (String × Kind × Scalar ℝ)

/-- A number as one of a type. A number that becomes a whole one loses its fraction. -/
noncomputable def Kind.convert (a : Scalar ℝ) : Kind → Scalar ℝ
  | bool => .truth (a.number ≠ 0)
  | long => .int (if 0 ≤ a.number then ⌊a.number⌋ else ⌈a.number⌉)
  | double => .float a.number

/-- The functions of the mathematics header that are known. What is no number does not come up, so
`isnan` fails. -/
noncomputable def library (x : ℝ) : String → Option (Scalar ℝ)
  | "isnan" => some (.truth False)
  | "floor" => some (.float ⌊x⌋)
  | "sqrt" => if 0 ≤ x then some (.float √x) else none
  | _ => none

/-- The value of an expression. The second of two alternatives is left alone if the first one
holds. -/
noncomputable def Term.value (env : Env) : Term → Option (Scalar ℝ)
  | truth b => some (.truth (b = true))
  | number n => some (.int n)
  | name x => (env.lookup x).map Prod.snd
  | convert kind a => do return kind.convert (← a.value env)
  | call function a => do library (← a.value env).number function
  | operation op a b => do
    let x ← a.value env
    match op with
    | .basic op => op.apply x (← b.value env)
    | .unequal => return .truth (x.number ≠ (← b.value env).number)
    | .atMost => return .truth (x.number ≤ (← b.value env).number)
    | .either =>
      if x.number ≠ 0 then return .truth True
      else return .truth ((← b.value env).number ≠ 0)

/-- The expression has a value, and as a condition it holds if and only if `p`. -/
def Term.Decides (t : Term) (env : Env) (p : Prop) : Prop :=
  ∃ v, t.value env = some v ∧ (v.number ≠ 0 ↔ p)

/-- Gives a variable a new value. -/
noncomputable def assign (x : String) (v : Scalar ℝ) : Env → Option Env
  | [] => none
  | (y, kind, w) :: env =>
    if x = y then some ((y, kind, kind.convert v) :: env)
    else (assign x v env).map ((y, kind, w) :: ·)

/-- What comes of an action: it ends, or it returns from the routine. -/
inductive Outcome
  | goes (env : Env)
  | gives (v : Scalar ℝ)

/-- **Running an action.** A block forgets the variables that were declared in it. -/
inductive Action.Run : Action → Env → Outcome → Prop
  | skip {env : Env} : Run .skip env (.goes env)
  | seq {a b : Action} {env env' : Env} {out : Outcome} (first : Run a env (.goes env'))
      (second : Run b env' out) : Run (.seq a b) env out
  | seqGives {a b : Action} {env : Env} {v : Scalar ℝ} (first : Run a env (.gives v)) :
      Run (.seq a b) env (.gives v)
  | scope {a : Action} {env env' : Env} (inner : Run a env (.goes env')) :
      Run (.scope a) env (.goes (env'.drop (env'.length - env.length)))
  | scopeGives {a : Action} {env : Env} {v : Scalar ℝ} (inner : Run a env (.gives v)) :
      Run (.scope a) env (.gives v)
  | declare {kind : Kind} {x : String} {t : Term} {env : Env} {v : Scalar ℝ}
      (value : t.value env = some v) :
      Run (.declare kind x t) env (.goes ((x, kind, kind.convert v) :: env))
  | increase {x : String} {t : Term} {env env' : Env} {v : Scalar ℝ}
      (value : (Term.operation (.basic .add) (.name x) t).value env = some v)
      (assigned : assign x v env = some env') : Run (.increase x t) env (.goes env')
  | branch {t : Term} {a : Action} {env : Env} {out : Outcome} (holds : t.Decides env True)
      (inner : Run a env out) : Run (.branch t a) env out
  | pass {t : Term} {a : Action} {env : Env} (fails : t.Decides env False) :
      Run (.branch t a) env (.goes env)
  | again {t : Term} {a : Action} {env env' : Env} {out : Outcome} (holds : t.Decides env True)
      (inner : Run a env (.goes env')) (rest : Run (.loop t a) env' out) :
      Run (.loop t a) env out
  | loopGives {t : Term} {a : Action} {env : Env} {v : Scalar ℝ} (holds : t.Decides env True)
      (inner : Run a env (.gives v)) : Run (.loop t a) env (.gives v)
  | stop {t : Term} {a : Action} {env : Env} (fails : t.Decides env False) :
      Run (.loop t a) env (.goes env)
  | give {t : Term} {env : Env} {v : Scalar ℝ} (value : t.value env = some v) :
      Run (.give t) env (.gives v)

/-- No condition holds and fails. -/
theorem Term.Decides.not_both {t : Term} {env : Env} (holds : t.Decides env True)
    (fails : t.Decides env False) : False := by
  obtain ⟨v, hv, htrue⟩ := holds
  obtain ⟨w, hw, hfalse⟩ := fails
  obtain rfl := Option.some.inj (hv.symm.trans hw)
  exact hfalse.mp (htrue.mpr trivial)

/-- **There is one outcome at most.** -/
theorem Action.Run.unique {a : Action} {env : Env} {out out' : Outcome} (h : a.Run env out)
    (h' : a.Run env out') : out = out' := by
  induction h generalizing out' with
  | skip => cases h'; rfl
  | seq _ _ ih₁ ih₂ =>
    cases h' with
    | seq first second =>
      obtain rfl := Outcome.goes.inj (ih₁ first)
      exact ih₂ second
    | seqGives first => cases ih₁ first
  | seqGives _ ih =>
    cases h' with
    | seq first _ => cases ih first
    | seqGives first => exact ih first
  | scope _ ih =>
    cases h' with
    | scope inner =>
      obtain rfl := Outcome.goes.inj (ih inner)
      rfl
    | scopeGives inner => cases ih inner
  | scopeGives _ ih =>
    cases h' with
    | scope inner => cases ih inner
    | scopeGives inner => exact ih inner
  | declare value =>
    cases h' with
    | declare value' =>
      obtain rfl := Option.some.inj (value.symm.trans value')
      rfl
  | increase value assigned =>
    cases h' with
    | increase value' assigned' =>
      obtain rfl := Option.some.inj (value.symm.trans value')
      exact congrArg _ (Option.some.inj (assigned.symm.trans assigned'))
  | branch holds _ ih =>
    cases h' with
    | branch _ inner => exact ih inner
    | pass fails => exact (holds.not_both fails).elim
  | pass fails =>
    cases h' with
    | branch holds _ => exact (holds.not_both fails).elim
    | pass => rfl
  | again holds _ _ ih₁ ih₂ =>
    cases h' with
    | again _ inner rest =>
      obtain rfl := Outcome.goes.inj (ih₁ inner)
      exact ih₂ rest
    | loopGives _ inner => cases ih₁ inner
    | stop fails => exact (holds.not_both fails).elim
  | loopGives holds _ ih =>
    cases h' with
    | again _ inner _ => cases ih inner
    | loopGives _ inner => exact ih inner
    | stop fails => exact (holds.not_both fails).elim
  | stop fails =>
    cases h' with
    | again holds _ _ => exact (holds.not_both fails).elim
    | loopGives holds _ => exact (holds.not_both fails).elim
    | stop => rfl
  | give value =>
    cases h' with
    | give value' => exact congrArg _ (Option.some.inj (value.symm.trans value'))

/-- What a call of the routine gives. -/
def Returns (r : Routine) (argument result : Scalar ℝ) : Prop :=
  ∃ v, r.body.Run [(r.parameter, r.parameterKind, r.parameterKind.convert argument)] (.gives v) ∧
    result = r.kind.convert v

theorem Returns.unique {r : Routine} {argument x y : Scalar ℝ} (hx : r.Returns argument x)
    (hy : r.Returns argument y) : x = y := by
  obtain ⟨v, hv, rfl⟩ := hx
  obtain ⟨w, hw, rfl⟩ := hy
  rw [Outcome.gives.inj (hv.unique hw)]

/-! ### Values of operations -/

/-- An operation on two numbers. For an alternative it makes no difference that the second one is
left alone if the first one holds. -/
theorem Term.value_operation {a b : Term} {env : Env} {x y : Scalar ℝ} (op : Operator)
    (ha : a.value env = some x) (hb : b.value env = some y) :
    (Term.operation op a b).value env =
      match op with
      | .basic op => op.apply x y
      | .unequal => some (.truth (x.number ≠ y.number))
      | .atMost => some (.truth (x.number ≤ y.number))
      | .either => some (.truth (x.number ≠ 0 ∨ y.number ≠ 0)) := by
  rw [value, ha, hb]
  cases op with
  | either =>
    by_cases hholds : x.number ≠ 0
    · exact (if_pos hholds).trans
        (congrArg some (Scalar.truth_congr (iff_of_true trivial (.inl hholds))))
    · exact (if_neg hholds).trans
        (congrArg some (Scalar.truth_congr (or_iff_right hholds).symm))
  | _ => rfl

/-! ### Conditions -/

namespace Term.Decides

variable {a b t : Term} {env : Env} {x y : Scalar ℝ} {p q : Prop}

theorem of_truth [Decidable p] (h : t.value env = some (.truth p)) : t.Decides env p :=
  ⟨_, h, Scalar.number_truth_ne_zero p⟩

theorem congr (h : t.Decides env p) (hiff : p ↔ q) : t.Decides env q := by
  obtain ⟨v, hv, hp⟩ := h
  exact ⟨v, hv, hp.trans hiff⟩

theorem either (ha : a.Decides env p) (hb : b.Decides env q) :
    (Term.operation .either a b).Decides env (p ∨ q) := by
  obtain ⟨v, hv, hp⟩ := ha
  obtain ⟨w, hw, hq⟩ := hb
  exact (of_truth (value_operation .either hv hw)).congr (or_congr hp hq)

variable (ha : a.value env = some x) (hb : b.value env = some y)
include ha hb

theorem equal : (Term.operation (.basic .equal) a b).Decides env (x.number = y.number) :=
  of_truth (value_operation (.basic .equal) ha hb)

theorem unequal : (Term.operation .unequal a b).Decides env (x.number ≠ y.number) :=
  of_truth (value_operation .unequal ha hb)

theorem less : (Term.operation (.basic .less) a b).Decides env (x.number < y.number) :=
  of_truth (value_operation (.basic .less) ha hb)

theorem atMost : (Term.operation .atMost a b).Decides env (x.number ≤ y.number) :=
  of_truth (value_operation .atMost ha hb)

end Term.Decides

end BlockSketch.Routine
