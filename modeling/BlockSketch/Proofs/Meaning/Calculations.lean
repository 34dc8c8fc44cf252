import BlockSketch.Proofs.Decimal.Whole
import BlockSketch.Proofs.Meaning.Valued

/-!
# Calculations in code

Blocks with numbers, the four operations of arithmetic and negation make up a `Calculation`
(`Block.Computes`), which has a result in mathematics: an exact one, where every number counts as
the decimal number that it is in the code. The code of the blocks is read as an expression of C, and
what that comes to depends on types. A number without point and exponent is a whole number, a
calculation with such numbers alone is one too, and a division of whole numbers drops the fraction.

* An operator does what the operation does in mathematics, unless it divides whole numbers that
  leave a remainder (`Operation.exists_apply_sign`).
* So a calculation and all its parts keep their values if and only if all divisions of whole numbers
  come out even (`Calculation.forall_parts_kept_iff`).
* Functions of angles divide by 180. An angle in whole numbers keeps its value in that only if it is
  a multiple of a straight angle (`Calculation.Kept.straightAngles_iff`).

`Block.keeps_value_iff` says all this of the code of blocks, and `Block.half_is_lost` that not even
one half is kept.
-/

namespace BlockSketch

/-! ### Operators -/

/-- The arithmetic that C has operators for. -/
inductive Operation
  | add
  | subtract
  | multiply
  | divide
deriving DecidableEq, Repr

namespace Operation

/-- The operator in C. -/
def sign : Operation → BinaryOp
  | add => .add
  | subtract => .sub
  | multiply => .mul
  | divide => .div

/-- What the operation is in mathematics. -/
def exact (x y : ℚ) : Operation → ℚ
  | add => x + y
  | subtract => x - y
  | multiply => x * y
  | divide => x / y

/-- **What the operator computes.** The type is that of whole numbers if both operands have it. The
result is the one of mathematics, but for a division of whole numbers that leaves a remainder. -/
theorem exists_apply_sign (op : Operation) (x y : Scalar ℚ) (hy : op = divide → y.number ≠ 0) :
    ∃ v, op.sign.apply x y = some v ∧ v.isInt = (x.isInt && y.isInt) ∧
      (v.number = op.exact x.number y.number ↔
        (op = divide → x.isInt = true → y.isInt = true → ∃ k : ℤ, x.number = k * y.number)) := by
  cases op with
  | add =>
    refine ⟨_, rfl, Scalar.isInt_combine _ _ x y, iff_of_true ?_ nofun⟩
    exact Scalar.number_combine fun m n _ _ => Int.cast_add m n
  | subtract =>
    refine ⟨_, rfl, Scalar.isInt_combine _ _ x y, iff_of_true ?_ nofun⟩
    exact Scalar.number_combine fun m n _ _ => Int.cast_sub m n
  | multiply =>
    refine ⟨_, rfl, Scalar.isInt_combine _ _ x y, iff_of_true ?_ nofun⟩
    exact Scalar.number_combine fun m n _ _ => Int.cast_mul m n
  | divide =>
    have hy := hy rfl
    refine ⟨_, if_neg hy, Scalar.isInt_combine _ _ x y, ?_⟩
    by_cases hints : x.isInt = true ∧ y.isInt = true
    · obtain ⟨m, rfl⟩ := Scalar.exists_int_of_isInt hints.1
      obtain ⟨n, rfl⟩ := Scalar.exists_int_of_isInt hints.2
      have hn : (n : ℚ) ≠ 0 := hy
      change ((m.tdiv n : ℤ) : ℚ) = (m : ℚ) / n ↔ _
      rw [eq_div_iff hn]
      refine ⟨fun h _ _ _ => ⟨m.tdiv n, h.symm⟩, fun h => ?_⟩
      obtain ⟨k, hk⟩ := h rfl rfl rfl
      rw [Scalar.number_int, Scalar.number_int] at hk
      have hk : m = k * n := by exact_mod_cast hk
      have hn : n ≠ 0 := by exact_mod_cast hn
      rw [hk, Int.mul_tdiv_cancel k hn, Int.cast_mul]
    · refine iff_of_true ?_ fun _ hx hy => absurd ⟨hx, hy⟩ hints
      exact Scalar.number_combine fun m n hx hy => absurd (by simp [hx, hy]) hints

end Operation

/-- The operation that a block of arithmetic has an operator for. -/
def Arithmetic.operation? : Arithmetic → Option Operation
  | add => some .add
  | subtract => some .subtract
  | multiply => some .multiply
  | divide => some .divide
  | power => none

theorem Arithmetic.intended_of_operation? {op : Arithmetic} {o : Operation}
    (h : op.operation? = some o) (a b : Tree) : op.intended a b = .binary o.sign a b := by
  cases op <;> cases h <;> rfl

/-- A value with a number is the number. -/
theorem Value.eq_scalar {x : Value} {s : Scalar ℚ} (h : x.scalar? = some s) : x = .scalar s := by
  cases x with
  | scalar s' => exact congrArg _ (Option.some.inj h)
  | text _ | character _ => cases h

/-! ### Calculations -/

/-- A calculation with numbers in decimal form. -/
inductive Calculation
  | literal (n : Numeral)
  | negate (a : Calculation)
  | operation (op : Operation) (a b : Calculation)

namespace Calculation

/-- The calculation as an expression of C. -/
def tree : Calculation → Tree
  | literal n => .numeral n
  | negate a => .negate a.tree
  | operation op a b => .binary op.sign a.tree b.tree

/-- The result in mathematics. -/
def value : Calculation → ℚ
  | literal n => n.decimal.toRat
  | negate a => -a.value
  | operation op a b => op.exact a.value b.value

/-- Whether there are only numbers in it that have neither a point nor an exponent. -/
def isWhole : Calculation → Bool
  | literal n => n.fraction.isEmpty && n.exponent.isNone
  | negate a => a.isWhole
  | operation _ a b => a.isWhole && b.isWhole

/-- Nothing in it is divided by zero. -/
def Defined : Calculation → Prop
  | literal _ => True
  | negate a => a.Defined
  | operation op a b => a.Defined ∧ b.Defined ∧ (op = .divide → b.value ≠ 0)

/-- The divisions of whole numbers in it leave no remainder. -/
def DividesEvenly : Calculation → Prop
  | literal _ => True
  | negate a => a.DividesEvenly
  | operation op a b => a.DividesEvenly ∧ b.DividesEvenly ∧
      (op = .divide → a.isWhole = true → b.isWhole = true → ∃ k : ℤ, a.value = k * b.value)

/-- The calculation and all calculations in it. -/
def parts : Calculation → List Calculation
  | literal n => [literal n]
  | negate a => negate a :: a.parts
  | operation op a b => operation op a b :: (a.parts ++ b.parts)

/-- The expression of C comes to the result in mathematics. -/
def Kept (c : Calculation) : Prop :=
  ∃ v, c.tree.value = some (.scalar v) ∧ v.number = c.value

/-! ### Keeping the value -/

theorem self_mem_parts (c : Calculation) : c ∈ c.parts := by
  cases c <;> exact List.mem_cons_self

/-- The type of the result is told by the numbers in the calculation. -/
theorem isInt_of_value {c : Calculation} {v : Scalar ℚ} (h : c.tree.value = some (.scalar v)) :
    v.isInt = c.isWhole := by
  induction c generalizing v with
  | literal n =>
    obtain rfl := Value.scalar.inj (Option.some.inj h)
    rw [isWhole, Numeral.scalar]
    cases n.fraction.isEmpty && n.exponent.isNone <;> rfl
  | negate a ih =>
    rw [tree, Tree.value] at h
    obtain ⟨_, hvalue, h⟩ := Option.bind_eq_some_iff.mp h
    obtain ⟨x, hx, h⟩ := Option.bind_eq_some_iff.mp h
    obtain rfl := Value.scalar.inj (Option.some.inj h)
    rw [Scalar.isInt_negate, isWhole]
    exact ih (hvalue.trans (congrArg some (Value.eq_scalar hx)))
  | operation op a b iha ihb =>
    rw [tree, Tree.value] at h
    obtain ⟨_, hxvalue, h⟩ := Option.bind_eq_some_iff.mp h
    obtain ⟨x, hx, h⟩ := Option.bind_eq_some_iff.mp h
    obtain ⟨_, hyvalue, h⟩ := Option.bind_eq_some_iff.mp h
    obtain ⟨y, hy, h⟩ := Option.bind_eq_some_iff.mp h
    obtain ⟨w, hw, h⟩ := Option.bind_eq_some_iff.mp h
    obtain rfl := Value.scalar.inj (Option.some.inj h)
    have hb : op = .divide → y.number ≠ 0 := by
      rintro rfl hzero
      exact absurd hw (by simp [Operation.sign, BinaryOp.apply, hzero])
    obtain ⟨w', hw', hint, -⟩ := op.exists_apply_sign x y hb
    obtain rfl := Option.some.inj (hw.symm.trans hw')
    rw [hint, isWhole, iha (hxvalue.trans (congrArg some (Value.eq_scalar hx))),
      ihb (hyvalue.trans (congrArg some (Value.eq_scalar hy)))]

theorem kept_literal (n : Numeral) : (literal n).Kept :=
  ⟨n.scalar, rfl, n.number_scalar⟩

theorem Kept.negate {a : Calculation} (h : a.Kept) : (negate a).Kept := by
  obtain ⟨v, hv, hnumber⟩ := h
  refine ⟨v.negate, ?_, ?_⟩
  · rw [tree, Tree.value, hv]
    rfl
  · rw [Scalar.number_negate, hnumber, value]

/-- If the operands keep their values, only a division of whole numbers can lose its value. -/
theorem Kept.operation_iff {op : Operation} {a b : Calculation} (ha : a.Kept) (hb : b.Kept)
    (hdefined : op = .divide → b.value ≠ 0) :
    (operation op a b).Kept ↔
      (op = .divide → a.isWhole = true → b.isWhole = true → ∃ k : ℤ, a.value = k * b.value) := by
  obtain ⟨x, hx, hxnumber⟩ := ha
  obtain ⟨y, hy, hynumber⟩ := hb
  obtain ⟨v, hv, -, hiff⟩ := op.exists_apply_sign x y (by rwa [hynumber])
  rw [hxnumber, hynumber, isInt_of_value hx, isInt_of_value hy] at hiff
  rw [← hiff, Kept, tree, Tree.value, hx, hy]
  simp [Value.scalar?, hv, value]

/-- **A calculation and its parts keep their values** if and only if divisions of whole numbers come
out even. -/
theorem forall_parts_kept_iff {c : Calculation} (hc : c.Defined) :
    (∀ p ∈ c.parts, p.Kept) ↔ c.DividesEvenly := by
  induction c with
  | literal n => exact iff_of_true (List.forall_mem_singleton.mpr (kept_literal n)) trivial
  | negate a ih =>
    rw [parts, List.forall_mem_cons, ih hc]
    refine ⟨And.right, fun h => ⟨?_, h⟩⟩
    exact ((ih hc).mpr h a a.self_mem_parts).negate
  | operation op a b iha ihb =>
    obtain ⟨ha, hb, hdefined⟩ := hc
    rw [parts, List.forall_mem_cons, List.forall_mem_append, iha ha, ihb hb, DividesEvenly]
    have hstep (ha' : a.DividesEvenly) (hb' : b.DividesEvenly) :=
      Kept.operation_iff ((iha ha).mpr ha' a a.self_mem_parts)
        ((ihb hb).mpr hb' b b.self_mem_parts) hdefined
    exact ⟨fun ⟨hkept, ha', hb'⟩ => ⟨ha', hb', (hstep ha' hb').mp hkept⟩,
      fun ⟨ha', hb', heven⟩ => ⟨(hstep ha' hb').mpr heven, ha', hb'⟩⟩

/-! ### Numbers and angles -/

/-- The number of a block: a number below zero is minus its magnitude. -/
def ofNumber (v : Binary64) : Calculation :=
  let magnitude := literal (Expr.numberLayout.numeral v.magnitude)
  if v.isNegative then negate magnitude else magnitude

theorem tree_ofNumber (v : Binary64) : (ofNumber v).tree = .number v := by
  rw [ofNumber, Tree.number]
  cases v.isNegative <;> rfl

/-- A number in plain digits. -/
def nat (n : ℕ) : Calculation :=
  literal (Numeral.ofNat n)

theorem value_nat (n : ℕ) : (nat n).value = n := by
  rw [nat, value, ← Numeral.number_scalar, Numeral.scalar_ofNat]
  exact Int.cast_natCast n

/-- An angle in degrees as a part of a straight angle. -/
def straightAngles (c : Calculation) : Calculation :=
  operation .divide c (nat 180)

/-- An angle without point or exponent must be a multiple of a straight angle. -/
theorem Kept.straightAngles_iff {c : Calculation} (hc : c.Kept) :
    c.straightAngles.Kept ↔ (c.isWhole = true → ∃ k : ℤ, c.value = k * 180) := by
  have hpositive : (nat 180).value = 180 := value_nat 180
  rw [straightAngles, hc.operation_iff (b := nat 180) (kept_literal _)
    (by rw [hpositive]; norm_num), hpositive]
  exact ⟨fun h hwhole => h rfl hwhole rfl, fun h _ hwhole _ => h hwhole⟩

end Calculation

/-- The name of a function of angles, if it is one. -/
def NumberFunction.ofAngle? : NumberFunction → Option String
  | sine => some "sin"
  | cosine => some "cos"
  | tangent => some "tan"
  | _ => none

theorem NumberFunction.intended_of_ofAngle? {f : NumberFunction} {name : String}
    (h : f.ofAngle? = some name) (c : Calculation) :
    f.intended c.tree = .apply name [.binary .mul c.straightAngles.tree .pi] := by
  cases f <;> cases h <;> rfl

namespace Block

/-! ### Blocks -/

/-- What the blocks compute that are put together from numbers, arithmetic and negation. An empty
socket is zero. -/
inductive Computes : Block → Calculation → Prop
  | number {b : Block} {v : Binary64} (type : b.type = "math_number")
      (number : b.head.number "NUM" = .ok v) : Computes b (.ofNumber v)
  | arithmetic {b : Block} {op : Arithmetic} {o : Operation} {x y : Calculation}
      (type : Rule.ofType? b.type = some .arithmetic)
      (operation : b.head.selector "OP" Arithmetic.ofField? = .ok op)
      (sign : op.operation? = some o)
      (left : ∀ child, b.inSocket "A" = some child → Computes child x)
      (emptyLeft : b.inSocket "A" = none → x = .nat 0)
      (right : ∀ child, b.inSocket "B" = some child → Computes child y)
      (emptyRight : b.inSocket "B" = none → y = .nat 0) : Computes b (.operation o x y)
  | negation {b : Block} {x : Calculation} (type : Rule.ofType? b.type = some .function)
      (word : b.head.text "OP" = .ok "NEG")
      (number : ∀ child, b.inSocket "NUM" = some child → Computes child x)
      (empty : b.inSocket "NUM" = none → x = .nat 0) : Computes b (.negate x)

/-- The block applies the sine, the cosine or the tangent to the angle in degrees in its socket. -/
structure AppliesToAngle (b : Block) (name : String) (angle : Block) : Prop where
  type : Rule.ofType? b.type = some .function
  function : ∃ word f, b.head.text "OP" = .ok word ∧ word ≠ "NEG" ∧
    NumberFunction.ofField? word = some f ∧ f.ofAngle? = some name
  angle : b.inSocket "NUM" = some angle

variable {b : Block} {c : Calculation}

/-- The tree in a socket, given that of the block in it. -/
theorem operand_of_intended {oneBased : Bool} {socket : String}
    (hchild : ∀ child, b.inSocket socket = some child → child.intended oneBased = some c.tree)
    (hempty : b.inSocket socket = none → c = .nat 0) :
    b.operand oneBased socket (.nat 0) = some c.tree := by
  rw [operand]
  cases h : b.inSocket socket with
  | none =>
    rw [hempty h]
    rfl
  | some child => exact hchild child h

/-- A block stands for what it computes. -/
theorem Computes.intended (h : b.Computes c) (oneBased : Bool) :
    b.intended oneBased = some c.tree := by
  induction h with
  | number type number => rw [intended_number type number, Calculation.tree_ofNumber]
  | arithmetic type operation sign _ emptyLeft _ emptyRight ihl ihr =>
    rw [intended_eq oneBased _ type, Rule.intended, operation,
      operand_of_intended ihl emptyLeft, operand_of_intended ihr emptyRight]
    simp [Except.toOption, Arithmetic.intended_of_operation? sign, Calculation.tree]
  | negation type word _ empty ih =>
    rw [intended_eq oneBased _ type, Rule.intended, word, operand_of_intended ih empty]
    rfl

theorem Computes.valued (h : b.Computes c) (names : Table String) : b.Valued names := by
  induction h with
  | number type number => exact valued_number type number
  | arithmetic type operation sign _ _ _ _ ihl ihr =>
    refine valued_of_visits type rfl ["A", "B"] (by rw [Rule.visits, operation]; rfl) ?_
    exact List.forall_mem_cons.mpr ⟨ihl, List.forall_mem_singleton.mpr ihr⟩
  | negation type word _ _ ih =>
    refine valued_of_visits type rfl ["NUM"] (by rw [Rule.visits, word]; rfl) ?_
    exact List.forall_mem_singleton.mpr ih

/-- A function of an angle stands for the function applied to the angle in radians. -/
theorem AppliesToAngle.intended {angle : Block} {name : String} (h : b.AppliesToAngle name angle)
    (hangle : angle.Computes c) (oneBased : Bool) :
    b.intended oneBased = some (.apply name [.binary .mul c.straightAngles.tree .pi]) := by
  obtain ⟨word, f, hword, hne, hf, hname⟩ := h.function
  rw [intended_eq oneBased _ h.type, Rule.intended, hword, operand_of_inSocket h.angle,
    hangle.intended oneBased]
  simp [Except.toOption, hne, hf, f.intended_of_ofAngle? hname]

theorem AppliesToAngle.valued {angle : Block} {name : String} (h : b.AppliesToAngle name angle)
    (hangle : angle.Computes c) (names : Table String) : b.Valued names := by
  obtain ⟨word, f, hword, -, hf, -⟩ := h.function
  refine valued_of_visits h.type rfl ["NUM"] ?_ ?_
  · rw [Rule.visits, hword]
    simp only [bind, Except.bind, hf]
    exact if_pos (by simp)
  · exact List.forall_mem_singleton.mpr (valued_in_socket h.angle (hangle.valued names))

/-! ### Blocks with given numbers -/

/-- A number block with a text. -/
def typed (text : String) : Block :=
  ⟨⟨"math_number", [("NUM", .string text)]⟩, none, [], none⟩

/-- A division. -/
def quotient (a b : Block) : Block :=
  ⟨⟨"math_arithmetic", [("OP", .string "DIVIDE")]⟩, none,
    [("A", ⟨some a, none⟩), ("B", ⟨some b, none⟩)], none⟩

theorem computes_quotient {a b : Block} {x y : Calculation} (ha : a.Computes x)
    (hb : b.Computes y) : (quotient a b).Computes (.operation .divide x y) := by
  have hdivide : Arithmetic.divide.operation? = some .divide := rfl
  refine .arithmetic rfl rfl hdivide ?_ nofun ?_ nofun
  · rintro _ ⟨rfl⟩
    exact ha
  · rintro _ ⟨rfl⟩
    exact hb

/-- The sine of an angle in degrees. -/
def sine (angle : Block) : Block :=
  ⟨⟨"math_trig", [("OP", .string "SIN")]⟩, none, [("NUM", ⟨some angle, none⟩)], none⟩

theorem appliesToAngle_sine (angle : Block) : (sine angle).AppliesToAngle "sin" angle where
  type := rfl
  function := ⟨"SIN", .sine, rfl, by decide, rfl, rfl⟩
  angle := rfl

/-! ### What is kept -/

/-- **When the code of a calculation keeps its value.** In every session the code is read as the
calculation. It keeps its value in all parts if and only if divisions of whole numbers come out
even. If it does, its angle in radians starts with the right part of a straight angle, unless it is
a whole number that is no multiple of one. -/
theorem keeps_value_iff {s : Session} (hs : s.Reachable) (h : b.Computes c) (hc : c.Defined) :
    (∃ f, (s.perform b.code).1 = .ok (.value f) ∧ Tree.read f.text.toList = some c.tree) ∧
      ((∀ p ∈ c.parts, p.Kept) ↔ c.DividesEvenly) ∧
      (∀ (turn : Block) (name : String), turn.AppliesToAngle name b →
        ∃ f, (s.perform turn.code).1 = .ok (.value f) ∧
          Tree.read f.text.toList = some (.apply name [.binary .mul c.straightAngles.tree .pi])) ∧
      (c.Kept → (c.straightAngles.Kept ↔ (c.isWhole = true → ∃ k : ℤ, c.value = k * 180))) :=
  ⟨(h.valued _).code_reads hs (h.intended _), Calculation.forall_parts_kept_iff hc,
    fun _ _ hturn => (hturn.valued h _).code_reads hs (hturn.intended h _),
    Calculation.Kept.straightAngles_iff⟩

/-- A point in one of the numbers is enough: `7.5 / -2` is a fraction in C too. -/
theorem fraction_is_kept : (Session.new {}).Reachable ∧
    let c : Calculation := .operation .divide (.literal ⟨[7], [5], none⟩) (.negate (.nat 2))
    (quotient (typed "7.5") (typed "-2")).Computes c ∧ c.Defined ∧ c.value = -15 / 4 ∧ c.Kept ∧
      ∃ f, ((Session.new {}).perform (quotient (typed "7.5") (typed "-2")).code).1 =
        .ok (.value f) ∧ Tree.read f.text.toList = some c.tree := by
  have hcomputes := computes_quotient
    (.number (b := typed "7.5") (v := ⟨false, ⟨8444249301319680, -50⟩⟩) rfl rfl)
    (.number (b := typed "-2") (v := ⟨true, .ofWhole 2⟩) rfl rfl)
  have hdefined : (Calculation.operation .divide (.literal ⟨[7], [5], none⟩)
      (.negate (.nat 2))).Defined := ⟨trivial, trivial, fun _ => by decide +kernel⟩
  obtain ⟨hcode, hparts, -⟩ := keeps_value_iff (.new {}) hcomputes hdefined
  refine ⟨.new {}, hcomputes, hdefined, by decide +kernel, ?_, hcode⟩
  exact hparts.mpr ⟨trivial, trivial, fun _ h => by cases h⟩ _ List.mem_cons_self

/-- One half is `1 / 2`, which is zero, and so is the part `90 / 180` of a straight angle that the
sine of a right angle is taken of. -/
theorem half_is_lost : (Session.new {}).Reachable ∧
    let c : Calculation := .operation .divide (.nat 1) (.nat 2)
    (quotient (typed "1") (typed "2")).Computes c ∧ c.Defined ∧ c.value = 1 / 2 ∧
      c.tree.value = some (.scalar (.int 0)) ∧
      (∃ f, ((Session.new {}).perform (quotient (typed "1") (typed "2")).code).1 =
        .ok (.value f) ∧ f.text = "1 / 2" ∧ Tree.read f.text.toList = some c.tree) ∧
    let angle := (Calculation.nat 90).straightAngles
    (typed "90").Computes (.nat 90) ∧ angle.value = 1 / 2 ∧
      angle.tree.value = some (.scalar (.int 0)) ∧
      ∃ f, ((Session.new {}).perform (sine (typed "90")).code).1 = .ok (.value f) ∧
        f.text = "sin(90 / 180 * M_PI)" ∧
        Tree.read f.text.toList = some (.apply "sin" [.binary .mul angle.tree .pi]) := by
  have hhalf := computes_quotient (.number (b := typed "1") (v := ⟨false, .ofWhole 1⟩) rfl rfl)
    (.number (b := typed "2") (v := ⟨false, .ofWhole 2⟩) rfl rfl)
  have hright : (typed "90").Computes (.nat 90) := .number (v := ⟨false, .ofWhole 90⟩) rfl rfl
  have hsine := appliesToAngle_sine (typed "90")
  obtain ⟨f, hf, hfread⟩ := (hhalf.valued []).code_reads (.new {}) (hhalf.intended true)
  obtain ⟨g, hg, hgread⟩ :=
    (hsine.valued hright []).code_reads (.new {}) (hsine.intended hright true)
  refine ⟨.new {}, hhalf, ⟨trivial, trivial, fun _ => by decide +kernel⟩, by decide +kernel,
    by decide +kernel, ⟨f, hf, ?_, hfread⟩, hright, by decide +kernel, by decide +kernel,
    g, hg, ?_, hgread⟩
  · obtain rfl := Code.value.inj (Except.ok.inj (hf.symm.trans rfl))
    decide +kernel
  · obtain rfl := Code.value.inj (Except.ok.inj (hg.symm.trans rfl))
    decide +kernel

end Block

end BlockSketch
