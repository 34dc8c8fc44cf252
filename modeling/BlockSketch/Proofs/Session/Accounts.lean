import BlockSketch.Proofs.Sketch.Clashes

/-!
# What rules account for

Some names that code uses have to be declared first: those of the mathematics header, and that of
the test for prime numbers, which is a function of the sketch. A rule asks for these declarations
before or after it asks for the codes in the sockets, and puts the code together in the end. So what
was declared and what is used are at different places of a plan.

`Plan.Accounts` keeps the book: it says which of the names may or must occur in the code by what was
asked for, and each rule closes its account (`Rule.accounts_plan`). That means two things at once. No
name is used for which nothing was declared, and no code with the name of the test in it is dropped,
so that the test is not declared in vain.

A variable may have one of these names as its identifier, as those of `Identifier.unguarded` are not
reserved. So the names that count are those of `Statement.ruleTokens`, from which the tokens that
name the variable of a statement have been left out.
-/

namespace BlockSketch

open Plan (mathHeader primeTest)

/-! ### The names that need a declaration -/

/-- The names of the mathematics header that code and the test for prime numbers use. -/
def Sketch.mathNames : List String :=
  ["pow", "abs", "sqrt", "log", "exp", "round", "ceil", "floor", "sin", "cos", "tan", "asin", "acos",
    "atan", "isnan", "M_PI", "M_E", "M_SQRT2", "M_SQRT1_2"]

/-- The name of the test for prime numbers. -/
def Sketch.testName : String := "mathIsPrime"

theorem Sketch.testName_eq : testName = "mathIsPrime" := rfl

namespace Expr

/-- The expression uses a name: one of its tokens is this identifier. -/
def Mentions (e : Expr) (name : String) : Prop :=
  Token.identifier name ∈ e.tokens

variable {name : String}

theorem mentions_iff (e : Expr) : e.Mentions name ↔ .identifier name ∈ e.tokens :=
  Iff.rfl

@[simp]
theorem mentions_numeral (n : Numeral) : (numeral n).Mentions name ↔ False := by
  simp [mentions_iff, tokens]

@[simp]
theorem mentions_nat (n : Nat) : (nat n).Mentions name ↔ False :=
  mentions_numeral _

@[simp]
theorem mentions_identifier (x : String) : (identifier x).Mentions name ↔ name = x := by
  simp [mentions_iff, tokens]

@[simp]
theorem mentions_literal (text : String) : (literal text).Mentions name ↔ False := by
  simp [mentions_iff, tokens]

@[simp]
theorem mentions_call (f : String) (a : Expr) :
    (call f a).Mentions name ↔ name = f ∨ a.Mentions name := by
  simp [mentions_iff, tokens]

@[simp]
theorem mentions_callTwo (f : String) (a b : Expr) :
    (callTwo f a b).Mentions name ↔ name = f ∨ a.Mentions name ∨ b.Mentions name := by
  simp [mentions_iff, tokens]

@[simp]
theorem mentions_method (a : Expr) (m : String) :
    (method a m).Mentions name ↔ a.Mentions name ∨ name = m := by
  simp [mentions_iff, tokens]

@[simp]
theorem mentions_methodOne (a : Expr) (m : String) (b : Expr) :
    (methodOne a m b).Mentions name ↔ a.Mentions name ∨ name = m ∨ b.Mentions name := by
  simp [mentions_iff, tokens]

@[simp]
theorem mentions_methodTwo (a : Expr) (m : String) (b c : Expr) :
    (methodTwo a m b c).Mentions name ↔
      a.Mentions name ∨ name = m ∨ b.Mentions name ∨ c.Mentions name := by
  simp [mentions_iff, tokens]

@[simp]
theorem mentions_negate (a : Expr) : (negate a).Mentions name ↔ a.Mentions name := by
  simp [mentions_iff, tokens]

@[simp]
theorem mentions_not (a : Expr) : (not a).Mentions name ↔ a.Mentions name := by
  simp [mentions_iff, tokens]

@[simp]
theorem mentions_binary (op : BinaryOp) (a b : Expr) :
    (binary op a b).Mentions name ↔ a.Mentions name ∨ b.Mentions name := by
  cases op <;> simp [mentions_iff, tokens, BinaryOp.token]

@[simp]
theorem mentions_paren (a : Expr) : (paren a).Mentions name ↔ a.Mentions name := by
  simp [mentions_iff, tokens]

@[simp]
theorem mentions_string (text : String) : (string text).Mentions name ↔ name = "String" := by
  simp [string]

theorem mentions_number (v : Binary64) : (number v).Mentions name ↔ False := by
  rw [number]
  split <;> simp

end Expr

@[simp]
theorem Fragment.mentions_fit (f : Fragment) (place : Precedence) (name : String) :
    (f.fit place).Mentions name ↔ f.expr.Mentions name := by
  rw [fit]
  split <;> simp

namespace Statement

/-- The tokens of a statement without those that name its variable. The variable stands in front of
the sign of the assignment, and where a text is appended to it, in the first call behind that. -/
def ruleTokens : Statement → List Token
  | increase _ value => .plusAssign :: (value.tokens ++ [.semicolon])
  | assign target (.binary .add (.call f (.identifier x)) value) =>
    .assign :: .identifier f :: .openParen :: ((if x = target then [] else [.identifier x]) ++
      .closeParen :: .plus :: (value.tokens ++ [.semicolon]))
  | assign _ value => .assign :: (value.tokens ++ [.semicolon])
  | evaluate value => value.tokens ++ [.semicolon]

theorem ruleTokens_evaluate (value : Expr) :
    (evaluate value).ruleTokens = value.tokens ++ [.semicolon] := rfl

theorem ruleTokens_increase (target : String) (value : Expr) :
    (increase target value).ruleTokens = .plusAssign :: (value.tokens ++ [.semicolon]) := rfl

theorem ruleTokens_append (target f : String) (value : Expr) :
    (assign target (.binary .add (.call f (.identifier target)) value)).ruleTokens =
      .assign :: .identifier f :: .openParen :: .closeParen :: .plus ::
        (value.tokens ++ [.semicolon]) := by
  rw [ruleTokens, if_pos rfl, List.nil_append]

/-- The statement uses a name other than as that of its variable. -/
def Mentions (st : Statement) (name : String) : Prop :=
  Token.identifier name ∈ st.ruleTokens

theorem mentions_iff (st : Statement) (name : String) :
    st.Mentions name ↔ .identifier name ∈ st.ruleTokens :=
  Iff.rfl

end Statement

/-- The code uses a name other than as that of a variable. -/
abbrev Code.Mentions (code : Code) (name : String) : Prop :=
  code.asStatement.Mentions name

namespace Code
variable {name : String}

@[simp]
theorem mentions_value (f : Fragment) : (value f).Mentions name ↔ f.expr.Mentions name := by
  change (Statement.evaluate f.expr).Mentions name ↔ _
  simp [Statement.mentions_iff, Statement.ruleTokens_evaluate, Expr.mentions_iff]

@[simp]
theorem mentions_increase (x : String) (e : Expr) :
    (statement (.increase x e)).Mentions name ↔ e.Mentions name := by
  change (Statement.increase x e).Mentions name ↔ _
  simp [Statement.mentions_iff, Statement.ruleTokens_increase, Expr.mentions_iff]

@[simp]
theorem mentions_append (x f : String) (e : Expr) :
    (statement (.assign x (.binary .add (.call f (.identifier x)) e))).Mentions name ↔
      name = f ∨ e.Mentions name := by
  change (Statement.assign x (.binary .add (.call f (.identifier x)) e)).Mentions name ↔ _
  simp [Statement.mentions_iff, Statement.ruleTokens_append, Expr.mentions_iff]

end Code

/-! ### Plans -/

namespace Plan

/-- The expression uses none of the names that need a declaration. -/
def Plain (e : Expr) : Prop :=
  ∀ name ∈ Sketch.testName :: Sketch.mathNames, ¬ e.Mentions name

theorem plain_nat (n : Nat) : Plain (.nat n) :=
  fun _ _ h => (Expr.mentions_nat n).mp h

theorem plain_string (text : String) : Plain (.string text) := by
  intro name hname h
  rw [Expr.mentions_string] at h
  subst h
  exact absurd hname (by decide)

theorem plain_literal (text : String) : Plain (.literal text) :=
  fun _ _ h => (Expr.mentions_literal text).mp h

/-- The plan closes its account. The names that are `noted` are those that the answers so far use,
and those that came with a declaration. In the end the code must use no other name that needs a
declaration, and if the test is noted, the code must use it. -/
inductive Accounts : (String → Prop) → Plan Code → Prop
  | done {noted : String → Prop} {code : Code} :
      (∀ name ∈ Sketch.testName :: Sketch.mathNames, code.Mentions name → noted name) →
      (noted Sketch.testName → code.Mentions Sketch.testName) → Accounts noted (done code)
  | header {noted : String → Prop} {rest : Plan Code} :
      Accounts (fun name => noted name ∨ name ∈ Sketch.mathNames) rest →
      Accounts noted (declare mathHeader rest)
  /-- the test itself uses names of the header -/
  | test {noted : String → Prop} {rest : Plan Code} : (∃ name ∈ Sketch.mathNames, noted name) →
      Accounts (fun name => noted name ∨ name = Sketch.testName) rest →
      Accounts noted (declare primeTest rest)
  | value {noted : String → Prop} {socket : String} {place : Precedence} {fallback : Expr}
      {rest : Expr → Plan Code} : Plain fallback →
      (∀ e, Accounts (fun name => noted name ∨ e.Mentions name) (rest e)) →
      Accounts noted (value socket place fallback rest)
  | reference {noted : String → Prop} {field : String} {rest : String → Plan Code} :
      (∀ x, Accounts noted (rest x)) → Accounts noted (reference field rest)

variable {noted noted' : String → Prop}

/-- Only the names that need a declaration are looked at. -/
theorem Accounts.congr {plan : Plan Code} (h : plan.Accounts noted)
    (hnoted : ∀ name ∈ Sketch.testName :: Sketch.mathNames, noted name ↔ noted' name) :
    plan.Accounts noted' := by
  induction h generalizing noted' with
  | done hcode htest =>
    refine .done (fun name hname h => (hnoted name hname).mp (hcode name hname h)) fun h => ?_
    exact htest ((hnoted _ List.mem_cons_self).mpr h)
  | header _ ih => exact .header (ih fun name hname => or_congr_left (hnoted name hname))
  | test hheader _ ih =>
    obtain ⟨name, hname, h⟩ := hheader
    refine .test ⟨name, hname, (hnoted name (List.mem_cons_of_mem _ hname)).mp h⟩ ?_
    exact ih fun name hname => or_congr_left (hnoted name hname)
  | value hfallback _ ih =>
    exact .value hfallback fun e => ih e fun name hname => or_congr_left (hnoted name hname)
  | reference _ ih => exact .reference fun x => ih x hnoted

/-- Code that uses what is noted and `others`, which need no declaration. -/
theorem Accounts.done_of_iff {code : Code} (others : List String)
    (hothers : ∀ name ∈ others, name ∉ Sketch.testName :: Sketch.mathNames)
    (h : ∀ name, code.Mentions name ↔ noted name ∨ name ∈ others) :
    (Plan.done code).Accounts noted := by
  refine .done (fun name hname hcode => ?_) fun htest => (h _).mpr (.inl htest)
  exact ((h name).mp hcode).resolve_right fun hother => hothers name hother hname

/-- The test is a function of the sketch and not of the header. -/
@[simp]
theorem testName_not_mem : "mathIsPrime" ∉ Sketch.mathNames := by
  decide

/-- Code behind the header, which may use all the names in it. -/
theorem Accounts.done_of_header {code : Code} (hheader : ∀ name ∈ Sketch.mathNames, noted name)
    (h : code.Mentions Sketch.testName ↔ noted Sketch.testName) :
    (Plan.done code).Accounts noted := by
  refine .done (fun name hname hcode => ?_) h.mpr
  rcases List.mem_cons.mp hname with rfl | hname
  · exact h.mp hcode
  · exact hheader name hname

theorem accounts_operation (op : BinaryOp) (tier : Precedence) (left right : String) :
    (operation op tier left right).Accounts fun _ => False :=
  .value (plain_nat 0) fun a => .value (plain_nat 0) fun b =>
    .done_of_iff [] (by decide) fun name => by simp

theorem accounts_arithmetic (op : Arithmetic) : (arithmetic op).Accounts fun _ => False := by
  cases op with
  | power =>
    refine .header (.value (plain_nat 0) fun a => .value (plain_nat 0) fun b => ?_)
    exact .done_of_header (fun name h => .inl (.inl (.inr h))) (by simp [Sketch.testName_eq])
  | _ => exact accounts_operation _ _ _ _

theorem accounts_negation : negation.Accounts fun _ => False :=
  .value (plain_nat 0) fun a => .done_of_iff [] (by decide) fun name => by simp

/-- All names that a function uses are in the header. -/
theorem accounts_function (f : NumberFunction) : (function f).Accounts fun _ => False := by
  refine .header (.value (plain_nat 0) fun a => .done_of_header (fun name h => .inl (.inr h)) ?_)
  cases f <;> simp [applied, radians, degrees, Sketch.testName_eq]

theorem accounts_constant (c : NumberConstant) : (constant c).Accounts fun _ => False := by
  refine .header (.done_of_header (fun name h => .inr h) ?_)
  cases c <;> simp [constantFragment, Sketch.testName_eq]

/-- The test is used where it was asked for. -/
theorem accounts_property (p : NumberProperty) : (property p).Accounts fun _ => False := by
  refine .header (.value (plain_nat 0) fun a => ?_)
  cases p with
  | divisibleBy =>
    refine .value (plain_nat 0) fun d => ?_
    exact .done_of_header (fun name h => .inl (.inl (.inr h)))
      (by simp [remainderIs, Sketch.testName_eq])
  | prime =>
    refine .test ⟨"floor", by decide, .inl (.inr (by decide))⟩ ?_
    exact .done_of_header (fun name h => .inl (.inl (.inr h))) (by simp [Sketch.testName_eq])
  | _ =>
    exact .done_of_header (fun name h => .inl (.inr h)) (by simp [remainderIs, Sketch.testName_eq])

theorem accounts_change : change.Accounts fun _ => False :=
  .value (plain_nat 0) fun a => .reference fun x => .done_of_iff [] (by decide) fun name => by simp

theorem accounts_constrain : constrain.Accounts fun _ => False :=
  .value (plain_nat 0) fun a => .value (plain_nat 0) fun low => .value (plain_nat _) fun high =>
    .done_of_iff ["min", "max"] (by decide) fun name => by simp; tauto

theorem accounts_randomInteger : randomInteger.Accounts fun _ => False :=
  .value (plain_nat 0) fun low => .value (plain_nat 0) fun high =>
    .done_of_iff ["random"] (by decide) fun name => by simp; tauto

theorem accounts_literal (text : String) : (literal text).Accounts fun _ => False :=
  .done_of_iff ["String"] (by decide) fun name => by simp

theorem accounts_append : append.Accounts fun _ => False :=
  .reference fun x => .value (plain_literal "") fun text =>
    .done_of_iff ["String"] (by decide) fun name => by simp; tauto

theorem accounts_length : length.Accounts fun _ => False :=
  .value (plain_string "") fun text => .done_of_iff ["length"] (by decide) fun name => by simp

theorem accounts_isEmpty : isEmpty.Accounts fun _ => False :=
  .value (plain_string "") fun text => .done_of_iff ["length"] (by decide) fun name => by simp

theorem accounts_trim : trim.Accounts fun _ => False :=
  .value (plain_string "") fun text => .done_of_iff ["trim"] (by decide) fun name => by simp

theorem accounts_indexOf (oneBased : Bool) (searchEnd : SearchEnd) :
    (indexOf oneBased searchEnd).Accounts fun _ => False := by
  have hothers : ∀ name ∈ [searchMethod searchEnd], name ∉ Sketch.testName :: Sketch.mathNames := by
    cases searchEnd <;> decide
  refine .value (plain_literal "") fun sought => .value (plain_string "") fun text => ?_
  cases oneBased with
  | true => exact .done_of_iff _ hothers fun name => by simp; tauto
  | false => exact .done_of_iff _ hothers fun name => by simp; tauto

/-- A position counted from the end uses the text once more. -/
theorem accounts_position (origin : Origin) (socket : String) {text : Expr}
    {rest : Expr → Plan Code} (htext : ∀ name, text.Mentions name → noted name)
    (h : ∀ a, (rest a).Accounts fun name => noted name ∨ a.Mentions name) :
    (position origin socket text >>= rest).Accounts noted := by
  cases origin with
  | start => exact .value (plain_nat 0) h
  | finish =>
    refine .value (plain_nat 0) fun a => (h _).congr fun name hname => ?_
    have hlength : name ≠ "length" := by
      rintro rfl
      exact absurd hname (by decide)
    have htext := htext name
    simp only [Expr.mentions_binary, Expr.mentions_method]
    tauto

theorem accounts_charAt (origin : Origin) : (charAt origin).Accounts fun _ => False := by
  refine .value (plain_string "") fun text => accounts_position origin "AT" (by simp) fun index => ?_
  exact .done_of_iff ["charAt"] (by decide) fun name => by simp; tauto

theorem accounts_substring (first last : Origin) :
    (substring first last).Accounts fun _ => False := by
  refine .value (plain_string "") fun text => accounts_position first "AT1" (by simp) fun a => ?_
  refine accounts_position last "AT2" (fun name h => .inl (.inr h)) fun b => ?_
  exact .done_of_iff ["substring"] (by decide) fun name => by simp; tauto

theorem accounts_changeCase (c : CaseChange) : (changeCase c).Accounts fun _ => False := by
  cases c with
  | upper =>
    exact .value (plain_string "") fun text =>
      .done_of_iff ["toUpperCase"] (by decide) fun name => by simp
  | lower =>
    exact .value (plain_string "") fun text =>
      .done_of_iff ["toLowerCase"] (by decide) fun name => by simp
  | title => exact .value (plain_string "") fun text => .done_of_iff [] (by decide) fun name => by simp

end Plan

/-! ### Rules -/

/-- **Every rule closes its account.** -/
theorem Rule.accounts_plan {rule : Rule} {oneBased : Bool} {head : Block.Head}
    {plan : Plan Code} (h : rule.plan oneBased head = .ok plan) :
    plan.Accounts fun _ => False := by
  cases rule with
  | number =>
    obtain ⟨v, -, hplan⟩ := exists_of_bind_eq_ok h
    obtain rfl := Except.ok.inj hplan
    exact .done_of_iff [] (by decide) fun name => by simp [Expr.mentions_number]
  | arithmetic =>
    obtain ⟨op, -, hplan⟩ := exists_of_bind_eq_ok h
    exact Except.ok.inj hplan ▸ Plan.accounts_arithmetic op
  | function =>
    obtain ⟨word, -, hplan⟩ := exists_of_bind_eq_ok h
    split at hplan
    · exact Except.ok.inj hplan ▸ Plan.accounts_negation
    · split at hplan
      · exact Except.ok.inj hplan ▸ Plan.accounts_function _
      · cases hplan
  | constant =>
    obtain ⟨c, -, hplan⟩ := exists_of_bind_eq_ok h
    exact Except.ok.inj hplan ▸ Plan.accounts_constant c
  | property =>
    obtain ⟨p, -, hplan⟩ := exists_of_bind_eq_ok h
    exact Except.ok.inj hplan ▸ Plan.accounts_property p
  | change => exact Except.ok.inj h ▸ Plan.accounts_change
  | remainder => exact Except.ok.inj h ▸ Plan.accounts_operation _ _ _ _
  | constrain => exact Except.ok.inj h ▸ Plan.accounts_constrain
  | randomInteger => exact Except.ok.inj h ▸ Plan.accounts_randomInteger
  | text => exact Except.ok.inj h ▸ Plan.accounts_literal _
  | append => exact Except.ok.inj h ▸ Plan.accounts_append
  | length => exact Except.ok.inj h ▸ Plan.accounts_length
  | isEmpty => exact Except.ok.inj h ▸ Plan.accounts_isEmpty
  | trim => exact Except.ok.inj h ▸ Plan.accounts_trim
  | indexOf =>
    obtain ⟨searchEnd, -, hplan⟩ := exists_of_bind_eq_ok h
    exact Except.ok.inj hplan ▸ Plan.accounts_indexOf oneBased searchEnd
  | charAt =>
    obtain ⟨origin, -, hplan⟩ := exists_of_bind_eq_ok h
    exact Except.ok.inj hplan ▸ Plan.accounts_charAt origin
  | substring =>
    obtain ⟨first, -, hplan⟩ := exists_of_bind_eq_ok h
    obtain ⟨last, -, hplan⟩ := exists_of_bind_eq_ok hplan
    exact Except.ok.inj hplan ▸ Plan.accounts_substring first last
  | changeCase =>
    obtain ⟨c, -, hplan⟩ := exists_of_bind_eq_ok h
    exact Except.ok.inj hplan ▸ Plan.accounts_changeCase c

end BlockSketch
