import BlockSketch.Proofs.Meaning.Means
import BlockSketch.Proofs.Session.Reachable

/-!
# Code says what blocks mean

The code of a block, read as C, is the tree that the block stands for. `Rule.faithful_plan` says so of
the plan of each rule, as far as its sockets are answered with expressions that have the trees in the
sockets and fit their places. Sockets are answered in that way as soon as the blocks in them have the
right code (`Fragment.Means.fit`), and so the statement about blocks is put together by
`Block.ensures_code`.
-/

namespace BlockSketch

/-! ### The rules -/

namespace Plan

/-- Sockets are answered with expressions that have the trees in the sockets and fit. -/
def Answers (answer : String → Precedence → Expr → Expr → Prop)
    (operand : String → Tree → Option Tree) : Prop :=
  ∀ socket place fallback e t, Expr.Means fallback t 0 → answer socket place fallback e →
    ∃ t', operand socket t = some t' ∧ e.Means t' place.room

variable {α : Type} {answer : String → Precedence → Expr → Expr → Prop} {named : String → Prop}
  {operand : String → Tree → Option Tree} {Q : α → Prop} (hanswers : Answers answer operand)
include hanswers

/-- A plan that asks for a socket. -/
theorem Answers.ask {socket : String} {place : Precedence} {fallback : Expr} {t : Tree}
    {rest : Expr → Plan α} (hfallback : fallback.Means t 0)
    (h : ∀ e t', operand socket t = some t' → e.Means t' place.room →
      (rest e).Meets answer named Q) :
    (Plan.ask socket place fallback >>= rest).Meets answer named Q := by
  intro e he
  obtain ⟨t', ht', hmeans⟩ := hanswers _ _ _ _ _ hfallback he
  exact h e t' ht' hmeans

/-- An operator between two sockets. -/
theorem Answers.operation {op : BinaryOp} {tier : Precedence} {left right : String}
    {Q : Code → Prop} (hroom : tier.room < op.level) (hlevel : op.level ≤ tier.level)
    (h : ∀ a b f, operand left (.nat 0) = some a → operand right (.nat 0) = some b →
      Fragment.Means f (.binary op a b) → Q (.value f)) :
    (Plan.operation op tier left right).Meets answer named Q := by
  refine hanswers.ask (Expr.means_nat 0) fun a ta hta ha => ?_
  refine hanswers.ask (Expr.means_nat 0) fun b tb htb hb => ?_
  exact h ta tb _ hta htb ((ha.binary op hb (Nat.le_of_lt hroom) hroom).mono hlevel)

/-- A position in a text, whose own expression is at hand. -/
theorem Answers.position {origin : Origin} {socket : String} {text : Expr} {t : Tree}
    {rest : Expr → Plan α} (htext : text.Means t 0)
    (h : ∀ e a, operand socket (.nat 0) = some a → e.Means (origin.intended t a) 5 →
      (rest e).Meets answer named Q) :
    (Plan.position origin socket text >>= rest).Meets answer named Q := by
  cases origin with
  | start => exact hanswers.ask (Expr.means_nat 0) h
  | finish =>
    refine hanswers.ask (Expr.means_nat 0) fun e a ha he => h _ a ha ?_
    exact ((htext.method (by decide)).binary .sub he (by decide) (by decide)).mono (by decide)

end Plan

/-- An angle is divided by a straight angle first. -/
theorem Expr.Means.radians {a : Expr} {t : Tree} (h : a.Means t 1) :
    (Plan.radians a).Means (.binary .mul (.binary .div t (.nat 180)) .pi) 2 :=
  (h.binary .div (means_nat 180) (by decide) (by decide)).binary .mul means_pi (by decide)
    (by decide)

theorem Expr.Means.degrees {a : Expr} {t : Tree} (h : a.Means t 0) :
    (Plan.degrees a).Means (.binary .mul (.binary .div t .pi) (.nat 180)) 2 :=
  (h.binary .div means_pi (by decide) (by decide)).binary .mul (means_nat 180) (by decide)
    (by decide)

/-- A function of a number has its tree if the argument fits the place that it asks for. -/
theorem Fragment.means_applied {a : Expr} {t : Tree} (f : NumberFunction)
    (h : a.Means t (Plan.argumentPlace f).room) : (Plan.applied a f).Means (f.intended t) := by
  cases f with
  | sine | cosine | tangent => exact h.radians.call (by decide)
  | powerOfTen => exact (Expr.means_nat 10).callTwo (by decide) h
  | commonLogarithm =>
    have hten := (Expr.means_nat 10).call (f := "log") (by decide)
    exact (h.call (by decide)).binary .div hten (by decide) (by decide)
  | arcSine | arcCosine | arcTangent => exact (h.call (by decide)).degrees
  | _ => exact h.call (by decide)

theorem Fragment.means_constant (c : NumberConstant) :
    (Plan.constantFragment c).Means c.intended := by
  cases c with
  | goldenRatio =>
    have hroot := (Expr.means_nat 5).call (f := "sqrt") (by decide)
    have hsum := (Expr.means_nat 1).binary .add hroot (by decide) (by decide)
    exact hsum.paren.binary .div (Expr.means_nat 2) (by decide) (by decide)
  | infinity => exact Expr.means_nat 10000000
  | _ => exact Expr.means_identifier (by decide)

/-- A remainder compared with a number. -/
theorem Expr.Means.remainderIs {a divisor : Expr} {ta td : Tree} (rest : Nat) (ha : a.Means ta 1)
    (hd : divisor.Means td 1) :
    (Expr.binary .equal (.binary .rem a divisor) (nat rest)).Means
      (.binary .equal (.binary .rem ta td) (.nat rest)) 5 :=
  (ha.binary .rem hd (by decide) (by decide)).binary .equal (means_nat rest) (by decide)
    (by decide)

/-- A number compared with another is of a tighter layer than its tier says. -/
theorem Expr.Means.comparison {op : BinaryOp} {a b : Expr} {ta tb : Tree} (hop : op.level = 4)
    (ha : a.Means ta 1) (hb : b.Means tb 0) :
    (Expr.binary op a b).Means (.binary op ta tb) 5 :=
  (ha.binary op hb (by omega) (by omega)).mono (by omega)

/-- What is there is handed on. -/
theorem bind_of_eq_some {α β : Type} {x : Option α} {f : α → Option β} {a : α} (h : x = some a) :
    x >>= f = f a := by
  rw [h]
  rfl

/-- What was read without an error is handed on. -/
theorem bind_of_eq_ok {ε α β : Type} {x : Except ε α} {f : α → Option β} {a : α} (h : x = .ok a) :
    x.toOption >>= f = f a :=
  bind_of_eq_some (congrArg Except.toOption h)

namespace Rule

variable {answer : String → Precedence → Expr → Expr → Prop}
  {operand : String → Tree → Option Tree} {oneBased : Bool} {head : Block.Head}

/-- What the plan of a rule is to meet. -/
def Faithful (answer : String → Precedence → Expr → Expr → Prop)
    (operand : String → Tree → Option Tree) (oneBased : Bool) (head : Block.Head) (rule : Rule)
    (plan : Plan Code) : Prop :=
  plan.Meets answer Identifier.Legal fun code =>
    code.Means (rule.intended oneBased head operand) fun target => rule.assignment target operand

section
variable (hanswers : Plan.Answers answer operand)
include hanswers

theorem faithful_arithmetic {op : Arithmetic}
    (h : head.selector "OP" Arithmetic.ofField? = .ok op) :
    arithmetic.Faithful answer operand oneBased head (Plan.arithmetic op) := by
  have hintended {a b : Tree} (ha : operand "A" (.nat 0) = some a)
      (hb : operand "B" (.nat 0) = some b) :
      arithmetic.intended oneBased head operand = some (op.intended a b) :=
    (bind_of_eq_ok h).trans ((bind_of_eq_some ha).trans (bind_of_eq_some hb))
  cases op with
  | power =>
    refine hanswers.ask (Expr.means_nat 0) fun a ta hta ha => ?_
    refine hanswers.ask (Expr.means_nat 0) fun b tb htb hb => ?_
    exact ⟨_, hintended hta htb, ha.callTwo (by decide) hb⟩
  | _ =>
    exact hanswers.operation (by decide) (by decide) fun a b f ha hb hf =>
      ⟨_, hintended ha hb, hf⟩

theorem faithful_function {plan : Plan Code} (h : functionPlan head = .ok plan) :
    function.Faithful answer operand oneBased head plan := by
  obtain ⟨word, hword, hplan⟩ := exists_of_bind_eq_ok h
  by_cases hneg : word = "NEG"
  · rw [if_pos hneg] at hplan
    obtain rfl := Except.ok.inj hplan
    refine hanswers.ask (Expr.means_nat 0) fun a ta hta ha => ?_
    refine ⟨_, ?_, ha.negate⟩
    exact (bind_of_eq_ok hword).trans ((bind_of_eq_some hta).trans (if_pos hneg))
  · rw [if_neg hneg] at hplan
    cases hf : NumberFunction.ofField? word with
    | none =>
      rw [hf] at hplan
      cases hplan
    | some f =>
      rw [hf] at hplan
      obtain rfl := Except.ok.inj hplan
      refine hanswers.ask (Expr.means_nat 0) fun a ta hta ha => ?_
      refine ⟨_, ?_, Fragment.means_applied f ha⟩
      exact (bind_of_eq_ok hword).trans ((bind_of_eq_some hta).trans
        ((if_neg hneg).trans (bind_of_eq_some hf)))

theorem faithful_property {p : NumberProperty}
    (h : head.selector "PROPERTY" NumberProperty.ofField? = .ok p) :
    property.Faithful answer operand oneBased head (Plan.property p) := by
  have hintended {a : Tree} (ha : operand "NUMBER_TO_CHECK" (.nat 0) = some a) :
      property.intended oneBased head operand = p.intended a (operand "DIVISOR" (.nat 0)) :=
    (bind_of_eq_ok h).trans (bind_of_eq_some ha)
  refine hanswers.ask (Expr.means_nat 0) fun a ta hta ha => ?_
  cases p with
  | divisibleBy =>
    refine hanswers.ask (Expr.means_nat 0) fun d td htd hd => ?_
    exact ⟨_, (hintended hta).trans (by rw [htd]; rfl), ha.remainderIs 0 hd⟩
  | even | odd | whole =>
    exact ⟨_, hintended hta, ha.remainderIs _ ((Expr.means_nat _).mono (by decide))⟩
  | positive | negative => exact ⟨_, hintended hta, ha.comparison rfl (Expr.means_nat 0)⟩
  | prime => exact ⟨_, hintended hta, ha.call (by decide)⟩

theorem faithful_change : change.Faithful answer operand oneBased head Plan.change := by
  refine hanswers.ask (Expr.means_nat 0) fun a ta hta ha => ?_
  intro target htarget
  exact ⟨target, .plusAssign, ta, htarget, bind_of_eq_some hta, rfl, rfl, ha.mono (by decide)⟩

theorem faithful_constrain :
    constrain.Faithful answer operand oneBased head Plan.constrain := by
  refine hanswers.ask (Expr.means_nat 0) fun a ta hta ha => ?_
  refine hanswers.ask (Expr.means_nat 0) fun low tlow htlow hlow => ?_
  refine hanswers.ask (Expr.means_nat 100000000) fun high thigh hthigh hhigh => ?_
  refine ⟨_, ?_, (ha.callTwo (by decide) hlow).callTwo (by decide) hhigh⟩
  exact (bind_of_eq_some hta).trans ((bind_of_eq_some htlow).trans (bind_of_eq_some hthigh))

theorem faithful_randomInteger :
    randomInteger.Faithful answer operand oneBased head Plan.randomInteger := by
  refine hanswers.ask (Expr.means_nat 0) fun low tlow htlow hlow => ?_
  refine hanswers.ask (Expr.means_nat 0) fun high thigh hthigh hhigh => ?_
  refine ⟨_, ?_, hlow.callTwo (by decide) hhigh⟩
  exact (bind_of_eq_some htlow).trans (bind_of_eq_some hthigh)

/-- The variable stands on both sides. -/
theorem faithful_append : append.Faithful answer operand oneBased head Plan.append := by
  intro target htarget
  refine hanswers.ask (Expr.means_literal "") fun a ta hta ha => ?_
  have hold := (Expr.means_identifier htarget).call (f := "String") (by decide)
  have hsum := hold.binary .add (ha.call (f := "String") (by decide)) (by decide) (by decide)
  exact ⟨target, .assign, _, htarget, bind_of_eq_some hta, rfl, rfl, hsum.mono (by decide)⟩

theorem faithful_length : length.Faithful answer operand oneBased head Plan.length := by
  refine hanswers.ask (Expr.means_string "") fun a ta hta ha => ?_
  exact ⟨_, bind_of_eq_some hta, ha.method (by decide)⟩

theorem faithful_isEmpty : isEmpty.Faithful answer operand oneBased head Plan.isEmpty := by
  refine hanswers.ask (Expr.means_string "") fun a ta hta ha => ?_
  exact ⟨_, bind_of_eq_some hta, ((ha.method (by decide)).mono (by decide)).not⟩

theorem faithful_indexOf {e : SearchEnd} (h : searchEnd head = .ok e) :
    indexOf.Faithful answer operand oneBased head (Plan.indexOf oneBased e) := by
  refine hanswers.ask (Expr.means_literal "") fun a ta hta ha => ?_
  refine hanswers.ask (Expr.means_string "") fun text t ht htext => ?_
  have hlegal : Identifier.Legal (Plan.searchMethod e) := by cases e <;> decide
  have hfound := htext.methodOne hlegal ha
  have hintended : indexOf.intended oneBased head operand = some (e.intended oneBased ta t) :=
    (bind_of_eq_ok h).trans ((bind_of_eq_some hta).trans (bind_of_eq_some ht))
  cases oneBased with
  | true =>
    refine ⟨_, hintended.trans ?_, hfound.binary .add (Expr.means_nat 1) (by decide) (by decide)⟩
    cases e <;> rfl
  | false =>
    refine ⟨_, hintended.trans ?_, hfound⟩
    cases e <;> rfl

theorem faithful_charAt {o : Origin} (h : origin head "WHERE" = .ok o) :
    charAt.Faithful answer operand oneBased head (Plan.charAt o) := by
  refine hanswers.ask (Expr.means_string "") fun text t ht htext => ?_
  refine hanswers.position htext fun e a ha he => ?_
  refine ⟨_, ?_, htext.methodOne (by decide) he⟩
  exact (bind_of_eq_ok h).trans ((bind_of_eq_some ht).trans (bind_of_eq_some ha))

theorem faithful_substring {first last : Origin} (hfirst : origin head "WHERE1" = .ok first)
    (hlast : origin head "WHERE2" = .ok last) :
    substring.Faithful answer operand oneBased head (Plan.substring first last) := by
  refine hanswers.ask (Expr.means_string "") fun text t ht htext => ?_
  refine hanswers.position htext fun e a ha he => ?_
  refine hanswers.position htext fun e' a' ha' he' => ?_
  refine ⟨_, ?_, htext.methodTwo (by decide) he he'⟩
  exact (bind_of_eq_ok hfirst).trans ((bind_of_eq_ok hlast).trans
    ((bind_of_eq_some ht).trans ((bind_of_eq_some ha).trans (bind_of_eq_some ha'))))

/-- Title case hands an expression on as it was put into a place for any. -/
theorem faithful_changeCase {c : CaseChange}
    (h : head.selector "CASE" CaseChange.ofField? = .ok c) :
    changeCase.Faithful answer operand oneBased head (Plan.changeCase c) := by
  have hintended {a : Tree} (ha : operand "TEXT" (.string "") = some a) :
      changeCase.intended oneBased head operand = some (c.intended a) :=
    (bind_of_eq_ok h).trans (bind_of_eq_some ha)
  cases c with
  | title =>
    refine hanswers.ask (Expr.means_string "") fun a ta hta ha => ?_
    exact ⟨_, hintended hta, ha⟩
  | _ =>
    refine hanswers.ask (Expr.means_string "") fun a ta hta ha => ?_
    exact ⟨_, hintended hta, ha.method (by decide)⟩

theorem faithful_trim : trim.Faithful answer operand oneBased head Plan.trim := by
  refine hanswers.ask (Expr.means_string "") fun a ta hta ha => ?_
  exact ⟨_, bind_of_eq_some hta, ha.method (by decide)⟩

/-- **Every plan is faithful to its rule.** -/
theorem faithful_plan {rule : Rule} {p : Plan Code} (h : rule.plan oneBased head = .ok p) :
    rule.Faithful answer operand oneBased head p := by
  cases rule with
  | number =>
    obtain ⟨v, hv, hplan⟩ := exists_of_bind_eq_ok h
    obtain rfl := Except.ok.inj hplan
    refine ⟨_, bind_of_eq_ok hv, (Expr.means_number v).mono ?_⟩
    cases v.isNegative with
    | true => exact Nat.le_refl 1
    | false => exact Nat.le_refl 0
  | arithmetic =>
    obtain ⟨op, hop, hplan⟩ := exists_of_bind_eq_ok h
    obtain rfl := Except.ok.inj hplan
    exact faithful_arithmetic hanswers hop
  | function => exact faithful_function hanswers h
  | constant =>
    obtain ⟨c, hc, hplan⟩ := exists_of_bind_eq_ok h
    obtain rfl := Except.ok.inj hplan
    exact ⟨_, bind_of_eq_ok hc, Fragment.means_constant c⟩
  | property =>
    obtain ⟨q, hq, hplan⟩ := exists_of_bind_eq_ok h
    obtain rfl := Except.ok.inj hplan
    exact faithful_property hanswers hq
  | change =>
    obtain rfl := Except.ok.inj h
    exact faithful_change hanswers
  | remainder =>
    obtain rfl := Except.ok.inj h
    refine hanswers.operation (by decide) (by decide) fun a b f ha hb hf => ⟨_, ?_, hf⟩
    exact (bind_of_eq_some ha).trans (bind_of_eq_some hb)
  | constrain =>
    obtain rfl := Except.ok.inj h
    exact faithful_constrain hanswers
  | randomInteger =>
    obtain rfl := Except.ok.inj h
    exact faithful_randomInteger hanswers
  | text =>
    obtain rfl := Except.ok.inj h
    exact ⟨_, rfl, Expr.means_string _⟩
  | append =>
    obtain rfl := Except.ok.inj h
    exact faithful_append hanswers
  | length =>
    obtain rfl := Except.ok.inj h
    exact faithful_length hanswers
  | isEmpty =>
    obtain rfl := Except.ok.inj h
    exact faithful_isEmpty hanswers
  | indexOf =>
    obtain ⟨e, he, hplan⟩ := exists_of_bind_eq_ok h
    obtain rfl := Except.ok.inj hplan
    exact faithful_indexOf hanswers he
  | charAt =>
    obtain ⟨o, ho, hplan⟩ := exists_of_bind_eq_ok h
    obtain rfl := Except.ok.inj hplan
    exact faithful_charAt hanswers ho
  | substring =>
    obtain ⟨first, hfirst, hplan⟩ := exists_of_bind_eq_ok h
    obtain ⟨last, hlast, hplan⟩ := exists_of_bind_eq_ok hplan
    obtain rfl := Except.ok.inj hplan
    exact faithful_substring hanswers hfirst hlast
  | changeCase =>
    obtain ⟨c, hc, hplan⟩ := exists_of_bind_eq_ok h
    obtain rfl := Except.ok.inj hplan
    exact faithful_changeCase hanswers hc
  | trim =>
    obtain rfl := Except.ok.inj h
    exact faithful_trim hanswers

end

end Rule

/-! ### Blocks -/

namespace Block

/-- Blocks whose codes have their trees answer with expressions that fit, and so does an empty
socket with its fallback. -/
theorem answers_operand (oneBased : Bool) (b : Block) :
    Plan.Answers (b.Answer fun b code => code.Means (b.intended oneBased) (b.assignment oneBased))
      (b.operand oneBased) := by
  intro socket place fallback e t hfallback he
  rw [Answer] at he
  rw [operand]
  cases hchild : b.inSocket socket with
  | none =>
    rw [hchild] at he
    obtain rfl : e = fallback := he
    exact ⟨t, rfl, hfallback.mono (Nat.zero_le _)⟩
  | some child =>
    rw [hchild] at he
    obtain ⟨f, ⟨t', ht', hf⟩, rfl⟩ := he
    exact ⟨t', ht', hf.fit place⟩

/-- The code of a block means what the block does, and that of the blocks in its sockets too. -/
theorem ensures_means (options : Options) (b : Block) :
    b.code.Ensures (fun s => s.options = options ∧ s.registry.Sound) fun code =>
      code.Means (b.intended options.oneBased) (b.assignment options.oneBased) := by
  refine ensures_code ?_ (N := Identifier.Legal) ?_ ?_ b
    (Q := fun b code => code.Means (b.intended options.oneBased) (b.assignment options.oneBased))
  · exact ⟨fun _ _ hs => hs, fun name hs => ⟨hs.1, hs.2.identify name⟩⟩
  · intro s name hs
    exact ((hs.2.identify name).legal _ (hs.2.mem_taken_identify name)).1
  · intro rule b s plan hs hrule hplan
    rw [hs.1] at hplan
    rw [intended_eq _ _ hrule]
    have hassignment : b.assignment options.oneBased =
        fun target => rule.assignment target (b.operand options.oneBased) := by
      funext target
      rw [assignment, hrule]
    rw [hassignment]
    exact Rule.faithful_plan (answers_operand options.oneBased b) hplan

/-- **Code says what blocks mean.** In whatever session a block becomes a value, the text of the value
is read as the tree that the block stands for, and where it becomes a statement, that is read as the
assignment that the block stands for, with its right-hand side as intended. -/
theorem code_says_what_is_meant {s : Session} (hs : s.Reachable) (b : Block) :
    (∀ f, (s.perform b.code).1 = .ok (.value f) →
      ∃ t, b.intended s.options.oneBased = some t ∧ Tree.read f.text.toList = some t) ∧
    ∀ st, (s.perform b.code).1 = .ok (.statement st) →
      ∃ target sign rhs t, b.assignment s.options.oneBased target = some (sign, t) ∧
        Token.lex st.text.toList =
          some (.identifier target :: sign :: (rhs ++ [.semicolon])) ∧
        Tree.parse rhs = some t := by
  have hmeans := (ensures_means s.options b s ⟨rfl, hs.sound⟩).2
  refine ⟨fun f hf => ?_, fun st hst => ?_⟩
  · obtain ⟨t, ht, hread⟩ := hmeans _ hf
    refine ⟨t, ht, ?_⟩
    rw [Fragment.text, Expr.text, String.toList_ofList]
    exact Expr.Means.read hread
  · obtain ⟨target, sign, t, hlegal, ht, hst⟩ := hmeans _ hst
    obtain ⟨rhs, hlex, hparse⟩ := hst.lex hlegal
    exact ⟨target, sign, rhs, t, ht, hlex, hparse⟩

/-- The negation of the negation of an empty socket. -/
def doubleNegation : Block :=
  let head : Head := ⟨"math_single", [("OP", .string "NEG")]⟩
  ⟨head, none, [("NUM", ⟨none, some ⟨head, none, [], none⟩⟩)], none⟩

/-- Two minus signs that meet stay two. -/
theorem doubleNegation_means : (Session.new {}).Reachable ∧
    ((Session.new {}).perform doubleNegation.code).1 =
      .ok (.value ⟨.negate (.negate (.nat 0)), .unaryPrefix⟩) ∧
    ∃ t, doubleNegation.intended true = some t ∧ Tree.read ['-', ' ', '-', '0'] = some t :=
  ⟨.new {}, rfl, (code_says_what_is_meant (.new {}) doubleNegation).1 _ rfl⟩

end Block

end BlockSketch
