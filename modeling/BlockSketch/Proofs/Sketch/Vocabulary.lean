import BlockSketch.Proofs.Decimal.Layout
import BlockSketch.Proofs.Grammar.Spelled
import BlockSketch.Proofs.Session.Reachable

/-!
# What code is made of

The rules make code from a small vocabulary: numbers, four constants, the names of variables, typed
texts, operators, and calls of functions and methods. `Expr.Built` is the grammar of all expressions
that come about, and `Block.ensures_built` says that every code is built by it. What is true of all
code because of the words that are used can be read off the grammar:

* `Expr.Built.startsPlain`: no expression starts with a literal, since texts are arguments only, of
  `String`, which makes an object of a text, and of the methods that search.
* `Expr.Built.names`: all names that do not stand behind a point are those of functions, of
  constants or of variables.
-/

namespace BlockSketch

namespace Expr

/-- The functions that code calls. -/
def functions : List String :=
  ["String", "abs", "sqrt", "log", "exp", "pow", "round", "ceil", "floor", "sin", "cos", "tan",
    "asin", "acos", "atan", "mathIsPrime", "min", "max", "random"]

/-- The constants that code uses. -/
def constants : List String :=
  ["M_PI", "M_E", "M_SQRT2", "M_SQRT1_2"]

/-- The expressions that the rules build, where `N` says what the names of variables are. -/
inductive Built (N : String → Prop) : Expr → Prop
  | numeral {n : Numeral} : n.whole ≠ [] → Built N (.numeral n)
  | constant {name : String} : name ∈ constants → Built N (.identifier name)
  | named {name : String} : N name → Built N (.identifier name)
  /-- a typed text, as an object -/
  | string (text : String) : Built N (.string text)
  | call {function : String} {a : Expr} : function ∈ functions → Built N a →
      Built N (.call function a)
  | callTwo {function : String} {a b : Expr} : function ∈ functions → Built N a → Built N b →
      Built N (.callTwo function a b)
  | method {object : Expr} (name : String) : Built N object → Built N (.method object name)
  | methodOne {object a : Expr} (name : String) : Built N object → Built N a →
      Built N (.methodOne object name a)
  /-- a method that is given a text which is no object -/
  | search {object : Expr} (name text : String) : Built N object →
      Built N (.methodOne object name (.literal text))
  | methodTwo {object a b : Expr} (name : String) : Built N object → Built N a → Built N b →
      Built N (.methodTwo object name a b)
  | negate {a : Expr} : Built N a → Built N (.negate a)
  | not {a : Expr} : Built N a → Built N (.not a)
  | binary {a b : Expr} (op : BinaryOp) : Built N a → Built N b → Built N (.binary op a b)
  | paren {a : Expr} : Built N a → Built N (.paren a)

/-- The names in an expression that do not stand behind a point. -/
def names : Expr → List String
  | numeral _ | literal _ => []
  | identifier name => [name]
  | call function a => function :: a.names
  | callTwo function a b => function :: (a.names ++ b.names)
  | method object _ => object.names
  | methodOne object _ a => object.names ++ a.names
  | methodTwo object _ a b => object.names ++ (a.names ++ b.names)
  | negate a | not a | paren a => a.names
  | binary _ a b => a.names ++ b.names

variable {N : String → Prop} {e : Expr}

theorem built_nat (n : Nat) : (nat n).Built N :=
  .numeral (Digits.ofNat_ne_nil n)

theorem built_number (v : Binary64) : (number v).Built N := by
  have hmagnitude : Built N (.numeral (numberLayout.numeral v.magnitude)) :=
    .numeral (numberLayout.numeral_whole_ne_nil v.magnitude)
  rw [number]
  cases v.isNegative with
  | true => exact .negate hmagnitude
  | false => exact hmagnitude

/-! ### First characters -/

theorem startsPlain_of_legal {name : String} (h : Identifier.Legal name) :
    Text.startsPlain name.toList = true := by
  refine Text.startsPlain_of_forall ?_ h.isPlain
  obtain ⟨c, rest, hname, -, -⟩ := h
  rw [hname]
  exact List.cons_ne_nil c rest

theorem legal_of_mem {name : String} (h : name ∈ functions ++ constants) :
    Identifier.Legal name :=
  (by decide : ∀ name ∈ functions ++ constants, Identifier.Legal name) name h

/-- **No expression starts with a literal.** -/
theorem Built.startsPlain (hN : ∀ name, N name → Identifier.Legal name) (h : e.Built N) :
    Text.startsPlain e.chars = true := by
  induction h with
  | @numeral n hn =>
    exact Text.startsPlain_of_forall (n.chars_ne_nil hn) n.isPlain_chars
  | constant hname => exact startsPlain_of_legal (legal_of_mem (List.mem_append_right _ hname))
  | named hname => exact startsPlain_of_legal (hN _ hname)
  | string text => rfl
  | call hname | callTwo hname =>
    have hlegal := legal_of_mem (List.mem_append_left _ hname)
    exact Text.startsPlain_append (startsPlain_of_legal hlegal) _
  | method _ _ ih | methodOne _ _ _ ih | search _ _ _ ih | methodTwo _ _ _ _ ih =>
    exact Text.startsPlain_append ih _
  | negate =>
    rw [chars, minusChars]
    split <;> rfl
  | not => rfl
  | binary _ _ _ ih => exact Text.startsPlain_append ih _
  | paren => rfl

/-! ### Names -/

/-- **The names in an expression** are those of functions, constants and variables. -/
theorem Built.names (h : e.Built N) :
    ∀ name ∈ e.names, name ∈ functions ∨ name ∈ constants ∨ N name := by
  induction h with
  | numeral => exact nofun
  | constant hname => exact List.forall_mem_singleton.mpr (.inr (.inl hname))
  | named hname => exact List.forall_mem_singleton.mpr (.inr (.inr hname))
  | string text => exact List.forall_mem_singleton.mpr (.inl (by decide))
  | call hname _ ih => exact List.forall_mem_cons.mpr ⟨.inl hname, ih⟩
  | callTwo hname _ _ iha ihb =>
    exact List.forall_mem_cons.mpr ⟨.inl hname, List.forall_mem_append.mpr ⟨iha, ihb⟩⟩
  | method _ _ ih | negate _ ih | not _ ih | paren _ ih => exact ih
  | methodOne _ _ _ iha ihb | binary _ _ _ iha ihb => exact List.forall_mem_append.mpr ⟨iha, ihb⟩
  | search _ _ _ ih => exact List.forall_mem_append.mpr ⟨ih, nofun⟩
  | methodTwo _ _ _ _ ih iha ihb =>
    exact List.forall_mem_append.mpr ⟨ih, List.forall_mem_append.mpr ⟨iha, ihb⟩⟩

end Expr

/-! ### The rules -/

/-- The target is the name of a variable, and the value is built from the vocabulary. -/
def Statement.Built (N : String → Prop) : Statement → Prop
  | .increase target e | .assign target e => N target ∧ e.Built N
  | .evaluate e => e.Built N

/-- The code is built from the vocabulary. -/
def Code.Built (N : String → Prop) (code : Code) : Prop :=
  code.asStatement.Built N

theorem Fragment.built_fit {N : String → Prop} {f : Fragment} (h : f.expr.Built N)
    (place : Precedence) : (f.fit place).Built N := by
  rw [Fragment.fit]
  split
  · exact .paren h
  · exact h

namespace Plan

/-- Sockets are answered with fallbacks or with what is built from the vocabulary. -/
def AnswersBuilt (N : String → Prop) (answer : String → Precedence → Expr → Expr → Prop) : Prop :=
  ∀ socket place fallback e, answer socket place fallback e → e = fallback ∨ e.Built N

variable {N : String → Prop} {answer : String → Precedence → Expr → Expr → Prop}
  (hanswer : AnswersBuilt N answer)
include hanswer

theorem AnswersBuilt.of_fallback {socket : String} {place : Precedence} {fallback e : Expr}
    (hfallback : fallback.Built N) (h : answer socket place fallback e) : e.Built N := by
  rcases hanswer socket place fallback e h with rfl | he
  · exact hfallback
  · exact he

theorem AnswersBuilt.operation (op : BinaryOp) (tier : Precedence) (left right : String) :
    (operation op tier left right).Meets answer N (Code.Built N) := by
  intro a ha b hb
  exact .binary op (hanswer.of_fallback (Expr.built_nat 0) ha)
    (hanswer.of_fallback (Expr.built_nat 0) hb)

theorem AnswersBuilt.position (origin : Origin) (socket : String) {text : Expr}
    {rest : Expr → Plan Code} (htext : text.Built N)
    (h : ∀ e, e.Built N → (rest e).Meets answer N (Code.Built N)) :
    (position origin socket text >>= rest).Meets answer N (Code.Built N) := by
  cases origin with
  | start => exact fun e he => h e (hanswer.of_fallback (Expr.built_nat 0) he)
  | finish =>
    intro a ha
    exact h _ (.binary .sub (.method "length" htext) (hanswer.of_fallback (Expr.built_nat 0) ha))

end Plan

theorem Expr.Built.radians {N : String → Prop} {a : Expr} (h : a.Built N) :
    (Plan.radians a).Built N :=
  .binary .mul (.binary .div h (built_nat 180)) (.constant (by decide))

theorem Expr.Built.degrees {N : String → Prop} {a : Expr} (h : a.Built N) :
    (Plan.degrees a).Built N :=
  .binary .mul (.binary .div h (.constant (by decide))) (built_nat 180)

theorem Expr.Built.applied {N : String → Prop} {a : Expr} (h : a.Built N) (f : NumberFunction) :
    (Plan.applied a f).expr.Built N := by
  cases f with
  | sine | cosine | tangent => exact .call (by decide) h.radians
  | powerOfTen => exact .callTwo (by decide) (built_nat 10) h
  | commonLogarithm =>
    exact .binary .div (.call (by decide) h) (.call (by decide) (built_nat 10))
  | arcSine | arcCosine | arcTangent => exact Built.degrees (.call (by decide) h)
  | _ => exact .call (by decide) h

theorem Expr.built_constant {N : String → Prop} (c : NumberConstant) :
    (Plan.constantFragment c).expr.Built N := by
  cases c with
  | goldenRatio =>
    have hroot : Built N (.call "sqrt" (nat 5)) := .call (by decide) (built_nat 5)
    exact .binary .div (.paren (.binary .add (built_nat 1) hroot)) (built_nat 2)
  | infinity => exact built_nat 10000000
  | _ => exact .constant (by decide)

theorem Expr.Built.remainderIs {N : String → Prop} {a divisor : Expr} (rest : Nat) (ha : a.Built N)
    (hd : divisor.Built N) :
    (Expr.binary .equal (.binary .rem a divisor) (nat rest)).Built N :=
  .binary .equal (.binary .rem ha hd) (built_nat rest)

/-- **Every rule builds with the vocabulary.** -/
theorem Rule.built_plan {N : String → Prop} {answer : String → Precedence → Expr → Expr → Prop}
    (hanswer : Plan.AnswersBuilt N answer) {rule : Rule} {oneBased : Bool} {head : Block.Head}
    {plan : Plan Code} (h : rule.plan oneBased head = .ok plan) :
    plan.Meets answer N (Code.Built N) := by
  have hnumber {socket : String} {place : Precedence} {n : Nat} {a : Expr}
      (ha : answer socket place (.nat n) a) : a.Built N :=
    hanswer.of_fallback (Expr.built_nat n) ha
  have htext {socket : String} {place : Precedence} {a : Expr}
      (ha : answer socket place (.string "") a) : a.Built N :=
    hanswer.of_fallback (.string "") ha
  cases rule with
  | number =>
    obtain ⟨v, -, hplan⟩ := exists_of_bind_eq_ok h
    obtain rfl := Except.ok.inj hplan
    exact Expr.built_number v
  | arithmetic =>
    obtain ⟨op, -, hplan⟩ := exists_of_bind_eq_ok h
    obtain rfl := Except.ok.inj hplan
    cases op with
    | power => exact fun a ha b hb => .callTwo (by decide) (hnumber ha) (hnumber hb)
    | _ => exact hanswer.operation _ _ _ _
  | function =>
    obtain ⟨word, -, hplan⟩ := exists_of_bind_eq_ok h
    split at hplan
    · obtain rfl := Except.ok.inj hplan
      exact fun a ha => .negate (hnumber ha)
    · split at hplan
      · next f _ =>
        obtain rfl := Except.ok.inj hplan
        exact fun a ha => (hnumber ha).applied f
      · cases hplan
  | constant =>
    obtain ⟨c, -, hplan⟩ := exists_of_bind_eq_ok h
    obtain rfl := Except.ok.inj hplan
    exact Expr.built_constant c
  | property =>
    obtain ⟨p, -, hplan⟩ := exists_of_bind_eq_ok h
    obtain rfl := Except.ok.inj hplan
    intro a ha
    cases p with
    | even | odd | whole => exact (hnumber ha).remainderIs _ (Expr.built_nat _)
    | positive | negative => exact .binary _ (hnumber ha) (Expr.built_nat 0)
    | divisibleBy => exact fun d hd => (hnumber ha).remainderIs 0 (hnumber hd)
    | prime => exact .call (by decide) (hnumber ha)
  | change =>
    obtain rfl := Except.ok.inj h
    exact fun amount ha name hname => ⟨hname, hnumber ha⟩
  | remainder =>
    obtain rfl := Except.ok.inj h
    exact hanswer.operation _ _ _ _
  | constrain =>
    obtain rfl := Except.ok.inj h
    intro a ha low hlow high hhigh
    exact .callTwo (by decide) (.callTwo (by decide) (hnumber ha) (hnumber hlow)) (hnumber hhigh)
  | randomInteger =>
    obtain rfl := Except.ok.inj h
    exact fun low hlow high hhigh => .callTwo (by decide) (hnumber hlow) (hnumber hhigh)
  | text =>
    obtain rfl := Except.ok.inj h
    exact Expr.Built.string _
  | append =>
    obtain rfl := Except.ok.inj h
    intro name hname text ha
    -- the fallback is no object, but it is made one by the call around it
    have happended : (Expr.call "String" text).Built N := by
      rcases hanswer _ _ _ text ha with rfl | htext
      · exact .string ""
      · exact .call (by decide) htext
    exact ⟨hname, .binary .add (.call (by decide) (.named hname)) happended⟩
  | length =>
    obtain rfl := Except.ok.inj h
    exact fun text ha => .method "length" (htext ha)
  | isEmpty =>
    obtain rfl := Except.ok.inj h
    exact fun text ha => .not (.method "length" (htext ha))
  | indexOf =>
    obtain ⟨searchEnd, -, hplan⟩ := exists_of_bind_eq_ok h
    obtain rfl := Except.ok.inj hplan
    intro sought hsought text ha
    have hfound : (Expr.methodOne text (Plan.searchMethod searchEnd) sought).Built N := by
      rcases hanswer _ _ _ sought hsought with rfl | hsought
      · exact .search _ "" (htext ha)
      · exact .methodOne _ (htext ha) hsought
    cases oneBased with
    | true => exact .binary .add hfound (Expr.built_nat 1)
    | false => exact hfound
  | charAt =>
    obtain ⟨origin, -, hplan⟩ := exists_of_bind_eq_ok h
    obtain rfl := Except.ok.inj hplan
    intro text ha
    exact hanswer.position origin "AT" (htext ha) fun index hindex =>
      .methodOne "charAt" (htext ha) hindex
  | substring =>
    obtain ⟨first, -, hplan⟩ := exists_of_bind_eq_ok h
    obtain ⟨last, -, hplan⟩ := exists_of_bind_eq_ok hplan
    obtain rfl := Except.ok.inj hplan
    intro text ha
    refine hanswer.position first "AT1" (htext ha) fun a ha' => ?_
    refine hanswer.position last "AT2" (htext ha) fun b hb => ?_
    exact .methodTwo "substring" (htext ha) ha' hb
  | changeCase =>
    obtain ⟨c, -, hplan⟩ := exists_of_bind_eq_ok h
    obtain rfl := Except.ok.inj hplan
    cases c with
    | upper => exact fun text ha => .method "toUpperCase" (htext ha)
    | lower => exact fun text ha => .method "toLowerCase" (htext ha)
    | title => exact fun text ha => htext ha
  | trim =>
    obtain rfl := Except.ok.inj h
    exact fun text ha => .method "trim" (htext ha)

/-! ### Blocks -/

/-- What a registry may hand out: identifiers that are not reserved. -/
def Identifier.Unreserved (name : String) : Prop :=
  Legal name ∧ name ∉ reserved

/-- **The code of every block is built from the vocabulary**, with names that are not reserved. -/
theorem Block.ensures_built (b : Block) :
    b.code.Ensures (fun s => s.registry.Sound) (Code.Built Identifier.Unreserved) := by
  refine ensures_code Session.invariant_sound (N := Identifier.Unreserved)
    (Q := fun _ code => code.Built Identifier.Unreserved) ?_ ?_ b
  · intro s name hs
    exact (hs.identify name).legal _ (hs.mem_taken_identify name)
  · intro rule b s plan _ _ hplan
    refine Rule.built_plan ?_ hplan
    intro socket place fallback e he
    rw [Answer] at he
    cases hchild : b.inSocket socket with
    | none =>
      rw [hchild] at he
      exact .inl he
    | some child =>
      rw [hchild] at he
      obtain ⟨f, hf, rfl⟩ := he
      exact .inr (Fragment.built_fit hf place)

/-- **No statement starts with a literal.** -/
theorem Statement.Built.startsPlain {N : String → Prop}
    (hN : ∀ name, N name → Identifier.Legal name) {st : Statement} (h : st.Built N) : Text.startsPlain st.chars = true := by
  cases st with
  | increase target e =>
    have htarget := Expr.startsPlain_of_legal (hN target h.1)
    exact Text.startsPlain_append (Text.startsPlain_append (Text.startsPlain_append htarget _) _) _
  | assign target e =>
    have htarget := Expr.startsPlain_of_legal (hN target h.1)
    exact Text.startsPlain_append (Text.startsPlain_append (Text.startsPlain_append htarget _) _) _
  | evaluate e => exact Text.startsPlain_append (Expr.Built.startsPlain hN h) _

end BlockSketch
