import BlockSketch.Proofs.Decimal.Layout
import BlockSketch.Proofs.Grammar.Printed
import BlockSketch.Proofs.Session.Ensures

/-!
# A block in a socket is never passed over

A block whose code has no text would be passed over, and the fallback would stand in for it as if
its socket were empty. There is no such block. Nearly all rules put signs of their own around the
answers that they get, and a number has a digit. Only title case hands on its answer as it is, which
has a text by induction over the blocks.

* `Rule.hasText_plan`: answered with texts, every rule makes code that has a text.
* `Block.run_value`: so a plan that asks for a socket goes on with the expression of the block in it,
  whatever the fallback. All that is said elsewhere about the codes of blocks rests on this.
* `Block.fallback_iff_unconnected`: a fallback stands for an empty socket and for nothing else.
-/

namespace BlockSketch

/-! ### Texts -/

namespace Expr

theorem text_ne_empty {e : Expr} (h : e.chars ≠ []) : e.text ≠ "" := by
  intro hempty
  apply h
  rw [← String.toList_ofList (l := e.chars)]
  exact congrArg String.toList hempty

theorem chars_nat_ne_nil (n : Nat) : (nat n).chars ≠ [] :=
  Numeral.chars_ne_nil (Digits.ofNat_ne_nil n)

theorem chars_number_ne_nil (v : Binary64) : (number v).chars ≠ [] := by
  rw [number]
  cases v.isNegative with
  | true => exact chars_ne_nil_of_ne nofun nofun
  | false => exact Numeral.chars_ne_nil (numberLayout.numeral_whole_ne_nil v.magnitude)

end Expr

namespace Fragment

variable {f : Fragment}

theorem isEmpty_eq_false (h : f.expr.chars ≠ []) : f.isEmpty = false :=
  List.isEmpty_eq_false_iff.mpr h

/-- Parentheses do not take the text away. -/
theorem chars_fit_ne_nil (h : f.expr.chars ≠ []) (place : Precedence) :
    (f.fit place).chars ≠ [] := by
  rw [fit]
  split
  · exact Expr.chars_ne_nil_of_ne nofun nofun
  · exact h

end Fragment

/-- A value has a text. Of a statement, which no socket takes, nothing is said. -/
def Code.HasText : Code → Prop
  | value f => f.expr.chars ≠ []
  | statement _ => True

/-! ### Rules -/

namespace Plan

/-- The answer has a text if the fallback has one. -/
def AnswerHasText (_socket : String) (_place : Precedence) (fallback e : Expr) : Prop :=
  fallback.chars ≠ [] → e.chars ≠ []

/-- Whatever it is applied to, a function has a text of its own. -/
theorem chars_applied_ne_nil (a : Expr) (f : NumberFunction) : (applied a f).expr.chars ≠ [] := by
  cases f with
  | _ => exact Expr.chars_ne_nil_of_ne nofun nofun

theorem chars_constant_ne_nil (c : NumberConstant) : (constantFragment c).expr.chars ≠ [] := by
  cases c with
  | goldenRatio => exact Expr.chars_ne_nil_of_ne nofun nofun
  | infinity => exact Expr.chars_nat_ne_nil 10000000
  | _ => decide

end Plan

/-- **Every rule makes code that has a text** if the answers have one. -/
theorem Rule.hasText_plan {rule : Rule} {oneBased : Bool} {head : Block.Head} {plan : Plan Code}
    (h : rule.plan oneBased head = .ok plan) :
    plan.Meets Plan.AnswerHasText (fun _ => True) Code.HasText := by
  cases rule with
  | number =>
    obtain ⟨v, -, hplan⟩ := exists_of_bind_eq_ok h
    obtain rfl := Except.ok.inj hplan
    exact Expr.chars_number_ne_nil v
  | arithmetic =>
    obtain ⟨op, -, hplan⟩ := exists_of_bind_eq_ok h
    obtain rfl := Except.ok.inj hplan
    cases op with
    | _ => exact fun a _ b _ => Expr.chars_ne_nil_of_ne nofun nofun
  | function =>
    obtain ⟨word, -, hplan⟩ := exists_of_bind_eq_ok h
    split at hplan
    · obtain rfl := Except.ok.inj hplan
      exact fun a _ => Expr.chars_ne_nil_of_ne nofun nofun
    · split at hplan
      · next f _ =>
        obtain rfl := Except.ok.inj hplan
        exact fun a _ => Plan.chars_applied_ne_nil a f
      · cases hplan
  | constant =>
    obtain ⟨c, -, hplan⟩ := exists_of_bind_eq_ok h
    obtain rfl := Except.ok.inj hplan
    exact Plan.chars_constant_ne_nil c
  | property =>
    obtain ⟨p, -, hplan⟩ := exists_of_bind_eq_ok h
    obtain rfl := Except.ok.inj hplan
    intro a _
    cases p with
    | divisibleBy => exact fun d _ => Expr.chars_ne_nil_of_ne nofun nofun
    | _ => exact Expr.chars_ne_nil_of_ne nofun nofun
  | change =>
    obtain rfl := Except.ok.inj h
    exact fun amount _ name _ => trivial
  | remainder | randomInteger =>
    obtain rfl := Except.ok.inj h
    exact fun a _ b _ => Expr.chars_ne_nil_of_ne nofun nofun
  | constrain =>
    obtain rfl := Except.ok.inj h
    exact fun a _ low _ high _ => Expr.chars_ne_nil_of_ne nofun nofun
  | text =>
    obtain rfl := Except.ok.inj h
    exact Expr.chars_ne_nil_of_ne nofun nofun
  | append =>
    obtain rfl := Except.ok.inj h
    exact fun name _ text _ => trivial
  | length | isEmpty | trim =>
    obtain rfl := Except.ok.inj h
    exact fun text _ => Expr.chars_ne_nil_of_ne nofun nofun
  | indexOf =>
    obtain ⟨searchEnd, -, hplan⟩ := exists_of_bind_eq_ok h
    obtain rfl := Except.ok.inj hplan
    cases oneBased with
    | _ => exact fun sought _ text _ => Expr.chars_ne_nil_of_ne nofun nofun
  | charAt =>
    obtain ⟨origin, -, hplan⟩ := exists_of_bind_eq_ok h
    obtain rfl := Except.ok.inj hplan
    cases origin with
    | _ => exact fun text _ index _ => Expr.chars_ne_nil_of_ne nofun nofun
  | substring =>
    obtain ⟨first, -, hplan⟩ := exists_of_bind_eq_ok h
    obtain ⟨last, -, hplan⟩ := exists_of_bind_eq_ok hplan
    obtain rfl := Except.ok.inj hplan
    cases first <;> cases last <;>
      exact fun text _ start _ stop _ => Expr.chars_ne_nil_of_ne nofun nofun
  | changeCase =>
    obtain ⟨c, -, hplan⟩ := exists_of_bind_eq_ok h
    obtain rfl := Except.ok.inj hplan
    cases c with
    -- the answer itself is the code
    | title => exact fun text htext => htext (Expr.chars_ne_nil_of_ne nofun nofun)
    | upper | lower => exact fun text _ => Expr.chars_ne_nil_of_ne nofun nofun

/-! ### Blocks -/

namespace Block

/-- The expression in a socket has a text if the code of the block in it and the fallback have. -/
theorem ensures_answerHasText {child : Block}
    (h : child.code.Ensures (fun _ => True) Code.HasText) (socket : String) (place : Precedence)
    (fallback : Expr) :
    Generate.Ensures (fun _ => True) (Plug.expr ⟨child.type, child.code⟩ place fallback)
      (Plan.AnswerHasText socket place fallback) := by
  have hexpr? : Generate.Ensures (fun _ => True) (Plug.expr? ⟨child.type, child.code⟩ place)
      fun e? => ∀ e, e? = some e → e.chars ≠ [] := by
    refine Generate.Ensures.bind h fun code hcode => ?_
    cases code with
    | statement st => exact Generate.ensures_throw _ _
    | value f =>
      refine Generate.ensures_pure fun e he => ?_
      rw [f.isEmpty_eq_false hcode] at he
      rw [← Option.some.inj he]
      exact f.chars_fit_ne_nil hcode place
  refine hexpr?.bind fun e? he? => Generate.ensures_pure fun hfallback => ?_
  cases e? with
  | none => exact hfallback
  | some e => exact he? e rfl

/-- Code has a text if the codes of the blocks in the sockets have. -/
theorem hasText_apply (rule : Rule) {b : Block}
    (hchildren : ∀ socket child, b.inSocket socket = some child →
      child.code.Ensures (fun _ => True) Code.HasText) :
    (rule.apply b.head (plugs b.inputs)).Ensures (fun _ => True) Code.HasText :=
  ensures_apply_of_answers Generate.invariant_true (fun _ _ _ => trivial) (fun _ _ _ _ h => h)
    (fun socket place fallback child hchild =>
      ensures_answerHasText (hchildren socket child hchild) socket place fallback)
    fun _ _ _ hplan => Rule.hasText_plan hplan

/-- **The code of every block has a text**, in every session. -/
theorem hasText_code (b : Block) : b.code.Ensures (fun _ => True) Code.HasText := by
  induction b using socketInduction with
  | block b hchildren =>
    rw [code_eq]
    cases Rule.ofType? b.type with
    | none => exact Generate.ensures_throw _ _
    | some rule => exact hasText_apply rule hchildren

/-- The expression of a block, fit for a place, without a look at its text. -/
def fitted (child : Block) (place : Precedence) : Generate Expr := do
  match ← child.code with
  | .value fragment => return fragment.fit place
  | .statement _ => throw (.expectedValue child.type)

/-- A block in a socket has an expression there, if it has code. -/
theorem expr?_plug (child : Block) (place : Precedence) :
    Plug.expr? ⟨child.type, child.code⟩ place = some <$> child.fitted place := by
  rw [fitted, map_bind]
  refine child.hasText_code.bind_congr fun code hcode => ?_
  cases code with
  | statement st => rfl
  | value f =>
    simp only [f.isEmpty_eq_false hcode]
    rfl

/-- **The fallback does not stand for a block.** -/
theorem expr_plug (child : Block) (place : Precedence) (fallback : Expr) :
    Plug.expr ⟨child.type, child.code⟩ place fallback = child.fitted place := by
  rw [Plug.expr, expr?_plug, map_eq_pure_bind, bind_assoc]
  simp only [pure_bind, Option.getD_some, bind_pure]

/-! ### Sockets -/

/-- Neither a real block nor a shadow is plugged into the socket. -/
def Unconnected (b : Block) (socket : String) : Prop :=
  ∀ connection, Table.get? b.inputs socket = some connection →
    connection.block = none ∧ connection.shadow = none

variable {b child : Block} {socket : String}

theorem inSocket_eq_none_iff : b.inSocket socket = none ↔ b.Unconnected socket := by
  rw [inSocket, Option.bind_eq_none_iff, Unconnected]
  refine forall_congr' fun connection => imp_congr_right fun _ => ?_
  obtain ⟨block, shadow⟩ := connection
  cases block with
  | none => exact (and_iff_right rfl).symm
  | some real => exact ⟨nofun, nofun⟩

theorem socketExpr_of_none (h : b.inSocket socket = none) (place : Precedence) :
    b.socketExpr socket place = pure none := by
  rw [socketExpr, h]

theorem socketExpr_of_some (h : b.inSocket socket = some child) (place : Precedence) :
    b.socketExpr socket place = some <$> child.fitted place := by
  rw [socketExpr, h]
  exact expr?_plug child place

theorem socketText_of_none (h : b.inSocket socket = none) (place : Precedence)
    (fallback : String) : b.socketText socket place fallback = pure fallback := by
  rw [socketText, socketExpr_of_none h, pure_bind]
  rfl

theorem socketText_of_some (h : b.inSocket socket = some child) (place : Precedence)
    (fallback : String) :
    b.socketText socket place fallback = Expr.text <$> child.fitted place := by
  rw [socketText, socketExpr_of_some h, bind_map_left]
  exact bind_pure_comp _ _

/-- A plan that asks for a socket goes on with the expression of the block in it, and with the
fallback if there is no block. -/
theorem run_value {α : Type} (b : Block) (socket : String) (place : Precedence) (fallback : Expr)
    (rest : Expr → Plan α) :
    (Plan.value socket place fallback rest).run b.head (plugs b.inputs) =
      match b.inSocket socket with
      | none => (rest fallback).run b.head (plugs b.inputs)
      | some child => child.fitted place >>= fun e => (rest e).run b.head (plugs b.inputs) := by
  rw [Plan.run, lookup_plugs, inSocket]
  cases (Table.get? b.inputs socket).bind Connection.connected with
  | none => exact pure_bind _ _
  | some child => simp only [Option.map_some, expr_plug]

/-- There is an expression in a socket as soon as a block is in it, if there is no error. -/
theorem socketExpr_eq_none_iff (s : Session) (place : Precedence) :
    (s.perform (b.socketExpr socket place)).1 = .ok none ↔ b.Unconnected socket := by
  rw [← inSocket_eq_none_iff]
  cases h : b.inSocket socket with
  | none =>
    rw [socketExpr_of_none h]
    exact iff_of_true rfl rfl
  | some child =>
    rw [socketExpr_of_some h]
    refine iff_of_false (fun hnone => ?_) nofun
    have hfitted : (child.fitted place).Ensures (fun _ => True) fun _ => True :=
      fun _ _ => ⟨trivial, fun _ _ => trivial⟩
    obtain ⟨e, -, he⟩ := (hfitted.map some s trivial).2 none hnone
    cases he

/-- **A fallback stands for an empty socket and for nothing else.** Whatever has been done in a
session and whatever rule is applied, a value has a text. So the expression in a socket is missing
if and only if neither a real block nor a shadow is plugged in; then the fallback stands in, as a
text and in the plan of a rule, and otherwise the expression of the block does. -/
theorem fallback_iff_unconnected (s : Session) (b : Block) :
    (∀ f, (s.perform b.code).1 = .ok (.value f) → f.text ≠ "") ∧
    (∀ rule f, (s.perform (b.codeBy rule)).1 = .ok (.value f) → f.text ≠ "") ∧
    ∀ socket place,
      ((s.perform (b.socketExpr socket place)).1 = .ok none ↔ b.Unconnected socket) ∧
      (b.Unconnected socket → ∀ text fallback (rest : Expr → Plan Code),
        b.socketText socket place text = pure text ∧
        (Plan.value socket place fallback rest).run b.head (plugs b.inputs) =
          (rest fallback).run b.head (plugs b.inputs)) ∧
      ∀ child, b.inSocket socket = some child → ∀ text fallback (rest : Expr → Plan Code),
        b.socketText socket place text = Expr.text <$> child.fitted place ∧
        (Plan.value socket place fallback rest).run b.head (plugs b.inputs) =
          child.fitted place >>= fun e => (rest e).run b.head (plugs b.inputs) := by
  refine ⟨fun f hf => ?_, fun rule f hf => ?_, fun socket place => ⟨?_, ?_, ?_⟩⟩
  · exact Expr.text_ne_empty ((b.hasText_code s trivial).2 _ hf)
  · have happly := hasText_apply rule (b := b) fun _ child _ => child.hasText_code
    exact Expr.text_ne_empty ((happly s trivial).2 _ hf)
  · exact socketExpr_eq_none_iff s place
  · intro hempty text fallback rest
    rw [← inSocket_eq_none_iff] at hempty
    refine ⟨socketText_of_none hempty place text, ?_⟩
    rw [run_value, hempty]
  · intro child hchild text fallback rest
    refine ⟨socketText_of_some hchild place text, ?_⟩
    rw [run_value, hchild]

/-- The empty text in title case. -/
def emptyTitle : Block :=
  ⟨⟨"text_changeCase", [("CASE", .string "TITLECASE")]⟩, none,
    [("TEXT", ⟨some ⟨⟨"text", []⟩, none, [], none⟩, none⟩)], none⟩

/-- The character that a shadow of this title has at a position that is not plugged in. -/
def titleCharacter : Block :=
  ⟨⟨"text_charAt", []⟩, none, [("VALUE", ⟨none, some emptyTitle⟩), ("AT", ⟨none, none⟩)], none⟩

/-- Even the title of the empty text is not passed over, and the position is. -/
theorem emptyTitle_is_kept :
    (((Session.new {}).perform emptyTitle.code).1 = .ok (.value ⟨.string "", .any⟩) ∧
      (⟨.string "", .any⟩ : Fragment).text ≠ "") ∧
    (((Session.new {}).perform (emptyTitle.codeBy .trim)).1 =
        .ok (.value ⟨.method (.string "") "trim", .functionCall⟩) ∧
      (⟨.method (.string "") "trim", .functionCall⟩ : Fragment).text ≠ "") ∧
    (titleCharacter.Unconnected "AT" ∧ titleCharacter.socketText "AT" .any "0" = pure "0") ∧
    titleCharacter.inSocket "VALUE" = some emptyTitle ∧
      titleCharacter.socketText "VALUE" .member "" = Expr.text <$> emptyTitle.fitted .member := by
  have hempty : titleCharacter.Unconnected "AT" := inSocket_eq_none_iff.mp rfl
  obtain ⟨hcode, hcodeBy, -⟩ := fallback_iff_unconnected (Session.new {}) emptyTitle
  obtain ⟨-, -, hsockets⟩ := fallback_iff_unconnected (Session.new {}) titleCharacter
  refine ⟨⟨rfl, hcode _ rfl⟩, ⟨rfl, hcodeBy .trim _ rfl⟩, ⟨hempty, ?_⟩, rfl, ?_⟩
  · exact ((hsockets "AT" .any).2.1 hempty "0" (.nat 0) fun _ => Plan.trim).1
  · exact ((hsockets "VALUE" .member).2.2 emptyTitle rfl "" (.string "") fun _ => Plan.trim).1

end Block

end BlockSketch
