import BlockSketch.Proofs.Grammar.Spelled
import BlockSketch.Proofs.Session.Coupled
import BlockSketch.Workspace.Basic
import Mathlib.Data.List.Forall2

/-!
# Blocks with other texts typed into them

Two blocks are the same but for what was typed into their texts if they differ in nothing but the
`TEXT` fields of blocks of type `text`, at any depth. `Block.SameBut P` says so, and that `P`
relates the texts in corresponding fields.

`Rule.alike_plan` says of every rule that its plan puts a text into a literal and makes no other use
of it: from operands that are the same but for their literals it makes code that is the same but for
its literals. For the blocks themselves that follows by `Block.coupled_code`.
-/

namespace BlockSketch

/-! ### What is typed -/

/-- A text that nobody typed: the empty text, which stands for an empty socket and for a field that
has no text, or that of a setting of another kind. -/
def Untyped (text : String) : Prop :=
  text = "" ∨ ∃ value : Json, value.string? = none ∧ value.scalarText? = some text

/-- The texts of two literals with the same place in code: `P` relates what was typed there, or
nobody typed either. -/
def Typed (P : String → String → Prop) (a b : String) : Prop :=
  P a b ∨ (a = b ∧ Untyped a)

variable {P : String → String → Prop}

theorem typed_empty : Typed P "" "" :=
  .inr ⟨rfl, .inl rfl⟩

namespace Block

/-- The two fields have the same value, or they are what was typed into a text, and `P` relates it.
-/
inductive FieldSameBut (P : String → String → Prop) : String × Json → String × Json → Prop
  | same {field : String} {value : Json} : (field = "TEXT" → value.string? = none) →
      FieldSameBut P (field, value) (field, value)
  | typed {a b : String} : P a b → FieldSameBut P ("TEXT", .string a) ("TEXT", .string b)

/-- The two heads are the same, or those of two texts into which something else was typed. -/
inductive Head.SameBut (P : String → String → Prop) : Head → Head → Prop
  | same {head : Head} : head.type ≠ "text" → Head.SameBut P head head
  | text {fields fields' : Table Json} : List.Forall₂ (FieldSameBut P) fields fields' →
      Head.SameBut P ⟨"text", fields⟩ ⟨"text", fields'⟩

mutual

/-- The two blocks are the same but for what was typed into texts, in them or in any block that
hangs on them. -/
inductive SameBut (P : String → String → Prop) : Block → Block → Prop
  | mk {head head' : Head} {id : Option String} {inputs inputs' : List (String × Connection)}
      {next next' : Option Connection} : head.SameBut P head' →
      List.Forall₂ (SocketSameBut P) inputs inputs' → Option.Rel (ConnectionSameBut P) next next' →
      SameBut P ⟨head, id, inputs, next⟩ ⟨head', id, inputs', next'⟩

/-- The two sockets have one name and hold blocks that are the same but for what was typed. -/
inductive SocketSameBut (P : String → String → Prop) :
    String × Connection → String × Connection → Prop
  | mk {socket : String} {c c' : Connection} : ConnectionSameBut P c c' →
      SocketSameBut P (socket, c) (socket, c')

/-- The two connections hold blocks that are the same but for what was typed. -/
inductive ConnectionSameBut (P : String → String → Prop) : Connection → Connection → Prop
  | mk {block block' shadow shadow' : Option Block} : Option.Rel (SameBut P) block block' →
      Option.Rel (SameBut P) shadow shadow' → ConnectionSameBut P ⟨block, shadow⟩ ⟨block', shadow'⟩

end

namespace SameBut

variable {b b' : Block}

theorem type_eq (h : b.SameBut P b') : b.type = b'.type := by
  obtain ⟨hhead, -, -⟩ := h
  cases hhead with
  | same _ => rfl
  | text _ => rfl

theorem connected {c c' : Connection} (h : ConnectionSameBut P c c') :
    Option.Rel (SameBut P) c.connected c'.connected := by
  obtain ⟨hblock, hshadow⟩ := h
  cases hblock with
  | none => exact hshadow
  | some hblock => exact .some hblock

theorem inSocket (h : b.SameBut P b') (socket : String) :
    Option.Rel (SameBut P) (b.inSocket socket) (b'.inSocket socket) := by
  obtain ⟨-, hinputs, -⟩ := h
  rw [Block.inSocket, Block.inSocket, Table.get?, Table.get?]
  simp only
  induction hinputs with
  | nil => exact .none
  | cons hinput _ ih =>
    obtain ⟨hconnection⟩ := hinput
    rw [List.lookup_cons, List.lookup_cons]
    split
    · exact connected hconnection
    · exact ih

theorem following (h : b.SameBut P b') :
    Option.Rel (SameBut P) b.following b'.following := by
  obtain ⟨-, -, hnext⟩ := h
  cases hnext with
  | none => exact .none
  | some hconnection => exact connected hconnection

end SameBut

/-- A stack is its topmost block and the stack that follows. -/
theorem stack_eq (b : Block) : b.stack = b :: (b.following.map stack).getD [] := by
  obtain ⟨head, id, inputs, next⟩ := b
  rcases next with _ | ⟨real, shadow⟩
  · simp [stack, Block.following]
  · cases real with
    | some real => simp [stack, Block.following, Connection.connected]
    | none => cases shadow <;> simp [stack, Block.following, Connection.connected]

theorem sizeOf_following {b next : Block} (h : b.following = some next) :
    sizeOf next < sizeOf b := by
  obtain ⟨head, id, inputs, link⟩ := b
  obtain ⟨⟨real, shadow⟩, hlink, hnext⟩ := Option.bind_eq_some_iff.mp h
  obtain rfl : link = some ⟨real, shadow⟩ := hlink
  cases real with
  | some real =>
    obtain rfl : real = next := Option.some.inj hnext
    simp
    omega
  | none =>
    obtain rfl : shadow = some next := hnext
    simp
    omega

/-- The blocks of two stacks are the same but for what was typed. -/
theorem SameBut.stack {b b' : Block} (h : b.SameBut P b') :
    List.Forall₂ (SameBut P) b.stack b'.stack := by
  -- the recursion goes down the stack
  have hrest (next next' : Block) (hnext : b.following = some next) (h : next.SameBut P next') :
      List.Forall₂ (SameBut P) next.stack next'.stack :=
    stack h
  have hfollowing := h.following
  rw [stack_eq, stack_eq b']
  refine .cons h ?_
  generalize b.following = following at hrest hfollowing
  generalize b'.following = following' at hfollowing
  cases hfollowing with
  | none => exact .nil
  | some hnext => exact hrest _ _ rfl hnext
termination_by sizeOf b
decreasing_by exact sizeOf_following hnext

end Block

/-! ### Code from operands that are the same but for their literals -/

/-- The two codes are values of one tier or statements, and the same but for the texts of their
literals. -/
inductive Code.SameBut (P : String → String → Prop) : Code → Code → Prop
  | value {e e' : Expr} {tier : Precedence} : e.SameBut P e' →
      Code.SameBut P (.value ⟨e, tier⟩) (.value ⟨e', tier⟩)
  | statement {st st' : Statement} : st.SameBut P st' →
      Code.SameBut P (.statement st) (.statement st')

namespace Plan

/-- The plan makes code that is the same but for its literals from operands that are. -/
abbrev Retyped (P : String → String → Prop) (head : Block.Head) (plan plan' : Plan Code) : Prop :=
  plan.Alike head head (Expr.SameBut (Typed P)) Eq (Code.SameBut (Typed P)) plan'

variable {head : Block.Head}

theorem retyped_operation (op : BinaryOp) (tier : Precedence) (left right : String) :
    (operation op tier left right).Retyped P head (operation op tier left right) := by
  refine .value (.numeral _) fun a a' ha => ?_
  refine .value (.numeral _) fun b b' hb => ?_
  exact .done (.value (.binary op ha hb))

/-- The arguments of the functions are within parentheses or operands. -/
theorem retyped_applied (f : NumberFunction) {a a' : Expr} (h : a.SameBut (Typed P) a') :
    Code.SameBut (Typed P) (.value (applied a f)) (.value (applied a' f)) := by
  have hradians : (radians a).SameBut (Typed P) (radians a') :=
    .binary .mul (.binary .div h (.numeral _)) (.identifier "M_PI")
  have hdegrees (name : String) :
      (degrees (.call name a)).SameBut (Typed P) (degrees (.call name a')) :=
    .binary .mul (.binary .div (.call name h) (.identifier "M_PI")) (.numeral _)
  cases f with
  | sine | cosine | tangent => exact .value (.call _ hradians)
  | powerOfTen => exact .value (.callTwo "pow" (.numeral _) h)
  | commonLogarithm => exact .value (.binary .div (.call "log" h) (.call "log" (.numeral _)))
  | arcSine | arcCosine | arcTangent => exact .value (hdegrees _)
  | _ => exact .value (.call _ h)

theorem retyped_remainderIs {a a' d d' : Expr} (rest : Nat) (ha : a.SameBut (Typed P) a')
    (hd : d.SameBut (Typed P) d') :
    Code.SameBut (Typed P) (remainderIs a d rest) (remainderIs a' d' rest) :=
  .value (.binary .equal (.binary .rem ha hd) (.numeral _))

theorem retyped_position (origin : Origin) (socket : String) {text text' : Expr}
    {rest rest' : Expr → Plan Code} (htext : text.SameBut (Typed P) text')
    (h : ∀ e e', e.SameBut (Typed P) e' → (rest e).Retyped P head (rest' e')) :
    (position origin socket text >>= rest).Retyped P head
      (position origin socket text' >>= rest') := by
  cases origin with
  | start => exact .value (.numeral _) h
  | finish =>
    exact .value (.numeral _) fun a a' ha => h _ _ (.binary .sub (.method "length" htext) ha)

end Plan

namespace Rule

/-- **Rules make no use of what is typed into texts** but in literals. -/
theorem alike_plan {rule : Rule} (hrule : rule ≠ .text) (oneBased : Bool) (head : Block.Head) :
    Agree (Plan.Retyped P head) (rule.plan oneBased head) (rule.plan oneBased head) := by
  have hempty : (Expr.string "").SameBut (Typed P) (.string "") :=
    .call "String" (.literal typed_empty)
  cases rule with
  | number =>
    refine Agree.bind_self fun v => .done (.value ?_)
    rw [Expr.number]
    cases v.isNegative with
    | true => exact .negate (.numeral _)
    | false => exact .numeral _
  | arithmetic =>
    refine Agree.bind_self fun op => ?_
    cases op with
    | power =>
      refine .declare (.value (.numeral _) fun a a' ha => .value (.numeral _) fun b b' hb => ?_)
      exact .done (.value (.callTwo "pow" ha hb))
    | _ => exact Plan.retyped_operation ..
  | function =>
    refine Agree.bind_self fun word => ?_
    split
    · exact .value (.numeral _) fun a a' ha => .done (.value (.negate ha))
    · cases NumberFunction.ofField? word with
      | none => rfl
      | some f =>
        exact .declare (.value (.numeral _) fun a a' ha => .done (Plan.retyped_applied f ha))
  | constant =>
    refine Agree.bind_self fun c => .declare (.done ?_)
    cases c with
    | goldenRatio =>
      refine .value (.binary .div (.paren ?_) (.numeral _))
      exact .binary .add (.numeral _) (.call "sqrt" (.numeral _))
    | infinity => exact .value (.numeral _)
    | _ => exact .value (.identifier _)
  | property =>
    refine Agree.bind_self fun p => .declare (.value (.numeral _) fun a a' ha => ?_)
    cases p with
    | even | odd | whole => exact .done (Plan.retyped_remainderIs _ ha (.numeral _))
    | positive | negative => exact .done (.value (.binary _ ha (.numeral _)))
    | divisibleBy =>
      exact .value (.numeral _) fun d d' hd => .done (Plan.retyped_remainderIs 0 ha hd)
    | prime => exact .declare (.done (.value (.call "mathIsPrime" ha)))
  | change =>
    refine .value (.numeral _) fun a a' ha => .reference (fun _ => rfl) ?_
    rintro name _ rfl
    exact .done (.statement (.increase name ha))
  | remainder => exact Plan.retyped_operation ..
  | constrain =>
    refine .value (.numeral _) fun a a' ha => .value (.numeral _) fun b b' hb => ?_
    refine .value (.numeral _) fun c c' hc => ?_
    exact .done (.value (.callTwo "min" (.callTwo "max" ha hb) hc))
  | randomInteger =>
    refine .value (.numeral _) fun a a' ha => .value (.numeral _) fun b b' hb => ?_
    exact .done (.value (.callTwo "random" ha hb))
  | text => exact absurd rfl hrule
  | append =>
    refine .reference (fun _ => rfl) ?_
    rintro name _ rfl
    refine .value (.literal typed_empty) fun a a' ha => .done (.statement (.assign name ?_))
    exact .binary .add (.call "String" (.identifier name)) (.call "String" ha)
  | length => exact .value hempty fun a a' ha => .done (.value (.method "length" ha))
  | isEmpty => exact .value hempty fun a a' ha => .done (.value (.not (.method "length" ha)))
  | indexOf =>
    refine Agree.bind_self fun searchEnd => .value (.literal typed_empty) fun a a' ha => ?_
    refine .value hempty fun b b' hb => ?_
    have hfound := Expr.SameBut.methodOne (Plan.searchMethod searchEnd) hb ha
    cases oneBased with
    | true => exact .done (.value (.binary .add hfound (.numeral _)))
    | false => exact .done (.value hfound)
  | charAt =>
    refine Agree.bind_self fun origin => .value hempty fun a a' ha => ?_
    refine Plan.retyped_position origin "AT" ha fun b b' hb => ?_
    exact .done (.value (.methodOne "charAt" ha hb))
  | substring =>
    refine Agree.bind_self fun first => Agree.bind_self fun last => ?_
    refine .value hempty fun a a' ha => ?_
    refine Plan.retyped_position first "AT1" ha fun b b' hb => ?_
    refine Plan.retyped_position last "AT2" ha fun c c' hc => ?_
    exact .done (.value (.methodTwo "substring" ha hb hc))
  | changeCase =>
    refine Agree.bind_self fun c => ?_
    cases c with
    | upper => exact .value hempty fun a a' ha => .done (.value (.method "toUpperCase" ha))
    | lower => exact .value hempty fun a a' ha => .done (.value (.method "toLowerCase" ha))
    | title => exact .value hempty fun a a' ha => .done (.value ha)
  | trim => exact .value hempty fun a a' ha => .done (.value (.method "trim" ha))

end Rule

/-! ### Blocks -/

namespace Block

theorem ofType?_eq_text {type : String} (h : Rule.ofType? type = some .text) : type = "text" := by
  unfold Rule.ofType? at h
  split at h <;> simp_all

/-- What is typed into a text is put into a literal. -/
theorem typed_text {fields fields' : Table Json}
    (h : List.Forall₂ (FieldSameBut P) fields fields') :
    Typed P (((⟨"text", fields⟩ : Head).text? "TEXT").getD "")
      (((⟨"text", fields'⟩ : Head).text? "TEXT").getD "") := by
  rw [Head.text?, Head.text?, Head.field?, Head.field?, Table.get?, Table.get?]
  simp only
  induction h with
  | nil => exact typed_empty
  | cons hfield _ ih =>
    cases hfield with
    | @same field value huntyped =>
      rw [List.lookup_cons, List.lookup_cons]
      split
      · next hkey =>
        have hnone := huntyped (beq_iff_eq.mp hkey).symm
        rw [Option.bind_some]
        cases htext : value.scalarText? with
        | none => exact typed_empty
        | some text => exact .inr ⟨rfl, .inr ⟨value, hnone, htext⟩⟩
      · exact ih
    | typed hab =>
      rw [List.lookup_cons, List.lookup_cons]
      exact .inl hab

/-- **The codes of blocks are the same but for what was typed into texts.** -/
theorem SameBut.coupled_code {b b' : Block} (h : b.SameBut P b') :
    Generate.Coupled Eq b.code b'.code (Code.SameBut (Typed P)) := by
  refine Block.coupled_code (B := SameBut P) (E := Expr.SameBut (Typed P)) Generate.coupling_eq
    (fun e e' he => .paren he) ?_ (fun b b' h => h.type_eq) (fun b b' h => h.inSocket) ?_ h
  · rintro c c' (hvalue | hstatement)
    · exact ⟨rfl, hvalue⟩
    · trivial
  · intro b b' h rule oneBased hrule
    obtain ⟨hhead, -, -⟩ := h
    cases hhead with
    | same htype =>
      refine Rule.alike_plan ?_ oneBased _
      rintro rfl
      exact htype (ofType?_eq_text hrule)
    | text hfields =>
      obtain rfl : .text = rule := Option.some.inj hrule
      exact .done (.value (.call "String" (.literal (typed_text hfields))))

end Block

end BlockSketch
