import BlockSketch.Proofs.Session.History

/-!
# What is read of a block

A rule reads some fields of its block, and which sockets it looks into may depend on what it found
there. `Block.Head.readFields` and `Block.Head.readSockets` are these; nothing else of the block has a
part in its code. Its identity has none, and the block below it has none, since that one is made by
the stack. And of the two blocks in a connection only the one that counts is looked at.

`Block.ReadAlike` relates two blocks of which the same is read, in themselves and in whatever is read
in their sockets. `Block.ReadAlike.coupled_code` says that their codes are the same and have the same
effects, whether they succeed or fail: what is not read may be wrong in any way, without a rule, with
settings that no rule knows, or with variables that nobody declared.
-/

namespace BlockSketch

namespace Rule

/-- The fields that a rule reads. Of two settings the second is read only if the first is right. -/
def fields (rule : Rule) (head : Block.Head) : List String :=
  match rule with
  | number => ["NUM"]
  | arithmetic | function => ["OP"]
  | constant => ["CONSTANT"]
  | property => ["PROPERTY"]
  | change | append => ["VAR"]
  | text => ["TEXT"]
  | indexOf => ["END"]
  | charAt => ["WHERE"]
  | substring => "WHERE1" :: if (origin head "WHERE1").isOk then ["WHERE2"] else []
  | changeCase => ["CASE"]
  | remainder | constrain | randomInteger | length | isEmpty | trim => []

end Rule

namespace Block.Head

/-- The fields that are read; none if there is no rule. -/
def readFields (head : Head) : List String :=
  match Rule.ofType? head.type with
  | none => []
  | some rule => rule.fields head

/-! ### Readers of a field -/

section Readers

variable {head head' : Head} {field : String}

theorem text?_congr (h : head.field? field = head'.field? field) :
    head.text? field = head'.text? field := by
  rw [text?, text?, h]

theorem text_congr (htype : head.type = head'.type)
    (h : head.field? field = head'.field? field) : head.text field = head'.text field := by
  rw [text, text, text?_congr h, htype]

theorem selector_congr {α : Type} (htype : head.type = head'.type)
    (h : head.field? field = head'.field? field) (ofField? : String → Option α) :
    head.selector field ofField? = head'.selector field ofField? := by
  rw [selector, selector, text_congr htype h, htype]

theorem number_congr (htype : head.type = head'.type)
    (h : head.field? field = head'.field? field) : head.number field = head'.number field := by
  rw [number, number, h, htype]

theorem reference_congr (htype : head.type = head'.type)
    (h : head.field? field = head'.field? field) (names : Table String) :
    head.reference names field = head'.reference names field := by
  rw [reference, reference, h, htype]

theorem origin_congr (htype : head.type = head'.type)
    (h : head.field? field = head'.field? field) :
    Rule.origin head field = Rule.origin head' field := by
  rw [Rule.origin, Rule.origin, text?_congr h, htype]

end Readers

end Block.Head

namespace Rule

/-- **A plan is made of the fields that are read.** -/
theorem plan_congr {rule : Rule} {head head' : Block.Head} (htype : head.type = head'.type)
    (h : ∀ field ∈ rule.fields head, head.field? field = head'.field? field) (oneBased : Bool) :
    rule.plan oneBased head = rule.plan oneBased head' := by
  cases rule with
  | number =>
    have hfield := h "NUM" List.mem_cons_self
    simp only [plan, Block.Head.number_congr htype hfield]
  | arithmetic =>
    have hfield := h "OP" List.mem_cons_self
    simp only [plan, Block.Head.selector_congr htype hfield]
  | function =>
    have hfield := h "OP" List.mem_cons_self
    simp only [plan, functionPlan, Block.Head.text_congr htype hfield, htype]
  | constant =>
    have hfield := h "CONSTANT" List.mem_cons_self
    simp only [plan, Block.Head.selector_congr htype hfield]
  | property =>
    have hfield := h "PROPERTY" List.mem_cons_self
    simp only [plan, Block.Head.selector_congr htype hfield]
  | text =>
    have hfield := h "TEXT" List.mem_cons_self
    simp only [plan, Block.Head.text?_congr hfield]
  | indexOf =>
    have hfield := h "END" List.mem_cons_self
    simp only [plan, searchEnd, Block.Head.text_congr htype hfield, htype]
  | charAt =>
    have hfield := h "WHERE" List.mem_cons_self
    simp only [plan, Block.Head.origin_congr htype hfield]
  | substring =>
    have hfield := h "WHERE1" List.mem_cons_self
    simp only [plan, ← Block.Head.origin_congr htype hfield]
    -- the second field need not be the same if the first is wrong
    cases hfirst : origin head "WHERE1" with
    | error e => rfl
    | ok first =>
      have hsecond : "WHERE2" ∈ substring.fields head := by
        simp [fields, hfirst, Except.isOk, Except.toBool]
      rw [Block.Head.origin_congr htype (h "WHERE2" hsecond)]
  | changeCase =>
    have hfield := h "CASE" List.mem_cons_self
    simp only [plan, Block.Head.selector_congr htype hfield]
  | change | append | remainder | constrain | randomInteger | length | isEmpty | trim => rfl

end Rule

namespace Block

/-- The same is read of both blocks. They have one type, and one value in every field that is read,
and in every socket that is read both have a block, of which again the same is read, or neither has
one. All else in them may be anything: their identities and what is below them, the other fields and
sockets, and shadows behind real blocks. -/
inductive ReadAlike : Block → Block → Prop
  | mk {b b' : Block} : b.type = b'.type →
      (∀ field ∈ b.head.readFields, b.head.field? field = b'.head.field? field) →
      (∀ socket ∈ b.head.readSockets,
        Option.Rel ReadAlike (b.inSocket socket) (b'.inSocket socket)) → ReadAlike b b'

/-- A statement refers to a variable by a field that is read. -/
theorem var_mem_readFields {b : Block} (h : b.isStatement = true) : "VAR" ∈ b.head.readFields := by
  rw [isStatement, Option.any_eq_true] at h
  obtain ⟨rule, hrule, hstatement⟩ := h
  rw [Head.readFields, hrule]
  cases rule with
  | change | append => exact List.mem_cons_self
  | _ => cases hstatement

/-- **What is not read does not matter** for the code of a block, nor for what is left behind. -/
theorem ReadAlike.coupled_code {b b' : Block} (h : b.ReadAlike b') :
    Generate.Coupled Eq b.code b'.code Eq := by
  induction b using socketInduction generalizing b' with
  | block b hchildren =>
    obtain ⟨htype, hfields, hsockets⟩ := h
    refine coupled_code_of_plan Generate.coupling_eq htype ?_ ?_ ?_
    · intro rule oneBased hrule
      refine Rule.plan_congr htype ?_ oneBased
      rwa [Head.readFields, hrule] at hfields
    · intro socket hsocket place
      have hread := hsockets socket hsocket
      have hchild := hchildren socket
      -- both sockets are empty, or they hold blocks of which the same is read
      generalize b.inSocket socket = child at hread hchild
      generalize b'.inSocket socket = child' at hread
      cases hread with
      | none => exact .none
      | @some child child' hread =>
        have hcode := hchild child rfl hread
        obtain ⟨hchildType, -, -⟩ := hread
        refine .some (coupled_fitted ?_ ?_ hchildType hcode place)
        · rintro e _ rfl
          rfl
        · rintro (f | st) _ rfl
          · exact ⟨rfl, rfl⟩
          · trivial
    · intro hstatement
      have hvar := hfields "VAR" (var_mem_readFields hstatement)
      exact Generate.coupled_reference Generate.coupling_eq (Head.reference_congr htype hvar)

end Block

end BlockSketch
