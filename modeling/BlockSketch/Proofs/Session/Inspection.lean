import BlockSketch.Proofs.Session.Coupled

/-!
# What is wrong with a block

Whether a block has code, and if not which error there is, can be told without making any code. An
inspection looks at the block, at the blocks in its sockets and at the names of the declared
variables; it knows no session and nothing that was declared or handed out.

* `Rule.visits` reads the settings of a block, each in its turn, and lists what its rule looks at
  afterwards, in that order.
* `Block.inspect` visits these. A block in a socket is inspected like any other, and only if nothing
  is wrong with it does it matter whether it is a value.

`Block.fails_as_inspected` says that making code fails exactly where the inspection does, with the
same error, whatever the session is.
-/

namespace BlockSketch

/-- What is looked at once the settings of a block have been read. -/
inductive Visit
  /-- the block in a socket, if there is one -/
  | socket (name : String)
  /-- the variable that a field refers to -/
  | reference (field : String)
deriving DecidableEq, Repr

namespace Rule

/-- Reads the settings of a block and lists what is visited then. -/
def visits (rule : Rule) (head : Block.Head) : Except GenerationError (List Visit) :=
  match rule with
  | number => do
    let _ ← head.number "NUM"
    return []
  | arithmetic => do
    let _ ← head.selector "OP" Arithmetic.ofField?
    return [.socket "A", .socket "B"]
  | function => do
    let word ← head.text "OP"
    if word = "NEG" || (NumberFunction.ofField? word).isSome then return [.socket "NUM"]
    else throw (.unknownOperator head.type word)
  | constant => do
    let _ ← head.selector "CONSTANT" NumberConstant.ofField?
    return []
  | property => do
    let p ← head.selector "PROPERTY" NumberProperty.ofField?
    return .socket "NUMBER_TO_CHECK" :: if p = .divisibleBy then [.socket "DIVISOR"] else []
  | change => return [.socket "DELTA", .reference "VAR"]
  | remainder => return [.socket "DIVIDEND", .socket "DIVISOR"]
  | constrain => return [.socket "VALUE", .socket "LOW", .socket "HIGH"]
  | randomInteger => return [.socket "FROM", .socket "TO"]
  | text => return []
  | append => return [.reference "VAR", .socket "TEXT"]
  | length | isEmpty => return [.socket "VALUE"]
  | indexOf => do
    let _ ← searchEnd head
    return [.socket "FIND", .socket "VALUE"]
  | charAt => do
    let _ ← origin head "WHERE"
    return [.socket "VALUE", .socket "AT"]
  | substring => do
    let _ ← origin head "WHERE1"
    let _ ← origin head "WHERE2"
    return [.socket "STRING", .socket "AT1", .socket "AT2"]
  | changeCase => do
    let _ ← head.selector "CASE" CaseChange.ofField?
    return [.socket "TEXT"]
  | trim => return [.socket "TEXT"]

/-- Whether the blocks of a rule are statements. -/
def makesStatement : Rule → Bool
  | change | append => true
  | _ => false

end Rule

/-- The socket that is visited. -/
def Visit.socket? : Visit → Option String
  | .socket name => some name
  | .reference _ => none

namespace Block

/-- The sockets that are visited. There are none if there is no rule or if a setting is wrong. -/
def Head.readSockets (head : Head) : List String :=
  match Rule.ofType? head.type with
  | none => []
  | some rule =>
    match rule.visits head with
    | .error _ => []
    | .ok visits => visits.filterMap Visit.socket?

theorem Head.mem_readSockets {head : Head} {rule : Rule} {visits : List Visit}
    (hrule : Rule.ofType? head.type = some rule) (hvisits : rule.visits head = .ok visits)
    {socket : String} (h : .socket socket ∈ visits) : socket ∈ head.readSockets := by
  rw [Head.readSockets, hrule]
  simp only [hvisits]
  exact List.mem_filterMap.mpr ⟨.socket socket, h, rfl⟩

/-- Whether a block is a statement, which its type tells. -/
def isStatement (b : Block) : Bool :=
  (Rule.ofType? b.type).any Rule.makesStatement

/-- **Inspects a block**: the first thing that is wrong with it, if something is. -/
def inspect (names : Table String) (b : Block) : Except GenerationError Unit :=
  match Rule.ofType? b.type with
  | none => throw (.unknownBlockType b.type)
  | some rule => do
    let visits ← rule.visits b.head
    forM visits fun
      | .reference field => do
        let _ ← b.head.reference names field
      | .socket socket =>
        match _hchild : b.inSocket socket with
        | none => return
        | some child => do
          child.inspect names
          if child.isStatement then throw (.expectedValue child.type)
termination_by sizeOf b
decreasing_by exact sizeOf_inSocket _hchild

/-- One visit of an inspection. -/
def visit (names : Table String) (b : Block) : Visit → Except GenerationError Unit
  | .reference field => do
    let _ ← b.head.reference names field
  | .socket socket =>
    match b.inSocket socket with
    | none => return
    | some child => do
      child.inspect names
      if child.isStatement then throw (.expectedValue child.type)

theorem inspect_eq (names : Table String) (b : Block) :
    b.inspect names =
      match Rule.ofType? b.type with
      | none => throw (.unknownBlockType b.type)
      | some rule => rule.visits b.head >>= fun visits => forM visits (b.visit names) := by
  rw [inspect]
  cases Rule.ofType? b.type with
  | none => rfl
  | some rule =>
    simp only
    congr 1
    funext visits
    congr 1
    funext v
    cases v with
    | reference field => rfl
    | socket socket =>
      rw [visit]
      simp only
      cases b.inSocket socket <;> rfl

end Block

/-! ### Plans visit what they should -/

namespace Plan

/-- The plan asks for just these things in just this order, whatever the answers are, and its result
has `Q`. -/
inductive Asks {α : Type} (Q : α → Prop) : List Visit → Plan α → Prop
  | done {a : α} : Q a → Asks Q [] (done a)
  | declare {d : Declaration} {rest : Plan α} {visits : List Visit} : Asks Q visits rest →
      Asks Q visits (declare d rest)
  | value {socket : String} {place : Precedence} {fallback : Expr} {rest : Expr → Plan α}
      {visits : List Visit} : (∀ e, Asks Q visits (rest e)) →
      Asks Q (.socket socket :: visits) (value socket place fallback rest)
  | reference {field : String} {rest : String → Plan α} {visits : List Visit} :
      (∀ name, Asks Q visits (rest name)) →
      Asks Q (.reference field :: visits) (reference field rest)

/-- The socket of a position is visited whichever end the position is counted from. -/
theorem asks_position {Q : Code → Prop} {visits : List Visit} (origin : Origin) (socket : String)
    (text : Expr) {rest : Expr → Plan Code} (h : ∀ e, (rest e).Asks Q visits) :
    (position origin socket text >>= rest).Asks Q (.socket socket :: visits) := by
  cases origin with
  | start => exact .value h
  | finish => exact .value fun e => h _

end Plan

namespace Code

/-- Whether the code is a statement. -/
def isStatement : Code → Bool
  | value _ => false
  | statement _ => true

end Code

namespace Rule

/-- **Every rule visits what its plan asks for**, and where a setting is wrong there is neither. -/
theorem visits_agree (rule : Rule) (oneBased : Bool) (head : Block.Head) :
    Agree (fun visits (plan : Plan Code) =>
        plan.Asks (fun code => code.isStatement = rule.makesStatement) visits)
      (rule.visits head) (rule.plan oneBased head) := by
  cases rule with
  | number => exact Agree.bind_self fun v => .done rfl
  | arithmetic =>
    refine Agree.bind_self fun op => ?_
    cases op with
    | power => exact .declare (.value fun a => .value fun b => .done rfl)
    | _ => exact .value fun a => .value fun b => .done rfl
  | function =>
    refine Agree.bind_self fun word => ?_
    by_cases hneg : word = "NEG"
    · subst hneg
      exact .value fun a => .done rfl
    · rw [if_neg hneg, decide_eq_false hneg, Bool.false_or]
      cases NumberFunction.ofField? word with
      | none => rfl
      | some f => exact .declare (.value fun a => .done rfl)
  | constant => exact Agree.bind_self fun c => .declare (.done rfl)
  | property =>
    refine Agree.bind_self fun p => ?_
    cases p with
    | divisibleBy => exact .declare (.value fun a => .value fun d => .done rfl)
    | prime => exact .declare (.value fun a => .declare (.done rfl))
    | _ => exact .declare (.value fun a => .done rfl)
  | change => exact .value fun amount => .reference fun name => .done rfl
  | remainder => exact .value fun a => .value fun b => .done rfl
  | constrain => exact .value fun a => .value fun low => .value fun high => .done rfl
  | randomInteger => exact .value fun low => .value fun high => .done rfl
  | text => exact .done rfl
  | append => exact .reference fun name => .value fun text => .done rfl
  | length => exact .value fun text => .done rfl
  | isEmpty => exact .value fun text => .done rfl
  | indexOf =>
    refine Agree.bind_self fun searchEnd => ?_
    cases oneBased with
    | true => exact .value fun sought => .value fun text => .done rfl
    | false => exact .value fun sought => .value fun text => .done rfl
  | charAt =>
    refine Agree.bind_self fun origin => ?_
    exact .value fun text => Plan.asks_position origin "AT" text fun index => .done rfl
  | substring =>
    refine Agree.bind_self fun first => Agree.bind_self fun last => ?_
    refine .value fun text => ?_
    exact Plan.asks_position first "AT1" text fun _ =>
      Plan.asks_position last "AT2" text fun _ => .done rfl
  | changeCase =>
    refine Agree.bind_self fun c => ?_
    cases c with
    | _ => exact .value fun text => .done rfl
  | trim => exact .value fun text => .done rfl

end Rule

/-! ### Work that comes out as foretold -/

namespace Generate

variable {α β : Type} {names : Table String}

/-- In every session in which the declared variables have these names, and they keep them, the work
has the error that was foretold, or a result with `Q` if none was. -/
def Foretold (names : Table String) (verdict : Except GenerationError Unit) (work : Generate α)
    (Q : α → Prop) : Prop :=
  ∀ s : Session, s.variableNames = names → (s.perform work).2.variableNames = names ∧
    Agree (fun _ a => Q a) verdict (s.perform work).1

theorem foretold_pure {a : α} {Q : α → Prop} (h : Q a) : Foretold names (pure ()) (pure a) Q :=
  fun _ hs => ⟨hs, h⟩

theorem foretold_throw (e : GenerationError) (Q : α → Prop) :
    Foretold names (throw e) (throw e) Q :=
  fun _ hs => ⟨hs, rfl⟩

theorem Foretold.bind {verdict verdict' : Except GenerationError Unit} {work : Generate α}
    {next : α → Generate β} {P : α → Prop} {Q : β → Prop} (h : Foretold names verdict work P)
    (hnext : ∀ a, P a → Foretold names verdict' (next a) Q) :
    Foretold names (verdict >>= fun _ => verdict') (work >>= next) Q := by
  intro s hs
  obtain ⟨hafter, hagree⟩ := h s hs
  rw [Session.perform_bind]
  rcases hwork : s.perform work with ⟨result, s'⟩
  rw [hwork] at hafter hagree
  rcases hagree.outcomes with ⟨e, rfl, rfl⟩ | ⟨⟨⟩, a, rfl, rfl, ha⟩
  · exact ⟨hafter, rfl⟩
  · exact hnext a ha s' hafter

/-- The same work on each of a list comes out as the first wrong item says. -/
theorem foretold_mapM {verdict : α → Except GenerationError Unit} {f : α → Generate β}
    {Q : β → Prop} (h : ∀ a, Foretold names (verdict a) (f a) Q) (as : List α) :
    Foretold names (forM as verdict) (as.mapM f) fun _ => True := by
  induction as with
  | nil => exact foretold_pure trivial
  | cons a as ih =>
    rw [List.mapM_cons, List.forM_cons]
    refine (h a).bind fun b _ => ?_
    -- the inspection ends with the last item, while the work goes on to put the list together
    have hrest : Foretold names (forM as verdict >>= fun _ => pure ())
        (as.mapM f >>= fun bs => pure (b :: bs)) fun _ => True :=
      ih.bind fun bs _ => foretold_pure trivial
    rwa [bind_pure] at hrest

theorem foretold_declare (key text : String) :
    Foretold names (pure ()) (declare key text) fun _ => True :=
  fun _ hs => ⟨hs, trivial⟩

theorem foretold_reference (head : Block.Head) (field : String) :
    Foretold names (head.reference names field >>= fun _ => pure ()) (reference head field)
      fun _ => True := by
  intro s hs
  rw [Session.perform_reference, hs]
  cases head.reference names field with
  | error e => exact ⟨hs, rfl⟩
  | ok name => exact ⟨hs, trivial⟩

end Generate

/-- A plan comes out as its visits foretell, one after the other. -/
theorem Plan.Asks.foretold {α : Type} {Q : α → Prop} {names : Table String} {b : Block}
    {verdict : Visit → Except GenerationError Unit}
    (hreference : ∀ field,
      verdict (.reference field) = b.head.reference names field >>= fun _ => pure ())
    (hempty : ∀ socket, b.inSocket socket = none → verdict (.socket socket) = pure ())
    (hchild : ∀ socket child place, b.inSocket socket = some child →
      Generate.Foretold names (verdict (.socket socket)) (child.fitted place) fun _ => True)
    {visits : List Visit} {plan : Plan α} (h : plan.Asks Q visits) :
    Generate.Foretold names (forM visits verdict) (plan.run b.head (Block.plugs b.inputs)) Q := by
  induction h with
  | done h => exact Generate.foretold_pure h
  | @declare d rest visits _ ih =>
    exact (Generate.foretold_declare d.key d.text).bind fun _ _ => ih
  | @value socket place fallback rest visits _ ih =>
    rw [List.forM_cons, Block.run_value]
    cases hsocket : b.inSocket socket with
    | none =>
      rw [hempty socket hsocket]
      exact ih fallback
    | some child => exact (hchild socket child place hsocket).bind fun e _ => ih e
  | @reference field rest visits _ ih =>
    rw [List.forM_cons, hreference]
    exact (Generate.foretold_reference b.head field).bind fun name _ => ih name

namespace Block

variable {names : Table String}

/-- A block in a socket: its own errors come first, and being a statement is one only after them. -/
theorem foretold_fitted {child : Block}
    (h : Generate.Foretold names (child.inspect names) child.code fun code =>
      code.isStatement = child.isStatement) (place : Precedence) :
    Generate.Foretold names
      (child.inspect names >>= fun _ =>
        if child.isStatement then throw (.expectedValue child.type) else pure ())
      (child.fitted place) fun _ => True := by
  refine h.bind fun code hcode => ?_
  rw [← hcode]
  cases code with
  | value f => exact Generate.foretold_pure trivial
  | statement st => exact Generate.foretold_throw _ _

/-- The code of a block comes out as the inspection of the block foretells. -/
theorem foretold_code (names : Table String) (b : Block) :
    Generate.Foretold names (b.inspect names) b.code fun code =>
      code.isStatement = b.isStatement := by
  -- the inspection and the code go into the same sockets
  induction b using socketInduction with
  | block b hchildren =>
    rw [inspect_eq, code_eq]
    cases hrule : Rule.ofType? b.type with
    | none => exact Generate.foretold_throw _ _
    | some rule =>
      simp only
      have hstatement : b.isStatement = rule.makesStatement := by
        rw [isStatement, hrule, Option.any_some]
      intro s hs
      rw [Session.perform_apply, hstatement]
      have hvisits := rule.visits_agree s.options.oneBased b.head
      rcases hvisits.outcomes with ⟨e, hvisits, hplan⟩ | ⟨visits, plan, hvisits, hplan, hasks⟩
      · rw [hvisits, hplan]
        exact ⟨hs, rfl⟩
      · rw [hvisits, hplan]
        refine hasks.foretold (fun _ => rfl) ?_ ?_ s hs
        · intro socket hempty
          rw [visit, hempty]
        · intro socket child place hchild
          rw [visit, hchild]
          exact foretold_fitted (hchildren socket child hchild) place

/-- The statement of a block comes out as the inspection of the block foretells. -/
theorem foretold_asStatement (names : Table String) (b : Block) :
    Generate.Foretold names (b.inspect names) (Code.asStatement <$> b.code) fun _ => True := by
  have hcode : Generate.Foretold names (b.inspect names >>= fun _ => pure ())
      (b.code >>= fun code => pure code.asStatement) fun _ => True :=
    (foretold_code names b).bind fun _ _ => Generate.foretold_pure trivial
  rwa [bind_pure, bind_pure_comp] at hcode

/-- The statements of a stack come out as the inspections of its blocks foretell, from the top. -/
theorem foretold_stackCode (names : Table String) (b : Block) :
    Generate.Foretold names (forM b.stack (inspect names)) b.stackCode fun _ => True :=
  Generate.foretold_mapM (foretold_asStatement names) b.stack

/-- **Making code fails as the inspection does.** Whatever has been declared and handed out in a
session, the code of a block and the statements of a stack fail with an error exactly if that error
is the first that an inspection finds, which knows of the session only the names of the declared
variables. -/
theorem fails_as_inspected (s : Session) (b : Block) (e : GenerationError) :
    ((s.perform b.code).1 = .error e ↔ b.inspect s.variableNames = .error e) ∧
    ((s.perform b.stackCode).1 = .error e ↔
      forM b.stack (inspect s.variableNames) = .error e) :=
  ⟨((foretold_code s.variableNames b s rfl).2.error_iff e).symm,
    ((foretold_stackCode s.variableNames b s rfl).2.error_iff e).symm⟩

end Block

end BlockSketch
