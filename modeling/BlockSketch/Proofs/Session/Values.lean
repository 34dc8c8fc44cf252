import BlockSketch.Proofs.Session.Reads

/-!
# Values have no history

The code of a value is a function of the block, of where positions are counted from and of the names
of the declared variables. Nothing else that a session has takes part: neither what was declared, nor
which identifiers were handed out, nor the indentation. This is so although a value may hold a
statement in one of its sockets, which refers to a variable and so is given an identifier that depends
on the session; for then there is no code, and the error is the same whatever the identifier is.

A value leaves declarations behind. `Block.needs` reads off the block what they are: those of its rule
and those of the blocks in the sockets that are read, in this order. A session in which the code is
made has them registered one after the other, and whichever of them it had already it keeps
(`Block.adds_code`). So the keys that are new are the same in every session, but for the keys that are
there (`Block.values_have_no_history`).
-/

namespace BlockSketch

namespace Declarations

/-- Registers one declaration after the other. -/
def registerAll (d : Declarations) (wanted : List Declaration) : Declarations :=
  wanted.foldl (fun d declaration => d.register declaration.key declaration.text) d

theorem registerAll_append (d : Declarations) (first second : List Declaration) :
    d.registerAll (first ++ second) = (d.registerAll first).registerAll second :=
  List.foldl_append

theorem mem_keys_registerAll {d : Declarations} {wanted : List Declaration} {key : String} :
    key ∈ (d.registerAll wanted).keys ↔ key ∈ d.keys ∨ key ∈ wanted.map Declaration.key := by
  induction wanted generalizing d with
  | nil => simp [registerAll]
  | cons declaration wanted ih =>
    change key ∈ ((d.register declaration.key declaration.text).registerAll wanted).keys ↔ _
    rw [ih, mem_keys_register, List.map_cons, List.mem_cons, or_assoc]

end Declarations

/-! ### What a block needs -/

namespace Rule

/-- What a rule wants declared before it looks into a socket. -/
def opening (rule : Rule) (head : Block.Head) : List Declaration :=
  match rule with
  | arithmetic =>
    if (head.selector "OP" Arithmetic.ofField?).toOption = some .power then [Plan.mathHeader] else []
  | function =>
    if ((head.text "OP").toOption.bind NumberFunction.ofField?).isSome then [Plan.mathHeader] else []
  | constant | property => [Plan.mathHeader]
  | _ => []

/-- What a rule wants declared after it has looked into the sockets. -/
def closing (rule : Rule) (head : Block.Head) : List Declaration :=
  match rule with
  | property =>
    if (head.selector "PROPERTY" NumberProperty.ofField?).toOption = some .prime then
      [Plan.primeTest]
    else []
  | _ => []

end Rule

namespace Block

/-- **What a block needs declared**, in the order in which it is registered; what is needed twice is
in the list twice. -/
def needs (b : Block) : List Declaration :=
  match Rule.ofType? b.type with
  | none => []
  | some rule =>
    rule.opening b.head ++
      (b.head.readSockets.flatMap fun socket =>
        match _hchild : b.inSocket socket with
        | none => []
        | some child => child.needs) ++
      rule.closing b.head
termination_by sizeOf b
decreasing_by exact sizeOf_inSocket _hchild

/-- What the block in a socket needs. -/
def needsIn (b : Block) (socket : String) : List Declaration :=
  ((b.inSocket socket).map needs).getD []

theorem needs_eq (b : Block) :
    b.needs =
      match Rule.ofType? b.type with
      | none => []
      | some rule =>
        rule.opening b.head ++ b.head.readSockets.flatMap b.needsIn ++ rule.closing b.head := by
  have hsocket (socket : String) :
      (match _hchild : b.inSocket socket with
        | none => []
        | some child => child.needs) = b.needsIn socket := by
    rw [needsIn]
    cases b.inSocket socket <;> rfl
  rw [needs]
  simp only [hsocket]

end Block

/-! ### What a plan wants -/

namespace Plan

variable {α : Type} {within : String → List Declaration}

/-- The plan wants just these declarations in just this order, if the blocks in the sockets need
those that `within` tells. -/
inductive Wants (within : String → List Declaration) : List Declaration → Plan α → Prop
  | done {a : α} : Wants within [] (done a)
  | declare {d : Declaration} {rest : Plan α} {wanted : List Declaration} :
      Wants within wanted rest → Wants within (d :: wanted) (declare d rest)
  | value {socket : String} {place : Precedence} {fallback : Expr} {rest : Expr → Plan α}
      {wanted : List Declaration} : (∀ e, Wants within wanted (rest e)) →
      Wants within (within socket ++ wanted) (value socket place fallback rest)
  | reference {field : String} {rest : String → Plan α} {wanted : List Declaration} :
      (∀ name, Wants within wanted (rest name)) → Wants within wanted (reference field rest)

theorem wants_position {wanted : List Declaration} (origin : Origin) (socket : String) (text : Expr)
    {rest : Expr → Plan Code} (h : ∀ e, (rest e).Wants within wanted) :
    (position origin socket text >>= rest).Wants within (within socket ++ wanted) := by
  cases origin with
  | start => exact .value h
  | finish => exact .value fun e => h _

end Plan

/-- **A plan wants what its rule opens and closes with**, and between them what the blocks in the
sockets need that are visited. -/
theorem Rule.wants_plan (rule : Rule) (oneBased : Bool) (head : Block.Head)
    (within : String → List Declaration) :
    Agree (fun visits (plan : Plan Code) =>
        plan.Wants within (rule.opening head ++ (visits.filterMap Visit.socket?).flatMap within ++
          rule.closing head))
      (rule.visits head) (rule.plan oneBased head) := by
  -- the sockets and what comes after them as one list, which is that of the plan by computation
  have hlist (sockets : List String) (after : List Declaration) :
      sockets.flatMap within ++ after = sockets.foldr (fun socket => (within socket ++ ·)) after := by
    induction sockets with
    | nil => rfl
    | cons socket sockets ih => rw [List.flatMap_cons, List.append_assoc, ih, List.foldr_cons]
  simp only [List.append_assoc, hlist]
  cases rule with
  | number => exact Agree.bind_self fun v => .done
  | arithmetic =>
    refine Agree.bind_same fun op hop => ?_
    rw [opening, hop]
    cases op with
    | power => exact .declare (.value fun a => .value fun b => .done)
    | _ => exact .value fun a => .value fun b => .done
  | function =>
    refine Agree.bind_same fun word hword => ?_
    rw [opening, hword]
    by_cases hneg : word = "NEG"
    · subst hneg
      exact .value fun a => .done
    · rw [if_neg hneg, decide_eq_false hneg, Bool.false_or]
      cases hf : NumberFunction.ofField? word with
      | none => rfl
      | some f =>
        simp only [Except.toOption, Option.bind_some, hf, Option.isSome_some, if_true]
        exact .declare (.value fun a => .done)
  | constant => exact Agree.bind_self fun c => .declare .done
  | property =>
    refine Agree.bind_same fun p hp => ?_
    rw [closing, hp]
    cases p with
    | divisibleBy => exact .declare (.value fun a => .value fun d => .done)
    | prime => exact .declare (.value fun a => .declare .done)
    | _ => exact .declare (.value fun a => .done)
  | change => exact .value fun amount => .reference fun name => .done
  | remainder => exact .value fun a => .value fun b => .done
  | constrain => exact .value fun a => .value fun low => .value fun high => .done
  | randomInteger => exact .value fun low => .value fun high => .done
  | text => exact .done
  | append => exact .reference fun name => .value fun text => .done
  | length => exact .value fun text => .done
  | isEmpty => exact .value fun text => .done
  | indexOf =>
    refine Agree.bind_self fun searchEnd => ?_
    cases oneBased with
    | true => exact .value fun sought => .value fun text => .done
    | false => exact .value fun sought => .value fun text => .done
  | charAt =>
    refine Agree.bind_self fun origin => ?_
    exact .value fun text => Plan.wants_position origin "AT" text fun index => .done
  | substring =>
    refine Agree.bind_self fun first => Agree.bind_self fun last => ?_
    refine .value fun text => ?_
    exact Plan.wants_position first "AT1" text fun _ =>
      Plan.wants_position last "AT2" text fun _ => .done
  | changeCase =>
    refine Agree.bind_self fun c => ?_
    cases c with
    | _ => exact .value fun text => .done
  | trim => exact .value fun text => .done

/-! ### What work adds -/

namespace Generate

variable {α β : Type} {wanted wanted' : List Declaration}

/-- If the work succeeds, it has registered these declarations, one after the other, and no others. -/
def Adds (wanted : List Declaration) (work : Generate α) : Prop :=
  ∀ (s : Session) a s', s.perform work = (.ok a, s') →
    s'.declarations = s.declarations.registerAll wanted

theorem adds_pure (a : α) : Adds [] (pure a : Generate α) := by
  rintro s _ _ ⟨⟩
  rfl

theorem adds_throw (e : GenerationError) : Adds wanted (throw e : Generate α) :=
  nofun

/-- One piece of work after another. -/
theorem Adds.bind {work : Generate α} {next : α → Generate β} (h : Adds wanted work)
    (hnext : ∀ a, Adds wanted' (next a)) : Adds (wanted ++ wanted') (work >>= next) := by
  intro s b s' hrun
  obtain ⟨a, s₁, hwork, hrest⟩ := Session.exists_of_perform_bind hrun
  rw [hnext a s₁ b s' hrest, h s a s₁ hwork, Declarations.registerAll_append]

theorem adds_declare (d : Declaration) : Adds [d] (declare d.key d.text) := by
  rintro s _ _ ⟨⟩
  rfl

/-- A reference adds nothing to the declarations, whatever it does to the registry. -/
theorem adds_reference (head : Block.Head) (field : String) : Adds [] (reference head field) := by
  intro s name s' hrun
  rw [Session.perform_reference] at hrun
  split at hrun
  · cases hrun
    rfl
  · cases hrun

end Generate

/-- Carrying out a plan adds what it wants, if the blocks in the sockets add what they need. -/
theorem Plan.Wants.adds_run {α : Type} {within : String → List Declaration} {b : Block}
    (hempty : ∀ socket, b.inSocket socket = none → within socket = [])
    (hchild : ∀ socket child place, b.inSocket socket = some child →
      Generate.Adds (within socket) (child.fitted place))
    {wanted : List Declaration} {plan : Plan α} (h : plan.Wants within wanted) :
    Generate.Adds wanted (plan.run b.head (Block.plugs b.inputs)) := by
  induction h with
  | done => exact Generate.adds_pure _
  | @declare d _ _ _ ih => exact (Generate.adds_declare d).bind fun _ => ih
  | @value socket place fallback rest wanted _ ih =>
    rw [Block.run_value]
    cases hsocket : b.inSocket socket with
    | none =>
      rw [hempty socket hsocket]
      exact ih fallback
    | some child => exact (hchild socket child place hsocket).bind ih
  | @reference field _ _ _ ih => exact (Generate.adds_reference b.head field).bind ih

namespace Block

theorem adds_fitted {child : Block} {wanted : List Declaration}
    (h : Generate.Adds wanted child.code) (place : Precedence) :
    Generate.Adds wanted (child.fitted place) := by
  intro s e s' hrun
  obtain ⟨code, s₁, hcode, hrest⟩ := Session.exists_of_perform_bind hrun
  cases code with
  | value f =>
    obtain ⟨-, rfl⟩ := Prod.mk.inj hrest
    exact h s (.value f) s₁ hcode
  | statement st => cases hrest

/-- **The code of a block adds what the block needs**, in every session. -/
theorem adds_code (b : Block) : Generate.Adds b.needs b.code := by
  induction b using socketInduction with
  | block b hchildren =>
    rw [code_eq, needs_eq]
    cases hrule : Rule.ofType? b.type with
    | none => exact Generate.adds_throw _
    | some rule =>
      intro s code s' hrun
      rw [Session.perform_apply] at hrun
      have hagree := rule.wants_plan s.options.oneBased b.head b.needsIn
      rcases hagree.outcomes with ⟨e, -, hplan⟩ | ⟨visits, plan, hvisits, hplan, hwants⟩
      · rw [hplan] at hrun
        cases hrun
      · rw [hplan] at hrun
        -- the sockets in the list of needs are those that the plan asks for
        have hread : b.head.readSockets = visits.filterMap Visit.socket? := by
          rw [Head.readSockets, hrule]
          simp only [hvisits]
        simp only [hread]
        refine hwants.adds_run ?_ ?_ s code s' hrun
        · intro socket hempty
          rw [needsIn, hempty]
          rfl
        · intro socket child place hchild
          rw [needsIn, hchild]
          exact adds_fitted (hchildren socket child hchild) place

end Block

/-! ### Two sessions -/

namespace Session

/-- What values read of a session is the same in both. Everything else may differ: the declarations,
the identifiers that were handed out, and the indentation. -/
structure ReadAlike (s s' : Session) : Prop where
  oneBased : s.options.oneBased = s'.options.oneBased
  variableNames : s.variableNames = s'.variableNames

theorem coupling_readAlike : Generate.Coupling ReadAlike fun _ _ => True where
  oneBased h := h.oneBased
  variableNames h := h.variableNames
  declare _ _ h := ⟨h.oneBased, h.variableNames⟩
  identify _ h := ⟨⟨h.oneBased, h.variableNames⟩, trivial⟩

end Session

namespace Block

/-- **Values have no history.** In two sessions that count positions from the same number and have
the same names for the declared variables, and may be different in everything else, a block that is
not a statement has the same code, or there is the same error. Where there is code, the keys of the
declarations are afterwards, in both sessions, those that there were and those that the block needs;
so the new ones are what the block needs, less what was there. -/
theorem values_have_no_history {b : Block} (hvalue : b.isStatement = false) {s s' : Session}
    (h : s.ReadAlike s') :
    (s.perform b.code).1 = (s'.perform b.code).1 ∧
    ∀ code, (s.perform b.code).1 = .ok code → ∀ key,
      (key ∈ (s.perform b.code).2.declarations.keys ↔
        key ∈ s.declarations.keys ∨ key ∈ b.needs.map Declaration.key) ∧
      (key ∈ (s'.perform b.code).2.declarations.keys ↔
        key ∈ s'.declarations.keys ∨ key ∈ b.needs.map Declaration.key) := by
  -- what is in the sockets may be identified differently in the two, which then does not matter
  have hcoupled : Generate.Coupled Session.ReadAlike b.code b.code Eq := by
    refine coupled_code_of_reference Session.coupling_readAlike fun hstatement => ?_
    rw [hvalue] at hstatement
    cases hstatement
  obtain ⟨-, hagree⟩ := hcoupled s s' h
  have hkeys (s : Session) (code : Code) (hcode : (s.perform b.code).1 = .ok code) (key : String) :
      key ∈ (s.perform b.code).2.declarations.keys ↔
        key ∈ s.declarations.keys ∨ key ∈ b.needs.map Declaration.key := by
    rw [b.adds_code s code _ (Prod.ext hcode rfl), Declarations.mem_keys_registerAll]
  have hsame : (s.perform b.code).1 = (s'.perform b.code).1 := by
    rcases hagree.outcomes with ⟨e, hresult, hresult'⟩ | ⟨code, _, hresult, hresult', rfl⟩
    · rw [hresult, hresult']
    · rw [hresult, hresult']
  exact ⟨hsame, fun code hcode key => ⟨hkeys s code hcode key, hkeys s' code (hsame ▸ hcode) key⟩⟩

/-- A test whether pi is a prime number. -/
def primePi : Block :=
  ⟨⟨"math_number_property", [("PROPERTY", .string "PRIME")]⟩, none,
    [("NUMBER_TO_CHECK",
      ⟨some ⟨⟨"math_constant", [("CONSTANT", .string "PI")]⟩, none, [], none⟩, none⟩)], none⟩

/-- Both the test and the constant need the header, and the test needs its function. -/
theorem needs_primePi : primePi.needs = [Plan.mathHeader, Plan.mathHeader, Plan.primeTest] := by
  have hconstant (b : Block) (h : b.type = "math_constant") (hsettings : b.head.readSockets = []) :
      b.needs = [Plan.mathHeader] := by
    rw [needs_eq, h, hsettings]
    rfl
  have hchild : primePi.needsIn "NUMBER_TO_CHECK" = [Plan.mathHeader] := hconstant _ rfl rfl
  have hsockets : primePi.head.readSockets = ["NUMBER_TO_CHECK"] := rfl
  rw [needs_eq, hsockets, List.flatMap_singleton, hchild]
  rfl

/-- In a session that has another text for the header, a name and an indentation of its own, the
test is the same as in a new one, and of the keys only that of its function is new. -/
theorem prime_pi_has_no_history :
    let s := Session.new {}
    let s' : Session :=
      { options := { indent := "\t" }
        declarations := Declarations.empty.register "include_math" "#include <math.h>\n"
        registry := (Registry.empty.identify "pi").2 }
    let code : Code := .value ⟨.call "mathIsPrime" (.identifier "M_PI"), .functionCall⟩
    primePi.isStatement = false ∧ s.ReadAlike s' ∧
    (s.perform primePi.code).1 = .ok code ∧ (s'.perform primePi.code).1 = .ok code ∧
    ∀ key, (key ∈ (s.perform primePi.code).2.declarations.keys ↔
        key ∈ ["include_math", "define_mathIsPrime"]) ∧
      (key ∈ (s'.perform primePi.code).2.declarations.keys ↔
        key ∈ ["include_math", "define_mathIsPrime"]) := by
  intro s s' code
  have hvalue : primePi.isStatement = false := by decide
  have hread : s.ReadAlike s' := ⟨rfl, rfl⟩
  have hcode : (s.perform primePi.code).1 = .ok code := by decide +kernel
  obtain ⟨hsame, hkeys⟩ := values_have_no_history hvalue hread
  refine ⟨hvalue, hread, hcode, hsame ▸ hcode, fun key => ?_⟩
  obtain ⟨hnew, hlater⟩ := hkeys code hcode key
  rw [hnew, hlater, needs_primePi]
  simp [s, s', Session.new, Declarations.keys, Declarations.empty, Declarations.register,
    Declarations.contains, Plan.mathHeader, Plan.primeTest]

end Block

end BlockSketch
