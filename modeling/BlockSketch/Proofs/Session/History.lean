import BlockSketch.Proofs.Session.Inspection
import BlockSketch.Proofs.Session.References

/-!
# Code without a history

Code is made in the session that all code before it left behind. What it finds there could make a
difference in two ways, by what was declared and by which identifiers were handed out. It does not
look at the declarations. The identifiers matter to references alone, and those are in the plans of
statements; a value has none, and a statement in a socket has no code in the end.

Whatever a plan asks for is among the visits of its rule, so the code of a block is a matter of the
blocks in the sockets that are visited and of the reference of a statement
(`Block.coupled_code_of_plan`). It is the same in two sessions if that reference is, whatever is in
the sockets (`Block.coupled_code_of_reference`). And a reference to a variable that was declared for
the workspace is the same in all sessions that come after the start
(`Session.coupled_reference_declared`), since the identifier was handed out then.

What a session has declared in the meantime is told by its keys. `Session.Ahead` compares two runs of
the same work, one from the start and one from later on, and says that both add the same keys.
-/

namespace BlockSketch

/-! ### References are in statements -/

/-- Only the rules of statements refer to a variable, and do so by one field. -/
theorem Rule.reference_visited {rule : Rule} {head : Block.Head} {visits : List Visit}
    {field : String} (h : rule.visits head = .ok visits) (hmem : .reference field ∈ visits) :
    rule.makesStatement = true ∧ field = "VAR" := by
  cases rule with
  | change | append =>
    obtain rfl := Except.ok.inj h
    exact ⟨rfl, by simpa using hmem⟩
  | remainder | constrain | randomInteger | text | length | isEmpty | trim =>
    obtain rfl := Except.ok.inj h
    simp at hmem
  | number | arithmetic | constant | indexOf | charAt | changeCase =>
    obtain ⟨_, -, hvisits⟩ := exists_of_bind_eq_ok h
    obtain rfl := Except.ok.inj hvisits
    simp at hmem
  | property =>
    obtain ⟨p, -, hvisits⟩ := exists_of_bind_eq_ok h
    obtain rfl := Except.ok.inj hvisits
    by_cases hp : p = .divisibleBy <;> simp [hp] at hmem
  | function =>
    obtain ⟨word, -, hvisits⟩ := exists_of_bind_eq_ok h
    split at hvisits
    · obtain rfl := Except.ok.inj hvisits
      simp at hmem
    · cases hvisits
  | substring =>
    obtain ⟨_, -, hrest⟩ := exists_of_bind_eq_ok h
    obtain ⟨_, -, hvisits⟩ := exists_of_bind_eq_ok hrest
    obtain rfl := Except.ok.inj hvisits
    simp at hmem

/-- A plan asks for what its rule visits. -/
theorem Rule.exists_visits {rule : Rule} {oneBased : Bool} {head : Block.Head} {plan : Plan Code}
    (h : rule.plan oneBased head = .ok plan) :
    ∃ visits, rule.visits head = .ok visits ∧
      plan.Asks (fun code => code.isStatement = rule.makesStatement) visits := by
  have hagree := rule.visits_agree oneBased head
  rw [h] at hagree
  rcases hagree.outcomes with ⟨e, -, hplan⟩ | ⟨visits, plan', hvisits, hplan, hasks⟩
  · cases hplan
  · obtain rfl := Except.ok.inj hplan
    exact ⟨visits, hvisits, hasks⟩

/-! ### Code in two sessions -/

namespace Plan

variable {α : Type} {P : α → Prop} {visits : List Visit} {plan : Plan α}

/-- A plan that refers to nothing takes no notice of names. -/
theorem Asks.alike {N : String → String → Prop} {Q : α → α → Prop} (h : plan.Asks P visits)
    (hvisits : ∀ field, .reference field ∉ visits) (head : Block.Head) (hQ : ∀ a, Q a a) :
    plan.Alike head head Eq N Q plan := by
  induction h with
  | @done a _ => exact .done (hQ a)
  | declare _ ih => exact .declare (ih hvisits)
  | value _ ih =>
    refine .value rfl ?_
    rintro e _ rfl
    exact ih e fun field hmem => hvisits field (List.mem_cons_of_mem _ hmem)
  | @reference field => exact absurd List.mem_cons_self (hvisits field)

/-- A plan has the same result for two blocks in two sessions if the sockets and the references that
it asks for have. -/
theorem Asks.coupled_run {R : Session → Session → Prop} {b b' : Block}
    (hdeclare : ∀ key text, Generate.Coupled R (Generate.declare key text)
      (Generate.declare key text) Eq)
    (hsockets : ∀ socket place, .socket socket ∈ visits → Option.Rel
      (fun child child' => Generate.Coupled R (child.fitted place) (child'.fitted place) Eq)
      (b.inSocket socket) (b'.inSocket socket))
    (hreference : ∀ field, .reference field ∈ visits →
      Generate.Coupled R (Generate.reference b.head field) (Generate.reference b'.head field) Eq)
    (h : plan.Asks P visits) :
    Generate.Coupled R (plan.run b.head (Block.plugs b.inputs))
      (plan.run b'.head (Block.plugs b'.inputs)) Eq := by
  induction h with
  | done _ => exact Generate.coupled_pure rfl
  | @declare d _ _ _ ih => exact (hdeclare d.key d.text).bind fun _ _ _ => ih hsockets hreference
  | @value socket place fallback rest visits _ ih =>
    have hrest (e : Expr) : Generate.Coupled R ((rest e).run b.head (Block.plugs b.inputs))
        ((rest e).run b'.head (Block.plugs b'.inputs)) Eq :=
      ih e (fun socket place hmem => hsockets socket place (List.mem_cons_of_mem _ hmem))
        fun field hmem => hreference field (List.mem_cons_of_mem _ hmem)
    have hsocket := hsockets socket place List.mem_cons_self
    rw [Block.run_value, Block.run_value]
    generalize b.inSocket socket = child at hsocket
    generalize b'.inSocket socket = child' at hsocket
    cases hsocket with
    | none => exact hrest fallback
    | some hchild =>
      refine hchild.bind ?_
      rintro e _ rfl
      exact hrest e
  | @reference field rest visits _ ih =>
    refine (hreference field List.mem_cons_self).bind ?_
    rintro x _ rfl
    exact ih x (fun socket place hmem => hsockets socket place (List.mem_cons_of_mem _ hmem))
      fun field hmem => hreference field (List.mem_cons_of_mem _ hmem)

end Plan

/-- Whatever names are, the values of a plan are the same. -/
theorem Rule.alike_in_socket {rule : Rule} {oneBased : Bool} {head : Block.Head} {plan : Plan Code}
    (h : rule.plan oneBased head = .ok plan) :
    plan.Alike head head Eq (fun _ _ => True) (Code.AlikeInSocket Eq) plan := by
  have hself (code : Code) : code.AlikeInSocket Eq code := by
    cases code with
    | value f => exact ⟨rfl, rfl⟩
    | statement st => trivial
  cases hstatement : rule.makesStatement with
  | false =>
    obtain ⟨visits, hvisits, hasks⟩ := exists_visits h
    refine hasks.alike (fun field hmem => ?_) head hself
    rw [(reference_visited hvisits hmem).1] at hstatement
    cases hstatement
  | true =>
    cases rule with
    | change =>
      obtain rfl := Except.ok.inj h
      refine .value rfl ?_
      rintro amount _ rfl
      exact .reference (fun _ => rfl) fun _ _ _ => .done trivial
    | append =>
      obtain rfl := Except.ok.inj h
      exact .reference (fun _ => rfl) fun _ _ _ => .value rfl fun _ _ _ => .done trivial
    | _ => cases hstatement

namespace Block

variable {R : Session → Session → Prop}

/-- **In a socket, names do not matter.** -/
theorem coupled_code_in_socket (hR : Generate.Coupling R fun _ _ => True) (b : Block) :
    Generate.Coupled R b.code b.code (Code.AlikeInSocket Eq) := by
  refine coupled_code (B := Eq) (E := Eq) hR ?_ (fun _ _ h => h) ?_ ?_ ?_ rfl
  · rintro e _ rfl
    rfl
  · rintro b _ rfl
    rfl
  · rintro b _ rfl socket
    cases b.inSocket socket with
    | none => exact .none
    | some child => exact .some rfl
  · rintro b _ rfl rule oneBased -
    cases hplan : rule.plan oneBased b.head with
    | error e => rfl
    | ok plan => exact Rule.alike_in_socket hplan

/-- **Only what is read matters.** Two blocks of one type, whose settings lead to the same plan, have
the same code in two sessions if what they read has: the blocks in the sockets that are visited, and
the reference of a statement. -/
theorem coupled_code_of_plan {N : String → String → Prop} (hR : Generate.Coupling R N)
    {b b' : Block} (htype : b.type = b'.type)
    (hplan : ∀ rule oneBased, Rule.ofType? b.type = some rule →
      rule.plan oneBased b.head = rule.plan oneBased b'.head)
    (hsockets : ∀ socket ∈ b.head.readSockets, ∀ place, Option.Rel
      (fun child child' => Generate.Coupled R (child.fitted place) (child'.fitted place) Eq)
      (b.inSocket socket) (b'.inSocket socket))
    (hreference : b.isStatement = true →
      Generate.Coupled R (Generate.reference b.head "VAR") (Generate.reference b'.head "VAR") Eq) :
    Generate.Coupled R b.code b'.code Eq := by
  rw [code_eq, code_eq, ← htype]
  cases hrule : Rule.ofType? b.type with
  | none => exact Generate.coupled_throw _ _
  | some rule =>
    have hstatement : b.isStatement = rule.makesStatement := by
      rw [isStatement, hrule, Option.any_some]
    rw [hstatement] at hreference
    intro s s' hs
    simp only [Session.perform_apply]
    rw [← hR.oneBased hs, ← hplan rule _ hrule]
    cases hplan : rule.plan s.options.oneBased b.head with
    | error e => exact ⟨hs, rfl⟩
    | ok plan =>
      obtain ⟨visits, hvisits, hasks⟩ := Rule.exists_visits hplan
      refine hasks.coupled_run ?_ ?_ ?_ s s' hs
      · exact fun key text _ _ hs => ⟨hR.declare key text hs, rfl⟩
      · exact fun socket place hmem =>
          hsockets socket (Head.mem_readSockets hrule hvisits hmem) place
      · intro field hmem
        obtain ⟨htrue, rfl⟩ := Rule.reference_visited hvisits hmem
        exact hreference htrue

/-- **Only the reference of the block itself matters.** -/
theorem coupled_code_of_reference (hR : Generate.Coupling R fun _ _ => True) {b : Block}
    (hreference : b.isStatement = true →
      Generate.Coupled R (Generate.reference b.head "VAR") (Generate.reference b.head "VAR") Eq) :
    Generate.Coupled R b.code b.code Eq := by
  refine coupled_code_of_plan hR rfl (fun _ _ _ => rfl) ?_ hreference
  intro socket _ place
  cases b.inSocket socket with
  | none => exact .none
  | some child =>
    refine .some (coupled_fitted ?_ (fun _ _ h => h) rfl (coupled_code_in_socket hR child) place)
    rintro e _ rfl
    rfl

end Block

/-! ### References to declared variables -/

/-- The field refers to one of the declared variables: by an identity, or by a name up to letter
case. -/
inductive Block.Head.Denotes (head : Block.Head) (field : String) (declared : List Declared) : Prop
  | byIdentity {id : String} : id ∈ declared.map Declared.id →
      Session.RefersTo head field id ∨ head.field? field = some (.string id) →
      Denotes head field declared
  | byName {v : Declared} {name : String} : v ∈ declared →
      Text.lowercase v.name = Text.lowercase name →
      Session.RefersByName head field name ∨ head.field? field = some (.string name) →
      Denotes head field declared

namespace Session

variable {w : Workspace} {options : Options}

/-- An identity that is declared has the name of a variable that is. -/
theorem variableNames_declared {declared : List Declared} {id : String}
    (h : id ∈ declared.map Declared.id) (s : Session) :
    ∃ v ∈ declared, Table.get? (declareVariables declared s).2.variableNames id = some v.name := by
  induction declared generalizing s with
  | nil => exact absurd h List.not_mem_nil
  | cons u declared ih =>
    by_cases hlater : id ∈ declared.map Declared.id
    · obtain ⟨v, hv, hname⟩ := ih hlater _
      exact ⟨v, List.mem_cons_of_mem u hv, hname⟩
    · obtain rfl : id = u.id := by
        rw [List.map_cons, List.mem_cons] at h
        exact h.resolve_right hlater
      have hlast : Table.get? (declareVariables ([] ++ u :: declared) s).2.variableNames u.id =
          some u.name := variableNames_last hlater s
      exact ⟨u, List.mem_cons_self, hlast⟩

/-- A declared variable has one identifier, which a reference to it gives without a change. -/
theorem perform_reference_declared {head : Block.Head} {field : String}
    (h : head.Denotes field w.declared) (options : Options) :
    ∃ x, ∀ s : Session, (start w options).registry.Extends s.registry →
      s.variableNames = (start w options).variableNames →
      s.perform (Generate.reference head field) = (.ok x, s) := by
  -- a text is looked up as an identity first, and may be one by chance
  have hidentity {id : String} (hid : id ∈ w.declared.map Declared.id)
      (href : RefersTo head field id ∨ head.field? field = some (.string id)) :
      ∃ x, ∀ s : Session, (start w options).registry.Extends s.registry →
        s.variableNames = (start w options).variableNames →
        s.perform (Generate.reference head field) = (.ok x, s) := by
    obtain ⟨v, hv, hname⟩ := variableNames_declared hid (new options)
    rw [← variableNames_start] at hname
    refine ⟨(start w options).identifierOf v.name, fun s hextends hnames => ?_⟩
    rw [perform_reference_identity href (hnames ▸ hname), perform_identify,
      identify_declared hv hextends rfl]
  cases h with
  | byIdentity hid href => exact hidentity hid href
  | @byName v name hv hlower href =>
    by_cases hid : head.field? field = some (.string name) ∧ name ∈ w.declared.map Declared.id
    · exact hidentity hid.2 (.inr hid.1)
    · refine ⟨(start w options).identifierOf v.name, fun s hextends hnames => ?_⟩
      rw [perform_reference_name, perform_identify, identify_declared hv hextends hlower]
      refine href.symm.imp_left fun hfield => ⟨hfield, ?_⟩
      rw [hnames]
      exact variableNames_undeclared (fun hname => hid ⟨hfield, hname⟩) options

/-! ### Sessions after the start -/

/-- The session `s` comes after `s₀`. -/
structure Later (s₀ s : Session) : Prop where
  oneBased : s.options.oneBased = s₀.options.oneBased
  variableNames : s.variableNames = s₀.variableNames
  registry : s₀.registry.Extends s.registry
  keys : ∀ key ∈ s₀.declarations.keys, key ∈ s.declarations.keys

/-- The same work was done after `s₀`, which led to `s'`, and after the later session `s₁`, which
led to `s`. -/
structure Ahead (s₀ s₁ s s' : Session) : Prop where
  later : Later s₀ s
  later' : Later s₀ s'
  keys (key : String) :
    key ∈ s.declarations.keys ↔ key ∈ s₁.declarations.keys ∨ key ∈ s'.declarations.keys

theorem Later.refl (s : Session) : Later s s :=
  ⟨rfl, rfl, Registry.Extends.refl _, fun _ h => h⟩

theorem invariant_later (s₀ : Session) : Generate.Invariant (Later s₀) where
  declare _ _ h :=
    { h with keys := fun key' hkey => Declarations.mem_keys_register.mpr (.inl (h.keys key' hkey)) }
  identify name h := { h with registry := h.registry.trans (Registry.extends_identify _ name) }

theorem Later.ahead {s₀ s₁ : Session} (h : Later s₀ s₁) : Ahead s₀ s₁ s₁ s₀ :=
  ⟨h, .refl s₀, fun key => (or_iff_left_of_imp (h.keys key)).symm⟩

theorem coupling_ahead (s₀ s₁ : Session) : Generate.Coupling (Ahead s₀ s₁) fun _ _ => True where
  oneBased h := h.later.oneBased.trans h.later'.oneBased.symm
  variableNames h := h.later.variableNames.trans h.later'.variableNames.symm
  declare key text h :=
    { later := (invariant_later s₀).declare key text h.later
      later' := (invariant_later s₀).declare key text h.later'
      keys := fun key' => by
        simp only [Declarations.mem_keys_register, h.keys, or_assoc] }
  identify name h :=
    ⟨{ h with
        later := (invariant_later s₀).identify name h.later
        later' := (invariant_later s₀).identify name h.later' }, trivial⟩

/-- A reference to a declared variable is the same in all sessions after the start. -/
theorem coupled_reference_declared {s₁ : Session} {head : Block.Head} {field : String}
    (h : head.Denotes field w.declared) :
    Generate.Coupled (Ahead (start w options) s₁) (Generate.reference head field)
      (Generate.reference head field) Eq := by
  obtain ⟨x, hx⟩ := perform_reference_declared h options
  intro s s' hs
  rw [hx s hs.later.registry hs.later.variableNames, hx s' hs.later'.registry hs.later'.variableNames]
  exact ⟨hs, rfl⟩

/-- **Statements about declared variables have no history.** If a block refers to a declared variable
or to none at all, it has the same code after the start and in any later session, and adds the same
keys. -/
theorem coupled_code_declared {s₁ : Session} {b : Block}
    (h : b.isStatement = true → b.head.Denotes "VAR" w.declared) :
    Generate.Coupled (Ahead (start w options) s₁) b.code b.code Eq :=
  b.coupled_code_of_reference (coupling_ahead (start w options) s₁) fun hstatement =>
    coupled_reference_declared (h hstatement)

end Session

end BlockSketch
