import BlockSketch.Proofs.Session.Growth

/-!
# The variables of a workspace

A session for a workspace begins by taking in the declared variables. Every name gets its identifier
then, and keeps it whatever the session does afterwards, and a reference by the identity of a
variable is resolved to the identifier of its name.

Identifiers belong to names, and names that differ in letter case alone are one name. So two variables
have one identifier exactly if their names are one name, and the variables of a workspace whose names
are all different are declared with different identifiers, a line for each.
-/

namespace BlockSketch

namespace Session

/-- The identifier that a name has, where it has one. -/
def identifierOf (s : Session) (name : String) : String :=
  (s.registry.assigned.lookup (Text.lowercase name)).getD ""

/-- The line that declares a variable. -/
def declarationLine (s : Session) (v : Declared) : String :=
  v.cType ++ " " ++ s.identifierOf v.name ++ ";\n"

/-- The session after a series of requests. -/
def serveAll (s : Session) : List Request → Session
  | [] => s
  | request :: requests => (s.serve request).serveAll requests

/-! ### Taking the variables in -/

theorem declareVariables_cons (v : Declared) (declared : List Declared) (s : Session) :
    declareVariables (v :: declared) s =
      let named : Session :=
        { s with
          registry := (s.registry.identify v.name).2
          variableNames := Table.insert v.id v.name s.variableNames }
      (v.cType ++ " " ++ (s.registry.identify v.name).1 ++ ";\n" ++
          (declareVariables declared named).1,
        (declareVariables declared named).2) :=
  rfl

theorem extends_declareVariables (declared : List Declared) (s : Session) :
    s.registry.Extends (declareVariables declared s).2.registry := by
  induction declared generalizing s with
  | nil => exact Registry.Extends.refl _
  | cons v declared ih =>
    rw [declareVariables_cons]
    exact (Registry.extends_identify s.registry v.name).trans (ih _)

theorem declarations_declareVariables (declared : List Declared) (s : Session) :
    (declareVariables declared s).2.declarations = s.declarations := by
  induction declared generalizing s with
  | nil => rfl
  | cons v declared ih =>
    rw [declareVariables_cons]
    exact ih _

/-- Every declared name has an identifier in the end. -/
theorem lookup_declareVariables {declared : List Declared} {v : Declared} (hv : v ∈ declared)
    (s : Session) :
    ∃ x, (declareVariables declared s).2.registry.assigned.lookup (Text.lowercase v.name) =
      some x := by
  induction declared generalizing s with
  | nil => exact absurd hv List.not_mem_nil
  | cons u declared ih =>
    rw [declareVariables_cons]
    rcases List.mem_cons.mp hv with rfl | hv
    · exact ⟨_, (extends_declareVariables declared _).lookup
        (Registry.lookup_identify s.registry v.name)⟩
    · exact ih hv _

/-- The lines are written with the identifiers that the names have in the end. -/
theorem lines_declareVariables (declared : List Declared) (s : Session) :
    (declareVariables declared s).1 =
      String.join (declared.map (declareVariables declared s).2.declarationLine) := by
  induction declared generalizing s with
  | nil => rfl
  | cons v declared ih =>
    rw [declareVariables_cons]
    simp only
    -- the variables further down leave the identifier of this one what it is
    rw [List.map_cons, String.join_cons, ← ih, declarationLine, identifierOf,
      (extends_declareVariables declared _).lookup (Registry.lookup_identify s.registry v.name)]
    rfl

/-- Identities that are not declared keep their names. -/
theorem variableNames_of_not_mem {declared : List Declared} {id : String}
    (h : id ∉ declared.map Declared.id) (s : Session) :
    Table.get? (declareVariables declared s).2.variableNames id = Table.get? s.variableNames id := by
  induction declared generalizing s with
  | nil => rfl
  | cons v declared ih =>
    rw [List.map_cons, List.mem_cons, not_or] at h
    rw [declareVariables_cons]
    simp only
    rw [ih h.2, Table.get?_insert_of_ne h.1]

/-- Identities that are declared once have the names that they are declared with. -/
theorem variableNames_declareVariables {declared : List Declared}
    (hids : (declared.map Declared.id).Nodup) {v : Declared} (hv : v ∈ declared) (s : Session) :
    Table.get? (declareVariables declared s).2.variableNames v.id = some v.name := by
  induction declared generalizing s with
  | nil => exact absurd hv List.not_mem_nil
  | cons u declared ih =>
    rw [List.map_cons, List.nodup_cons] at hids
    rw [declareVariables_cons]
    rcases List.mem_cons.mp hv with rfl | hv
    · simp only
      rw [variableNames_of_not_mem hids.1, Table.get?_insert_self]
    · exact ih hids.2 hv _

/-! ### The session for a workspace -/

theorem registry_start (w : Workspace) (options : Options) :
    (start w options).registry = (declareVariables w.declared (new options)).2.registry := by
  rw [start]
  simp only
  split <;> rfl

theorem variableNames_start (w : Workspace) (options : Options) :
    (start w options).variableNames =
      (declareVariables w.declared (new options)).2.variableNames := by
  rw [start]
  simp only
  split <;> rfl

/-- Two names have one identifier only if they are one name. -/
theorem identifierOf_start_inj {w : Workspace} {options : Options} {v v' : Declared}
    (hv : v ∈ w.declared) (hv' : v' ∈ w.declared) :
    (start w options).identifierOf v.name = (start w options).identifierOf v'.name ↔
      Text.lowercase v.name = Text.lowercase v'.name := by
  refine ⟨fun heq => ?_, fun heq => by rw [identifierOf, identifierOf, heq]⟩
  obtain ⟨x, hx⟩ := lookup_declareVariables hv (new options)
  obtain ⟨x', hx'⟩ := lookup_declareVariables hv' (new options)
  have hsound := sound_declareVariables w.declared (s := new options) Registry.sound_empty
  rw [identifierOf, identifierOf, registry_start, hx, hx'] at heq
  obtain rfl : x = x' := heq
  exact hsound.lookup_injective hx hx'

/-- Where there are variables, their lines are declared. -/
theorem get?_variables {w : Workspace} (hw : w.declared ≠ []) (options : Options) :
    (start w options).declarations.get? variablesKey =
      some (String.join (w.declared.map (start w options).declarationLine)) := by
  have hlines : (declareVariables w.declared (new options)).1.isEmpty = false := by
    obtain ⟨v, declared, hcons⟩ := List.exists_cons_of_ne_nil hw
    rw [hcons, declareVariables_cons, Bool.eq_false_iff, ne_eq, String.isEmpty_iff]
    intro hempty
    have hlist := congrArg String.toList hempty
    simp [String.toList_append] at hlist
  have hline : (start w options).declarationLine =
      (declareVariables w.declared (new options)).2.declarationLine := by
    funext v
    rw [declarationLine, declarationLine, identifierOf, identifierOf, registry_start]
  rw [hline, ← lines_declareVariables, start]
  simp only [hlines]
  rw [declarations_declareVariables]
  rfl

/-! ### Afterwards -/

theorem grows_serveAll (s : Session) (requests : List Request) :
    s.Grows (s.serveAll requests) := by
  induction requests generalizing s with
  | nil => exact .refl s
  | cons request requests ih => exact (s.grows_serve request).trans (ih (s.serve request))

/-- What has been assigned stays assigned, and the names of the variables stay what they are. -/
theorem extends_serveAll (s : Session) (requests : List Request) :
    s.registry.Extends (s.serveAll requests).registry ∧
      (s.serveAll requests).variableNames = s.variableNames :=
  ⟨(s.grows_serveAll requests).registry, (s.grows_serveAll requests).variableNames⟩

/-- The field refers to a variable by its identity. -/
def RefersTo (head : Block.Head) (field id : String) : Prop :=
  ∃ members, head.field? field = some (.object members) ∧
    Table.get? members "id" = some (.string id)

/-- A reference to a declared variable has the identifier that its name got at the start. -/
theorem reference_declared {w : Workspace} (hids : (w.declared.map Declared.id).Nodup)
    (options : Options) {v : Declared} (hv : v ∈ w.declared) {head : Block.Head} {field : String}
    (href : RefersTo head field v.id) (requests : List Request) :
    (((start w options).serveAll requests).perform (Generate.reference head field)).1 =
      .ok ((start w options).identifierOf v.name) := by
  obtain ⟨members, hfield, hid⟩ := href
  obtain ⟨hextends, hnames⟩ := extends_serveAll (start w options) requests
  obtain ⟨x, hx⟩ := lookup_declareVariables hv (new options)
  rw [← registry_start] at hx
  have hname : Table.get? ((start w options).serveAll requests).variableNames v.id =
      some v.name := by
    rw [hnames, variableNames_start]
    exact variableNames_declareVariables hids hv (new options)
  rw [perform_reference, Block.Head.reference, hfield]
  simp only [hid, Option.bind_some, Json.string?, hname, perform_identify]
  rw [Registry.identify_of_lookup (hextends.lookup hx), identifierOf, hx]
  rfl

/-- **Variables share an identifier exactly if their names are one name.** Whatever a session for a
workspace has done, references to two declared variables give the same identifier if and only if the
names of the two agree in lowercase; and where no names of variables do, the declaration of the
variables has one line for each of them, with its type and its identifier, and the identifiers are
all different. -/
theorem variables_share_iff_names_agree (w : Workspace) (options : Options)
    (hids : (w.declared.map Declared.id).Nodup) :
    (∀ v ∈ w.declared, ∀ v' ∈ w.declared, ∀ (head head' : Block.Head) (field field' : String),
      RefersTo head field v.id → RefersTo head' field' v'.id → ∀ requests requests' : List Request,
      ∃ x x', (((start w options).serveAll requests).perform
            (Generate.reference head field)).1 = .ok x ∧
        (((start w options).serveAll requests').perform
            (Generate.reference head' field')).1 = .ok x' ∧
        (x = x' ↔ Text.lowercase v.name = Text.lowercase v'.name)) ∧
    ((w.declared.map fun v => Text.lowercase v.name).Nodup → w.declared ≠ [] →
      ∃ identifiers : List String, identifiers.Nodup ∧
        (start w options).declarations.get? variablesKey =
          some (String.join (List.zipWith (fun v x => v.cType ++ " " ++ x ++ ";\n")
            w.declared identifiers)) ∧
        List.Forall₂ (fun v x => ∀ head field, RefersTo head field v.id →
          ((start w options).perform (Generate.reference head field)).1 = .ok x)
          w.declared identifiers) := by
  refine ⟨?_, fun hnames hw => ?_⟩
  · intro v hv v' hv' head head' field field' href href' requests requests'
    exact ⟨_, _, reference_declared hids options hv href requests,
      reference_declared hids options hv' href' requests', identifierOf_start_inj hv hv'⟩
  · refine ⟨w.declared.map fun v => (start w options).identifierOf v.name, ?_, ?_, ?_⟩
    · rw [List.nodup_map_iff_inj_on (List.Nodup.of_map _ hids)]
      intro v hv v' hv' heq
      exact List.inj_on_of_nodup_map hnames hv hv' ((identifierOf_start_inj hv hv').mp heq)
    · rw [get?_variables hw options, List.zipWith_map_right, List.zipWith_self]
      rfl
    · rw [List.forall₂_map_right_iff, List.forall₂_same]
      exact fun v hv head field href => reference_declared hids options hv href []

/-- Two variables whose names differ in letter case alone, and a third. -/
def threeVariables : Workspace where
  declared := [⟨"a", "1", ""⟩, ⟨"A", "2", ""⟩, ⟨"b", "3", "Number"⟩]

/-- A reference by identity. -/
def referenceTo (id : String) : Block.Head :=
  ⟨"math_change", [("VAR", .object [("id", .string id)])]⟩

theorem refersTo_referenceTo (id : String) : RefersTo (referenceTo id) "VAR" id :=
  ⟨[("id", .string id)], rfl, rfl⟩

/-- Different variables can have one identifier: these two are declared in two lines with the same
one, and references to them give the same one. -/
theorem letter_case_alone_is_shared : (threeVariables.declared.map Declared.id).Nodup ∧
    (start threeVariables {}).declarations.get? variablesKey = some "int a;\nint a;\ndouble b;\n" ∧
    ((start threeVariables {}).perform (Generate.reference (referenceTo "1") "VAR")).1 = .ok "a" ∧
    ((start threeVariables {}).perform (Generate.reference (referenceTo "2") "VAR")).1 = .ok "a" :=
  ⟨by decide, by decide +kernel, by decide +kernel, by decide +kernel⟩

/-- The other letter is another variable. -/
theorem other_letter_is_not_shared : (threeVariables.declared.map Declared.id).Nodup ∧
    ∃ x x', ((start threeVariables {}).perform (Generate.reference (referenceTo "1") "VAR")).1 =
        .ok x ∧
      ((start threeVariables {}).perform (Generate.reference (referenceTo "3") "VAR")).1 = .ok x' ∧
      (x = x' ↔ Text.lowercase "a" = Text.lowercase "b") :=
  ⟨by decide, (variables_share_iff_names_agree threeVariables {} (by decide)).1 ⟨"a", "1", ""⟩
    (by decide) ⟨"b", "3", "Number"⟩ (by decide) _ _ _ _ (refersTo_referenceTo "1")
    (refersTo_referenceTo "3") [] []⟩

end Session

end BlockSketch
