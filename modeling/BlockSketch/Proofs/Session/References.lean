import BlockSketch.Proofs.Session.Variables

/-!
# References find their variables

A block refers to a variable by its identity, or by a name. The identity leads to the name that the
variable was declared with, and the name to an identifier, by way of the registry and anew each time.
That the identifier is the one in the declaration of the variable is therefore a matter of what a
session keeps:

* the names by identity never change (`Session.extends_serveAll`), and where an identity is declared
  more than once it has the name of the last variable (`Session.variableNames_last`);
* an assignment in the registry stays what it is, and so a declared name is answered from memory
  (`Session.identify_declared`);
* no two assignments share an identifier, and so a name that is not declared never gets the
  identifier of a variable (`Session.identify_undeclared`).

`Session.references_bind` puts these together, for a session that has served any requests.
-/

namespace BlockSketch

namespace Session

variable {w : Workspace} {options : Options}

/-! ### Names by identity -/

/-- The last variable with an identity is the one that the identity stands for. -/
theorem variableNames_last {before after : List Declared} {v : Declared}
    (hlast : v.id ∉ after.map Declared.id) (s : Session) :
    Table.get? (declareVariables (before ++ v :: after) s).2.variableNames v.id = some v.name := by
  induction before generalizing s with
  | nil =>
    rw [List.nil_append, declareVariables_cons]
    simp only
    rw [variableNames_of_not_mem hlast, Table.get?_insert_self]
  | cons u before ih =>
    rw [List.cons_append, declareVariables_cons]
    exact ih _

/-- An identity that is not declared stands for nothing. -/
theorem variableNames_undeclared {id : String} (h : id ∉ w.declared.map Declared.id)
    (options : Options) :
    Table.get? (start w options).variableNames id = none := by
  rw [variableNames_start, variableNames_of_not_mem h]
  rfl

/-! ### Identifiers by name -/

/-- Every declared name has its identifier from the start. -/
theorem lookup_start {v : Declared} (hv : v ∈ w.declared) (options : Options) :
    (start w options).registry.assigned.lookup (Text.lowercase v.name) =
      some ((start w options).identifierOf v.name) := by
  obtain ⟨x, hx⟩ := lookup_declareVariables hv (new options)
  rw [← registry_start] at hx
  rw [identifierOf, hx]
  rfl

/-- A name that is declared, up to letter case, is answered from memory. -/
theorem identify_declared {v : Declared} (hv : v ∈ w.declared) {r : Registry}
    (hr : (start w options).registry.Extends r) {name : String}
    (hname : Text.lowercase v.name = Text.lowercase name) :
    r.identify name = ((start w options).identifierOf v.name, r) := by
  have hlookup := hr.lookup (lookup_start hv options)
  rw [hname] at hlookup
  exact Registry.identify_of_lookup hlookup

/-- A name that is not declared, in any letter case, never gets the identifier of a variable. -/
theorem identify_undeclared {v : Declared} (hv : v ∈ w.declared) {r : Registry} (hsound : r.Sound)
    (hr : (start w options).registry.Extends r) {name : String}
    (hname : Text.lowercase v.name ≠ Text.lowercase name) :
    (r.identify name).1 ≠ (start w options).identifierOf v.name := by
  intro heq
  have hdeclared := (Registry.extends_identify r name).lookup
    (hr.lookup (lookup_start hv options))
  rw [← heq] at hdeclared
  exact hname ((hsound.identify name).lookup_injective hdeclared (Registry.lookup_identify r name))

/-! ### What a session keeps -/

theorem sound_serveAll {s : Session} (hs : s.registry.Sound) (requests : List Request) :
    (s.serveAll requests).registry.Sound := by
  induction requests generalizing s with
  | nil => exact hs
  | cons request requests ih => exact ih (invariant_sound.serve hs request)

/-- A declaration stays what it is. -/
theorem declarations_serveAll {s : Session} {key text : String}
    (hs : s.declarations.get? key = some text) (requests : List Request) :
    (s.serveAll requests).declarations.get? key = some text :=
  (s.grows_serveAll requests).get? hs

/-! ### References -/

/-- The field refers to a variable by a name: it has an object with a name and without an
identity. -/
def RefersByName (head : Block.Head) (field name : String) : Prop :=
  ∃ members, head.field? field = some (.object members) ∧
    (Table.get? members "id").bind Json.string? = none ∧
    Table.get? members "name" = some (.string name)

/-- A name, if no identity comes in between, is answered by the registry. -/
theorem perform_reference_name {s : Session} {head : Block.Head} {field name : String}
    (h : head.field? field = some (.string name) ∧ Table.get? s.variableNames name = none ∨
      RefersByName head field name) :
    s.perform (Generate.reference head field) = s.perform (Generate.identify name) := by
  rw [perform_reference, Block.Head.reference]
  rcases h with ⟨hfield, hnone⟩ | ⟨members, hfield, hid, hname⟩
  · simp only [hfield, hnone, Option.getD_none]
  · simp only [hfield, hid, hname, Option.bind_some, Json.string?]

/-- An identity that is declared, as an object or as a text, leads to a name. -/
theorem perform_reference_identity {s : Session} {head : Block.Head} {field id name : String}
    (h : RefersTo head field id ∨ head.field? field = some (.string id))
    (hname : Table.get? s.variableNames id = some name) :
    s.perform (Generate.reference head field) = s.perform (Generate.identify name) := by
  rw [perform_reference, Block.Head.reference]
  rcases h with ⟨members, hfield, hid⟩ | hfield
  · simp only [hfield, hid, Option.bind_some, Json.string?, hname]
  · simp only [hfield, hname, Option.getD_some]

/-- **References bind to their declarations.** Take a session for a workspace that has served any
requests, whether they succeeded or failed. The last variable with an identity has its line in the
declaration of the variables, from the start and still, and every reference by that identity gives
the identifier in this line. A reference by an identity that is not declared fails, with this
identity. And a reference by a name that is neither a declared identity nor, in any letter case, a
declared name gives an identifier that no declared variable has. -/
theorem references_bind (w : Workspace) (options : Options) :
    (∀ before v after, w.declared = before ++ v :: after → v.id ∉ after.map Declared.id →
      (∀ requests, ((start w options).serveAll requests).declarations.get? variablesKey =
        some (String.join (before.map (start w options).declarationLine) ++
          (v.cType ++ " " ++ (start w options).identifierOf v.name ++ ";\n") ++
          String.join (after.map (start w options).declarationLine))) ∧
      ∀ requests head field, RefersTo head field v.id ∨ head.field? field = some (.string v.id) →
        (((start w options).serveAll requests).perform (Generate.reference head field)).1 =
          .ok ((start w options).identifierOf v.name)) ∧
    (∀ requests head field id, RefersTo head field id → id ∉ w.declared.map Declared.id →
      (((start w options).serveAll requests).perform (Generate.reference head field)).1 =
        .error (.unknownVariable id)) ∧
    (∀ requests head field name,
      head.field? field = some (.string name) ∧ name ∉ w.declared.map Declared.id ∨
        RefersByName head field name →
      (∀ v ∈ w.declared, Text.lowercase v.name ≠ Text.lowercase name) →
      ∃ x, (((start w options).serveAll requests).perform (Generate.reference head field)).1 =
          .ok x ∧ ∀ v ∈ w.declared, x ≠ (start w options).identifierOf v.name) := by
  have hserved := extends_serveAll (start w options)
  refine ⟨?_, ?_, ?_⟩
  · intro before v after hdeclared hlast
    have hv : v ∈ w.declared := by
      rw [hdeclared]
      exact List.mem_append_right _ List.mem_cons_self
    have hname : Table.get? (start w options).variableNames v.id = some v.name := by
      rw [variableNames_start, hdeclared]
      exact variableNames_last hlast _
    have hlines : (start w options).declarations.get? variablesKey =
        some (String.join (before.map (start w options).declarationLine) ++
          (start w options).declarationLine v ++
          String.join (after.map (start w options).declarationLine)) := by
      rw [get?_variables (List.ne_nil_of_mem hv), hdeclared, List.map_append, List.map_cons,
        String.join_append, String.join_cons, String.append_assoc]
    refine ⟨declarations_serveAll hlines, fun requests head field href => ?_⟩
    obtain ⟨hextends, hnames⟩ := hserved requests
    rw [← hnames] at hname
    rw [perform_reference_identity href hname, perform_identify,
      identify_declared hv hextends rfl]
  · intro requests head field id href hundeclared
    obtain ⟨members, hfield, hid⟩ := href
    have hnone := variableNames_undeclared hundeclared options
    rw [← (hserved requests).2] at hnone
    rw [perform_reference, Block.Head.reference]
    simp only [hfield, hid, Option.bind_some, Json.string?, hnone]
  · intro requests head field name href hundeclared
    obtain ⟨hextends, hnames⟩ := hserved requests
    have hsound := sound_serveAll (sound_start w options) requests
    refine ⟨_, ?_, fun v hv => identify_undeclared hv hsound hextends (hundeclared v hv)⟩
    rw [perform_reference_name, perform_identify]
    rcases href with ⟨hfield, hid⟩ | href
    · rw [hnames]
      exact .inl ⟨hfield, variableNames_undeclared hid options⟩
    · exact .inr href

/-- Of two variables with one identity the second is referred to. -/
example : ((start { declared := [⟨"a", "1", ""⟩, ⟨"b", "1", ""⟩] } {}).perform
    (Generate.reference ⟨"math_change", [("VAR", .string "1")]⟩ "VAR")).1 = .ok "b" := by
  decide +kernel

end Session

end BlockSketch
