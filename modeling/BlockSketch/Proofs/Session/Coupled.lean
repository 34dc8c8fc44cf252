import BlockSketch.Proofs.Session.Filled

/-!
# Two runs side by side

Some statements compare what happens in two sessions: the indentation has no part in the code, a
text stays in its literal. Such a statement is a relation between sessions that the work keeps as it
goes on in both, and a relation between the results. `Generate.Coupled` says both at once, and that
an error is the same error in both.

As with one run, work has two effects only, and a `Coupling` is a relation that they keep.
`Block.coupled_code` reduces every comparison of the codes of two blocks to one of the plans of the
rules: the plans must ask for the same things in the same order, and make related code from related
answers (`Plan.Alike`).
-/

namespace BlockSketch

/-! ### Outcomes -/

/-- Both outcomes are results, which `Q` relates, or both are the same error. -/
def Agree {ε α β : Type} (Q : α → β → Prop) : Except ε α → Except ε β → Prop
  | .ok a, .ok b => Q a b
  | .error e, .error e' => e = e'
  | _, _ => False

namespace Agree

variable {ε α β α' β' : Type} {P : α → β → Prop} {Q : α' → β' → Prop}

/-- There is one error, or there are two results. -/
theorem outcomes {x : Except ε α} {y : Except ε β} (h : Agree P x y) :
    (∃ e, x = .error e ∧ y = .error e) ∨ ∃ a b, x = .ok a ∧ y = .ok b ∧ P a b := by
  cases x with
  | error e =>
    cases y with
    | error e' =>
      obtain rfl : e = e' := h
      exact .inl ⟨e, rfl, rfl⟩
    | ok b => exact h.elim
  | ok a =>
    cases y with
    | error e' => exact h.elim
    | ok b => exact .inr ⟨a, b, rfl, rfl, h⟩

theorem refl {R : α → α → Prop} (h : ∀ a, R a a) (x : Except ε α) : Agree R x x := by
  cases x with
  | error e => rfl
  | ok a => exact h a

theorem bind {x : Except ε α} {y : Except ε β} {f : α → Except ε α'} {g : β → Except ε β'}
    (h : Agree P x y) (hnext : ∀ a b, P a b → Agree Q (f a) (g b)) :
    Agree Q (x >>= f) (y >>= g) := by
  rcases h.outcomes with ⟨e, rfl, rfl⟩ | ⟨a, b, rfl, rfl, hab⟩
  · rfl
  · exact hnext a b hab

/-- The same first step, whose result is the same too. -/
theorem bind_same {x : Except ε α} {f : α → Except ε α'} {g : α → Except ε β'}
    (h : ∀ a, x = .ok a → Agree Q (f a) (g a)) : Agree Q (x >>= f) (x >>= g) := by
  cases x with
  | error e => rfl
  | ok a => exact h a rfl

theorem bind_self {x : Except ε α} {f : α → Except ε α'} {g : α → Except ε β'}
    (h : ∀ a, Agree Q (f a) (g a)) : Agree Q (x >>= f) (x >>= g) :=
  bind_same fun a _ => h a

theorem error_iff {x : Except ε α} {y : Except ε β} (h : Agree P x y) (e : ε) :
    x = .error e ↔ y = .error e := by
  rcases h.outcomes with ⟨e', rfl, rfl⟩ | ⟨a, b, rfl, rfl, -⟩
  · simp only [Except.error.injEq]
  · exact ⟨nofun, nofun⟩

end Agree

/-! ### Work -/

namespace Generate

variable {α β α' β' : Type} {R : Session → Session → Prop}

/-- In sessions that `R` relates, the two pieces of work leave sessions that `R` relates, and their
outcomes agree. -/
def Coupled (R : Session → Session → Prop) (work : Generate α) (work' : Generate β)
    (Q : α → β → Prop) : Prop :=
  ∀ s s', R s s' → R (s.perform work).2 (s'.perform work').2 ∧
    Agree Q (s.perform work).1 (s'.perform work').1

/-- A relation between sessions that look the same to the rules, and which the two effects of work
keep. `N` relates the identifiers that one name gets in both. -/
structure Coupling (R : Session → Session → Prop) (N : String → String → Prop) : Prop where
  oneBased {s s' : Session} : R s s' → s.options.oneBased = s'.options.oneBased
  variableNames {s s' : Session} : R s s' → s.variableNames = s'.variableNames
  declare {s s' : Session} (key text : String) : R s s' →
    R { s with declarations := s.declarations.register key text }
      { s' with declarations := s'.declarations.register key text }
  identify {s s' : Session} (name : String) : R s s' →
    R { s with registry := (s.registry.identify name).2 }
        { s' with registry := (s'.registry.identify name).2 } ∧
      N (s.registry.identify name).1 (s'.registry.identify name).1

/-- What is the same before is the same afterwards. -/
theorem coupling_eq : Coupling Eq Eq where
  oneBased := by
    rintro s _ rfl
    rfl
  variableNames := by
    rintro s _ rfl
    rfl
  declare := by
    rintro s _ key text rfl
    rfl
  identify := by
    rintro s _ name rfl
    exact ⟨rfl, rfl⟩

theorem coupled_pure {a : α} {b : β} {Q : α → β → Prop} (h : Q a b) :
    Coupled R (pure a) (pure b) Q :=
  fun _ _ hs => ⟨hs, h⟩

theorem coupled_throw (e : GenerationError) (Q : α → β → Prop) :
    Coupled R (throw e) (throw e) Q :=
  fun _ _ hs => ⟨hs, rfl⟩

theorem Coupled.bind {work : Generate α} {work' : Generate β} {next : α → Generate α'}
    {next' : β → Generate β'} {P : α → β → Prop} {Q : α' → β' → Prop}
    (h : Coupled R work work' P) (hnext : ∀ a b, P a b → Coupled R (next a) (next' b) Q) :
    Coupled R (work >>= next) (work' >>= next') Q := by
  intro s s' hs
  obtain ⟨hafter, hagree⟩ := h s s' hs
  rw [Session.perform_bind, Session.perform_bind]
  rcases hwork : s.perform work with ⟨result, s₁⟩
  rcases hwork' : s'.perform work' with ⟨result', s₁'⟩
  rw [hwork, hwork'] at hafter hagree
  rcases hagree.outcomes with ⟨e, rfl, rfl⟩ | ⟨a, b, rfl, rfl, hab⟩
  · exact ⟨hafter, rfl⟩
  · exact hnext a b hab s₁ s₁' hafter

theorem Coupled.map {work : Generate α} {work' : Generate β} {P : α → β → Prop}
    {Q : α' → β' → Prop} (h : Coupled R work work' P) {f : α → α'} {g : β → β'}
    (hfg : ∀ a b, P a b → Q (f a) (g b)) : Coupled R (f <$> work) (g <$> work') Q := by
  rw [← bind_pure_comp, ← bind_pure_comp]
  exact h.bind fun a b hab => coupled_pure (hfg a b hab)

/-- The same work on each of two lists, item by item. -/
theorem coupled_mapM {f : α → Generate α'} {g : β → Generate β'} {P : α → β → Prop}
    {Q : α' → β' → Prop} {as : List α} {bs : List β} (has : List.Forall₂ P as bs)
    (h : ∀ a b, P a b → Coupled R (f a) (g b) Q) :
    Coupled R (as.mapM f) (bs.mapM g) (List.Forall₂ Q) := by
  induction has with
  | nil => exact coupled_pure .nil
  | cons hab _ ih =>
    rw [List.mapM_cons, List.mapM_cons]
    refine (h _ _ hab).bind fun a b hq => ?_
    exact ih.bind fun as bs hqs => coupled_pure (.cons hq hqs)

theorem coupled_reference {N : String → String → Prop} (hR : Coupling R N) {head head' : Block.Head}
    {field : String}
    (hfield : ∀ names, head.reference names field = head'.reference names field) :
    Coupled R (reference head field) (reference head' field) N := by
  intro s s' hs
  rw [Session.perform_reference, Session.perform_reference, hR.variableNames hs, hfield]
  cases head'.reference s'.variableNames field with
  | error e => exact ⟨hs, rfl⟩
  | ok name => exact hR.identify name hs

end Generate

/-! ### Plans -/

namespace Plan

variable {α β : Type}

/-- Two plans that ask for the same things in the same order. From sockets answered with expressions
that `E` relates, and from names that `N` relates, they make results that `Q` relates. The fields
that they refer to must have the same reference in the heads of both blocks. -/
inductive Alike (head head' : Block.Head) (E : Expr → Expr → Prop) (N : String → String → Prop)
    (Q : α → β → Prop) : Plan α → Plan β → Prop
  | done {a : α} {b : β} : Q a b → Alike head head' E N Q (done a) (done b)
  | declare {d : Declaration} {p : Plan α} {q : Plan β} : Alike head head' E N Q p q →
      Alike head head' E N Q (declare d p) (declare d q)
  | value {socket : String} {place : Precedence} {fallback : Expr} {p : Expr → Plan α}
      {q : Expr → Plan β} : E fallback fallback →
      (∀ e e', E e e' → Alike head head' E N Q (p e) (q e')) →
      Alike head head' E N Q (value socket place fallback p) (value socket place fallback q)
  | reference {field : String} {p : String → Plan α} {q : String → Plan β} :
      (∀ names, head.reference names field = head'.reference names field) →
      (∀ x x', N x x' → Alike head head' E N Q (p x) (q x')) →
      Alike head head' E N Q (reference field p) (reference field q)

/-- A plan is like itself. -/
theorem alike_refl (head : Block.Head) (plan : Plan α) : plan.Alike head head Eq Eq Eq plan := by
  induction plan with
  | done a => exact .done rfl
  | declare d rest ih => exact .declare ih
  | value socket place fallback rest ih =>
    refine .value rfl ?_
    rintro e _ rfl
    exact ih e
  | reference field rest ih =>
    refine .reference (fun _ => rfl) ?_
    rintro x _ rfl
    exact ih x

/-- Two plans that are alike, carried out for blocks whose sockets are answered alike. -/
theorem Alike.coupled_run {R : Session → Session → Prop} {b b' : Block} {E : Expr → Expr → Prop}
    {N : String → String → Prop} {Q : α → β → Prop} (hR : Generate.Coupling R N)
    (hsockets : ∀ socket place, Option.Rel
      (fun child child' => Generate.Coupled R (child.fitted place) (child'.fitted place) E)
      (b.inSocket socket) (b'.inSocket socket))
    {plan : Plan α} {plan' : Plan β} (h : plan.Alike b.head b'.head E N Q plan') :
    Generate.Coupled R (plan.run b.head (Block.plugs b.inputs))
      (plan'.run b'.head (Block.plugs b'.inputs)) Q := by
  induction h with
  | done h => exact Generate.coupled_pure h
  | @declare d p q _ ih =>
    have hdeclare : Generate.Coupled R (Generate.declare d.key d.text)
        (Generate.declare d.key d.text) fun _ _ => True :=
      fun s s' hs => ⟨hR.declare d.key d.text hs, trivial⟩
    exact hdeclare.bind fun _ _ _ => ih
  | @value socket place fallback p q hfallback _ ih =>
    have hsocket := hsockets socket place
    rw [Block.run_value, Block.run_value]
    generalize b.inSocket socket = child at hsocket
    generalize b'.inSocket socket = child' at hsocket
    cases hsocket with
    | none => exact ih _ _ hfallback
    | some hchild => exact hchild.bind ih
  | reference hfield _ ih => exact (Generate.coupled_reference hR hfield).bind ih

end Plan

/-! ### Blocks -/

namespace Code

/-- Two codes that a socket answers alike: values of one tier whose expressions `E` relates, or
statements. -/
def AlikeInSocket (E : Expr → Expr → Prop) : Code → Code → Prop
  | value f, value f' => f.tier = f'.tier ∧ E f.expr f'.expr
  | statement _, statement _ => True
  | _, _ => False

end Code

namespace Block

variable {R : Session → Session → Prop} {E : Expr → Expr → Prop} {N : String → String → Prop}
  {Q : Code → Code → Prop} {B : Block → Block → Prop}

/-- The expressions in a socket, given the codes of the blocks in it. -/
theorem coupled_fitted (hparen : ∀ e e', E e e' → E (.paren e) (.paren e'))
    (hQ : ∀ c c', Q c c' → c.AlikeInSocket E c') {child child' : Block}
    (htype : child.type = child'.type) (h : Generate.Coupled R child.code child'.code Q)
    (place : Precedence) :
    Generate.Coupled R (child.fitted place) (child'.fitted place) E := by
  refine Generate.Coupled.bind h fun c c' hc => ?_
  have halike := hQ c c' hc
  cases c <;> cases c'
  · next f f' =>
    obtain ⟨htier, hexpr⟩ := halike
    refine Generate.coupled_pure ?_
    rw [Fragment.fit, Fragment.fit, htier]
    split
    · exact hparen _ _ hexpr
    · exact hexpr
  · exact halike.elim
  · exact halike.elim
  · rw [htype]
    exact Generate.coupled_throw _ _

/-- **Comparisons of codes are comparisons of plans.** Let `B` relate blocks of one type whose
sockets hold blocks that it relates. If the rules then make plans that are alike, the codes are
related. -/
theorem coupled_code (hR : Generate.Coupling R N)
    (hparen : ∀ e e', E e e' → E (.paren e) (.paren e'))
    (hQ : ∀ c c', Q c c' → c.AlikeInSocket E c')
    (htype : ∀ b b', B b b' → b.type = b'.type)
    (hsockets : ∀ b b', B b b' → ∀ socket, Option.Rel B (b.inSocket socket) (b'.inSocket socket))
    (hplan : ∀ b b', B b b' → ∀ rule oneBased, Rule.ofType? b.type = some rule →
      Agree (Plan.Alike b.head b'.head E N Q) (rule.plan oneBased b.head)
        (rule.plan oneBased b'.head))
    {b b' : Block} (h : B b b') : Generate.Coupled R b.code b'.code Q := by
  induction b using socketInduction generalizing b' with
  | block b hchildren =>
    rw [code_eq, code_eq, ← htype b b' h]
    cases hrule : Rule.ofType? b.type with
    | none => exact Generate.coupled_throw _ _
    | some rule =>
      intro s s' hs
      have hplans := hplan b b' h rule s.options.oneBased hrule
      rw [Session.perform_apply, Session.perform_apply, ← hR.oneBased hs]
      rcases hplans.outcomes with ⟨e, hplan, hplan'⟩ | ⟨plan, plan', hplan, hplan', halike⟩
      · rw [hplan, hplan']
        exact ⟨hs, rfl⟩
      · rw [hplan, hplan']
        refine halike.coupled_run hR (fun socket place => ?_) s s' hs
        have hsocket := hsockets b b' h socket
        have hchild := hchildren socket
        generalize b.inSocket socket = child at hsocket hchild
        generalize b'.inSocket socket = child' at hsocket
        cases hsocket with
        | none => exact .none
        | some hB => exact .some (coupled_fitted hparen hQ (htype _ _ hB) (hchild _ rfl hB) place)

/-- A block has the same code in both sessions if names have the same identifiers in both. -/
theorem coupled_code_self (hR : Generate.Coupling R Eq) (b : Block) :
    Generate.Coupled R b.code b.code Eq := by
  refine coupled_code (B := Eq) (E := Eq) hR ?_ ?_ ?_ ?_ ?_ rfl
  · rintro e _ rfl
    rfl
  · rintro (f | st) _ rfl
    · exact ⟨rfl, rfl⟩
    · trivial
  · rintro b _ rfl
    rfl
  · rintro b _ rfl socket
    cases b.inSocket socket with
    | none => exact .none
    | some child => exact .some rfl
  · rintro b _ rfl rule oneBased -
    exact Agree.refl (Plan.alike_refl b.head) _

end Block

end BlockSketch
