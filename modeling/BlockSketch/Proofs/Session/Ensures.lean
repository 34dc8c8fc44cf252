import BlockSketch.Proofs.Identifier.Registry
import BlockSketch.Session

/-!
# Work that keeps an invariant

What is true of a session before some work is often true of it afterwards, whether the work succeeds
or fails, and then the result has some property as well. `Generate.Ensures` says both at once, and
the laws here let it be proved along the way work is put together.

Work does two things to a session and no others: it declares something, and it identifies a name. An
`Invariant` is a property that these two keep. What a plan meets when its sockets are answered in
some way (`Plan.Meets`), carrying it out ensures where they are answered so, and so does applying the
rule whose plan it is (`Block.ensures_apply_of_answers`).
-/

namespace BlockSketch

/-- Where the whole succeeds, its first part does. -/
theorem exists_of_bind_eq_ok {ε α β : Type} {x : Except ε α} {f : α → Except ε β} {b : β}
    (h : (x >>= f) = .ok b) : ∃ a, x = .ok a ∧ f a = .ok b := by
  cases x with
  | error e => cases h
  | ok a => exact ⟨a, rfl, h⟩

namespace Session

variable {α β : Type} (s : Session)

/-! ### The laws of working -/

/-- What comes second is done where the first ended, and not at all if the first failed. -/
theorem perform_bind (work : Generate α) (next : α → Generate β) :
    s.perform (work >>= next) =
      match s.perform work with
      | (.ok a, s') => s'.perform (next a)
      | (.error e, s') => (.error e, s') := by
  simp only [perform, ExceptT.run_bind, StateT.run_bind]
  generalize (ExceptT.run work).run s = outcome
  obtain ⟨result, s'⟩ := outcome
  cases result <;> rfl

/-- Where the whole succeeds, its first part does, and then the second. -/
theorem exists_of_perform_bind {s : Session} {work : Generate α} {next : α → Generate β} {b : β}
    {s' : Session} (h : s.perform (work >>= next) = (.ok b, s')) :
    ∃ a s₁, s.perform work = (.ok a, s₁) ∧ s₁.perform (next a) = (.ok b, s') := by
  rw [perform_bind] at h
  rcases hwork : s.perform work with ⟨result, s₁⟩
  rw [hwork] at h
  cases result with
  | error e => cases h
  | ok a => exact ⟨a, s₁, rfl, h⟩

/-- A setting that could be read or not. -/
theorem perform_lift (x : Except GenerationError α) :
    s.perform (liftM x : Generate α) = (x, s) := by
  cases x <;> rfl

theorem perform_declare (key text : String) :
    s.perform (Generate.declare key text) =
      (.ok (), { s with declarations := s.declarations.register key text }) :=
  rfl

theorem perform_identify (name : String) :
    s.perform (Generate.identify name) =
      (.ok (s.registry.identify name).1, { s with registry := (s.registry.identify name).2 }) :=
  rfl

/-- A reference that cannot be resolved changes nothing. -/
theorem perform_reference (head : Block.Head) (field : String) :
    s.perform (Generate.reference head field) =
      match head.reference s.variableNames field with
      | .ok name => s.perform (Generate.identify name)
      | .error e => (.error e, s) := by
  rw [Generate.reference, perform_bind]
  change s.perform (liftM (head.reference s.variableNames field) >>= Generate.identify) = _
  rw [perform_bind, perform_lift]
  cases head.reference s.variableNames field <;> rfl

/-- A rule whose settings cannot be read has asked for nothing. -/
theorem perform_apply (rule : Rule) (head : Block.Head) (plugs : List (String × Option Plug)) :
    s.perform (rule.apply head plugs) =
      match rule.plan s.options.oneBased head with
      | .ok plan => s.perform (plan.run head plugs)
      | .error e => (.error e, s) := by
  rw [Rule.apply, perform_bind]
  change s.perform (liftM (rule.plan s.options.oneBased head) >>= fun plan =>
    plan.run head plugs) = _
  rw [perform_bind, perform_lift]
  cases rule.plan s.options.oneBased head <;> rfl

end Session

namespace Generate

variable {α β : Type} {Inv : Session → Prop}

/-- Where `Inv` holds before the work it holds after it, and if there is a result it has `Q`. -/
def Ensures (Inv : Session → Prop) (work : Generate α) (Q : α → Prop) : Prop :=
  ∀ s, Inv s → Inv (s.perform work).2 ∧ ∀ a, (s.perform work).1 = .ok a → Q a

/-- Two pieces of work are the same if they do the same in every session. -/
theorem ext {work work' : Generate α} (h : ∀ s : Session, s.perform work = s.perform work') :
    work = work' :=
  ExceptT.ext (StateT.ext h)

/-- What is kept by the only two things that work does to a session. -/
structure Invariant (Inv : Session → Prop) : Prop where
  declare {s : Session} (key text : String) :
    Inv s → Inv { s with declarations := s.declarations.register key text }
  identify {s : Session} (name : String) :
    Inv s → Inv { s with registry := (s.registry.identify name).2 }

/-- Nothing at all is kept. -/
theorem invariant_true : Invariant fun _ => True where
  declare _ _ _ := trivial
  identify _ _ := trivial

theorem ensures_pure {a : α} {Q : α → Prop} (h : Q a) : Ensures Inv (pure a) Q := by
  intro s hs
  refine ⟨hs, fun b hb => ?_⟩
  obtain rfl : a = b := Except.ok.inj hb
  exact h

theorem ensures_throw (e : GenerationError) (Q : α → Prop) : Ensures Inv (throw e) Q :=
  fun _ hs => ⟨hs, nofun⟩

theorem Ensures.mono {work : Generate α} {P Q : α → Prop} (h : Ensures Inv work P)
    (hle : ∀ a, P a → Q a) : Ensures Inv work Q :=
  fun s hs => ⟨(h s hs).1, fun a ha => hle a ((h s hs).2 a ha)⟩

/-- One piece of work after another. -/
theorem Ensures.bind {work : Generate α} {next : α → Generate β} {P : α → Prop} {Q : β → Prop}
    (h : Ensures Inv work P) (hnext : ∀ a, P a → Ensures Inv (next a) Q) :
    Ensures Inv (work >>= next) Q := by
  intro s hs
  obtain ⟨hinv, hresult⟩ := h s hs
  rw [Session.perform_bind]
  generalize s.perform work = outcome at hinv hresult
  obtain ⟨result, s'⟩ := outcome
  cases result with
  | error e => exact ⟨hinv, nofun⟩
  | ok a => exact hnext a (hresult a rfl) s' hinv

/-- What comes second is done with nothing but what the first ensures. -/
theorem Ensures.bind_congr {work : Generate α} {next next' : α → Generate β} {P : α → Prop}
    (h : Ensures (fun _ => True) work P) (hnext : ∀ a, P a → next a = next' a) :
    work >>= next = work >>= next' := by
  refine ext fun s => ?_
  have hresult := (h s trivial).2
  rw [Session.perform_bind, Session.perform_bind]
  rcases hwork : s.perform work with ⟨result, s'⟩
  rw [hwork] at hresult
  cases result with
  | error e => rfl
  | ok a => exact congrArg s'.perform (hnext a (hresult a rfl))

theorem Ensures.map {work : Generate α} {P : α → Prop} (h : Ensures Inv work P) (f : α → β) :
    Ensures Inv (f <$> work) fun b => ∃ a, P a ∧ b = f a := by
  rw [← bind_pure_comp]
  exact h.bind fun a ha => ensures_pure ⟨a, ha, rfl⟩

/-- The same work on each of a list. -/
theorem ensures_mapM {f : α → Generate β} {Q : α → β → Prop} {as : List α}
    (h : ∀ a ∈ as, Ensures Inv (f a) (Q a)) :
    Ensures Inv (as.mapM f) fun bs => List.Forall₂ Q as bs := by
  induction as with
  | nil => exact ensures_pure .nil
  | cons a as ih =>
    rw [List.mapM_cons]
    refine (h a List.mem_cons_self).bind fun b hb => ?_
    refine (ih fun a' ha' => h a' (List.mem_cons_of_mem a ha')).bind fun bs hbs => ?_
    exact ensures_pure (.cons hb hbs)

theorem ensures_declare (hInv : Invariant Inv) (key text : String) :
    Ensures Inv (declare key text) fun _ => True :=
  fun _ hs => ⟨hInv.declare key text hs, fun _ _ => trivial⟩

/-- A reference gives an identifier that the registry had or made for a name. -/
theorem ensures_reference (hInv : Invariant Inv) {P : String → Prop}
    (hP : ∀ s name, Inv s → P (s.registry.identify name).1) (head : Block.Head) (field : String) :
    Ensures Inv (reference head field) P := by
  intro s hs
  rw [Session.perform_reference]
  cases head.reference s.variableNames field with
  | error e => exact ⟨hs, nofun⟩
  | ok name =>
    simp only [Session.perform_identify]
    refine ⟨hInv.identify name hs, fun identifier h => ?_⟩
    rw [← Except.ok.inj h]
    exact hP s name hs

end Generate

/-! ### Plans -/

namespace Plan

variable {α β : Type} {Inv : Session → Prop}

/-- Whenever every socket is answered as `A` allows and every name as `N` does, the result
of the plan has `Q`. -/
def Meets (A : String → Precedence → Expr → Expr → Prop) (N : String → Prop)
    (Q : α → Prop) : Plan α → Prop
  | done a => Q a
  | declare _ rest => rest.Meets A N Q
  | value socket place fallback rest =>
    ∀ e, A socket place fallback e → (rest e).Meets A N Q
  | reference _ rest => ∀ name, N name → (rest name).Meets A N Q

/-- What a plan meets is what carrying it out ensures. -/
theorem ensures_run (hInv : Generate.Invariant Inv) {head : Block.Head}
    {plugs : List (String × Option Plug)} {A : String → Precedence → Expr → Expr → Prop}
    {N : String → Prop} {Q : α → Prop}
    (hempty : ∀ socket place fallback, (plugs.lookup socket).join = none →
      A socket place fallback fallback)
    (hplug : ∀ socket place fallback plug, (plugs.lookup socket).join = some plug →
      Generate.Ensures Inv (plug.expr place fallback) (A socket place fallback))
    (hnamed : ∀ s name, Inv s → N (s.registry.identify name).1)
    {plan : Plan α} (h : plan.Meets A N Q) :
    Generate.Ensures Inv (plan.run head plugs) Q := by
  induction plan with
  | done a => exact Generate.ensures_pure h
  | declare declaration rest ih =>
    exact (Generate.ensures_declare hInv declaration.key declaration.text).bind fun _ _ => ih h
  | value socket place fallback rest ih =>
    rw [run]
    cases hlookup : (plugs.lookup socket).join with
    | none => exact ih fallback (h fallback (hempty socket place fallback hlookup))
    | some plug => exact (hplug socket place fallback plug hlookup).bind fun e he => ih e (h e he)
  | reference field rest ih =>
    exact (Generate.ensures_reference hInv hnamed head field).bind fun name hname =>
      ih name (h name hname)

end Plan

/-! ### Blocks -/

namespace Block

/-- The plugs are the blocks in the sockets, each with its code. -/
theorem lookup_plugs (inputs : List (String × Connection)) (socket : String) :
    ((plugs inputs).lookup socket).join =
      ((Table.get? inputs socket).bind Connection.connected).map
        fun child => ⟨child.type, child.code⟩ := by
  induction inputs with
  | nil => simp [plugs, Table.get?]
  | cons entry rest ih =>
    obtain ⟨name, connection⟩ := entry
    rw [plugs, List.lookup_cons, Table.get?, List.lookup_cons]
    cases socket == name with
    | false => exact ih
    | true =>
      obtain ⟨block, shadow⟩ := connection
      cases block <;> cases shadow <;> simp [Connection.plug, Connection.connected]

/-- A block in a socket is smaller than the block it is in. -/
theorem sizeOf_inSocket {b child : Block} {socket : String} (h : b.inSocket socket = some child) :
    sizeOf child < sizeOf b := by
  obtain ⟨head, id, inputs, next⟩ := b
  obtain ⟨connection, hconnection, hchild⟩ := Option.bind_eq_some_iff.mp h
  have hmem : (socket, connection) ∈ inputs := by
    obtain ⟨before, after, hinputs, -⟩ := List.lookup_eq_some_iff.mp hconnection
    change inputs = _ at hinputs
    rw [hinputs]
    exact List.mem_append_right _ List.mem_cons_self
  have hinputs := List.sizeOf_lt_of_mem hmem
  obtain ⟨block, shadow⟩ := connection
  cases block with
  | some real =>
    obtain rfl : real = child := Option.some.inj hchild
    simp at hinputs ⊢
    omega
  | none =>
    obtain rfl : shadow = some child := hchild
    simp at hinputs ⊢
    omega

/-- What is true of a block if it is true of the blocks in its sockets is true of every block. -/
theorem socketInduction {motive : Block → Prop}
    (block : ∀ b, (∀ socket child, b.inSocket socket = some child → motive child) → motive b)
    (b : Block) : motive b := by
  refine block b ?_
  intro socket child hchild
  exact socketInduction block child
termination_by sizeOf b
decreasing_by exact sizeOf_inSocket hchild

/-- The code of a block is made by the rule of its type. -/
theorem code_eq (b : Block) :
    b.code =
      match Rule.ofType? b.type with
      | some rule => rule.apply b.head (plugs b.inputs)
      | none => throw (.unknownBlockType b.type) := by
  obtain ⟨head, id, inputs, next⟩ := b
  unfold code
  rfl

/-- A rule applied to a block whose sockets are answered as `A` allows. -/
theorem ensures_apply_of_answers {Inv : Session → Prop} {N : String → Prop} {R : Code → Prop}
    {A : String → Precedence → Expr → Expr → Prop} (hInv : Generate.Invariant Inv)
    (hnamed : ∀ s name, Inv s → N (s.registry.identify name).1) {rule : Rule} {b : Block}
    (hempty : ∀ socket place fallback, b.inSocket socket = none → A socket place fallback fallback)
    (hchild : ∀ socket place fallback child, b.inSocket socket = some child →
      Generate.Ensures Inv (Plug.expr ⟨child.type, child.code⟩ place fallback)
        (A socket place fallback))
    (hrule : ∀ s plan, Inv s → rule.plan s.options.oneBased b.head = .ok plan → plan.Meets A N R) :
    (rule.apply b.head (plugs b.inputs)).Ensures Inv R := by
  intro s hs
  rw [Session.perform_apply]
  cases hplan : rule.plan s.options.oneBased b.head with
  | error e => exact ⟨hs, nofun⟩
  | ok plan =>
    refine Plan.ensures_run hInv ?_ ?_ hnamed (hrule s plan hs hplan) s hs
    · intro socket place fallback hlookup
      rw [lookup_plugs, Option.map_eq_none_iff] at hlookup
      exact hempty socket place fallback hlookup
    · intro socket place fallback plug hlookup
      rw [lookup_plugs] at hlookup
      obtain ⟨child, hinSocket, rfl⟩ := Option.map_eq_some_iff.mp hlookup
      exact hchild socket place fallback child hinSocket

end Block

end BlockSketch
