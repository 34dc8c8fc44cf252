import BlockSketch.Proofs.Session.Variables

/-!
# Done again, nothing is done

When the code of a block is made a second time, everything that it asks for is there. What it wants
declared was declared, and every name that it refers to has its identifier. So the second time comes
out as the first, with the same code or the same error, and leaves the session as it found it, even if
other work was done in between. `Block.replay_changes_nothing` says so.

For work that failed half-way this needs a second look: the replay must fail at the same step, having
made the same steps before it, and none of the steps may find more than it found the first time. The
notion that carries the proof is `Generate.Repeatable`. It looks at a session that has grown from the
one that the work left behind, and it is kept when work is put together, since the first part of the
work leaves less behind than the whole.
-/

namespace BlockSketch

namespace Generate

variable {α β : Type}

/-- Wherever the work was done, it has the same outcome later on and changes nothing then. -/
structure Repeatable (work : Generate α) : Prop where
  grows (s : Session) : s.Grows (s.perform work).2
  again {s t : Session} : (s.perform work).2.Grows t → t.perform work = ((s.perform work).1, t)

theorem repeatable_pure (a : α) : Repeatable (pure a) where
  grows s := .refl s
  again _ := rfl

theorem repeatable_lift (x : Except GenerationError α) : Repeatable (liftM x : Generate α) where
  grows := by
    intro s
    rw [Session.perform_lift]
    exact .refl s
  again := by
    intro s t _
    rw [Session.perform_lift, Session.perform_lift]

/-- One piece of work after another. The second time, both find what the second one left behind. -/
theorem Repeatable.bind {work : Generate α} {next : α → Generate β} (h : Repeatable work)
    (hnext : ∀ a, Repeatable (next a)) : Repeatable (work >>= next) where
  grows := by
    intro s
    have hwork := h.grows s
    rw [Session.perform_bind]
    generalize s.perform work = outcome at hwork
    obtain ⟨result, s₁⟩ := outcome
    cases result with
    | error e => exact hwork
    | ok a => exact hwork.trans ((hnext a).grows s₁)
  again := by
    intro s t ht
    have hwork {t : Session} := h.again (s := s) (t := t)
    rw [Session.perform_bind] at ht ⊢
    rw [Session.perform_bind]
    generalize s.perform work = outcome at hwork ht
    obtain ⟨result, s₁⟩ := outcome
    cases result with
    | error e => rw [hwork ht]
    | ok a =>
      -- `t` has grown from where the second part ended, and so from where the first did
      rw [hwork (((hnext a).grows s₁).trans ht)]
      exact (hnext a).again ht

/-- Work that looks at what no session ever changes. -/
theorem repeatable_read (look : Session → β) (hlook : ∀ s t, s.Grows t → look t = look s)
    {next : β → Generate α} (hnext : ∀ x, Repeatable (next x)) :
    Repeatable (get >>= fun s => next (look s)) where
  grows := by
    intro s
    exact (hnext (look s)).grows s
  again := by
    intro s t ht
    have hsame : look t = look s := hlook s t (((hnext (look s)).grows s).trans ht)
    change t.perform (next (look t)) = _
    rw [hsame]
    exact (hnext (look s)).again ht

/-- What was declared is there. -/
theorem repeatable_declare (key text : String) : Repeatable (declare key text) where
  grows s := s.grows_serve (.declare key text)
  again := by
    intro s t ht
    have hkey : key ∈ t.declarations.keys := by
      refine ht.mem_keys ?_
      rw [Session.perform_declare]
      exact Declarations.mem_keys_register.mpr (.inr rfl)
    rw [Session.perform_declare, Session.perform_declare, Declarations.register_of_mem hkey]

/-- A name that was identified is answered from memory. -/
theorem repeatable_identify (name : String) : Repeatable (identify name) where
  grows s := (Session.invariant_grows s).identify name (.refl s)
  again := by
    intro s t ht
    have hlookup := ht.registry.lookup (Registry.lookup_identify s.registry name)
    rw [Session.perform_identify, Session.perform_identify, Registry.identify_of_lookup hlookup]

theorem repeatable_reference (head : Block.Head) (field : String) :
    Repeatable (reference head field) :=
  repeatable_read Session.variableNames (fun _ _ h => h.variableNames) fun names =>
    (repeatable_lift (head.reference names field)).bind repeatable_identify

theorem Repeatable.map {work : Generate α} (h : Repeatable work) (f : α → β) :
    Repeatable (f <$> work) := by
  rw [← bind_pure_comp]
  exact h.bind fun a => repeatable_pure (f a)

theorem repeatable_mapM {f : α → Generate β} (h : ∀ a, Repeatable (f a)) (as : List α) :
    Repeatable (as.mapM f) := by
  induction as with
  | nil => exact repeatable_pure []
  | cons a as ih =>
    rw [List.mapM_cons]
    exact (h a).bind fun b => ih.bind fun bs => repeatable_pure (b :: bs)

end Generate

open Generate (Repeatable)

/-- Carrying out a plan is repeatable if making the codes in the sockets is. -/
theorem Plan.repeatable_run {α : Type} {b : Block}
    (hchildren : ∀ socket child, b.inSocket socket = some child → Repeatable child.code)
    (plan : Plan α) : Repeatable (plan.run b.head (Block.plugs b.inputs)) := by
  induction plan with
  | done result => exact Generate.repeatable_pure result
  | declare d rest ih => exact (Generate.repeatable_declare d.key d.text).bind fun _ => ih
  | value socket place fallback rest ih =>
    rw [Block.run_value]
    cases hchild : b.inSocket socket with
    | none => exact ih fallback
    | some child =>
      have hfitted : Repeatable (child.fitted place) := by
        refine (hchildren socket child hchild).bind ?_
        intro code
        cases code with
        | value f => exact Generate.repeatable_pure (f.fit place)
        | statement st => exact Generate.repeatable_lift (.error (.expectedValue child.type))
      exact hfitted.bind ih
  | reference field rest ih => exact (Generate.repeatable_reference b.head field).bind ih

/-- A rule that is applied again reads the same settings with the same options. -/
theorem Rule.repeatable_apply {rule : Rule} {b : Block}
    (hchildren : ∀ socket child, b.inSocket socket = some child → Repeatable child.code) :
    Repeatable (rule.apply b.head (Block.plugs b.inputs)) := by
  have hplan (oneBased : Bool) : Repeatable (liftM (rule.plan oneBased b.head) >>= fun plan =>
      plan.run b.head (Block.plugs b.inputs)) :=
    (Generate.repeatable_lift (rule.plan oneBased b.head)).bind (Plan.repeatable_run hchildren)
  refine Generate.repeatable_read (fun s => s.options.oneBased) ?_ hplan
  intro s t h
  rw [h.options]

namespace Block

/-- Making the code of a block is repeatable. -/
theorem repeatable_code (b : Block) : Repeatable b.code := by
  induction b using socketInduction with
  | block b hchildren =>
    rw [code_eq]
    cases Rule.ofType? b.type with
    | none => exact Generate.repeatable_lift (.error (.unknownBlockType b.type))
    | some rule => exact Rule.repeatable_apply hchildren

theorem repeatable_stackCode (b : Block) : Repeatable b.stackCode :=
  Generate.repeatable_mapM (fun block => block.repeatable_code.map Code.asStatement) b.stack

/-- **Done again, nothing is done.** Once the code of a block was made, or the statements of a stack
were, with success or without, and then any requests were served, or none, making them again has the
same outcome, the same code or the same error, and leaves the session exactly as it is. -/
theorem replay_changes_nothing (s : Session) (b : Block) (requests : List Request) :
    ((s.perform b.code).2.serveAll requests).perform b.code =
      ((s.perform b.code).1, (s.perform b.code).2.serveAll requests) ∧
    ((s.perform b.stackCode).2.serveAll requests).perform b.stackCode =
      ((s.perform b.stackCode).1, (s.perform b.stackCode).2.serveAll requests) :=
  ⟨b.repeatable_code.again (Session.grows_serveAll _ requests),
    b.repeatable_stackCode.again (Session.grows_serveAll _ requests)⟩

end Block

end BlockSketch
