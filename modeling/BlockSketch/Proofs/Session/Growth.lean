import BlockSketch.Proofs.Session.Reachable

/-!
# Sessions grow

Nothing that a session has is ever taken back. Declarations keep their places and their texts, a name
that has an identifier keeps it, and an identifier that is taken stays taken; the options and the
names of the declared variables never change at all. `Session.Grows` is this order between a session
and one that comes after it, and `Session.only_grows` says that it holds of a session before and after
whatever is asked of it.

That a request may fail makes no difference. What was done before the failure stays, and a later
request builds on it. So the order is an invariant of the two effects of work, declaring and
identifying, and the work that was broken off had these effects too, only fewer of them.
-/

namespace BlockSketch

namespace Declarations

/-- A declaration comes behind those that are there. -/
theorem prefix_register (d : Declarations) (key text : String) :
    d.entries <+: (d.register key text).entries := by
  rw [register]
  split
  · exact List.prefix_refl _
  · exact List.prefix_append _ _

/-- A key that is there is not declared again. -/
theorem register_of_mem {d : Declarations} {key : String} (h : key ∈ d.keys) (text : String) :
    d.register key text = d := by
  rw [register, if_pos (contains_iff.mpr h)]

end Declarations

namespace Session

/-- Whatever the first session has, the second one has too, and perhaps more. -/
structure Grows (s s' : Session) : Prop where
  /-- the declarations come first, in their order and with their texts -/
  declarations : s.declarations.entries <+: s'.declarations.entries
  /-- names have the identifiers that they had, and what was taken is taken -/
  registry : s.registry.Extends s'.registry
  options : s'.options = s.options
  variableNames : s'.variableNames = s.variableNames

namespace Grows

variable {s s' s'' : Session}

theorem refl (s : Session) : s.Grows s :=
  ⟨List.prefix_refl _, Registry.Extends.refl _, rfl, rfl⟩

theorem trans (h : s.Grows s') (h' : s'.Grows s'') : s.Grows s'' where
  declarations := h.declarations.trans h'.declarations
  registry := h.registry.trans h'.registry
  options := h'.options.trans h.options
  variableNames := h'.variableNames.trans h.variableNames

theorem mem_keys (h : s.Grows s') {key : String} (hkey : key ∈ s.declarations.keys) :
    key ∈ s'.declarations.keys :=
  (h.declarations.map Prod.fst).subset hkey

/-- The text of a key stays what it is. -/
theorem get? (h : s.Grows s') {key text : String}
    (hkey : s.declarations.get? key = some text) : s'.declarations.get? key = some text := by
  obtain ⟨more, hmore⟩ := h.declarations
  rw [Declarations.get?] at hkey ⊢
  rw [← hmore, List.lookup_append, hkey]
  rfl

end Grows

/-- Both effects of work let a session grow. -/
theorem invariant_grows (s₀ : Session) : Generate.Invariant s₀.Grows where
  declare := by
    intro s key text h
    have hmore := Declarations.prefix_register s.declarations key text
    exact { h with declarations := h.declarations.trans hmore }
  identify := by
    intro s name h
    have hmore := Registry.extends_identify s.registry name
    exact { h with registry := h.registry.trans hmore }

theorem grows_serve (s : Session) (request : Request) : s.Grows (s.serve request) :=
  (invariant_grows s).serve (.refl s) request

/-- **A session only grows.** Whatever is asked of it, the code of a block, by the rule of its type
or by another, the expression in a socket, also as a text with one to stand in for it, the statements
of a stack, the identifier of a variable or a declaration, and whether it can be given or not: the
declarations that there were are the first of those that there are then, with the same texts, every
name that had an identifier has it still, what was taken is taken, and the options and the names of
the declared variables are the same. -/
theorem only_grows (s : Session) :
    (∀ request, s.Grows (s.serve request)) ∧
    ∀ b socket place fallback, s.Grows (s.perform (Block.socketText b socket place fallback)).2 := by
  refine ⟨s.grows_serve, ?_⟩
  intro b socket place fallback
  exact ((invariant_grows s).socketText b socket place fallback s (.refl s)).1

end Session

end BlockSketch
