import BlockSketch.Proofs.Session.Reads
import BlockSketch.Proofs.Sketch.Lines

/-!
# What is not read does not matter

A saved workspace holds more than its sketch is made of: the identities of blocks, shadows behind
real blocks, settings and sockets of a choice that was made and undone, and blocks below a block that
sits in a socket. All these may be blocks without a rule, with wrong settings or with references to
nothing, and none of it is noticed.

`Workspace.ReadAlike` says that the same is read of two workspaces. Their stacks consist of blocks of
which the same is read (`Block.ReadAlike`), and their variables are the same. What a stack consists of
is told by the blocks that count, so a shadow behind a real block below is not read either.
`Workspace.unread_parts_do_not_matter` says that the sketches are then the same, or the errors are.
-/

namespace BlockSketch

namespace Block

/-- What there is besides the head and the blocks in the sockets is not read. -/
theorem ReadAlike.of_inSocket {b b' : Block} (hhead : b.head = b'.head)
    (hsockets : ∀ socket, Option.Rel ReadAlike (b.inSocket socket) (b'.inSocket socket)) :
    b.ReadAlike b' :=
  .mk (congrArg Head.type hhead) (fun field _ => congrArg (Head.field? · field) hhead)
    fun socket _ => hsockets socket

end Block

namespace Workspace

/-- The same is read of both workspaces: of every block that stands in a stack, and of the
variables. -/
structure ReadAlike (w w' : Workspace) : Prop where
  blocks : List.Forall₂ (fun b b' => List.Forall₂ Block.ReadAlike b.stack b'.stack) w.blocks w'.blocks
  declared : w.declared = w'.declared

variable {w w' : Workspace}

/-- The statements are the same, and so is what comes of making them. -/
theorem ReadAlike.coupled_code (h : w.ReadAlike w') : Generate.Coupled Eq w.code w'.code Eq := by
  have hblocks : List.Forall₂ Block.ReadAlike (w.blocks.flatMap Block.stack)
      (w'.blocks.flatMap Block.stack) :=
    List.rel_flatMap h.blocks fun _ _ hstack => hstack
  rw [code_eq_mapM, code_eq_mapM, ← List.forall₂_eq_eq_eq]
  refine Generate.coupled_mapM hblocks ?_
  intro b b' hb
  exact hb.coupled_code.map fun _ _ hcode => congrArg Code.asStatement hcode

/-- **Unread parts do not matter.** If the same is read of two workspaces, they have the same sketch,
or the same error. They may differ, at any depth, in the identities of blocks, in the shadows behind
real blocks, in sockets and links, in the fields and sockets that a block with its settings does not
read, and in what is below a block in a socket. -/
theorem unread_parts_do_not_matter (h : w.ReadAlike w') (options : Options) :
    w.sketch options = w'.sketch options := by
  have hstart : Session.start w options = Session.start w' options := by
    rw [Session.start, Session.start, h.declared]
  obtain ⟨hsession, hagree⟩ := h.coupled_code _ _ hstart
  rw [sketch, sketch]
  rcases hcode : (Session.start w options).perform w.code with ⟨result, s⟩
  rcases hcode' : (Session.start w' options).perform w'.code with ⟨result', s'⟩
  rw [hcode, hcode'] at hagree hsession
  -- having begun in one session, both have ended in one, and so have one header
  obtain rfl : s = s' := hsession
  rcases hagree.outcomes with ⟨e, rfl, rfl⟩ | ⟨statements, _, rfl, rfl, rfl⟩
  · rfl
  · rfl

/-- A test whether four is even, with a text below it. -/
def tidy : Workspace :=
  let four : Block := ⟨⟨"math_number", [("NUM", .number (.int 4))]⟩, none, [], none⟩
  let hello : Block := ⟨⟨"text", [("TEXT", .string "hello")]⟩, none, [], none⟩
  { blocks :=
      [⟨⟨"math_number_property", [("PROPERTY", .string "EVEN")]⟩, none,
        [("NUMBER_TO_CHECK", ⟨some four, none⟩)], some ⟨some hello, none⟩⟩] }

/-- The same, with identities, with a setting more, and with a block that has no rule wherever none
is read: as the divisor of the test, in a socket of the text, behind the text and the four, and below
the four. -/
def cluttered : Workspace :=
  let lost : Block := ⟨⟨"lost", []⟩, none, [], none⟩
  let four : Block :=
    ⟨⟨"math_number", [("NUM", .number (.int 4))]⟩, some "four", [], some ⟨some lost, none⟩⟩
  let hello : Block :=
    ⟨⟨"text", [("PROPERTY", .null), ("TEXT", .string "hello")]⟩, none, [("TEXT", ⟨lost, none⟩)], none⟩
  { blocks :=
      [⟨⟨"math_number_property", [("PROPERTY", .string "EVEN")]⟩, some "test",
        [("DIVISOR", ⟨some lost, none⟩), ("NUMBER_TO_CHECK", ⟨some four, some lost⟩)],
        some ⟨some hello, some lost⟩⟩] }

theorem readAlike_tidy_cluttered : tidy.ReadAlike cluttered := by
  refine ⟨.cons (.cons ?_ (.cons ?_ .nil)) .nil, rfl⟩
  · refine .mk rfl (fun _ _ => rfl) fun socket hsocket => ?_
    obtain rfl : socket = "NUMBER_TO_CHECK" := List.mem_singleton.mp hsocket
    exact .some (.of_inSocket rfl fun _ => .none)
  · refine .mk rfl (fun field hfield => ?_) fun socket hsocket => absurd hsocket List.not_mem_nil
    obtain rfl : field = "TEXT" := List.mem_singleton.mp hfield
    rfl

/-- The clutter is not in the sketch. -/
theorem clutter_does_not_matter :
    tidy.ReadAlike cluttered ∧ cluttered.sketch {} = tidy.sketch {} ∧
    tidy.sketch {} = .ok (Plan.mathHeader.text ++
      "\nvoid setup() \x7b\n\x7d\n\nvoid loop() \x7b\n  4 % 2 == 0;\n  String(\"hello\");\n\x7d\n") :=
  ⟨readAlike_tidy_cluttered, (unread_parts_do_not_matter readAlike_tidy_cluttered {}).symm,
    by decide +kernel⟩

end Workspace

end BlockSketch
