import BlockSketch.Proofs.Session.History
import BlockSketch.Proofs.Sketch.Requirements

/-!
# Stacks in another order

The stacks of a workspace are written one after the other, each in the session that those before it
left behind, and declarations are kept in the order in which they came. Still the order of the stacks
has no part in the sketch, other than that the lines of the stacks are in it, if the statements refer
to declared variables only:

* A stack becomes the same statements after any others as it does alone
  (`Session.Writes.alone` and `Session.writes_stacks`), since it has no history.
* The keys that are declared in the end are those that the stacks declare when each is alone, in
  whatever order they came. And the keys tell the level, and with it the header
  (`Declarations.IsOwn.atLevel_congr`).

An undeclared name would get its identifier where it comes up first, and so another one in another
order.
-/

namespace BlockSketch

open Plan (mathHeader primeTest)

/-- The statements in the stacks refer to declared variables. Those in sockets may refer to others;
they have no code. -/
def Workspace.RefersToDeclared (w : Workspace) : Prop :=
  ∀ b ∈ w.blocks.flatMap Block.stack, b.isStatement = true → b.head.Denotes "VAR" w.declared

/-- The keys tell the level. -/
theorem Declarations.IsOwn.atLevel_congr {own : List (String × String)} (hown : IsOwn own)
    {n n' : Nat} (h : ∀ key, key ∈ (atLevel own n).keys ↔ key ∈ (atLevel own n').keys) :
    atLevel own n = atLevel own n' := by
  have hheader := h mathHeader.key
  have htest := h primeTest.key
  rw [hown.header_mem, hown.header_mem] at hheader
  rw [hown.test_mem, hown.test_mem] at htest
  rcases n with _ | _ | n <;> rcases n' with _ | _ | n'
  all_goals first | omega | simp [atLevel, required]

namespace Session

variable {w : Workspace} {options : Options} {s s' s₁ : Session}
  {blocks more : List Block} {statements statements' : List Statement}

/-! ### Rows of blocks -/

theorem Writes.append (h : s.Writes blocks statements s₁) (h' : s₁.Writes more statements' s') :
    s.Writes (blocks ++ more) (statements ++ statements') s' := by
  induction h with
  | nil => exact h'
  | cons hcode _ ih => exact .cons hcode (ih h')

/-- The first part of a row comes to its end before the second starts. -/
theorem Writes.split (h : s.Writes (blocks ++ more) statements s') :
    ∃ first rest s₁, s.Writes blocks first s₁ ∧ s₁.Writes more rest s' := by
  induction blocks generalizing s statements with
  | nil => exact ⟨[], statements, s, .nil s, h⟩
  | cons b blocks ih =>
    obtain _ | ⟨hcode, hrest⟩ := h
    obtain ⟨first, rest, s₁, hfirst, hmore⟩ := ih hrest
    exact ⟨_, rest, s₁, .cons hcode hfirst, hmore⟩

theorem Writes.later {s₀ : Session} (h : s.Writes blocks statements s') (hs : Later s₀ s) :
    Later s₀ s' :=
  (h.ensures (Q := fun _ => True) (fun b => (invariant_later s₀).code b) hs).2

/-! ### Stacks by themselves -/

/-- What a stack becomes after the start it becomes later on too, and the other way round. -/
theorem Writes.coupled_declared (hs : Later (start w options) s)
    (hblocks : ∀ b ∈ blocks, b.isStatement = true → b.head.Denotes "VAR" w.declared)
    (statements : List Statement) :
    (∀ s₁, s.Writes blocks statements s₁ → ∃ s₁',
      (start w options).Writes blocks statements s₁' ∧ Ahead (start w options) s s₁ s₁') ∧
    ∀ s₁', (start w options).Writes blocks statements s₁' → ∃ s₁,
      s.Writes blocks statements s₁ ∧ Ahead (start w options) s s₁ s₁' :=
  coupled (fun b hb => coupled_code_declared (hblocks b hb)) hs.ahead statements

/-- If stacks can be written one after the other, each of them can be written alone. -/
theorem Writes.alone {tops : List Block}
    (htops : ∀ b ∈ tops.flatMap Block.stack, b.isStatement = true → b.head.Denotes "VAR" w.declared)
    (hs : Later (start w options) s) (h : s.Writes (tops.flatMap Block.stack) statements s') :
    ∀ b ∈ tops, ∃ group s₁, (start w options).Writes b.stack group s₁ := by
  induction tops generalizing s statements with
  | nil => exact nofun
  | cons b tops ih =>
    rw [List.flatMap_cons] at h htops
    obtain ⟨hfirst, hrest⟩ := List.forall_mem_append.mp htops
    obtain ⟨group, rest, s₁, hb, hmore⟩ := h.split
    obtain ⟨s₁', halone, -⟩ := (Writes.coupled_declared hs hfirst group).1 s₁ hb
    exact List.forall_mem_cons.mpr ⟨⟨group, s₁', halone⟩, ih hrest (hb.later hs) hmore⟩

/-- **Stacks one after the other** become what each becomes alone, and add the keys that each adds
alone. -/
theorem writes_stacks {tops : List Block} {group : Block → List Statement}
    {after : Block → Session}
    (htops : ∀ b ∈ tops.flatMap Block.stack, b.isStatement = true → b.head.Denotes "VAR" w.declared)
    (hgroup : ∀ b ∈ tops, (start w options).Writes b.stack (group b) (after b))
    (hs : Later (start w options) s) :
    ∃ s', s.Writes (tops.flatMap Block.stack) (tops.flatMap group) s' ∧
      ∀ key, key ∈ s'.declarations.keys ↔
        key ∈ s.declarations.keys ∨ ∃ b ∈ tops, key ∈ (after b).declarations.keys := by
  induction tops generalizing s with
  | nil => exact ⟨s, .nil s, by simp⟩
  | cons b tops ih =>
    rw [List.flatMap_cons] at htops
    obtain ⟨hfirst, hrest⟩ := List.forall_mem_append.mp htops
    obtain ⟨hb, hgroup⟩ := List.forall_mem_cons.mp hgroup
    obtain ⟨s₁, hwrites, hahead⟩ := (Writes.coupled_declared hs hfirst (group b)).2 (after b) hb
    obtain ⟨s', hmore, hkeys⟩ := ih hrest hgroup hahead.later
    refine ⟨s', hwrites.append hmore, fun key => ?_⟩
    rw [hkeys, hahead.keys, or_assoc]
    simp

end Session

namespace Workspace

variable {w : Workspace} {options : Options} {blocks : List Block}

/-- If a workspace has a sketch, so has it with its stacks in another order. -/
theorem sketch_reordered_of_ok (hw : w.RefersToDeclared) (hperm : blocks.Perm w.blocks)
    {text : String} (h : w.sketch options = .ok text) :
    ∃ header group,
      (∀ b ∈ w.blocks, ∃ s, (Session.start w options).Writes b.stack (group b) s) ∧
      text = Sketch.lined header options.indent (w.blocks.flatMap group) ∧
      { w with blocks }.sketch options =
        .ok (Sketch.lined header options.indent (blocks.flatMap group)) := by
  obtain ⟨statements, s, hwrites, rfl⟩ := (sketch_eq_ok_iff w options text).mp h
  have hstart := Session.Later.refl (Session.start w options)
  have halone := hwrites.alone hw hstart
  have : Nonempty Session := ⟨s⟩
  choose! group after hgroup using halone
  have hw' : ∀ b ∈ blocks.flatMap Block.stack, b.isStatement = true →
      b.head.Denotes "VAR" w.declared :=
    fun b hb => hw b ((hperm.flatMap_right Block.stack).mem_iff.mp hb)
  obtain ⟨t, hinOrder, hkeys⟩ := Session.writes_stacks hw hgroup hstart
  obtain ⟨t', hreordered, hkeys'⟩ := Session.writes_stacks hw'
    (fun b hb => hgroup b (hperm.mem_iff.mp hb)) hstart
  -- both sessions are at some level, and the same keys are declared
  have hown := Session.isOwn_start w options
  have hlevel : (Session.start w options).declarations =
      .atLevel (Session.start w options).declarations.entries 0 := by
    simp [Declarations.atLevel]
  obtain ⟨n, hn, -⟩ := hinOrder.settled hown hlevel
  obtain ⟨n', hn', -⟩ := hreordered.settled hown hlevel
  have hdeclarations : t.declarations = t'.declarations := by
    rw [hn, hn']
    refine hown.atLevel_congr fun key => ?_
    rw [← hn, ← hn', hkeys, hkeys']
    simp only [hperm.mem_iff]
  have hsame := Session.writes_iff.mp hwrites
  rw [Session.writes_iff.mp hinOrder] at hsame
  obtain ⟨hstatements, rfl⟩ := Prod.mk.inj hsame
  obtain rfl := Except.ok.inj hstatements
  refine ⟨Sketch.header t.declarations, group, fun b hb => ⟨after b, hgroup b hb⟩, rfl, ?_⟩
  exact (sketch_eq_ok_iff _ _ _).mpr ⟨_, t', hreordered, by rw [hdeclarations]⟩

/-- **The order of the stacks does not matter.** Take a workspace whose statements refer to declared
variables, and put its stacks into any other order. It has a sketch then if and only if it had one
before. If so, both sketches have the same header, and there is a group of statements for each
stack, those that it becomes alone, such that the lines of each sketch are those of the groups in the
order of its stacks. -/
theorem sketch_reordered (hw : w.RefersToDeclared) (hperm : blocks.Perm w.blocks)
    (options : Options) :
    ((∃ text, { w with blocks }.sketch options = .ok text) ↔ ∃ text, w.sketch options = .ok text) ∧
    ∀ text, w.sketch options = .ok text → ∃ header group,
      (∀ b ∈ w.blocks, ∃ s, (Session.start w options).Writes b.stack (group b) s) ∧
      text = Sketch.lined header options.indent (w.blocks.flatMap group) ∧
      { w with blocks }.sketch options =
        .ok (Sketch.lined header options.indent (blocks.flatMap group)) := by
  refine ⟨⟨?_, ?_⟩, fun text => sketch_reordered_of_ok hw hperm⟩
  · rintro ⟨text, h⟩
    have hw' : { w with blocks }.RefersToDeclared := fun b hb =>
      hw b ((hperm.flatMap_right Block.stack).mem_iff.mp hb)
    obtain ⟨header, group, -, -, h⟩ := sketch_reordered_of_ok hw' hperm.symm h
    exact ⟨_, h⟩
  · rintro ⟨text, h⟩
    obtain ⟨header, group, -, -, h⟩ := sketch_reordered_of_ok hw hperm h
    exact ⟨_, h⟩

/-- A statement about a variable that is called by its name. -/
def countUp : Block :=
  ⟨⟨"math_change", [("VAR", .string "COUNT")]⟩, none, [], none⟩

/-- A test for prime numbers. -/
def primality : Block :=
  ⟨⟨"math_number_property", [("PROPERTY", .string "PRIME")]⟩, none, [], none⟩

/-- Each of them in a stack of its own. -/
def countingPrimes : Workspace where
  blocks := [countUp, primality]
  declared := [⟨"count", "1", "Number"⟩]

/-- The other way round, the sketch has its two lines the other way round, and nothing else. -/
theorem countingPrimes_reordered :
    countingPrimes.RefersToDeclared ∧ [primality, countUp].Perm countingPrimes.blocks ∧
    ∃ header group,
      countingPrimes.sketch {} = .ok (Sketch.lined header "  " ([countUp, primality].flatMap group)) ∧
      { countingPrimes with blocks := [primality, countUp] }.sketch {} =
        .ok (Sketch.lined header "  " ([primality, countUp].flatMap group)) := by
  have hw : countingPrimes.RefersToDeclared := by
    intro b hb hstatement
    obtain rfl | rfl : b = countUp ∨ b = primality := by
      simpa [countingPrimes, countUp, primality, Block.stack] using hb
    · have hcase : Text.lowercase "count" = Text.lowercase "COUNT" := by decide +kernel
      exact .byName List.mem_cons_self hcase (.inr rfl)
    · cases hstatement
  have hperm : [primality, countUp].Perm countingPrimes.blocks := .swap _ _ _
  have h : countingPrimes.sketch {} = .ok (mathHeader.text ++ "\n" ++ "double count;\n\n" ++
      primeTest.text ++ "\n" ++
      "void setup() \x7b\n\x7d\n\nvoid loop() \x7b\n  count += 0;\n  mathIsPrime(0);\n\x7d\n") := by
    decide +kernel
  obtain ⟨header, group, -, htext, hreordered⟩ := (sketch_reordered hw hperm {}).2 _ h
  exact ⟨hw, hperm, header, group, h.trans (congrArg _ htext), hreordered⟩

end Workspace

end BlockSketch
