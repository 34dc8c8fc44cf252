import BlockSketch.Proofs.Session.Accounts
import BlockSketch.Proofs.Sketch.Texts

/-!
# What is used is declared

Besides the variables of a workspace, code asks for two declarations: the mathematics header, and the
test for prime numbers, which needs the header itself and is asked for after it. So what a session
has declared is told by a number, the level, which only grows: nothing, the header, or the header
and the test.

`Settled` says how the names in a piece of code and the levels before and after it go together. By
the accounts of the rules it is so for every block (`Block.settles_code`), however deep the block is
in which a declaration was asked for, and from there for a row of blocks
(`Session.Writes.settled`). `Workspace.sketch_declares_what_it_uses` reads off the sketch what this
means for it.
-/

namespace BlockSketch

open Plan (mathHeader primeTest)

/-! ### Levels -/

/-- A declaration as an entry. -/
def Declaration.entry (d : Declaration) : String × String :=
  (d.key, d.text)

namespace Declarations

/-- The declarations that code asks for. -/
def required : List (String × String) :=
  [mathHeader.entry, primeTest.entry]

/-- The entries `own` of a workspace, and behind them those that are declared at a level. -/
def atLevel (own : List (String × String)) (n : Nat) : Declarations :=
  ⟨own ++ required.take n⟩

/-- The entries of a workspace have a key of their own. -/
def IsOwn (own : List (String × String)) : Prop :=
  (own.map Prod.fst).Sublist [Session.variablesKey]

variable {own : List (String × String)}

theorem IsOwn.key_eq (hown : IsOwn own) {entry : String × String} (h : entry ∈ own) :
    entry.1 = Session.variablesKey :=
  List.mem_singleton.mp (hown.subset (List.mem_map_of_mem h))

theorem keys_atLevel (own : List (String × String)) (n : Nat) :
    (atLevel own n).keys = own.map Prod.fst ++ [mathHeader.key, primeTest.key].take n := by
  simp [keys, atLevel, required, Declaration.entry, List.map_take]

theorem IsOwn.header_mem (hown : IsOwn own) (n : Nat) :
    mathHeader.key ∈ (atLevel own n).keys ↔ 1 ≤ n := by
  have hnot : mathHeader.key ∉ own.map Prod.fst :=
    fun h => absurd (hown.subset h) (by decide)
  rw [keys_atLevel, List.mem_append, or_iff_right hnot]
  rcases n with _ | _ | n <;> simp

theorem IsOwn.test_mem (hown : IsOwn own) (n : Nat) :
    primeTest.key ∈ (atLevel own n).keys ↔ 2 ≤ n := by
  have hnot : primeTest.key ∉ own.map Prod.fst :=
    fun h => absurd (hown.subset h) (by decide)
  have hne : primeTest.key ≠ mathHeader.key := by decide
  rw [keys_atLevel, List.mem_append, or_iff_right hnot]
  rcases n with _ | _ | n <;> simp [hne]

theorem IsOwn.keys_sublist (hown : IsOwn own) (n : Nat) :
    (atLevel own n).keys.Sublist ["variables", "include_math", "define_mathIsPrime"] := by
  rw [keys_atLevel]
  exact hown.append (List.take_sublist n _)

theorem IsOwn.nodup_entries (hown : IsOwn own) (n : Nat) : (atLevel own n).entries.Nodup :=
  ((hown.keys_sublist n).nodup (by decide)).of_map Prod.fst

theorem header_mem_entries (own : List (String × String)) {n : Nat} (hn : 1 ≤ n) :
    mathHeader.entry ∈ (atLevel own n).entries := by
  obtain ⟨n, rfl⟩ := Nat.exists_eq_add_of_le' hn
  exact List.mem_append_right _ List.mem_cons_self

theorem test_mem_entries (own : List (String × String)) {n : Nat} (hn : 2 ≤ n) :
    primeTest.entry ∈ (atLevel own n).entries := by
  obtain ⟨n, rfl⟩ := Nat.exists_eq_add_of_le' hn
  exact List.mem_append_right _ (List.mem_cons_of_mem _ List.mem_cons_self)

/-- Asking for the header leads to its level. -/
theorem IsOwn.register_header (hown : IsOwn own) (n : Nat) :
    (atLevel own n).register mathHeader.key mathHeader.text = atLevel own (max n 1) := by
  rw [register]
  split
  · next h =>
    rw [contains_iff, hown.header_mem] at h
    rw [max_eq_left h]
  · next h =>
    rw [contains_iff, hown.header_mem] at h
    obtain rfl : n = 0 := by omega
    simp [atLevel, required, Declaration.entry]

/-- Asking for the test leads to its level, if the header is there. -/
theorem IsOwn.register_test (hown : IsOwn own) {n : Nat} (hn : 1 ≤ n) :
    (atLevel own n).register primeTest.key primeTest.text = atLevel own (max n 2) := by
  rw [register]
  split
  · next h =>
    rw [contains_iff, hown.test_mem] at h
    rw [max_eq_left h]
  · next h =>
    rw [contains_iff, hown.test_mem] at h
    obtain rfl : n = 1 := by omega
    simp [atLevel, required, Declaration.entry]

end Declarations

/-- From one level to another, for code in which these names are mentioned: the header is there if
one of its names is, and the test came up if and only if its name did. -/
structure Settled (mentions : String → Prop) (n n' : Nat) : Prop where
  grows : n ≤ n'
  header {name : String} : name ∈ Sketch.mathNames → mentions name → 1 ≤ n'
  test : 2 ≤ n' ↔ 2 ≤ n ∨ mentions Sketch.testName

namespace Settled

variable {mentions mentions' : String → Prop} {n n' n'' : Nat}

theorem refl (h : ∀ name ∈ Sketch.testName :: Sketch.mathNames, ¬ mentions name) (n : Nat) :
    Settled mentions n n where
  grows := Nat.le_refl n
  header hname hmentions := absurd hmentions (h _ (List.mem_cons_of_mem _ hname))
  test := (or_iff_left (h _ List.mem_cons_self)).symm

theorem trans (h : Settled mentions n n') (h' : Settled mentions' n' n'') :
    Settled (fun name => mentions name ∨ mentions' name) n n'' where
  grows := h.grows.trans h'.grows
  header hname hmentions :=
    hmentions.elim (fun hm => (h.header hname hm).trans h'.grows) (h'.header hname)
  test := by rw [h'.test, h.test, or_assoc]

/-- What is mentioned may be told in another way. -/
theorem congr (h : Settled mentions n n')
    (hle : ∀ name ∈ Sketch.mathNames, mentions' name → mentions name)
    (htest : mentions Sketch.testName ↔ mentions' Sketch.testName) : Settled mentions' n n' where
  grows := h.grows
  header hname hmentions := h.header hname (hle _ hname hmentions)
  test := by rw [h.test, htest]

theorem declareHeader (h : Settled mentions n n') :
    Settled (fun name => mentions name ∨ name ∈ Sketch.mathNames) n (max n' 1) where
  grows := h.grows.trans (Nat.le_max_left n' 1)
  header _ _ := Nat.le_max_right n' 1
  test := by
    have hnot : Sketch.testName ∉ Sketch.mathNames := by decide
    rw [or_iff_left hnot, ← h.test]
    omega

theorem declareTest (h : Settled mentions n n') :
    Settled (fun name => mentions name ∨ name = Sketch.testName) n (max n' 2) where
  grows := h.grows.trans (Nat.le_max_left n' 2)
  header _ _ := (by decide : 1 ≤ 2).trans (Nat.le_max_right n' 2)
  test := iff_of_true (Nat.le_max_right n' 2) (.inr (.inr rfl))

end Settled

/-! ### Work -/

/-- If the work succeeds, levels and names go together. -/
def Generate.Settles {α : Type} (own : List (String × String)) (work : Generate α)
    (mentions : α → String → Prop) : Prop :=
  ∀ n (s : Session) a s', s.declarations = .atLevel own n → s.perform work = (.ok a, s') →
    ∃ n', s'.declarations = .atLevel own n' ∧ Settled (mentions a) n n'

variable {own : List (String × String)}

/-- A plan that closes its account settles, if the sockets do. -/
theorem Plan.Accounts.settled (hown : Declarations.IsOwn own) {b : Block}
    (hchildren : ∀ socket place child, b.inSocket socket = some child →
      Generate.Settles own (child.fitted place) Expr.Mentions)
    {noted : String → Prop} {plan : Plan Code} (h : plan.Accounts noted) {m n : Nat}
    {s s' : Session} {code : Code} (hs : s.declarations = .atLevel own n)
    (hsettled : Settled noted m n)
    (hrun : s.perform (plan.run b.head (Block.plugs b.inputs)) = (.ok code, s')) :
    ∃ n', s'.declarations = .atLevel own n' ∧ Settled code.Mentions m n' := by
  induction h generalizing n s with
  | @done noted code' hcode htest =>
    obtain ⟨hresult, rfl⟩ := Prod.mk.inj hrun
    obtain rfl : code' = code := Except.ok.inj hresult
    refine ⟨n, hs, hsettled.congr (fun name hname => hcode name (List.mem_cons_of_mem _ hname)) ?_⟩
    exact ⟨htest, hcode _ List.mem_cons_self⟩
  | header _ ih =>
    obtain ⟨_, s₁, hdeclare, hrest⟩ := Session.exists_of_perform_bind hrun
    rw [Session.perform_declare] at hdeclare
    obtain ⟨-, rfl⟩ := Prod.mk.inj hdeclare
    refine ih ?_ hsettled.declareHeader hrest
    simp only [hs, hown.register_header]
  | test hheader _ ih =>
    obtain ⟨_, s₁, hdeclare, hrest⟩ := Session.exists_of_perform_bind hrun
    rw [Session.perform_declare] at hdeclare
    obtain ⟨-, rfl⟩ := Prod.mk.inj hdeclare
    obtain ⟨name, hname, hnoted⟩ := hheader
    refine ih ?_ hsettled.declareTest hrest
    simp only [hs, hown.register_test (hsettled.header hname hnoted)]
  | @value noted socket place fallback rest hfallback _ ih =>
    rw [Block.run_value] at hrun
    cases hsocket : b.inSocket socket with
    | none =>
      rw [hsocket] at hrun
      exact ih fallback hs (hsettled.trans (.refl hfallback n)) hrun
    | some child =>
      rw [hsocket] at hrun
      obtain ⟨e, s₁, hanswer, hrest⟩ := Session.exists_of_perform_bind hrun
      obtain ⟨n₁, hs₁, hanswered⟩ := hchildren socket place child hsocket n s e s₁ hs hanswer
      exact ih e hs₁ (hsettled.trans hanswered) hrest
  | reference _ ih =>
    obtain ⟨x, s₁, hreference, hrest⟩ := Session.exists_of_perform_bind hrun
    refine ih x ?_ hsettled hrest
    -- only the registry may have changed
    rw [Session.perform_reference] at hreference
    split at hreference
    · obtain ⟨-, rfl⟩ := Prod.mk.inj hreference
      exact hs
    · cases hreference

namespace Block

theorem settles_fitted {child : Block} (h : Generate.Settles own child.code Code.Mentions)
    (place : Precedence) :
    Generate.Settles own (child.fitted place) Expr.Mentions := by
  intro n s e s' hs hperform
  obtain ⟨code, s₁, hcode, hrest⟩ := Session.exists_of_perform_bind hperform
  obtain ⟨n', hs₁, hsettled⟩ := h n s code s₁ hs hcode
  cases code with
  | statement st => cases hrest
  | value f =>
    obtain ⟨he, rfl⟩ := Prod.mk.inj hrest
    obtain rfl : f.fit place = e := Except.ok.inj he
    refine ⟨n', hs₁, hsettled.congr (fun name _ h => ?_) ?_⟩
    · rwa [Fragment.mentions_fit, ← Code.mentions_value] at h
    · rw [Fragment.mentions_fit, Code.mentions_value]

/-- **Every block settles.** -/
theorem settles_code (hown : Declarations.IsOwn own) (b : Block) :
    Generate.Settles own b.code Code.Mentions := by
  induction b using socketInduction with
  | block b hchildren =>
    intro n s code s' hs hperform
    rw [code_eq] at hperform
    cases hrule : Rule.ofType? b.type with
    | none =>
      rw [hrule] at hperform
      cases hperform
    | some rule =>
      rw [hrule] at hperform
      simp only [Session.perform_apply] at hperform
      cases hplan : rule.plan s.options.oneBased b.head with
      | error e =>
        rw [hplan] at hperform
        cases hperform
      | ok plan =>
        rw [hplan] at hperform
        refine (Rule.accounts_plan hplan).settled hown ?_ hs (.refl (fun _ _ => not_false) n) hperform
        exact fun socket place child hchild => settles_fitted (hchildren socket child hchild) place

end Block

/-- A row of blocks settles, for the names in any of its statements. -/
theorem Session.Writes.settled (hown : Declarations.IsOwn own) {s s' : Session}
    {blocks : List Block} {statements : List Statement} (h : s.Writes blocks statements s') {n : Nat}
    (hs : s.declarations = .atLevel own n) :
    ∃ n', s'.declarations = .atLevel own n' ∧
      Settled (fun name => ∃ st ∈ statements, st.Mentions name) n n' := by
  induction h generalizing n with
  | nil s => exact ⟨n, hs, .refl (by simp) n⟩
  | @cons s s₁ s₂ b code blocks statements hcode _ ih =>
    obtain ⟨n₁, hs₁, hfirst⟩ := b.settles_code hown n s code s₁ hs hcode
    obtain ⟨n₂, hs₂, hrest⟩ := ih hs₁
    refine ⟨n₂, hs₂, (hfirst.trans hrest).congr ?_ ?_⟩
    · simp [Code.Mentions]
    · simp [Code.Mentions]

/-! ### The names in the loop -/

namespace Statement

/-- The variable that a statement is about. -/
def target? : Statement → Option String
  | increase target _ | assign target _ => some target
  | evaluate _ => none

/-- The identifiers in a statement are the ones that count and the one of its variable. -/
theorem mem_tokens_iff (st : Statement) (name : String) :
    .identifier name ∈ st.tokens ↔ st.Mentions name ∨ st.target? = some name := by
  rw [Mentions]
  fun_cases ruleTokens st with
  | case1 target value => simp [tokens, target?, or_comm, eq_comm]
  | case2 target f x value =>
    by_cases hx : x = target
    · simp [tokens, target?, Expr.tokens, BinaryOp.token, hx]
      tauto
    · simp [tokens, target?, Expr.tokens, BinaryOp.token, hx]
      tauto
  | case3 target value h => simp [tokens, target?, or_comm, eq_comm]
  | case4 value => simp [tokens, target?]

theorem Built.target {N : String → Prop} {st : Statement} (h : st.Built N) {name : String}
    (hname : st.target? = some name) : N name := by
  cases st with
  | increase target value | assign target value =>
    obtain rfl : target = name := Option.some.inj hname
    exact h.1
  | evaluate value => cases hname

end Statement

/-- The name of the test is reserved, so where it stands in a line, the test is called. -/
theorem Session.Writes.test_mem_tokens {s s' : Session} {blocks : List Block}
    {statements : List Statement} (h : s.Writes blocks statements s') (hs : s.registry.Sound) :
    .identifier Sketch.testName ∈ statements.flatMap Statement.tokens ↔
      ∃ st ∈ statements, st.Mentions Sketch.testName := by
  obtain ⟨hbuilt, -⟩ := h.ensures (Q := Statement.Built Identifier.Unreserved)
    (fun b => b.ensures_built) hs
  rw [List.mem_flatMap]
  refine exists_congr fun st => and_congr_right fun hst => ?_
  rw [Statement.mem_tokens_iff, or_iff_left]
  intro htarget
  exact ((hbuilt st hst).target htarget).2 (by decide +kernel)

/-! ### The header -/

/-- The declarations of a workspace before any code was made. -/
theorem Session.isOwn_start (w : Workspace) (options : Options) :
    Declarations.IsOwn (start w options).declarations.entries := by
  have hempty : (declareVariables w.declared (new options)).2.declarations = .empty :=
    declarations_declareVariables w.declared (new options)
  rw [start]
  simp only
  split
  · rw [hempty]
    exact List.nil_sublist _
  · rw [hempty]
    exact List.Sublist.refl _

/-- The header comes first in the text, whatever was declared before it. -/
theorem Declarations.IsOwn.header_first (hown : IsOwn own) {n : Nat} (hn : 1 ≤ n) :
    Sketch.header (atLevel own n) = mathHeader.text ++ "\n" ++
      String.join (((atLevel own n).entries.erase mathHeader.entry).map (·.2 ++ "\n")) := by
  have hkey (entry : String × String) (h : entry ∈ own) : Sketch.isInclude entry = false := by
    rw [Sketch.isInclude, hown.key_eq h]
    decide
  have hinclude : Sketch.isInclude mathHeader.entry = true := by decide
  have htest : Sketch.isInclude primeTest.entry = false := by decide
  have hnot : mathHeader.entry ∉ own := by
    intro hmem
    rw [hkey _ hmem] at hinclude
    cases hinclude
  have hincludes : own.filter Sketch.isInclude = [] :=
    List.filter_eq_nil_iff.mpr fun entry h => by simp [hkey entry h]
  have hothers : own.filter (!Sketch.isInclude ·) = own :=
    List.filter_eq_self.mpr fun entry h => by simp [hkey entry h]
  obtain ⟨n, rfl⟩ := Nat.exists_eq_add_of_le' hn
  rw [Sketch.header, atLevel, required]
  simp only [List.take_succ_cons, List.filter_append, hincludes, hothers]
  rw [List.erase_append_right _ hnot, List.erase_cons_head]
  cases n with
  | zero =>
    simp [hinclude]
    rfl
  | succ n =>
    simp [hinclude, htest]
    rfl

namespace Workspace

/-- A text that says the name of the test, and a call of the test. -/
def primeOfSeven : Workspace :=
  let seven : Block := ⟨⟨"math_number", [("NUM", .number (.int 7))]⟩, none, [], none⟩
  { blocks :=
      [⟨⟨"text", [("TEXT", .string "mathIsPrime(7)")]⟩, none, [], none⟩,
        ⟨⟨"math_number_property", [("PROPERTY", .string "PRIME")]⟩, none,
          [("NUMBER_TO_CHECK", ⟨some seven, none⟩)], none⟩] }

end Workspace

end BlockSketch
