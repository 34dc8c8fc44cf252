import BlockSketch.Proofs.Meaning.Faithful
import BlockSketch.Proofs.Meaning.Value
import BlockSketch.Proofs.Session.Inspection

/-!
# Blocks that have a value

A block is `Block.Valued` if nothing is wrong with it and it is no statement. That is a property of
the block and of the names of the declared variables alone, which is put together along the sockets
(`Block.valued_of_visits`). In every session a block like that becomes a value, and the text of the
value is read as the tree that the block stands for (`Block.Valued.code_reads`). So what such code
comes to is a question about `Block.intended` and `Tree.value`.
-/

namespace BlockSketch

namespace Block

/-- Nothing is wrong with the block, and it is no statement. -/
structure Valued (names : Table String) (b : Block) : Prop where
  inspect : b.inspect names = .ok ()
  isStatement : b.isStatement = false

variable {names : Table String} {b : Block}

/-- A block is valued if its settings can be read and the blocks in its sockets are valued. -/
theorem valued_of_visits {rule : Rule} (hrule : Rule.ofType? b.type = some rule)
    (hmakes : rule.makesStatement = false) (sockets : List String)
    (hvisits : rule.visits b.head = .ok (sockets.map .socket))
    (hsockets : ∀ socket ∈ sockets, ∀ child, b.inSocket socket = some child →
      child.Valued names) : b.Valued names where
  isStatement := by rw [isStatement, hrule, Option.any_some, hmakes]
  inspect := by
    rw [inspect_eq, hrule]
    simp only [hvisits]
    change forM (sockets.map .socket) (b.visit names) = .ok ()
    clear hvisits
    induction sockets with
    | nil => rfl
    | cons socket sockets ih =>
      have hvisit : b.visit names (.socket socket) = .ok () := by
        rw [visit]
        cases hchild : b.inSocket socket with
        | none => rfl
        | some child =>
          have hvalued := hsockets socket List.mem_cons_self child hchild
          simp only [hvalued.inspect, hvalued.isStatement]
          rfl
      rw [List.map_cons, List.forM_cons, hvisit]
      exact ih fun other hother => hsockets other (List.mem_cons_of_mem _ hother)

theorem valued_in_socket {socket : String} {child : Block}
    (hchild : b.inSocket socket = some child) (h : child.Valued names) :
    ∀ other, b.inSocket socket = some other → other.Valued names := by
  intro other hother
  obtain rfl := Option.some.inj (hchild.symm.trans hother)
  exact h

/-- **A valued block becomes a value**, whatever the session is, and its text is read as the tree
that the block stands for. -/
theorem Valued.code_reads {s : Session} (hs : s.Reachable) (h : b.Valued s.variableNames) {t : Tree}
    (ht : b.intended s.options.oneBased = some t) :
    ∃ f, (s.perform b.code).1 = .ok (.value f) ∧ Tree.read f.text.toList = some t := by
  have hforetold := (foretold_code s.variableNames b s rfl).2
  have hmeans := (ensures_means s.options b s ⟨rfl, hs.sound⟩).2
  rw [h.inspect] at hforetold
  rcases hforetold.outcomes with ⟨e, herror, -⟩ | ⟨-, code, -, hcode, hstatement⟩
  · cases herror
  cases code with
  | statement st =>
    rw [h.isStatement] at hstatement
    cases hstatement
  | value f =>
    obtain ⟨t', ht', hf⟩ := hmeans _ hcode
    obtain rfl := Option.some.inj (ht.symm.trans ht')
    refine ⟨f, hcode, ?_⟩
    rw [Fragment.text, Expr.text, String.toList_ofList]
    exact Expr.Means.read hf

/-! ### Sockets and numbers -/

theorem operand_of_inSocket {child : Block} {socket : String} (h : b.inSocket socket = some child)
    (oneBased : Bool) (fallback : Tree) :
    b.operand oneBased socket fallback = child.intended oneBased := by
  rw [operand, h]

variable {v : Binary64} (htype : b.type = "math_number") (hv : b.head.number "NUM" = .ok v)
include htype hv

/-- A block with a number stands for the number. -/
theorem intended_number (oneBased : Bool) : b.intended oneBased = some (.number v) := by
  have hrule : Rule.ofType? b.type = some .number := by rw [htype]; rfl
  rw [intended_eq oneBased b hrule, Rule.intended, hv]
  rfl

theorem valued_number : b.Valued names := by
  have hrule : Rule.ofType? b.type = some .number := by rw [htype]; rfl
  refine valued_of_visits hrule rfl [] ?_ (List.forall_mem_nil _)
  rw [Rule.visits, hv]
  rfl

end Block

/-- A number in plain digits comes to the number. -/
theorem Tree.value_nat (n : ℕ) : (nat n).value = some (.scalar (.int n)) := by
  rw [nat, value, Numeral.scalar_ofNat]

end BlockSketch
