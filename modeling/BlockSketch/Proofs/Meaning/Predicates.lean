import BlockSketch.Proofs.Meaning.Numbers
import BlockSketch.Proofs.Meaning.Valued
import Mathlib.Data.Nat.Prime.Basic

/-!
# Tests of whole numbers

What the tests of a number come to, if the number is a whole one of up to 15 digits
(`Block.test_comes_to`). A number like that is written in plain digits, with a minus sign if it is
negative, and so C takes it for a whole number and has a remainder for it.

* The tests for even and for divisible numbers compare a remainder with zero, and are right whatever
  the signs are.
* The test for odd numbers compares the remainder with one. The remainder of a negative odd number
  is minus one, and so the test does not hold for it (`Block.minusThree_is_not_odd`).
-/

namespace BlockSketch

/-- The property of the number `n`; only one property has to do with `d`. -/
def NumberProperty.Holds (n d : ℤ) : NumberProperty → Prop
  | even => Even n
  | odd => Odd n
  | whole => True
  | positive => 0 < n
  | negative => n < 0
  | divisibleBy => d ∣ n
  | prime => n.toNat.Prime

instance (n d : ℤ) : (p : NumberProperty) → Decidable (p.Holds n d)
  | .even => inferInstanceAs (Decidable (Even n))
  | .odd => inferInstanceAs (Decidable (Odd n))
  | .whole => inferInstanceAs (Decidable True)
  | .positive => inferInstanceAs (Decidable (0 < n))
  | .negative => inferInstanceAs (Decidable (n < 0))
  | .divisibleBy => inferInstanceAs (Decidable (d ∣ n))
  | .prime => inferInstanceAs (Decidable n.toNat.Prime)

/-! ### Whole numbers in code -/

theorem Block.Head.selector_of_text {α : Type} {head : Head} {field word : String} {a : α}
    {ofField? : String → Option α} (htext : head.text field = .ok word)
    (hword : ofField? word = some a) : head.selector field ofField? = .ok a := by
  rw [selector, htext]
  simp only [bind, Except.bind, hword]
  rfl

/-- A double that is a whole number comes to a whole number by type. -/
theorem Tree.value_number {v : Binary64} (hv : v.magnitude.Canonical) {n : ℤ} (h : v.toRat = n)
    (hn : n.natAbs < 10 ^ 15) : (number v).value = some (.scalar (.int n)) := by
  obtain ⟨hmagnitude, hnegative⟩ := v.eq_ofWhole_of_toRat hv h (by omega)
  have hdigits : (numeral (Expr.numberLayout.numeral v.magnitude)).value =
      some (.scalar (.int n.natAbs)) := by
    rw [hmagnitude, Expr.numeral_ofWhole hn]
    exact value_nat _
  rw [number, hnegative]
  by_cases hneg : n < 0
  · rw [if_pos (decide_eq_true hneg), value, hdigits]
    change some (Value.scalar (.int (-(n.natAbs : ℤ)))) = _
    congr 3
    omega
  · rw [if_neg (by simpa using hneg), hdigits]
    congr 3
    omega

/-- A remainder compared with a number. -/
theorem Tree.value_remainderIs {a b : Tree} {m n : ℤ} (ha : a.value = some (.scalar (.int m)))
    (hb : b.value = some (.scalar (.int n))) (hn : n ≠ 0) (rest : ℕ) :
    (binary .equal (binary .rem a b) (nat rest)).value =
      some (.scalar (.truth (m.tmod n = rest))) := by
  rw [value, value_nat, value, ha, hb]
  have hcast : ((m.tmod n : ℤ) : ℚ) = (rest : ℚ) ↔ m.tmod n = rest := by
    rw [← Int.cast_natCast rest, Int.cast_inj]
  simp [Value.scalar?, BinaryOp.apply, Scalar.remainder, hn, Scalar.truth, hcast]

/-- A number compared with zero. -/
theorem Tree.value_sign {a : Tree} {n : ℤ} (ha : a.value = some (.scalar (.int n))) :
    (binary .greater a (nat 0)).value = some (.scalar (.truth (0 < n))) ∧
      (binary .less a (nat 0)).value = some (.scalar (.truth (n < 0))) := by
  constructor <;> (rw [value, value_nat, ha]; simp [Value.scalar?, BinaryOp.apply, Scalar.truth])

/-- The remainder of a division has the sign of the dividend: it is one for odd numbers above zero
alone. -/
theorem tmod_two_eq_one_iff (n : ℤ) : n.tmod 2 = 1 ↔ Odd n ∧ 0 < n := by
  rw [Int.odd_iff]
  rcases Int.le_total 0 n with hn | hn
  · rw [Int.tmod_eq_emod_of_nonneg hn]
    omega
  · have hneg : 0 ≤ (-n).tmod 2 := Int.tmod_nonneg _ (by omega)
    rw [Int.neg_tmod] at hneg
    omega

/-- What the tree of a test comes to, if its numbers come to whole numbers by type. -/
theorem NumberProperty.value_intended {p : NumberProperty} (hp : p ≠ .prime) {a : Tree} {n d : ℤ}
    (ha : a.value = some (.scalar (.int n))) {divisor : Option Tree} (hd : d ≠ 0)
    (hdivisor : p = .divisibleBy →
      ∃ c, divisor = some c ∧ c.value = some (.scalar (.int d))) :
    ∃ t, p.intended a divisor = some t ∧
      t.value = some (.scalar (.truth (p.Holds n d ∧ (p = .odd → 0 < n)))) := by
  have htwo := Tree.value_nat 2
  cases p with
  | even =>
    refine ⟨_, rfl, (Tree.value_remainderIs ha htwo two_ne_zero 0).trans ?_⟩
    simp [Holds, even_iff_two_dvd, Int.dvd_iff_tmod_eq_zero, Scalar.truth]
  | odd =>
    refine ⟨_, rfl, (Tree.value_remainderIs ha htwo two_ne_zero 1).trans ?_⟩
    simp [Holds, tmod_two_eq_one_iff, Scalar.truth]
  | whole =>
    refine ⟨_, rfl, (Tree.value_remainderIs ha (Tree.value_nat 1) one_ne_zero 0).trans ?_⟩
    simp [Holds, Scalar.truth]
  | positive => exact ⟨_, rfl, (Tree.value_sign ha).1.trans (by simp [Holds, Scalar.truth])⟩
  | negative => exact ⟨_, rfl, (Tree.value_sign ha).2.trans (by simp [Holds, Scalar.truth])⟩
  | divisibleBy =>
    obtain ⟨c, rfl, hc⟩ := hdivisor rfl
    refine ⟨_, rfl, (Tree.value_remainderIs ha hc hd 0).trans ?_⟩
    simp [Holds, Int.dvd_iff_tmod_eq_zero, Scalar.truth]
  | prime => exact absurd rfl hp

namespace Block

/-! ### Blocks -/

/-- The block is a number block and has the whole number `n`, however it is written. -/
structure IsNumber (b : Block) (n : ℤ) : Prop where
  type : b.type = "math_number"
  number : ∃ v, b.head.number "NUM" = .ok v ∧ v.toRat = n

/-- The block tests the number in one socket for a property, by the number in another socket if
there is need of it. -/
structure Tests (b : Block) (p : NumberProperty) (n d : ℤ) : Prop where
  type : b.type = "math_number_property"
  property : b.head.selector "PROPERTY" NumberProperty.ofField? = .ok p
  number : ∃ child, b.inSocket "NUMBER_TO_CHECK" = some child ∧ child.IsNumber n
  divisor : p = .divisibleBy → ∃ child, b.inSocket "DIVISOR" = some child ∧ child.IsNumber d

theorem IsNumber.valued {b : Block} {n : ℤ} (h : b.IsNumber n) (names : Table String) :
    b.Valued names := by
  obtain ⟨v, hv, -⟩ := h.number
  exact valued_number h.type hv

/-- A number in a socket comes to the number. -/
theorem IsNumber.exists_operand {b child : Block} {n : ℤ} {socket : String}
    (hchild : b.inSocket socket = some child) (h : child.IsNumber n) (hn : n.natAbs < 10 ^ 15)
    (oneBased : Bool) (fallback : Tree) :
    ∃ a, b.operand oneBased socket fallback = some a ∧ a.value = some (.scalar (.int n)) := by
  obtain ⟨v, hv, hrat⟩ := h.number
  refine ⟨_, ?_, Tree.value_number (Head.finite_number hv).toCanonical hrat hn⟩
  rw [operand_of_inSocket hchild, intended_number h.type hv]

variable {b : Block} {p : NumberProperty} {n d : ℤ}

theorem Tests.rule (h : b.Tests p n d) : Rule.ofType? b.type = some .property := by
  rw [h.type]
  rfl

theorem Tests.valued (h : b.Tests p n d) (names : Table String) : b.Valued names := by
  obtain ⟨child, hchild, hnumber⟩ := h.number
  refine valued_of_visits h.rule rfl
    ("NUMBER_TO_CHECK" :: if p = .divisibleBy then ["DIVISOR"] else []) ?_ ?_
  · rw [Rule.visits, h.property]
    cases p <;> rfl
  · refine List.forall_mem_cons.mpr ⟨valued_in_socket hchild (hnumber.valued names), ?_⟩
    split
    · next hp =>
      obtain ⟨divisor, hdivisor, hd⟩ := h.divisor hp
      exact List.forall_mem_singleton.mpr (valued_in_socket hdivisor (hd.valued names))
    · exact List.forall_mem_nil _

/-- What the tree of a test comes to. -/
theorem Tests.exists_intended (h : b.Tests p n d) (hp : p ≠ .prime) (hn : n.natAbs < 10 ^ 15)
    (hd : d.natAbs < 10 ^ 15) (hd₀ : d ≠ 0) (oneBased : Bool) :
    ∃ t, b.intended oneBased = some t ∧
      t.value = some (.scalar (.truth (p.Holds n d ∧ (p = .odd → 0 < n)))) := by
  obtain ⟨child, hchild, hnumber⟩ := h.number
  obtain ⟨a, ha, hvalue⟩ := hnumber.exists_operand hchild hn oneBased (.nat 0)
  have hdivisor : p = .divisibleBy → ∃ c, b.operand oneBased "DIVISOR" (.nat 0) = some c ∧
      c.value = some (.scalar (.int d)) := by
    intro hp
    obtain ⟨divisor, hdivisor, hd'⟩ := h.divisor hp
    exact hd'.exists_operand hdivisor hd oneBased (.nat 0)
  obtain ⟨t, ht, htvalue⟩ := NumberProperty.value_intended hp hvalue hd₀ hdivisor
  refine ⟨t, ?_, htvalue⟩
  rw [intended_eq _ b h.rule, Rule.intended, h.property, ha]
  exact ht

/-! ### Blocks with given numbers -/

/-- A number block. -/
def ofInt (n : ℤ) : Block :=
  ⟨⟨"math_number", [("NUM", .number (.int n))]⟩, none, [], none⟩

theorem isNumber_ofInt (hn : n.natAbs < 2 ^ 53) : (ofInt n).IsNumber n where
  type := rfl
  number := by
    refine ⟨⟨decide (n < 0), .ofWhole n.natAbs⟩, ?_, ?_⟩
    · have hfield : (ofInt n).head.field? "NUM" = some (.number (.int n)) := rfl
      rw [Head.number, hfield]
      simp only [Json.chars, Binary64.ofChars?_int hn]
    · rw [Binary64.toRat, Magnitude.toRat_ofWhole hn, Nat.cast_natAbs]
      rcases lt_or_ge n 0 with hneg | hneg
      · simp [hneg, abs_of_neg hneg]
      · simp [not_lt.mpr hneg, abs_of_nonneg hneg]

/-- A test of a number, with a divisor. -/
def test (word : String) (n d : ℤ) : Block :=
  ⟨⟨"math_number_property", [("PROPERTY", .string word)]⟩, none,
    [("DIVISOR", ⟨some (ofInt d), none⟩), ("NUMBER_TO_CHECK", ⟨some (ofInt n), none⟩)], none⟩

theorem tests_test {word : String} (hword : NumberProperty.ofField? word = some p)
    (hn : n.natAbs < 2 ^ 53) (hd : d.natAbs < 2 ^ 53) : (test word n d).Tests p n d where
  type := rfl
  property := Head.selector_of_text rfl hword
  number := ⟨ofInt n, rfl, isNumber_ofInt hn⟩
  divisor _ := ⟨ofInt d, rfl, isNumber_ofInt hd⟩

/-! ### What tests come to -/

/-- **What a test comes to**: in every session its code is read as an expression that is one if the
number has the property and zero if not, but for negative numbers which are odd. -/
theorem test_comes_to {s : Session} (hs : s.Reachable) (h : b.Tests p n d) (hp : p ≠ .prime)
    (hn : n.natAbs < 10 ^ 15) (hd : d.natAbs < 10 ^ 15) (hd₀ : d ≠ 0) :
    ∃ f t, (s.perform b.code).1 = .ok (.value f) ∧ Tree.read f.text.toList = some t ∧
      t.value = some (.scalar (.truth (p.Holds n d ∧ (p = .odd → 0 < n)))) := by
  obtain ⟨t, ht, hvalue⟩ := h.exists_intended hp hn hd hd₀ s.options.oneBased
  obtain ⟨f, hcode, hread⟩ := (h.valued s.variableNames).code_reads hs ht
  exact ⟨f, t, hcode, hread, hvalue⟩

/-- Signs do not matter to divisibility: `-12` is divisible by `-4`. -/
theorem minusTwelve_is_divisible : (Session.new {}).Reachable ∧
    (test "DIVISIBLE_BY" (-12) (-4)).Tests .divisibleBy (-12) (-4) ∧
    ∃ f t, ((Session.new {}).perform (test "DIVISIBLE_BY" (-12) (-4)).code).1 = .ok (.value f) ∧
      Tree.read f.text.toList = some t ∧ t.value = some (.scalar (.int 1)) :=
  have htests := tests_test rfl (by decide) (by decide)
  ⟨.new {}, htests,
    test_comes_to (.new {}) htests (by decide) (by decide) (by decide) (by decide)⟩

/-- `-3` is odd, but the code `-3 % 2 == 1` that tests it comes to zero. -/
theorem minusThree_is_not_odd : (Session.new {}).Reachable ∧
    (test "ODD" (-3) 1).Tests .odd (-3) 1 ∧ Odd (-3 : ℤ) ∧
    ∃ f t, ((Session.new {}).perform (test "ODD" (-3) 1).code).1 = .ok (.value f) ∧
      f.text = "-3 % 2 == 1" ∧ Tree.read f.text.toList = some t ∧
      t.value = some (.scalar (.int 0)) := by
  have htests : (test "ODD" (-3) 1).Tests .odd (-3) 1 := tests_test rfl (by decide) (by decide)
  obtain ⟨t, ht, hvalue⟩ :=
    htests.exists_intended (by decide) (by decide) (by decide) (by decide) true
  obtain ⟨f, hcode, hread⟩ := (htests.valued []).code_reads (.new {}) ht
  refine ⟨.new {}, htests, by decide, f, t, hcode, ?_, hread, hvalue⟩
  have hf : f = ⟨.binary .equal (.binary .rem (.number ⟨true, .ofWhole 3⟩) (.nat 2)) (.nat 1),
    .equality⟩ := Code.value.inj (Except.ok.inj (hcode.symm.trans rfl))
  rw [hf]
  decide +kernel

end Block

end BlockSketch
