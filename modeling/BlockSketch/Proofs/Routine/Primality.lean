import BlockSketch.Plan.Number
import BlockSketch.Proofs.Routine.Run
import Mathlib.Data.Nat.Prime.Basic

/-!
# The test for prime numbers

Sketches that test for prime numbers define a function for it, `Plan.primeTest`. It is read as the
routine `primality`, and what a call of that gives is told for every real number
(`primeTest_returns_iff`): one for prime numbers and zero for all others, numbers with a fraction
and numbers below two among them.

* The routine refuses what is no whole number from two on, and settles two, three and their
  multiples at once.
* What is left is searched for a divisor next to a multiple of six. There is one in reach of the
  root if and only if the number is not prime (`not_prime_iff`): the least divisor is prime, and so
  it is next to a multiple of six, and no number in reach is divided by itself.
* `run_search` is an induction on the rounds that are left. What it carries is that no divisor has
  been passed over.
-/

namespace BlockSketch.Routine

/-! ### The parts of the test -/

/-- Returns a truth value, in a block of its own. -/
def answer (b : Bool) : Action :=
  .scope (.seq (.give (.truth b)) .skip)

/-- Whether two numbers are equal. -/
def equals (a b : Term) : Term :=
  .operation (.basic .equal) a b

/-- Whether a number divides another one. -/
def divides (d a : Term) : Term :=
  equals (.operation (.basic .rem) a d) (.number 0)

/-- Whether the argument is no whole number from two on. -/
def isRefused : Term :=
  .operation .either
    (.operation .either (.call "isnan" (.name "n"))
      (.operation .unequal (.name "n") (.call "floor" (.name "n"))))
    (.operation (.basic .less) (.name "n") (.number 2))

/-- Whether the number is two or three. -/
def isTwoOrThree : Term :=
  .operation .either (equals (.name "k") (.number 2)) (equals (.name "k") (.number 3))

/-- Whether two or three divides the number. -/
def hasSmallDivisor : Term :=
  .operation .either (divides (.number 2) (.name "k")) (divides (.number 3) (.name "k"))

/-- Whether a neighbour of `x` divides the number. -/
def hasNeighbour : Term :=
  .operation .either (divides (.operation (.basic .sub) (.name "x") (.number 1)) (.name "k"))
    (divides (.operation (.basic .add) (.name "x") (.number 1)) (.name "k"))

/-- Whether `x` is at most one more than the root of the number. -/
def isInReach : Term :=
  .operation .atMost (.name "x")
    (.operation (.basic .add) (.call "sqrt" (.name "n")) (.number 1))

/-- A round of the search, with the step to the next one. -/
def round : Action :=
  .seq (.scope (.seq (.branch hasNeighbour (answer false)) .skip)) (.increase "x" (.number 6))

/-- The search for a divisor next to a multiple of six. -/
def search : Action :=
  .loop isInReach round

/-- The search for a divisor of a whole number from two on. -/
def trialDivision : Action :=
  .seq (.branch isTwoOrThree (answer true))
    (.seq (.branch hasSmallDivisor (answer false))
      (.seq (.scope (.seq (.declare .long "x" (.number 6)) search))
        (.seq (.give (.truth true)) .skip)))

/-- The test for prime numbers. -/
def primality : Routine where
  kind := .bool
  name := "mathIsPrime"
  parameterKind := .double
  parameter := "n"
  body :=
    .seq (.branch isRefused (answer false))
      (.seq (.declare .long "k" (.convert .long (.name "n"))) trialDivision)

/-- The text of the test, line by line. -/
theorem toList_primeTest :
    Plan.primeTest.text.toList = Plan.primeTestLines.flatMap fun line => line.toList ++ ['\n'] := by
  rw [Plan.primeTest, String.toList_join, List.flatMap_map]
  simp

/-- The test in the sketch is this routine. -/
theorem read_primeTest : read Plan.primeTest.text.toList = some primality := by
  rw [toList_primeTest]
  decide +kernel

theorem run_answer (b : Bool) (env : Env) :
    (answer b).Run env (.gives (.truth (b = true))) :=
  .scopeGives (.seqGives (.give rfl))

/-! ### The neighbours of multiples of six -/

/-- `6 * i - 1` is not above the root of `k`. -/
def Reaches (k i : ℕ) : Prop :=
  (6 * i - 1 : ℤ) ^ 2 ≤ k

/-- A neighbour of the multiple of six divides `k`. -/
def NeighbourDivides (k i : ℕ) : Prop :=
  (6 * i - 1 : ℤ) ∣ k ∨ (6 * i + 1 : ℤ) ∣ k

theorem Reaches.of_le {k i j : ℕ} (h : Reaches k j) (hi : 1 ≤ i) (hij : i ≤ j) : Reaches k i := by
  refine le_trans ?_ h
  have : (1 : ℤ) ≤ i := by exact_mod_cast hi
  have : (i : ℤ) ≤ j := by exact_mod_cast hij
  exact pow_le_pow_left₀ (by omega) (by omega) 2

theorem Reaches.lt {k i : ℕ} (h : Reaches k i) (hi : 1 ≤ i) : i < k := by
  rw [Reaches] at h
  have hi : (1 : ℤ) ≤ i := by exact_mod_cast hi
  have : (i : ℤ) < k := by nlinarith
  exact_mod_cast this

/-- Larger prime numbers are divided by neither two nor three. -/
theorem not_dvd_of_prime {p : ℕ} (hp : p.Prime) (hsmall : ¬ (p = 2 ∨ p = 3)) :
    ¬ (2 ∣ p ∨ 3 ∣ p) := by
  rintro (hdvd | hdvd)
  · exact hsmall (.inl ((Nat.prime_dvd_prime_iff_eq Nat.prime_two hp).mp hdvd).symm)
  · exact hsmall (.inr ((Nat.prime_dvd_prime_iff_eq Nat.prime_three hp).mp hdvd).symm)

/-- A prime number that is neither two nor three is next to a multiple of six. -/
theorem exists_neighbour_of_prime {p : ℕ} (hp : p.Prime) (hsmall : ¬ (p = 2 ∨ p = 3)) :
    ∃ i : ℕ, 1 ≤ i ∧ (p = 6 * i - 1 ∨ p = 6 * i + 1) := by
  obtain ⟨htwo, hthree⟩ := not_or.mp (not_dvd_of_prime hp hsmall)
  have hrest : p % 6 ≠ 3 := fun h => hthree (by omega)
  have := hp.two_le
  by_cases h : p % 6 = 1
  · exact ⟨p / 6, by omega, by omega⟩
  · exact ⟨p / 6 + 1, by omega, by omega⟩

/-- **What the search looks for** is there if and only if the number is not prime. -/
theorem not_prime_iff {k : ℕ} (hk : 2 ≤ k) (hsmall : ¬ (2 ∣ k ∨ 3 ∣ k)) :
    ¬ k.Prime ↔ ∃ i, 1 ≤ i ∧ Reaches k i ∧ NeighbourDivides k i := by
  constructor
  · intro hprime
    have hfac := Nat.minFac_prime (n := k) (by omega)
    have hsq := Nat.minFac_sq_le_self (n := k) (by omega) hprime
    have hdvd := Nat.minFac_dvd k
    obtain ⟨i, hi, hp⟩ := exists_neighbour_of_prime hfac (by
      rintro (htwo | hthree)
      · exact hsmall (.inl (htwo ▸ hdvd))
      · exact hsmall (.inr (hthree ▸ hdvd)))
    refine ⟨i, hi, ?_, ?_⟩
    · have hle : (6 * i - 1 : ℤ) ≤ k.minFac := by omega
      have hsq : (k.minFac : ℤ) ^ 2 ≤ k := by exact_mod_cast hsq
      exact (pow_le_pow_left₀ (by omega) hle 2).trans hsq
    · have hdvd : (k.minFac : ℤ) ∣ k := by exact_mod_cast hdvd
      rcases hp with hp | hp
      · exact .inl (by convert hdvd using 1; omega)
      · exact .inr (by convert hdvd using 1; omega)
  · rintro ⟨i, hi, hreach, hdvd⟩ hprime
    rw [Reaches] at hreach
    have hi : (1 : ℤ) ≤ i := by exact_mod_cast hi
    have hdivisor (d : ℤ) (hone : 1 < d) (hd : d ∣ k) : d = k := by
      lift d to ℕ using by omega
      have hd : d ∣ k := by exact_mod_cast hd
      have := (Nat.dvd_prime hprime).mp hd
      omega
    -- a divisor above one is the number itself, and the root of that is too small to be reached
    rcases hdvd with hdvd | hdvd
    · have := hdivisor _ (by omega) hdvd
      nlinarith
    · have := hdivisor _ (by omega) hdvd
      nlinarith

/-! ### Conditions -/

/-- The variables when a call begins. -/
def given (n : ℝ) : Env :=
  [("n", .double, .float n)]

/-- The variables when the argument is known to be a whole number. -/
def dividing (k : ℕ) : Env :=
  ("k", .long, .int k) :: given k

/-- The variables in the search, at a multiple of six. -/
def searching (k i : ℕ) : Env :=
  ("x", .long, .int (6 * i)) :: dividing k

theorem decides_equals {a b : Term} {env : Env} {m n : ℤ} (ha : a.value env = some (.int m))
    (hb : b.value env = some (.int n)) : (equals a b).Decides env (m = n) :=
  (Term.Decides.equal ha hb).congr Int.cast_inj

theorem decides_divides {a d : Term} {env : Env} {m n : ℤ} (ha : a.value env = some (.int m))
    (hd : d.value env = some (.int n)) (hn : n ≠ 0) : (divides d a).Decides env (n ∣ m) := by
  refine (decides_equals (m := m.tmod n) (n := 0) ?_ rfl).congr ?_
  · exact (Term.value_operation (.basic .rem) ha hd).trans (if_neg hn)
  · exact Int.dvd_iff_tmod_eq_zero.symm

theorem decides_isRefused (n : ℝ) :
    isRefused.Decides (given n) (n ≠ ⌊n⌋ ∨ n < 2) := by
  have hname : (Term.name "n").value (given n) = some (.float n) := rfl
  have hnan : (Term.call "isnan" (.name "n")).Decides (given n) False := .of_truth rfl
  have hfloor : (Term.call "floor" (.name "n")).value (given n) = some (.float ⌊n⌋) := rfl
  exact ((hnan.either (.unequal hname hfloor)).either (.less hname rfl)).congr (by simp)

theorem decides_isTwoOrThree (k : ℕ) : isTwoOrThree.Decides (dividing k) (k = 2 ∨ k = 3) := by
  have hk : (Term.name "k").value (dividing k) = some (.int k) := rfl
  exact ((decides_equals hk (n := 2) rfl).either (decides_equals hk (n := 3) rfl)).congr
    (by norm_cast)

theorem decides_hasSmallDivisor (k : ℕ) :
    hasSmallDivisor.Decides (dividing k) (2 ∣ k ∨ 3 ∣ k) := by
  have hk : (Term.name "k").value (dividing k) = some (.int k) := rfl
  exact ((decides_divides hk (n := 2) rfl two_ne_zero).either
    (decides_divides hk (n := 3) rfl three_ne_zero)).congr (by omega)

theorem decides_isInReach {k i : ℕ} (hi : 1 ≤ i) :
    isInReach.Decides (searching k i) (Reaches k i) := by
  have hroot : (Term.call "sqrt" (.name "n")).value (searching k i) = some (.float √k) :=
    if_pos (Nat.cast_nonneg k)
  have hsum : (Term.operation (.basic .add) (.call "sqrt" (.name "n")) (.number 1)).value
      (searching k i) = some (.float (√k + 1)) :=
    (Term.value_operation (y := .int 1) (.basic .add) hroot rfl).trans
      (by simp [BinaryOp.apply, Scalar.combine])
  refine (Term.Decides.atMost (x := .int (6 * i)) rfl hsum).congr ?_
  have hi : (1 : ℝ) ≤ i := by exact_mod_cast hi
  rw [Scalar.number_int, Scalar.number_float, ← sub_le_iff_le_add, Reaches]
  push_cast
  rw [Real.le_sqrt' (by linarith)]
  norm_cast

theorem decides_hasNeighbour {k i : ℕ} (hi : 1 ≤ i) :
    hasNeighbour.Decides (searching k i) (NeighbourDivides k i) := by
  have hk : (Term.name "k").value (searching k i) = some (.int k) := rfl
  exact (decides_divides hk (n := 6 * i - 1) rfl (by omega)).either
    (decides_divides hk (n := 6 * i + 1) rfl (by omega))

/-! ### Conversions -/

theorem convert_long {a : Scalar ℝ} {m : ℤ} (h : a.number = m) : Kind.long.convert a = .int m := by
  rw [Kind.convert, h, Int.floor_intCast, Int.ceil_intCast, ite_self]

theorem convert_bool_truth (p : Prop) [Decidable p] :
    Kind.bool.convert (.truth p) = .truth p := by
  by_cases hp : p <;> simp [Kind.convert, Scalar.truth, hp]

/-! ### The search -/

/-- The step to the next multiple of six. -/
theorem run_increase (k i : ℕ) :
    (Action.increase "x" (.number 6)).Run (searching k i) (.goes (searching k (i + 1))) := by
  refine .increase (v := .int (6 * i + 6)) rfl ?_
  rw [searching, assign, if_pos rfl, convert_long rfl, searching]
  push_cast
  rw [mul_add, mul_one]

/-- A round of the search that finds nothing. -/
theorem run_round {k i : ℕ} (hi : 1 ≤ i) (h : ¬ NeighbourDivides k i) :
    round.Run (searching k i) (.goes (searching k (i + 1))) := by
  have hbranch : (Action.branch hasNeighbour (answer false)).Run (searching k i)
      (.goes (searching k i)) :=
    .pass ((decides_hasNeighbour hi).congr (iff_false_intro h))
  exact .seq (.scope (.seq hbranch .skip)) (run_increase k i)

/-- A round of the search that finds a divisor. -/
theorem run_round_found {k i : ℕ} (hi : 1 ≤ i) (h : NeighbourDivides k i) :
    round.Run (searching k i) (.gives (.truth (false = true))) :=
  .seqGives (.scopeGives (.seqGives (.branch
    ((decides_hasNeighbour hi).congr (iff_true_intro h)) (run_answer false _))))

/-- **The search ends.** It returns from the routine if there is a divisor to be found from here on,
and goes on behind the loop if not. -/
theorem run_search (k : ℕ) {i : ℕ} (hi : 1 ≤ i) :
    (∃ j, i ≤ j ∧ Reaches k j ∧ NeighbourDivides k j) ∧
        search.Run (searching k i) (.gives (.truth (false = true))) ∨
      (¬ ∃ j, i ≤ j ∧ Reaches k j ∧ NeighbourDivides k j) ∧
        ∃ i', search.Run (searching k i) (.goes (searching k i')) := by
  -- multiples in reach are below `k`, so there are at most so many rounds left
  induction hrounds : k - i using Nat.strong_induction_on generalizing i with
  | _ rounds ih =>
    have hdecides := decides_isInReach (k := k) hi
    by_cases hreach : Reaches k i
    · have hholds := hdecides.congr (iff_true_intro hreach)
      by_cases hfound : NeighbourDivides k i
      · exact .inl ⟨⟨i, le_rfl, hreach, hfound⟩, .loopGives hholds (run_round_found hi hfound)⟩
      have hround := run_round hi hfound
      have hlt := hreach.lt hi
      have hnext : (∃ j, i ≤ j ∧ Reaches k j ∧ NeighbourDivides k j) ↔
          ∃ j, i + 1 ≤ j ∧ Reaches k j ∧ NeighbourDivides k j := by
        refine exists_congr fun j => ⟨fun ⟨hj, h⟩ => ⟨?_, h⟩, fun ⟨hj, h⟩ => ⟨by omega, h⟩⟩
        have hne : i ≠ j := by
          rintro rfl
          exact hfound h.2
        omega
      rw [hnext]
      rcases ih _ (by omega) (i := i + 1) (by omega) rfl with ⟨hexists, hrun⟩ | ⟨hnone, i', hrun⟩
      · exact .inl ⟨hexists, .again hholds hround hrun⟩
      · exact .inr ⟨hnone, i', .again hholds hround hrun⟩
    · have hfails := hdecides.congr (iff_false_intro hreach)
      refine .inr ⟨?_, i, .stop hfails⟩
      rintro ⟨j, hj, hjreach, -⟩
      exact hreach (hjreach.of_le hi hj)

/-! ### The test -/

/-- A whole number from two on is told to be prime or not. -/
theorem run_trialDivision {k : ℕ} (hk : 2 ≤ k) :
    ∃ b : Bool, trialDivision.Run (dividing k) (.gives (.truth (b = true))) ∧
      (b = true ↔ k.Prime) := by
  by_cases hsmall : k = 2 ∨ k = 3
  · have hprime : k.Prime := by
      rcases hsmall with rfl | rfl
      · exact Nat.prime_two
      · exact Nat.prime_three
    refine ⟨true, .seqGives (.branch ?_ (run_answer true _)), iff_of_true rfl hprime⟩
    exact (decides_isTwoOrThree k).congr (iff_true_intro hsmall)
  have hlarge := (decides_isTwoOrThree k).congr (iff_false_intro hsmall)
  by_cases hdvd : 2 ∣ k ∨ 3 ∣ k
  · refine ⟨false, .seq (.pass hlarge) (.seqGives (.branch ?_ (run_answer false _))),
      iff_of_false nofun fun hprime => not_dvd_of_prime hprime hsmall hdvd⟩
    exact (decides_hasSmallDivisor k).congr (iff_true_intro hdvd)
  have hnone := (decides_hasSmallDivisor k).congr (iff_false_intro hdvd)
  have hdeclare : (Action.declare .long "x" (.number 6)).Run (dividing k)
      (.goes (searching k 1)) := by
    have hsix : Kind.long.convert (.int 6) = .int (6 * (1 : ℕ)) := convert_long rfl
    rw [searching, ← hsix]
    exact .declare rfl
  rcases run_search k le_rfl with ⟨hexists, hrun⟩ | ⟨hnot, i, hrun⟩
  · refine ⟨false, .seq (.pass hlarge) (.seq (.pass hnone) (.seqGives (.scopeGives ?_))),
      iff_of_false nofun ((not_prime_iff hk hdvd).mpr hexists)⟩
    exact .seq hdeclare hrun
  · refine ⟨true, .seq (.pass hlarge) (.seq (.pass hnone) (.seq (.scope (.seq hdeclare hrun)) ?_)),
      iff_of_true rfl (not_not.mp ((not_prime_iff hk hdvd).not.mpr hnot))⟩
    exact .seqGives (.give rfl)

theorem exists_nat_of_not_refused {n : ℝ} (hwhole : n = ⌊n⌋) (htwo : 2 ≤ n) :
    ∃ k : ℕ, 2 ≤ k ∧ n = k := by
  have hfloor : (2 : ℤ) ≤ ⌊n⌋ := Int.le_floor.mpr (by exact_mod_cast htwo)
  obtain ⟨k, hk⟩ := Int.eq_ofNat_of_zero_le (show 0 ≤ ⌊n⌋ by omega)
  refine ⟨k, by omega, ?_⟩
  calc n = (⌊n⌋ : ℝ) := hwhole
    _ = k := by rw [hk, Int.cast_natCast]

/-- A whole number is kept as it is. -/
theorem run_declare (k : ℕ) :
    (Action.declare .long "k" (.convert .long (.name "n"))).Run (given k) (.goes (dividing k)) := by
  have hlong : Kind.long.convert (.float (k : ℝ)) = .int k :=
    convert_long (Int.cast_natCast k).symm
  have hvalue : (Term.convert .long (.name "n")).value (given k) = some (.int k) :=
    congrArg some hlong
  have hrun : (Action.declare .long "k" (.convert .long (.name "n"))).Run (given k)
      (.goes (("k", .long, Kind.long.convert (.int k)) :: given k)) := .declare hvalue
  rwa [convert_long rfl] at hrun

/-- The test gives a truth value for every number. -/
theorem exists_primality_returns (n : ℝ) :
    ∃ b : Bool, primality.Returns (.float n) (.truth (b = true)) ∧
      (b = true ↔ ∃ p : ℕ, p.Prime ∧ n = p) := by
  have hrefused := decides_isRefused n
  by_cases h : n ≠ ⌊n⌋ ∨ n < 2
  · refine ⟨false, ⟨.truth (false = true), .seqGives (.branch ?_ (run_answer false _)),
      (convert_bool_truth _).symm⟩, iff_of_false nofun ?_⟩
    · exact hrefused.congr (iff_true_intro h)
    · rintro ⟨p, hp, rfl⟩
      have : (2 : ℝ) ≤ p := by exact_mod_cast hp.two_le
      simp [not_lt.mpr this] at h
  · obtain ⟨hwhole, htwo⟩ := not_or.mp h
    obtain ⟨k, hk, rfl⟩ := exists_nat_of_not_refused (not_not.mp hwhole) (not_lt.mp htwo)
    obtain ⟨b, hrun, hprime⟩ := run_trialDivision hk
    refine ⟨b, ⟨.truth (b = true), .seq (.pass (hrefused.congr (iff_false_intro h)))
      (.seq (run_declare k) hrun), (convert_bool_truth _).symm⟩, by simp [hprime]⟩

open scoped Classical in
/-- **The test for prime numbers is right.** The text of the declaration is a routine, and what a
call of it gives is one for prime numbers and zero for all other numbers. -/
theorem primeTest_returns_iff : ∃ r, read Plan.primeTest.text.toList = some r ∧
    r.name = "mathIsPrime" ∧ ∀ (n : ℝ) (v : Scalar ℝ),
      r.Returns (.float n) v ↔ v = .truth (∃ p : ℕ, p.Prime ∧ n = p) := by
  refine ⟨primality, read_primeTest, rfl, fun n v => ?_⟩
  obtain ⟨b, hreturns, hprime⟩ := exists_primality_returns n
  have htruth : Scalar.truth (b = true) = (Scalar.truth (∃ p : ℕ, p.Prime ∧ n = p) : Scalar ℝ) :=
    Scalar.truth_congr hprime
  rw [← htruth]
  exact ⟨fun hv => hv.unique hreturns, fun hv => hv ▸ hreturns⟩

end BlockSketch.Routine
