import BlockSketch.Identifier.Registry
import Mathlib.Data.List.Basic

/-!
# Legal identifiers

What C accepts as an identifier, said on characters and without a look at how names are made, and
the fact that everything the registry may hand out is one.

* `Identifier.Legal` is the pattern `[A-Za-z_][A-Za-z0-9_]*`.
* `Identifier.legal_ofName`: the identifier made of a name is legal, whatever the name is.
* `Registry.legal_candidate` and `Registry.candidate_injective`: a legal base stays legal with a
  number behind it, and different numbers give different identifiers.
-/

namespace BlockSketch

namespace Identifier

/-- The letters of ASCII and the underscore. -/
def isLetter (c : Char) : Bool :=
  ('A' ≤ c && c ≤ 'Z') || ('a' ≤ c && c ≤ 'z') || c == '_'

/-- The digits of ASCII. -/
def isDigit (c : Char) : Bool :=
  '0' ≤ c && c ≤ '9'

/-- What may stand in an identifier after its first character. -/
def isWordChar (c : Char) : Bool :=
  isLetter c || isDigit c

/-- A legal identifier: a letter, and after it letters and digits. -/
def Legal (name : String) : Prop :=
  ∃ c rest, name.toList = c :: rest ∧ isLetter c = true ∧ ∀ d ∈ rest, isWordChar d = true

/-- Whether a name is a legal identifier. -/
def isLegal (name : String) : Bool :=
  match name.toList with
  | [] => false
  | c :: rest => isLetter c && rest.all isWordChar

theorem isLegal_iff (name : String) : isLegal name = true ↔ Legal name := by
  rw [isLegal, Legal]
  cases name.toList with
  | nil => simp
  | cons c rest => simp

instance (name : String) : Decidable (Legal name) :=
  decidable_of_iff _ (isLegal_iff name)

theorem isDigit_eq (c : Char) : c.isDigit = isDigit c :=
  rfl

/-- No letter is a digit. -/
theorem isDigit_of_isLetter {c : Char} (h : isLetter c = true) : isDigit c = false := by
  by_cases hunderscore : c = '_'
  · subst hunderscore
    rfl
  · simp only [isLetter, isDigit, Char.le_def] at h ⊢
    grind

/-- The characters that the making of names lets pass are the letters and digits. -/
theorem isPart_eq (c : Char) : isPart c = isWordChar c := by
  unfold isPart isWordChar isLetter isDigit Char.isAlphanum Char.isAlpha Char.isUpper Char.isLower
    Char.isDigit
  simp only [Char.le_def]
  grind

theorem isLetter_of_isPart {c : Char} (hpart : isPart c = true) (hdigit : c.isDigit = false) :
    isLetter c = true := by
  rw [isPart_eq, isWordChar, ← isDigit_eq, hdigit, Bool.or_false] at hpart
  exact hpart

/-- All characters of a legal identifier are letters and digits. -/
theorem isWordChar_of_legal {name : String} (h : Legal name) {c : Char} (hc : c ∈ name.toList) :
    isWordChar c = true := by
  obtain ⟨d, rest, hname, hd, hrest⟩ := h
  rw [hname] at hc
  rcases List.mem_cons.mp hc with rfl | hc
  · rw [isWordChar, hd, Bool.true_or]
  · exact hrest c hc

/-- More letters and digits behind a legal identifier leave it legal. -/
theorem Legal.append {name more : String} (h : Legal name)
    (hmore : ∀ c ∈ more.toList, isWordChar c = true) : Legal (name ++ more) := by
  obtain ⟨c, rest, hname, hc, hrest⟩ := h
  refine ⟨c, rest ++ more.toList, by rw [String.toList_append, hname, List.cons_append], hc, ?_⟩
  intro d hd
  rcases List.mem_append.mp hd with hd | hd
  · exact hrest d hd
  · exact hmore d hd

/-- What may not stand in an identifier has become an underscore, which may. -/
theorem isPart_cleaned (c : Char) : isPart (if isPart c then c else '_') = true := by
  split
  · assumption
  · rfl

/-- **Every name has a legal identifier.** -/
theorem legal_ofName (name : String) : Legal (ofName name) := by
  rw [ofName]
  split
  · exact ⟨'u', ['n', 'n', 'a', 'm', 'e', 'd'], rfl, rfl, List.all_eq_true.mp rfl⟩
  · next c rest hname =>
    simp only
    have hclean : ∀ d ∈ (rest.map fun c => if isPart c then c else '_'), isWordChar d = true := by
      intro d hd
      obtain ⟨e, -, rfl⟩ := List.mem_map.mp hd
      rw [← isPart_eq]
      exact isPart_cleaned e
    split
    · -- a digit in front: the word before it begins with a letter
      refine Legal.append ⟨'m', ['y', '_'], rfl, rfl, List.all_eq_true.mp rfl⟩ ?_
      intro d hd
      rw [String.toList_ofList, List.map_cons] at hd
      rcases List.mem_cons.mp hd with rfl | hd
      · rw [← isPart_eq]
        exact isPart_cleaned c
      · exact hclean d hd
    · next hdigit =>
      refine ⟨_, _, by rw [String.toList_ofList, List.map_cons], ?_, hclean⟩
      refine isLetter_of_isPart (isPart_cleaned c) ?_
      by_cases hpart : isPart c = true
      · simpa [hpart] using hdigit
      · simp [hpart]

end Identifier

namespace Registry

/-- Decimal digits are digits. -/
theorem isDigit_of_mem_toString {n : Nat} {c : Char} (h : c ∈ (toString n).toList) :
    Identifier.isDigit c = true := by
  rw [Nat.toString_eq_repr, Nat.toList_repr] at h
  rw [← Identifier.isDigit_eq]
  exact Nat.isDigit_of_mem_toDigits (by decide) (by decide) h

theorem legal_candidate {base : String} (h : Identifier.Legal base) (k : Nat) :
    Identifier.Legal (candidate base k) := by
  cases k with
  | zero => exact h
  | succ k =>
    refine h.append fun c hc => ?_
    rw [Identifier.isWordChar, isDigit_of_mem_toString hc, Bool.or_true]

/-- Numbers are told apart by their digits. -/
theorem toString_injective {m n : Nat} (h : toString m = toString n) : m = n := by
  have hdigits : Nat.toDigits 10 m = Nat.toDigits 10 n := by
    have hlist := congrArg String.toList h
    rwa [Nat.toString_eq_repr, Nat.toString_eq_repr, Nat.toList_repr, Nat.toList_repr] at hlist
  have hread := congrArg (fun digits => Nat.ofDigitChars 10 digits 0) hdigits
  simpa using hread

/-- No two candidates for one base are the same. -/
theorem candidate_injective (base : String) {i j : Nat}
    (h : candidate base i = candidate base j) : i = j := by
  have hne : ∀ k, base ≠ base ++ toString (k + 2) := by
    intro k hk
    have hlen := congrArg (fun s => s.toList.length) hk
    have hpos : 0 < (Nat.toDigits 10 (k + 2)).length := Nat.length_toDigits_pos
    simp only [String.toList_append, List.length_append, Nat.toString_eq_repr,
      Nat.toList_repr] at hlen
    omega
  cases i with
  | zero =>
    cases j with
    | zero => rfl
    | succ j => exact absurd h (hne j)
  | succ i =>
    cases j with
    | zero => exact absurd h.symm (hne i)
    | succ j =>
      have hnum : toString (i + 2) = toString (j + 2) := by
        have hlist := congrArg String.toList h
        simp only [candidate, String.toList_append] at hlist
        exact String.toList_inj.mp (List.append_cancel_left hlist)
      have := toString_injective hnum
      omega

end Registry

end BlockSketch
