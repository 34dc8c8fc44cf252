import BlockSketch.Proofs.Decimal.Denoted
import BlockSketch.Proofs.Meaning.Means
import BlockSketch.Proofs.Session.Ensures

/-!
# Numbers in code

A number block becomes a literal, and this is what is known of it: its text is that of a numeral,
behind a minus sign exactly if the number is below zero, and C reads it so; what the numeral denotes
is rounded to the number of the block; and where there is neither a point nor an exponent, the
literal is an integer of at most 15 digits.

* `Fragment.Literal` is the list of these properties.
* `Block.number_is_literal` says that number blocks have them, whatever number they hold.
-/

namespace BlockSketch

namespace Numeral

variable {n : Numeral}

/-- A point stands only before fraction digits. -/
theorem fraction_eq_nil (h : '.' ∉ n.chars) : n.fraction = [] := by
  cases hfraction : n.fraction with
  | nil => rfl
  | cons d digits =>
    refine absurd ?_ h
    rw [chars, charsWith, hfraction]
    simp

/-- The mark of an exponent stands only before one. -/
theorem exponent_eq_none (h : 'e' ∉ n.chars) : n.exponent = none := by
  cases hexponent : n.exponent with
  | none => rfl
  | some e =>
    refine absurd ?_ h
    rw [chars, charsWith, hexponent]
    simp

end Numeral

/-! ### Literals -/

/-- The fragment is the number `v`, written as the numeral `n`. -/
structure Fragment.Literal (f : Fragment) (v : Binary64) (n : Numeral) : Prop where
  text_eq : f.text.toList = (if v.toRat < 0 then ['-'] else []) ++ n.chars
  tier_eq : f.tier = if v.toRat < 0 then .unaryPrefix else .atomic
  tidy : n.Tidy
  lex_eq : Token.lex f.text.toList = some ((if v.toRat < 0 then [.minus] else []) ++ [.numeral n])
  /-- what is read is rounded to the number; only a zero loses its sign -/
  roundsTo : Binary64.RoundsTo (if v.toRat < 0 then -n.decimal.toRat else n.decimal.toRat)
    ⟨decide (v.toRat < 0), v.magnitude⟩
  /-- an integer has at most 15 digits, and fits 64 bits -/
  fits : '.' ∉ f.text.toList → 'e' ∉ f.text.toList →
    n = { whole := n.whole } ∧ n.whole.length ≤ 15 ∧ Digits.toNat n.whole < 2 ^ 63

namespace Expr

/-- The numeral in a number, behind its sign. -/
theorem chars_number (v : Binary64) :
    (number v).chars =
      (if v.toRat < 0 then ['-'] else []) ++ (numberLayout.numeral v.magnitude).chars := by
  have hhead : (numberLayout.numeral v.magnitude).chars.head? ≠ some '-' := by
    obtain ⟨d, rest, hwhole⟩ := List.exists_cons_of_ne_nil
      (numberLayout.numeral_whole_ne_nil v.magnitude)
    rw [Numeral.chars, Numeral.charsWith, hwhole]
    exact fun h => Token.char_ne_minus d (Option.some.inj h)
  rw [number, v.isNegative_eq]
  by_cases hneg : v.toRat < 0
  · rw [if_pos hneg, if_pos (decide_eq_true hneg), chars, chars, minusChars, if_neg hhead]
    rfl
  · rw [if_neg hneg, if_neg (by simpa using hneg), chars, List.nil_append]

theorem lex_number (v : Binary64) :
    Token.lex (number v).chars = some ((if v.toRat < 0 then [.minus] else []) ++
      [.numeral (numberLayout.numeral v.magnitude)]) := by
  have hlex := lex_chars (means_number v).spelled (show Token.Breaks [] from trivial)
  rw [List.append_nil, Token.lex, Option.map_some, List.append_nil] at hlex
  rw [hlex, number, v.isNegative_eq]
  by_cases hneg : v.toRat < 0
  · rw [if_pos hneg, if_pos (decide_eq_true hneg)]
    rfl
  · rw [if_neg hneg, if_neg (by simpa using hneg)]
    rfl

end Expr

namespace Fragment

/-- The fragment of a number block. -/
def ofNumber (v : Binary64) : Fragment :=
  ⟨.number v, if v.isNegative then .unaryPrefix else .atomic⟩

/-- The numeral is not zero if the number is not. -/
theorem decimal_pos {v : Binary64} (hv : v.magnitude.Finite) (hneg : v.toRat < 0) :
    0 < (Expr.numberLayout.numeral v.magnitude).decimal.toRat := by
  refine lt_of_le_of_ne (Decimal.toRat_nonneg _) fun hzero => hneg.ne ?_
  have hroundsTo := Expr.numberLayout.roundsTo_numeral hv
  rw [← hzero, ← Magnitude.toRat_zero] at hroundsTo
  rw [← abs_eq_zero, v.abs_toRat, hroundsTo.unique Magnitude.finite_zero.roundsTo,
    Magnitude.toRat_zero]

/-- **Finite doubles become literals.** -/
theorem literal_ofNumber {v : Binary64} (hv : v.magnitude.Finite) :
    (ofNumber v).Literal v (Expr.numberLayout.numeral v.magnitude) := by
  have htext : (ofNumber v).text.toList = (Expr.number v).chars := String.toList_ofList
  have hchars := Expr.chars_number v
  refine ⟨htext.trans hchars, ?_, Expr.numberLayout.tidy_numeral v.magnitude, ?_, ?_, ?_⟩
  · rw [ofNumber, v.isNegative_eq]
    simp only [decide_eq_true_eq]
  · rw [htext, Expr.lex_number]
  · have hroundsTo := Expr.numberLayout.roundsTo_numeral hv
    have hnonneg := (Expr.numberLayout.numeral v.magnitude).decimal.toRat_nonneg
    refine Binary64.roundsTo_of_magnitude ?_ ?_
    · split
      · rwa [abs_neg, abs_of_nonneg hnonneg]
      · rwa [abs_of_nonneg hnonneg]
    · by_cases hneg : v.toRat < 0
      · have hpos := decimal_pos hv hneg
        simp only [hneg, if_true, decide_true, neg_lt_zero, hpos]
      · simp only [hneg, if_false, decide_false, Bool.false_eq_true, hnonneg.not_gt]
  · intro hpoint hmark
    rw [htext, hchars, List.mem_append, not_or] at hpoint hmark
    have hlength := Expr.numberLayout.length_whole_numeral v.magnitude
    refine ⟨?_, hlength, ?_⟩
    · rw [← Numeral.fraction_eq_nil hpoint.2, ← Numeral.exponent_eq_none hmark.2]
    · calc Digits.toNat (Expr.numberLayout.numeral v.magnitude).whole
          < 10 ^ (Expr.numberLayout.numeral v.magnitude).whole.length := Digits.toNat_lt _
        _ ≤ 10 ^ 15 := Nat.pow_le_pow_right (by decide) hlength
        _ < 2 ^ 63 := by decide

end Fragment

/-! ### Number blocks -/

namespace Block

/-- The number in a field is a finite double. -/
theorem Head.finite_number {head : Head} {field : String} {v : Binary64}
    (h : head.number field = .ok v) : v.magnitude.Finite := by
  rw [number] at h
  split at h
  · cases h
  · dsimp only at h
    split at h
    · next hread =>
      obtain rfl := Except.ok.inj h
      exact Binary64.finite_ofChars? hread
    · cases h

variable {b : Block}

/-- A number block becomes its number, and does nothing to the session. -/
theorem perform_number (s : Session) (htype : b.type = "math_number") :
    s.perform b.code =
      ((b.head.number "NUM").map fun v => .value (.ofNumber v), s) := by
  have hrule : Rule.ofType? b.type = some .number := by rw [htype]; rfl
  rw [code_eq, hrule]
  simp only
  rw [Session.perform_apply, Rule.plan]
  cases b.head.number "NUM" <;> rfl

/-- **A number block becomes a literal that denotes its number**, whatever the session is. -/
theorem number_is_literal (s : Session) {v : Binary64} (htype : b.type = "math_number")
    (hv : b.head.number "NUM" = .ok v) :
    ∃ f n, s.perform b.code = (.ok (.value f), s) ∧ f.Literal v n := by
  refine ⟨_, _, ?_, Fragment.literal_ofNumber (Head.finite_number hv)⟩
  rw [perform_number s htype, hv]
  rfl

/-- A block that holds a number. -/
def holding (value : Json) : Block :=
  ⟨⟨"math_number", [("NUM", value)]⟩, none, [], none⟩

/-- A number that is too small for plain digits. -/
theorem smallNumber_is_literal :
    (holding (.string "-25e-8")).head.number "NUM" = .ok ⟨true, ⟨4722366482869645, -74⟩⟩ ∧
      ∃ f n, (Session.new {}).perform (holding (.string "-25e-8")).code =
        (.ok (.value f), Session.new {}) ∧
        f.Literal ⟨true, ⟨4722366482869645, -74⟩⟩ n := by
  have hv : (holding (.string "-25e-8")).head.number "NUM" =
      .ok ⟨true, ⟨4722366482869645, -74⟩⟩ := by rfl
  exact ⟨hv, number_is_literal (Session.new {}) rfl hv⟩

end Block

end BlockSketch
