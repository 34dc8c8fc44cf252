import BlockSketch.Decimal.Numeral
import BlockSketch.Proofs.Decimal.Digits

/-!
# How numerals may be written

One numeral has several texts: its exponent may be marked by a small or a capital letter, a plus may
stand in front of the exponent or be left out, and the digits of the exponent may start with zeros.
`Numeral.Text` says which texts a numeral has, as far as it has a digit before the point. Whichever
of them is taken, it is read back as the numeral, with the sign that stands in front of it
(`Numeral.ofChars?_text`).
-/

namespace BlockSketch.Numeral

/-- A sign, if there is one; `true` stands for a minus. -/
inductive SignText : Bool → List Char → Prop
  | empty : SignText false []
  | plus : SignText false ['+']
  | minus : SignText true ['-']

/-- A point with digits, if there is one. -/
inductive FractionText : List Digit → List Char → Prop
  | empty : FractionText [] []
  | point (d : Digit) (digits : List Digit) :
      FractionText (d :: digits) ('.' :: Digits.chars (d :: digits))

/-- An exponent with a sign or without, if there is one. -/
inductive ExponentText : Option Int → List Char → Prop
  | empty : ExponentText none []
  | mark {e : Char} {negative : Bool} {sign : List Char} (d : Digit) (digits : List Digit) :
      e ∈ ['e', 'E'] → SignText negative sign →
      ExponentText
        (some (if negative then -Digits.toNat (d :: digits) else Digits.toNat (d :: digits)))
        (e :: (sign ++ Digits.chars (d :: digits)))

/-- A numeral without a sign. -/
inductive Text : Numeral → List Char → Prop
  | parts (d : Digit) (digits : List Digit) {fraction : List Digit} {e : Option Int}
      {fractionText exponentText : List Char} : FractionText fraction fractionText →
      ExponentText e exponentText → Text ⟨d :: digits, fraction, e⟩
        (Digits.chars (d :: digits) ++ (fractionText ++ exponentText))

variable {negative : Bool} {sign chars rest : List Char} {digits : List Digit} {e : Option Int}
  {n : Numeral}

/-- Nothing that stands here goes on with digits or with a fraction. -/
def EndsDigits (rest : List Char) : Prop :=
  ∀ c ∈ rest.head?, Digit.ofChar? c = none ∧ c ≠ '.'

theorem endsDigits_nil : EndsDigits [] :=
  fun _ hc => nomatch hc

/-! ### Good form -/

/-- The digits before the point are in good form: there are some, and they do not start with a zero
unless it is the only one. -/
def Tidy (n : Numeral) : Prop :=
  ∃ d rest, n.whole = d :: rest ∧ (d = Digit.zero → rest = [])

theorem tidy_ofNat (n : Nat) : (ofNat n).Tidy := by
  obtain ⟨d, rest, hdigits⟩ := List.exists_cons_of_ne_nil (Digits.ofNat_ne_nil n)
  refine ⟨d, rest, hdigits, ?_⟩
  rintro rfl
  exact Digits.ofNat_leading hdigits

/-! ### The parts -/

theorem signText_minus (negative : Bool) : SignText negative (if negative then ['-'] else []) := by
  cases negative
  · exact .empty
  · exact .minus

/-- A sign in front of digits is taken. -/
theorem SignText.takeSign (h : SignText negative sign) (d : Digit) (rest : List Char) :
    Numeral.takeSign (sign ++ d.char :: rest) = (negative, d.char :: rest) := by
  cases h with
  | empty =>
    obtain ⟨hminus, hplus⟩ := (by decide : ∀ d : Digit, d.char ≠ '-' ∧ d.char ≠ '+') d
    exact takeSign.eq_3 _ (fun _ heq => hminus (List.cons.inj heq).1)
      fun _ heq => hplus (List.cons.inj heq).1
  | plus => rfl
  | minus => rfl

/-- An exponent is no part of the digits in front of it. -/
theorem ExponentText.endsDigits (h : ExponentText e chars) (hrest : EndsDigits rest) :
    EndsDigits (chars ++ rest) := by
  cases h with
  | empty => exact hrest
  | @mark m _ sign d digits hmark hsign =>
    intro c hc
    obtain rfl : m = c := Option.some.inj hc
    simp only [List.mem_cons, List.not_mem_nil, or_false] at hmark
    rcases hmark with rfl | rfl <;> decide

/-- A point ends the digits in front of it. -/
theorem FractionText.ends (h : FractionText digits chars) (hrest : EndsDigits rest) :
    ∀ c ∈ (chars ++ rest).head?, Digit.ofChar? c = none := by
  intro c hc
  cases h with
  | empty => exact (hrest c hc).1
  | point d digits =>
    obtain rfl : '.' = c := Option.some.inj hc
    rfl

/-- A fraction is taken. -/
theorem FractionText.takeFraction (h : FractionText digits chars) (hrest : EndsDigits rest) :
    Numeral.takeFraction (chars ++ rest) = (digits, rest) := by
  cases h with
  | empty =>
    cases rest with
    | nil => rfl
    | cons c rest =>
      have hpoint : c ≠ '.' := (hrest c rfl).2
      exact takeFraction.eq_2 _ fun _ heq => hpoint (List.cons.inj heq).1
  | point d digits => exact Digits.take_chars (d :: digits) fun c hc => (hrest c hc).1

/-- The exponent that ends a text is read. -/
theorem ExponentText.exponent? (h : ExponentText e chars) : Numeral.exponent? chars = some e := by
  cases h with
  | empty => rfl
  | @mark m negative sign d digits hmark hsign =>
    have htake : Digits.take (Digits.chars (d :: digits)) = (d :: digits, []) := by
      have htake := Digits.take_chars (d :: digits) (show ∀ c ∈ [].head?, _ from nofun)
      rwa [List.append_nil] at htake
    have hsign : Numeral.takeSign (sign ++ Digits.chars (d :: digits)) =
        (negative, Digits.chars (d :: digits)) := hsign.takeSign d _
    have hmark : (m = 'e' || m = 'E') = true := by
      simp only [List.mem_cons, List.not_mem_nil, or_false] at hmark
      simpa using hmark
    simp only [Numeral.exponent?, hmark, if_true, hsign, htake]

/-! ### The whole -/

/-- **A numeral is read back**, however it is written. -/
theorem ofChars?_text (hsign : SignText negative sign) (h : Text n chars) :
    ofChars? (sign ++ chars) = some (negative, n) := by
  cases h with
  | @parts d digits fraction e fractionText exponentText hfraction hexponent =>
    have hends : EndsDigits exponentText := by
      have hends := hexponent.endsDigits endsDigits_nil
      rwa [List.append_nil] at hends
    have hsign : takeSign (sign ++ (Digits.chars (d :: digits) ++ (fractionText ++ exponentText))) =
        (negative, Digits.chars (d :: digits) ++ (fractionText ++ exponentText)) :=
      hsign.takeSign d _
    have hwhole := Digits.take_chars (d :: digits) (hfraction.ends hends)
    simp only [ofChars?, hsign, hwhole, hfraction.takeFraction hends, hexponent.exponent?,
      List.isEmpty_cons, Bool.false_and, Bool.false_eq_true, if_false, Option.map_some]

theorem text_digits (h : digits ≠ []) : Text { whole := digits } (Digits.chars digits) := by
  obtain ⟨d, digits, rfl⟩ := List.exists_cons_of_ne_nil h
  have htext := Text.parts d digits .empty .empty
  rwa [List.append_nil, List.append_nil] at htext

theorem exponentText_exponentChars {plus : List Char} (hplus : SignText false plus) (e : Int) :
    ExponentText (some e) ('e' :: exponentChars plus e) := by
  obtain ⟨d, digits, hdigits⟩ := List.exists_cons_of_ne_nil (Digits.ofNat_ne_nil e.natAbs)
  have hvalue := Digits.toNat_ofNat e.natAbs
  rw [hdigits] at hvalue
  rw [exponentChars, hdigits]
  by_cases hneg : e < 0
  · have h := ExponentText.mark (e := 'e') d digits (by decide) .minus
    rw [hvalue, if_pos rfl, show -((e.natAbs : Nat) : Int) = e by omega] at h
    rw [if_pos hneg]
    exact h
  · have h := ExponentText.mark (e := 'e') d digits (by decide) hplus
    rw [hvalue, if_neg Bool.false_ne_true, show ((e.natAbs : Nat) : Int) = e by omega] at h
    rw [if_neg hneg]
    exact h

/-- The texts that are printed are texts of the numeral. -/
theorem text_charsWith {plus : List Char} (hplus : SignText false plus) (h : n.whole ≠ []) :
    n.Text (n.charsWith plus) := by
  obtain ⟨whole, fraction, e⟩ := n
  obtain ⟨d, digits, rfl⟩ := List.exists_cons_of_ne_nil h
  have hfraction : FractionText fraction
      (if fraction.isEmpty then [] else '.' :: Digits.chars fraction) := by
    cases fraction with
    | nil => exact .empty
    | cons d digits => exact .point d digits
  rw [charsWith, List.append_assoc]
  refine .parts d digits hfraction ?_
  cases e with
  | none => exact .empty
  | some e => exact exponentText_exponentChars hplus e

end BlockSketch.Numeral
