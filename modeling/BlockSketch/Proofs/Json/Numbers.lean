import BlockSketch.Proofs.Decimal.Written
import BlockSketch.Proofs.Json.Scalars

/-!
# Number tokens are read

A number token of JSON is a numeral with a minus sign or none, in one of the texts that numerals
have; only zeros may not lead, and there is no plus sign in front. `Json.NumberText` says so, and
whatever has the form of a number is such a text of some numeral (`Json.exists_numberText`). Readers
take the numeral from it (`Reader.run_numeral_text`), and what they make of it is up to
`JsonNumber.ofNumeral?` (`Reader.run_scalar_number`).
-/

namespace BlockSketch

namespace Json

/-- A number token: a numeral in good form, behind a minus sign if it is negative. -/
inductive NumberText (negative : Bool) (n : Numeral) : List Char → Prop
  | signed {text : List Char} : n.Tidy → n.Text text →
      NumberText negative n ((if negative then ['-'] else []) ++ text)

variable {chars : List Char}

theorem exists_digits_of_fractionText (h : FractionText chars) :
    ∃ digits, Numeral.FractionText digits chars := by
  rcases h with rfl | ⟨_, ⟨d, digits, rfl⟩, rfl⟩
  · exact ⟨[], .empty⟩
  · exact ⟨d :: digits, .point d digits⟩

theorem exists_exponent_of_exponentText (h : ExponentText chars) :
    ∃ e, Numeral.ExponentText e chars := by
  rcases h with rfl | ⟨e, sign, _, he, hsign, ⟨d, digits, rfl⟩, rfl⟩
  · exact ⟨none, .empty⟩
  · simp only [List.mem_cons, List.not_mem_nil, or_false] at hsign
    rcases hsign with rfl | rfl | rfl
    · exact ⟨_, .mark d digits he .empty⟩
    · exact ⟨_, .mark d digits he .plus⟩
    · exact ⟨_, .mark d digits he .minus⟩

/-- Whatever has the form of a number is the text of one. -/
theorem exists_numberText (h : NumberForm chars) : ∃ negative n, NumberText negative n chars := by
  obtain ⟨sign, _, _, _, hsign, ⟨d, digits, hlead, rfl⟩, hfraction, hexponent, rfl⟩ := h
  obtain ⟨fraction, hfraction⟩ := exists_digits_of_fractionText hfraction
  obtain ⟨e, hexponent⟩ := exists_exponent_of_exponentText hexponent
  have htidy : Numeral.Tidy ⟨d :: digits, fraction, e⟩ := ⟨d, digits, rfl, hlead⟩
  have htext := Numeral.Text.parts d digits hfraction hexponent
  rcases hsign with rfl | rfl
  · exact ⟨false, _, .signed htidy htext⟩
  · exact ⟨true, _, .signed htidy htext⟩

end Json

namespace Reader

variable {rest chars : List Char} {negative : Bool} {n : Numeral}

theorem NumberEnds.endsDigits (h : NumberEnds rest) : Numeral.EndsDigits rest :=
  fun c hc => ⟨(h c hc).1, (h c hc).2.1⟩

theorem run_exponent_text {e : Option Int} (h : Numeral.ExponentText e chars) (atEnd : Fault)
    (hrest : NumberEnds rest) : (exponent atEnd).run (chars ++ rest) = .ok (e, rest) := by
  cases h with
  | empty => exact run_exponent atEnd hrest
  | @mark m negative sign d digits hmark hsign =>
    have hdigits := run_someDigits d digits atEnd fun c hc => (hrest c hc).1
    have hmark : (m = 'e' || m = 'E') = true := by
      simp only [List.mem_cons, List.not_mem_nil, or_false] at hmark
      simpa using hmark
    have hsigned : Numeral.takeSign (sign ++ (Digits.chars (d :: digits) ++ rest)) =
        (negative, Digits.chars (d :: digits) ++ rest) := hsign.takeSign d _
    rw [List.cons_append, List.append_assoc]
    refine (run_bind_ok (StateT.run_get _) _).trans ?_
    simp only [hmark, if_true, hsigned]
    refine (run_bind_ok rfl _).trans ?_
    exact (run_bind_ok hdigits _).trans rfl

theorem run_fraction_text {digits : List Digit} (h : Numeral.FractionText digits chars)
    (atEnd : Fault) (hrest : Numeral.EndsDigits rest) :
    (fractionDigits atEnd).run (chars ++ rest) = .ok (digits, rest) := by
  cases h with
  | empty => exact run_fractionDigits atEnd fun c hc => (hrest c hc).2
  | point d digits =>
    refine (run_bind_ok (StateT.run_get _) _).trans ?_
    refine (run_bind_ok rfl _).trans ?_
    exact run_someDigits d digits atEnd fun c hc => (hrest c hc).1

/-- **A numeral is taken**, with all that belongs to it. -/
theorem run_numeral_text (htidy : n.Tidy) (h : n.Text chars) (atEnd : Fault)
    (hrest : NumberEnds rest) : (numeral atEnd).run (chars ++ rest) = .ok (n, rest) := by
  cases h with
  | @parts d digits fraction e fractionText exponentText hfraction hexponent =>
    obtain ⟨_, _, hwhole, hlead⟩ := htidy
    obtain ⟨rfl, rfl⟩ := List.cons.inj hwhole
    have hends := hexponent.endsDigits hrest.endsDigits
    rw [List.append_assoc, List.append_assoc]
    refine (run_bind_ok (run_wholeDigits hlead atEnd (hfraction.ends hends)) _).trans ?_
    refine (run_bind_ok (run_fraction_text hfraction atEnd hends) _).trans ?_
    exact (run_bind_ok (run_exponent_text hexponent atEnd hrest) _).trans rfl

/-- A numeral starts with a digit. -/
theorem exists_digit_of_text (h : n.Text chars) : ∃ (d : Digit) (more : List Char),
    chars = d.char :: more := by
  cases h with
  | parts d digits _ _ => exact ⟨d, _, rfl⟩

/-- **A number token is read** as what its numeral makes of it. -/
theorem run_scalar_number (h : Json.NumberText negative n chars) (hrest : Stops rest) :
    ∃ c more, chars = c :: more ∧ StartsScalar c ∧
      scalar.run (chars ++ rest) =
        match JsonNumber.ofNumeral? negative n with
        | some x => .ok (.number x, rest)
        | none => .error .malformed := by
  obtain ⟨htidy, htext⟩ := h
  next text =>
  have hnumber : (number negative).run (text ++ rest) =
      match JsonNumber.ofNumeral? negative n with
      | some x => .ok (x, rest)
      | none => .error .malformed := by
    refine (run_bind_ok (run_numeral_text htidy htext .incomplete hrest.number) _).trans ?_
    cases JsonNumber.ofNumeral? negative n <;> rfl
  have hscalar : (Json.number <$> number negative).run (text ++ rest) =
      match JsonNumber.ofNumeral? negative n with
      | some x => .ok (.number x, rest)
      | none => .error .malformed := by
    rw [StateT.run_map, hnumber]
    cases JsonNumber.ofNumeral? negative n <;> rfl
  cases negative with
  | true =>
    refine ⟨_, _, rfl, by unfold StartsScalar Json.NoStart; decide, ?_⟩
    refine (run_bind_ok (run_peek rfl _) _).trans ?_
    refine (run_bind_ok (run_advance _ _) _).trans ?_
    rw [← map_eq_pure_bind]
    exact hscalar
  | false =>
    obtain ⟨d, more, rfl⟩ := exists_digit_of_text htext
    exact ⟨d.char, more, rfl, startsScalar_digit d, (run_scalar_digit d _).trans hscalar⟩

end Reader

end BlockSketch
