import Mathlib.Data.Nat.Init
import BlockSketch.Proofs.Decimal.Digits
import BlockSketch.Proofs.Json.Strings

/-!
# What readers make of printed values

`Reader.Reads` says that a reader gets something from a text that stands where a value may stand, and
takes just that text; `Reader.Refuses` says that it ends there with a fault. The laws here are about
scalars: strings, values that may be missing, and integers that are passed over.

The texts are those of the printer, which has no blanks. A value ends where the text ends or goes on
with a comma or a closing bracket, and only there can the end of a number be told.
-/

namespace BlockSketch

namespace Reader

variable {α β : Type}

/-- A value ends here: the text ends or goes on with what may follow a value. -/
def Ended (rest : List Char) : Prop :=
  ∀ c ∈ rest.head?, c = ',' ∨ c = ']' ∨ c = '\x7d'

/-- Wherever `chars` stand as a value, the reader takes them and gets `a`. -/
def Reads (reader : Reader α) (chars : List Char) (a : α) : Prop :=
  ∀ rest, Ended rest → reader.run (chars ++ rest) = .ok (a, rest)

/-- Wherever `chars` stand as a value, the reader ends with a fault. -/
def Refuses (reader : Reader α) (chars : List Char) (fault : Fault) : Prop :=
  ∀ rest, Ended rest → reader.run (chars ++ rest) = .error fault

theorem ended_nil : Ended [] :=
  fun _ hc => nomatch hc

theorem ended_comma (rest : List Char) : Ended (',' :: rest) := by
  intro c hc
  exact .inl (Option.some.inj hc).symm

theorem ended_square (rest : List Char) : Ended (']' :: rest) := by
  intro c hc
  exact .inr (.inl (Option.some.inj hc).symm)

theorem ended_curly (rest : List Char) : Ended ('\x7d' :: rest) := by
  intro c hc
  exact .inr (.inr (Option.some.inj hc).symm)

theorem Reads.map {reader : Reader α} {chars : List Char} {a : α} (h : Reads reader chars a)
    (f : α → β) : Reads (do return f (← reader)) chars (f a) :=
  fun rest hrest => (run_bind_ok (h rest hrest) _).trans rfl

theorem Refuses.map {reader : Reader α} {chars : List Char} {fault : Fault}
    (h : Refuses reader chars fault) (f : α → β) :
    Refuses (do return f (← reader)) chars fault :=
  fun rest hrest => run_bind_error (h rest hrest) _

/-! ### Scalars -/

theorem reads_text (s : String) : Reads text (Json.quoted s) s := by
  intro rest _
  rw [Json.quoted, List.cons_append, List.append_assoc, List.singleton_append]
  refine (run_bind_ok (run_peek rfl _) _).trans ?_
  refine (run_bind_ok (run_advance _ _) _).trans ?_
  exact run_stringBody s rest

/-- A string as a value of any kind. -/
theorem reads_json_string (budget : Nat) (s : String) :
    Reads (json budget) (Json.chars (.string s)) (.string s) := by
  intro rest _
  rw [Json.chars, Json.quoted, List.cons_append, List.append_assoc, List.singleton_append]
  have hscalar : scalar.run ('"' :: (s.toList.flatMap Json.escape ++ '"' :: rest)) =
      .ok (.string s, rest) := by
    refine (run_bind_ok (run_peek rfl _) _).trans ?_
    simp only [Char.reduceEq, if_false, if_true]
    refine (run_bind_ok (run_advance _ _) _).trans ?_
    exact (run_bind_ok (run_stringBody s rest) _).trans rfl
  cases budget with
  | zero => exact (run_bind_ok (run_peek rfl _) _).trans hscalar
  | succ inner => exact (run_bind_ok (run_peek rfl _) _).trans hscalar

/-- What starts with another character than a blank or an `n` is read as it is. -/
theorem run_optional {c : Char} (hgap : isGap c = false) (hnull : c ≠ 'n') (reader : Reader α)
    (rest : List Char) :
    (optional reader).run (c :: rest) = (some <$> reader).run (c :: rest) := by
  refine (run_bind_ok (run_peek hgap rest) _).trans ?_
  split
  · next heq => exact absurd (Option.some.inj heq) hnull
  · rw [map_eq_pure_bind]

/-- A value that may be missing and is there. -/
theorem Reads.optional {reader : Reader α} {c : Char} {more : List Char} {a : α}
    (h : Reads reader (c :: more) a) (hgap : isGap c = false) (hnull : c ≠ 'n') :
    Reads (Reader.optional reader) (c :: more) (some a) := by
  intro rest hrest
  rw [List.cons_append, run_optional hgap hnull, map_eq_pure_bind]
  exact run_bind_ok (h rest hrest) _

theorem Refuses.optional {reader : Reader α} {c : Char} {more : List Char} {fault : Fault}
    (h : Refuses reader (c :: more) fault) (hgap : isGap c = false) (hnull : c ≠ 'n') :
    Refuses (Reader.optional reader) (c :: more) fault := by
  intro rest hrest
  rw [List.cons_append, run_optional hgap hnull, map_eq_pure_bind]
  exact run_bind_error (h rest hrest) _

/-! ### Numbers in passing -/

/-- A number ends here: nothing that stands here could belong to it. -/
def NumberEnds (rest : List Char) : Prop :=
  ∀ c ∈ rest.head?, Digit.ofChar? c = none ∧ c ≠ '.' ∧ c ≠ 'e' ∧ c ≠ 'E'

/-- What ends a value ends a number. -/
theorem Ended.number {rest : List Char} (h : Ended rest) : NumberEnds rest := by
  intro c hc
  rcases h c hc with rfl | rfl | rfl <;> decide

theorem run_someDigits (d : Digit) (digits : List Digit) (atEnd : Fault) {rest : List Char}
    (h : ∀ c ∈ rest.head?, Digit.ofChar? c = none) :
    (someDigits atEnd).run (Digits.chars (d :: digits) ++ rest) = .ok (d :: digits, rest) := by
  refine (run_bind_ok (StateT.run_get _) _).trans ?_
  simp only [Digits.take_chars (d :: digits) h]
  rfl

/-- A zero leads only where it is the only digit. -/
theorem run_wholeDigits {d : Digit} {digits : List Digit} (hlead : d = Digit.zero → digits = [])
    (atEnd : Fault) {rest : List Char} (h : ∀ c ∈ rest.head?, Digit.ofChar? c = none) :
    (wholeDigits atEnd).run (Digits.chars (d :: digits) ++ rest) = .ok (d :: digits, rest) := by
  refine (run_bind_ok (run_someDigits d digits atEnd h) _).trans ?_
  split
  · next heq =>
    obtain ⟨hd, hdigits⟩ := List.cons.inj heq
    rw [hlead hd] at hdigits
    cases hdigits
  · rfl

theorem run_fractionDigits (atEnd : Fault) {rest : List Char} (h : ∀ c ∈ rest.head?, c ≠ '.') :
    (fractionDigits atEnd).run rest = .ok ([], rest) := by
  refine (run_bind_ok (StateT.run_get rest) _).trans ?_
  split
  · exact absurd rfl (h '.' rfl)
  · rfl

theorem run_exponent (atEnd : Fault) {rest : List Char} (h : NumberEnds rest) :
    (exponent atEnd).run rest = .ok (none, rest) := by
  refine (run_bind_ok (StateT.run_get rest) _).trans ?_
  cases rest with
  | nil => rfl
  | cons c rest =>
    obtain ⟨-, -, he, hE⟩ := h c rfl
    have hc : (c = 'e' || c = 'E') = false := by simp [he, hE]
    simp only [hc]
    rfl

/-- Digits that stand alone are a number without point and exponent. -/
theorem run_numeral (n : Nat) (atEnd : Fault) {rest : List Char} (h : NumberEnds rest) :
    (numeral atEnd).run (Digits.chars (Digits.ofNat n) ++ rest) =
      .ok (Numeral.ofNat n, rest) := by
  have hwhole : (wholeDigits atEnd).run (Digits.chars (Digits.ofNat n) ++ rest) =
      .ok (Digits.ofNat n, rest) := by
    obtain ⟨d, digits, hdigits⟩ := List.exists_cons_of_ne_nil (Digits.ofNat_ne_nil n)
    rw [hdigits]
    refine run_wholeDigits (fun hd => ?_) atEnd fun c hc => (h c hc).1
    exact Digits.ofNat_leading (hd ▸ hdigits)
  refine (run_bind_ok hwhole _).trans ?_
  refine (run_bind_ok (run_fractionDigits atEnd fun c hc => (h c hc).2.1) _).trans ?_
  exact (run_bind_ok (run_exponent atEnd h) _).trans rfl

/-- A character that starts a number. -/
def StartsNumber (c : Char) : Prop :=
  c = '-' ∨ ∃ d : Digit, c = d.char

theorem StartsNumber.ne {c e : Char} (h : StartsNumber c) (he : e ≠ '-' ∧ ∀ d : Digit, d.char ≠ e) :
    c ≠ e := by
  rcases h with rfl | ⟨d, rfl⟩
  · exact he.1.symm
  · exact he.2 d

theorem StartsNumber.isGap_eq {c : Char} (h : StartsNumber c) : isGap c = false := by
  rcases h with rfl | ⟨d, rfl⟩
  · rfl
  · exact (by decide : ∀ d : Digit, isGap d.char = false) d

/-- An integer is passed over as a scalar. -/
theorem run_skipScalar_int (k : Int) {rest : List Char} (h : Ended rest) :
    ∃ c more, Json.chars (.number (.int k)) ++ rest = c :: more ∧ StartsNumber c ∧
      skipScalar.run (c :: more) = .ok ((), rest) := by
  have hnumeral := run_numeral k.natAbs .malformed h.number
  obtain ⟨d, digits, hdigits⟩ := List.exists_cons_of_ne_nil (Digits.ofNat_ne_nil k.natAbs)
  rw [Json.chars, JsonNumber.chars]
  by_cases hneg : k < 0
  · rw [if_pos hneg]
    refine ⟨'-', _, rfl, .inl rfl, ?_⟩
    refine (run_bind_ok (run_peek rfl _) _).trans ?_
    simp only [Char.reduceEq, if_false, if_true]
    refine (run_bind_ok (run_advance _ _) _).trans ?_
    exact (run_bind_ok hnumeral _).trans rfl
  · have hstart : StartsNumber d.char := .inr ⟨d, rfl⟩
    have hdigit : d.char.isDigit = true := (by decide : ∀ d : Digit, d.char.isDigit = true) d
    rw [hdigits] at hnumeral
    rw [if_neg hneg, List.nil_append, hdigits]
    refine ⟨d.char, _, rfl, hstart, ?_⟩
    refine (run_bind_ok (run_peek hstart.isGap_eq _) _).trans ?_
    simp only [hstart.ne (e := 'n') (by decide), hstart.ne (e := 't') (by decide),
      hstart.ne (e := 'f') (by decide), hstart.ne (e := '"') (by decide),
      (by decide : ∀ d : Digit, d.char ≠ '-') d, hdigit, if_false, if_true]
    exact (run_bind_ok hnumeral _).trans rfl

/-- An integer is passed over. -/
theorem reads_skip_int (k : Int) : Reads skip (Json.chars (.number (.int k))) () := by
  intro rest hrest
  obtain ⟨c, more, hchars, hc, hskip⟩ := run_skipScalar_int k hrest
  rw [hchars]
  refine (run_bind_ok rfl _).trans ?_
  rw [skipFrom]
  refine (run_bind_ok (?_ : _ = Except.ok (([], true), rest)) _).trans rfl
  refine (run_bind_ok (run_peek hc.isGap_eq more) _).trans ?_
  split
  · next heq => exact absurd (Option.some.inj heq) (hc.ne (by decide))
  · next heq => exact absurd (Option.some.inj heq) (hc.ne (by decide))
  · exact (run_bind_ok hskip _).trans rfl

/-! ### Whole texts -/

/-- A text that is one printed value. -/
theorem Reads.whole {reader : Nat → Reader α} {v : Json} {a : α}
    (h : Reads (reader depth) v.chars a) : whole reader v.text = .ok a := by
  have hrun := h [] ended_nil
  rw [List.append_nil] at hrun
  rw [Reader.whole, Json.text, String.toList_ofList, hrun]
  rfl

theorem Refuses.whole {reader : Nat → Reader α} {v : Json} {fault : Fault}
    (h : Refuses (reader depth) v.chars fault) : whole reader v.text = .error fault := by
  have hrun := h [] ended_nil
  rw [List.append_nil] at hrun
  rw [Reader.whole, Json.text, String.toList_ofList, hrun]
  rfl

end Reader

end BlockSketch
