import BlockSketch.Json.Printer
import BlockSketch.Json.Reader

/-!
# JSON strings are read back

The printer writes a string between double quotes, with escapes only where they must be: a control
character has an escape of one letter or is spelled in digits. `Reader.stringBody` gets the string
back from either, and ends at the closing quote, whatever stands behind it.
-/

namespace BlockSketch

namespace Reader

variable {α β : Type}

/-! ### The laws of reading -/

/-- What is read second starts where the first ended. -/
theorem run_bind_ok {reader : Reader α} {text rest : List Char} {a : α}
    (h : reader.run text = .ok (a, rest)) (next : α → Reader β) :
    (reader >>= next).run text = (next a).run rest := by
  rw [StateT.run_bind, h]
  rfl

/-- After a fault nothing is read. -/
theorem run_bind_error {reader : Reader α} {text : List Char} {fault : Fault}
    (h : reader.run text = .error fault) (next : α → Reader β) :
    (reader >>= next).run text = .error fault := by
  rw [StateT.run_bind, h]
  rfl

/-- Where no blanks stand, the next character is shown. -/
theorem run_peek {c : Char} (h : isGap c = false) (rest : List Char) :
    peek.run (c :: rest) = .ok (some c, c :: rest) := by
  change Except.ok (((c :: rest).dropWhile isGap).head?, (c :: rest).dropWhile isGap) = _
  rw [List.dropWhile_cons_of_neg (by rw [h]; decide)]
  rfl

theorem run_advance (c : Char) (rest : List Char) : advance.run (c :: rest) = .ok ((), rest) :=
  rfl

/-! ### Escapes -/

/-- The four digits that stand for a control character. -/
theorem codeUnit?_control {n : Nat} (h : n < 0x20) :
    codeUnit? '0' '0' (Json.hexChar (n / 16)) (Json.hexChar (n % 16)) = some n := by
  have hall : ∀ n : Fin 0x20, codeUnit? '0' '0' (Json.hexChar (n.val / 16))
      (Json.hexChar (n.val % 16)) = some n.val := by decide
  exact hall ⟨n, h⟩

theorem codeUnit?_lt {n : Nat} (h : n < 0x20) : isHighHalf n = false ∧ isLowHalf n = false := by
  constructor
  · simp only [isHighHalf, Bool.and_eq_false_iff, decide_eq_false_iff_not]
    omega
  · simp only [isLowHalf, Bool.and_eq_false_iff, decide_eq_false_iff_not]
    omega

/-- A character that is not escaped. -/
theorem escape_of_plain {c : Char} (hquote : c ≠ '"') (hslash : c ≠ '\\')
    (hcontrol : ¬ c.toNat < 0x20) : Json.escape c = [c] := by
  have hne {d : Char} (hd : d.toNat < 0x20) : c ≠ d := by
    rintro rfl
    exact hcontrol hd
  rw [Json.escape, if_neg hquote, if_neg hslash, if_neg (hne (by decide)), if_neg (hne (by decide)),
    if_neg (hne (by decide)), if_neg (hne (by decide)), if_neg (hne (by decide)), if_neg hcontrol]

/-- A control character is written with a letter or in digits. -/
theorem escape_of_control {c : Char} (hcontrol : c.toNat < 0x20) :
    (∃ e, Json.escape c = ['\\', e] ∧ e ≠ 'u' ∧ shortEscape? e = some c) ∨
      Json.escape c =
        ['\\', 'u', '0', '0', Json.hexChar (c.toNat / 16), Json.hexChar (c.toNat % 16)] := by
  have hquote : c ≠ '"' := by
    rintro rfl
    exact absurd hcontrol (by decide)
  have hslash : c ≠ '\\' := by
    rintro rfl
    exact absurd hcontrol (by decide)
  -- five control characters have a letter of their own
  by_cases hback : c = '\x08'
  · subst hback
    exact .inl ⟨'b', rfl, by decide, rfl⟩
  by_cases hform : c = '\x0c'
  · subst hform
    exact .inl ⟨'f', rfl, by decide, rfl⟩
  by_cases hfeed : c = '\n'
  · subst hfeed
    exact .inl ⟨'n', rfl, by decide, rfl⟩
  by_cases hreturn : c = '\r'
  · subst hreturn
    exact .inl ⟨'r', rfl, by decide, rfl⟩
  by_cases htab : c = '\t'
  · subst htab
    exact .inl ⟨'t', rfl, by decide, rfl⟩
  exact .inr (by rw [Json.escape, if_neg hquote, if_neg hslash, if_neg hback, if_neg hform,
    if_neg hfeed, if_neg hreturn, if_neg htab, if_pos hcontrol])

/-! ### The ways a string goes on -/

/-- Without a backslash the string ends, or it goes on with the character that stands there. -/
theorem stringChars_cons {c : Char} (hslash : c ≠ '\\') (rest : List Char) :
    stringChars (c :: rest) =
      if c = '"' then .ok ([], rest)
      else if c.toNat < 0x20 then .error .malformed
      else withChar c (stringChars rest) := by
  rw [stringChars.eq_def]
  simp only [if_neg hslash]

theorem stringChars_quote (rest : List Char) : stringChars ('"' :: rest) = .ok ([], rest) :=
  (stringChars_cons (by decide) rest).trans (if_pos rfl)

/-- A character that stands for itself. -/
theorem stringChars_plain {c : Char} (hquote : c ≠ '"') (hslash : c ≠ '\\')
    (hcontrol : ¬ c.toNat < 0x20) (rest : List Char) :
    stringChars (c :: rest) = withChar c (stringChars rest) :=
  (stringChars_cons hslash rest).trans ((if_neg hquote).trans (if_neg hcontrol))

/-- An escape of one letter. -/
theorem stringChars_short {e c : Char} (hu : e ≠ 'u') (h : shortEscape? e = some c)
    (rest : List Char) : stringChars ('\\' :: e :: rest) = withChar c (stringChars rest) := by
  rw [stringChars.eq_def]
  simp [h, hu]

/-- An escape in digits. -/
theorem stringChars_unit {unit : Nat} {a b c d : Char} (h : codeUnit? a b c d = some unit)
    (hhigh : isHighHalf unit = false) (hlow : isLowHalf unit = false) (rest : List Char) :
    stringChars ('\\' :: 'u' :: a :: b :: c :: d :: rest) =
      withChar (Char.ofNat unit) (stringChars rest) := by
  rw [stringChars.eq_def]
  simp [h, hhigh, hlow]

/-! ### Printed strings -/

/-- Each character is read back, escaped or not. -/
theorem stringChars_escape (c : Char) (rest : List Char) :
    stringChars (Json.escape c ++ rest) = withChar c (stringChars rest) := by
  by_cases hquote : c = '"'
  · subst hquote
    exact stringChars_short (by decide) rfl rest
  by_cases hslash : c = '\\'
  · subst hslash
    exact stringChars_short (by decide) rfl rest
  by_cases hcontrol : c.toNat < 0x20
  · rcases escape_of_control hcontrol with ⟨e, hescape, hu, hshort⟩ | hescape
    · rw [hescape]
      exact stringChars_short hu hshort rest
    · obtain ⟨hhigh, hlow⟩ := codeUnit?_lt hcontrol
      rw [hescape]
      refine (stringChars_unit (codeUnit?_control hcontrol) hhigh hlow rest).trans ?_
      rw [Char.ofNat_toNat]
  · rw [escape_of_plain hquote hslash hcontrol]
    exact stringChars_plain hquote hslash hcontrol rest

/-- A printed string is read back up to its closing quote. -/
theorem stringChars_flatMap (text rest : List Char) :
    stringChars (text.flatMap Json.escape ++ '"' :: rest) = .ok (text, rest) := by
  induction text with
  | nil => exact stringChars_quote rest
  | cons c text ih =>
    rw [List.flatMap_cons, List.append_assoc, stringChars_escape, ih]
    rfl

theorem run_stringBody (s : String) (rest : List Char) :
    stringBody.run (s.toList.flatMap Json.escape ++ '"' :: rest) = .ok (s, rest) := by
  have hchars := stringChars_flatMap s.toList rest
  rw [stringBody]
  simp only [StateT.run_bind, StateT.run_get, StateT.run_lift, pure_bind, hchars]
  change Except.ok (String.ofList s.toList, rest) = _
  rw [String.ofList_toList]

end Reader

end BlockSketch
