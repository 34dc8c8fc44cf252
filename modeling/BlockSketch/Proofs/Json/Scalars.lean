import BlockSketch.Proofs.Json.Loops
import BlockSketch.Proofs.Json.Renderings

/-!
# Scalars are read, however they are written

`Reader.Gets` says that a reader gets a value from a text, with any blanks in front of it and
anything behind it that may follow a value, and takes just that text. Here this is said of strings,
integers and words, and of scalars that are passed over.
-/

namespace BlockSketch

namespace Reader

variable {α β : Type} {gap rest : List Char}

/-! ### Blanks -/

/-- A value may end here: the text ends or goes on with a blank or with what may follow a value. -/
def Stops (rest : List Char) : Prop :=
  ∀ c ∈ rest.head?, isGap c = true ∨ c = ',' ∨ c = ']' ∨ c = '\x7d'

/-- From `chars`, with any blanks in front, the reader gets `a`, and it takes nothing more. -/
def Gets (reader : Reader α) (chars : List Char) (a : α) : Prop :=
  ∀ gap rest, Json.Gap gap → Stops rest → reader.run (gap ++ (chars ++ rest)) = .ok (a, rest)

theorem stops_nil : Stops [] :=
  fun _ hc => nomatch hc

theorem Stops.number (h : Stops rest) : NumberEnds rest := by
  intro c hc
  rcases h c hc with hgap | rfl | rfl | rfl
  · simp only [isGap, Bool.or_eq_true, beq_iff_eq] at hgap
    rcases hgap with ((rfl | rfl) | rfl) | rfl <;> decide
  all_goals decide

theorem isGap_of_mem (h : Json.Gap gap) : ∀ c ∈ gap, isGap c = true := by
  intro c hc
  have hmem := h c hc
  simp only [List.mem_cons, List.not_mem_nil, or_false] at hmem
  rcases hmem with rfl | rfl | rfl | rfl <;> rfl

/-- Blanks are passed over before a character is shown. -/
theorem run_peek_gap (hgap : Json.Gap gap) (text : List Char) :
    peek.run (gap ++ text) = peek.run text := by
  have hdrop : (gap ++ text).dropWhile isGap = text.dropWhile isGap :=
    List.dropWhile_append_of_pos (isGap_of_mem hgap)
  change Except.ok (((gap ++ text).dropWhile isGap).head?, (gap ++ text).dropWhile isGap) = _
  rw [hdrop]
  rfl

theorem run_peek_bind (hgap : Json.Gap gap) (next : Option Char → Reader α) (text : List Char) :
    (peek >>= next).run (gap ++ text) = (peek >>= next).run text := by
  rw [StateT.run_bind, StateT.run_bind, run_peek_gap hgap]

/-- A reader that looks at the next character first gets a value if it gets it without blanks. -/
theorem gets_peek {next : Option Char → Reader α} {chars : List Char} {a : α}
    (h : ∀ rest, Stops rest → (peek >>= next).run (chars ++ rest) = .ok (a, rest)) :
    Gets (peek >>= next) chars a := by
  intro gap rest hgap hrest
  rw [run_peek_bind hgap]
  exact h rest hrest

theorem Gets.map {reader : Reader α} {chars : List Char} {a : α} (h : Gets reader chars a)
    (f : α → β) : Gets (do return f (← reader)) chars (f a) :=
  fun gap rest hgap hrest => (run_bind_ok (h gap rest hgap hrest) _).trans rfl

theorem Gets.into {reader : Reader α} {chars : List Char} {a : α} {b : β}
    (h : Gets reader chars a) (f : α → β) (hf : f a = b) :
    Gets (do return f (← reader)) chars b :=
  hf ▸ h.map f

/-- Without blanks in front. -/
theorem Gets.run {reader : Reader α} {chars : List Char} {a : α} (h : Gets reader chars a)
    (hrest : Stops rest) : reader.run (chars ++ rest) = .ok (a, rest) :=
  h [] rest Json.gap_nil hrest

/-- The text starts as a value does. -/
def Starts (chars : List Char) : Prop :=
  ∃ c more, chars = c :: more ∧ ¬ Json.NoStart c

theorem Starts.append {chars : List Char} (h : Starts chars) (rest : List Char) :
    Starts (chars ++ rest) := by
  obtain ⟨c, more, rfl, hc⟩ := h
  exact ⟨c, more ++ rest, rfl, hc⟩

/-- The reader gets every value that is written as `P` says. -/
structure Understands (reader : Reader α) (P : List Char → α → Prop) : Prop where
  gets {chars : List Char} {a : α} : P chars a → Gets reader chars a
  starts {chars : List Char} {a : α} : P chars a → Starts chars

/-! ### Escapes -/

theorem shortEscape?_of_mem {e c : Char} (h : (e, c) ∈ Json.letters) :
    shortEscape? e = some c ∧ e ≠ 'u' := by
  have hall : ∀ p ∈ Json.letters, shortEscape? p.1 = some p.2 ∧ p.1 ≠ 'u' := by decide
  exact hall (e, c) h

theorem hexDigit?_eq {n : Nat} {c : Char} (h : Json.IsHexDigit n c) : hexDigit? c = some n := by
  obtain ⟨hn, hc⟩ := h
  have hall : ∀ n : Fin 16, hexDigit? (Json.hexChar n) = some n.val ∧
      hexDigit? (Json.hexChar n).toUpper = some n.val := by decide
  obtain ⟨hlower, hupper⟩ := hall ⟨n, hn⟩
  rcases hc with rfl | rfl
  · exact hlower
  · exact hupper

/-- The code unit that is spelled. -/
theorem codeUnit?_eq {unit : Nat} {a b c d : Char} (ha : Json.IsHexDigit (unit / 0x1000) a)
    (hb : Json.IsHexDigit (unit / 0x100 % 16) b) (hc : Json.IsHexDigit (unit / 0x10 % 16) c)
    (hd : Json.IsHexDigit (unit % 16) d) : codeUnit? a b c d = some unit := by
  simp only [codeUnit?, hexDigit?_eq ha, hexDigit?_eq hb, hexDigit?_eq hc, hexDigit?_eq hd]
  change some _ = some unit
  congr 1
  omega

/-- No character is half of a pair. -/
theorem not_half (c : Char) : isHighHalf c.toNat = false ∧ isLowHalf c.toNat = false := by
  have hvalid := c.valid
  simp only [UInt32.isValidChar, Nat.isValidChar] at hvalid
  change c.toNat < _ ∨ _ < c.toNat ∧ c.toNat < _ at hvalid
  simp only [isHighHalf, isLowHalf, Bool.and_eq_false_iff, decide_eq_false_iff_not]
  omega

/-- A character past the first 65536 is put together from its halves. -/
theorem pairChar_eq {c : Char} (h : 0x10000 ≤ c.toNat) :
    isHighHalf (0xD800 + (c.toNat - 0x10000) / 0x400) = true ∧
    isLowHalf (0xDC00 + (c.toNat - 0x10000) % 0x400) = true ∧
    pairChar (0xD800 + (c.toNat - 0x10000) / 0x400) (0xDC00 + (c.toNat - 0x10000) % 0x400) = c := by
  have hvalid := c.valid
  simp only [UInt32.isValidChar, Nat.isValidChar] at hvalid
  change c.toNat < _ ∨ _ < c.toNat ∧ c.toNat < _ at hvalid
  refine ⟨?_, ?_, ?_⟩
  · simp only [isHighHalf, Bool.and_eq_true, decide_eq_true_eq]
    omega
  · simp only [isLowHalf, Bool.and_eq_true, decide_eq_true_eq]
    omega
  · have hvalue : 0x10000 + (0xD800 + (c.toNat - 0x10000) / 0x400 - 0xD800) * 0x400 +
        (0xDC00 + (c.toNat - 0x10000) % 0x400 - 0xDC00) = c.toNat := by omega
    rw [pairChar, hvalue, Char.ofNat_toNat]

/-! ### Strings -/

/-- A character is read back, however it is written. -/
theorem stringChars_charText {c : Char} {piece : List Char} (h : Json.CharText c piece)
    (rest : List Char) : stringChars (piece ++ rest) = withChar c (stringChars rest) := by
  cases h with
  | plain hquote hslash hcontrol =>
    exact stringChars_plain hquote hslash (Nat.not_lt.mpr hcontrol) rest
  | letter hmem =>
    obtain ⟨hshort, hu⟩ := shortEscape?_of_mem hmem
    exact stringChars_short hu hshort rest
  | unit _ hdigits =>
    obtain ⟨a, b, c', d, ha, hb, hc, hd, rfl⟩ := hdigits
    obtain ⟨hhigh, hlow⟩ := not_half c
    refine (stringChars_unit (codeUnit?_eq ha hb hc hd) hhigh hlow rest).trans ?_
    rw [Char.ofNat_toNat]
  | pair hlarge hhigh hlow =>
    obtain ⟨a, b, c', d, ha, hb, hc, hd, rfl⟩ := hhigh
    obtain ⟨e, f, g, k, he, hf, hg, hk, rfl⟩ := hlow
    obtain ⟨hfirst, hsecond, hpair⟩ := pairChar_eq hlarge
    simp only [List.cons_append, List.nil_append]
    rw [stringChars.eq_def]
    simp [codeUnit?_eq ha hb hc hd, codeUnit?_eq he hf hg hk, hfirst, hsecond, hpair]

theorem stringChars_charsText {inside text : List Char} (h : Json.CharsText inside text)
    (rest : List Char) : stringChars (inside ++ '"' :: rest) = .ok (text, rest) := by
  induction h with
  | nil => exact stringChars_quote rest
  | cons hc _ ih =>
    rw [List.append_assoc, stringChars_charText hc, ih]
    rfl

theorem run_stringBody_text {inside : List Char} {s : String} (h : Json.CharsText inside s.toList)
    (rest : List Char) : stringBody.run (inside ++ '"' :: rest) = .ok (s, rest) := by
  have hchars := stringChars_charsText h rest
  rw [stringBody]
  simp only [StateT.run_bind, StateT.run_get, StateT.run_lift, pure_bind, hchars]
  change Except.ok (String.ofList s.toList, rest) = _
  rw [String.ofList_toList]

theorem gets_text {chars : List Char} {s : String} (h : Json.StringText chars s) :
    Gets text chars s := by
  obtain ⟨inside, hinside, rfl⟩ := h
  refine gets_peek fun rest _ => ?_
  rw [List.cons_append, List.append_assoc, List.singleton_append]
  refine (run_bind_ok (run_peek rfl _) _).trans ?_
  refine (run_bind_ok (run_advance _ _) _).trans ?_
  exact run_stringBody_text hinside rest

/-! ### Words -/

theorem run_word (letters rest : List Char) :
    (word letters).run (letters ++ rest) = .ok ((), rest) := by
  induction letters with
  | nil => rfl
  | cons c letters ih =>
    refine (run_bind_ok (StateT.run_get _) _).trans ?_
    simp only [List.cons_append, if_true]
    exact (run_bind_ok rfl _).trans ih

/-- What starts with a character that a word starts with is the word. -/
theorem gets_flag (b : Bool) :
    Gets flag (if b then ['t', 'r', 'u', 'e'] else ['f', 'a', 'l', 's', 'e']) b := by
  cases b with
  | true =>
    refine gets_peek fun rest _ => ?_
    refine (run_bind_ok (run_peek rfl _) _).trans ?_
    exact (run_bind_ok (run_word ['t', 'r', 'u', 'e'] rest) _).trans rfl
  | false =>
    refine gets_peek fun rest _ => ?_
    refine (run_bind_ok (run_peek rfl _) _).trans ?_
    exact (run_bind_ok (run_word ['f', 'a', 'l', 's', 'e'] rest) _).trans rfl

/-! ### Values that may be missing -/

/-- The text starts as a value does that is there. -/
def Present (chars : List Char) : Prop :=
  ∃ c more, chars = c :: more ∧ ¬ Json.NoStart c ∧ c ≠ 'n'

theorem Present.starts {chars : List Char} (h : Present chars) : Starts chars := by
  obtain ⟨c, more, hchars, hstart, -⟩ := h
  exact ⟨c, more, hchars, hstart⟩

/-- A value that may be missing is understood if it is when it is there. -/
theorem understands_optional {reader : Reader α} {P : List Char → α → Prop}
    (hgets : ∀ {chars a}, P chars a → Gets reader chars a)
    (hpresent : ∀ {chars a}, P chars a → Present chars) :
    Understands (optional reader) (Json.OptionText P) where
  gets {chars value} h := by
    cases value with
    | none =>
      obtain rfl : chars = ['n', 'u', 'l', 'l'] := h
      refine gets_peek fun rest _ => ?_
      refine (run_bind_ok (run_peek rfl _) _).trans ?_
      exact (run_bind_ok (run_word ['n', 'u', 'l', 'l'] rest) _).trans rfl
    | some a =>
      obtain ⟨c, more, rfl, hstart, hnull⟩ := hpresent h
      have hgap : isGap c = false := Bool.eq_false_iff.mpr fun h => hstart (.inl h)
      refine gets_peek fun rest hrest => ?_
      refine (run_bind_ok (run_peek hgap _) _).trans ?_
      split
      · next heq => exact absurd (Option.some.inj heq) hnull
      · exact (run_bind_ok ((hgets h).run hrest) _).trans rfl
  starts {chars value} h := by
    cases value with
    | none =>
      obtain rfl : chars = ['n', 'u', 'l', 'l'] := h
      exact ⟨_, _, rfl, by unfold Json.NoStart; decide⟩
    | some a => exact (hpresent h).starts

theorem present_text {chars : List Char} {s : String} (h : Json.StringText chars s) :
    Present chars := by
  obtain ⟨inside, -, rfl⟩ := h
  exact ⟨'"', _, rfl, by unfold Json.NoStart; decide, by decide⟩

theorem understands_text : Understands text Json.StringText :=
  ⟨gets_text, fun h => (present_text h).starts⟩

theorem understands_optional_text :
    Understands (optional text) (Json.OptionText Json.StringText) :=
  understands_optional gets_text present_text

/-! ### Numbers -/

/-- An integer of 64 bits is read as one. -/
theorem ofNumeral?_int {k : Int} (h : Json.IsWord k) :
    JsonNumber.ofNumeral? (decide (k < 0)) (Numeral.ofNat k.natAbs) = some (.int k) := by
  obtain ⟨hlow, hhigh⟩ := h
  have hbound : JsonNumber.wordBound = 2 ^ 64 := rfl
  have hint : JsonNumber.int? (decide (k < 0)) (Numeral.ofNat k.natAbs) = some k := by
    rw [JsonNumber.int?]
    simp only [Numeral.ofNat, List.isEmpty_nil, Option.isNone_none, Bool.and_self, if_true,
      Digits.toNat_ofNat, hbound, decide_eq_true_eq, Bool.and_eq_true]
    by_cases hneg : k < 0
    · rw [if_pos hneg, if_pos (by omega)]
      congr 1
      omega
    · rw [if_neg hneg, if_pos (by omega)]
      congr 1
      omega
  rw [JsonNumber.ofNumeral?, hint]

theorem run_number {k : Int} (h : Json.IsWord k) (hrest : NumberEnds rest) :
    (number (decide (k < 0))).run (Digits.chars (Digits.ofNat k.natAbs) ++ rest) =
      .ok (.int k, rest) := by
  refine (run_bind_ok (run_numeral k.natAbs .incomplete hrest) _).trans ?_
  rw [ofNumeral?_int h]
  rfl

/-- A digit is none of the characters that other values start with. -/
theorem digit_facts (d : Digit) : isGap d.char = false ∧ d.char ≠ 'n' ∧ d.char ≠ 't' ∧
    d.char ≠ 'f' ∧ d.char ≠ '"' ∧ d.char ≠ '-' ∧ d.char ≠ '[' ∧ d.char ≠ '\x7b' ∧
    d.char.isDigit = true :=
  (by decide : ∀ d : Digit, isGap d.char = false ∧ d.char ≠ 'n' ∧ d.char ≠ 't' ∧
    d.char ≠ 'f' ∧ d.char ≠ '"' ∧ d.char ≠ '-' ∧ d.char ≠ '[' ∧ d.char ≠ '\x7b' ∧
    d.char.isDigit = true) d

/-- A character that a scalar starts with. -/
def StartsScalar (c : Char) : Prop :=
  ¬ Json.NoStart c ∧ c ≠ '[' ∧ c ≠ '\x7b'

theorem StartsScalar.isGap_eq {c : Char} (h : StartsScalar c) : isGap c = false :=
  Bool.eq_false_iff.mpr fun hgap => h.1 (.inl hgap)

theorem startsScalar_digit (d : Digit) : StartsScalar d.char := by
  obtain ⟨-, -, -, -, -, -, hsquare, hcurly, -⟩ := digit_facts d
  exact ⟨Json.not_noStart_digit d, hsquare, hcurly⟩

/-- A number without its sign, as a scalar. -/
theorem run_scalar_digit (d : Digit) (more : List Char) :
    scalar.run (d.char :: more) = (Json.number <$> number false).run (d.char :: more) := by
  obtain ⟨hgap, hn, ht, hf, hquote, hminus, -, -, hdigit⟩ := digit_facts d
  refine (run_bind_ok (run_peek hgap _) _).trans ?_
  simp only [if_neg hn, if_neg ht, if_neg hf, if_neg hquote, if_neg hminus, if_pos hdigit]
  rw [map_eq_pure_bind]

/-- **A scalar is read**, however it is written. -/
theorem run_scalar {chars : List Char} {v : Json} (h : Json.ValueText 0 chars v)
    (hrest : Stops rest) :
    ∃ c more, chars = c :: more ∧ StartsScalar c ∧ scalar.run (chars ++ rest) = .ok (v, rest) := by
  cases v with
  | null =>
    obtain rfl : chars = ['n', 'u', 'l', 'l'] := h
    refine ⟨_, _, rfl, by unfold StartsScalar Json.NoStart; decide, ?_⟩
    refine (run_bind_ok (run_peek rfl _) _).trans ?_
    exact (run_bind_ok (run_word ['n', 'u', 'l', 'l'] rest) _).trans rfl
  | bool b =>
    cases b with
    | true =>
      obtain rfl : chars = ['t', 'r', 'u', 'e'] := h
      refine ⟨_, _, rfl, by unfold StartsScalar Json.NoStart; decide, ?_⟩
      refine (run_bind_ok (run_peek rfl _) _).trans ?_
      exact (run_bind_ok (run_word ['t', 'r', 'u', 'e'] rest) _).trans rfl
    | false =>
      obtain rfl : chars = ['f', 'a', 'l', 's', 'e'] := h
      refine ⟨_, _, rfl, by unfold StartsScalar Json.NoStart; decide, ?_⟩
      refine (run_bind_ok (run_peek rfl _) _).trans ?_
      exact (run_bind_ok (run_word ['f', 'a', 'l', 's', 'e'] rest) _).trans rfl
  | string s =>
    obtain ⟨inside, hinside, rfl⟩ := h
    refine ⟨_, _, rfl, by unfold StartsScalar Json.NoStart; decide, ?_⟩
    rw [List.cons_append, List.append_assoc, List.singleton_append]
    refine (run_bind_ok (run_peek rfl _) _).trans ?_
    refine (run_bind_ok (run_advance _ _) _).trans ?_
    exact (run_bind_ok (run_stringBody_text hinside rest) _).trans rfl
  | number n =>
    obtain ⟨k, hk, rfl, rfl⟩ := h
    have hnumber := run_number hk hrest.number
    rw [JsonNumber.chars]
    by_cases hneg : k < 0
    · rw [decide_eq_true hneg] at hnumber
      rw [if_pos hneg]
      refine ⟨_, _, rfl, by unfold StartsScalar Json.NoStart; decide, ?_⟩
      refine (run_bind_ok (run_peek rfl _) _).trans ?_
      refine (run_bind_ok (run_advance _ _) _).trans ?_
      exact (run_bind_ok hnumber _).trans rfl
    · obtain ⟨d, digits, hdigits⟩ := List.exists_cons_of_ne_nil (Digits.ofNat_ne_nil k.natAbs)
      rw [decide_eq_false hneg, hdigits] at hnumber
      rw [if_neg hneg, List.nil_append, hdigits]
      refine ⟨d.char, Digits.chars digits, rfl, startsScalar_digit d, ?_⟩
      refine (run_scalar_digit d _).trans ?_
      rw [map_eq_pure_bind]
      exact (run_bind_ok hnumber _).trans rfl
  | array items => exact h.elim
  | object members => exact h.elim

end Reader

end BlockSketch
