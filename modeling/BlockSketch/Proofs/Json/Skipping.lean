import BlockSketch.Proofs.Json.Numbers

/-!
# Values that are passed over

`Reader.skip` passes over a value without recursion. It works off a list of open brackets, and its
rounds are bounded by the length of the text. So what it does at a value depends on the brackets
around it, and the law has to say when it gets back to them: from the front of a well-formed value it
takes some rounds, no more than the value has characters, and is then where a value has just ended
(`Reader.run_skipFrom`). The brackets around are still the same, however many were opened and closed
in between.
-/

namespace BlockSketch

namespace Reader

variable {rest : List Char}

/-! ### Strings -/

theorem skipChars_form {inside : List Char} (h : Json.CharsForm inside) (rest : List Char) :
    skipChars (inside ++ '"' :: rest) = .ok rest := by
  induction h with
  | nil =>
    rw [List.nil_append, skipChars.eq_def]
    rfl
  | plain hquote hslash hcontrol _ ih =>
    rw [List.cons_append, skipChars.eq_def]
    simp only [if_neg hquote, if_neg hslash, if_neg (Nat.not_lt.mpr hcontrol)]
    exact ih
  | @letter e c chars hmem _ ih =>
    obtain ⟨hshort, hu⟩ := shortEscape?_of_mem hmem
    simp only [List.cons_append]
    rw [skipChars.eq_def]
    simp [hshort, hu, ih]
  | unit hdigits _ ih =>
    obtain ⟨a, b, c, d, ha, hb, hc, hd, rfl⟩ := hdigits
    simp only [List.cons_append, List.nil_append]
    rw [skipChars.eq_def]
    simp [codeUnit?_eq ha hb hc hd, ih]

theorem run_skipString {inside : List Char} (h : Json.CharsForm inside) (rest : List Char) :
    skipString.run (inside ++ '"' :: rest) = .ok ((), rest) := by
  have hchars := skipChars_form h rest
  rw [skipString]
  simp only [StateT.run_bind, StateT.run_get, StateT.run_lift, pure_bind, hchars]
  rfl

/-! ### Scalars -/

/-- What has the form of a scalar. -/
def ScalarForm (chars : List Char) : Prop :=
  chars ∈ Json.words ∨ Json.StringForm chars ∨ Json.NumberForm chars

/-- Digits without a sign are passed over. -/
theorem run_skipScalar_digit {d : Digit} {more : List Char} {n : Numeral}
    (h : (numeral .malformed).run (d.char :: more) = .ok (n, rest)) :
    skipScalar.run (d.char :: more) = .ok ((), rest) := by
  obtain ⟨hgap, hn, ht, hf, hquote, hminus, -, -, hdigit⟩ := digit_facts d
  refine (run_bind_ok (run_peek hgap _) _).trans ?_
  simp only [if_neg hn, if_neg ht, if_neg hf, if_neg hquote, if_neg hminus, if_pos hdigit]
  exact (run_bind_ok h _).trans rfl

/-- Digits with a sign are passed over. -/
theorem run_skipScalar_minus {more : List Char} {n : Numeral}
    (h : (numeral .malformed).run more = .ok (n, rest)) :
    skipScalar.run ('-' :: more) = .ok ((), rest) := by
  refine (run_bind_ok (run_peek rfl _) _).trans ?_
  simp only [Char.reduceEq, if_false, if_true]
  refine (run_bind_ok (run_advance _ _) _).trans ?_
  exact (run_bind_ok h _).trans rfl

/-- **A scalar is passed over.** -/
theorem run_skipScalar {chars : List Char} (h : ScalarForm chars) (hrest : Stops rest) :
    ∃ c more, chars = c :: more ∧ StartsScalar c ∧
      skipScalar.run (chars ++ rest) = .ok ((), rest) := by
  rcases h with hword | ⟨inside, hinside, rfl⟩ | hnumber
  · simp only [Json.words, List.mem_cons, List.not_mem_nil, or_false] at hword
    rcases hword with rfl | rfl | rfl
    · refine ⟨_, _, rfl, by unfold StartsScalar Json.NoStart; decide, ?_⟩
      exact (run_bind_ok (run_peek rfl _) _).trans (run_word ['n', 'u', 'l', 'l'] rest)
    · refine ⟨_, _, rfl, by unfold StartsScalar Json.NoStart; decide, ?_⟩
      exact (run_bind_ok (run_peek rfl _) _).trans (run_word ['t', 'r', 'u', 'e'] rest)
    · refine ⟨_, _, rfl, by unfold StartsScalar Json.NoStart; decide, ?_⟩
      exact (run_bind_ok (run_peek rfl _) _).trans (run_word ['f', 'a', 'l', 's', 'e'] rest)
  · refine ⟨_, _, rfl, by unfold StartsScalar Json.NoStart; decide, ?_⟩
    rw [List.cons_append, List.append_assoc, List.singleton_append]
    refine (run_bind_ok (run_peek rfl _) _).trans ?_
    refine (run_bind_ok (run_advance _ _) _).trans ?_
    exact run_skipString hinside rest
  · obtain ⟨negative, n, ⟨htidy, htext⟩⟩ := Json.exists_numberText hnumber
    have hnumeral := run_numeral_text htidy htext .malformed hrest.number
    cases negative with
    | true =>
      exact ⟨'-', _, rfl, by unfold StartsScalar Json.NoStart; decide,
        run_skipScalar_minus hnumeral⟩
    | false =>
      obtain ⟨d, more, rfl⟩ := exists_digit_of_text htext
      exact ⟨d.char, more, rfl, startsScalar_digit d, run_skipScalar_digit hnumeral⟩

/-! ### Rows -/

theorem stops_gap {gap : List Char} (hgap : Json.Gap gap) {text : List Char} (h : Stops text) :
    Stops (gap ++ text) := by
  intro c hc
  cases gap with
  | nil => exact h c hc
  | cons d gap =>
    obtain rfl : d = c := Option.some.inj hc
    exact .inl (isGap_of_mem hgap d List.mem_cons_self)

/-- Behind an item there is what may follow a value. -/
theorem stops_row {α : Type} {P : List Char → α → Prop} {inside : List Char} {as : List α}
    (h : Json.Row P false inside as) (bracket : Bracket) (rest : List Char) :
    Stops (inside ++ bracket.closing :: rest) := by
  cases h with
  | nil hgap =>
    refine stops_gap hgap fun c hc => ?_
    obtain rfl : bracket.closing = c := Option.some.inj hc
    cases bracket with
    | square => exact .inr (.inr (.inl rfl))
    | curly => exact .inr (.inr (.inr rfl))
  | more hgap _ _ _ =>
    rw [List.append_assoc]
    refine stops_gap hgap fun c hc => ?_
    obtain rfl : ',' = c := Option.some.inj hc
    exact .inr (.inl rfl)

/-- What is done behind a value that has ended inside these brackets. -/
def afterValue (rounds : Nat) (outer : List Bracket) : Reader Unit := do
  match ← closeBrackets outer with
  | [] => return ()
  | still => skipFrom rounds still

/-- What stands in front of a value inside a bracket. -/
def enter (bracket : Bracket) : Reader Unit :=
  if bracket = .curly then skipName else return ()

/-- From the front of one of these values some rounds lead to where it has ended. -/
structure Skips (V : List Char → Prop) : Prop where
  starts {chars : List Char} : V chars → Starts chars
  passes {chars : List Char} : V chars → ∃ k ≤ chars.length, ∀ n outer gap rest, Json.Gap gap →
    Stops rest → (skipFrom (k + n) outer).run (gap ++ (chars ++ rest)) = (afterValue n outer).run rest

/-- An item inside a bracket: one of the values, perhaps with something in front of it. -/
structure Enters (bracket : Bracket) (V : List Char → Prop) (chars : List Char) : Prop where
  starts : Starts chars
  value : ∃ value, V value ∧ value.length ≤ chars.length ∧ ∀ gap, Json.Gap gap →
    ∃ gap', Json.Gap gap' ∧ ∀ rest,
      (enter bracket).run (gap ++ (chars ++ rest)) = .ok ((), gap' ++ (value ++ rest))

section
variable {α : Type} {P : List Char → α → Prop} {V : List Char → Prop} {bracket : Bracket}

/-- The closing bracket of an item that has ended. -/
theorem run_afterValue_close (bracket : Bracket) {gap : List Char} (hgap : Json.Gap gap) (n : Nat)
    (outer : List Bracket) (rest : List Char) :
    (afterValue n (bracket :: outer)).run (gap ++ bracket.closing :: rest) =
      (afterValue n outer).run rest := by
  have hclosing : isGap bracket.closing = false ∧ bracket.closing ≠ ',' := by
    cases bracket <;> decide
  have hclose : (closeBrackets (bracket :: outer)).run (gap ++ bracket.closing :: rest) =
      (closeBrackets outer).run rest := by
    rw [closeBrackets, run_peek_bind hgap]
    refine (run_bind_ok (run_peek hclosing.1 _) _).trans ?_
    simp only [if_neg hclosing.2, if_true]
    exact run_bind_ok (run_advance _ _) _
  rw [afterValue, afterValue, StateT.run_bind, StateT.run_bind, hclose]

/-- The comma behind an item that has ended, and what stands in front of the next value. -/
theorem run_afterValue_comma (bracket : Bracket) {gap : List Char} (hgap : Json.Gap gap) (n : Nat)
    (outer : List Bracket) {text text' : List Char} (h : (enter bracket).run text = .ok ((), text')) :
    (afterValue n (bracket :: outer)).run (gap ++ ',' :: text) =
      (skipFrom n (bracket :: outer)).run text' := by
  have hclose : (closeBrackets (bracket :: outer)).run (gap ++ ',' :: text) =
      .ok (bracket :: outer, text') := by
    rw [closeBrackets, run_peek_bind hgap]
    refine (run_bind_ok (run_peek rfl _) _).trans ?_
    refine (run_bind_ok (run_advance _ _) _).trans ?_
    cases bracket with
    | square =>
      obtain ⟨-, rfl⟩ := Prod.mk.inj (Except.ok.inj h)
      rfl
    | curly => exact (run_bind_ok h _).trans rfl
  exact run_bind_ok hclose _

/-- What is left of a row is passed over up to where the row has ended. -/
theorem run_afterValue_row (hV : Skips V) (hP : ∀ chars a, P chars a → Enters bracket V chars)
    {inside : List Char} {as : List α} (h : Json.Row P false inside as) :
    ∃ k ≤ inside.length, ∀ n outer rest,
      (afterValue (k + n) (bracket :: outer)).run (inside ++ bracket.closing :: rest) =
        (afterValue n outer).run rest := by
  generalize hfirst : false = first at h
  induction h with
  | nil hgap =>
    refine ⟨0, Nat.zero_le _, fun n outer rest => ?_⟩
    rw [Nat.zero_add, run_afterValue_close bracket hgap]
  | first => cases hfirst
  | @more gap gap' chars rest a as hgap hgap' hchars hrest ih =>
    obtain ⟨k, hk, hrow⟩ := ih rfl
    obtain ⟨value, hvalue, hlength, henter⟩ := (hP chars a hchars).value
    obtain ⟨l, hl, hpass⟩ := hV.passes hvalue
    obtain ⟨gap'', hgap'', henter⟩ := henter gap' hgap'
    refine ⟨l + k, ?_, fun n outer behind => ?_⟩
    · simp only [List.length_append, List.length_cons]
      omega
    · simp only [List.append_assoc, List.cons_append]
      rw [run_afterValue_comma bracket hgap _ _ (henter _), Nat.add_assoc,
        hpass _ _ _ _ hgap'' (stops_row hrest bracket behind), hrow]

/-- The opening character of a bracket. -/
def opening : Bracket → Char
  | .square => '['
  | .curly => '\x7b'

theorem run_skipFrom_gap {gap : List Char} (hgap : Json.Gap gap) (n : Nat) (outer : List Bracket)
    (text : List Char) :
    (skipFrom (n + 1) outer).run (gap ++ text) = (skipFrom (n + 1) outer).run text := by
  rw [skipFrom]
  simp only [StateT.run_bind, run_peek_gap hgap]

/-- The first round ends behind both brackets if there is nothing between them. -/
theorem run_skipFrom_empty (bracket : Bracket) {text rest : List Char} (n : Nat)
    (outer : List Bracket) (hopen : (openBracket bracket).run (opening bracket :: text) =
      .ok (false, rest)) :
    (skipFrom (n + 1) outer).run (opening bracket :: text) = (afterValue n outer).run rest := by
  rw [skipFrom]
  cases bracket with
  | square =>
    refine (run_bind_ok (?_ : _ = Except.ok (([.square], true), rest)) _).trans rfl
    refine (run_bind_ok (run_peek rfl _) _).trans ?_
    exact (run_bind_ok hopen _).trans rfl
  | curly =>
    refine (run_bind_ok (?_ : _ = Except.ok (([.curly], true), rest)) _).trans rfl
    refine (run_bind_ok (run_peek rfl _) _).trans ?_
    exact (run_bind_ok hopen _).trans rfl

/-- Otherwise it ends in front of the first value. -/
theorem run_skipFrom_open (bracket : Bracket) {text rest : List Char} (n : Nat)
    (outer : List Bracket) (hopen : (openBracket bracket).run (opening bracket :: text) =
      .ok (true, rest)) :
    (skipFrom (n + 1) outer).run (opening bracket :: text) =
      (skipFrom n (bracket :: outer)).run rest := by
  rw [skipFrom]
  cases bracket with
  | square =>
    refine (run_bind_ok (?_ : _ = Except.ok (([.square], false), rest)) _).trans rfl
    refine (run_bind_ok (run_peek rfl _) _).trans ?_
    exact (run_bind_ok hopen _).trans rfl
  | curly =>
    refine (run_bind_ok (?_ : _ = Except.ok (([.curly], false), rest)) _).trans rfl
    refine (run_bind_ok (run_peek rfl _) _).trans ?_
    exact (run_bind_ok hopen _).trans rfl

theorem run_openBracket_empty (bracket : Bracket) {gap : List Char} (hgap : Json.Gap gap)
    (rest : List Char) : (openBracket bracket).run
      (opening bracket :: (gap ++ bracket.closing :: rest)) = .ok (false, rest) := by
  have hclosing : isGap bracket.closing = false := by cases bracket <;> rfl
  refine (run_bind_ok (run_advance _ _) _).trans ?_
  rw [run_peek_bind hgap]
  refine (run_bind_ok (run_peek hclosing _) _).trans ?_
  simp only [if_true]
  rfl

theorem run_openBracket_item (bracket : Bracket) {gap chars text : List Char} (hgap : Json.Gap gap)
    (hstarts : Starts chars)
    (henter : (enter bracket).run chars = .ok ((), text)) :
    (openBracket bracket).run (opening bracket :: (gap ++ chars)) = .ok (true, text) := by
  obtain ⟨c, more, rfl, hstart⟩ := hstarts
  have hc : isGap c = false := Bool.eq_false_iff.mpr fun h => hstart (.inl h)
  have hclosing : c ≠ bracket.closing := by
    cases bracket with
    | square => exact fun h => hstart (.inr (.inr (.inl h)))
    | curly => exact fun h => hstart (.inr (.inr (.inr h)))
  refine (run_bind_ok (run_advance _ _) _).trans ?_
  rw [run_peek_bind hgap]
  refine (run_bind_ok (run_peek hc _) _).trans ?_
  simp only [if_neg hclosing]
  cases bracket with
  | square =>
    obtain ⟨-, rfl⟩ := Prod.mk.inj (Except.ok.inj henter)
    rfl
  | curly => exact (run_bind_ok henter _).trans rfl

/-- **A row is passed over with its brackets.** -/
theorem exists_skipFrom_row (hV : Skips V) (hP : ∀ chars a, P chars a → Enters bracket V chars)
    {inside : List Char} {as : List α} (h : Json.Row P true inside as) :
    ∃ k ≤ inside.length + 1, ∀ n outer gap rest, Json.Gap gap →
      (skipFrom (k + n) outer).run (gap ++ opening bracket :: (inside ++ bracket.closing :: rest)) =
        (afterValue n outer).run rest := by
  cases h with
  | nil hgap =>
    refine ⟨1, Nat.succ_le_succ (Nat.zero_le _), fun n outer gap' rest hgap' => ?_⟩
    rw [Nat.add_comm, run_skipFrom_gap hgap']
    exact run_skipFrom_empty bracket n outer (run_openBracket_empty bracket hgap rest)
  | @first gap chars more a as hgap hchars hmore =>
    obtain ⟨hstarts, value, hvalue, hlength, henter⟩ := hP chars a hchars
    obtain ⟨l, hl, hpass⟩ := hV.passes hvalue
    obtain ⟨k, hk, hrow⟩ := run_afterValue_row hV hP hmore
    obtain ⟨gap'', hgap'', henter⟩ := henter [] Json.gap_nil
    refine ⟨l + k + 1, ?_, fun n outer gap' rest hgap' => ?_⟩
    · simp only [List.length_append]
      omega
    · have hopen := run_openBracket_item bracket hgap (hstarts.append _)
        (henter (more ++ bracket.closing :: rest))
      rw [show l + k + 1 + n = l + (k + n) + 1 by omega, run_skipFrom_gap hgap']
      simp only [List.append_assoc]
      rw [run_skipFrom_open bracket _ _ hopen,
        hpass _ _ _ _ hgap'' (stops_row hmore bracket rest), hrow]

end

/-! ### Values -/

theorem enters_item {V : List Char → Prop} (hV : Skips V) {chars : List Char} (h : V chars) :
    Enters .square V chars :=
  ⟨hV.starts h, chars, h, Nat.le_refl _, fun gap hgap => ⟨gap, hgap, fun _ => rfl⟩⟩

/-- A member of an object: its name and the colon stand in front of its value. -/
theorem enters_member {ν α : Type} {V : List Char → Prop} {chars : List Char} {m : ν × α}
    (h : Json.MemberText (fun name _ => Json.StringForm name) (fun value _ => V value) chars m) :
    Enters .curly V chars := by
  obtain ⟨_, gap, gap', value, ⟨inside, hinside, rfl⟩, hgap, hgap', hvalue, rfl⟩ := h
  refine ⟨⟨_, _, rfl, by unfold Json.NoStart; decide⟩, value, hvalue, ?_, fun lead hlead => ?_⟩
  · simp only [List.length_append, List.length_cons]
    omega
  · refine ⟨gap', hgap', fun rest => ?_⟩
    simp only [List.append_assoc, List.cons_append, List.nil_append]
    rw [enter, if_pos rfl, skipName, run_peek_bind hlead]
    refine (run_bind_ok (run_peek rfl _) _).trans ?_
    refine (run_bind_ok (run_advance _ _) _).trans ?_
    refine (run_bind_ok (run_skipString hinside _) _).trans ?_
    rw [run_peek_bind hgap]
    exact (run_bind_ok (run_peek rfl _) _).trans (run_advance _ _)

/-- One round is enough for a scalar. -/
theorem run_skipFrom_scalar {chars : List Char} (h : ScalarForm chars) (n : Nat)
    (outer : List Bracket) {gap : List Char} (hgap : Json.Gap gap) (hrest : Stops rest) :
    (skipFrom (1 + n) outer).run (gap ++ (chars ++ rest)) = (afterValue n outer).run rest := by
  obtain ⟨c, more, rfl, hstart, hskip⟩ := run_skipScalar h hrest
  rw [Nat.add_comm, run_skipFrom_gap hgap, skipFrom]
  refine (run_bind_ok (?_ : _ = Except.ok (([], true), rest)) _).trans rfl
  refine (run_bind_ok (run_peek hstart.isGap_eq _) _).trans ?_
  split
  · next heq => exact absurd (Option.some.inj heq) hstart.2.1
  · next heq => exact absurd (Option.some.inj heq) hstart.2.2
  · exact (run_bind_ok hskip _).trans rfl

theorem skips_scalar {V : List Char → Prop} (h : ∀ chars, V chars → ScalarForm chars) : Skips V where
  starts hchars := by
    obtain ⟨c, more, hcons, hstart, -⟩ := run_skipScalar (h _ hchars) stops_nil
    exact ⟨c, more, hcons, hstart.1⟩
  passes {chars} hchars := by
    obtain ⟨c, more, rfl, -, -⟩ := run_skipScalar (h _ hchars) stops_nil
    exact ⟨1, Nat.succ_le_succ (Nat.zero_le _), fun n outer gap rest hgap hrest =>
      run_skipFrom_scalar (h _ hchars) n outer hgap hrest⟩

/-- A bracketed text is passed over if its row is. -/
theorem exists_skipFrom_bracket {α : Type} {P : List Char → α → Prop} {V : List Char → Prop}
    (bracket : Bracket) (hV : Skips V) (hP : ∀ chars a, P chars a → Enters bracket V chars)
    {inside : List Char} {as : List α} (h : Json.Row P true inside as) {chars : List Char}
    (hchars : chars = opening bracket :: (inside ++ [bracket.closing])) :
    Starts chars ∧ ∃ k ≤ chars.length, ∀ n outer gap rest, Json.Gap gap → Stops rest →
      (skipFrom (k + n) outer).run (gap ++ (chars ++ rest)) = (afterValue n outer).run rest := by
  subst hchars
  obtain ⟨k, hk, hrow⟩ := exists_skipFrom_row hV hP h
  have hstart : ¬ Json.NoStart (opening bracket) := by
    cases bracket <;> (unfold Json.NoStart; decide)
  refine ⟨⟨_, _, rfl, hstart⟩, k, ?_, fun n outer gap rest hgap _ => ?_⟩
  · simp only [List.length_cons, List.length_append]
    omega
  · rw [List.cons_append, List.append_assoc]
    exact hrow n outer gap rest hgap

/-- **Whatever has the form of a value is passed over.** -/
theorem skips_wellFormed (depth : Nat) : Skips (Json.WellFormed depth) := by
  induction depth with
  | zero => exact skips_scalar fun _ h => h
  | succ depth ih =>
    have hscalar : Skips ScalarForm := skips_scalar fun _ h => h
    have hcases {chars : List Char} (h : Json.WellFormed (depth + 1) chars) : Starts chars ∧
        ∃ k ≤ chars.length, ∀ n outer gap rest, Json.Gap gap → Stops rest →
          (skipFrom (k + n) outer).run (gap ++ (chars ++ rest)) = (afterValue n outer).run rest := by
      rcases h with h | h | h | ⟨places, inside, hrow, hchars⟩ | ⟨places, inside, hrow, hchars⟩
      · exact ⟨hscalar.starts (.inl h), hscalar.passes (.inl h)⟩
      · exact ⟨hscalar.starts (.inr (.inl h)), hscalar.passes (.inr (.inl h))⟩
      · exact ⟨hscalar.starts (.inr (.inr h)), hscalar.passes (.inr (.inr h))⟩
      · exact exists_skipFrom_bracket .square ih (fun _ _ h => enters_item ih h) hrow
          hchars
      · exact exists_skipFrom_bracket .curly ih (fun _ _ h => enters_member h) hrow
          hchars
    exact ⟨fun h => (hcases h).1, fun h => (hcases h).2⟩

theorem gets_skip {chars : List Char} {depth : Nat} (h : Json.WellFormed depth chars) :
    Gets skip chars () := by
  intro gap rest hgap hrest
  obtain ⟨k, hk, hpass⟩ := (skips_wellFormed depth).passes h
  obtain ⟨n, hn⟩ : ∃ n, (gap ++ (chars ++ rest)).length + 1 = k + n := by
    refine ⟨(gap ++ (chars ++ rest)).length + 1 - k, ?_⟩
    simp only [List.length_append]
    omega
  refine (run_bind_ok rfl _).trans ?_
  rw [hn, hpass n [] gap rest hgap hrest]
  rfl

end Reader

end BlockSketch
