import BlockSketch.Expr
import BlockSketch.Proofs.Decimal.Digits
import BlockSketch.Proofs.Identifier.Legal
import BlockSketch.Proofs.Text.Quoted

/-!
# Tokens: the words of C

`Token.lex` cuts a text into tokens as a C compiler does. It knows nothing of how expressions are
printed.

* Blanks separate tokens and are dropped.
* An identifier is a letter with all letters and digits behind it.
* A number is digits, then perhaps a point with digits behind it, then perhaps an `e` and an
  exponent. A point without digits behind it is no part of the number.
* A string literal is the text it denotes.
* Of two signs of which one begins the other, the longer one is taken: `--` is one sign and not two.

What may follow a token without becoming part of it is the matter of `Token.Breaks`, and the laws
at the end say how each kind of token is cut off a text that goes on.
-/

namespace BlockSketch

/-- A token of C. -/
inductive Token
  | numeral (n : Numeral)
  | identifier (name : String)
  /-- a string literal, by the text it denotes -/
  | literal (text : String)
  | openParen
  | closeParen
  | comma
  | dot
  | semicolon
  | bang
  | minus
  | decrement
  | plus
  | plusAssign
  | star
  | slash
  | percent
  | less
  | greater
  | assign
  | equal
deriving DecidableEq, Repr

namespace Token

open Identifier (isLetter isDigit isWordChar)

/-! ### The lexer -/

/-- The fraction of a number: a point and the digits behind it, of which there must be some. -/
def fraction : List Char → List Digit × List Char
  | '.' :: rest =>
    match Digits.take rest with
    | ([], _) => ([], '.' :: rest)
    | (digits, after) => (digits, after)
  | text => ([], text)

/-- The exponent of a number. -/
def exponent : List Char → Option Int × List Char
  | 'e' :: '-' :: rest =>
    match Digits.take rest with
    | ([], _) => (none, 'e' :: '-' :: rest)
    | (digits, after) => (some (-(Digits.toNat digits : Int)), after)
  | 'e' :: rest =>
    match Digits.take rest with
    | ([], _) => (none, 'e' :: rest)
    | (digits, after) => (some (Digits.toNat digits : Int), after)
  | text => (none, text)

/-- The number at the start of a text. -/
def number (text : List Char) : Numeral × List Char :=
  let whole := Digits.take text
  let fraction := fraction whole.2
  let exponent := exponent fraction.2
  (⟨whole.1, fraction.1, exponent.1⟩, exponent.2)

/-- The sign that a text starts with, given its first character. -/
def sign? : Char → List Char → Option (Token × List Char)
  | '(', rest => some (openParen, rest)
  | ')', rest => some (closeParen, rest)
  | ',', rest => some (comma, rest)
  | '.', rest => some (dot, rest)
  | ';', rest => some (semicolon, rest)
  | '!', rest => some (bang, rest)
  | '-', '-' :: rest => some (decrement, rest)
  | '-', rest => some (minus, rest)
  | '+', '=' :: rest => some (plusAssign, rest)
  | '+', rest => some (plus, rest)
  | '*', rest => some (star, rest)
  | '/', rest => some (slash, rest)
  | '%', rest => some (percent, rest)
  | '<', rest => some (less, rest)
  | '>', rest => some (greater, rest)
  | '=', '=' :: rest => some (equal, rest)
  | '=', rest => some (assign, rest)
  | _, _ => none

/-- The token that a text starts with, given its first character. -/
def next? (c : Char) (rest : List Char) : Option (Token × List Char) :=
  if isLetter c then
    some (identifier (String.ofList (c :: rest.takeWhile isWordChar)), rest.dropWhile isWordChar)
  else if isDigit c then
    some (numeral (number (c :: rest)).1, (number (c :: rest)).2)
  else if c = '"' then
    (Text.Quoted.readBody rest).map fun read => (literal (String.ofList read.1), read.2)
  else sign? c rest

/-- The tokens of a text; `none` if something in it is no token. -/
def lex (text : List Char) : Option (List Token) :=
  match text with
  | [] => some []
  | c :: rest =>
    if c.isWhitespace then lex rest
    else
      match next? c rest with
      | none => none
      | some (token, after) =>
        -- a token takes at least one character
        if after.length ≤ rest.length then (lex after).map (token :: ·) else none
termination_by text.length

/-! ### Cutting tokens off -/

/-- What may follow an identifier or a number without becoming part of it. -/
def Breaks : List Char → Prop
  | [] => True
  | c :: rest =>
    isWordChar c = false ∧ (c = '.' → ∀ d ∈ rest.head?, isDigit d = false)

/-- A blank is dropped. Otherwise a token is cut off. -/
theorem lex_step (c : Char) (rest : List Char) :
    lex (c :: rest) =
      if c.isWhitespace then lex rest
      else (next? c rest).bind fun cut =>
        if cut.2.length ≤ rest.length then (lex cut.2).map (cut.1 :: ·) else none := by
  rw [lex]
  cases next? c rest <;> rfl

theorem lex_whitespace {c : Char} (h : c.isWhitespace = true) (rest : List Char) :
    lex (c :: rest) = lex rest :=
  (lex_step c rest).trans (if_pos h)

theorem lex_blank (rest : List Char) : lex (' ' :: rest) = lex rest :=
  lex_whitespace rfl rest

/-- One step of the lexer. -/
theorem lex_cons {c : Char} {rest after : List Char} {t : Token}
    (hblank : c.isWhitespace = false) (hnext : next? c rest = some (t, after))
    (hlen : after.length ≤ rest.length) : lex (c :: rest) = (lex after).map (t :: ·) := by
  rw [lex_step, hblank, hnext]
  exact if_pos hlen

theorem isWhitespace_of_isWordChar {c : Char} (h : isWordChar c = true) :
    c.isWhitespace = false := by
  by_contra hblank
  simp only [Bool.not_eq_false, Char.isWhitespace, Bool.or_eq_true, decide_eq_true_eq] at hblank
  rcases hblank with ((rfl | rfl) | rfl) | rfl <;> cases h

/-- An identifier is taken as a whole. -/
theorem lex_identifier {name : String} (h : Identifier.Legal name) {rest : List Char}
    (hrest : Breaks rest) :
    lex (name.toList ++ rest) = (lex rest).map (identifier name :: ·) := by
  obtain ⟨c, more, hname, hc, hmore⟩ := h
  have hstop : rest.takeWhile isWordChar = [] ∧ rest.dropWhile isWordChar = rest := by
    cases rest with
    | nil => exact ⟨rfl, rfl⟩
    | cons d rest => simp [hrest.1]
  have htake : (more ++ rest).takeWhile isWordChar = more := by
    rw [List.takeWhile_append_of_pos hmore, hstop.1, List.append_nil]
  have hdrop : (more ++ rest).dropWhile isWordChar = rest := by
    rw [List.dropWhile_append_of_pos hmore, hstop.2]
  have hback : String.ofList (c :: more) = name := by
    rw [← hname, String.ofList_toList]
  have hpart : isWordChar c = true := by
    rw [isWordChar, hc, Bool.true_or]
  rw [hname, List.cons_append]
  refine lex_cons (isWhitespace_of_isWordChar hpart) ?_ (by simp)
  rw [next?, if_pos hc, htake, hdrop, hback]

/-- The characters that cannot go on with a number are no digits. -/
theorem Breaks.ofChar? {rest : List Char} (h : Breaks rest) :
    ∀ c ∈ rest.head?, Digit.ofChar? c = none := by
  cases rest with
  | nil => intro c hc; cases hc
  | cons d rest =>
    intro c hc
    obtain rfl : d = c := Option.some.inj hc
    exact Digit.ofChar?_eq_none_iff.mpr (Bool.or_eq_false_iff.mp h.1).2

theorem fraction_of_breaks {rest : List Char} (h : Breaks rest) : fraction rest = ([], rest) := by
  cases rest with
  | nil => rfl
  | cons c rest =>
    by_cases hdot : c = '.'
    · subst hdot
      have htake : Digits.take rest = ([], rest) := by
        cases rest with
        | nil => rfl
        | cons d rest =>
          have hd : Digit.ofChar? d = none := Digit.ofChar?_eq_none_iff.mpr (h.2 rfl d rfl)
          rw [Digits.take, hd]
      simp only [fraction, htake]
    · rw [fraction.eq_2 _ fun r hr => hdot (List.cons.inj hr).1]

theorem exponent_of_breaks {rest : List Char} (h : Breaks rest) : exponent rest = (none, rest) := by
  cases rest with
  | nil => rfl
  | cons c rest =>
    have hc : c ≠ 'e' := by
      rintro rfl
      cases h.1
    exact exponent.eq_3 _ (fun _ hr => hc (List.cons.inj hr).1) (fun _ hr => hc (List.cons.inj hr).1)

theorem char_ne_minus (d : Digit) : d.char ≠ '-' := by
  revert d
  decide

theorem isDigit_char (d : Digit) : isLetter d.char = false ∧ isDigit d.char = true := by
  revert d
  decide

/-- A written exponent is read back. -/
theorem exponent_chars (e : Int) {rest : List Char} (h : Breaks rest) :
    exponent ('e' :: (Numeral.exponentChars [] e ++ rest)) = (some e, rest) := by
  have htake := Digits.take_chars (Digits.ofNat e.natAbs) h.ofChar?
  have hvalue := Digits.toNat_ofNat e.natAbs
  obtain ⟨d, digits, hdigits⟩ := List.exists_cons_of_ne_nil (Digits.ofNat_ne_nil e.natAbs)
  rw [hdigits] at htake hvalue
  rw [Numeral.exponentChars, hdigits]
  by_cases hneg : e < 0
  · rw [if_pos hneg, List.cons_append, List.nil_append, List.cons_append]
    simp only [exponent, htake, hvalue]
    rw [show -((e.natAbs : Nat) : Int) = e by omega]
  · rw [if_neg hneg, List.nil_append]
    change exponent ('e' :: d.char :: (Digits.chars digits ++ rest)) = _
    change Digits.take (d.char :: (Digits.chars digits ++ rest)) = _ at htake
    rw [exponent.eq_2 _ fun r hr => char_ne_minus d (List.cons.inj hr).1]
    simp only [htake, hvalue]
    rw [show ((e.natAbs : Nat) : Int) = e by omega]

/-- **A written number is read back.** -/
theorem number_chars (n : Numeral) {rest : List Char} (h : Breaks rest) :
    number (n.chars ++ rest) = (n, rest) := by
  obtain ⟨whole, digits, e⟩ := n
  -- what stands behind the fraction
  obtain ⟨behind, hbehind, hexponent, hstop, hbreaks⟩ : ∃ behind,
      behind = e.elim [] (fun e => 'e' :: Numeral.exponentChars [] e) ++ rest ∧
      exponent behind = (e, rest) ∧ (∀ c ∈ behind.head?, Digit.ofChar? c = none) ∧
      fraction behind = ([], behind) := by
    cases e with
    | none => exact ⟨rest, rfl, exponent_of_breaks h, h.ofChar?, fraction_of_breaks h⟩
    | some e =>
      refine ⟨_, rfl, exponent_chars e h, ?_, rfl⟩
      intro c hc
      obtain rfl : 'e' = c := Option.some.inj hc
      rfl
  -- what stands behind the digits before the point
  obtain ⟨after, hafter, hfraction, hstop'⟩ : ∃ after,
      after = (if digits.isEmpty then [] else '.' :: Digits.chars digits) ++ behind ∧
      fraction after = (digits, behind) ∧ ∀ c ∈ after.head?, Digit.ofChar? c = none := by
    cases digits with
    | nil => exact ⟨behind, rfl, hbreaks, hstop⟩
    | cons d digits =>
      refine ⟨_, rfl, ?_, ?_⟩
      · have htake := Digits.take_chars (d :: digits) hstop
        simp only [List.isEmpty_cons, Bool.false_eq_true, if_false, List.cons_append, fraction,
          htake]
      · intro c hc
        obtain rfl : '.' = c := Option.some.inj hc
        rfl
  have hchars : Numeral.chars ⟨whole, digits, e⟩ ++ rest = Digits.chars whole ++ after := by
    rw [hafter, hbehind, Numeral.chars, Numeral.charsWith]
    cases e <;> exact (List.append_assoc _ _ _).trans (List.append_assoc _ _ _)
  rw [hchars, number, Digits.take_chars whole hstop', hfraction, hexponent]

/-- A number is taken as a whole. -/
theorem lex_numeral {n : Numeral} (hn : n.whole ≠ []) {rest : List Char} (h : Breaks rest) :
    lex (n.chars ++ rest) = (lex rest).map (numeral n :: ·) := by
  have hread := number_chars n h
  obtain ⟨d, digits, hwhole⟩ := List.exists_cons_of_ne_nil hn
  obtain ⟨more, hmore⟩ : ∃ more, n.chars = d.char :: more := by
    rw [Numeral.chars, Numeral.charsWith, hwhole]
    exact ⟨_, rfl⟩
  rw [hmore, List.cons_append] at hread ⊢
  refine lex_cons (isWhitespace_of_isWordChar ?_) ?_ (by simp)
  · rw [isWordChar, (isDigit_char d).2, Bool.or_true]
  · rw [next?, hread]
    simp [isDigit_char d]

/-- A string literal is taken as a whole. -/
theorem lex_literal (text : String) (rest : List Char) :
    lex (Text.Quoted.encode text.toList ++ rest) = (lex rest).map (literal text :: ·) := by
  have hread := Text.Quoted.readBody_flatMap text.toList rest
  rw [Text.Quoted.encode, List.cons_append, List.append_assoc, List.singleton_append]
  refine lex_cons rfl ?_ (by simp only [List.length_append, List.length_cons]; omega)
  rw [next?, hread]
  simp [isLetter, isDigit, Char.le_def]

theorem lex_openParen (rest : List Char) :
    lex ('(' :: rest) = (lex rest).map (openParen :: ·) :=
  lex_cons rfl rfl (Nat.le_refl _)

theorem lex_closeParen (rest : List Char) :
    lex (')' :: rest) = (lex rest).map (closeParen :: ·) :=
  lex_cons rfl rfl (Nat.le_refl _)

theorem lex_comma (rest : List Char) : lex (',' :: rest) = (lex rest).map (comma :: ·) :=
  lex_cons rfl rfl (Nat.le_refl _)

theorem lex_dot (rest : List Char) : lex ('.' :: rest) = (lex rest).map (dot :: ·) :=
  lex_cons rfl rfl (Nat.le_refl _)

theorem lex_bang (rest : List Char) : lex ('!' :: rest) = (lex rest).map (bang :: ·) :=
  lex_cons rfl rfl (Nat.le_refl _)

/-- A minus sign is one if no second one follows. -/
theorem lex_minus {rest : List Char} (h : rest.head? ≠ some '-') :
    lex ('-' :: rest) = (lex rest).map (minus :: ·) := by
  refine lex_cons rfl ?_ (Nat.le_refl _)
  have hnext : next? '-' rest = sign? '-' rest := rfl
  rw [hnext]
  cases rest with
  | nil => rfl
  | cons c rest =>
    have hc : c ≠ '-' := fun hc => h (congrArg some hc)
    rw [sign?.eq_8 _ fun r hr => hc (List.cons.inj hr).1]

end Token

namespace BinaryOp

/-- The token of an operator. -/
def token : BinaryOp → Token
  | mul => .star
  | div => .slash
  | rem => .percent
  | add => .plus
  | sub => .minus
  | less => .less
  | greater => .greater
  | equal => .equal

/-- An operator between blanks. -/
theorem lex_sign (op : BinaryOp) (rest : List Char) :
    Token.lex (' ' :: (op.sign ++ ' ' :: rest)) = (Token.lex rest).map (op.token :: ·) := by
  rw [Token.lex_blank, ← Token.lex_blank rest]
  cases op <;> exact Token.lex_cons rfl rfl (by simp)

end BinaryOp

end BlockSketch
