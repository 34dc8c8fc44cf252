import BlockSketch.Proofs.Grammar.Token
import BlockSketch.Proofs.Text.Literals
import Mathlib.Data.List.Forall2

/-!
# Texts that differ in literals have the same tokens

Two texts that are the same but for their literals are cut into the same tokens, with the literals
where they were. What stands in front of a literal is the same in both, and no token reaches from
there into the literal, since none goes on with a quote (`Token.lex_append`).

That is all as long as literals are opened only where literals are written. But a line of a sketch
has the indentation in front of it, which may be any text, and one that opens a literal turns the
inside and the outside of literals around. Then there are no tokens at all: every literal that is
written in the line closes one and opens another, and the end of the line cuts the last of them off.
What follows an open literal and has this fate is `Token.Lost`, and `Token.lex_front` tells
indentations that leave a literal open from all others.
-/

namespace BlockSketch

namespace Token

open Identifier (isLetter isDigit isWordChar)
open Text (isPlain)
open Text.Quoted (readBody escape escaped? withChar)

/-! ### Nothing goes on past a character that is not plain -/

section Stops

variable {c d : Char} (hd : isPlain d = false)
include hd

theorem isWordChar_of_isPlain_eq_false : isWordChar d = false := by
  by_contra hword
  rw [Bool.not_eq_false] at hword
  simp only [isPlain, Bool.and_eq_false_iff, bne_eq_false_iff_eq] at hd
  rcases hd with ((rfl | rfl) | rfl) | rfl <;> cases hword

theorem ne_of_isPlain (hc : isPlain c = true) : d ≠ c := by
  rintro rfl
  rw [hd] at hc
  cases hc

omit hd in
/-- The reader stops before `d`: what it reads, and what it leaves of the text in front of `d`, is
the same whatever stands behind `d`. -/
def StopsAt {α : Type} (d : Char) (read : List Char → α × List Char) : Prop :=
  ∀ u, ∃ a u', u' <:+ u ∧ ∀ z, read (u ++ d :: z) = (a, u' ++ d :: z)

theorem stopsAt_digits : StopsAt d Digits.take := by
  intro u
  induction u with
  | nil =>
    refine ⟨[], [], List.suffix_refl _, fun z => ?_⟩
    have hword := isWordChar_of_isPlain_eq_false hd
    have hdigit : Digit.ofChar? d = none :=
      Digit.ofChar?_eq_none_iff.mpr (Bool.or_eq_false_iff.mp hword).2
    rw [List.nil_append, Digits.take, hdigit]
  | cons e u ih =>
    obtain ⟨digits, u', hsuffix, htake⟩ := ih
    cases hdigit : Digit.ofChar? e with
    | none =>
      refine ⟨[], e :: u, List.suffix_refl _, fun z => ?_⟩
      rw [List.cons_append, Digits.take, hdigit]
    | some digit =>
      refine ⟨digit :: digits, u', hsuffix.trans (List.suffix_cons e u), fun z => ?_⟩
      rw [List.cons_append, Digits.take, hdigit, htake]

theorem stopsAt_fraction : StopsAt d fraction := by
  intro u
  rcases u with _ | ⟨e, u⟩
  · refine ⟨[], [], List.suffix_refl _, fun z => ?_⟩
    exact fraction.eq_2 _ fun r hr => ne_of_isPlain hd rfl (List.cons.inj hr).1
  by_cases hdot : e = '.'
  · subst hdot
    obtain ⟨digits, u', hsuffix, htake⟩ := stopsAt_digits hd u
    cases digits with
    | nil =>
      refine ⟨[], '.' :: u, List.suffix_refl _, fun z => ?_⟩
      simp only [List.cons_append, fraction, htake]
    | cons digit digits =>
      refine ⟨digit :: digits, u', hsuffix.trans (List.suffix_cons _ u), fun z => ?_⟩
      simp only [List.cons_append, fraction, htake]
  · refine ⟨[], e :: u, List.suffix_refl _, fun z => ?_⟩
    exact fraction.eq_2 _ fun r hr => hdot (List.cons.inj hr).1

theorem stopsAt_exponent : StopsAt d exponent := by
  intro u
  rcases u with _ | ⟨e, u⟩
  · refine ⟨none, [], List.suffix_refl _, fun z => ?_⟩
    exact exponent.eq_3 _ (fun _ hr => ne_of_isPlain hd rfl (List.cons.inj hr).1)
      fun _ hr => ne_of_isPlain hd rfl (List.cons.inj hr).1
  by_cases he : e = 'e'
  · subst he
    by_cases hminus : ∃ v, u = '-' :: v
    · obtain ⟨v, rfl⟩ := hminus
      obtain ⟨digits, u', hsuffix, htake⟩ := stopsAt_digits hd v
      cases digits with
      | nil =>
        refine ⟨none, 'e' :: '-' :: v, List.suffix_refl _, fun z => ?_⟩
        simp only [List.cons_append, exponent, htake]
      | cons digit digits =>
        refine ⟨some (-(Digits.toNat (digit :: digits) : Int)), u',
          hsuffix.trans (List.suffix_append ['e', '-'] v), fun z => ?_⟩
        simp only [List.cons_append, exponent, htake]
    · have hsign (z : List Char) : ∀ r, u ++ d :: z ≠ '-' :: r := by
        intro r hr
        cases u with
        | nil => exact ne_of_isPlain hd rfl (List.cons.inj hr).1
        | cons c v =>
          obtain ⟨rfl, -⟩ := List.cons.inj hr
          exact hminus ⟨v, rfl⟩
      obtain ⟨digits, u', hsuffix, htake⟩ := stopsAt_digits hd u
      cases digits with
      | nil =>
        refine ⟨none, 'e' :: u, List.suffix_refl _, fun z => ?_⟩
        rw [List.cons_append, exponent.eq_2 _ (hsign z)]
        simp only [htake]
      | cons digit digits =>
        refine ⟨some (Digits.toNat (digit :: digits) : Int), u',
          hsuffix.trans (List.suffix_cons _ u), fun z => ?_⟩
        rw [List.cons_append, exponent.eq_2 _ (hsign z)]
        simp only [htake]
  · refine ⟨none, e :: u, List.suffix_refl _, fun z => ?_⟩
    exact exponent.eq_3 _ (fun _ hr => he (List.cons.inj hr).1) fun _ hr => he (List.cons.inj hr).1

/-- A number whose first digit has been seen. -/
theorem stopsAt_number (hc : isDigit c = true) : StopsAt d fun rest => number (c :: rest) := by
  intro u
  obtain ⟨digit, hdigit⟩ : ∃ digit, Digit.ofChar? c = some digit := by
    rw [← Option.ne_none_iff_exists', ne_eq, Digit.ofChar?_eq_none_iff, Bool.not_eq_false]
    exact hc
  obtain ⟨whole, u₁, h₁, hwhole⟩ := stopsAt_digits hd u
  obtain ⟨digits, u₂, h₂, hfraction⟩ := stopsAt_fraction hd u₁
  obtain ⟨e, u₃, h₃, hexponent⟩ := stopsAt_exponent hd u₂
  refine ⟨⟨digit :: whole, digits, e⟩, u₃, h₃.trans (h₂.trans h₁), fun z => ?_⟩
  simp only [number, Digits.take, hdigit, hwhole, hfraction, hexponent]

omit hd in
/-- A sign is told by one character, or else by that and a plain one behind it. -/
theorem sign?_cases (c : Char) :
    (∀ rest, sign? c rest = none) ∨
    ∃ t, (∀ text, t ≠ literal text) ∧ ((∀ rest, sign? c rest = some (t, rest)) ∨
      ∃ e t', isPlain e = true ∧ (∀ text, t' ≠ literal text) ∧
        (∀ rest, sign? c (e :: rest) = some (t', rest)) ∧
        ∀ rest, (∀ r, rest ≠ e :: r) → sign? c rest = some (t, rest)) := by
  by_cases hsingle : c ∈ ['(', ')', ',', '.', ';', '!', '*', '/', '%', '<', '>']
  · simp only [List.mem_cons, List.not_mem_nil, or_false] at hsingle
    right
    rcases hsingle with rfl | rfl | rfl | rfl | rfl | rfl | rfl | rfl | rfl | rfl | rfl <;>
      refine ⟨_, ?_, .inl fun _ => rfl⟩ <;> simp
  by_cases hminus : c = '-'
  · subst hminus
    exact .inr ⟨minus, by simp, .inr ⟨'-', decrement, rfl, by simp, fun _ => rfl, sign?.eq_8⟩⟩
  by_cases hplus : c = '+'
  · subst hplus
    exact .inr ⟨plus, by simp, .inr ⟨'=', plusAssign, rfl, by simp, fun _ => rfl, sign?.eq_10⟩⟩
  by_cases hequal : c = '='
  · subst hequal
    exact .inr ⟨assign, by simp, .inr ⟨'=', equal, rfl, by simp, fun _ => rfl, sign?.eq_17⟩⟩
  · left
    intro rest
    simp only [List.mem_cons, List.not_mem_nil, or_false, not_or] at hsingle
    rw [sign?.eq_def]
    split <;> simp_all

theorem takeWhile_append (u z : List Char) :
    (u ++ d :: z).takeWhile isWordChar = u.takeWhile isWordChar := by
  have hword := isWordChar_of_isPlain_eq_false hd
  induction u with
  | nil => simp [hword]
  | cons e u ih => cases he : isWordChar e <;> simp [he, ih]

theorem dropWhile_append (u z : List Char) :
    (u ++ d :: z).dropWhile isWordChar = u.dropWhile isWordChar ++ d :: z := by
  have hword := isWordChar_of_isPlain_eq_false hd
  induction u with
  | nil => simp [hword]
  | cons e u ih => cases he : isWordChar e <;> simp [he, ih]

/-- A token that does not start with a quote is over before `d`. -/
theorem next?_append (hc : c ≠ '"') (u : List Char) :
    (∀ z, next? c (u ++ d :: z) = none) ∨
    ∃ t u', (∀ text, t ≠ literal text) ∧ u' <:+ u ∧
      ∀ z, next? c (u ++ d :: z) = some (t, u' ++ d :: z) := by
  by_cases hletter : isLetter c = true
  · right
    refine ⟨identifier (String.ofList (c :: u.takeWhile isWordChar)), u.dropWhile isWordChar,
      by simp, List.dropWhile_suffix _, fun z => ?_⟩
    rw [next?, if_pos hletter, takeWhile_append hd, dropWhile_append hd]
  by_cases hdigit : isDigit c = true
  · right
    obtain ⟨n, u', hsuffix, hnumber⟩ := stopsAt_number hd hdigit u
    refine ⟨numeral n, u', by simp, hsuffix, fun z => ?_⟩
    rw [next?, if_neg hletter, if_pos hdigit]
    simp only [hnumber z]
  · have hnext (rest : List Char) : next? c rest = sign? c rest := by
      rw [next?, if_neg hletter, if_neg hdigit, if_neg hc]
    simp only [hnext]
    rcases sign?_cases c with hnone | ⟨t, ht, hone | ⟨e, t', he, ht', htwo, hone⟩⟩
    · exact .inl fun z => hnone _
    · exact .inr ⟨t, u, ht, List.suffix_refl u, fun z => hone _⟩
    · right
      by_cases hu : ∃ v, u = e :: v
      · obtain ⟨v, rfl⟩ := hu
        exact ⟨t', v, ht', List.suffix_cons e v, fun z => htwo _⟩
      · refine ⟨t, u, ht, List.suffix_refl u, fun z => hone _ fun r hr => ?_⟩
        cases u with
        | nil => exact ne_of_isPlain hd he (List.cons.inj hr).1
        | cons e' v =>
          obtain ⟨rfl, -⟩ := List.cons.inj hr
          exact hu ⟨v, rfl⟩

/-- **The tokens in front of `d`**, where there are no quotes, do not depend on what is behind
it. -/
theorem lex_append {u : List Char} (hu : '"' ∉ u) :
    (∀ z, lex (u ++ d :: z) = none) ∨
    ∃ ts, (∀ text, literal text ∉ ts) ∧
      ∀ z, lex (u ++ d :: z) = (lex (d :: z)).map (ts ++ ·) := by
  -- by induction on the length, since a token takes any number of characters
  generalize hn : u.length = n
  induction n using Nat.strongRecOn generalizing u with
  | _ n ih =>
  rcases u with _ | ⟨c, u⟩
  · exact .inr ⟨[], fun _ => List.not_mem_nil, fun z => by simp⟩
  obtain ⟨hc, hrest⟩ := not_or.mp (mt List.mem_cons.mpr hu)
  by_cases hblank : c.isWhitespace = true
  · rcases ih u.length (by simp [← hn]) hrest rfl with hnone | ⟨ts, hts, hlex⟩
    · exact .inl fun z => (lex_whitespace hblank _).trans (hnone z)
    · exact .inr ⟨ts, hts, fun z => (lex_whitespace hblank _).trans (hlex z)⟩
  rw [Bool.not_eq_true] at hblank
  rcases next?_append hd (Ne.symm hc) u with hnone | ⟨t, u', ht, hsuffix, hnext⟩
  · left
    intro z
    rw [List.cons_append, lex]
    simp [hblank, hnone]
  have hlength := hsuffix.length_le
  have hcons (z : List Char) : lex (c :: u ++ d :: z) = (lex (u' ++ d :: z)).map (t :: ·) :=
    lex_cons hblank (hnext z) (by simpa using hlength)
  have hquote : '"' ∉ u' := fun hmem => hrest (hsuffix.subset hmem)
  rcases ih u'.length (by simp [← hn]; omega) hquote rfl with hnone | ⟨ts, hts, hlex⟩
  · left
    intro z
    rw [hcons, hnone, Option.map_none]
  · right
    refine ⟨t :: ts, fun text hmem => ?_, fun z => ?_⟩
    · rcases List.mem_cons.mp hmem with rfl | hmem
      · exact ht text rfl
      · exact hts text hmem
    · rw [hcons, hlex, Option.map_map]
      rfl

end Stops

/-! ### Texts that are the same but for their literals -/

/-- The two tokens are the same and no literals, or they are literals whose texts `P` relates. -/
inductive SameBut (P : String → String → Prop) : Token → Token → Prop
  | same {t : Token} : (∀ text, t ≠ literal text) → SameBut P t t
  | literal {a b : String} : P a b → SameBut P (literal a) (literal b)

/-- The two texts have the same tokens but for their literals, or neither of them has tokens. -/
def LexedAlike (P : String → String → Prop) (u v : List Char) : Prop :=
  Option.Rel (List.Forall₂ (SameBut P)) (lex u) (lex v)

variable {P : String → String → Prop}

theorem sameBut_self {ts : List Token} (h : ∀ text, literal text ∈ ts → P text text) :
    List.Forall₂ (SameBut P) ts ts := by
  rw [List.forall₂_same]
  intro t ht
  by_cases hliteral : ∃ text, t = literal text
  · obtain ⟨text, rfl⟩ := hliteral
    exact .literal (h text ht)
  · exact .same fun text htext => hliteral ⟨text, htext⟩

namespace LexedAlike

variable {u v z z' : List Char}

theorem of_none (hu : lex u = none) (hv : lex v = none) : LexedAlike P u v := by
  rw [LexedAlike, hu, hv]
  exact .none

/-- More tokens in front. -/
theorem of_map {ts ts' : List Token} (hts : List.Forall₂ (SameBut P) ts ts')
    (hu : lex u = (lex z).map (ts ++ ·)) (hv : lex v = (lex z').map (ts' ++ ·))
    (h : LexedAlike P z z') : LexedAlike P u v := by
  rw [LexedAlike] at h ⊢
  rw [hu, hv]
  generalize lex z = read at h
  generalize lex z' = read' at h
  cases h with
  | none => exact .none
  | some h => exact .some (List.rel_append hts h)

/-- The same text in front of both. -/
theorem append {d : Char} (hd : isPlain d = false) (hu : '"' ∉ u)
    (h : LexedAlike P (d :: z) (d :: z')) : LexedAlike P (u ++ d :: z) (u ++ d :: z') := by
  rcases lex_append hd hu with hnone | ⟨ts, hts, hlex⟩
  · exact .of_none (hnone z) (hnone z')
  · have hself := sameBut_self (P := P) fun text hmem => absurd hmem (hts text)
    exact .of_map hself (hlex z) (hlex z') h

theorem feed (h : LexedAlike P z z') : LexedAlike P ('\n' :: z) ('\n' :: z') := by
  rwa [LexedAlike, lex_whitespace rfl, lex_whitespace rfl]

theorem not_mem_append {before : List Char} {c : Char} (hbefore : '"' ∉ before)
    (hc : isPlain c = true) : '"' ∉ before ++ [c] := by
  rw [List.mem_append, List.mem_singleton]
  rintro (hmem | rfl)
  · exact hbefore hmem
  · cases hc

/-- **A line has the same tokens but for its literals**, behind whatever has been read without a
quote so far. -/
theorem line (h : Text.SameBut P u v) (hz : LexedAlike P z z') (before : List Char)
    (hbefore : '"' ∉ before) :
    LexedAlike P (before ++ (u ++ '\n' :: z)) (before ++ (v ++ '\n' :: z')) := by
  -- `before` grows up to the next literal, since a token may go on from it into the line
  induction h generalizing before with
  | nil => exact append rfl hbefore hz.feed
  | @char c u v hc _ ih =>
    have hline := ih (before ++ [c]) (not_mem_append hbefore hc)
    rwa [List.append_assoc, List.append_assoc] at hline
  | @literal a b u v hab _ ih =>
    have hliteral : LexedAlike P (Text.Quoted.encode a.toList ++ (u ++ '\n' :: z))
        (Text.Quoted.encode b.toList ++ (v ++ '\n' :: z')) :=
      .of_map (.cons (.literal hab) .nil) (lex_literal a _) (lex_literal b _)
        (ih [] List.not_mem_nil)
    rw [List.append_assoc, List.append_assoc]
    exact append rfl hbefore hliteral

end LexedAlike

/-! ### Literals that were open before -/

theorem readBody_feed (z : List Char) : readBody ('\n' :: z) = none := by
  rw [Text.Quoted.readBody.eq_def]
  rfl

theorem readBody_backslash (c : Char) (z : List Char) :
    readBody ('\\' :: c :: z) = (escaped? c).bind fun d => (readBody z).map (withChar d) := by
  rw [Text.Quoted.readBody.eq_def]
  simp only [Char.reduceEq, if_false, if_true]
  cases escaped? c <;> rfl

theorem readBody_other {c : Char} (hquote : c ≠ '"') (hbackslash : c ≠ '\\') (hfeed : c ≠ '\n')
    (z : List Char) : readBody (c :: z) = (readBody z).map (withChar c) := by
  rw [Text.Quoted.readBody.eq_def]
  simp only [if_neg hquote, if_neg hbackslash, if_neg hfeed]

/-- In front of the text a literal is open, and it leads nowhere: either it has no end in the text,
or behind its end there are no tokens. -/
def Lost (text : List Char) : Prop :=
  ∀ content rest, readBody text = some (content, rest) → lex rest = none

namespace Lost

variable {u v z : List Char}

theorem lex_eq_none (h : Lost z) : lex ('"' :: z) = none := by
  have hnext : next? '"' z =
      (readBody z).map fun read => (literal (String.ofList read.1), read.2) := rfl
  rw [lex, if_neg (by decide), hnext]
  cases hread : readBody z with
  | none => rfl
  | some read => simp only [Option.map_some, h read.1 read.2 hread, Option.map_none, ite_self]

theorem of_map {c : Char} (hread : readBody u = (readBody z).map (withChar c)) (h : Lost z) :
    Lost u := by
  intro content rest hu
  rw [hread] at hu
  obtain ⟨⟨content', rest'⟩, hz, heq⟩ := Option.map_eq_some_iff.mp hu
  obtain ⟨-, rfl⟩ := Prod.mk.inj heq
  exact h content' rest' hz

theorem feed (z : List Char) : Lost ('\n' :: z) := by
  intro content rest hread
  rw [readBody_feed] at hread
  cases hread

theorem plain {c : Char} (hc : isPlain c = true) (h : Lost z) : Lost (c :: z) := by
  have hread : readBody (c :: z) = (readBody z).map (withChar c) := by
    refine readBody_other ?_ ?_ ?_ z <;> rintro rfl <;> cases hc
  exact h.of_map hread

/-- A character behind a backslash is never an end. -/
theorem escape (h : Lost z) (e : Char) : Lost ('\\' :: e :: z) := by
  intro content rest hread
  rw [readBody_backslash] at hread
  obtain ⟨d, -, hread⟩ := Option.bind_eq_some_iff.mp hread
  obtain ⟨⟨content', rest'⟩, hz, heq⟩ := Option.map_eq_some_iff.mp hread
  obtain ⟨-, rfl⟩ := Prod.mk.inj heq
  exact h content' rest' hz

theorem quote (h : lex z = none) : Lost ('"' :: z) := by
  intro content rest hread
  rw [Text.Quoted.readBody.eq_def] at hread
  obtain ⟨-, rfl⟩ := Prod.mk.inj (Option.some.inj hread)
  exact h

end Lost

theorem lex_backslash (z : List Char) : lex ('\\' :: z) = none := by
  have hnext : next? '\\' z = none := rfl
  rw [lex, if_neg (by decide), hnext]

/-- The text of a literal read as code: it has no tokens, or they end at the quote behind it, which
opens a literal. -/
theorem lex_content {z : List Char} (hz : lex ('"' :: z) = none) (text : List Char)
    (before : List Char) (hbefore : '"' ∉ before) :
    lex (before ++ (text.flatMap escape ++ '"' :: z)) = none := by
  induction text generalizing before with
  | nil =>
    rcases lex_append (d := '"') rfl hbefore with hnone | ⟨ts, -, hlex⟩
    · exact hnone z
    · exact (hlex z).trans (by rw [hz, Option.map_none])
  | cons c text ih =>
    rw [List.flatMap_cons, List.append_assoc]
    rcases Text.Quoted.escape_cases c with ⟨hself, hplain⟩ | ⟨e, hescape, -⟩
    · have hmore := ih (before ++ [c]) (LexedAlike.not_mem_append hbefore hplain)
      rw [List.append_assoc] at hmore
      rwa [hself]
    · -- outside of a literal a backslash is no token
      rw [hescape]
      rcases lex_append (d := '\\') rfl hbefore with hnone | ⟨ts, -, hlex⟩
      · exact hnone _
      · refine (hlex _).trans ?_
        rw [lex_backslash, Option.map_none]

/-- **A literal that is open in front of a line is lost**, whatever literals are written in
it. -/
theorem lost_line {u v : List Char} (h : Text.SameBut P u v) (z : List Char) :
    Lost (u ++ '\n' :: z) := by
  induction h with
  | nil => exact Lost.feed z
  | char hc _ ih => exact ih.plain hc
  | @literal a b u v _ _ ih =>
    rw [Text.Quoted.encode, List.append_assoc, List.cons_append, List.append_assoc,
      List.singleton_append]
    refine Lost.quote ?_
    exact lex_content ih.lex_eq_none a.toList [] List.not_mem_nil

/-! ### What stands in front of a line -/

/-- A literal that is open in front of `u` ends in `u`, or else it is lost if it is lost in front of
what follows, both with and without the first character of that, which may stand behind a
backslash. -/
def EndsOrRuns (u : List Char) : Prop :=
  (∃ content rest, rest <:+ u ∧ ∀ z, readBody (u ++ z) = some (content, rest ++ z)) ∨
    ∀ z, Lost z → Lost z.tail → Lost (u ++ z)

theorem EndsOrRuns.of_map {u v : List Char} {c : Char} (h : EndsOrRuns v) (hsuffix : v <:+ u)
    (hread : ∀ z, readBody (u ++ z) = (readBody (v ++ z)).map (withChar c)) : EndsOrRuns u := by
  rcases h with ⟨content, rest, hrest, hv⟩ | hlost
  · refine .inl ⟨c :: content, rest, hrest.trans hsuffix, fun z => ?_⟩
    rw [hread, hv]
    rfl
  · exact .inr fun z hz htail => (hlost z hz htail).of_map (hread z)

theorem endsOrRuns (u : List Char) : EndsOrRuns u := by
  -- by induction on the length, since an escape takes two characters
  generalize hn : u.length = n
  induction n using Nat.strongRecOn generalizing u with
  | _ n ih =>
  rcases u with _ | ⟨c, u⟩
  · exact .inr fun z hz _ => hz
  by_cases hquote : c = '"'
  · subst hquote
    refine .inl ⟨[], u, List.suffix_cons _ u, fun z => ?_⟩
    rw [List.cons_append, Text.Quoted.readBody.eq_def]
    rfl
  by_cases hfeed : c = '\n'
  · subst hfeed
    exact .inr fun z _ _ => Lost.feed _
  by_cases hbackslash : c = '\\'
  · subst hbackslash
    rcases u with _ | ⟨e, u⟩
    · -- a backslash at the end of `u` takes the first character of what follows
      right
      rintro (_ | ⟨e, z⟩) - htail
      · intro content rest hread
        cases hread
      · exact htail.escape e
    cases he : escaped? e with
    | none =>
      right
      intro z _ _ content rest hread
      rw [List.cons_append, List.cons_append, readBody_backslash, he] at hread
      cases hread
    | some d =>
      have hlength : u.length < n := by
        rw [← hn, List.length_cons, List.length_cons]
        omega
      refine (ih u.length hlength u rfl).of_map (c := d) (List.suffix_append ['\\', e] u) ?_
      intro z
      rw [List.cons_append, List.cons_append, readBody_backslash, he, Option.bind_some]
  · have hlength : u.length < n := by
      rw [← hn, List.length_cons]
      omega
    refine (ih u.length hlength u rfl).of_map (c := c) (List.suffix_cons c u) ?_
    intro z
    exact readBody_other hquote hbackslash hfeed _

/-- **What stands in front of a line** has tokens up to a part without quotes, with which the line
may go on, or else it leaves a literal open. It has literals only if it has quotes. -/
theorem lex_front (u : List Char) :
    (∃ ts last, (∀ text, literal text ∈ ts → '"' ∈ u) ∧ '"' ∉ last ∧
      ∀ z, lex (u ++ z) = (lex (last ++ z)).map (ts ++ ·)) ∨
    ∀ z, Lost z → Lost z.tail → lex (u ++ z) = none := by
  -- by induction on the length: what stands behind a literal of `u` is a shorter front
  generalize hn : u.length = n
  induction n using Nat.strongRecOn generalizing u with
  | _ n ih =>
  by_cases hquote : '"' ∈ u
  swap
  · exact .inl ⟨[], u, by simp, hquote, fun z => by simp⟩
  obtain ⟨before, more, hu, hbefore⟩ := List.eq_append_cons_of_mem hquote
  rcases lex_append (d := '"') rfl hbefore with hnone | ⟨ts, -, hlex⟩
  · right
    intro z _ _
    rw [hu, List.append_assoc, List.cons_append, hnone]
  have hopen (z : List Char) : lex (u ++ z) = (lex ('"' :: (more ++ z))).map (ts ++ ·) := by
    rw [hu, List.append_assoc, List.cons_append, hlex]
  rcases endsOrRuns more with ⟨content, rest, hsuffix, hread⟩ | hlost
  swap
  · right
    intro z hz htail
    rw [hopen, (hlost z hz htail).lex_eq_none, Option.map_none]
  have hclosed (z : List Char) : lex ('"' :: (more ++ z)) =
      (lex (rest ++ z)).map (literal (String.ofList content) :: ·) := by
    have hnext : next? '"' (more ++ z) = (readBody (more ++ z)).map
        fun read => (literal (String.ofList read.1), read.2) := rfl
    rw [hread, Option.map_some] at hnext
    exact lex_cons rfl hnext (by simpa using hsuffix.length_le)
  have hlength : rest.length < n := by
    have := hsuffix.length_le
    rw [← hn, hu, List.length_append, List.length_cons]
    omega
  rcases ih rest.length hlength rest rfl with ⟨ts', last, -, hlast, hrest⟩ | hnone
  · left
    refine ⟨ts ++ literal (String.ofList content) :: ts', last, fun _ _ => hquote, hlast, ?_⟩
    intro z
    rw [hopen, hclosed, hrest, Option.map_map, Option.map_map]
    simp [Function.comp_def]
  · right
    intro z hz htail
    rw [hopen, hclosed, hnone z hz htail, Option.map_none, Option.map_none]

/-- A literal that is open in front of a line is lost behind the first character of the line as
well, unless that is a quote. -/
theorem lost_tail {u v : List Char} (h : Text.SameBut P u v) (hstart : Text.startsPlain u = true)
    (z : List Char) : Lost (u ++ '\n' :: z).tail := by
  cases h with
  | nil => cases hstart
  | char _ h => exact lost_line h z
  | literal _ _ => cases hstart

/-- **Lines that are the same but for their literals have the same tokens but for these**, whatever
text stands in front of each line, if the lines do not start with literals. -/
theorem LexedAlike.lines {front : List Char} (hself : '"' ∈ front → ∀ text, P text text)
    {us vs : List (List Char)}
    (h : List.Forall₂ (fun u v => Text.SameBut P u v ∧ Text.startsPlain u = true) us vs) :
    LexedAlike P (us.flatMap fun u => front ++ (u ++ ['\n']))
      (vs.flatMap fun v => front ++ (v ++ ['\n'])) := by
  induction h with
  | nil =>
    rw [LexedAlike, List.flatMap_nil, lex]
    exact .some .nil
  | @cons u v us vs huv _ ih =>
    obtain ⟨huv, hstart⟩ := huv
    simp only [List.flatMap_cons, List.append_assoc, List.singleton_append]
    -- whether a literal is open in front of the line is the same for both, which have one front
    rcases lex_front front with ⟨ts, last, hts, hlast, hlex⟩ | hnone
    · have hfront := sameBut_self (P := P) fun text hmem => hself (hts text hmem) text
      exact .of_map hfront (hlex _) (hlex _) (.line huv ih last hlast)
    · have hstart' := hstart
      rw [huv.startsPlain_eq] at hstart'
      exact .of_none (hnone _ (lost_line huv _) (lost_tail huv hstart _))
        (hnone _ (lost_line huv.symm _) (lost_tail huv.symm hstart' _))

end Token

end BlockSketch
