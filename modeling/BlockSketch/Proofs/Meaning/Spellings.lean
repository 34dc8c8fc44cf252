import BlockSketch.Proofs.Json.Doubles
import BlockSketch.Proofs.Json.Gathering
import BlockSketch.Proofs.Meaning.Numbers

/-!
# One number, spelled in several ways

A number may be put into a block as a JSON number or as a text, and there are several texts for it.
What comes out is decided by the double that the block gets.

* A text is rounded to a double once, and a JSON number perhaps twice. So a number token and the same
  token as a text give the same code exactly if the first is rounded correctly
  (`Block.spellings_agree_iff`), and that is not always so (`Block.spellings_differ`).
* Whole numbers of up to 15 digits are not rounded at all, and so all their spellings give the same
  code, which is their digits (`Block.whole_number_in_digits`).
-/

namespace BlockSketch

/-! ### Texts of numbers -/

namespace Text

/-- Blanks around a text without blanks are cut off. -/
theorem trim_blanks {before text after : List Char} (hbefore : ∀ c ∈ before, isBlank c = true)
    (htext : ∀ c ∈ text, isBlank c = false) (hafter : ∀ c ∈ after, isBlank c = true) :
    trim (before ++ (text ++ after)) = text := by
  cases text with
  | nil =>
    rw [trim, List.nil_append,
      List.dropWhile_eq_nil_iff.mpr (List.forall_mem_append.mpr ⟨hbefore, hafter⟩)]
    rfl
  | cons c text =>
    have hfront : (before ++ (c :: text ++ after)).dropWhile isBlank = c :: text ++ after := by
      rw [List.dropWhile_append_of_pos hbefore, List.cons_append,
        List.dropWhile_cons_of_neg (by simp [htext c List.mem_cons_self])]
    have hback : (c :: text).reverse.dropWhile isBlank = (c :: text).reverse := by
      refine List.dropWhile_eq_self_iff.mpr fun hl => ?_
      rw [Bool.not_eq_true]
      exact htext _ (List.mem_reverse.mp (List.getElem_mem hl))
    rw [trim, hfront, List.reverse_append,
      List.dropWhile_append_of_pos fun d hd => hafter d (List.mem_reverse.mp hd), hback,
      List.reverse_reverse]

end Text

namespace Numeral

variable {n : Numeral} {negative : Bool} {sign chars : List Char}

theorem not_blank_digits (digits : List Digit) :
    ∀ c ∈ Digits.chars digits, Text.isBlank c = false :=
  List.forall_mem_map.mpr fun d _ => (by decide : ∀ d : Digit, Text.isBlank d.char = false) d

theorem SignText.not_blank (h : SignText negative sign) : ∀ c ∈ sign, Text.isBlank c = false := by
  cases h with
  | empty => exact List.forall_mem_nil _
  | plus => exact List.forall_mem_singleton.mpr rfl
  | minus => exact List.forall_mem_singleton.mpr rfl

/-- No blanks stand in a numeral. -/
theorem Text.not_blank (h : n.Text chars) : ∀ c ∈ chars, Text.isBlank c = false := by
  cases h with
  | @parts d digits fraction e fractionText exponentText hfraction hexponent =>
    refine List.forall_mem_append.mpr ⟨not_blank_digits _, List.forall_mem_append.mpr ⟨?_, ?_⟩⟩
    · cases hfraction with
      | empty => exact List.forall_mem_nil _
      | point d digits => exact List.forall_mem_cons.mpr ⟨rfl, not_blank_digits _⟩
    · cases hexponent with
      | empty => exact List.forall_mem_nil _
      | mark d digits hmark hsign =>
        refine List.forall_mem_cons.mpr ⟨?_, ?_⟩
        · simp only [List.mem_cons, List.not_mem_nil, or_false] at hmark
          rcases hmark with rfl | rfl <;> rfl
        · exact List.forall_mem_append.mpr ⟨hsign.not_blank, not_blank_digits _⟩

end Numeral

namespace JsonNumber

variable {v : Binary64} {n : Numeral} {negative : Bool} {i : ℤ} {x : JsonNumber}

/-- A double is read back from its text. -/
theorem ofChars?_double (hv : v.magnitude.Finite) :
    Binary64.ofChars? (double v).chars = some v := by
  have htext := Numeral.text_charsWith .plus (layout.numeral_whole_ne_nil v.magnitude)
  rw [chars, Binary64.ofChars?_text (Numeral.signText_minus v.negative) htext,
    Magnitude.ofDecimal_eq_some_iff.mpr (layout.roundsTo_numeral hv)]
  rfl

/-- An integer of a word is read as the double that it is rounded to. -/
theorem exists_ofChars?_int (h : i.natAbs < 2 ^ 64) :
    ∃ m : Magnitude, m.RoundsTo (⟨i.natAbs, 0⟩ : Decimal).toRat ∧
      Binary64.ofChars? (int i).chars = some ⟨decide (i < 0), m⟩ := by
  have hlargest : (⟨i.natAbs, 0⟩ : Decimal).toRat ≤ Magnitude.largest.toRat :=
    calc (⟨i.natAbs, 0⟩ : Decimal).toRat = i.natAbs := by rw [Decimal.toRat, zpow_zero, mul_one]
      _ ≤ 2 ^ (64 : ℤ) := by exact_mod_cast h.le
      _ ≤ 2 ^ (52 + 971 : ℤ) := zpow_le_zpow_right₀ one_le_two (by decide)
      _ ≤ Magnitude.largest.toRat := Magnitude.le_toRat (by decide)
  obtain ⟨m, hm⟩ := Magnitude.exists_roundsTo (Decimal.toRat_nonneg _) hlargest
  refine ⟨m, hm, ?_⟩
  have htext := Numeral.text_digits (Digits.ofNat_ne_nil i.natAbs)
  rw [chars, Binary64.ofChars?_text (Binary64.signText_int i) htext, Numeral.decimal_digits,
    Digits.toNat_ofNat, Magnitude.ofDecimal_eq_some_iff.mpr hm, Option.map_some]

/-- A numeral that is kept as an integer denotes it. -/
theorem decimal_of_int? (h : int? negative n = some i) :
    n.decimal = ⟨i.natAbs, 0⟩ ∧ negative = decide (i < 0) ∧ i.natAbs < 2 ^ 64 := by
  have hbound : wordBound = 2 ^ 64 := rfl
  obtain ⟨whole, fraction, e⟩ := n
  rw [int?] at h
  split at h
  · next hplain =>
    simp only [Bool.and_eq_true, List.isEmpty_iff, Option.isNone_iff_eq_none] at hplain
    obtain ⟨rfl, rfl⟩ := hplain
    rw [Numeral.decimal_digits]
    dsimp only at h
    generalize Digits.toNat whole = value at h ⊢
    cases negative with
    | true =>
      rw [if_pos rfl] at h
      split at h
      · next hfits =>
        simp only [Bool.and_eq_true, decide_eq_true_eq] at hfits
        obtain rfl := Option.some.inj h
        refine ⟨by rw [Int.natAbs_neg, Int.natAbs_natCast], ?_, ?_⟩
        · rw [decide_eq_true (by omega)]
        · omega
      · cases h
    | false =>
      rw [if_neg Bool.false_ne_true] at h
      split at h
      · next hfits =>
        obtain rfl := Option.some.inj h
        refine ⟨by rw [Int.natAbs_natCast], ?_, ?_⟩
        · rw [decide_eq_false (by omega)]
        · omega
      · cases h
  · cases h

/-- **What a number token is read as**: a double with the sign of the token, which is the one that
the token is rounded to if it is kept as an integer or rounded once. -/
theorem exists_ofChars? (h : ofNumeral? negative n = some x) :
    ∃ v : Binary64, Binary64.ofChars? x.chars = some v ∧ v.negative = negative ∧
      ((∃ i, x = .int i) ∨ n.Exact → v.magnitude.RoundsTo n.decimal.toRat) := by
  rw [ofNumeral?] at h
  cases hint : int? negative n with
  | some i =>
    rw [hint] at h
    obtain rfl := Option.some.inj h
    obtain ⟨hdecimal, rfl, hbound⟩ := decimal_of_int? hint
    obtain ⟨m, hm, hchars⟩ := exists_ofChars?_int hbound
    exact ⟨_, hchars, rfl, fun _ => hdecimal ▸ hm⟩
  | none =>
    rw [hint] at h
    obtain ⟨m, hm, rfl⟩ := Option.map_eq_some_iff.mp h
    refine ⟨⟨negative, m⟩, ofChars?_double (finite_double? hm), rfl, ?_⟩
    rintro (⟨i, hi⟩ | hn)
    · cases hi
    · exact roundsTo_double? hn hm

end JsonNumber

/-! ### Tokens -/

namespace Json.NumberText

variable {n : Numeral} {negative : Bool} {chars : List Char}

/-- A token spells one number only. -/
theorem read (h : NumberText negative n chars) : Numeral.ofChars? chars = some (negative, n) := by
  obtain ⟨-, htext⟩ := h
  exact Numeral.ofChars?_text (Numeral.signText_minus negative) htext

/-- A token is also a number in writing. -/
theorem ofChars? (h : NumberText negative n chars) :
    Binary64.ofChars? chars = (Magnitude.ofDecimal n.decimal).map (⟨negative, ·⟩) := by
  obtain ⟨-, htext⟩ := h
  exact Binary64.ofChars?_text (Numeral.signText_minus negative) htext

theorem not_blank (h : NumberText negative n chars) : ∀ c ∈ chars, Text.isBlank c = false := by
  obtain ⟨-, htext⟩ := h
  exact List.forall_mem_append.mpr ⟨(Numeral.signText_minus negative).not_blank, htext.not_blank⟩

/-- A text that is one token is read as what its numeral makes of it. -/
theorem whole_json {t : String} (h : NumberText negative n t.toList) :
    Reader.whole Reader.json t =
      match JsonNumber.ofNumeral? negative n with
      | some x => .ok (.number x)
      | none => .error .malformed := by
  obtain ⟨c, more, hchars, hstart, hrun⟩ := Reader.run_scalar_number h Reader.stops_nil
  have hjson : (Reader.json Reader.depth).run t.toList = Reader.scalar.run t.toList := by
    rw [hchars, Reader.run_json_scalar hstart]
  rw [List.append_nil] at hrun
  rw [Reader.whole, hjson, hrun]
  cases JsonNumber.ofNumeral? negative n <;> rfl

/-- What is read is a number. -/
theorem exists_of_whole_json {t : String} {value : Json} (h : NumberText negative n t.toList)
    (hread : Reader.whole Reader.json t = .ok value) :
    ∃ x, value = .number x ∧ JsonNumber.ofNumeral? negative n = some x := by
  rw [h.whole_json] at hread
  cases hx : JsonNumber.ofNumeral? negative n with
  | none =>
    rw [hx] at hread
    cases hread
  | some x =>
    rw [hx] at hread
    exact ⟨x, (Except.ok.inj hread).symm, rfl⟩

end Json.NumberText

/-! ### Number blocks -/

/-- The magnitude of a number can be told from its fragment. -/
theorem Fragment.ofNumber_inj {v w : Binary64} (hv : v.magnitude.Finite) (hw : w.magnitude.Finite)
    (h : ofNumber v = ofNumber w) : v.magnitude = w.magnitude := by
  have hnumeral : Expr.numberLayout.numeral v.magnitude =
      Expr.numberLayout.numeral w.magnitude := by
    have h := congrArg Fragment.expr h
    simp only [ofNumber, Expr.number] at h
    split at h <;> split at h
    · exact Expr.numeral.inj (Expr.negate.inj h)
    · cases h
    · cases h
    · exact Expr.numeral.inj h
  have hroundsTo := Expr.numberLayout.roundsTo_numeral hv
  rw [hnumeral] at hroundsTo
  exact hroundsTo.unique (Expr.numberLayout.roundsTo_numeral hw)

namespace Block

variable {b c : Block} {t : String} {value : Json}

theorem Head.number_of_number {head : Head} {field : String} {x : JsonNumber} {v : Binary64}
    (hfield : head.field? field = some (.number x)) (hv : Binary64.ofChars? x.chars = some v) :
    head.number field = .ok v := by
  rw [number, hfield]
  simp only [Json.chars, hv]

theorem Head.number_of_string {head : Head} {field : String}
    (hfield : head.field? field = some (.string t)) :
    head.number field =
      match Binary64.ofChars? (Text.trim t.toList) with
      | some v => .ok v
      | none => .error (.invalidNumber head.type field (String.ofList (Text.trim t.toList))) := by
  cases hread : Binary64.ofChars? (Text.trim t.toList) <;> simp only [number, hfield, hread]

/-- **A number token and its text** give the same code exactly if the token is read as the double
that it is rounded to. It is if it is kept as an integer, and also if neither its digits nor its
power of ten have to be rounded. -/
theorem spellings_agree_iff (ht : Json.NumberForm t.toList)
    (hread : Reader.whole Reader.json t = .ok value)
    (htype : b.type = "math_number") (hfield : b.head.field? "NUM" = some value)
    (htype' : c.type = "math_number") (hfield' : c.head.field? "NUM" = some (.string t)) :
    ∃ negative n v, Json.NumberText negative n t.toList ∧
      b.head.number "NUM" = .ok v ∧ v.negative = negative ∧
      (∀ s : Session, s.perform b.code = (.ok (.value (.ofNumber v)), s) ∧
        (s.perform c.code = s.perform b.code ↔ v.magnitude.RoundsTo n.decimal.toRat)) ∧
      ((∃ i, value = .number (.int i)) ∨ n.Exact → v.magnitude.RoundsTo n.decimal.toRat) := by
  obtain ⟨negative, n, htoken⟩ := Json.exists_numberText ht
  obtain ⟨x, rfl, hx⟩ := htoken.exists_of_whole_json hread
  obtain ⟨v, hchars, rfl, hexact⟩ := JsonNumber.exists_ofChars? hx
  have hv := Head.number_of_number hfield hchars
  have htrim : Text.trim t.toList = t.toList := by
    have htrim := Text.trim_blanks (List.forall_mem_nil _) htoken.not_blank (List.forall_mem_nil _)
    rwa [List.nil_append, List.append_nil] at htrim
  have hb (s : Session) : s.perform b.code = (.ok (.value (.ofNumber v)), s) := by
    rw [perform_number s htype, hv]
    rfl
  refine ⟨v.negative, n, v, htoken, hv, rfl, fun s => ⟨hb s, ?_⟩, fun h => hexact ?_⟩
  · rw [hb, perform_number s htype', Head.number_of_string hfield', htrim, htoken.ofChars?,
      ← Magnitude.ofDecimal_eq_some_iff]
    cases hrounded : Magnitude.ofDecimal n.decimal with
    | none => exact ⟨fun h => absurd (Prod.mk.inj h).1 nofun, nofun⟩
    | some m =>
      have hm := (Magnitude.ofDecimal_eq_some_iff.mp hrounded).finite
      constructor
      · intro h
        have hfragment := Code.value.inj (Except.ok.inj (Prod.mk.inj h).1)
        exact congrArg some (Fragment.ofNumber_inj hm (Head.finite_number hv) hfragment)
      · intro h
        obtain rfl := Option.some.inj h
        rfl
  · exact h.imp_left fun ⟨i, hi⟩ => ⟨i, Json.number.inj hi⟩

/-- The double that `3e23` is read as if it is a JSON number: the one below the nearest. -/
def belowNearest : Binary64 :=
  ⟨false, ⟨8940696716308593, 25⟩⟩

/-- `3e23` and `"3e23"` become different numbers: the power of ten is no double and is rounded
before it is multiplied. -/
theorem spellings_differ :
    Json.NumberForm "3e23".toList ∧
      Reader.whole Reader.json "3e23" = .ok (.number (.double belowNearest)) ∧ ∃ f g,
      (Session.new {}).perform (holding (.number (.double belowNearest))).code =
        (.ok (.value f), Session.new {}) ∧
      (Session.new {}).perform (holding (.string "3e23")).code = (.ok (.value g), Session.new {}) ∧
      f.text = "2.9999999999999997e23" ∧ g.text = "3e23" := by
  refine ⟨?_, rfl, .ofNumber belowNearest, .ofNumber ⟨false, ⟨8940696716308594, 25⟩⟩, ?_, ?_, ?_, ?_⟩
  · exact ⟨[], ['3'], [], ['e', '2', '3'], .inl rfl, ⟨3, [], by decide, rfl⟩, .inl rfl,
      .inr ⟨'e', [], ['2', '3'], by decide, by decide, ⟨2, [3], rfl⟩, rfl⟩, rfl⟩
  · have hfinite : belowNearest.magnitude.Finite :=
      ⟨⟨by decide, by decide, .inr (by decide)⟩, by decide⟩
    rw [perform_number _ rfl, Head.number_of_number rfl (JsonNumber.ofChars?_double hfinite)]
    rfl
  · have hread : Binary64.ofChars? (Text.trim "3e23".toList) =
        some ⟨false, ⟨8940696716308594, 25⟩⟩ := by decide +kernel
    rw [perform_number _ rfl, Head.number_of_string rfl, hread]
    rfl
  · decide +kernel
  · decide +kernel

/-- `-2.50` and `"-2.50"` become the same number. -/
theorem short_spellings_agree :
    Json.NumberForm "-2.50".toList ∧
      Reader.whole Reader.json "-2.50" = .ok (.number (.double ⟨true, ⟨5629499534213120, -51⟩⟩)) ∧
      (Session.new {}).perform (holding (.string "-2.50")).code =
        (Session.new {}).perform
          (holding (.number (.double ⟨true, ⟨5629499534213120, -51⟩⟩))).code := by
  have hform : Json.NumberForm "-2.50".toList :=
    ⟨['-'], ['2'], ['.', '5', '0'], [], .inr rfl, ⟨2, [], by decide, rfl⟩,
      .inr ⟨['5', '0'], ⟨5, [0], rfl⟩, rfl⟩, .inl rfl, rfl⟩
  have hread : Reader.whole Reader.json "-2.50" =
      .ok (.number (.double ⟨true, ⟨5629499534213120, -51⟩⟩)) := rfl
  refine ⟨hform, hread, ?_⟩
  obtain ⟨negative, n, v, htoken, -, -, hagree, hexact⟩ :=
    spellings_agree_iff hform hread (b := holding _) (c := holding _) rfl rfl rfl rfl
  have hn : Numeral.ofChars? "-2.50".toList = some (true, ⟨[2], [5, 0], none⟩) := by decide +kernel
  obtain ⟨-, rfl⟩ := Prod.mk.inj (Option.some.inj (htoken.read.symm.trans hn))
  exact (hagree _).2.mpr (hexact (.inr ⟨by decide, by decide⟩))

end Block

/-! ### Whole numbers -/

/-- The ways to write a whole number into a block: as a token that the reader takes, or as a text
with blanks around it, where zeros may stand in front of the digits, and a sign in front of them. A
zero may have any sign. -/
inductive Json.Whole : ℤ → Json → Prop
  | token {negative : Bool} {m : ℕ} {t : String} {value : Json} :
      t.toList = (if negative then ['-'] else []) ++ Nat.toDigits 10 m →
      Reader.whole Reader.json t = .ok value → Whole (if negative then -m else m) value
  | text {negative : Bool} {m zeros : ℕ} {before sign after : List Char} :
      (∀ c ∈ before, Text.isBlank c = true) → Numeral.SignText negative sign →
      (∀ c ∈ after, Text.isBlank c = true) → Whole (if negative then -m else m)
        (.string (String.ofList (before ++
          ((sign ++ (List.replicate zeros '0' ++ Nat.toDigits 10 m)) ++ after))))

theorem toString_eq_ofList (n : ℤ) :
    toString n = String.ofList ((if n < 0 then ['-'] else []) ++ Nat.toDigits 10 n.natAbs) := by
  cases n with
  | ofNat m => rfl
  | negSucc m =>
    rw [if_pos (Int.negSucc_lt_zero m), String.ofList_append]
    rfl

section Digits

variable {m : ℕ} {negative : Bool}

/-- The digits of a number, written as a numeral. -/
theorem Numeral.chars_ofNat (m : ℕ) : (ofNat m).chars = Nat.toDigits 10 m := by
  rw [chars, charsWith, ofNat, Digits.chars_ofNat]
  exact (List.append_nil _).trans (List.append_nil _)

theorem Numeral.decimal_ofNat (m : ℕ) : (ofNat m).decimal = ⟨m, 0⟩ := by
  rw [ofNat, decimal_digits, Digits.toNat_ofNat]

/-- The digits of a number make a token. -/
theorem Json.numberText_ofNat (negative : Bool) (m : ℕ) : NumberText negative (.ofNat m)
    ((if negative then ['-'] else []) ++ Nat.toDigits 10 m) := by
  rw [← Digits.chars_ofNat]
  exact .signed (Numeral.tidy_ofNat m) (Numeral.text_digits (Digits.ofNat_ne_nil m))

/-- A token of digits is read as the double that it spells, if there is one. -/
theorem JsonNumber.ofChars?_ofNat {x : JsonNumber} (hm : m < 2 ^ 53)
    (h : ofNumeral? negative (.ofNat m) = some x) :
    Binary64.ofChars? x.chars = some ⟨negative, .ofWhole m⟩ := by
  have hdecimal := Numeral.decimal_ofNat m
  obtain ⟨v, hv, rfl, hexact⟩ := exists_ofChars? h
  have hroundsTo := hexact (.inr ⟨hdecimal ▸ hm, hdecimal ▸ Nat.zero_le _⟩)
  have hwhole := Magnitude.ofDecimal_whole (m := m) (j := 0) (by omega)
  rw [pow_zero, mul_one, Nat.cast_zero] at hwhole
  rw [← Magnitude.ofDecimal_eq_some_iff, hdecimal, hwhole] at hroundsTo
  rw [hv, Option.some.inj hroundsTo]

/-- Zeros in front of digits are digits that spell the same number. -/
theorem Binary64.ofChars?_zeros {sign : List Char} (hsign : Numeral.SignText negative sign)
    (zeros : ℕ) (hm : m < 2 ^ 53) :
    ofChars? (sign ++ (List.replicate zeros '0' ++ Nat.toDigits 10 m)) =
      some ⟨negative, .ofWhole m⟩ := by
  have hchars : List.replicate zeros '0' ++ Nat.toDigits 10 m =
      Digits.chars (List.replicate zeros Digit.zero ++ Digits.ofNat m) := by
    rw [← Digits.chars_ofNat, Digits.chars, Digits.chars, List.map_append, List.map_replicate]
    rfl
  have hvalue : Digits.toNat (List.replicate zeros Digit.zero ++ Digits.ofNat m) = m := by
    rw [Digits.toNat_append, Digits.toNat_replicate_zero, Nat.zero_mul, Nat.zero_add,
      Digits.toNat_ofNat]
  have hne : List.replicate zeros Digit.zero ++ Digits.ofNat m ≠ [] :=
    List.append_ne_nil_of_right_ne_nil _ (Digits.ofNat_ne_nil m)
  rw [hchars, ofChars?_digits hsign hne (hvalue.symm ▸ hm), hvalue]

/-- The double of a whole number, with its sign. -/
theorem Binary64.toRat_whole (negative : Bool) (hm : m < 2 ^ 53) :
    (⟨negative, .ofWhole m⟩ : Binary64).toRat =
      ((if negative then -(m : ℤ) else m : ℤ) : ℚ) := by
  rw [toRat, Magnitude.toRat_ofWhole hm]
  cases negative <;> simp

end Digits

namespace Block

variable {b : Block} {n : ℤ} {value : Json}

/-- However a whole number is spelled, the block gets the double that it is. -/
theorem exists_number_of_whole (h : Json.Whole n value) (hn : n.natAbs < 2 ^ 53) {head : Head}
    {field : String} (hfield : head.field? field = some value) :
    ∃ v, head.number field = .ok v ∧ v.toRat = n := by
  cases h with
  | @token negative m t value ht hread =>
    have hm : m < 2 ^ 53 := by cases negative <;> simpa using hn
    have htoken : Json.NumberText negative (.ofNat m) t.toList :=
      ht ▸ Json.numberText_ofNat negative m
    obtain ⟨x, rfl, hx⟩ := htoken.exists_of_whole_json hread
    exact ⟨_, Head.number_of_number hfield (JsonNumber.ofChars?_ofNat hm hx),
      Binary64.toRat_whole negative hm⟩
  | @text negative m zeros before sign after hbefore hsign hafter =>
    have hm : m < 2 ^ 53 := by cases negative <;> simpa using hn
    have hspelled : ∀ c ∈ sign ++ (List.replicate zeros '0' ++ Nat.toDigits 10 m),
        Text.isBlank c = false := by
      refine List.forall_mem_append.mpr ⟨hsign.not_blank, List.forall_mem_append.mpr ⟨?_, ?_⟩⟩
      · exact fun c hc => List.eq_of_mem_replicate hc ▸ rfl
      · rw [← Digits.chars_ofNat]
        exact Numeral.not_blank_digits _
    refine ⟨⟨negative, .ofWhole m⟩, ?_, Binary64.toRat_whole negative hm⟩
    rw [Head.number_of_string hfield, String.toList_ofList,
      Text.trim_blanks hbefore hspelled hafter, Binary64.ofChars?_zeros hsign zeros hm]

/-- **Whole numbers come out as their digits**, however they are spelled. -/
theorem whole_number_in_digits (s : Session) (hn : n.natAbs < 10 ^ 15)
    (htype : b.type = "math_number") (hfield : b.head.field? "NUM" = some value)
    (hvalue : Json.Whole n value) :
    ∃ f, s.perform b.code = (.ok (.value f), s) ∧ f.text = toString n ∧
      f.tier = if n < 0 then .unaryPrefix else .atomic := by
  obtain ⟨v, hv, hrat⟩ := exists_number_of_whole hvalue (by omega) hfield
  obtain ⟨hmagnitude, hnegative⟩ :=
    v.eq_ofWhole_of_toRat (Head.finite_number hv).toCanonical hrat (by omega)
  refine ⟨.ofNumber v, ?_, ?_, ?_⟩
  · rw [perform_number s htype, hv]
    rfl
  · rw [Fragment.text, Fragment.ofNumber, Expr.text, Expr.chars_number, hrat, hmagnitude,
      Expr.numeral_ofWhole hn, Numeral.chars_ofNat, toString_eq_ofList]
    simp only [Int.cast_lt_zero]
  · rw [Fragment.ofNumber, hnegative]
    simp only [decide_eq_true_eq]

/-- A text with blanks, a sign and zeros in front of its digit. -/
theorem minusSeven_in_digits :
    Json.Whole (-7) (.string "\t-007 ") ∧ ∃ f,
      (Session.new {}).perform (holding (.string "\t-007 ")).code =
        (.ok (.value f), Session.new {}) ∧ f.text = toString (-7 : ℤ) ∧ f.tier = .unaryPrefix := by
  have hwhole : Json.Whole (-7) (.string "\t-007 ") :=
    @Json.Whole.text true 7 2 ['\t'] ['-'] [' '] (List.forall_mem_singleton.mpr rfl) .minus
      (List.forall_mem_singleton.mpr rfl)
  exact ⟨hwhole, whole_number_in_digits (Session.new {}) (by decide) rfl rfl hwhole⟩

end Block

end BlockSketch
