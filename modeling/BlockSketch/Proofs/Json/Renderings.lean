import BlockSketch.Json.Printer
import BlockSketch.Json.Reader
import BlockSketch.Table

/-!
# How JSON may be written

One value has many texts. Blanks may stand around every part of it, the characters of a string may be
escaped in several ways, and the members of an object may come in any order. The grammar here says
which texts a value has, and it knows nothing of readers:

* `Json.Row` is what stands between two brackets: items with commas between them and blanks around
  them, where a relation between texts and values says how a single item may be written.
* `Json.StringText` is a string, character by character.
* `Json.ValueText` is a value. Values with doubles in them are not among those considered.
* `Json.WellFormed` is what has the form of a value, whatever it stands for. Escapes need not make
  characters there, and numbers need not fit anywhere.
* `Json.RecordText` is a record, which has members of its own: an array of them in their places, or
  an object with names, in which other members may stand and some may be missing.

Where the number of brackets matters, it is the first argument: at most so many are open at once.
-/

namespace BlockSketch

namespace Json

/-! ### Rows -/

/-- Blanks, as many as there may be. -/
def Gap (chars : List Char) : Prop :=
  ∀ c ∈ chars, c ∈ [' ', '\t', '\n', '\r']

/-- What stands between two brackets, from the opening one (`true`) or from behind an item
(`false`). Each item is written as `P` says. -/
inductive Row {α : Type} (P : List Char → α → Prop) : Bool → List Char → List α → Prop
  | nil {first : Bool} {gap : List Char} : Gap gap → Row P first gap []
  | first {gap chars rest : List Char} {a : α} {as : List α} : Gap gap → P chars a →
      Row P false rest as → Row P true (gap ++ (chars ++ rest)) (a :: as)
  | more {gap gap' chars rest : List Char} {a : α} {as : List α} : Gap gap → Gap gap' →
      P chars a → Row P false rest as →
      Row P false (gap ++ ',' :: (gap' ++ (chars ++ rest))) (a :: as)

/-- An array of items that are written as `P` says. -/
def ArrayText {α : Type} (P : List Char → α → Prop) (chars : List Char) (as : List α) : Prop :=
  ∃ inside, Row P true inside as ∧ chars = '[' :: (inside ++ [']'])

/-- A member of an object, with a name as `N` says and a value as `P` says. -/
def MemberText {ν α : Type} (N : List Char → ν → Prop) (P : List Char → α → Prop)
    (chars : List Char) (m : ν × α) : Prop :=
  ∃ name gap gap' value, N name m.1 ∧ Gap gap ∧ Gap gap' ∧ P value m.2 ∧
    chars = name ++ (gap ++ ':' :: (gap' ++ value))

/-- An object with these members in this order. -/
def ObjectText {ν α : Type} (N : List Char → ν → Prop) (P : List Char → α → Prop)
    (chars : List Char) (ms : List (ν × α)) : Prop :=
  ∃ inside, Row (MemberText N P) true inside ms ∧ chars = '\x7b' :: (inside ++ ['\x7d'])

/-! ### Strings -/

/-- The characters that have an escape of one letter, each with its letter in front. -/
def letters : List (Char × Char) :=
  [('"', '"'), ('\\', '\\'), ('/', '/'), ('b', '\x08'), ('f', '\x0c'), ('n', '\n'), ('r', '\r'),
    ('t', '\t')]

/-- A hexadecimal digit, in either case. -/
def IsHexDigit (n : Nat) (c : Char) : Prop :=
  n < 16 ∧ (c = hexChar n ∨ c = (hexChar n).toUpper)

/-- Four hexadecimal digits for a code unit. -/
def UnitText (unit : Nat) (chars : List Char) : Prop :=
  ∃ a b c d, IsHexDigit (unit / 0x1000) a ∧ IsHexDigit (unit / 0x100 % 16) b ∧
    IsHexDigit (unit / 0x10 % 16) c ∧ IsHexDigit (unit % 16) d ∧ chars = [a, b, c, d]

/-- A character inside a string: as it is, by an escape of one letter, or by its code units, of
which a character past the first 65536 has two. -/
inductive CharText (c : Char) : List Char → Prop
  | plain : c ≠ '"' → c ≠ '\\' → 0x20 ≤ c.toNat → CharText c [c]
  | letter {e : Char} : (e, c) ∈ letters → CharText c ['\\', e]
  | unit {digits : List Char} : c.toNat < 0x10000 → UnitText c.toNat digits →
      CharText c ('\\' :: 'u' :: digits)
  | pair {high low : List Char} : 0x10000 ≤ c.toNat →
      UnitText (0xD800 + (c.toNat - 0x10000) / 0x400) high →
      UnitText (0xDC00 + (c.toNat - 0x10000) % 0x400) low →
      CharText c ('\\' :: 'u' :: (high ++ '\\' :: 'u' :: low))

/-- The characters inside a string, one after the other. -/
inductive CharsText : List Char → List Char → Prop
  | nil : CharsText [] []
  | cons {c : Char} {text piece chars : List Char} : CharText c piece → CharsText chars text →
      CharsText (piece ++ chars) (c :: text)

/-- A string. -/
def StringText (chars : List Char) (s : String) : Prop :=
  ∃ inside, CharsText inside s.toList ∧ chars = '"' :: (inside ++ ['"'])

theorem gap_nil : Gap [] :=
  fun _ hc => nomatch hc

/-- A single blank. -/
theorem gap_blank {c : Char} (h : c ∈ [' ', '\t', '\n', '\r']) : Gap [c] := by
  intro d hd
  rw [List.mem_singleton] at hd
  exact hd ▸ h

/-- A character that may stand as it is. -/
def isPlain (c : Char) : Bool :=
  c != '"' && c != '\\' && 0x20 ≤ c.toNat

theorem charsText_plain {text : List Char} (h : text.all isPlain) : CharsText text text := by
  induction text with
  | nil => exact .nil
  | cons c text ih =>
    rw [List.all_cons, Bool.and_eq_true] at h
    obtain ⟨hc, htext⟩ := h
    simp only [isPlain, Bool.and_eq_true, bne_iff_ne, decide_eq_true_eq] at hc
    exact .cons (.plain hc.1.1 hc.1.2 hc.2) (ih htext)

/-- Characters that may stand as they are make a string between quotes. -/
theorem stringText_plain {s : String} (h : s.toList.all isPlain) :
    StringText ('"' :: (s.toList ++ ['"'])) s :=
  ⟨s.toList, charsText_plain h, rfl⟩

/-- A member with such a name and without blanks. -/
theorem memberText_plain {α : Type} {P : List Char → α → Prop} {name : String} {value : List Char}
    {a : α} (hname : name.toList.all isPlain) (hvalue : P value a) :
    MemberText StringText P ('"' :: (name.toList ++ '"' :: ':' :: value)) (name, a) := by
  refine ⟨_, [], [], value, stringText_plain hname, gap_nil, gap_nil, hvalue, ?_⟩
  rw [List.cons_append, List.append_assoc]
  rfl

/-- What has the form of the characters inside a string. A code unit may be half of a pair. -/
inductive CharsForm : List Char → Prop
  | nil : CharsForm []
  | plain {c : Char} {chars : List Char} : c ≠ '"' → c ≠ '\\' → 0x20 ≤ c.toNat → CharsForm chars →
      CharsForm (c :: chars)
  | letter {e c : Char} {chars : List Char} : (e, c) ∈ letters → CharsForm chars →
      CharsForm ('\\' :: e :: chars)
  | unit {unit : Nat} {digits chars : List Char} : UnitText unit digits → CharsForm chars →
      CharsForm ('\\' :: 'u' :: (digits ++ chars))

/-- What has the form of a string. -/
def StringForm (chars : List Char) : Prop :=
  ∃ inside, CharsForm inside ∧ chars = '"' :: (inside ++ ['"'])

/-! ### Numbers -/

/-- At least one digit. -/
def DigitsText (chars : List Char) : Prop :=
  ∃ d digits, chars = Digits.chars (d :: digits)

/-- The digits before the point: a zero alone, or digits that do not start with one. -/
def WholeText (chars : List Char) : Prop :=
  ∃ d digits, (d = Digit.zero → digits = []) ∧ chars = Digits.chars (d :: digits)

/-- A point with digits, if there is one. -/
def FractionText (chars : List Char) : Prop :=
  chars = [] ∨ ∃ digits, DigitsText digits ∧ chars = '.' :: digits

/-- An exponent with a sign or without, if there is one. -/
def ExponentText (chars : List Char) : Prop :=
  chars = [] ∨ ∃ e sign digits, e ∈ ['e', 'E'] ∧ sign ∈ [[], ['+'], ['-']] ∧ DigitsText digits ∧
    chars = e :: (sign ++ digits)

/-- What has the form of a number. -/
def NumberForm (chars : List Char) : Prop :=
  ∃ sign whole fraction exponent, (sign = [] ∨ sign = ['-']) ∧ WholeText whole ∧
    FractionText fraction ∧ ExponentText exponent ∧
    chars = sign ++ (whole ++ (fraction ++ exponent))

/-! ### Values -/

/-- The words that are values. -/
def words : List (List Char) :=
  [['n', 'u', 'l', 'l'], ['t', 'r', 'u', 'e'], ['f', 'a', 'l', 's', 'e']]

/-- What has the form of a value. -/
def WellFormed : Nat → List Char → Prop
  | 0, chars => chars ∈ words ∨ StringForm chars ∨ NumberForm chars
  | depth + 1, chars => chars ∈ words ∨ StringForm chars ∨ NumberForm chars ∨
      (∃ places : List Unit, ArrayText (fun item _ => WellFormed depth item) chars places) ∨
      ∃ places : List (Unit × Unit), ObjectText (fun name _ => StringForm name)
        (fun value _ => WellFormed depth value) chars places

/-- The integers of 64 bits, signed or unsigned. -/
def IsWord (n : Int) : Prop :=
  -0x8000000000000000 ≤ n ∧ n ≤ 0xFFFFFFFFFFFFFFFF

end Json

/-- The keys of a table ascend. -/
def Table.Ascending {α : Type} (table : Table α) : Prop :=
  table.Pairwise fun entry entry' => entry.1 < entry'.1

namespace Json

/-- A table is an object with its entries as members, in any order. Entries whose keys do not ascend
are no table. -/
def TableText {α : Type} (P : List Char → α → Prop) (chars : List Char) (table : Table α) : Prop :=
  Table.Ascending table ∧ ∃ ms : List (String × α), ms.Perm table ∧ ObjectText StringText P chars ms

/-- A value whose numbers are integers of 64 bits. -/
def ValueText : Nat → List Char → Json → Prop
  | _, chars, null => chars = ['n', 'u', 'l', 'l']
  | _, chars, bool true => chars = ['t', 'r', 'u', 'e']
  | _, chars, bool false => chars = ['f', 'a', 'l', 's', 'e']
  | _, chars, number n => ∃ k, IsWord k ∧ n = .int k ∧ chars = n.chars
  | _, chars, string s => StringText chars s
  | depth + 1, chars, array items => ArrayText (ValueText depth) chars items
  | depth + 1, chars, object members => TableText (ValueText depth) chars members
  | 0, _, _ => False

/-! ### Records -/

/-- A member of a record: its name, how its value is written, and whether it may be left out. -/
structure Field where
  name : String
  text : List Char → Prop
  optional : Prop

/-- The members of an object that is a record with these fields, by their names and the texts of
their values. -/
structure Describes (fields : List Field) (ms : List (String × List Char)) : Prop where
  known : ∀ f ∈ fields, ∀ value, (f.name, value) ∈ ms → f.text value
  once : ∀ f ∈ fields, (ms.map Prod.fst).count f.name ≤ 1
  needed : ∀ f ∈ fields, f.name ∈ ms.map Prod.fst ∨ f.optional
  /-- the members that are none of the record's -/
  other : ∀ m ∈ ms, m.1 ∉ fields.map Field.name → ∃ depth, WellFormed depth m.2

/-- A record: an array with all its fields in their places, or an object. -/
def RecordText (fields : List Field) (chars : List Char) : Prop :=
  ArrayText (fun text (f : Field) => f.text text) chars fields ∨
    ∃ ms, Describes fields ms ∧ ObjectText StringText Eq chars ms

/-- A value that may be missing. -/
def OptionText {α : Type} (P : List Char → α → Prop) (chars : List Char) : Option α → Prop
  | none => chars = ['n', 'u', 'l', 'l']
  | some a => P chars a

end Json

end BlockSketch
