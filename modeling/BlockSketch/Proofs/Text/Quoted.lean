import BlockSketch.Text.Quoted
import Mathlib.Data.List.Basic

/-!
# Reading string literals back

The other side of `Text.Quoted.encode`: a reader of C string literals that knows nothing of how they
are written. It ends at the first double quote that no backslash stands before, replaces escapes by
the characters they denote, and refuses a literal that the end of a line cuts off.

`Quoted.read_encode` says that it finds the end of every written literal and gets the text back,
whatever follows the literal. So code can be cut behind a literal in one way only
(`quote_append_inj`): a text with quotes and backslashes in it, however many, neither ends its
literal early nor takes in what follows. `quoted_text_is_read_back` says this of strings, together
with what a literal never contains.
-/

namespace BlockSketch.Text

namespace Quoted

/-- The characters that a backslash and one more character denote. -/
def escaped? : Char → Option Char
  | '\\' => some '\\'
  | '"' => some '"'
  | '\'' => some '\''
  | '?' => some '?'
  | 'a' => some '\x07'
  | 'b' => some '\x08'
  | 't' => some '\t'
  | 'n' => some '\n'
  | 'v' => some '\x0b'
  | 'f' => some '\x0c'
  | 'r' => some '\r'
  | _ => none

/-- Puts a character in front of a text that was read. -/
def withChar (c : Char) : List Char × List Char → List Char × List Char
  | (text, rest) => (c :: text, rest)

/-- Reads a literal whose opening quote has been taken: the text it denotes and what stands behind
its closing quote. -/
def readBody : List Char → Option (List Char × List Char)
  | [] => none
  | c :: rest =>
    if c = '"' then some ([], rest)
    else if c = '\\' then
      match rest with
      | [] => none
      | e :: rest =>
        match escaped? e with
        | some d => (readBody rest).map (withChar d)
        | none => none
    else if c = '\n' then none
    else (readBody rest).map (withChar c)

/-- Reads a literal. -/
def read : List Char → Option (List Char × List Char)
  | '"' :: rest => readBody rest
  | _ => none

/-- One character is read back, escaped or not. -/
theorem readBody_escape (c : Char) (rest : List Char) :
    readBody (escape c ++ rest) = (readBody rest).map (withChar c) := by
  by_cases hbackslash : c = '\\'
  · subst hbackslash
    rfl
  by_cases hquote : c = '"'
  · subst hquote
    rfl
  by_cases hfeed : c = '\n'
  · subst hfeed
    rfl
  by_cases hreturn : c = '\r'
  · subst hreturn
    rfl
  by_cases htab : c = '\t'
  · subst htab
    rfl
  have hself : escape c = [c] := by simp [escape]
  rw [hself, List.singleton_append, readBody.eq_def]
  simp only [if_neg hquote, if_neg hbackslash, if_neg hfeed]

/-- A text and the quote behind it are read back. -/
theorem readBody_flatMap (text rest : List Char) :
    readBody (text.flatMap escape ++ '"' :: rest) = some (text, rest) := by
  induction text with
  | nil =>
    rw [List.flatMap_nil, List.nil_append, readBody.eq_def]
    rfl
  | cons c text ih =>
    rw [List.flatMap_cons, List.append_assoc, readBody_escape, ih]
    rfl

/-- **A written literal is read back**, and nothing of what follows it is touched. -/
theorem read_encode (text rest : List Char) : read (encode text ++ rest) = some (text, rest) := by
  rw [encode, List.cons_append, List.append_assoc, List.singleton_append, read, readBody_flatMap]

/-- Line feeds, carriage returns and tabs are written as letters behind a backslash. -/
theorem ne_of_mem_escape {c d : Char} (h : c ∈ escape d) : c ≠ '\n' ∧ c ≠ '\r' ∧ c ≠ '\t' := by
  unfold escape at h
  split at h
  case h_6 _ _ hfeed hreturn htab =>
    obtain rfl := List.mem_singleton.mp h
    exact ⟨hfeed, hreturn, htab⟩
  all_goals
    rcases List.mem_pair.mp h with rfl | rfl
    · decide
    · decide

theorem ne_of_mem_encode {c : Char} {text : List Char} (h : c ∈ encode text) :
    c ≠ '\n' ∧ c ≠ '\r' ∧ c ≠ '\t' := by
  rw [encode, List.mem_cons, List.mem_append, List.mem_flatMap, List.mem_singleton] at h
  rcases h with rfl | ⟨d, -, hc⟩ | rfl
  · decide
  · exact ne_of_mem_escape hc
  · decide

end Quoted

theorem toList_quote (text : String) : (quote text).toList = Quoted.encode text.toList :=
  String.toList_ofList

theorem read_quote (text rest : String) :
    Quoted.read (quote text ++ rest).toList = some (text.toList, rest.toList) := by
  rw [String.toList_append, toList_quote, Quoted.read_encode]

/-- What begins with a literal begins with no other literal. -/
theorem quote_append_inj {text text' rest rest' : String} :
    quote text ++ rest = quote text' ++ rest' ↔ text = text' ∧ rest = rest' := by
  constructor
  · intro h
    have hread := congrArg (fun code => Quoted.read code.toList) h
    simp only [read_quote, Option.some.injEq, Prod.mk.injEq, String.toList_inj] at hread
    exact hread
  · rintro ⟨rfl, rfl⟩
    rfl

/-- **A quoted text is read back.** Whatever the text is and whatever code follows it, a reader that
starts at the opening quote of the literal ends behind its closing quote: it gets the text and
leaves the code that follows. The literal contains no line feed, no carriage return and no tab, and
different texts have different literals. -/
theorem quoted_text_is_read_back :
    (∀ text rest : String,
      Quoted.read (quote text ++ rest).toList = some (text.toList, rest.toList)) ∧
    (∀ text : String,
      '\n' ∉ (quote text).toList ∧ '\r' ∉ (quote text).toList ∧ '\t' ∉ (quote text).toList) ∧
    Function.Injective quote := by
  refine ⟨read_quote, ?_, ?_⟩
  · intro text
    rw [toList_quote]
    exact ⟨fun h => (Quoted.ne_of_mem_encode h).1 rfl, fun h => (Quoted.ne_of_mem_encode h).2.1 rfl,
      fun h => (Quoted.ne_of_mem_encode h).2.2 rfl⟩
  · intro text text' h
    -- the case of a literal with nothing behind it
    have hsame : quote text ++ "" = quote text' ++ "" := congrArg (· ++ "") h
    exact (quote_append_inj.mp hsame).1

end BlockSketch.Text
