import BlockSketch.Text.CaseTable

/-!
# Lowercase: the full lowercase form of a text

Two names that differ in letter case alone are one name, and `Text.lowercase` is what decides it:
the lowercase mapping of Unicode, applied to a whole text. Two characters need more than the table
of single forms.

* The capital I with a dot above becomes a small i followed by a combining dot above.
* The capital sigma has a form of its own at the end of a word: `ς` if a cased letter stands before
  it and none after it, where ignorable characters (apostrophes, combining marks) are passed over,
  and `σ` otherwise.
-/

namespace BlockSketch.Text

namespace Case

/-- Whether a code point lies in one of the runs. -/
def inRuns (runs : List (Nat × Nat)) (n : Nat) : Bool :=
  runs.any fun run => run.1 ≤ n && n ≤ run.2

/-- Whether a search for a letter passes over this character. -/
def isIgnorable (c : Char) : Bool :=
  inRuns ignorableRuns c.toNat

/-- Whether the character counts as a letter with case. -/
def isCased (c : Char) : Bool :=
  inRuns casedRuns c.toNat

/-- Whether a run has this code point among its characters. -/
def Run.has (run : Run) (n : Nat) : Bool :=
  run.first ≤ n && n ≤ run.last && (n - run.first) % run.step == 0

/-- The lowercase form of a character, as far as it is one character. -/
def lowerChar (c : Char) : Char :=
  match lowerRuns.find? (·.has c.toNat) with
  | some run => Char.ofNat (c.toNat + run.shift).toNat
  | none => c

/-- Whether the first character that is not ignorable is a cased letter. -/
def meetsLetter (text : List Char) : Bool :=
  match text.dropWhile isIgnorable with
  | c :: _ => isCased c
  | [] => false

/-- The lowercase form of `c` between the characters `before` it, nearest first, and those
`after` it. -/
def lowerIn (before : List Char) (c : Char) (after : List Char) : List Char :=
  if c = 'İ' then ['i', '\u0307']
  else if c = 'Σ' then
    if meetsLetter before && !meetsLetter after then ['ς'] else ['σ']
  else [lowerChar c]

/-- The lowercase form of a text that follows the characters `before`, nearest first. -/
def lowerFrom (before : List Char) : List Char → List Char
  | [] => []
  | c :: after => lowerIn before c after ++ lowerFrom (c :: before) after

end Case

/-- The full lowercase form of a text. -/
def lowercase (text : String) : String :=
  String.ofList (Case.lowerFrom [] text.toList)

end BlockSketch.Text
