import BlockSketch.Text.Lines
import Mathlib.Data.List.Basic

/-!
# Lines are found again

A text made of lines, each with a line feed behind it, is cut into just these lines, if none of them
has a line feed of its own or ends in a carriage return. So each of them is indented, and nothing
else is.
-/

namespace BlockSketch.Text

/-- Characters that stay one line when a line feed is put behind them. -/
def IsLine (line : List Char) : Prop :=
  '\n' ∉ line ∧ line.getLast? ≠ some '\r'

namespace Lines

theorem dropReturn_of_isLine {line : List Char} (h : IsLine line) : dropReturn line = line :=
  if_neg h.2

/-- A line goes up to the next line feed. -/
theorem split_append {line : List Char} (h : '\n' ∉ line) (pending rest : List Char) :
    split pending (line ++ '\n' :: rest) = dropReturn (pending.reverse ++ line) :: split [] rest := by
  induction line generalizing pending with
  | nil => rw [List.nil_append, split, if_pos rfl, List.append_nil]
  | cons c line ih =>
    obtain ⟨hc, hline⟩ := not_or.mp (mt List.mem_cons.mpr h)
    rw [List.cons_append, split, if_neg (Ne.symm hc), ih hline, List.reverse_cons,
      List.append_assoc, List.singleton_append]

end Lines

/-- **A text is cut into the lines that it was made of.** -/
theorem lines_flatMap {all : List (List Char)} (h : ∀ line ∈ all, IsLine line) :
    lines (all.flatMap (· ++ ['\n'])) = all := by
  induction all with
  | nil => rfl
  | cons line all ih =>
    obtain ⟨hline, hall⟩ := List.forall_mem_cons.mp h
    rw [lines, List.flatMap_cons, List.append_assoc, List.singleton_append,
      Lines.split_append hline.1, List.reverse_nil, List.nil_append,
      Lines.dropReturn_of_isLine hline]
    exact congrArg (line :: ·) (ih hall)

/-- Each line is indented. -/
theorem indentLines_flatMap (indent : List Char) {all : List (List Char)}
    (h : ∀ line ∈ all, IsLine line) :
    indentLines indent (all.flatMap (· ++ ['\n'])) = all.flatMap (indentLine indent) := by
  rw [indentLines, lines_flatMap h]

end BlockSketch.Text
