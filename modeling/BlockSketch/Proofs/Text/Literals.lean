import BlockSketch.Text.Quoted
import Mathlib.Data.List.Basic

/-!
# Texts that are the same but for their literals

What a user types goes into the code between quotes and nowhere else. So where only typed texts
differ, the code is character for character the same outside of literals, and where it has a literal
there is a literal on the other side too. `Text.SameBut` says that of two texts, with the contents
of the literals related in any way.

Outside of literals there are no quotes, no backslashes and no ends of lines, and inside of them
line ends are written as escapes. So a text that is built in this way is one line
(`SameBut.unbroken`).
-/

namespace BlockSketch.Text

/-- What may stand outside of literals: no quote, nothing that starts an escape or ends a line. -/
def isPlain (c : Char) : Bool :=
  c != '"' && c != '\\' && c != '\n' && c != '\r'

/-- The two texts are the same but for their literals, whose contents `P` relates. -/
inductive SameBut (P : String → String → Prop) : List Char → List Char → Prop
  | nil : SameBut P [] []
  | char {c : Char} {u v : List Char} : isPlain c = true → SameBut P u v →
      SameBut P (c :: u) (c :: v)
  | literal {a b : String} {u v : List Char} : P a b → SameBut P u v →
      SameBut P (Quoted.encode a.toList ++ u) (Quoted.encode b.toList ++ v)

/-- No character that ends a line, and none that such an end may start with. -/
def Unbroken (text : List Char) : Prop :=
  ∀ c ∈ text, c ≠ '\n' ∧ c ≠ '\r'

/-- The first character is plain, and so there is one. -/
def startsPlain (text : List Char) : Bool :=
  text.head?.any isPlain

theorem startsPlain_append {u : List Char} (h : startsPlain u = true) (v : List Char) :
    startsPlain (u ++ v) = true := by
  cases u with
  | nil => cases h
  | cons c u => exact h

theorem startsPlain_of_forall {u : List Char} (hne : u ≠ [])
    (h : ∀ c ∈ u, isPlain c = true) : startsPlain u = true := by
  obtain ⟨c, rest, rfl⟩ := List.exists_cons_of_ne_nil hne
  exact h c List.mem_cons_self

theorem ne_of_isPlain {c : Char} (h : isPlain c = true) : c ≠ '\n' ∧ c ≠ '\r' := by
  simp only [isPlain, Bool.and_eq_true, bne_iff_ne] at h
  exact ⟨h.1.2, h.2⟩

namespace Quoted

/-- A character stands for itself, or a backslash and one more character stand for it. -/
theorem escape_cases (c : Char) : (escape c = [c] ∧ isPlain c = true) ∨
    ∃ e, escape c = ['\\', e] ∧ e ≠ '\n' ∧ e ≠ '\r' := by
  by_cases hspecial : c = '\\' ∨ c = '"' ∨ c = '\n' ∨ c = '\r' ∨ c = '\t'
  · right
    rcases hspecial with rfl | rfl | rfl | rfl | rfl
    · exact ⟨'\\', rfl, by decide⟩
    · exact ⟨'"', rfl, by decide⟩
    · exact ⟨'n', rfl, by decide⟩
    · exact ⟨'r', rfl, by decide⟩
    · exact ⟨'t', rfl, by decide⟩
  · left
    simp only [not_or] at hspecial
    obtain ⟨hbackslash, hquote, hfeed, hreturn, htab⟩ := hspecial
    simp [escape, isPlain, hbackslash, hquote, hfeed, hreturn]

/-- A literal is on one line, whatever the text in it is. -/
theorem unbroken_encode (text : List Char) : Unbroken (encode text) := by
  intro c hc
  rw [encode, List.mem_cons, List.mem_append, List.mem_flatMap, List.mem_singleton] at hc
  rcases hc with rfl | ⟨d, -, hc⟩ | rfl
  · decide
  · rcases escape_cases d with ⟨hself, hplain⟩ | ⟨e, hescape, he⟩
    · rw [hself, List.mem_singleton] at hc
      rw [hc]
      exact ne_of_isPlain hplain
    · rw [hescape, List.mem_pair] at hc
      rcases hc with rfl | rfl
      · decide
      · exact he
  · decide

end Quoted

namespace SameBut

variable {P : String → String → Prop} {u u' v v' : List Char}

theorem append (h : SameBut P u u') (hv : SameBut P v v') : SameBut P (u ++ v) (u' ++ v') := by
  induction h with
  | nil => exact hv
  | char hc _ ih => exact .char hc ih
  | literal hab _ ih =>
    rw [List.append_assoc, List.append_assoc]
    exact .literal hab ih

/-- Without literals, the same is the same. -/
theorem of_isPlain (h : ∀ c ∈ u, isPlain c = true) : SameBut P u u := by
  induction u with
  | nil => exact .nil
  | cons c u ih =>
    obtain ⟨hc, hu⟩ := List.forall_mem_cons.mp h
    exact .char hc (ih hu)

theorem of_encode {a b : String} (h : P a b) :
    SameBut P (Quoted.encode a.toList) (Quoted.encode b.toList) := by
  have hliteral := SameBut.literal h .nil
  rwa [List.append_nil, List.append_nil] at hliteral

theorem mono {Q : String → String → Prop} (h : SameBut P u v) (hle : ∀ a b, P a b → Q a b) :
    SameBut Q u v := by
  induction h with
  | nil => exact .nil
  | char hc _ ih => exact .char hc ih
  | literal hab _ ih => exact .literal (hle _ _ hab) ih

theorem symm (h : SameBut P u v) : SameBut (fun a b => P b a) v u := by
  induction h with
  | nil => exact .nil
  | char hc _ ih => exact .char hc ih
  | literal hab _ ih => exact .literal hab ih

/-- Both texts start with the same character. -/
theorem head?_eq (h : SameBut P u v) : u.head? = v.head? := by
  cases h with
  | nil => rfl
  | char _ _ => rfl
  | literal _ _ => rfl

theorem startsPlain_eq (h : SameBut P u v) : startsPlain u = startsPlain v := by
  rw [startsPlain, startsPlain, h.head?_eq]

/-- A text that is built in this way is on one line. -/
theorem unbroken (h : SameBut P u v) : Unbroken u := by
  induction h with
  | nil => exact nofun
  | @char c u v hc _ ih =>
    exact List.forall_mem_cons.mpr ⟨ne_of_isPlain hc, ih⟩
  | @literal a b u v _ _ ih =>
    exact List.forall_mem_append.mpr ⟨Quoted.unbroken_encode a.toList, ih⟩

end SameBut

end BlockSketch.Text
