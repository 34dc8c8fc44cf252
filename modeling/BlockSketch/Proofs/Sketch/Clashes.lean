import BlockSketch.Proofs.Session.Variables
import BlockSketch.Proofs.Sketch.Lines
import BlockSketch.Proofs.Sketch.Vocabulary

/-!
# Names that clash

An identifier that is handed out is none of the reserved words. These are to keep variables apart
from the words of the language and from the names that the sketch has of its own, but some of both
are not among them: the keywords that came with C99, C11 and C++11, the words that C++ has for
operators, and a few names of the mathematics header. `Workspace.clashes_iff` says that the words
listed in `Identifier.unguarded` are all that a variable can clash with, and that it does clash with
each of them if it is given this name.

What names the sketch has of its own is not a matter of opinion: `Statement.Built.names` says of the
statements that they have no others.
-/

namespace BlockSketch

/-! ### Words that no variable should have as its identifier -/

/-- The keywords of C11 and of C++11, with the words for operators. -/
def Identifier.standardKeywords : List String :=
  ["alignas", "alignof", "and", "and_eq", "asm", "auto", "bitand", "bitor", "bool", "break", "case",
    "catch", "char", "char16_t", "char32_t", "class", "compl", "const", "const_cast", "constexpr",
    "continue", "decltype", "default", "delete", "do", "double", "dynamic_cast", "else", "enum",
    "explicit", "export", "extern", "false", "float", "for", "friend", "goto", "if", "inline",
    "int", "long", "mutable", "namespace", "new", "noexcept", "not", "not_eq", "nullptr",
    "operator", "or", "or_eq", "private", "protected", "public", "register", "reinterpret_cast",
    "restrict", "return", "short", "signed", "sizeof", "static", "static_assert", "static_cast",
    "struct", "switch", "template", "this", "thread_local", "throw", "true", "try", "typedef",
    "typeid", "typename", "union", "unsigned", "using", "virtual", "void", "volatile", "wchar_t",
    "while", "xor", "xor_eq", "_Alignas", "_Alignof", "_Atomic", "_Bool", "_Complex", "_Generic",
    "_Imaginary", "_Noreturn", "_Static_assert", "_Thread_local"]

/-- The names that a sketch has of its own: those of its functions, of the functions and constants
that its statements use, and those that the declarations of `Plan.mathHeader` and `Plan.primeTest`
need. -/
def Sketch.ownNames : List String :=
  ["setup", "loop"] ++ Expr.functions ++ Expr.constants ++ ["_USE_MATH_DEFINES", "isnan"]

/-- The words among them that are not reserved. -/
def Identifier.unguarded : List String :=
  ["alignas", "alignof", "and", "and_eq", "bitand", "bitor", "char16_t", "char32_t", "compl",
    "constexpr", "decltype", "noexcept", "not", "not_eq", "nullptr", "or", "or_eq", "restrict",
    "static_assert", "thread_local", "xor", "xor_eq", "_Alignas", "_Alignof", "_Atomic", "_Bool",
    "_Complex", "_Generic", "_Imaginary", "_Noreturn", "_Static_assert", "_Thread_local", "M_PI",
    "M_E", "M_SQRT2", "M_SQRT1_2", "_USE_MATH_DEFINES", "isnan"]

/-- The bytes of a word. -/
def Identifier.bytes (name : String) : List UInt8 :=
  name.toByteArray.data.toList

theorem Identifier.bytes_injective : Function.Injective bytes :=
  fun _ _ h => String.toByteArray_inj.mp (ByteArray.ext (Array.toList_inj.mp h))

theorem Identifier.unguarded_eq :
    unguarded = (standardKeywords ++ Sketch.ownNames).filter (· ∉ reserved) := by
  -- bytes are compared much faster than texts
  have hbytes (name : String) : name ∉ reserved ↔ bytes name ∉ reserved.map bytes := by
    rw [List.mem_map_of_injective bytes_injective]
  simp only [hbytes]
  decide +kernel

/-! ### The names in statements -/

/-- The identifiers among some tokens that do not stand behind a point. -/
def Token.names : List Token → List String
  | [] => []
  | .dot :: .identifier _ :: rest => names rest
  | .identifier name :: rest => name :: names rest
  | _ :: rest => names rest

theorem Expr.names_tokens (e : Expr) (rest : List Token) :
    Token.names (e.tokens ++ rest) = e.names ++ Token.names rest := by
  induction e generalizing rest with
  | numeral | identifier | literal => simp [tokens, names, Token.names]
  | call _ _ ih | method _ _ ih | negate _ ih | not _ ih | paren _ ih =>
    simp [tokens, names, Token.names, ih]
  | callTwo _ _ _ iha ihb | methodOne _ _ _ iha ihb =>
    simp [tokens, names, Token.names, iha, ihb]
  | methodTwo _ _ _ _ ih iha ihb => simp [tokens, names, Token.names, ih, iha, ihb]
  | binary op _ _ iha ihb =>
    cases op <;> simp [tokens, names, Token.names, BinaryOp.token, iha, ihb]

/-- **The names in the line of a statement** are names that the sketch has of its own, or else they
are those of variables. -/
theorem Statement.Built.names {N : String → Prop} {st : Statement} (h : st.Built N)
    (hspelled : st.Spelled) :
    ∃ tokens, Token.lex st.chars = some tokens ∧
      ∀ name ∈ Token.names tokens, name ∈ Sketch.ownNames ∨ N name := by
  have hown {e : Expr} (he : e.Built N) : ∀ name ∈ e.names, name ∈ Sketch.ownNames ∨ N name := by
    intro name hname
    rcases he.names name hname with hfunction | hconstant | hname
    · left
      simp [Sketch.ownNames, hfunction]
    · left
      simp [Sketch.ownNames, hconstant]
    · exact .inr hname
  have hlex := st.lex_chars hspelled []
  rw [List.append_nil, Token.lex, Option.map_some, List.append_nil] at hlex
  refine ⟨st.tokens, hlex, ?_⟩
  cases st with
  | increase target e | assign target e =>
    simp only [tokens, Token.names, Expr.names_tokens, List.append_nil]
    exact List.forall_mem_cons.mpr ⟨.inr h.1, hown h.2⟩
  | evaluate e =>
    simp only [tokens, Token.names, Expr.names_tokens, List.append_nil]
    exact hown h

/-! ### The words that clash -/

/-- An identifier that is free is chosen as it is. -/
theorem Registry.choose_of_isFree {r : Registry} {name : String}
    (h : r.isFree (Identifier.ofName name) = true) : r.choose name = Identifier.ofName name := by
  obtain ⟨j, -, heq, -, hbefore⟩ := r.choose_spec name
  cases j with
  | zero => exact heq
  | succ j =>
    have hnot := hbefore 0 (Nat.succ_pos j)
    rw [candidate, h] at hnot
    cases hnot

namespace Session

/-- **The names in the lines of a sketch** are names of its own, or else they are not reserved. -/
theorem Writes.names {s s' : Session} {blocks : List Block} {statements : List Statement}
    (h : s.Writes blocks statements s') (hs : s.registry.Sound) :
    ∀ st ∈ statements, ∃ tokens, Token.lex st.chars = some tokens ∧
      ∀ name ∈ Token.names tokens, name ∈ Sketch.ownNames ∨ Identifier.Unreserved name := by
  intro st hst
  obtain ⟨hbuilt, -⟩ := h.ensures (Q := Statement.Built Identifier.Unreserved)
    (fun b => b.ensures_built) hs
  exact (hbuilt st hst).names ((h.spelled hs).1 st hst)

/-- The identifiers of a session whose registry is sound are not reserved. -/
theorem Writes.unreserved {s s' : Session} {blocks : List Block} {statements : List Statement}
    (h : s.Writes blocks statements s') (hs : s.registry.Sound) :
    ∀ name ∈ s'.registry.taken, Identifier.Unreserved name := by
  have hcode (b : Block) : b.code.Ensures (fun s => s.registry.Sound) fun _ => True :=
    Generate.Invariant.code invariant_sound b
  exact (h.ensures (Q := fun _ => True) hcode hs).2.legal

/-- A workspace with one variable and nothing else. -/
def declaring (name : String) : Workspace :=
  { declared := [⟨name, "", ""⟩] }

/-- The only variable has its name as its identifier, if that may be handed out as it is. -/
theorem mem_taken_declaring {name : String} (hname : Identifier.ofName name = name)
    (hreserved : name ∉ Identifier.reserved) :
    name ∈ (start (declaring name) {}).registry.taken := by
  have hfree : Registry.empty.isFree (Identifier.ofName name) = true := by
    rw [hname, Registry.isFree_iff]
    exact ⟨List.not_mem_nil, hreserved⟩
  have hchoose := Registry.choose_of_isFree hfree
  rw [hname] at hchoose
  have htaken := Registry.sound_empty.mem_taken_identify name
  rw [Registry.identify_of_lookup_none rfl, hchoose] at htaken
  rw [registry_start, declaring, declareVariables_cons]
  change name ∈ (Registry.empty.identify name).2.taken
  rw [Registry.identify_of_lookup_none rfl, hchoose]
  exact htaken

end Session

/-- **Variables clash with the unguarded words and with no others.** -/
theorem Workspace.clashes_iff (name : String) :
    ((name ∈ Identifier.standardKeywords ∨ name ∈ Sketch.ownNames) ∧
      ∃ w options statements s, (Session.start w options).Writes
        (w.blocks.flatMap Block.stack) statements s ∧ name ∈ s.registry.taken) ↔
    name ∈ Identifier.unguarded := by
  constructor
  · rintro ⟨hword, w, options, statements, s, hwrites, htaken⟩
    obtain ⟨-, hreserved⟩ := hwrites.unreserved (Session.sound_start w options) name htaken
    rw [Identifier.unguarded_eq, List.mem_filter, List.mem_append]
    exact ⟨hword, decide_eq_true hreserved⟩
  · intro hname
    have hofName : Identifier.ofName name = name :=
      (by decide +kernel : ∀ name ∈ Identifier.unguarded, Identifier.ofName name = name) name hname
    rw [Identifier.unguarded_eq, List.mem_filter, List.mem_append] at hname
    obtain ⟨hword, hreserved⟩ := hname
    refine ⟨hword, Session.declaring name, {}, [], _, .nil _, ?_⟩
    exact Session.mem_taken_declaring hofName (of_decide_eq_true hreserved)

namespace Workspace

/-- Three variables that have the names of an operator, of a function and of a constant, and
statements that use the first, the function and the constant. -/
def clashing : Workspace :=
  let pi : Block := ⟨⟨"math_constant", [("CONSTANT", .string "PI")]⟩, none, [], none⟩
  { blocks :=
      [⟨⟨"math_change", [("VAR", .object [("id", .string "1")])]⟩, none,
          [("DELTA", ⟨some pi, none⟩)], none⟩,
        ⟨⟨"math_number_property", [("PROPERTY", .string "PRIME")]⟩, none,
          [("NUMBER_TO_CHECK", ⟨some pi, none⟩)], none⟩]
    declared := [⟨"and", "1", "Number"⟩, ⟨"isnan", "2", "Number"⟩, ⟨"M_PI", "3", "Number"⟩] }

/-- Its sketch declares an operator, a function that it calls and a macro. -/
theorem sketch_clashing : clashing.sketch {} = .ok
    ("#define _USE_MATH_DEFINES\n#include \"math.h\"\n\n" ++
      "double and;\ndouble isnan;\ndouble M_PI;\n\n" ++
      Plan.primeTest.text ++ "\n" ++
      "void setup() \x7b\n\x7d\n\n" ++
      "void loop() \x7b\n  and += M_PI;\n  mathIsPrime(M_PI);\n\x7d\n") := by
  decide +kernel

end Workspace

end BlockSketch
