import BlockSketch.Declarations.Indexed
import BlockSketch.Proofs.Lookup
import BlockSketch.Proofs.Session.Variables
import BlockSketch.Sketch
import Mathlib.Data.List.Nodup

/-!
# What is declared, and in which order

Declarations come as they are asked for: includes and others mixed, most of them more than once, and
perhaps with another text the second time. What is kept of them is said without a table by
`Declarations.firsts`: the first entry with each key, in the order in which they came.

* A table with an index answers every call as this says (`Indexed.InStep.expected`), because its
  index and its entries stay in step through every call (`Indexed.InStep.after`).
* A session has the same entries (`Session.entries_declareAll`), and its sketch is written from
  them: the texts of the includes, and then the texts of the others. So nothing but the order among
  the includes and the order among the others can be seen in a sketch.

`Declarations.registered_in_order` puts this together.
-/

namespace BlockSketch

namespace Declarations

/-! ### The first of each key -/

/-- The first of the entries with each key, in their order. -/
def firsts : List (String × String) → List (String × String)
  | [] => []
  | entry :: rest => entry :: (firsts rest).filter (·.1 != entry.1)

theorem firsts_cons (entry : String × String) (rest : List (String × String)) :
    firsts (entry :: rest) = entry :: (firsts rest).filter (·.1 != entry.1) := rfl

theorem mem_keys_firsts {entries : List (String × String)} {key : String} :
    key ∈ (firsts entries).map Prod.fst ↔ key ∈ entries.map Prod.fst := by
  induction entries with
  | nil => rfl
  | cons entry entries ih =>
    have hrest : key ∈ ((firsts entries).filter (·.1 != entry.1)).map Prod.fst ↔
        key ≠ entry.1 ∧ key ∈ entries.map Prod.fst := by
      rw [← ih]
      simp only [List.mem_map, List.mem_filter, bne_iff_ne]
      constructor
      · rintro ⟨other, ⟨hmem, hne⟩, rfl⟩
        exact ⟨hne, other, hmem, rfl⟩
      · rintro ⟨hne, other, hmem, rfl⟩
        exact ⟨other, ⟨hmem, hne⟩, rfl⟩
    rw [firsts_cons, List.map_cons, List.map_cons, List.mem_cons, List.mem_cons, hrest]
    tauto

/-- Every key is there once. -/
theorem nodup_keys_firsts (entries : List (String × String)) :
    ((firsts entries).map Prod.fst).Nodup := by
  induction entries with
  | nil => exact List.nodup_nil
  | cons entry entries ih =>
    rw [firsts_cons, List.map_cons, List.nodup_cons]
    refine ⟨?_, ih.sublist (List.filter_sublist.map Prod.fst)⟩
    intro hmem
    obtain ⟨other, hother, heq⟩ := List.mem_map.mp hmem
    exact bne_iff_ne.mp (List.mem_filter.mp hother).2 heq

/-- One entry more is one of the firsts if its key is new. -/
theorem firsts_concat (past : List (String × String)) (entry : String × String) :
    firsts (past ++ [entry]) =
      if entry.1 ∈ past.map Prod.fst then firsts past else firsts past ++ [entry] := by
  induction past with
  | nil => rfl
  | cons first past ih =>
    have hmem : entry.1 ∈ (first :: past).map Prod.fst ↔
        entry.1 = first.1 ∨ entry.1 ∈ past.map Prod.fst := List.mem_cons
    rw [List.cons_append, firsts_cons, ih]
    by_cases hpast : entry.1 ∈ past.map Prod.fst
    · rw [if_pos hpast, if_pos (hmem.mpr (.inr hpast)), firsts_cons]
    · rw [if_neg hpast, List.filter_append]
      by_cases hfirst : entry.1 = first.1
      · rw [if_pos (hmem.mpr (.inl hfirst))]
        simp [firsts_cons, hfirst]
      · rw [if_neg (mt hmem.mp (not_or.mpr ⟨hfirst, hpast⟩))]
        simp [firsts_cons, hfirst]

/-- The text that a key has is the one that it had first. -/
theorem lookup_firsts (entries : List (String × String)) (key : String) :
    (firsts entries).lookup key = entries.lookup key := by
  induction entries with
  | nil => rfl
  | cons entry entries ih =>
    obtain ⟨k, text⟩ := entry
    rw [firsts_cons, List.lookup_cons, List.lookup_cons]
    split
    · rfl
    · next hne => rw [lookup_filter_of_ne (beq_eq_false_iff_ne.mp hne), ih]

/-! ### A table and its index -/

namespace Indexed

/-- What can be asked of a table. -/
inductive Call
  /-- to add an entry, if its key is new -/
  | register (key text : String)
  /-- the text of a key -/
  | get (key : String)
  /-- whether a key is there -/
  | contains (key : String)
  /-- the number of entries -/
  | size
  /-- whether there are none -/
  | isEmpty
  /-- all entries -/
  | entries

/-- What a table may answer. -/
inductive Answer
  | truth (b : Bool)
  | text (text : Option String)
  | number (n : Nat)
  | entries (entries : List (String × String))
deriving DecidableEq

/-- What a table answers to a call, and what it is afterwards. -/
def answer (t : Indexed) : Call → Answer × Indexed
  | .register key text => (.truth (t.register key text).1, (t.register key text).2)
  | .get key => (.text (t.get? key), t)
  | .contains key => (.truth (t.contains key), t)
  | .size => (.number t.size, t)
  | .isEmpty => (.truth t.isEmpty, t)
  | .entries => (.entries t.entries, t)

/-- The table after a series of calls. -/
def after (t : Indexed) : List Call → Indexed
  | [] => t
  | call :: calls => (t.answer call).2.after calls

/-- The entry that a call asks to add. -/
def Call.registration? : Call → Option (String × String)
  | register key text => some (key, text)
  | _ => none

/-- The registrations among some calls. -/
def registrations (calls : List Call) : List (String × String) :=
  calls.filterMap Call.registration?

/-- What a call is to be answered after these registrations. The first text of a key is its text,
and a key is new if it was in no registration. -/
def Call.expected (past : List (String × String)) : Call → Answer
  | register key _ => .truth (key ∉ past.map Prod.fst)
  | get key => .text (past.lookup key)
  | contains key => .truth (key ∈ past.map Prod.fst)
  | size => .number (firsts past).length
  | isEmpty => .truth past.isEmpty
  | entries => .entries (firsts past)

/-- The entries are the firsts of these registrations, and the index has their keys. -/
structure InStep (t : Indexed) (past : List (String × String)) : Prop where
  entries : t.entries = firsts past
  index : t.index.Perm (t.entries.map Prod.fst)

theorem inStep_empty : empty.InStep [] :=
  ⟨rfl, .nil⟩

namespace InStep

variable {t : Indexed} {past : List (String × String)}

theorem contains_eq (h : t.InStep past) (key : String) :
    t.contains key = decide (key ∈ past.map Prod.fst) := by
  rw [Bool.eq_iff_iff, decide_eq_true_iff, ← mem_keys_firsts, ← h.entries, ← h.index.mem_iff,
    contains, List.contains_iff_mem]

/-- A registration adds to both or to neither. -/
theorem register (h : t.InStep past) (key text : String) :
    (t.register key text).2.InStep (past ++ [(key, text)]) := by
  rw [Indexed.register, h.contains_eq]
  by_cases hkey : key ∈ past.map Prod.fst
  · rw [if_pos (decide_eq_true hkey)]
    refine ⟨?_, h.index⟩
    rw [firsts_concat, if_pos hkey, h.entries]
  · rw [if_neg (by simpa using hkey)]
    refine ⟨?_, ?_⟩
    · rw [firsts_concat, if_neg hkey, h.entries]
    · rw [List.map_append, List.map_singleton]
      exact (h.index.cons key).trans (List.perm_append_singleton key _).symm

/-- Every call leaves the table in step, and only registrations count. -/
theorem answer (h : t.InStep past) (call : Call) :
    (t.answer call).2.InStep (past ++ call.registration?.toList) := by
  cases call with
  | register key text => exact h.register key text
  | _ => simpa [Indexed.answer, Call.registration?] using h

theorem after (h : t.InStep past) (calls : List Call) :
    (t.after calls).InStep (past ++ registrations calls) := by
  induction calls generalizing t past with
  | nil => rwa [registrations, List.filterMap_nil, List.append_nil]
  | cons call calls ih =>
    have hrest := ih (h.answer call)
    rw [List.append_assoc] at hrest
    have hsplit : registrations (call :: calls) =
        call.registration?.toList ++ registrations calls := by
      rw [registrations, List.filterMap_cons]
      cases call.registration? <;> rfl
    rwa [hsplit]

/-- A table in step answers as is expected of it. -/
theorem expected (h : t.InStep past) (call : Call) : (t.answer call).1 = call.expected past := by
  cases call with
  | register key text =>
    rw [Indexed.answer, Indexed.register, h.contains_eq, Call.expected]
    by_cases hkey : key ∈ past.map Prod.fst
    · simp [hkey]
    · simp [hkey]
  | get key => rw [Indexed.answer, get?, find?_eq_lookup, h.entries, lookup_firsts, Call.expected]
  | contains key => rw [Indexed.answer, h.contains_eq, Call.expected]
  | size => rw [Indexed.answer, size, h.entries, Call.expected]
  | isEmpty =>
    rw [Indexed.answer, isEmpty, h.entries, Call.expected]
    cases past <;> rfl
  | entries => rw [Indexed.answer, h.entries, Call.expected]

end InStep

end Indexed

/-! ### Sketches -/

/-- The declarations of a session keep the firsts as well. -/
theorem entries_register {d : Declarations} {past : List (String × String)}
    (h : d.entries = firsts past) (key text : String) :
    (d.register key text).entries = firsts (past ++ [(key, text)]) := by
  have hkey : d.contains key = true ↔ key ∈ past.map Prod.fst := by
    rw [contains_iff, keys, h, mem_keys_firsts]
  rw [register, firsts_concat]
  simp only [hkey]
  split
  · exact h
  · rw [h]

end Declarations

namespace Session

/-- The session in which these declarations have been asked for, one after the other. -/
def declareAll (s : Session) (entries : List (String × String)) : Session :=
  s.serveAll (entries.map fun entry => .declare entry.1 entry.2)

/-- A session declares the first of each key, and nothing else of it changes. -/
theorem entries_declareAll {s : Session} {past : List (String × String)}
    (h : s.declarations.entries = Declarations.firsts past) (entries : List (String × String)) :
    (s.declareAll entries).declarations.entries = Declarations.firsts (past ++ entries) ∧
      (s.declareAll entries).options = s.options := by
  induction entries generalizing s past with
  | nil => exact ⟨by rw [List.append_nil]; exact h, rfl⟩
  | cons entry entries ih =>
    obtain ⟨key, text⟩ := entry
    have hstep : (s.serve (.declare key text)).declarations.entries =
        Declarations.firsts (past ++ [(key, text)]) := Declarations.entries_register h key text
    have hrest := ih hstep
    rwa [List.append_assoc, List.singleton_append] at hrest

/-- A session in which nothing else was done declares the firsts. -/
theorem new_declareAll (options : Options) (entries : List (String × String)) :
    ((new options).declareAll entries).declarations = ⟨Declarations.firsts entries⟩ ∧
      ((new options).declareAll entries).options = options := by
  have hnew : (new options).declarations.entries = Declarations.firsts [] := rfl
  obtain ⟨hentries, hoptions⟩ := entries_declareAll hnew entries
  exact ⟨congrArg Declarations.mk hentries, hoptions⟩

end Session

namespace Declarations

/-- The includes among some entries, the first of each key. -/
def includes (entries : List (String × String)) : List (String × String) :=
  (firsts entries).filter Sketch.isInclude

/-- The entries that are no includes, the first of each key. -/
def others (entries : List (String × String)) : List (String × String) :=
  (firsts entries).filter (!Sketch.isInclude ·)

/-- The sketch around a body has the includes first, and then the others. -/
theorem finish_declareAll (options : Options) (entries : List (String × String)) (body : String) :
    ((Session.new options).declareAll entries).finish body =
      String.join ((includes entries).map Prod.snd) ++
        (if (includes entries).isEmpty then "" else "\n") ++
        String.join ((others entries).map (·.2 ++ "\n")) ++
        Sketch.functions options.indent body := by
  obtain ⟨hdeclarations, hoptions⟩ := Session.new_declareAll options entries
  rw [Session.finish, Sketch.write, Sketch.header, hdeclarations, hoptions]
  rfl

/-- **Declarations are kept in the order in which they first came.** A table to which any calls have
been made answers the next one as if it looked it up among the registrations before: a registration
is told to be new exactly if its key was in none of them, the text of a key is the first it was
registered with, and the entries are the first ones of each key. The index has the keys of the
entries, each once, and a session in which the same was registered has the same declarations.

The sketch that a session puts together around any body has the texts of the includes, an empty line
if there are any, and then the texts of the others, each of them once; so two series of
registrations that agree in the includes and in the others give the same sketch, however the two
kinds were mixed and however often each was repeated. -/
theorem registered_in_order :
    (∀ (before : List Indexed.Call) (call : Indexed.Call),
      ((Indexed.empty.after before).answer call).1 =
        call.expected (Indexed.registrations before)) ∧
    (∀ (calls : List Indexed.Call) (options : Options),
      let t := Indexed.empty.after calls
      t.index.Perm (t.entries.map Prod.fst) ∧ t.index.Nodup ∧
      ((Session.new options).declareAll (Indexed.registrations calls)).declarations =
        t.declarations) ∧
    (∀ (options : Options) (entries : List (String × String)) (body : String),
      (includes entries ++ others entries).Perm (firsts entries) ∧
      ((Session.new options).declareAll entries).finish body =
        String.join ((includes entries).map Prod.snd) ++
          (if (includes entries).isEmpty then "" else "\n") ++
          String.join ((others entries).map (·.2 ++ "\n")) ++
          Sketch.functions options.indent body) ∧
    ∀ (options : Options) (entries entries' : List (String × String)),
      includes entries = includes entries' → others entries = others entries' →
      ∀ body, ((Session.new options).declareAll entries).finish body =
        ((Session.new options).declareAll entries').finish body := by
  refine ⟨?_, ?_, ?_, ?_⟩
  · intro before call
    exact (Indexed.inStep_empty.after before).expected call
  · intro calls options
    have hstep := Indexed.inStep_empty.after calls
    refine ⟨hstep.index, ?_, ?_⟩
    · rw [hstep.index.nodup_iff, hstep.entries]
      exact nodup_keys_firsts _
    · rw [(Session.new_declareAll options _).1, Indexed.declarations, hstep.entries]
      rfl
  · intro options entries body
    exact ⟨List.filter_append_perm _ _, finish_declareAll options entries body⟩
  · intro options entries entries' hincludes hothers body
    rw [finish_declareAll, finish_declareAll, hincludes, hothers]

/-- A helper that was asked for before the include, and once more with another text, is in the
sketch as if it had been asked for once and after it. -/
theorem mixture_is_not_seen :
    let mixed := [("define_helper", "void helper();\n"), ("include_math", "#include \"math.h\"\n"),
      ("define_helper", "void other();\n")]
    let sorted := [("include_math", "#include \"math.h\"\n"), ("define_helper", "void helper();\n")]
    includes mixed = includes sorted ∧ others mixed = others sorted ∧
    ((Session.new {}).declareAll mixed).finish "x += 1;\n" =
      ((Session.new {}).declareAll sorted).finish "x += 1;\n" ∧
    ((Session.new {}).declareAll sorted).finish "x += 1;\n" =
      "#include \"math.h\"\n\nvoid helper();\n\n" ++
        "void setup() \x7b\n\x7d\n\nvoid loop() \x7b\n  x += 1;\n\x7d\n" := by
  intro mixed sorted
  have hincludes : includes mixed = includes sorted := by decide +kernel
  have hothers : others mixed = others sorted := by decide +kernel
  exact ⟨hincludes, hothers,
    registered_in_order.2.2.2 {} mixed sorted hincludes hothers "x += 1;\n", by decide +kernel⟩

end Declarations

end BlockSketch
