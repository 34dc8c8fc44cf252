import BlockSketch.Failure
import BlockSketch.Proofs.Json.Gathering
import BlockSketch.Proofs.Workspace.Records
import BlockSketch.Proofs.Workspace.Renderings

/-!
# A workspace is read, however it is written

For each record of a workspace there is a draft of it that depends on the names that have come up
(`Block.draft` and its kin). The readers of its members lead from one such draft to another, whatever
the order (`Block.collects`), and in their places they lead to the record itself.

The number of brackets goes down with every record and with every list and table. So blocks,
connections and what is in sockets are understood together, by induction on that number
(`Block.understands_texts`), and then whole workspaces are (`Workspace.parse_of_renders`).
-/

namespace BlockSketch

open Reader (Collects Gets Understands)

namespace Reader

variable {α : Type}

/-- What is known of a member when these names have come up. -/
def known (seen : List String) (name : String) (a : α) : Option α :=
  if name ∈ seen then some a else none

variable {seen : List String} {name name' : String} {a d : α}

@[simp]
theorem known_nil (name : String) (a : α) : known [] name a = none :=
  if_neg List.not_mem_nil

@[simp]
theorem known_cons_self (seen : List String) (name : String) (a : α) :
    known (name :: seen) name a = some a :=
  if_pos List.mem_cons_self

theorem known_cons_of_ne (h : name ≠ name') (seen : List String) (a : α) :
    known (name' :: seen) name a = known seen name a := by
  simp [known, h]

theorem isNone_known (h : name ∉ seen) (a : α) : (known seen name a).isNone = true := by
  simp [known, h]

theorem known_of_mem (h : name ∈ seen) (a : α) : known seen name a = some a :=
  if_pos h

theorem getD_known (h : name ∈ seen ∨ a = d) : (known seen name a).getD d = a := by
  rw [known]
  split
  · rfl
  · next hseen => exact (h.resolve_left hseen).symm

end Reader

open Reader (known)

/-! ### Blocks -/

namespace Block

variable {inner : Nat} {deeper : Texts} {fields : Reader (Table Json)}
  {inputs : Reader (Table Connection)} {next : Reader Connection}

/-- What has been read of a block when these names have come up. -/
def draft (b : Block) (seen : List String) : Draft where
  type := known seen "type" b.type
  id := known seen "id" b.id
  fields := known seen "fields" b.head.fields
  inputs := known seen "inputs" b.inputs
  next := known seen "next" b.next

theorem draft_nil (b : Block) : b.draft [] = {} := by
  simp [draft]

/-- The names of the members of a block. -/
theorem mem_names {b : Block} {name : String} :
    name ∈ (b.members inner deeper).map Json.Field.name ↔
      name = "type" ∨ name = "id" ∨ name = "fields" ∨ name = "inputs" ∨ name = "next" := by
  simp [members]

theorem collects (b : Block)
    (hfields : Understands fields fun chars t => Json.ValueText inner chars (.object t))
    (hinputs : Understands inputs deeper.inputs)
    (hnext : Understands (Reader.optional next) (Json.OptionText deeper.connection)) :
    Collects (b.members inner deeper) Draft.accepts (readMember fields inputs next) b.draft where
  accepts {seen name} h := by
    rw [mem_names] at h
    unfold Draft.accepts
    split <;> simp_all [draft, Reader.isNone_known]
  reads {seen f chars} hf h := by
    simp only [members, List.mem_cons, List.not_mem_nil, or_false] at hf
    rcases hf with rfl | rfl | rfl | rfl | rfl
    · refine (Reader.gets_text h).into (fun type => { b.draft seen with type := some type }) ?_
      simp [draft, Reader.known_cons_of_ne]
    · refine (Reader.understands_optional_text.gets h).into
        (fun id => { b.draft seen with id := some id }) ?_
      simp [draft, Reader.known_cons_of_ne]
    · refine (hfields.gets h).into (fun fields => { b.draft seen with fields := some fields }) ?_
      simp [draft, Reader.known_cons_of_ne]
    · refine (hinputs.gets h).into (fun inputs => { b.draft seen with inputs := some inputs }) ?_
      simp [draft, Reader.known_cons_of_ne]
    · refine (hnext.gets h).into (fun next => { b.draft seen with next := some next }) ?_
      simp [draft, Reader.known_cons_of_ne]
  skips {seen name} h := by
    rw [mem_names] at h
    unfold readMember
    split <;> simp_all
  ignores {seen name} h := by
    simp only [mem_names, not_or] at h
    simp [draft, Reader.known_cons_of_ne, Ne.symm, h]

/-- A block is complete when all its members have come up that must. -/
theorem complete_draft {b : Block} {seen : List String}
    (h : ∀ f ∈ b.members inner deeper, f.name ∈ seen ∨ f.optional) :
    (b.draft seen).complete = pure b := by
  obtain ⟨head, id, inputs, next⟩ := b
  simp only [members, List.forall_mem_cons] at h
  obtain ⟨htype, hid, hfields, hinputs, hnext, -⟩ := h
  simp only [Draft.complete, draft, Reader.known_of_mem (htype.resolve_right not_false),
    Reader.getD_known hid, Reader.getD_known hfields, Reader.getD_known hinputs,
    Reader.getD_known hnext]

theorem run_inPlaces {b : Block} {inside : List Char}
    (hfields : Understands fields fun chars t => Json.ValueText inner chars (.object t))
    (hinputs : Understands inputs deeper.inputs)
    (hnext : Understands (Reader.optional next) (Json.OptionText deeper.connection))
    (h : Json.Row (fun text (f : Json.Field) => f.text text) true inside (b.members inner deeper))
    (rest : List Char) :
    (ways fields inputs next).inPlaces.run (inside ++ ']' :: rest) = .ok (b, rest) := by
  obtain ⟨head, id, socketed, below⟩ := b
  obtain ⟨_, h, htype⟩ := Reader.run_nextItem Reader.understands_text h
  obtain ⟨_, h, hid⟩ := Reader.run_nextItem Reader.understands_optional_text h
  obtain ⟨_, h, hfields⟩ := Reader.run_nextItem hfields h
  obtain ⟨_, h, hinputs⟩ := Reader.run_nextItem hinputs h
  obtain ⟨_, h, hnext⟩ := Reader.run_nextItem hnext h
  refine (Reader.run_bind_ok (htype rest) _).trans ?_
  refine (Reader.run_bind_ok (hid rest) _).trans ?_
  refine (Reader.run_bind_ok (hfields rest) _).trans ?_
  refine (Reader.run_bind_ok (hinputs rest) _).trans ?_
  refine (Reader.run_bind_ok (hnext rest) _).trans ?_
  refine (Reader.run_bind_ok rfl _).trans ?_
  exact (Reader.run_bind_ok (Reader.run_closeArray_row h rest) _).trans rfl

/-- **A block is understood** if its parts are. -/
theorem understands_ways
    (hfields : Understands fields fun chars t => Json.ValueText inner chars (.object t))
    (hinputs : Understands inputs deeper.inputs)
    (hnext : Understands (Reader.optional next) (Json.OptionText deeper.connection)) :
    Understands (Reader.record (some (ways fields inputs next)))
      fun chars b => Json.RecordText (b.members inner deeper) chars where
  gets {_ b} h := Reader.gets_record (run_inPlaces hfields hinputs hnext) named_eq
    b.draft_nil (b.collects hfields hinputs hnext) complete_draft h
  starts h := (Reader.present_record h).starts

end Block

/-! ### Connections -/

namespace Connection

variable {block : List Char → Block → Prop} {reader : Reader Block}

/-- What has been read of a connection when these names have come up. -/
def draft (c : Connection) (seen : List String) : Draft where
  block := known seen "block" c.block
  shadow := known seen "shadow" c.shadow

theorem draft_nil (c : Connection) : c.draft [] = {} := by
  simp [draft]

/-- The names of the members of a connection. -/
theorem mem_names {c : Connection} {name : String} :
    name ∈ (c.members block).map Json.Field.name ↔ name = "block" ∨ name = "shadow" := by
  simp [members]

theorem collects (c : Connection)
    (hblock : Understands (Reader.optional reader) (Json.OptionText block)) :
    Collects (c.members block) Draft.accepts (readMember reader) c.draft where
  accepts {seen name} h := by
    rw [mem_names] at h
    unfold Draft.accepts
    split <;> simp_all [draft, Reader.isNone_known]
  reads {seen f chars} hf h := by
    simp only [members, List.mem_cons, List.not_mem_nil, or_false] at hf
    rcases hf with rfl | rfl
    · refine (hblock.gets h).into (fun block => { c.draft seen with block := some block }) ?_
      simp [draft, Reader.known_cons_of_ne]
    · refine (hblock.gets h).into (fun shadow => { c.draft seen with shadow := some shadow }) ?_
      simp [draft, Reader.known_cons_of_ne]
  skips {seen name} h := by
    rw [mem_names] at h
    unfold readMember
    split <;> simp_all
  ignores {seen name} h := by
    simp only [mem_names, not_or] at h
    simp [draft, Reader.known_cons_of_ne, Ne.symm, h]

theorem complete_draft {c : Connection} {seen : List String}
    (h : ∀ f ∈ c.members block, f.name ∈ seen ∨ f.optional) : (c.draft seen).complete = c := by
  obtain ⟨real, shadow⟩ := c
  simp only [members, List.forall_mem_cons] at h
  obtain ⟨hblock, hshadow, -⟩ := h
  simp only [Draft.complete, draft, Reader.getD_known hblock, Reader.getD_known hshadow]

theorem run_inPlaces {c : Connection} {inside : List Char}
    (hblock : Understands (Reader.optional reader) (Json.OptionText block))
    (h : Json.Row (fun text (f : Json.Field) => f.text text) true inside (c.members block))
    (rest : List Char) : (ways reader).inPlaces.run (inside ++ ']' :: rest) = .ok (c, rest) := by
  obtain ⟨real, shadow⟩ := c
  obtain ⟨_, h, hreal⟩ := Reader.run_nextItem hblock h
  obtain ⟨_, h, hshadow⟩ := Reader.run_nextItem hblock h
  refine (Reader.run_bind_ok (hreal rest) _).trans ?_
  refine (Reader.run_bind_ok (hshadow rest) _).trans ?_
  exact (Reader.run_bind_ok (Reader.run_closeArray_row h rest) _).trans rfl

/-- **A connection is understood** if blocks are. -/
theorem understands_ways (hblock : Understands (Reader.optional reader) (Json.OptionText block)) :
    Understands (Reader.record (some (ways reader)))
      fun chars c => Json.RecordText (c.members block) chars where
  gets {_ c} h := Reader.gets_record (run_inPlaces hblock) (named_eq reader) c.draft_nil
    (c.collects hblock) (fun h => congrArg pure (complete_draft h)) h
  starts h := (Reader.present_record h).starts

end Connection

/-! ### Blocks inside of blocks -/

namespace Block

theorem present_block {budget : Nat} {chars : List Char} {b : Block}
    (h : (texts budget).block chars b) : Reader.Present chars := by
  cases budget with
  | zero => exact h.elim
  | succ inner => exact Reader.present_record h

theorem present_connection {budget : Nat} {chars : List Char} {c : Connection}
    (h : (texts budget).connection chars c) : Reader.Present chars := by
  cases budget with
  | zero => exact h.elim
  | succ inner => exact Reader.present_record h

/-- The fields of a block take a bracket for their table. -/
theorem understands_fields (inner : Nat) :
    Understands (Reader.table (Reader.within inner Reader.json))
      fun chars t => Json.ValueText inner chars (.object t) := by
  cases inner with
  | zero => exact ⟨False.elim, False.elim⟩
  | succ inner => exact Reader.understands_table (Reader.understands_json inner)

/-- **Blocks, connections and sockets are understood** up to as many brackets as their readers
have. -/
theorem understands_texts (budget : Nat) :
    Understands (readers budget).block (texts budget).block ∧
      Understands (readers budget).connection (texts budget).connection ∧
      Understands (Reader.table (readers budget).input) (texts budget).inputs := by
  induction budget with
  | zero => exact ⟨⟨False.elim, False.elim⟩, ⟨False.elim, False.elim⟩, ⟨False.elim, False.elim⟩⟩
  | succ inner ih =>
    obtain ⟨hblock, hconnection, hinputs⟩ := ih
    exact ⟨understands_ways (understands_fields inner) hinputs
        (Reader.understands_optional hconnection.gets present_connection),
      Connection.understands_ways (Reader.understands_optional hblock.gets present_block),
      Reader.understands_table hconnection⟩

end Block

/-! ### Variables -/

namespace Declared

/-- What has been read of a variable when these names have come up. -/
def draft (v : Declared) (seen : List String) : Draft where
  name := known seen "name" v.name
  id := known seen "id" v.id
  type := known seen "type" v.type

theorem draft_nil (v : Declared) : v.draft [] = {} := by
  simp [draft]

/-- The names of the members of a variable. -/
theorem mem_names {v : Declared} {name : String} :
    name ∈ v.members.map Json.Field.name ↔ name = "name" ∨ name = "id" ∨ name = "type" := by
  simp [members]

theorem collects (v : Declared) : Collects v.members Draft.accepts readMember v.draft where
  accepts {seen name} h := by
    rw [mem_names] at h
    unfold Draft.accepts
    split <;> simp_all [draft, Reader.isNone_known]
  reads {seen f chars} hf h := by
    simp only [members, List.mem_cons, List.not_mem_nil, or_false] at hf
    rcases hf with rfl | rfl | rfl
    · refine (Reader.gets_text h).into (fun name => { v.draft seen with name := some name }) ?_
      simp [draft, Reader.known_cons_of_ne]
    · refine (Reader.gets_text h).into (fun id => { v.draft seen with id := some id }) ?_
      simp [draft, Reader.known_cons_of_ne]
    · refine (Reader.gets_text h).into (fun type => { v.draft seen with type := some type }) ?_
      simp [draft, Reader.known_cons_of_ne]
  skips {seen name} h := by
    rw [mem_names] at h
    unfold readMember
    split <;> simp_all
  ignores {seen name} h := by
    simp only [mem_names, not_or] at h
    simp [draft, Reader.known_cons_of_ne, Ne.symm, h]

theorem complete_draft {v : Declared} {seen : List String}
    (h : ∀ f ∈ v.members, f.name ∈ seen ∨ f.optional) : (v.draft seen).complete = pure v := by
  simp only [members, List.forall_mem_cons] at h
  obtain ⟨hname, hid, htype, -⟩ := h
  simp only [Draft.complete, draft, Reader.known_of_mem (hname.resolve_right not_false),
    Reader.known_of_mem (hid.resolve_right not_false), Reader.getD_known htype]

theorem run_inPlaces {v : Declared} {inside : List Char}
    (h : Json.Row (fun text (f : Json.Field) => f.text text) true inside v.members)
    (rest : List Char) : ways.inPlaces.run (inside ++ ']' :: rest) = .ok (v, rest) := by
  obtain ⟨_, h, hname⟩ := Reader.run_nextItem Reader.understands_text h
  obtain ⟨_, h, hid⟩ := Reader.run_nextItem Reader.understands_text h
  obtain ⟨_, h, htype⟩ := Reader.run_nextItem Reader.understands_text h
  refine (Reader.run_bind_ok (hname rest) _).trans ?_
  refine (Reader.run_bind_ok (hid rest) _).trans ?_
  refine (Reader.run_bind_ok (htype rest) _).trans ?_
  refine (Reader.run_bind_ok rfl _).trans ?_
  exact (Reader.run_bind_ok (Reader.run_closeArray_row h rest) _).trans rfl

/-- **A variable is understood.** -/
theorem understands_reader (budget : Nat) : Understands (reader budget) (Text budget) where
  gets := by
    rintro chars v ⟨inner, rfl, h⟩
    rw [reader_succ]
    exact Reader.gets_record run_inPlaces named_eq v.draft_nil v.collects complete_draft h
  starts := by
    rintro chars v ⟨_, -, h⟩
    exact (Reader.present_record h).starts

end Declared

/-! ### Workspaces -/

namespace Workspace

section Sole

variable {α : Type} {name : String} {member : Reader α} {P : List Char → α → Prop}

theorem collects_sole (hmember : Understands member P) (a missing : α) :
    Collects [⟨name, (P · a), a = missing⟩] (fun soFar other => other != name || soFar.isNone)
      (readSole name member) (known · name a) where
  accepts {seen other} h := by
    simp only [List.map_cons, List.map_nil, List.mem_singleton] at h
    by_cases hother : other = name
    · subst hother
      simp [Reader.isNone_known (h.resolve_right (not_not_intro rfl))]
    · simp [hother]
  reads {seen f chars} hf h := by
    obtain rfl := List.mem_singleton.mp hf
    rw [readSole, if_pos rfl, Reader.known_cons_self]
    exact (hmember.gets h).map some
  skips {seen other} h := if_neg (fun heq => h (by simp [heq]))
  ignores {seen other} h := Reader.known_cons_of_ne (fun heq => h (by simp [heq])) seen a

theorem run_inPlaces_sole (hmember : Understands member P) {a missing : α} (needed : Bool)
    {inside : List Char}
    (h : Json.Row (fun text (f : Json.Field) => f.text text) true inside
      [⟨name, (P · a), a = missing⟩]) (rest : List Char) :
    (soleMember name member missing needed).inPlaces.run (inside ++ ']' :: rest) =
      .ok (a, rest) := by
  obtain ⟨_, h, hitem⟩ := Reader.run_nextItem hmember h
  refine (Reader.run_bind_ok (hitem rest) _).trans ?_
  simp only [Option.isNone_some, Bool.and_false]
  exact (Reader.run_bind_ok (Reader.run_closeArray_row h rest) _).trans rfl

/-- **A record with one member is understood** if its member is. -/
theorem understands_soleMember (hmember : Understands member P) (missing : α) (needed : Bool) :
    Understands (Reader.record (some (soleMember name member missing needed)))
      fun chars a => Json.RecordText [⟨name, (P · a), a = missing⟩] chars where
  gets {_ a} h := by
    refine Reader.gets_record (run_inPlaces_sole hmember needed) (soleMember_named_eq _ _ _ _)
      (Reader.known_nil name a) (collects_sole hmember a missing) (fun h => ?_) h
    exact congrArg pure (Reader.getD_known (h _ List.mem_cons_self))
  starts h := (Reader.present_record h).starts

end Sole

/-- What stands behind a bracket is understood if it is with one bracket less. -/
theorem understands_inside {α : Type} (reader : Nat → Reader α) {P : Nat → List Char → α → Prop}
    (h : ∀ inner, Understands (reader (inner + 1)) (P inner)) (budget : Nat) :
    Understands (reader budget) fun chars a => Json.Inside budget fun inner => P inner chars a where
  gets := by
    rintro chars a ⟨inner, rfl, hchars⟩
    exact (h inner).gets hchars
  starts := by
    rintro chars a ⟨inner, rfl, hchars⟩
    exact (h inner).starts hchars

theorem understands_blocks (budget : Nat) :
    Understands (blocksReader budget) (BlocksText budget) := by
  refine understands_inside blocksReader (fun inner => understands_soleMember ?_ [] false) budget
  refine understands_inside (fun inner => Reader.list (Reader.within inner Block.reader))
    (fun inner => ?_) inner
  exact Reader.understands_list (Block.understands_texts inner).1

theorem understands_variables (budget : Nat) :
    Understands (variablesReader budget) (VariablesText budget) :=
  understands_inside variablesReader
    (fun inner => Reader.understands_list (Declared.understands_reader inner)) budget

theorem understands_flag : Understands Reader.flag FlagText where
  gets {chars b} h := by
    cases b with
    | true =>
      obtain rfl : chars = ['t', 'r', 'u', 'e'] := h
      exact Reader.gets_flag true
    | false =>
      obtain rfl : chars = ['f', 'a', 'l', 's', 'e'] := h
      exact Reader.gets_flag false
  starts {chars b} h := (Reader.understands_scalar 0 h).2

theorem present_flag {chars : List Char} {b : Bool} (h : FlagText chars b) :
    Reader.Present chars := by
  cases b with
  | true =>
    obtain rfl : chars = ['t', 'r', 'u', 'e'] := h
    exact ⟨_, _, rfl, by unfold Json.NoStart; decide, by decide⟩
  | false =>
    obtain rfl : chars = ['f', 'a', 'l', 's', 'e'] := h
    exact ⟨_, _, rfl, by unfold Json.NoStart; decide, by decide⟩

theorem understands_options (budget : Nat) :
    Understands (optionsReader budget) (OptionsText budget) :=
  understands_inside optionsReader (fun _ => understands_soleMember
    (Reader.understands_optional understands_flag.gets present_flag) none true) budget

/-- What has been read of a workspace when these names have come up. -/
def draft (w : Workspace) (seen : List String) : Draft where
  blocks := known seen "blocks" w.blocks
  declared := known seen "variables" w.declared
  options := known seen "options" w.oneBased

theorem draft_nil (w : Workspace) : w.draft [] = {} := by
  simp [draft]

/-- The names of the members of a workspace. -/
theorem mem_names {inner : Nat} {w : Workspace} {name : String} :
    name ∈ (w.members inner).map Json.Field.name ↔
      name = "blocks" ∨ name = "variables" ∨ name = "options" := by
  simp [members]

theorem collects (inner : Nat) (w : Workspace) :
    Collects (w.members inner) Draft.accepts (readMember inner) w.draft where
  accepts {seen name} h := by
    rw [mem_names] at h
    unfold Draft.accepts
    split <;> simp_all [draft, Reader.isNone_known]
  reads {seen f chars} hf h := by
    simp only [members, List.mem_cons, List.not_mem_nil, or_false] at hf
    rcases hf with rfl | rfl | rfl
    · refine ((understands_blocks inner).gets h).into
        (fun blocks => { w.draft seen with blocks := some blocks }) ?_
      simp [draft, Reader.known_cons_of_ne]
    · refine ((understands_variables inner).gets h).into
        (fun declared => { w.draft seen with declared := some declared }) ?_
      simp [draft, Reader.known_cons_of_ne]
    · refine ((understands_options inner).gets h).into
        (fun options => { w.draft seen with options := some options }) ?_
      simp [draft, Reader.known_cons_of_ne]
  skips {seen name} h := by
    rw [mem_names] at h
    unfold readMember
    split <;> simp_all
  ignores {seen name} h := by
    simp only [mem_names, not_or] at h
    simp [draft, Reader.known_cons_of_ne, Ne.symm, h]

theorem complete_draft {inner : Nat} {w : Workspace} {seen : List String}
    (h : ∀ f ∈ w.members inner, f.name ∈ seen ∨ f.optional) : (w.draft seen).complete = w := by
  simp only [members, List.forall_mem_cons] at h
  obtain ⟨hblocks, hdeclared, hoptions, -⟩ := h
  simp only [Draft.complete, draft, Reader.getD_known hblocks, Reader.getD_known hdeclared,
    Reader.getD_known hoptions]

theorem run_inPlaces {inner : Nat} {w : Workspace} {inside : List Char}
    (h : Json.Row (fun text (f : Json.Field) => f.text text) true inside (w.members inner))
    (rest : List Char) : (ways inner).inPlaces.run (inside ++ ']' :: rest) = .ok (w, rest) := by
  obtain ⟨_, h, hblocks⟩ := Reader.run_nextItem (understands_blocks inner) h
  obtain ⟨_, h, hvariables⟩ := Reader.run_nextItem (understands_variables inner) h
  obtain ⟨_, h, hoptions⟩ := Reader.run_nextItem (understands_options inner) h
  refine (Reader.run_bind_ok (hblocks rest) _).trans ?_
  refine (Reader.run_bind_ok (hvariables rest) _).trans ?_
  refine (Reader.run_bind_ok (hoptions rest) _).trans ?_
  exact (Reader.run_bind_ok (Reader.run_closeArray_row h rest) _).trans rfl

theorem gets_reader (budget : Nat) {chars : List Char} {w : Workspace} (h : Text budget chars w) :
    Gets (reader budget) chars w := by
  obtain ⟨inner, rfl, h⟩ := h
  rw [reader_succ]
  exact Reader.gets_record run_inPlaces (named_eq inner) w.draft_nil (w.collects inner)
    (fun h => congrArg pure (complete_draft h)) h

/-- **Reading undoes writing.** Every text of a workspace is read as just this workspace. So its
sketch does not depend on how the workspace was written. -/
theorem parse_of_renders {text : String} {w : Workspace} (h : Renders text w) :
    parse text = .ok w ∧ sketchOfText text = w.sketchWith (.ofWorkspace w) := by
  obtain ⟨before, chars, after, hbefore, hchars, hafter, htext⟩ := h
  have hparse : parse text = .ok w := (gets_reader 127 hchars).whole hbefore hafter htext
  refine ⟨hparse, ?_⟩
  rw [sketchOfText, ofText, hparse]
  rfl

/-! ### A workspace in one of its forms

The record around the blocks is an array, a member that is none of the workspace's is a number, the
identity of the variable stands in front of its name, and the name is an escape. -/

/-- One block and one variable. -/
def blockAndVariable : Workspace where
  blocks := [⟨⟨"t", []⟩, none, [], none⟩]
  declared := [⟨"n", "v", ""⟩]

/-- A text of it. -/
def blockAndVariableText : String :=
  " \x7b\"x\":-0.5, \"blocks\":[[\x7b\"type\":\"t\"\x7d]]," ++
    "\"variables\":[\x7b\"id\":\"v\",\"name\":\"\\u006E\"\x7d]\x7d\n"

open Json (gap_nil memberText_plain stringText_plain)

theorem stringText_escaped : Json.StringText "\"\\u006E\"".toList "n" := by
  have hdigits : Json.UnitText 'n'.toNat ['0', '0', '6', 'E'] :=
    ⟨'0', '0', '6', 'E', by unfold Json.IsHexDigit; decide, by unfold Json.IsHexDigit; decide,
      by unfold Json.IsHexDigit; decide, by unfold Json.IsHexDigit; decide, rfl⟩
  exact ⟨_, .cons (.unit (by decide) hdigits) .nil, rfl⟩

theorem wellFormed_fraction : Json.WellFormed 0 "-0.5".toList :=
  .inr (.inr ⟨['-'], ['0'], ['.', '5'], [], .inr rfl, ⟨.zero, [], fun _ => rfl, rfl⟩,
    .inr ⟨['5'], ⟨⟨5, by decide⟩, [], rfl⟩, rfl⟩, .inl rfl, by decide⟩)

theorem variablesText_reordered :
    VariablesText 126 "[\x7b\"id\":\"v\",\"name\":\"\\u006E\"\x7d]".toList [⟨"n", "v", ""⟩] := by
  have hmembers : Json.Describes (Declared.members ⟨"n", "v", ""⟩)
      [("id", "\"v\"".toList), ("name", "\"\\u006E\"".toList)] := by
    refine ⟨?_, by decide, by simp [Declared.members], by simp [Declared.members]⟩
    simpa [Declared.members] using
      ⟨stringText_escaped, stringText_plain (by decide : "v".toList.all _)⟩
  have hvariable : Declared.Text 125 "\x7b\"id\":\"v\",\"name\":\"\\u006E\"\x7d".toList
      ⟨"n", "v", ""⟩ :=
    ⟨124, rfl, .inr ⟨_, hmembers, _, .first gap_nil (memberText_plain (by decide) rfl)
      (.more gap_nil gap_nil (memberText_plain (by decide) rfl) (.nil gap_nil)), by decide⟩⟩
  exact ⟨125, rfl, _, .first gap_nil hvariable (.nil gap_nil), by decide⟩

theorem blocksText_inPlaces :
    BlocksText 126 "[[\x7b\"type\":\"t\"\x7d]]".toList [⟨⟨"t", []⟩, none, [], none⟩] := by
  have hmembers : Json.Describes (Block.members 123 (Block.texts 123) ⟨⟨"t", []⟩, none, [], none⟩)
      [("type", "\"t\"".toList)] := by
    refine ⟨?_, by decide, by simp [Block.members], by simp [Block.members]⟩
    simpa [Block.members] using stringText_plain (by decide : "t".toList.all _)
  have hblock : (Block.texts 124).block "\x7b\"type\":\"t\"\x7d".toList
      ⟨⟨"t", []⟩, none, [], none⟩ :=
    .inr ⟨_, hmembers, _, .first gap_nil (memberText_plain (by decide) rfl) (.nil gap_nil),
      by decide⟩
  exact ⟨125, rfl, .inl ⟨_, .first gap_nil ⟨124, rfl, _, .first gap_nil hblock (.nil gap_nil), rfl⟩
    (.nil gap_nil), by decide⟩⟩

theorem renders_blockAndVariable : Renders blockAndVariableText blockAndVariable := by
  have hmembers : Json.Describes (blockAndVariable.members 126)
      [("x", "-0.5".toList), ("blocks", "[[\x7b\"type\":\"t\"\x7d]]".toList),
        ("variables", "[\x7b\"id\":\"v\",\"name\":\"\\u006E\"\x7d]".toList)] := by
    refine ⟨?_, by decide, by simp [members, blockAndVariable], ?_⟩
    · simpa [members] using ⟨blocksText_inPlaces, variablesText_reordered⟩
    · simpa [members] using ⟨0, wellFormed_fraction⟩
  have hblank : Json.Gap [' '] := Json.gap_blank (by decide)
  have hfeed : Json.Gap ['\n'] := Json.gap_blank (by decide)
  exact ⟨[' '], _, ['\n'], hblank, ⟨126, rfl, .inr ⟨_, hmembers, _,
    .first gap_nil (memberText_plain (by decide) rfl) (.more gap_nil hblank
      (memberText_plain (by decide) rfl) (.more gap_nil gap_nil
        (memberText_plain (by decide) rfl) (.nil gap_nil))), rfl⟩⟩, hfeed, by decide⟩

/-- It is read from this text. -/
theorem blockAndVariable_parsed : parse blockAndVariableText = .ok blockAndVariable :=
  (parse_of_renders renders_blockAndVariable).1

end Workspace

end BlockSketch
