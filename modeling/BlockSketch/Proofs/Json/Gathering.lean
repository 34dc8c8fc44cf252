import BlockSketch.Proofs.Json.Skipping
import BlockSketch.Proofs.Json.Tables

/-!
# Arrays and objects are read, however they are written

The loops of the reader work off a row from the front. What a row is made of does not matter to them:
`Reader.understands_list` and `Reader.understands_table` say that an array and an object are read if
every item is, and `Reader.understands_json` puts the laws together for values of any kind.

The members of an object come in any order, and what has been read so far depends on the order. In
the end it does not. A table with the same entries is the same table, and of a record it only matters
which names have come up: `Reader.Collects` says how the reading of a record goes on from there, and
then `Reader.gets_record` is about whole records in either of their forms.
-/

namespace BlockSketch

namespace Reader

variable {α σ : Type} {P : List Char → α → Prop} {gap inside rest : List Char} {a : α} {as : List α}

/-! ### Arrays -/

theorem run_hasItem_starts {text : List Char} (hgap : Json.Gap gap) (h : Starts text) :
    (hasItem true).run (gap ++ text) = .ok (true, text) := by
  obtain ⟨c, more, rfl, hc⟩ := h
  have hblank : isGap c = false := Bool.eq_false_iff.mpr fun h => hc (.inl h)
  rw [hasItem, run_peek_bind hgap]
  refine (run_bind_ok (run_peek hblank _) _).trans ?_
  split
  · next heq => cases heq
  · next heq => exact absurd (.inr (.inr (.inl (Option.some.inj heq)))) hc
  · rfl

theorem run_hasItem_comma {gap' text : List Char} (hgap : Json.Gap gap) (hgap' : Json.Gap gap')
    (h : Starts text) : (hasItem false).run (gap ++ ',' :: (gap' ++ text)) = .ok (true, text) := by
  obtain ⟨c, more, rfl, hc⟩ := h
  have hblank : isGap c = false := Bool.eq_false_iff.mpr fun h => hc (.inl h)
  rw [hasItem, run_peek_bind hgap]
  refine (run_bind_ok (run_peek rfl _) _).trans ?_
  refine (run_bind_ok (run_advance _ _) _).trans ?_
  rw [run_peek_bind hgap']
  refine (run_bind_ok (run_peek hblank _) _).trans ?_
  split
  · next heq => cases heq
  · next heq => exact absurd (.inr (.inr (.inl (Option.some.inj heq)))) hc
  · rfl

/-- At the end of a row there is no item. -/
theorem run_hasItem_nil {first : Bool} (h : Json.Row P first inside []) (rest : List Char) :
    (hasItem first).run (inside ++ ']' :: rest) = .ok (false, ']' :: rest) := by
  cases h with
  | nil hgap =>
    rw [hasItem, run_peek_bind hgap]
    exact (run_bind_ok (run_peek rfl _) _).trans rfl

/-- Otherwise there is one, and then what is left of the row. -/
theorem run_hasItem_cons (hP : ∀ {chars}, P chars a → Starts chars) {first : Bool}
    (h : Json.Row P first inside (a :: as)) :
    ∃ chars more, P chars a ∧ Json.Row P false more as ∧ ∀ rest,
      (hasItem first).run (inside ++ ']' :: rest) = .ok (true, chars ++ (more ++ ']' :: rest)) := by
  cases h with
  | @first gap chars more _ _ hgap hchars hmore =>
    refine ⟨chars, more, hchars, hmore, fun rest => ?_⟩
    simp only [List.append_assoc]
    exact run_hasItem_starts hgap ((hP hchars).append _)
  | @more gap gap' chars more _ _ hgap hgap' hchars hmore =>
    refine ⟨chars, more, hchars, hmore, fun rest => ?_⟩
    simp only [List.append_assoc, List.cons_append]
    exact run_hasItem_comma hgap hgap' ((hP hchars).append _)

theorem run_closeArray (hgap : Json.Gap gap) (rest : List Char) :
    closeArray.run (gap ++ ']' :: rest) = .ok ((), rest) := by
  rw [closeArray, run_peek_bind hgap]
  exact (run_bind_ok (run_peek rfl _) _).trans (run_advance _ _)

theorem run_closeArray_row (h : Json.Row P false inside []) (rest : List Char) :
    closeArray.run (inside ++ ']' :: rest) = .ok ((), rest) := by
  cases h with
  | nil hgap => exact run_closeArray hgap rest

/-- Every item takes a character. -/
theorem length_le_row (hP : ∀ {chars a}, P chars a → Starts chars) {first : Bool}
    (h : Json.Row P first inside as) : as.length ≤ inside.length := by
  induction h with
  | nil _ => exact Nat.zero_le _
  | first _ hchars _ ih =>
    obtain ⟨c, more, rfl, -⟩ := hP hchars
    simp only [List.length_append, List.length_cons]
    omega
  | more _ _ _ _ ih =>
    simp only [List.length_append, List.length_cons]
    omega

/-- The items of a row are read one after the other. -/
theorem run_items {item : Reader α} (hitem : Understands item P) {rounds : Nat} {first : Bool}
    (h : Json.Row P first inside as) (hrounds : as.length < rounds) (rest : List Char) :
    (items item rounds first).run (inside ++ ']' :: rest) = .ok (as, rest) := by
  induction as generalizing inside rounds first with
  | nil =>
    obtain ⟨rounds, rfl⟩ := Nat.exists_eq_add_one.mpr (Nat.zero_lt_of_lt hrounds)
    refine (run_bind_ok (run_hasItem_nil h rest) _).trans ?_
    exact (run_bind_ok (run_closeArray Json.gap_nil rest) _).trans rfl
  | cons a as ih =>
    obtain ⟨rounds, rfl⟩ := Nat.exists_eq_add_one.mpr (Nat.zero_lt_of_lt hrounds)
    obtain ⟨chars, more, hchars, hmore, hrun⟩ := run_hasItem_cons hitem.starts h
    refine (run_bind_ok (hrun rest) _).trans ?_
    refine (run_bind_ok ((hitem.gets hchars).run (stops_row hmore .square rest)) _).trans ?_
    exact (run_bind_ok (ih hmore (Nat.lt_of_succ_lt_succ hrounds)) _).trans rfl

/-- There are as many rounds as there are characters left. -/
theorem run_items_all {item : Reader α} (hitem : Understands item P)
    (h : Json.Row P true inside as) (rest : List Char) :
    (items item ((inside ++ ']' :: rest).length + 1) true).run (inside ++ ']' :: rest) =
      .ok (as, rest) := by
  have hlength := length_le_row hitem.starts h
  refine run_items hitem h ?_ rest
  rw [List.length_append]
  omega

theorem present_array {chars : List Char} (h : Json.ArrayText P chars as) : Present chars := by
  obtain ⟨inside, -, rfl⟩ := h
  exact ⟨'[', _, rfl, by unfold Json.NoStart; decide, by decide⟩

/-- **An array is understood** if its items are. -/
theorem understands_list {item : Reader α} (hitem : Understands item P) :
    Understands (list (some item)) (Json.ArrayText P) where
  gets := by
    rintro chars as ⟨inside, hrow, rfl⟩
    refine gets_peek fun rest _ => ?_
    rw [List.cons_append, List.append_assoc]
    refine (run_bind_ok (run_peek rfl _) _).trans ?_
    refine (run_bind_ok (run_advance _ _) _).trans ?_
    exact (run_bind_ok rfl _).trans (run_items_all hitem hrow rest)
  starts h := (present_array h).starts

/-! ### Objects -/

/-- What is read of a member up to its value, the comma in front of it aside. -/
def memberName (accept : String → Bool) : Reader (Option String) := do
  match ← peek with
  | some '"' =>
    advance
    let name ← stringBody
    if !accept name then throw .unsuitable
    match ← peek with
    | some ':' =>
      advance
      return some name
    | some _ => throw .malformed
    | none => throw .incomplete
  | _ => throw .malformed

theorem run_memberName {accept : String → Bool} {name : List Char} {s : String}
    (hname : Json.StringText name s) (haccept : accept s = true) (hgap : Json.Gap gap)
    (rest : List Char) :
    (memberName accept).run (name ++ (gap ++ ':' :: rest)) = .ok (some s, rest) := by
  obtain ⟨inside, hinside, rfl⟩ := hname
  rw [List.cons_append, List.append_assoc, List.singleton_append]
  refine (run_bind_ok (run_peek rfl _) _).trans ?_
  refine (run_bind_ok (run_advance _ _) _).trans ?_
  refine (run_bind_ok (run_stringBody_text hinside _) _).trans ?_
  simp only [haccept]
  change (peek >>= _ : Reader (Option String)).run _ = _
  rw [run_peek_bind hgap]
  exact (run_bind_ok (run_peek rfl _) _).trans rfl

/-- At the closing brace there is no member. -/
theorem run_nextName_nil {first : Bool} (h : Json.Row P first inside []) (accept : String → Bool)
    (rest : List Char) :
    (nextName first accept).run (inside ++ '\x7d' :: rest) = .ok (none, rest) := by
  cases h with
  | nil hgap =>
    rw [nextName, run_peek_bind hgap]
    refine (run_bind_ok (run_peek rfl _) _).trans ?_
    exact (run_bind_ok (run_advance _ _) _).trans rfl

theorem run_nextName_quote (accept : String → Bool) (hgap : Json.Gap gap) (text : List Char) :
    (nextName true accept).run (gap ++ '"' :: text) = (memberName accept).run ('"' :: text) := by
  rw [nextName, run_peek_bind hgap]
  exact run_bind_ok (run_peek rfl _) _

theorem run_nextName_comma (accept : String → Bool) {gap' : List Char} (hgap : Json.Gap gap)
    (hgap' : Json.Gap gap') (text : List Char) :
    (nextName false accept).run (gap ++ ',' :: (gap' ++ '"' :: text)) =
      (memberName accept).run ('"' :: text) := by
  rw [nextName, run_peek_bind hgap]
  refine (run_bind_ok (run_peek rfl _) _).trans ?_
  refine (run_bind_ok (run_advance _ _) _).trans ?_
  rw [run_peek_bind hgap']
  exact run_bind_ok (run_peek rfl _) _

variable {name : String} {ms : List (String × α)}

/-- Otherwise there is a name, and then a value and what is left of the row. -/
theorem run_nextName_cons {first : Bool}
    (h : Json.Row (Json.MemberText Json.StringText P) first inside ((name, a) :: ms))
    {accept : String → Bool} (haccept : accept name = true) :
    ∃ gap value more, Json.Gap gap ∧ P value a ∧
      Json.Row (Json.MemberText Json.StringText P) false more ms ∧ ∀ rest,
      (nextName first accept).run (inside ++ '\x7d' :: rest) =
        .ok (some name, gap ++ (value ++ (more ++ '\x7d' :: rest))) := by
  cases h with
  | @first lead chars more _ _ hlead hchars hmore =>
    obtain ⟨_, gap, gap', value, hname, hgap, hgap', hvalue, rfl⟩ := hchars
    refine ⟨gap', value, more, hgap', hvalue, hmore, fun rest => ?_⟩
    have hrun := run_memberName hname haccept hgap (gap' ++ (value ++ (more ++ '\x7d' :: rest)))
    obtain ⟨inside, -, rfl⟩ := hname
    simp only [List.append_assoc, List.cons_append] at hrun ⊢
    rw [run_nextName_quote accept hlead, hrun]
  | @more lead lead' chars more _ _ hlead hlead' hchars hmore =>
    obtain ⟨_, gap, gap', value, hname, hgap, hgap', hvalue, rfl⟩ := hchars
    refine ⟨gap', value, more, hgap', hvalue, hmore, fun rest => ?_⟩
    have hrun := run_memberName hname haccept hgap (gap' ++ (value ++ (more ++ '\x7d' :: rest)))
    obtain ⟨inside, -, rfl⟩ := hname
    simp only [List.append_assoc, List.cons_append] at hrun ⊢
    rw [run_nextName_comma accept hlead hlead', hrun]

variable {accept : σ → String → Bool} {member : σ → String → Reader σ} {soFar final : σ}

/-- A run through the members of an object, by their names and what stands for their values. Each
changes what has been read so far. -/
inductive Passes (accept : σ → String → Bool) (member : σ → String → Reader σ)
    (P : List Char → α → Prop) : σ → List (String × α) → σ → Prop
  | nil (soFar : σ) : Passes accept member P soFar [] soFar
  | cons {soFar next final : σ} {name : String} {a : α} {ms : List (String × α)} :
      accept soFar name = true → (∀ {chars}, P chars a → Gets (member soFar name) chars next) →
      Passes accept member P next ms final → Passes accept member P soFar ((name, a) :: ms) final

/-- The members of a row are read one after the other. -/
theorem run_members_row (h : Passes accept member P soFar ms final) {rounds : Nat} {first : Bool}
    (hrow : Json.Row (Json.MemberText Json.StringText P) first inside ms)
    (hrounds : ms.length < rounds) (rest : List Char) :
    (members accept member rounds first soFar).run (inside ++ '\x7d' :: rest) =
      .ok (final, rest) := by
  induction h generalizing inside rounds first with
  | nil soFar =>
    obtain ⟨rounds, rfl⟩ := Nat.exists_eq_add_one.mpr (Nat.zero_lt_of_lt hrounds)
    exact (run_bind_ok (run_nextName_nil hrow _ rest) _).trans rfl
  | cons haccept hgets _ ih =>
    obtain ⟨rounds, rfl⟩ := Nat.exists_eq_add_one.mpr (Nat.zero_lt_of_lt hrounds)
    obtain ⟨gap, value, more, hgap, hvalue, hmore, hrun⟩ := run_nextName_cons hrow haccept
    refine (run_bind_ok (hrun rest) _).trans ?_
    refine (run_bind_ok (hgets hvalue gap _ hgap (stops_row hmore .curly rest)) _).trans ?_
    exact ih hmore (Nat.lt_of_succ_lt_succ hrounds)

theorem starts_memberText {m : String × α} {chars : List Char}
    (h : Json.MemberText Json.StringText P chars m) : Starts chars := by
  obtain ⟨_, gap, gap', value, ⟨inside, -, rfl⟩, -, -, -, rfl⟩ := h
  exact ⟨'"', _, rfl, by unfold Json.NoStart; decide⟩

/-- There are as many rounds as there are characters left. -/
theorem run_members_all (h : Passes accept member P soFar ms final)
    (hrow : Json.Row (Json.MemberText Json.StringText P) true inside ms) (rest : List Char) :
    (members accept member ((inside ++ '\x7d' :: rest).length + 1) true soFar).run
      (inside ++ '\x7d' :: rest) = .ok (final, rest) := by
  have hlength := length_le_row starts_memberText hrow
  refine run_members_row h hrow ?_ rest
  rw [List.length_append]
  omega

theorem present_object {chars : List Char} (h : Json.ObjectText Json.StringText P chars ms) :
    Present chars := by
  obtain ⟨inside, -, rfl⟩ := h
  exact ⟨'\x7b', _, rfl, by unfold Json.NoStart; decide, by decide⟩

/-! ### Tables -/

theorem passes_insert {value : Reader α} (hvalue : Understands value P) (ms : List (String × α))
    (table : Table α) :
    Passes (fun _ _ => true) (fun soFar name => return Table.insert name (← value) soFar) P table ms
      (ms.foldl (fun table m => Table.insert m.1 m.2 table) table) := by
  induction ms generalizing table with
  | nil => exact .nil table
  | cons m ms ih =>
    exact .cons rfl (fun h => (hvalue.gets h).map (Table.insert m.1 · table)) (ih _)

/-- The entries of a table, in whatever order. -/
theorem run_entries {value : Reader α} (hvalue : Understands value P) {table : Table α}
    (htable : Table.Ascending table) (hperm : ms.Perm table)
    (hrow : Json.Row (Json.MemberText Json.StringText P) true inside ms) (rest : List Char) :
    (members (fun _ _ => true) (fun soFar name => return Table.insert name (← value) soFar)
        ((inside ++ '\x7d' :: rest).length + 1) true []).run (inside ++ '\x7d' :: rest) =
      .ok (table, rest) := by
  have hpasses := passes_insert hvalue ms []
  rw [Table.foldl_insert_of_perm htable hperm] at hpasses
  exact run_members_all hpasses hrow rest

/-- **A table is understood** if its values are. -/
theorem understands_table {value : Reader α} (hvalue : Understands value P) :
    Understands (table (some value)) (Json.TableText P) where
  gets := by
    rintro chars table ⟨htable, ms, hperm, inside, hrow, rfl⟩
    refine gets_peek fun rest _ => ?_
    rw [List.cons_append, List.append_assoc]
    refine (run_bind_ok (run_peek rfl _) _).trans ?_
    refine (run_bind_ok (run_advance _ _) _).trans ?_
    exact (run_bind_ok rfl _).trans (run_entries hvalue htable hperm hrow rest)
  starts := by
    rintro chars table ⟨-, ms, -, hobject⟩
    exact (present_object hobject).starts

/-! ### Values of any kind -/

/-- A reader of any value reads what starts like a scalar as a scalar. -/
theorem run_json_scalar {c : Char} (h : StartsScalar c) (budget : Nat) (more : List Char) :
    (json budget).run (c :: more) = scalar.run (c :: more) := by
  cases budget with
  | zero =>
    refine (run_bind_ok (run_peek h.isGap_eq _) _).trans ?_
    split
    · next heq => exact absurd (Option.some.inj heq) h.2.1
    · next heq => exact absurd (Option.some.inj heq) h.2.2
    · rfl
  | succ inner =>
    refine (run_bind_ok (run_peek h.isGap_eq _) _).trans ?_
    split
    · next heq => exact absurd (Option.some.inj heq) h.2.1
    · next heq => exact absurd (Option.some.inj heq) h.2.2
    · rfl

theorem run_json_gap (hgap : Json.Gap gap) (budget : Nat) (text : List Char) :
    (json budget).run (gap ++ text) = (json budget).run text := by
  cases budget with
  | zero => exact run_peek_bind hgap _ text
  | succ inner => exact run_peek_bind hgap _ text

theorem understands_scalar (budget : Nat) {chars : List Char} {v : Json}
    (h : Json.ValueText 0 chars v) : Gets (json budget) chars v ∧ Starts chars := by
  obtain ⟨c, more, rfl, hstart, -⟩ := run_scalar h stops_nil
  refine ⟨fun gap rest hgap hrest => ?_, c, more, rfl, hstart.1⟩
  obtain ⟨_, _, _, -, hrun⟩ := run_scalar h hrest
  rw [run_json_gap hgap, List.cons_append, run_json_scalar hstart]
  exact hrun

/-- **Values are understood**, up to as many brackets as the reader has. -/
theorem understands_json (budget : Nat) : Understands (json budget) (Json.ValueText budget) := by
  induction budget with
  | zero => exact ⟨fun h => (understands_scalar 0 h).1, fun h => (understands_scalar 0 h).2⟩
  | succ inner ih =>
    have hcases {chars : List Char} {v : Json} (h : Json.ValueText (inner + 1) chars v) :
        Gets (json (inner + 1)) chars v ∧ Starts chars := by
      cases v with
      | array items =>
        refine ⟨?_, (present_array h).starts⟩
        obtain ⟨inside, hrow, rfl⟩ := h
        refine gets_peek fun rest _ => ?_
        rw [List.cons_append, List.append_assoc]
        refine (run_bind_ok (run_peek rfl _) _).trans ?_
        refine (run_bind_ok (run_advance _ _) _).trans ?_
        refine (run_bind_ok rfl _).trans ?_
        exact (run_bind_ok (run_items_all ih hrow rest) _).trans rfl
      | object members =>
        obtain ⟨htable, ms, hperm, hobject⟩ := h
        refine ⟨?_, (present_object hobject).starts⟩
        obtain ⟨inside, hrow, rfl⟩ := hobject
        refine gets_peek fun rest _ => ?_
        rw [List.cons_append, List.append_assoc]
        refine (run_bind_ok (run_peek rfl _) _).trans ?_
        refine (run_bind_ok (run_advance _ _) _).trans ?_
        refine (run_bind_ok rfl _).trans ?_
        exact (run_bind_ok (run_entries ih htable hperm hrow rest) _).trans rfl
      | null => exact understands_scalar _ h
      | bool b => cases b <;> exact understands_scalar _ h
      | number n => exact understands_scalar _ h
      | string s => exact understands_scalar _ h
    exact ⟨fun h => (hcases h).1, fun h => (hcases h).2⟩

/-! ### Records -/

/-- A member in its place. -/
theorem run_nextItem {β : Type} {item : Reader β} {Q : List Char → β → Prop}
    (hitem : Understands item Q) {first : Bool} {name : String} {b : β} {optional : Prop}
    {fields : List Json.Field}
    (h : Json.Row (fun text (f : Json.Field) => f.text text) first inside
      (⟨name, (Q · b), optional⟩ :: fields)) :
    ∃ more, Json.Row (fun text (f : Json.Field) => f.text text) false more fields ∧ ∀ rest,
      (nextItem first item).run (inside ++ ']' :: rest) = .ok (some b, more ++ ']' :: rest) := by
  obtain ⟨chars, more, hchars, hmore, hrun⟩ := run_hasItem_cons
    (P := fun text (f : Json.Field) => f.text text) hitem.starts h
  refine ⟨more, hmore, fun rest => ?_⟩
  refine (run_bind_ok (hrun rest) _).trans ?_
  exact (run_bind_ok ((hitem.gets hchars).run (stops_row hmore .square rest)) _).trans rfl

/-- How an object is read that is a record with these fields: `draft` is what has been read of it
when these names have come up. -/
structure Collects (fields : List Json.Field) (accept : σ → String → Bool)
    (member : σ → String → Reader σ) (draft : List String → σ) : Prop where
  accepts {seen : List String} {name : String} :
    name ∉ seen ∨ name ∉ fields.map Json.Field.name → accept (draft seen) name = true
  reads {seen : List String} {f : Json.Field} {chars : List Char} : f ∈ fields → f.text chars →
    Gets (member (draft seen) f.name) chars (draft (f.name :: seen))
  skips {seen : List String} {name : String} : name ∉ fields.map Json.Field.name →
    member (draft seen) name = (do skip; return draft seen)
  ignores {seen : List String} {name : String} : name ∉ fields.map Json.Field.name →
    draft (name :: seen) = draft seen

variable {fields : List Json.Field} {draft : List String → σ} {chars : List Char}

/-- A member with a name that is none of the record's. -/
theorem Collects.gets_other (h : Collects fields accept member draft) (seen : List String)
    (hname : name ∉ fields.map Json.Field.name) {depth : Nat}
    (hvalue : Json.WellFormed depth chars) :
    Gets (member (draft seen) name) chars (draft (name :: seen)) := by
  rw [h.skips hname, h.ignores hname]
  exact (gets_skip hvalue).map fun _ => draft seen

/-- The members that are left. No field that has come up is among them, and none is there twice. -/
theorem Collects.passes_more (h : Collects fields accept member draft)
    {ms : List (String × List Char)} (seen : List String)
    (hseen : ∀ f ∈ fields, f.name ∈ seen → f.name ∉ ms.map Prod.fst)
    (hknown : ∀ f ∈ fields, ∀ value, (f.name, value) ∈ ms → f.text value)
    (honce : ∀ f ∈ fields, (ms.map Prod.fst).count f.name ≤ 1)
    (hother : ∀ m ∈ ms, m.1 ∉ fields.map Json.Field.name → ∃ depth, Json.WellFormed depth m.2) :
    Passes accept member Eq (draft seen) ms (draft ((ms.map Prod.fst).reverse ++ seen)) := by
  induction ms generalizing seen with
  | nil => exact .nil _
  | cons m ms ih =>
    obtain ⟨name, value⟩ := m
    have hmore := ih (name :: seen) ?_ (fun f hf value h => hknown f hf value (.tail _ h))
      (fun f hf => (List.count_le_count_cons).trans (honce f hf)) (fun m hm => hother m (.tail _ hm))
    · rw [List.map_cons, List.reverse_cons, List.append_assoc, List.singleton_append]
      by_cases hname : name ∈ fields.map Json.Field.name
      · obtain ⟨f, hf, rfl⟩ := List.mem_map.mp hname
        refine .cons (h.accepts (.inl fun hmem => hseen f hf hmem List.mem_cons_self)) ?_ hmore
        rintro _ rfl
        exact h.reads hf (hknown f hf _ List.mem_cons_self)
      · refine .cons (h.accepts (.inr hname)) ?_ hmore
        rintro _ rfl
        obtain ⟨depth, hvalue⟩ := hother _ List.mem_cons_self hname
        exact h.gets_other seen hname hvalue
    · intro f hf hmem hms
      rcases List.mem_cons.mp hmem with rfl | hmem
      · have htwice := honce f hf
        rw [List.map_cons, List.count_cons_self] at htwice
        have hpos := List.count_pos_iff.mpr hms
        omega
      · exact hseen f hf hmem (List.mem_cons_of_mem _ hms)

theorem Collects.passes (h : Collects fields accept member draft)
    {ms : List (String × List Char)} (hms : Json.Describes fields ms) :
    Passes accept member Eq (draft []) ms (draft (ms.map Prod.fst).reverse) := by
  have hpasses := h.passes_more [] (fun _ _ h => absurd h List.not_mem_nil) hms.known hms.once
    hms.other
  rwa [List.append_nil] at hpasses

theorem present_record (h : Json.RecordText fields chars) : Present chars := by
  rcases h with h | ⟨ms, -, h⟩
  · exact present_array h
  · exact present_object h

/-- **A record is read** in either of its forms, if its members in their places are, and if its
members by their names are collected into something complete. -/
theorem gets_record {ways : Record α} {start : σ} {complete : σ → Reader α}
    (hplaces : ∀ {inside}, Json.Row (fun text (f : Json.Field) => f.text text) true inside fields →
      ∀ rest, ways.inPlaces.run (inside ++ ']' :: rest) = .ok (a, rest))
    (hnamed : ways.named = (do complete (← members accept member (← rounds) true start)))
    (hstart : draft [] = start) (hcollects : Collects fields accept member draft)
    (hcomplete : ∀ {seen}, (∀ f ∈ fields, f.name ∈ seen ∨ f.optional) →
      complete (draft seen) = return a)
    (h : Json.RecordText fields chars) : Gets (record (some ways)) chars a := by
  rcases h with ⟨inside, hrow, rfl⟩ | ⟨ms, hms, inside, hrow, rfl⟩
  · refine gets_peek fun rest _ => ?_
    rw [List.cons_append, List.append_assoc]
    refine (run_bind_ok (run_peek rfl _) _).trans ?_
    exact (run_bind_ok (run_advance _ _) _).trans (hplaces hrow rest)
  · refine gets_peek fun rest _ => ?_
    rw [List.cons_append, List.append_assoc]
    refine (run_bind_ok (run_peek rfl _) _).trans ?_
    refine (run_bind_ok (run_advance _ _) _).trans ?_
    rw [hnamed, ← hstart]
    refine (run_bind_ok rfl _).trans ?_
    refine (run_bind_ok (run_members_all (hcollects.passes hms) hrow rest) _).trans ?_
    rw [hcomplete fun f hf => (hms.needed f hf).imp_left List.mem_reverse.mpr]
    rfl

/-! ### Whole texts -/

/-- A text that is one value with blanks around it. -/
theorem Gets.whole {reader : Nat → Reader α} {before after : List Char} {text : String}
    (h : Gets (reader depth) chars a) (hbefore : Json.Gap before) (hafter : Json.Gap after)
    (htext : text.toList = before ++ (chars ++ after)) : whole reader text = .ok a := by
  have hstops : Stops (after ++ []) := stops_gap hafter stops_nil
  have hrun := h before after hbefore (List.append_nil after ▸ hstops)
  have hdrop : after.dropWhile isGap = [] := List.dropWhile_eq_nil_iff.mpr (isGap_of_mem hafter)
  rw [Reader.whole, htext, hrun]
  change (if (after.dropWhile isGap).isEmpty then _ else _) = _
  rw [hdrop]
  rfl

end Reader

end BlockSketch
