import BlockSketch.Proofs.Decimal.Layout
import BlockSketch.Proofs.Json.Reads

/-!
# Arrays and objects are read item by item

The loops of the reader work off the items of an array and the members of an object from the front,
and here they are said to do so on printed values.

Each member of an object changes what has been read so far. `Reader.Takes` is a run of such steps. A
whole object is read if there is a run through all its members (`Reader.run_members`), and it is
refused if there is a run up to a member that is refused (`Reader.run_members_refused`), whatever
stands behind that. For arrays the same is said of the items, which do not depend on each other.
-/

namespace BlockSketch

namespace Json

/-! ### How values start -/

/-- A character that no value starts with. -/
def NoStart (c : Char) : Prop :=
  Reader.isGap c = true ∨ c = ',' ∨ c = ']' ∨ c = '\x7d'

theorem not_noStart_digit (d : Digit) : ¬ NoStart d.char := by
  have hall : ∀ d : Digit, Reader.isGap d.char = false ∧ d.char ≠ ',' ∧ d.char ≠ ']' ∧
      d.char ≠ '\x7d' := by decide
  obtain ⟨hgap, hcomma, hsquare, hcurly⟩ := hall d
  rintro (h | h | h | h)
  · rw [hgap] at h
    cases h
  · exact hcomma h
  · exact hsquare h
  · exact hcurly h

/-- A printed value starts with a character of its own. -/
theorem exists_chars (v : Json) : ∃ c more, v.chars = c :: more ∧ ¬ NoStart c := by
  cases v with
  | null => exact ⟨_, _, rfl, by unfold NoStart; decide⟩
  | bool b => cases b <;> exact ⟨_, _, rfl, by unfold NoStart; decide⟩
  | string s => exact ⟨_, _, rfl, by unfold NoStart; decide⟩
  | array items => exact ⟨_, _, rfl, by unfold NoStart; decide⟩
  | object members => exact ⟨_, _, rfl, by unfold NoStart; decide⟩
  | number n =>
    rw [chars]
    cases n with
    | int k =>
      obtain ⟨d, digits, hdigits⟩ := List.exists_cons_of_ne_nil (Digits.ofNat_ne_nil k.natAbs)
      rw [JsonNumber.chars, hdigits]
      split
      · exact ⟨_, _, rfl, by unfold NoStart; decide⟩
      · exact ⟨_, _, rfl, not_noStart_digit d⟩
    | double v =>
      obtain ⟨d, digits, hdigits⟩ := List.exists_cons_of_ne_nil
        (JsonNumber.layout.numeral_whole_ne_nil v.magnitude)
      rw [JsonNumber.chars, Numeral.charsWith, hdigits]
      split
      · exact ⟨_, _, rfl, by unfold NoStart; decide⟩
      · exact ⟨_, _, rfl, not_noStart_digit d⟩

/-- The members after the first one, each with its comma. -/
def charsOfMore (members : List (String × Json)) : List Char :=
  members.flatMap fun m => ',' :: (quoted m.1 ++ ':' :: m.2.chars)

theorem charsOfMore_cons (name : String) (value : Json) (members : List (String × Json)) :
    charsOfMore ((name, value) :: members) =
      ',' :: (quoted name ++ ':' :: (value.chars ++ charsOfMore members)) := by
  simp [charsOfMore]

theorem charsOfMembers_cons (name : String) (value : Json) (members : List (String × Json)) :
    charsOfMembers ((name, value) :: members) =
      quoted name ++ ':' :: (value.chars ++ charsOfMore members) := by
  induction members generalizing name value with
  | nil => simp [charsOfMembers, charsOfMore]
  | cons m members ih =>
    obtain ⟨name', value'⟩ := m
    rw [charsOfMembers, ih, charsOfMore_cons]
    · simp
    · intro h
      cases h

/-- The items after the first one, each with its comma. -/
def charsOfMoreItems (items : List Json) : List Char :=
  items.flatMap fun item => ',' :: item.chars

theorem charsOfMoreItems_cons (item : Json) (items : List Json) :
    charsOfMoreItems (item :: items) = ',' :: (item.chars ++ charsOfMoreItems items) := by
  simp [charsOfMoreItems]

theorem charsOfItems_cons (item : Json) (items : List Json) :
    charsOfItems (item :: items) = item.chars ++ charsOfMoreItems items := by
  induction items generalizing item with
  | nil => simp [charsOfItems, charsOfMoreItems]
  | cons item' items ih =>
    rw [charsOfItems, ih, charsOfMoreItems_cons]
    intro h
    cases h

end Json

namespace Reader

variable {α σ : Type}

/-! ### Objects -/

theorem ended_more (members : List (String × Json)) (rest : List Char) :
    Ended (Json.charsOfMore members ++ '\x7d' :: rest) := by
  cases members with
  | nil => exact ended_curly rest
  | cons m members => exact ended_comma _

theorem run_nextName_end (first : Bool) (accept : String → Bool) (rest : List Char) :
    (nextName first accept).run ('\x7d' :: rest) = .ok (none, rest) :=
  (run_bind_ok (run_peek rfl rest) _).trans rfl

theorem run_nextName_first {accept : String → Bool} {name : String} (h : accept name = true)
    (rest : List Char) :
    (nextName true accept).run (Json.quoted name ++ ':' :: rest) = .ok (some name, rest) := by
  rw [Json.quoted, List.cons_append, List.append_assoc, List.singleton_append]
  refine (run_bind_ok (run_peek rfl _) _).trans ?_
  refine (run_bind_ok (run_peek rfl _) _).trans ?_
  refine (run_bind_ok (run_advance _ _) _).trans ?_
  refine (run_bind_ok (run_stringBody name _) _).trans ?_
  simp only [h]
  exact (run_bind_ok (run_peek rfl rest) _).trans rfl

theorem run_nextName_more {accept : String → Bool} {name : String} (h : accept name = true)
    (rest : List Char) :
    (nextName false accept).run (',' :: (Json.quoted name ++ ':' :: rest)) =
      .ok (some name, rest) := by
  rw [Json.quoted, List.cons_append, List.append_assoc, List.singleton_append]
  refine (run_bind_ok (run_peek rfl _) _).trans ?_
  refine (run_bind_ok (run_advance _ _) _).trans ?_
  refine (run_bind_ok (run_peek rfl _) _).trans ?_
  refine (run_bind_ok (run_peek rfl _) _).trans ?_
  refine (run_bind_ok (run_advance _ _) _).trans ?_
  refine (run_bind_ok (run_stringBody name _) _).trans ?_
  simp only [h]
  exact (run_bind_ok (run_peek rfl rest) _).trans rfl

variable {accept : σ → String → Bool} {member : σ → String → Reader σ}

/-- A run through members: each may come when it does, and is read into what has been read so
far. -/
inductive Takes (accept : σ → String → Bool) (member : σ → String → Reader σ) :
    σ → List (String × Json) → σ → Prop
  | nil (soFar : σ) : Takes accept member soFar [] soFar
  | cons {soFar next final : σ} {name : String} {value : Json} {members : List (String × Json)}
      (haccept : accept soFar name = true) (hread : Reads (member soFar name) value.chars next)
      (hmore : Takes accept member next members final) :
      Takes accept member soFar ((name, value) :: members) final

theorem Takes.append {soFar next final : σ} {ms ms' : List (String × Json)}
    (h : Takes accept member soFar ms next) (h' : Takes accept member next ms' final) :
    Takes accept member soFar (ms ++ ms') final := by
  induction h with
  | nil => exact h'
  | cons haccept hread _ ih => exact .cons haccept hread (ih h')

/-- The members that are left are read up to the closing brace. -/
theorem run_members_more {soFar final : σ} {ms : List (String × Json)}
    (h : Takes accept member soFar ms final) {rounds : Nat} (hrounds : ms.length < rounds)
    (rest : List Char) :
    (members accept member rounds false soFar).run (Json.charsOfMore ms ++ '\x7d' :: rest) =
      .ok (final, rest) := by
  induction h generalizing rounds with
  | nil soFar =>
    obtain ⟨rounds, rfl⟩ := Nat.exists_eq_succ_of_ne_zero (Nat.ne_of_gt (Nat.zero_lt_of_lt hrounds))
    exact (run_bind_ok (run_nextName_end false _ rest) _).trans rfl
  | @cons soFar next final name value ms haccept hread hmore ih =>
    obtain ⟨rounds, rfl⟩ := Nat.exists_eq_succ_of_ne_zero (Nat.ne_of_gt (Nat.zero_lt_of_lt hrounds))
    rw [Json.charsOfMore_cons]
    simp only [List.cons_append, List.append_assoc]
    refine (run_bind_ok (run_nextName_more haccept _) _).trans ?_
    refine (run_bind_ok (hread _ (ended_more ms rest)) _).trans ?_
    exact ih (Nat.lt_of_succ_lt_succ hrounds)

/-- **A printed object is read** if there is a run through its members. -/
theorem run_members {soFar final : σ} {ms : List (String × Json)}
    (h : Takes accept member soFar ms final) {rounds : Nat} (hrounds : ms.length < rounds)
    (rest : List Char) :
    (members accept member rounds true soFar).run (Json.charsOfMembers ms ++ '\x7d' :: rest) =
      .ok (final, rest) := by
  obtain ⟨rounds, rfl⟩ := Nat.exists_eq_succ_of_ne_zero (Nat.ne_of_gt (Nat.zero_lt_of_lt hrounds))
  cases h with
  | nil => exact (run_bind_ok (run_nextName_end true _ rest) _).trans rfl
  | @cons _ next _ name value ms haccept hread hmore =>
    rw [Json.charsOfMembers_cons]
    simp only [List.cons_append, List.append_assoc]
    refine (run_bind_ok (run_nextName_first haccept _) _).trans ?_
    refine (run_bind_ok (hread _ (ended_more ms rest)) _).trans ?_
    exact run_members_more hmore (Nat.lt_of_succ_lt_succ hrounds) rest

/-- A member that is refused ends the reading of those that are left. -/
theorem run_members_more_refused {soFar final : σ} {ms : List (String × Json)}
    (h : Takes accept member soFar ms final) {name : String} {value : Json} {fault : Fault}
    (haccept : accept final name = true) (hrefuse : Refuses (member final name) value.chars fault)
    {rounds : Nat} (hrounds : ms.length < rounds) (after : List (String × Json))
    (rest : List Char) :
    (members accept member rounds false soFar).run
        (Json.charsOfMore (ms ++ (name, value) :: after) ++ '\x7d' :: rest) = .error fault := by
  induction h generalizing rounds with
  | nil soFar =>
    obtain ⟨rounds, rfl⟩ := Nat.exists_eq_succ_of_ne_zero (Nat.ne_of_gt (Nat.zero_lt_of_lt hrounds))
    rw [List.nil_append, Json.charsOfMore_cons]
    simp only [List.cons_append, List.append_assoc]
    refine (run_bind_ok (run_nextName_more haccept _) _).trans ?_
    exact run_bind_error (hrefuse _ (ended_more after rest)) _
  | @cons soFar next final name' value' ms haccept' hread hmore ih =>
    obtain ⟨rounds, rfl⟩ := Nat.exists_eq_succ_of_ne_zero (Nat.ne_of_gt (Nat.zero_lt_of_lt hrounds))
    rw [List.cons_append, Json.charsOfMore_cons]
    simp only [List.cons_append, List.append_assoc]
    refine (run_bind_ok (run_nextName_more haccept' _) _).trans ?_
    refine (run_bind_ok (hread _ (ended_more _ rest)) _).trans ?_
    exact ih haccept hrefuse (Nat.lt_of_succ_lt_succ hrounds)

/-- **A printed object is refused** if there is a run up to a member that is refused. -/
theorem run_members_refused {soFar final : σ} {ms : List (String × Json)}
    (h : Takes accept member soFar ms final) {name : String} {value : Json} {fault : Fault}
    (haccept : accept final name = true) (hrefuse : Refuses (member final name) value.chars fault)
    {rounds : Nat} (hrounds : ms.length < rounds) (after : List (String × Json))
    (rest : List Char) :
    (members accept member rounds true soFar).run
        (Json.charsOfMembers (ms ++ (name, value) :: after) ++ '\x7d' :: rest) = .error fault := by
  obtain ⟨rounds, rfl⟩ := Nat.exists_eq_succ_of_ne_zero (Nat.ne_of_gt (Nat.zero_lt_of_lt hrounds))
  cases h with
  | nil =>
    rw [List.nil_append, Json.charsOfMembers_cons]
    simp only [List.cons_append, List.append_assoc]
    refine (run_bind_ok (run_nextName_first haccept _) _).trans ?_
    exact run_bind_error (hrefuse _ (ended_more after rest)) _
  | @cons _ next _ name' value' ms haccept' hread hmore =>
    rw [List.cons_append, Json.charsOfMembers_cons]
    simp only [List.cons_append, List.append_assoc]
    refine (run_bind_ok (run_nextName_first haccept' _) _).trans ?_
    refine (run_bind_ok (hread _ (ended_more _ rest)) _).trans ?_
    exact run_members_more_refused hmore haccept hrefuse (Nat.lt_of_succ_lt_succ hrounds) after rest

theorem length_le_charsOfMore (ms : List (String × Json)) :
    ms.length ≤ (Json.charsOfMore ms).length := by
  induction ms with
  | nil => exact Nat.zero_le _
  | cons m ms ih =>
    obtain ⟨name, value⟩ := m
    simp only [Json.charsOfMore_cons, List.length_cons, List.length_append]
    omega

/-- Every member takes a character. -/
theorem length_le_charsOfMembers (ms : List (String × Json)) :
    ms.length ≤ (Json.charsOfMembers ms).length := by
  cases ms with
  | nil => exact Nat.zero_le _
  | cons m ms =>
    obtain ⟨name, value⟩ := m
    have := length_le_charsOfMore ms
    simp only [Json.charsOfMembers_cons, List.length_cons, List.length_append]
    omega

/-- So many rounds are enough. -/
theorem length_lt_rounds (ms : List (String × Json)) (rest : List Char) :
    ms.length < (Json.charsOfMembers ms ++ rest).length + 1 := by
  have := length_le_charsOfMembers ms
  rw [List.length_append]
  omega

/-- What the members of an object are read into. -/
theorem run_object {soFar final : σ} {ms : List (String × Json)}
    (h : Takes accept member soFar ms final) (next : σ → Reader α) (rest : List Char) :
    (do next (← members accept member (← rounds) true soFar) : Reader α).run
        (Json.charsOfMembers ms ++ '\x7d' :: rest) = (next final).run rest := by
  refine (run_bind_ok rfl _).trans ?_
  exact run_bind_ok (run_members h (length_lt_rounds ms _) rest) _

/-- A member that is refused ends the reading of the object. -/
theorem run_object_refused {soFar final : σ} {ms : List (String × Json)}
    (h : Takes accept member soFar ms final) {name : String} {value : Json} {fault : Fault}
    (haccept : accept final name = true) (hrefuse : Refuses (member final name) value.chars fault)
    (next : σ → Reader α) (after : List (String × Json)) (rest : List Char) :
    (do next (← members accept member (← rounds) true soFar) : Reader α).run
        (Json.charsOfMembers (ms ++ (name, value) :: after) ++ '\x7d' :: rest) = .error fault := by
  have hrounds := length_lt_rounds (ms ++ (name, value) :: after) ('\x7d' :: rest)
  rw [List.length_append] at hrounds
  refine (run_bind_ok rfl _).trans ?_
  exact run_bind_error (run_members_refused h haccept hrefuse (by omega) after rest) _

/-- An object as a record. -/
theorem run_record (ways : Record α) (ms : List (String × Json)) (rest : List Char) :
    (record (some ways)).run ((Json.object ms).chars ++ rest) =
      ways.named.run (Json.charsOfMembers ms ++ '\x7d' :: rest) := by
  rw [Json.chars, List.cons_append, List.append_assoc, List.singleton_append]
  refine (run_bind_ok (run_peek rfl _) _).trans ?_
  exact run_bind_ok (run_advance _ _) _

variable {ways : Record α} {start final : σ} {complete : σ → Reader α}

/-- **A record is read** if there is a run through its members to something complete. -/
theorem reads_record
    (hnamed : ways.named = (do complete (← members accept member (← rounds) true start)))
    {ms : List (String × Json)} (h : Takes accept member start ms final) {a : α}
    (hcomplete : complete final = pure a) :
    Reads (record (some ways)) (Json.object ms).chars a := by
  intro rest _
  rw [run_record, hnamed, run_object h, hcomplete]
  rfl

/-- **A record is refused** if there is a run up to a member that is refused. -/
theorem refuses_record
    (hnamed : ways.named = (do complete (← members accept member (← rounds) true start)))
    {ms : List (String × Json)} (h : Takes accept member start ms final) {name : String}
    {value : Json} {fault : Fault} (haccept : accept final name = true)
    (hrefuse : Refuses (member final name) value.chars fault) (after : List (String × Json)) :
    Refuses (record (some ways)) (Json.object (ms ++ (name, value) :: after)).chars fault := by
  intro rest _
  rw [run_record, hnamed]
  exact run_object_refused h haccept hrefuse complete after rest

/-- An object that may be missing and is there. -/
theorem Reads.optional_object {reader : Reader α} {ms : List (String × Json)} {a : α}
    (h : Reads reader (Json.object ms).chars a) :
    Reads (Reader.optional reader) (Json.object ms).chars (some a) := by
  rw [Json.chars] at h ⊢
  exact h.optional rfl (by decide)

theorem Refuses.optional_object {reader : Reader α} {ms : List (String × Json)} {fault : Fault}
    (h : Refuses reader (Json.object ms).chars fault) :
    Refuses (Reader.optional reader) (Json.object ms).chars fault := by
  rw [Json.chars] at h ⊢
  exact h.optional rfl (by decide)

/-- No further bracket may be opened. -/
theorem refuses_record_none (ms : List (String × Json)) :
    Refuses (record none : Reader α) (Json.object ms).chars .malformed := by
  intro rest _
  rw [Json.chars, List.cons_append]
  exact (run_bind_ok (run_peek rfl _) _).trans rfl

theorem refuses_table_none (ms : List (String × Json)) :
    Refuses (table none : Reader (Table α)) (Json.object ms).chars .malformed := by
  intro rest _
  rw [Json.chars, List.cons_append]
  exact (run_bind_ok (run_peek rfl _) _).trans rfl

/-- An object as a table. -/
theorem reads_table {value : Reader α} {ms : List (String × Json)} {t : Table α}
    (h : Takes (fun _ _ => true) (fun soFar name => return Table.insert name (← value) soFar) []
      ms t) : Reads (table (some value)) (Json.object ms).chars t := by
  intro rest _
  rw [Json.chars, List.cons_append, List.append_assoc, List.singleton_append]
  refine (run_bind_ok (run_peek rfl _) _).trans ?_
  refine (run_bind_ok (run_advance _ _) _).trans ?_
  refine (run_bind_ok rfl _).trans ?_
  exact run_members h (length_lt_rounds ms _) rest

/-! ### Arrays -/

theorem ended_moreItems (items : List Json) (rest : List Char) :
    Ended (Json.charsOfMoreItems items ++ ']' :: rest) := by
  cases items with
  | nil => exact ended_square rest
  | cons item items => exact ended_comma _

theorem run_hasItem_end (first : Bool) (rest : List Char) :
    (hasItem first).run (']' :: rest) = .ok (false, ']' :: rest) :=
  (run_bind_ok (run_peek rfl rest) _).trans rfl

theorem run_hasItem_first (v : Json) (rest : List Char) :
    (hasItem true).run (v.chars ++ rest) = .ok (true, v.chars ++ rest) := by
  obtain ⟨c, more, hchars, hstart⟩ := v.exists_chars
  have hgap : isGap c = false := Bool.eq_false_iff.mpr fun h => hstart (.inl h)
  rw [hchars, List.cons_append]
  refine (run_bind_ok (run_peek hgap _) _).trans ?_
  split
  · next heq => cases heq
  · next heq => exact absurd (.inr (.inr (.inl (Option.some.inj heq)))) hstart
  · rfl

theorem run_hasItem_more (v : Json) (rest : List Char) :
    (hasItem false).run (',' :: (v.chars ++ rest)) = .ok (true, v.chars ++ rest) := by
  obtain ⟨c, more, hchars, hstart⟩ := v.exists_chars
  have hgap : isGap c = false := Bool.eq_false_iff.mpr fun h => hstart (.inl h)
  rw [hchars, List.cons_append]
  refine (run_bind_ok (run_peek rfl _) _).trans ?_
  refine (run_bind_ok (run_advance _ _) _).trans ?_
  refine (run_bind_ok (run_peek hgap _) _).trans ?_
  split
  · next heq => cases heq
  · next heq => exact absurd (.inr (.inr (.inl (Option.some.inj heq)))) hstart
  · rfl

variable {item : Reader α}

/-- The items that are left are read up to the closing bracket. -/
theorem run_items_more {values : List Json} {as : List α}
    (h : List.Forall₂ (fun v a => Reads item v.chars a) values as) {rounds : Nat}
    (hrounds : values.length < rounds) (rest : List Char) :
    (items item rounds false).run (Json.charsOfMoreItems values ++ ']' :: rest) =
      .ok (as, rest) := by
  induction h generalizing rounds with
  | nil =>
    obtain ⟨rounds, rfl⟩ := Nat.exists_eq_succ_of_ne_zero (Nat.ne_of_gt (Nat.zero_lt_of_lt hrounds))
    exact (run_bind_ok (run_hasItem_end false rest) _).trans rfl
  | @cons v a values as hread _ ih =>
    obtain ⟨rounds, rfl⟩ := Nat.exists_eq_succ_of_ne_zero (Nat.ne_of_gt (Nat.zero_lt_of_lt hrounds))
    rw [Json.charsOfMoreItems_cons]
    simp only [List.cons_append, List.append_assoc]
    refine (run_bind_ok (run_hasItem_more v _) _).trans ?_
    refine (run_bind_ok (hread _ (ended_moreItems values rest)) _).trans ?_
    exact (run_bind_ok (ih (Nat.lt_of_succ_lt_succ hrounds)) _).trans rfl

theorem length_le_charsOfMoreItems (values : List Json) :
    values.length ≤ (Json.charsOfMoreItems values).length := by
  induction values with
  | nil => exact Nat.zero_le _
  | cons v values ih =>
    simp only [Json.charsOfMoreItems_cons, List.length_cons, List.length_append]
    omega

/-- **A printed array is read** if its items are. -/
theorem reads_list {values : List Json} {as : List α}
    (h : List.Forall₂ (fun v a => Reads item v.chars a) values as) :
    Reads (list (some item)) (Json.array values).chars as := by
  intro rest _
  rw [Json.chars, List.cons_append, List.append_assoc, List.singleton_append]
  refine (run_bind_ok (run_peek rfl _) _).trans ?_
  refine (run_bind_ok (run_advance _ _) _).trans ?_
  refine (run_bind_ok rfl _).trans ?_
  rw [items]
  cases h with
  | nil => exact (run_bind_ok (run_hasItem_end true rest) _).trans rfl
  | @cons v a values as hread hmore =>
    have hrounds := length_le_charsOfMoreItems values
    have hstart : 0 < v.chars.length := by
      obtain ⟨c, more, hchars, -⟩ := v.exists_chars
      rw [hchars]
      exact Nat.zero_lt_succ _
    rw [Json.charsOfItems_cons, List.append_assoc]
    refine (run_bind_ok (run_hasItem_first v _) _).trans ?_
    refine (run_bind_ok (hread _ (ended_moreItems values rest)) _).trans ?_
    refine (run_bind_ok (run_items_more hmore ?_ rest) _).trans rfl
    simp only [List.length_append]
    omega

/-- An array is refused if its first item is. -/
theorem refuses_list {v : Json} {fault : Fault} (h : Refuses item v.chars fault)
    (values : List Json) : Refuses (list (some item)) (Json.array (v :: values)).chars fault := by
  intro rest _
  rw [Json.chars, List.cons_append, List.append_assoc, List.singleton_append,
    Json.charsOfItems_cons, List.append_assoc]
  refine (run_bind_ok (run_peek rfl _) _).trans ?_
  refine (run_bind_ok (run_advance _ _) _).trans ?_
  refine (run_bind_ok rfl _).trans ?_
  rw [items]
  refine (run_bind_ok (run_hasItem_first v _) _).trans ?_
  exact run_bind_error (h _ (ended_moreItems values rest)) _

end Reader

end BlockSketch
