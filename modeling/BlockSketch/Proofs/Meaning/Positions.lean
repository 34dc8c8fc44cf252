import BlockSketch.Proofs.Meaning.Valued

/-!
# Positions that are found and read

One block searches a text for a character, and another one reads the character at the position that
was found. What that comes to, by the methods of the target, which count from zero, depends on how
the session counts positions (`Block.found_character`).

* If positions are counted from zero, the character that was sought is read.
* If they are counted from one, the search adds one to the position, but nothing is taken off again
  where it is read. So the character behind the one that was found is read, or the end of the text
  (`Block.default_session_reads_c`).
-/

namespace BlockSketch

/-- The place of one text in another that a search from this end finds. -/
def SearchEnd.place (sought text : List Char) : SearchEnd → ℤ
  | first => Text.indexOf sought text
  | last => Text.lastIndexOf sought text

/-- The first or the last place of a character is `k`. -/
structure SearchEnd.Finds (searchEnd : SearchEnd) (c : Char) (text : List Char) (k : ℕ) :
    Prop where
  found : text[k]? = some c
  beyond : ∀ j, text[j]? = some c →
    match searchEnd with
    | .first => k ≤ j
    | .last => j ≤ k

/-! ### Searching -/

namespace Text

theorem mem_places {c : Char} {text : List Char} {k : ℕ} :
    k ∈ places [c] text ↔ text[k]? = some c := by
  rw [places, List.mem_filter, List.mem_range]
  constructor
  · rintro ⟨hk, hprefix⟩
    rw [List.drop_eq_getElem_cons hk] at hprefix
    simp only [List.isPrefixOf, Bool.and_true, beq_iff_eq] at hprefix
    rw [List.getElem?_eq_getElem hk, ← hprefix]
  · intro h
    obtain ⟨hk, rfl⟩ := List.getElem?_eq_some_iff.mp h
    refine ⟨hk, ?_⟩
    rw [List.drop_eq_getElem_cons hk]
    simp [List.isPrefixOf]

/-- Places are listed in ascending order. -/
theorem pairwise_places (sought text : List Char) : (places sought text).Pairwise (· < ·) :=
  List.pairwise_lt_range.filter _

end Text

/-- A character that occurs in a text is found. -/
theorem SearchEnd.exists_finds (searchEnd : SearchEnd) {c : Char} {text : List Char}
    (h : c ∈ text) : ∃ k : ℕ, searchEnd.Finds c text k ∧ searchEnd.place [c] text = k := by
  obtain ⟨i, hi, hget⟩ := List.getElem_of_mem h
  have hi : i ∈ Text.places [c] text :=
    Text.mem_places.mpr (List.getElem?_eq_some_iff.mpr ⟨hi, hget⟩)
  have hsorted := Text.pairwise_places [c] text
  cases searchEnd with
  | first =>
    obtain ⟨k, rest, hplaces⟩ := List.exists_cons_of_ne_nil (List.ne_nil_of_mem hi)
    rw [hplaces] at hsorted
    refine ⟨k, ⟨Text.mem_places.mp (hplaces ▸ List.mem_cons_self), fun j hj => ?_⟩, ?_⟩
    · rcases List.mem_cons.mp (hplaces ▸ Text.mem_places.mpr hj) with rfl | hj
      · exact Nat.le_refl _
      · exact Nat.le_of_lt (List.rel_of_pairwise_cons hsorted hj)
    · rw [place, Text.indexOf, hplaces]
      rfl
  | last =>
    obtain ⟨rest, k, hplaces⟩ :=
      (List.eq_nil_or_concat (Text.places [c] text)).resolve_left (List.ne_nil_of_mem hi)
    rw [List.concat_eq_append] at hplaces
    rw [hplaces] at hsorted
    have hk : k ∈ Text.places [c] text :=
      hplaces ▸ List.mem_append_right rest (List.mem_singleton_self k)
    refine ⟨k, ⟨Text.mem_places.mp hk, fun j hj => ?_⟩, ?_⟩
    · rcases List.mem_append.mp (hplaces ▸ Text.mem_places.mpr hj) with hj | hj
      · have hbefore := (List.pairwise_append.mp hsorted).2.2
        exact Nat.le_of_lt (hbefore j hj k (List.mem_singleton_self k))
      · exact Nat.le_of_eq (List.mem_singleton.mp hj)
    · rw [place, Text.lastIndexOf, hplaces]
      simp

/-! ### Values of the trees -/

/-- A search in a text comes to the place that it finds, or to one more. -/
theorem SearchEnd.value_intended (searchEnd : SearchEnd) (oneBased : Bool) {a b : Tree}
    {sought text : List Char} (ha : a.value = some (.text sought))
    (hb : b.value = some (.text text)) :
    (searchEnd.intended oneBased a b).value =
      some (.scalar (.int (searchEnd.place sought text + if oneBased then 1 else 0))) := by
  have hfound (name : String) (place : ℤ)
      (hmethod : Value.method name text (.text sought) = some (.scalar (.int place))) :
      (if oneBased then Tree.binary .add (.invoke b name [a]) (.nat 1)
        else .invoke b name [a]).value =
        some (.scalar (.int (place + if oneBased then 1 else 0))) := by
    have hinvoke : (Tree.invoke b name [a]).value = some (.scalar (.int place)) := by
      rw [Tree.invoke, Tree.value, ha, hb]
      exact hmethod
    cases oneBased with
    | true =>
      rw [if_pos rfl, if_pos rfl, Tree.value, hinvoke, Tree.value_nat]
      rfl
    | false => exact hinvoke.trans (by simp)
  cases searchEnd with
  | first => exact hfound "indexOf" _ rfl
  | last => exact hfound "lastIndexOf" _ rfl

/-- The character at a position of a text. -/
theorem Tree.value_charAt {a b : Tree} {text : List Char} {k : ℕ}
    (ha : a.value = some (.text text)) (hb : b.value = some (.scalar (.int k))) :
    (invoke a "charAt" [b]).value = some (.character (text.getD k '\x00')) := by
  rw [invoke, value, ha, hb]
  simp [Value.text?, Value.method, Text.charAt]

namespace Block

/-! ### Blocks -/

/-- The block is a text block and has these characters. -/
structure IsText (b : Block) (text : List Char) : Prop where
  type : b.type = "text"
  text : ((b.head.text? "TEXT").getD "").toList = text

/-- The block searches a text for another one, both of them in text blocks. -/
structure Searches (b : Block) (searchEnd : SearchEnd) (sought text : List Char) : Prop where
  type : b.type = "text_indexOf"
  searchEnd : Rule.searchEnd b.head = .ok searchEnd
  find : ∃ child, b.inSocket "FIND" = some child ∧ child.IsText sought
  value : ∃ child, b.inSocket "VALUE" = some child ∧ child.IsText text

/-- The block reads the character of a text at the position, counted from the start, that a search
in the same text has found. -/
structure ReadsFound (b : Block) (searchEnd : SearchEnd) (sought text : List Char) : Prop where
  type : b.type = "text_charAt"
  origin : Rule.origin b.head "WHERE" = .ok .start
  value : ∃ child, b.inSocket "VALUE" = some child ∧ child.IsText text
  position : ∃ child, b.inSocket "AT" = some child ∧ child.Searches searchEnd sought text

variable {b : Block} {searchEnd : SearchEnd} {sought text : List Char}

theorem IsText.rule (h : b.IsText text) : Rule.ofType? b.type = some .text := by
  rw [h.type]
  rfl

theorem Searches.rule (h : b.Searches searchEnd sought text) :
    Rule.ofType? b.type = some .indexOf := by
  rw [h.type]
  rfl

theorem ReadsFound.rule (h : b.ReadsFound searchEnd sought text) :
    Rule.ofType? b.type = some .charAt := by
  rw [h.type]
  rfl

theorem IsText.valued (h : b.IsText text) (names : Table String) : b.Valued names :=
  valued_of_visits h.rule rfl [] rfl (List.forall_mem_nil _)

theorem Searches.valued (h : b.Searches searchEnd sought text) (names : Table String) :
    b.Valued names := by
  obtain ⟨x, hx, hxtext⟩ := h.find
  obtain ⟨y, hy, hytext⟩ := h.value
  refine valued_of_visits h.rule rfl ["FIND", "VALUE"] (by rw [Rule.visits, h.searchEnd]; rfl) ?_
  exact List.forall_mem_cons.mpr ⟨valued_in_socket hx (hxtext.valued names),
    List.forall_mem_singleton.mpr (valued_in_socket hy (hytext.valued names))⟩

theorem ReadsFound.valued (h : b.ReadsFound searchEnd sought text) (names : Table String) :
    b.Valued names := by
  obtain ⟨x, hx, hxtext⟩ := h.value
  obtain ⟨y, hy, hysearches⟩ := h.position
  refine valued_of_visits h.rule rfl ["VALUE", "AT"] (by rw [Rule.visits, h.origin]; rfl) ?_
  exact List.forall_mem_cons.mpr ⟨valued_in_socket hx (hxtext.valued names),
    List.forall_mem_singleton.mpr (valued_in_socket hy (hysearches.valued names))⟩

theorem IsText.exists_intended (h : b.IsText text) (oneBased : Bool) :
    ∃ t, b.intended oneBased = some t ∧ t.value = some (.text text) := by
  refine ⟨_, intended_eq oneBased b h.rule, ?_⟩
  change some (Value.text _) = _
  rw [h.text]

theorem Searches.exists_intended (h : b.Searches searchEnd sought text) (oneBased : Bool) :
    ∃ t, b.intended oneBased = some t ∧
      t.value =
        some (.scalar (.int (searchEnd.place sought text + if oneBased then 1 else 0))) := by
  obtain ⟨x, hx, hxtext⟩ := h.find
  obtain ⟨y, hy, hytext⟩ := h.value
  obtain ⟨tx, htx, hxvalue⟩ := hxtext.exists_intended oneBased
  obtain ⟨ty, hty, hyvalue⟩ := hytext.exists_intended oneBased
  refine ⟨_, ?_, searchEnd.value_intended oneBased hxvalue hyvalue⟩
  rw [intended_eq oneBased b h.rule, Rule.intended, h.searchEnd,
    operand_of_inSocket hx, operand_of_inSocket hy, htx, hty]
  rfl

/-- What the tree of the block comes to, if the search finds the place `k`. -/
theorem ReadsFound.exists_intended (h : b.ReadsFound searchEnd sought text) {k : ℕ}
    (hk : searchEnd.place sought text = k) (oneBased : Bool) :
    ∃ t, b.intended oneBased = some t ∧
      t.value = some (.character (text.getD (k + if oneBased then 1 else 0) '\x00')) := by
  obtain ⟨x, hx, hxtext⟩ := h.value
  obtain ⟨y, hy, hysearches⟩ := h.position
  obtain ⟨tx, htx, hxvalue⟩ := hxtext.exists_intended oneBased
  obtain ⟨ty, hty, hyvalue⟩ := hysearches.exists_intended oneBased
  have hplace : ty.value = some (.scalar (.int ((k + if oneBased then 1 else 0 : ℕ) : ℤ))) := by
    rw [hyvalue, hk]
    push_cast
    rfl
  refine ⟨_, ?_, Tree.value_charAt hxvalue hplace⟩
  rw [intended_eq oneBased b h.rule, Rule.intended, h.origin,
    operand_of_inSocket hx, operand_of_inSocket hy, htx, hty]
  rfl

/-! ### Blocks with given texts -/

/-- A text block. -/
def ofText (content : String) : Block :=
  ⟨⟨"text", [("TEXT", .string content)]⟩, none, [], none⟩

/-- Reads a text at the position where another one is found in it. -/
def readFound (word sought content : String) : Block :=
  let search : Block := ⟨⟨"text_indexOf", [("END", .string word)]⟩, none,
    [("FIND", ⟨some (ofText sought), none⟩), ("VALUE", ⟨some (ofText content), none⟩)], none⟩
  ⟨⟨"text_charAt", [("WHERE", .string "FROM_START")]⟩, none,
    [("AT", ⟨some search, none⟩), ("VALUE", ⟨some (ofText content), none⟩)], none⟩

theorem readsFound_readFound {word : String} (hword : SearchEnd.ofField? word = some searchEnd)
    (sought content : String) :
    (readFound word sought content).ReadsFound searchEnd sought.toList content.toList where
  type := rfl
  origin := rfl
  value := ⟨ofText content, rfl, rfl, rfl⟩
  position := by
    refine ⟨_, rfl, rfl, ?_, ⟨ofText sought, rfl, rfl, rfl⟩, ⟨ofText content, rfl, rfl, rfl⟩⟩
    have htext : Head.text ⟨"text_indexOf", [("END", .string word)]⟩ "END" = .ok word := rfl
    rw [Rule.searchEnd, htext]
    simp only [bind, Except.bind, hword]
    rfl

/-! ### What is read -/

/-- **Which character is read** at the position of a character that was found: in every session the
code is read as an expression that comes to that character if positions are counted from zero, and
to the character behind it if they are counted from one. -/
theorem found_character {s : Session} (hs : s.Reachable) {c : Char}
    (h : b.ReadsFound searchEnd [c] text) (hc : c ∈ text) :
    ∃ f t k, (s.perform b.code).1 = .ok (.value f) ∧ Tree.read f.text.toList = some t ∧
      searchEnd.Finds c text k ∧
      t.value = some (.character
        (if s.options.oneBased then text.getD (k + 1) '\x00' else c)) := by
  obtain ⟨k, hfinds, hplace⟩ := searchEnd.exists_finds hc
  obtain ⟨t, ht, hvalue⟩ := h.exists_intended hplace s.options.oneBased
  obtain ⟨f, hcode, hread⟩ := (h.valued s.variableNames).code_reads hs ht
  refine ⟨f, t, k, hcode, hread, hfinds, ?_⟩
  rw [hvalue]
  cases s.options.oneBased with
  | true => rfl
  | false => simp [List.getD, hfinds.found]

/-- Counted from zero, the last `b` of `abba` is found and read. -/
theorem zeroBased_session_reads_b : (Session.new { oneBased := false }).Reachable ∧
    (readFound "LAST" "b" "abba").ReadsFound .last ['b'] ['a', 'b', 'b', 'a'] ∧
    'b' ∈ ['a', 'b', 'b', 'a'] ∧
    ∃ f t k, ((Session.new { oneBased := false }).perform (readFound "LAST" "b" "abba").code).1 =
        .ok (.value f) ∧ Tree.read f.text.toList = some t ∧
      SearchEnd.last.Finds 'b' ['a', 'b', 'b', 'a'] k ∧ t.value = some (.character 'b') :=
  have hreads := readsFound_readFound rfl "b" "abba"
  ⟨.new _, hreads, by decide, found_character (.new _) hreads (by decide)⟩

/-- In a session with the default options, `b` is found in `abc`, but the code reads `c`. -/
theorem default_session_reads_c : (Session.new {}).Reachable ∧
    (readFound "FIRST" "b" "abc").ReadsFound .first ['b'] ['a', 'b', 'c'] ∧
    'b' ∈ ['a', 'b', 'c'] ∧
    ∃ f t, ((Session.new {}).perform (readFound "FIRST" "b" "abc").code).1 = .ok (.value f) ∧
      f.text = "String(\"abc\").charAt(String(\"abc\").indexOf(String(\"b\")) + 1)" ∧
      Tree.read f.text.toList = some t ∧ t.value = some (.character 'c') := by
  have hreads : (readFound "FIRST" "b" "abc").ReadsFound .first ['b'] ['a', 'b', 'c'] :=
    readsFound_readFound rfl "b" "abc"
  obtain ⟨t, ht, hvalue⟩ := hreads.exists_intended (k := 1) (by decide +kernel) true
  obtain ⟨f, hcode, hread⟩ := (hreads.valued []).code_reads (.new {}) ht
  refine ⟨.new {}, hreads, by decide, f, t, hcode, ?_, hread, hvalue⟩
  have hf : f = ⟨.methodOne (.string "abc") "charAt"
    (.binary .add (.methodOne (.string "abc") "indexOf" (.string "b")) (.nat 1)), .functionCall⟩ :=
    Code.value.inj (Except.ok.inj (hcode.symm.trans rfl))
  rw [hf]
  decide +kernel

end Block

end BlockSketch
