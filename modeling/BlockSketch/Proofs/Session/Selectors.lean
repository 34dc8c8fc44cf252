import BlockSketch.Proofs.Session.Coupled

/-!
# Wrong selectors come first

A selector is a field with a word that selects what a block does. Some rules have one of them and
one has two, and they look at them before anything else. So a wrong selector is the error of its
block, whatever is plugged into the block, and it leaves the session as it was
(`Block.wrong_selector_comes_first`).

`Rule.selectors` lists the selectors of a rule with the words that are known, and `Selector.fault?`
says what is wrong with one of them. Neither looks at how a rule reads its fields. That the rules go
by these lists is `Rule.guard_plan`, which is put together with `Selector.Guard.bind` from what each
way to read a field does.
-/

namespace BlockSketch

/-! ### The words -/

/-- These are the words that a reader of words knows. -/
def Known {α : Type} (words : List String) (ofField? : String → Option α) : Prop :=
  ∀ word, (ofField? word).isSome = true ↔ word ∈ words

namespace Known

variable {α : Type} {words : List String} {ofField? : String → Option α} {word : String}

theorem exists_some (h : Known words ofField?) (hword : word ∈ words) :
    ∃ a, ofField? word = some a :=
  Option.isSome_iff_exists.mp ((h word).mpr hword)

theorem eq_none (h : Known words ofField?) (hword : word ∉ words) : ofField? word = none :=
  Option.not_isSome_iff_eq_none.mp fun hsome => hword ((h word).mp hsome)

end Known

/-- The words for an arithmetic block. -/
def Arithmetic.words : List String :=
  ["ADD", "MINUS", "MULTIPLY", "DIVIDE", "POWER"]

theorem Arithmetic.known_words : Known words ofField? := by
  intro word
  unfold ofField?
  split <;> simp_all [words]

/-- The words for the functions of one number. -/
def NumberFunction.words : List String :=
  ["ABS", "ROOT", "LN", "EXP", "POW10", "ROUND", "ROUNDUP", "ROUNDDOWN", "SIN", "COS", "TAN",
    "LOG10", "ASIN", "ACOS", "ATAN"]

theorem NumberFunction.known_words : Known words ofField? := by
  intro word
  unfold ofField?
  split <;> simp_all [words]

/-- The words for the constants. -/
def NumberConstant.words : List String :=
  ["PI", "E", "GOLDEN_RATIO", "SQRT2", "SQRT1_2", "INFINITY"]

theorem NumberConstant.known_words : Known words ofField? := by
  intro word
  unfold ofField?
  split <;> simp_all [words]

/-- The words for the properties. -/
def NumberProperty.words : List String :=
  ["EVEN", "ODD", "WHOLE", "POSITIVE", "NEGATIVE", "DIVISIBLE_BY", "PRIME"]

theorem NumberProperty.known_words : Known words ofField? := by
  intro word
  unfold ofField?
  split <;> simp_all [words]

/-- The words for the changes of case. -/
def CaseChange.words : List String :=
  ["UPPERCASE", "LOWERCASE", "TITLECASE"]

theorem CaseChange.known_words : Known words ofField? := by
  intro word
  unfold ofField?
  split <;> simp_all [words]

/-- The words for the ends from which a search starts. -/
def SearchEnd.words : List String :=
  ["FIRST", "LAST"]

theorem SearchEnd.known_words : Known words ofField? := by
  intro word
  unfold ofField?
  split <;> simp_all [words]

/-- The words for the ends from which positions are counted. -/
def Origin.words : List String :=
  ["FROM_START", "FROM_END"]

theorem Origin.known_words : Known words ofField? := by
  intro word
  unfold ofField?
  split <;> simp_all [words]

/-! ### Selectors -/

/-- A field that selects from a list of words. -/
structure Selector where
  field : String
  words : List String
  /-- whether the field must have a word -/
  required : Bool
  /-- the error for any other word, by the type of the block -/
  refusal : String → String → GenerationError

namespace Selector

/-- What is wrong with the selector of a block. -/
def fault? (selector : Selector) (head : Block.Head) : Option GenerationError :=
  match head.text? selector.field with
  | some word =>
    if word ∈ selector.words then none else some (selector.refusal head.type word)
  | none => if selector.required then some (.missingField head.type selector.field) else none

/-- The first fault of these selectors. -/
def firstFault? (head : Block.Head) (selectors : List Selector) : Option GenerationError :=
  selectors.findSome? (fault? · head)

/-- A selector among operators. -/
def ofOperators (field : String) (words : List String) : Selector :=
  ⟨field, words, true, .unknownOperator⟩

/-- The end from which a position is counted, which is the start if there is no word. -/
def ofOrigin (field : String) : Selector :=
  ⟨field, Origin.words, false, .unhandledOption⟩

end Selector

/-- The selectors of a rule, in the order in which they are read. -/
def Rule.selectors : Rule → List Selector
  | arithmetic => [.ofOperators "OP" Arithmetic.words]
  | function => [.ofOperators "OP" ("NEG" :: NumberFunction.words)]
  | constant => [.ofOperators "CONSTANT" NumberConstant.words]
  | property => [.ofOperators "PROPERTY" NumberProperty.words]
  | indexOf => [⟨"END", SearchEnd.words, true, .unhandledOption⟩]
  | charAt => [.ofOrigin "WHERE"]
  | substring => [.ofOrigin "WHERE1", .ofOrigin "WHERE2"]
  | changeCase => [.ofOperators "CASE" CaseChange.words]
  | _ => []

/-! ### Rules go by their selectors -/

namespace Selector

variable {α β : Type} {head : Block.Head} {field : String} {words : List String}

/-- The verdict on a block: its first fault, if it has one. -/
def verdict (head : Block.Head) (selectors : List Selector) : Except GenerationError Unit :=
  match firstFault? head selectors with
  | some e => .error e
  | none => .ok ()

theorem verdict_cons (head : Block.Head) (selector : Selector) (selectors : List Selector) :
    verdict head (selector :: selectors) =
      match selector.fault? head with
      | some e => .error e
      | none => verdict head selectors := by
  rw [verdict, firstFault?, List.findSome?_cons]
  cases selector.fault? head <;> rfl

/-- What is read fails with the first fault of these selectors, and only then. -/
def Guard (selectors : List Selector) (head : Block.Head) (read : Except GenerationError α) : Prop :=
  Agree (fun _ _ => True) (verdict head selectors) read

theorem guard_ok (head : Block.Head) (a : α) : Guard [] head (.ok a) :=
  trivial

/-- The selector that is read first is the first to be wrong. -/
theorem Guard.bind {selector : Selector} {selectors : List Selector}
    {read : Except GenerationError α} {next : α → Except GenerationError β}
    (h : Guard [selector] head read) (hnext : ∀ a, Guard selectors head (next a)) :
    Guard (selector :: selectors) head (read >>= next) := by
  rw [Guard, verdict_cons] at h ⊢
  cases hfault : selector.fault? head with
  | some e =>
    rw [hfault] at h
    rw [(h.error_iff e).mp rfl]
    rfl
  | none =>
    rw [hfault] at h
    rcases h.outcomes with ⟨e, herror, -⟩ | ⟨-, a, -, rfl, -⟩
    · cases herror
    · exact hnext a

/-- A field that must have one of these words. -/
theorem guard_text {refusal : String → String → GenerationError}
    {next : String → Except GenerationError α} (hknown : ∀ word ∈ words, ∃ a, next word = .ok a)
    (hunknown : ∀ word, word ∉ words → next word = .error (refusal head.type word)) :
    Guard [⟨field, words, true, refusal⟩] head (head.text field >>= next) := by
  rw [Guard, verdict_cons, fault?, Block.Head.text]
  cases head.text? field with
  | none => rfl
  | some word =>
    change Agree _ _ (next word)
    by_cases hword : word ∈ words
    · obtain ⟨a, ha⟩ := hknown word hword
      simp only [if_pos hword, ha]
      trivial
    · simp only [if_neg hword, hunknown word hword]
      rfl

/-- A selector among operators. -/
theorem guard_selector {ofField? : String → Option α} (h : Known words ofField?) :
    Guard [.ofOperators field words] head (head.selector field ofField?) := by
  refine guard_text (fun word hword => ?_) fun word hword => ?_
  · obtain ⟨a, ha⟩ := h.exists_some hword
    simp only [ha]
    exact ⟨a, rfl⟩
  · simp only [h.eq_none hword]
    rfl

theorem guard_origin (head : Block.Head) (field : String) :
    Guard [.ofOrigin field] head (Rule.origin head field) := by
  rw [Guard, verdict_cons, fault?, Rule.origin, ofOrigin]
  cases head.text? field with
  | none => trivial
  | some word =>
    by_cases hword : word ∈ Origin.words
    · obtain ⟨o, ho⟩ := Origin.known_words.exists_some hword
      simp only [if_pos hword, ho]
      trivial
    · simp only [if_neg hword, Origin.known_words.eq_none hword]
      rfl

theorem guard_searchEnd (head : Block.Head) :
    Guard [⟨"END", SearchEnd.words, true, .unhandledOption⟩] head (Rule.searchEnd head) := by
  refine guard_text (fun word hword => ?_) fun word hword => ?_
  · obtain ⟨e, he⟩ := SearchEnd.known_words.exists_some hword
    simp only [he]
    exact ⟨e, rfl⟩
  · simp only [SearchEnd.known_words.eq_none hword]
    rfl

theorem guard_functionPlan (head : Block.Head) :
    Guard [.ofOperators "OP" ("NEG" :: NumberFunction.words)] head (Rule.functionPlan head) := by
  refine guard_text (fun word hword => ?_) fun word hword => ?_
  · by_cases hneg : word = "NEG"
    · rw [if_pos hneg]
      exact ⟨_, rfl⟩
    · obtain ⟨f, hf⟩ :=
        NumberFunction.known_words.exists_some (List.mem_of_ne_of_mem hneg hword)
      simp only [if_neg hneg, hf]
      exact ⟨_, rfl⟩
  · rw [List.mem_cons, not_or] at hword
    obtain ⟨hneg, hword⟩ := hword
    simp only [if_neg hneg, NumberFunction.known_words.eq_none hword]
    rfl

end Selector

/-- **A rule that has no number to read** fails with the first fault of its selectors, and only
then. -/
theorem Rule.guard_plan {rule : Rule} (hrule : rule ≠ .number) (oneBased : Bool)
    (head : Block.Head) : Selector.Guard rule.selectors head (rule.plan oneBased head) := by
  cases rule with
  | number => exact absurd rfl hrule
  | arithmetic =>
    exact (Selector.guard_selector Arithmetic.known_words).bind fun _ =>
      Selector.guard_ok head _
  | function => exact Selector.guard_functionPlan head
  | constant =>
    exact (Selector.guard_selector NumberConstant.known_words).bind fun _ =>
      Selector.guard_ok head _
  | property =>
    exact (Selector.guard_selector NumberProperty.known_words).bind fun _ =>
      Selector.guard_ok head _
  | indexOf => exact (Selector.guard_searchEnd head).bind fun _ => Selector.guard_ok head _
  | charAt => exact (Selector.guard_origin head "WHERE").bind fun _ => Selector.guard_ok head _
  | substring =>
    exact (Selector.guard_origin head "WHERE1").bind fun _ =>
      (Selector.guard_origin head "WHERE2").bind fun _ => Selector.guard_ok head _
  | changeCase =>
    exact (Selector.guard_selector CaseChange.known_words).bind fun _ =>
      Selector.guard_ok head _
  | _ => exact Selector.guard_ok head _

namespace Block

/-- **A wrong selector comes first and touches nothing**: whatever is plugged into the block and
whatever the session is, the error is that of the first selector which is wrong, and the session
stays as it is. -/
theorem wrong_selector_comes_first (s : Session) {b : Block} {rule : Rule} {e : GenerationError}
    (hrule : Rule.ofType? b.type = some rule)
    (hfault : Selector.firstFault? b.head rule.selectors = some e) :
    s.perform b.code = (.error e, s) := by
  have hnumber : rule ≠ .number := by
    rintro rfl
    cases hfault
  have hverdict : Selector.verdict b.head rule.selectors = .error e := by
    rw [Selector.verdict, hfault]
  have hplan := ((Rule.guard_plan hnumber s.options.oneBased b.head).error_iff e).mp hverdict
  rw [code_eq, hrule]
  simp only
  rw [Session.perform_apply, hplan]

/-- A part of a text between two ends that are both unknown. The block in its socket is of no known
type and would fail itself. -/
def twiceWrong : Block :=
  ⟨⟨"text_getSubstring", [("WHERE1", .string "MIDDLE"), ("WHERE2", .string "NOWHERE")]⟩, none,
    [("STRING", ⟨some ⟨⟨"text_unheard", []⟩, none, [], none⟩, none⟩)], none⟩

/-- The first end is the error. -/
theorem first_end_comes_first :
    Rule.ofType? twiceWrong.type = some .substring ∧
      Selector.firstFault? twiceWrong.head Rule.substring.selectors =
        some (.unhandledOption "text_getSubstring" "MIDDLE") ∧
      (Session.new {}).perform twiceWrong.code =
        (.error (.unhandledOption "text_getSubstring" "MIDDLE"), Session.new {}) :=
  ⟨rfl, rfl, wrong_selector_comes_first (Session.new {}) rfl rfl⟩

end Block

end BlockSketch
