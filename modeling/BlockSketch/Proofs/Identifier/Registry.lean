import BlockSketch.Proofs.Identifier.Legal
import Mathlib.Data.List.Perm.Subperm
import Mathlib.Data.List.Nodup

/-!
# The registry keeps names apart

A registry hands out identifiers in an order that nobody plans: some are asked for by name, some
are to be new. Three things are promised whatever the order.

* **Legality.** Every identifier is legal and none is a reserved word.
* **One name, one identifier.** Two requests by name are answered alike exactly if the names agree
  in their lowercase form.
* **Freshness.** An identifier that was asked for as a new one is answered to nobody else, before
  or after.

The invariant behind them is `Registry.Sound`: what is assigned is taken, no two keys share an
identifier, and all that is taken is legal. `Registry.Extends` is the order in which a registry
grows. The search for a free identifier never runs out (`Registry.choose_spec`), because it has one
candidate more than there are identifiers that are not free.
-/

namespace BlockSketch

namespace Registry

/-! ### The search -/

theorem isFree_iff {r : Registry} {x : String} :
    r.isFree x = true ↔ x ∉ r.taken ∧ x ∉ Identifier.reserved := by
  simp [isFree]

/-- The search stops at the first free candidate, or after its last round. -/
theorem search_spec (r : Registry) (base : String) (rounds k : Nat) :
    ∃ j ≤ rounds, search r base rounds k = candidate base (k + j) ∧
      (∀ i < j, r.isFree (candidate base (k + i)) = false) ∧
      (j < rounds → r.isFree (candidate base (k + j)) = true) := by
  induction rounds generalizing k with
  | zero =>
    exact ⟨0, Nat.le_refl 0, rfl, fun i hi => absurd hi (Nat.not_lt_zero i),
      fun h => absurd h (Nat.lt_irrefl 0)⟩
  | succ rounds ih =>
    rw [search]
    split
    · next hfree =>
      exact ⟨0, Nat.zero_le _, rfl, fun i hi => absurd hi (Nat.not_lt_zero i), fun _ => hfree⟩
    · next hfree =>
      obtain ⟨j, hj, heq, hbefore, hat⟩ := ih (k + 1)
      have hshift : ∀ i, k + 1 + i = k + (i + 1) := fun i => by omega
      refine ⟨j + 1, by omega, by rw [heq, hshift], ?_, ?_⟩
      · intro i hi
        cases i with
        | zero => simpa using hfree
        | succ i =>
          rw [← hshift]
          exact hbefore i (by omega)
      · intro hlt
        rw [← hshift]
        exact hat (by omega)

/-- **The search never runs out.** The identifier chosen for a name is the first free candidate,
and its number is at most the number of identifiers that are not free. -/
theorem choose_spec (r : Registry) (name : String) :
    ∃ j ≤ r.taken.length + Identifier.reserved.length,
      r.choose name = candidate (Identifier.ofName name) j ∧
      r.isFree (candidate (Identifier.ofName name) j) = true ∧
      ∀ i < j, r.isFree (candidate (Identifier.ofName name) i) = false := by
  obtain ⟨j, hj, heq, hbefore, hat⟩ := search_spec r (Identifier.ofName name)
    (r.taken.length + Identifier.reserved.length) 0
  simp only [Nat.zero_add] at heq hbefore hat
  refine ⟨j, hj, heq, ?_, hbefore⟩
  by_contra hfree
  -- all candidates up to number `j` would be taken or reserved, and there are too many of them
  have hlast : j = r.taken.length + Identifier.reserved.length := by
    by_contra hne
    exact hfree (hat (by omega))
  have hnodup : ((List.range (j + 1)).map (candidate (Identifier.ofName name))).Nodup :=
    List.Nodup.map (fun _ _ h => candidate_injective _ h) List.nodup_range
  have hsub : (List.range (j + 1)).map (candidate (Identifier.ofName name)) ⊆
      r.taken ++ Identifier.reserved := by
    intro x hx
    obtain ⟨i, hi, rfl⟩ := List.mem_map.mp hx
    have hnot : r.isFree (candidate (Identifier.ofName name) i) = false := by
      rcases Nat.lt_or_ge i j with hlt | hge
      · exact hbefore i hlt
      · obtain rfl : i = j := by
          have := List.mem_range.mp hi
          omega
        simpa using hfree
    by_contra hmem
    rw [List.mem_append, not_or] at hmem
    rw [isFree_iff.mpr hmem] at hnot
    cases hnot
  have hlen := (List.subperm_of_subset hnodup hsub).length_le
  simp only [List.length_map, List.length_range, List.length_append] at hlen
  omega

/-- What is chosen is free. -/
theorem isFree_choose (r : Registry) (name : String) : r.isFree (r.choose name) = true := by
  obtain ⟨j, -, heq, hfree, -⟩ := choose_spec r name
  rw [heq]
  exact hfree

/-- What is chosen is legal. -/
theorem legal_choose (r : Registry) (name : String) : Identifier.Legal (r.choose name) := by
  obtain ⟨j, -, heq, -, -⟩ := choose_spec r name
  rw [heq]
  exact legal_candidate (Identifier.legal_ofName name) j

-- from here on the search is known by its laws alone; unfolding it would count the reserved words
attribute [local irreducible] choose

/-! ### Growth -/

/-- Nothing that was handed out or assigned is lost or changed. -/
def Extends (r r' : Registry) : Prop :=
  (∃ more, r'.taken = r.taken ++ more) ∧ ∃ more, r'.assigned = r.assigned ++ more

theorem Extends.refl (r : Registry) : r.Extends r :=
  ⟨⟨[], (List.append_nil _).symm⟩, ⟨[], (List.append_nil _).symm⟩⟩

theorem Extends.trans {a b c : Registry} (h₁ : a.Extends b) (h₂ : b.Extends c) : a.Extends c := by
  obtain ⟨⟨t₁, ht₁⟩, a₁, ha₁⟩ := h₁
  obtain ⟨⟨t₂, ht₂⟩, a₂, ha₂⟩ := h₂
  refine ⟨⟨t₁ ++ t₂, ?_⟩, ⟨a₁ ++ a₂, ?_⟩⟩
  · rw [ht₂, ht₁, List.append_assoc]
  · rw [ha₂, ha₁, List.append_assoc]

theorem Extends.mem_taken {r r' : Registry} (h : r.Extends r') {x : String} (hx : x ∈ r.taken) :
    x ∈ r'.taken := by
  obtain ⟨⟨more, hmore⟩, -⟩ := h
  rw [hmore]
  exact List.mem_append_left _ hx

/-- An assignment stays what it is. -/
theorem Extends.lookup {r r' : Registry} (h : r.Extends r') {key x : String}
    (hx : r.assigned.lookup key = some x) : r'.assigned.lookup key = some x := by
  obtain ⟨-, more, hmore⟩ := h
  rw [hmore, List.lookup_append, hx]
  rfl

theorem extends_fresh (r : Registry) (name : String) : r.Extends (r.fresh name).2 :=
  ⟨⟨[r.choose name], rfl⟩, ⟨[], (List.append_nil _).symm⟩⟩

/-- A name that is known is answered from memory. -/
theorem identify_of_lookup {r : Registry} {name x : String}
    (h : r.assigned.lookup (Text.lowercase name) = some x) : r.identify name = (x, r) := by
  simp only [identify, h]

/-- A name that is not known gets a free identifier, which is remembered. -/
theorem identify_of_lookup_none {r : Registry} {name : String}
    (h : r.assigned.lookup (Text.lowercase name) = none) :
    r.identify name = (r.choose name,
      { assigned := r.assigned ++ [(Text.lowercase name, r.choose name)]
        taken := r.taken ++ [r.choose name] }) := by
  simp only [identify, h, fresh]

theorem extends_identify (r : Registry) (name : String) : r.Extends (r.identify name).2 := by
  cases h : r.assigned.lookup (Text.lowercase name) with
  | some x =>
    rw [identify_of_lookup h]
    exact Extends.refl r
  | none =>
    rw [identify_of_lookup_none h]
    exact ⟨⟨_, rfl⟩, ⟨_, rfl⟩⟩

/-- What a request by name answers is remembered under that name. -/
theorem lookup_identify (r : Registry) (name : String) :
    (r.identify name).2.assigned.lookup (Text.lowercase name) = some (r.identify name).1 := by
  cases h : r.assigned.lookup (Text.lowercase name) with
  | some x =>
    rw [identify_of_lookup h]
    exact h
  | none =>
    rw [identify_of_lookup_none h, List.lookup_append, h]
    simp

/-! ### The invariant -/

/-- What every registry that was used as intended satisfies. -/
structure Sound (r : Registry) : Prop where
  /-- whatever is taken is legal and no reserved word -/
  legal : ∀ x ∈ r.taken, Identifier.Legal x ∧ x ∉ Identifier.reserved
  /-- whatever is assigned is taken -/
  taken_of_assigned : ∀ entry ∈ r.assigned, entry.2 ∈ r.taken
  /-- no two entries share an identifier -/
  distinct : (r.assigned.map Prod.snd).Nodup

theorem sound_empty : Sound empty where
  legal := fun _ hx => absurd hx List.not_mem_nil
  taken_of_assigned := fun _ h => absurd h List.not_mem_nil
  distinct := List.nodup_nil

theorem mem_of_lookup {entries : List (String × String)} {key x : String}
    (h : entries.lookup key = some x) : (key, x) ∈ entries := by
  obtain ⟨before, after, heq, -⟩ := List.lookup_eq_some_iff.mp h
  rw [heq]
  exact List.mem_append_right _ List.mem_cons_self

theorem Sound.mem_taken {r : Registry} (hr : r.Sound) {key x : String}
    (h : r.assigned.lookup key = some x) : x ∈ r.taken :=
  hr.taken_of_assigned _ (mem_of_lookup h)

/-- Two keys with one identifier are one key. -/
theorem Sound.lookup_injective {r : Registry} (hr : r.Sound) {key key' x : String}
    (h : r.assigned.lookup key = some x) (h' : r.assigned.lookup key' = some x) : key = key' :=
  congrArg Prod.fst
    (List.inj_on_of_nodup_map hr.distinct (mem_of_lookup h) (mem_of_lookup h') rfl)

/-- Taking what was chosen keeps what is taken legal. -/
theorem Sound.legal_append {r : Registry} (hr : r.Sound) (name : String) :
    ∀ x ∈ r.taken ++ [r.choose name], Identifier.Legal x ∧ x ∉ Identifier.reserved := by
  intro x hx
  rcases List.mem_append.mp hx with hx | hx
  · exact hr.legal x hx
  · rw [List.mem_singleton.mp hx]
    exact ⟨legal_choose r name, (isFree_iff.mp (isFree_choose r name)).2⟩

theorem Sound.fresh {r : Registry} (hr : r.Sound) (name : String) : (r.fresh name).2.Sound where
  legal := hr.legal_append name
  taken_of_assigned := fun entry h => List.mem_append_left _ (hr.taken_of_assigned entry h)
  distinct := hr.distinct

theorem Sound.identify {r : Registry} (hr : r.Sound) (name : String) :
    (r.identify name).2.Sound := by
  cases h : r.assigned.lookup (Text.lowercase name) with
  | some x =>
    rw [identify_of_lookup h]
    exact hr
  | none =>
    rw [identify_of_lookup_none h]
    refine ⟨hr.legal_append name, ?_, ?_⟩
    · intro entry hentry
      rcases List.mem_append.mp hentry with hentry | hentry
      · exact List.mem_append_left _ (hr.taken_of_assigned entry hentry)
      · rw [List.mem_singleton.mp hentry]
        exact List.mem_append_right _ (List.mem_singleton_self _)
    · -- the new identifier is free, and those assigned before are taken
      rw [List.map_append, List.map_singleton]
      refine List.Nodup.append hr.distinct (List.nodup_singleton _) ?_
      intro x hx hx'
      obtain ⟨entry, hentry, rfl⟩ := List.mem_map.mp hx
      have hnew : entry.2 = r.choose name := List.mem_singleton.mp hx'
      refine (isFree_iff.mp (isFree_choose r name)).1 ?_
      rw [← hnew]
      exact hr.taken_of_assigned entry hentry

/-- What a request by name answers is taken from then on. -/
theorem Sound.mem_taken_identify {r : Registry} (hr : r.Sound) (name : String) :
    (r.identify name).1 ∈ (r.identify name).2.taken :=
  (hr.identify name).mem_taken (lookup_identify r name)

/-! ### Histories -/

/-- A request to a registry. -/
inductive Call
  /-- the identifier of a name -/
  | identify (name : String)
  /-- a new identifier that is like a name -/
  | fresh (name : String)

/-- What a registry answers to a request, and what it is afterwards. -/
def answer (r : Registry) : Call → String × Registry
  | .identify name => r.identify name
  | .fresh name => r.fresh name

/-- The registry after a series of requests. -/
def after (r : Registry) : List Call → Registry
  | [] => r
  | call :: calls => (r.answer call).2.after calls

/-- The answers to a series of requests. -/
def answers (r : Registry) : List Call → List String
  | [] => []
  | call :: calls => (r.answer call).1 :: (r.answer call).2.answers calls

theorem extends_answer (r : Registry) (call : Call) : r.Extends (r.answer call).2 := by
  cases call with
  | identify name => exact extends_identify r name
  | fresh name => exact extends_fresh r name

theorem Sound.answer {r : Registry} (hr : r.Sound) (call : Call) : (r.answer call).2.Sound := by
  cases call with
  | identify name => exact hr.identify name
  | fresh name => exact hr.fresh name

theorem Sound.mem_taken_answer {r : Registry} (hr : r.Sound) (call : Call) :
    (r.answer call).1 ∈ (r.answer call).2.taken := by
  cases call with
  | identify name => exact hr.mem_taken_identify name
  | fresh name => exact List.mem_append_right _ (List.mem_singleton_self _)

theorem extends_after (r : Registry) (calls : List Call) : r.Extends (r.after calls) := by
  induction calls generalizing r with
  | nil => exact Extends.refl r
  | cons call calls ih => exact (extends_answer r call).trans (ih (r.answer call).2)

theorem Sound.after {r : Registry} (hr : r.Sound) (calls : List Call) : (r.after calls).Sound := by
  induction calls generalizing r with
  | nil => exact hr
  | cons call calls ih => exact ih (hr.answer call)

/-- Every answer is taken in the end. -/
theorem Sound.mem_taken_of_mem_answers {r : Registry} (hr : r.Sound) {calls : List Call}
    {x : String} (hx : x ∈ r.answers calls) : x ∈ (r.after calls).taken := by
  induction calls generalizing r with
  | nil => exact absurd hx List.not_mem_nil
  | cons call calls ih =>
    rcases List.mem_cons.mp hx with rfl | hx
    · exact (extends_after _ calls).mem_taken (hr.mem_taken_answer call)
    · exact ih (hr.answer call) hx

/-! ### Identifiers that belong to no name -/

/-- An identifier that is taken and assigned to no name. -/
def Withheld (r : Registry) (x : String) : Prop :=
  x ∈ r.taken ∧ x ∉ r.assigned.map Prod.snd

/-- What was asked for as new is withheld from then on. -/
theorem Sound.withheld_fresh {r : Registry} (hr : r.Sound) (name : String) :
    (r.fresh name).2.Withheld (r.fresh name).1 := by
  refine ⟨List.mem_append_right _ (List.mem_singleton_self _), ?_⟩
  intro hmem
  obtain ⟨entry, hentry, heq⟩ := List.mem_map.mp hmem
  have htaken := hr.taken_of_assigned entry hentry
  rw [heq] at htaken
  exact (isFree_iff.mp (isFree_choose r name)).1 htaken

/-- No request is answered with a withheld identifier, and it stays withheld. -/
theorem Withheld.answer {r : Registry} {x : String} (h : r.Withheld x) (call : Call) :
    (r.answer call).1 ≠ x ∧ (r.answer call).2.Withheld x := by
  obtain ⟨htaken, hassigned⟩ := h
  have hchoose : ∀ name, r.choose name ≠ x := by
    rintro name rfl
    exact (isFree_iff.mp (isFree_choose r name)).1 htaken
  cases call with
  | fresh name => exact ⟨hchoose name, List.mem_append_left _ htaken, hassigned⟩
  | identify name =>
    simp only [Registry.answer]
    cases hlookup : r.assigned.lookup (Text.lowercase name) with
    | some y =>
      rw [identify_of_lookup hlookup]
      refine ⟨?_, htaken, hassigned⟩
      rintro rfl
      exact hassigned (List.mem_map.mpr ⟨_, mem_of_lookup hlookup, rfl⟩)
    | none =>
      rw [identify_of_lookup_none hlookup]
      refine ⟨hchoose name, List.mem_append_left _ htaken, ?_⟩
      rw [List.map_append, List.map_singleton, List.mem_append, not_or]
      exact ⟨hassigned, fun hx => hchoose name (List.mem_singleton.mp hx).symm⟩

theorem Withheld.not_mem_answers {r : Registry} {x : String} (h : r.Withheld x)
    (calls : List Call) : x ∉ r.answers calls := by
  induction calls generalizing r with
  | nil => exact List.not_mem_nil
  | cons call calls ih =>
    obtain ⟨hne, hstep⟩ := h.answer call
    intro hx
    rcases List.mem_cons.mp hx with hx | hx
    · exact hne hx.symm
    · exact ih hstep hx

/-! ### The three promises -/

/-- Two requests by name, with anything in between, are answered alike exactly if the names agree in
their lowercase form. -/
theorem Sound.identify_eq_iff {r : Registry} (hr : r.Sound) (m n : String) (between : List Call) :
    (((r.identify m).2.after between).identify n).1 = (r.identify m).1 ↔
      Text.lowercase n = Text.lowercase m := by
  have hlater : ((r.identify m).2.after between).assigned.lookup (Text.lowercase m) =
      some (r.identify m).1 := (extends_after _ between).lookup (lookup_identify r m)
  have hsound : ((r.identify m).2.after between).Sound := (hr.identify m).after between
  constructor
  · intro heq
    have hfirst := (extends_identify ((r.identify m).2.after between) n).lookup hlater
    have hsecond := lookup_identify ((r.identify m).2.after between) n
    rw [heq] at hsecond
    exact (hsound.identify n).lookup_injective hsecond hfirst
  · intro heq
    rw [← heq] at hlater
    rw [identify_of_lookup hlater]

/-- **The registry keeps names apart.** Take any series of requests to a registry that has handed out
nothing. Every identifier that is answered is legal and no reserved word. Two requests by name are
answered alike exactly if the names have the same lowercase form, whatever came before the first
and between the two. And an identifier that was asked for as new is no answer to any request before
or after. -/
theorem names_kept_apart :
    (∀ calls, ∀ x ∈ empty.answers calls, Identifier.Legal x ∧ x ∉ Identifier.reserved) ∧
    (∀ before m between n,
      ((((empty.after before).identify m).2.after between).identify n).1 =
          ((empty.after before).identify m).1 ↔ Text.lowercase n = Text.lowercase m) ∧
    (∀ before name later,
      ((empty.after before).fresh name).1 ∉ empty.answers before ∧
      ((empty.after before).fresh name).1 ∉ ((empty.after before).fresh name).2.answers later) := by
  refine ⟨?_, ?_, ?_⟩
  · intro calls x hx
    exact (sound_empty.after calls).legal x (sound_empty.mem_taken_of_mem_answers hx)
  · intro before m between n
    exact (sound_empty.after before).identify_eq_iff m n between
  · intro before name later
    refine ⟨?_, ((sound_empty.after before).withheld_fresh name).not_mem_answers later⟩
    intro hx
    exact (isFree_iff.mp (isFree_choose _ name)).1 (sound_empty.mem_taken_of_mem_answers hx)

end Registry

end BlockSketch
