import BlockSketch.Files.Tree
import BlockSketch.Proofs.Lookup
import BlockSketch.Proofs.Session.Ensures

/-!
# What is written is read

A file that has been written is found again at the path that it was written to, with its content
(`FileTree.read_of_write`). The path may be any that writing accepts: it may go up and down again,
and through the directory of the file itself.

Writing puts an entry at one place. The walk along a path looks at directories only, and where a
file is put there was none, or a file. So no step of the walk comes by that place
(`FileTree.walk_put`), and the second walk ends where the first one did.
-/

namespace BlockSketch

namespace FileTree

variable {tree : FileTree} {place : Place} {entry : Entry}

/-! ### Putting -/

theorem found_put_self (tree : FileTree) (hplace : place.names.isEmpty = false) (entry : Entry) :
    FileTree.entry? (tree.put place entry) place = some entry := by
  unfold entry? put
  rw [hplace]
  simp [List.lookup_append, lookup_filter_self]

theorem found_put_of_ne {other : Place} (hne : other ≠ place) (entry : Entry) :
    FileTree.entry? (tree.put place entry) other = tree.entry? other := by
  have hkey : (other == place) = false := beq_false_of_ne hne
  unfold entry? put
  simp only [List.lookup_append, lookup_filter_of_ne hne, List.lookup_cons, hkey, List.lookup_nil,
    Option.or_none]

/-- No directory lies at the place. -/
def HasNoDirectory (tree : FileTree) (place : Place) : Prop :=
  tree.entry? place ≠ some .directory

/-- Where there is no directory, the place has a name. -/
theorem HasNoDirectory.isEmpty_names (h : tree.HasNoDirectory place) :
    place.names.isEmpty = false := by
  by_contra hempty
  rw [Bool.not_eq_false] at hempty
  exact h (if_pos hempty)

/-- A look at a place sees what is there, if the name of the place is not too long. -/
theorem found_of_look {seen : Option Entry} (h : tree.look place = .ok seen) :
    tree.entry? place = seen := by
  rw [look] at h
  split at h
  · cases h
  · exact Except.ok.inj h

theorem look_put_self (h : tree.HasNoDirectory place) {seen : Option Entry}
    (hlook : tree.look place = .ok seen) (entry : Entry) :
    (tree.put place entry).look place = .ok (some entry) := by
  rw [look] at hlook ⊢
  split at hlook
  · cases hlook
  · next hshort => rw [if_neg hshort, found_put_self tree h.isEmpty_names]

theorem look_put_of_ne {other : Place} (hne : other ≠ place) (entry : Entry) :
    (tree.put place entry).look other = tree.look other := by
  rw [look, look, found_put_of_ne hne]

theorem enter_eq_ok_iff : tree.enter place = .ok () ↔ tree.look place = .ok (some .directory) := by
  rw [enter]
  rcases tree.look place with fault | _ | _ | _
  · exact ⟨nofun, nofun⟩
  · exact ⟨nofun, nofun⟩
  · exact ⟨nofun, nofun⟩
  · exact ⟨fun _ => rfl, fun _ => rfl⟩

/-! ### Walking -/

/-- What can be entered can be entered still when something is put where there is no directory. -/
theorem enter_put (h : tree.HasNoDirectory place) (entry : Entry) {other : Place}
    (hother : tree.enter other = .ok ()) : (tree.put place entry).enter other = .ok () := by
  have hlook := enter_eq_ok_iff.mp hother
  have hne : other ≠ place := by
    rintro rfl
    exact h (found_of_look hlook)
  rw [enter_eq_ok_iff, look_put_of_ne hne, hlook]

/-- A walk takes no notice of what is put where there is no directory. -/
theorem walk_put (h : tree.HasNoDirectory place) (entry : Entry) {pieces : List String}
    {start stop : Place} (hwalk : tree.walk pieces start = .ok stop) :
    (tree.put place entry).walk pieces start = .ok stop := by
  induction pieces generalizing start with
  | nil => exact hwalk
  | cons piece pieces ih =>
    obtain ⟨⟨⟩, henter, hrest⟩ := exists_of_bind_eq_ok hwalk
    rw [walk, enter_put h entry henter]
    exact ih hrest

/-! ### Reading and writing -/

/-- What writing has done if it succeeded: a file has been put where the path leads to, and there
was no directory there. -/
theorem exists_of_write {text content : String} {tree' : FileTree}
    (h : tree.write text content = .ok tree') :
    let path := Path.ofText text
    checkText text = .ok () ∧ path.slashed = false ∧
    ∃ place seen, tree.walk path.pieces (Place.start path) = .ok place ∧
      tree.look place = .ok seen ∧ tree.HasNoDirectory place ∧
      tree' = tree.put place (.file content.toUTF8) := by
  intro path
  obtain ⟨⟨⟩, hcheck, h⟩ := exists_of_bind_eq_ok h
  simp only at h
  split at h
  · -- a path that ends in a slash is refused in any case
    obtain ⟨place, -, h⟩ := exists_of_bind_eq_ok h
    obtain ⟨⟨⟩, -, h⟩ := exists_of_bind_eq_ok h
    cases h
  · next hslashed =>
    obtain ⟨place, hwalk, h⟩ := exists_of_bind_eq_ok h
    obtain ⟨seen, hlook, h⟩ := exists_of_bind_eq_ok h
    refine ⟨hcheck, Bool.eq_false_iff.mpr hslashed, place, seen, hwalk, hlook, ?_, ?_⟩
    · rintro hdirectory
      rw [found_of_look hlook] at hdirectory
      subst hdirectory
      cases h
    · rcases seen with _ | _ | _
      · exact (Except.ok.inj h).symm
      · exact (Except.ok.inj h).symm
      · cases h

/-- A file lies where these steps lead. -/
theorem locate_eq_ok {text : String} (hcheck : checkText text = .ok ())
    (hslashed : (Path.ofText text).slashed = false)
    (hwalk : tree.walk (Path.ofText text).pieces (Place.start (Path.ofText text)) = .ok place)
    (hlook : tree.look place = .ok (some entry)) : tree.locate text = .ok (place, entry) := by
  rw [locate, hcheck]
  simp only [hslashed, hwalk, hlook, bind, Except.bind]
  rfl

theorem fromUTF8?_toUTF8 (content : String) : String.fromUTF8? content.toUTF8 = some content := by
  rw [String.fromUTF8?]
  exact dif_pos content.isValidUTF8

/-- **What is written is read**, if it is read at the path to which it was written. -/
theorem read_of_write {text content : String} {tree' : FileTree}
    (h : tree.write text content = .ok tree') : tree'.read text = .ok content := by
  obtain ⟨hcheck, hslashed, place, seen, hwalk, hlook, hnone, rfl⟩ := exists_of_write h
  have hlocate := locate_eq_ok hcheck hslashed (walk_put hnone (.file content.toUTF8) hwalk)
    (look_put_self hnone hlook _)
  rw [read, hlocate]
  simp only [bind, Except.bind, fromUTF8?_toUTF8]
  rfl

/-- What can be read is a file, and is found. -/
theorem exists_find_of_read {text content : String} (h : tree.read text = .ok content) :
    ∃ full, tree.find text = some full := by
  obtain ⟨⟨place, entry⟩, hlocate, h⟩ := exists_of_bind_eq_ok h
  cases entry with
  | directory => cases h
  | file bytes =>
    refine ⟨place.text tree.home, ?_⟩
    rw [find, hlocate]

end FileTree

end BlockSketch
