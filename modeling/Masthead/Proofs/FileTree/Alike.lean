import Masthead.Proofs.FileTree
import Masthead.Proofs.Text.Split

/-!
# Trees that differ in contents

Two trees are alike if they hold the same things at the same names, up to what the texts say. Paths
lead to the same names in both, and the same files can be written. A text that is put where a text
has been leaves a tree alike, and so does nothing else that is done to the files of a run.
-/

namespace Masthead.FileTree

/-- Whether two trees differ in the contents of texts only. -/
def Alike (tree other : FileTree) : Prop :=
  ∀ names, tree.entry? names = other.entry? names ∨
    ∃ content written, tree.entry? names = some (.text content) ∧ other.entry? names = some (.text written)

variable {tree other grown : FileTree} {names folder : List Text} {path : Path}

theorem Alike.refl (tree : FileTree) : tree.Alike tree :=
  fun _ => .inl rfl

theorem Alike.symm (alike : tree.Alike other) : other.Alike tree := by
  intro names
  rcases alike names with same | ⟨content, written, found, otherFound⟩
  · exact .inl same.symm
  · exact .inr ⟨written, content, otherFound, found⟩

theorem Alike.trans (alike : tree.Alike other) (others : other.Alike grown) : tree.Alike grown := by
  intro names
  rcases alike names with same | ⟨content, written, found, otherFound⟩
  · rw [same]
    exact others names
  · rcases others names with same | ⟨between, last, -, grownFound⟩
    · exact .inr ⟨content, written, found, same ▸ otherFound⟩
    · exact .inr ⟨content, last, found, grownFound⟩

/-- A text in the place of another. -/
theorem alike_put {old : Text} (found : tree.entry? names = some (.text old)) (new : Text) :
    tree.Alike (tree.put names (.text new)) := by
  intro other
  by_cases same : other = names
  · subst same
    have nonempty : other ≠ [] := ne_nil_of_entry (by rw [found]; exact fun equal => nomatch equal)
    exact .inr ⟨old, new, found, entry_put_self nonempty⟩
  · exact .inl (entry_put_of_ne same).symm

theorem Alike.put (alike : tree.Alike other) (nonempty : names ≠ []) (entry : FileEntry) :
    (tree.put names entry).Alike (other.put names entry) := by
  intro place
  by_cases same : place = names
  · rw [same]
    exact .inl ((entry_put_self nonempty).trans (entry_put_self nonempty).symm)
  · rw [entry_put_of_ne same, entry_put_of_ne same]
    exact alike place

/-! ## The same paths -/

theorem Alike.follow_eq (alike : tree.Alike other) (start parts : List Text) :
    other.follow start parts = tree.follow start parts := by
  induction parts generalizing start with
  | nil => rfl
  | cons part parts inductionHypothesis =>
    simp only [follow, inductionHypothesis]
    rcases alike start with same | ⟨content, written, found, otherFound⟩
    · rw [same]
    · rw [found, otherFound]
      rfl

theorem Alike.locate_eq (alike : tree.Alike other) (folder : List Text) (path : Path) :
    other.locate folder path = tree.locate folder path := by
  simp only [locate, alike.follow_eq]

theorem Alike.writable_eq (alike : tree.Alike other) (folder : List Text) (path : Path) :
    other.writable folder path = tree.writable folder path := by
  simp only [writable, folderFault, alike.locate_eq]
  split
  · rfl
  · cases tree.locate folder path with
    | error fault => rfl
    | ok names =>
      rcases alike names with same | ⟨content, written, found, otherFound⟩
      · simp only [same]
      · simp only [found, otherFound]

/-- What a path leads to decides what is read. -/
theorem open_congr (sameNames : other.locate folder path = tree.locate folder path)
    (sameEntry : ∀ names, tree.locate folder path = .ok names → other.entry? names = tree.entry? names) :
    other.open? folder path = tree.open? folder path := by
  rw [open?, open?, sameNames]
  cases located : tree.locate folder path with
  | error fault => rfl
  | ok names => dsimp only; rw [sameEntry names located]

theorem read_congr (sameNames : other.locate folder path = tree.locate folder path)
    (sameEntry : ∀ names, tree.locate folder path = .ok names → other.entry? names = tree.entry? names) :
    other.read folder path = tree.read folder path := by
  rw [read, read, open_congr sameNames sameEntry]

/-! ## What can be read can be written -/

/-- Behind a stroke at the end of a path there must be a folder. -/
theorem entry_of_follow_concat {start parts found : List Text}
    (followed : tree.follow start (parts ++ [[]]) = .ok found) :
    tree.entry? found = some .folder := by
  induction parts generalizing start with
  | nil =>
    obtain ⟨passed, next, step, later⟩ := follow_cons_eq_ok_iff.mp followed
    -- The empty part behind the stroke stays in the folder.
    cases step
    cases later
    exact passed
  | cons part parts inductionHypothesis =>
    obtain ⟨-, next, -, later⟩ := follow_cons_eq_ok_iff.mp followed
    exact inductionHypothesis later

/-- A text that can be read can be written. -/
theorem writable_of_read {content : Text} (read : tree.read folder path = .ok content) :
    ∃ names, tree.writable folder path = .ok names ∧ tree.locate folder path = .ok names ∧
      tree.entry? names = some (.text content) := by
  obtain ⟨names, located, found⟩ := read_eq_ok_iff.mp read
  have noStroke : path.getLast? ≠ some '/' := by
    intro last
    obtain ⟨front, rfl⟩ := List.getLast?_eq_some_iff.mp last
    have split : Text.splitOn '/' (front ++ ['/']) = Text.splitOn '/' front ++ [[]] := by
      simp only [Text.splitOn_eq, List.splitOn_append_cons_self, List.splitOn_nil]
    rw [locate] at located
    split at located
    · cases located
    · rw [split] at located
      rw [entry_of_follow_concat located] at found
      cases found
  exact ⟨names, by rw [writable, if_neg noStroke, located]; simp only [found], located, found⟩

/-! ## A new file -/

/-- Where no folder is, a file that is put opens no way. -/
theorem locate_of_put {entry : FileEntry} (noFolder : tree.entry? names ≠ some .folder)
    (isFile : entry.isFolder = false)
    {found : List Text} (located : (tree.put names entry).locate folder path = .ok found) :
    tree.locate folder path = .ok found := by
  refine locate_of_folders (fun place passed => ?_) located
  have different : place ≠ names := by
    rintro rfl
    rw [entry_put_self (ne_nil_of_entry noFolder), Option.some.injEq] at passed
    rw [passed] at isFile
    cases isFile
  exact (entry_put_of_ne different).symm.trans passed

theorem locate_write_iff {target : Path} {content : Text} (written : tree.write folder target content = .ok grown)
    {found : List Text} : grown.locate folder path = .ok found ↔ tree.locate folder path = .ok found := by
  obtain ⟨names, writable, rfl⟩ := exists_of_write written
  have noFolder := (of_writable writable).2
  exact ⟨locate_of_put noFolder rfl, locate_put noFolder⟩

/-! ## Paths that lead apart -/

/-- Whether two paths lead to different names. -/
def Apart (tree : FileTree) (folder : List Text) (path other : Path) : Prop :=
  ∀ names, tree.locate folder path = .ok names → tree.locate folder other ≠ .ok names

theorem Apart.symm {target : Path} (apart : tree.Apart folder path target) : tree.Apart folder target path :=
  fun names located pathLocated => apart names pathLocated located

/-- Writing a file changes no other. -/
theorem open_write {target : Path} {content : Text} (written : tree.write folder target content = .ok grown)
    (apart : tree.Apart folder path target) :
    (grown.open? folder path).toOption = (tree.open? folder path).toOption := by
  have same {names : List Text} : grown.locate folder path = .ok names ↔ tree.locate folder path = .ok names :=
    locate_write_iff written
  obtain ⟨place, writable, rfl⟩ := exists_of_write written
  have targeted := (of_writable writable).1
  cases located : tree.locate folder path with
  | ok names =>
    have different : names ≠ place := fun equal => apart names located (equal ▸ targeted)
    rw [open?, open?, same.mpr located, located]
    dsimp only
    rw [entry_put_of_ne different]
  | error fault =>
    cases otherLocated : (tree.put place (.text content)).locate folder path with
    | ok names => rw [same.mp otherLocated] at located; cases located
    | error otherFault => rw [open?, open?, otherLocated, located]; rfl

/-! ## A file on demand -/

/-- A tree in which a file has been written, if one is asked for and it can be. -/
def withFile (tree : FileTree) (folder : List Text) (target : Option Path) (content : Text) : FileTree :=
  match target with
  | none => tree
  | some target => (tree.write folder target content).toOption.getD tree

theorem locate_withFile_iff {target : Option Path} {content : Text} {found : List Text} :
    (tree.withFile folder target content).locate folder path = .ok found ↔ tree.locate folder path = .ok found := by
  cases target with
  | none => rfl
  | some target =>
    rw [withFile]
    cases written : tree.write folder target content with
    | error fault => rfl
    | ok grown => exact locate_write_iff written

theorem open_withFile {target : Option Path} (apart : ∀ asked, target = some asked → tree.Apart folder path asked)
    (content : Text) :
    ((tree.withFile folder target content).open? folder path).toOption = (tree.open? folder path).toOption := by
  cases target with
  | none => rfl
  | some target =>
    rw [withFile]
    cases written : tree.write folder target content with
    | error fault => rfl
    | ok grown => exact open_write written (apart target rfl)

/-- The same file in trees that are alike leaves what is the same in both. -/
theorem read_withFile (alike : tree.Alike other) (target : Option Path) (content : Text)
    (same : ∀ names, tree.locate folder path = .ok names → other.entry? names = tree.entry? names) :
    (other.withFile folder target content).read folder path =
    (tree.withFile folder target content).read folder path := by
  cases target with
  | none => exact read_congr (alike.locate_eq _ _) same
  | some target =>
    rw [withFile, withFile, write, write, alike.writable_eq]
    cases writable : tree.writable folder target with
    | error fault => exact read_congr (alike.locate_eq _ _) same
    | ok names =>
      have noFolder := (of_writable writable).2
      have nonempty := ne_nil_of_entry noFolder
      have put := alike.put nonempty (.text content)
      simp only [Except.map, Except.toOption, Option.getD_some]
      refine read_congr (put.locate_eq _ _) fun place located => ?_
      -- The path leads to the file that has been written, or to one that was there before.
      by_cases here : place = names
      · rw [here, entry_put_self nonempty, entry_put_self nonempty]
      · rw [entry_put_of_ne here, entry_put_of_ne here]
        exact same place (locate_of_put noFolder rfl located)

end Masthead.FileTree
