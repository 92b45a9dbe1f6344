import Masthead.FileTree

/-!
# Reading behind a write

A file that is written reads as what was written, and all other files read as before. Writing puts
something where no folder is, so every path leads through the same folders as it did.
-/

namespace Masthead.FileTree

variable {tree grown : FileTree} {names other folder : List Text} {entry : FileEntry}

/-! ## Putting an entry -/

/-- An entry of a tree when one with the given names has been put over it. -/
def overwrite (names : List Text) (entry : FileEntry) (old : List Text × FileEntry) : List Text × FileEntry :=
  if old.1 = names then (names, entry) else old

theorem put_eq (tree : FileTree) (names : List Text) (entry : FileEntry) :
    tree.put names entry
      = if tree.entries.any (·.1 == names) then ⟨tree.entries.map (overwrite names entry)⟩
        else ⟨tree.entries ++ [(names, entry)]⟩ := rfl

theorem find?_overwrite (names other : List Text) (entry : FileEntry) (entries : List (List Text × FileEntry)) :
    (entries.map (overwrite names entry)).find? (·.1 == other)
      = (entries.find? (·.1 == other)).map (overwrite names entry) := by
  have sameNames : ((fun old : List Text × FileEntry => old.1 == other) ∘ overwrite names entry)
      = fun old => old.1 == other := by
    funext old
    simp only [Function.comp, overwrite]
    split
    · next same => rw [same]
    · rfl
  rw [List.find?_map, sameNames]

theorem entry_put_self (nonempty : names ≠ []) : entry? (tree.put names entry) names = some entry := by
  rw [put_eq, entry?, if_neg (by simpa using nonempty)]
  split
  · next present =>
    obtain ⟨old, found⟩ := Option.isSome_iff_exists.mp (List.find?_isSome.mpr (List.any_eq_true.mp present))
    have same : old.1 = names := by simpa using List.find?_some found
    rw [find?_overwrite, found, Option.map_some, overwrite, if_pos same, Option.map_some]
  · next absent =>
    have missing : tree.entries.find? (·.1 == names) = none := by
      rw [List.find?_eq_none]
      exact fun old member same => absent (List.any_eq_true.mpr ⟨old, member, same⟩)
    simp [List.find?_append, missing]

theorem entry_put_of_ne (different : other ≠ names) : entry? (tree.put names entry) other = tree.entry? other := by
  rw [put_eq, entry?, entry?]
  split
  · rfl
  · split
    · rw [find?_overwrite]
      cases found : tree.entries.find? (·.1 == other) with
      | none => rfl
      | some old =>
        have same : old.1 = other := by simpa using List.find?_some found
        rw [Option.map_some, overwrite, if_neg (same ▸ different)]
    · simp [List.find?_append, Ne.symm different]

/-! ## Paths -/

/-- Where one part of a path leads from a folder. -/
def next? (start : List Text) (part : Text) : Option (List Text) :=
  if part = [] ∨ part = ['.'] then some start
  else if part = ['.', '.'] then some start.dropLast
  else if nameLimit < Text.byteCount part then none
  else some (start ++ [part])

/-- Every step but the last passes through a folder. -/
theorem follow_cons_eq_ok_iff {start parts found : List Text} {part : Text} :
    tree.follow start (part :: parts) = .ok found ↔
      tree.entry? start = some .folder ∧ ∃ next, next? start part = some next ∧ tree.follow next parts = .ok found := by
  rw [follow]
  cases tree.entry? start with
  | none => simp
  | some passed =>
    cases passed with
    | folder =>
      simp only [FileEntry.isFolder, Bool.not_true, Bool.false_eq_true, if_false, true_and, next?]
      split
      · simp
      · split
        · simp
        · split <;> simp
    | _ => simp [FileEntry.isFolder]

section

variable {other : FileTree} {found : List Text}
  (folders : ∀ place, tree.entry? place = some .folder → other.entry? place = some .folder)

include folders

/-- A path needs no more of a tree than its folders. -/
theorem follow_of_folders {start parts : List Text} (followed : tree.follow start parts = .ok found) :
    other.follow start parts = .ok found := by
  induction parts generalizing start with
  | nil => exact followed
  | cons part parts inductionHypothesis =>
    obtain ⟨passed, next, step, later⟩ := follow_cons_eq_ok_iff.mp followed
    exact follow_cons_eq_ok_iff.mpr ⟨folders start passed, next, step, inductionHypothesis later⟩

theorem locate_of_folders {path : Path} (located : tree.locate folder path = .ok found) :
    other.locate folder path = .ok found := by
  unfold locate at located ⊢
  cases fault : pathFault? path with
  | some fault => simp [fault] at located
  | none =>
    simp only [fault] at located ⊢
    exact follow_of_folders folders located

end

/-- What is put where no folder is does not stand in the way of a path. -/
theorem locate_put (noFolder : tree.entry? names ≠ some .folder) {found : List Text} {path : Path}
    (located : tree.locate folder path = .ok found) : (tree.put names entry).locate folder path = .ok found := by
  refine locate_of_folders (fun place passed => ?_) located
  have different : place ≠ names := fun same => noFolder (same ▸ passed)
  exact (entry_put_of_ne different).trans passed

/-! ## Reading -/

variable {path : Path} {content : Text}

theorem read_eq_ok_iff :
    tree.read folder path = .ok content ↔
      ∃ names, tree.locate folder path = .ok names ∧ tree.entry? names = some (.text content) := by
  simp only [read, open?]
  cases tree.locate folder path with
  | error fault => simp
  | ok names => cases found : tree.entry? names with
    | none => simp [found]
    | some entry => cases entry <;> simp [found]

theorem of_writable (writable : tree.writable folder path = .ok names) :
    tree.locate folder path = .ok names ∧ tree.entry? names ≠ some .folder := by
  unfold FileTree.writable at writable
  split at writable
  · cases writable
  · split at writable
    · cases writable
    · next located =>
      split at writable
      · cases writable
      · cases writable
      · next noFolder _ =>
        cases writable
        exact ⟨located, noFolder⟩

theorem ne_nil_of_entry (noFolder : tree.entry? names ≠ some .folder) : names ≠ [] := by
  rintro rfl
  exact noFolder rfl

theorem exists_of_write (written : tree.write folder path content = .ok grown) :
    ∃ names, tree.writable folder path = .ok names ∧ grown = tree.put names (.text content) := by
  simp only [write] at written
  cases writable : tree.writable folder path with
  | error fault => rw [writable] at written; cases written
  | ok names =>
    rw [writable] at written
    cases written
    exact ⟨names, rfl, rfl⟩

theorem read_write (written : tree.write folder path content = .ok grown) : grown.read folder path = .ok content := by
  obtain ⟨names, writable, rfl⟩ := exists_of_write written
  obtain ⟨located, noFolder⟩ := of_writable writable
  exact read_eq_ok_iff.mpr ⟨names, locate_put noFolder located, entry_put_self (ne_nil_of_entry noFolder)⟩

theorem read_eq_ok_iff_open :
    tree.read folder path = .ok content ↔ (tree.open? folder path).toOption = some (.text content) := by
  rw [read]
  cases tree.open? folder path with
  | error fault => simp [Except.toOption]
  | ok entry => cases entry <;> simp [Except.toOption]

theorem toOption_read_congr {other : FileTree}
    (same : (other.open? folder path).toOption = (tree.open? folder path).toOption) :
    (other.read folder path).toOption = (tree.read folder path).toOption := by
  have toOption_eq_some {tree : FileTree} {content : Text} :
      (tree.read folder path).toOption = some content ↔ tree.read folder path = .ok content := by
    cases tree.read folder path <;> simp [Except.toOption]
  refine Option.ext fun content => ?_
  rw [toOption_eq_some, toOption_eq_some, read_eq_ok_iff_open, read_eq_ok_iff_open, same]

/-- A text at the end of one file leaves the others as they are. -/
theorem read_append {target : Path} {added : Text} (appended : tree.append folder target added = .ok grown)
    (apart : tree.locate folder target ≠ tree.locate folder path) (read : tree.read folder path = .ok content) :
    grown.read folder path = .ok content := by
  simp only [append] at appended
  cases writable : tree.writable folder target with
  | error fault => rw [writable] at appended; cases appended
  | ok names =>
    rw [writable] at appended
    obtain ⟨targeted, noFolder⟩ := of_writable writable
    obtain ⟨found, located, entryFound⟩ := read_eq_ok_iff.mp read
    have different : found ≠ names := by
      rintro rfl
      exact apart (targeted.trans located.symm)
    have kept (entry : FileEntry) : (tree.put names entry).read folder path = .ok content :=
      read_eq_ok_iff.mpr ⟨found, locate_put noFolder located, (entry_put_of_ne different).trans entryFound⟩
    -- What is put depends on what was there before, but it is put there in every case.
    simp only [Except.map, Except.ok.injEq] at appended
    rw [← appended]
    split
    · exact kept _
    · exact read
    · exact kept _

end Masthead.FileTree
