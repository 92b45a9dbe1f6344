import Masthead.Proofs.Command.Report
import Masthead.Proofs.Diff.Applied
import Masthead.Proofs.FileTree.Alike

/-!
# Files worked on one after the other

What becomes of a file depends on its own text only, as long as no other path leads to it. So the
reports on several files, the diffs saved and the texts written are those of each file alone, in the
order of the files, whether the files are written or not.
-/

namespace Masthead.Command.Job

open Masthead.Header

/-! ## One file alone -/

/-- The report on a file with some text, or on one that cannot be read. -/
def reportOf (job : Job) (path : Path) : Option Text → FileReport
  | none => ⟨path, .failed, none⟩
  | some old => ⟨path, (job.plan path old).action, (job.plan path old).notice.map Notice.message⟩

/-- The diff that is saved for a file with some text, which is empty where nothing changes. -/
def diffOf (job : Job) (path : Path) : Option Text → Text
  | none => []
  | some old =>
    if (job.plan path old).text = old then []
    else Diff.unified (Path.display (some job.base) path) old (job.plan path old).text

/-- A diff is saved just where the text of a file changes. -/
theorem diffOf_eq_nil_iff (job : Job) (path : Path) (old : Text) :
    job.diffOf path (some old) = [] ↔ (job.plan path old).text = old := by
  unfold diffOf
  dsimp only
  split
  · next same => exact iff_of_true rfl same
  · rw [Diff.unified_eq_nil_iff, eq_comm]

/-- The text planned for a file can be read from its old text and the diff that is saved. -/
theorem applied?_diffOf (job : Job) (path : Path) (old : Text) :
    Diff.applied? (Path.display (some job.base) path) old (job.diffOf path (some old))
      = some (job.plan path old).text := by
  unfold diffOf
  dsimp only
  split
  · next same => rw [same]; rfl
  · exact Diff.applied?_unified _ _ _

/-- What stands at the names of a file when it has been written: a new text where a text was. -/
def entryOf (job : Job) (path : Path) : FileEntry → FileEntry
  | .text old => .text (job.plan path old).text
  | entry => entry

/-- What has been saved in the diff file, if there is one. -/
def SavedAs (job : Job) (tree : FileTree) (saved : Text) : Prop :=
  ∀ target, job.saveDiff = some target →
    ∃ names, tree.writable job.folder target = .ok names ∧ tree.entry? names = some (.text saved)

/-- The text of a file, if it can be read. -/
def textOf (job : Job) (tree : FileTree) (path : Path) : Option Text :=
  (tree.read job.folder path).toOption

/-- Whether names are not those of the diff file. -/
def OffDiff (job : Job) (tree : FileTree) (names : List Text) : Prop :=
  ∀ target, job.saveDiff = some target → tree.locate job.folder target ≠ .ok names

/-- What has become of a tree when some files have been worked on. -/
structure Progress (job : Job) (tree : FileTree) (paths : List Path) (saved : Text) (after : FileTree) : Prop where
  alike : tree.Alike after
  saved : job.SavedAs after (saved ++ paths.flatMap fun path => job.diffOf path (job.textOf tree path))
  written : ∀ path ∈ paths, ∀ names entry, tree.locate job.folder path = .ok names → tree.entry? names = some entry →
    after.entry? names = some (if job.isDryRun then entry else job.entryOf path entry)
  others : ∀ names, (∀ path ∈ paths, tree.locate job.folder path ≠ .ok names) → job.OffDiff tree names →
    after.entry? names = tree.entry? names

variable {job : Job} {path : Path} {session after : Session} {saved : Text}

/-- What a path to one of the files leads to. -/
theorem Progress.open_eq {tree other : FileTree} {paths : List Path} (progress : job.Progress tree paths saved other)
    (member : path ∈ paths) :
    (other.open? job.folder path).toOption
      = (tree.open? job.folder path).toOption.map fun entry => if job.isDryRun then entry else job.entryOf path entry := by
  rw [FileTree.open?, FileTree.open?, progress.alike.locate_eq]
  cases located : tree.locate job.folder path with
  | error fault => rfl
  | ok names =>
    dsimp only
    cases found : tree.entry? names with
    | some entry => rw [progress.written path member names entry located found]; rfl
    | none =>
      rcases progress.alike names with same | ⟨content, written, present, -⟩
      · rw [← same, found]; rfl
      · rw [found] at present; cases present

/-! ## One step -/

theorem OffDiff.of_alike {tree other : FileTree} {names : List Text} (off : job.OffDiff tree names)
    (alike : tree.Alike other) : job.OffDiff other names := by
  intro target given
  rw [alike.locate_eq]
  exact off target given

theorem SavedAs.of_alike {tree other : FileTree} (savedAs : job.SavedAs tree saved) (alike : tree.Alike other)
    (same : ∀ names, ¬ job.OffDiff tree names → other.entry? names = tree.entry? names) : job.SavedAs other saved := by
  intro target given
  obtain ⟨names, writable, found⟩ := savedAs target given
  refine ⟨names, (alike.writable_eq _ _).trans writable, (same names ?_).trans found⟩
  intro off
  exact off target given (FileTree.of_writable writable).1

/-- A text that is put over what has been saved. -/
theorem exists_save (savedAs : job.SavedAs session.tree saved) (diff : Text) :
    ∃ after, job.save diff session = (after, none) ∧ session.tree.Alike after.tree ∧
      job.SavedAs after.tree (saved ++ diff) ∧
      ∀ names, job.OffDiff session.tree names → after.tree.entry? names = session.tree.entry? names := by
  unfold save
  cases given : job.saveDiff with
  | none =>
    refine ⟨session, rfl, .refl _, ?_, fun _ _ => rfl⟩
    intro target other
    rw [given] at other
    cases other
  | some target =>
    obtain ⟨names, writable, found⟩ := savedAs target given
    -- What is appended to a file that can be read is written over it, so no other file is touched.
    have appended : session.tree.append job.folder target diff
        = .ok (session.tree.put names (.text (saved ++ diff))) := by
      rw [FileTree.append, writable]
      simp only [Except.map, found]
    have alike := FileTree.alike_put found (saved ++ diff)
    have located := (FileTree.of_writable writable).1
    have nonempty : names ≠ [] := FileTree.ne_nil_of_entry (FileTree.of_writable writable).2
    refine ⟨{ session with tree := session.tree.put names (.text (saved ++ diff)) }, ?_, alike, ?_, ?_⟩
    · simp only [appended]
    · intro other otherGiven
      rw [given, Option.some.injEq] at otherGiven
      subst otherGiven
      exact ⟨names, (alike.writable_eq _ _).trans writable, FileTree.entry_put_self nonempty⟩
    · intro other off
      refine FileTree.entry_put_of_ne fun same => ?_
      exact off target given (same ▸ located)

/-- A diff goes to the end of the diff file, and nothing else is touched. -/
theorem exists_emitDiff (savedAs : job.SavedAs session.tree saved) (name : Path) {old new : Text}
    (differs : old ≠ new) :
    ∃ after, job.emitDiff name old new session = (after, none) ∧ session.tree.Alike after.tree ∧
      job.SavedAs after.tree (saved ++ Diff.unified name old new) ∧
      ∀ names, job.OffDiff session.tree names → after.tree.entry? names = session.tree.entry? names := by
  unfold emitDiff
  split
  · next quiet =>
    -- Nothing is shown or saved, so that there is no diff file to speak of.
    have missing : job.saveDiff = none := by
      simp only [Bool.or_eq_true, decide_eq_true_eq, differs, false_or, Bool.and_eq_true,
        Option.isNone_iff_eq_none] at quiet
      exact quiet.2
    refine ⟨session, rfl, .refl _, ?_, fun _ _ => rfl⟩
    intro target given
    rw [missing] at given
    cases given
  · have treeEqual := (tree_showDiffOf (Diff.unified name old new) : (job.showDiffOf _ session).tree = _)
    rw [← treeEqual] at savedAs ⊢
    exact exists_save savedAs _

/-- A file that has been read is written without fault, unless the run is a dry one. -/
theorem exists_write {old : Text} (read : session.tree.read job.folder path = .ok old) (text : Text) :
    ∃ after names, job.write path text session = (after, none) ∧ session.tree.Alike after.tree ∧
      session.tree.locate job.folder path = .ok names ∧
      after.tree.entry? names = some (.text (if job.isDryRun then old else text)) ∧
      ∀ other, other ≠ names → after.tree.entry? other = session.tree.entry? other := by
  obtain ⟨names, writable, located, found⟩ := FileTree.writable_of_read read
  unfold write
  split
  · exact ⟨session, names, rfl, .refl _, located, found, fun _ _ => rfl⟩
  · have written : session.tree.write job.folder path text = .ok (session.tree.put names (.text text)) := by
      rw [FileTree.write, writable]
      rfl
    have nonempty : names ≠ [] := FileTree.ne_nil_of_entry (FileTree.of_writable writable).2
    refine ⟨{ session with tree := session.tree.put names (.text text) }, names, ?_, FileTree.alike_put found text,
      located, ?_, fun other different => FileTree.entry_put_of_ne different⟩
    · simp only [written]
    · exact FileTree.entry_put_self nonempty

/-- A file whose text is the planned one, or that has none, is left as it is. -/
theorem Progress.unchanged {tree : FileTree} (savedAs : job.SavedAs tree saved)
    (silent : job.diffOf path (job.textOf tree path) = [])
    (kept : ∀ names entry, tree.locate job.folder path = .ok names → tree.entry? names = some entry →
      job.entryOf path entry = entry) :
    job.Progress tree [path] saved tree := by
  refine ⟨.refl _, ?_, ?_, fun _ _ _ => rfl⟩
  · rwa [List.flatMap_singleton, silent, List.append_nil]
  · intro other member names entry located found
    rw [List.mem_singleton.mp member] at located ⊢
    rw [kept names entry located found, ite_self]
    exact found

theorem textOf_of_read {tree : FileTree} {old : Text} (read : tree.read job.folder path = .ok old) :
    job.textOf tree path = some old := by
  rw [textOf, read]
  rfl

/-- The plan for a file that has been read is carried out without fault. -/
theorem exists_carryOut {old : Text} (savedAs : job.SavedAs session.tree saved)
    (apart : ∀ names, session.tree.locate job.folder path = .ok names → job.OffDiff session.tree names)
    (read : session.tree.read job.folder path = .ok old) :
    ∃ after, job.carryOut path old (job.plan path old) session = (after, none) ∧
      job.Progress session.tree [path] saved after.tree := by
  obtain ⟨names, located, found⟩ := FileTree.read_eq_ok_iff.mp read
  have here {other : List Text} (sameNames : session.tree.locate job.folder path = .ok other) : other = names :=
    Except.ok.inj (sameNames.symm.trans located)
  have text := textOf_of_read read
  unfold carryOut
  by_cases same : (job.plan path old).text = old
  · rw [if_pos same]
    refine ⟨session, rfl, .unchanged savedAs (by simp [text, diffOf, same]) ?_⟩
    intro other entry otherLocated otherFound
    rw [here otherLocated, found, Option.some.injEq] at otherFound
    rw [← otherFound, entryOf, same]
  · -- The diff is saved before the text is written, in another file, so that the text is still the one read.
    obtain ⟨shown, emitted, alike, savedNow, off⟩ :=
      exists_emitDiff savedAs (Path.display (some job.base) path) (Ne.symm same)
    have readNow : shown.tree.read job.folder path = .ok old := by
      rw [FileTree.read_congr (alike.locate_eq _ _) fun names sameNames => off names (apart names sameNames)]
      exact read
    obtain ⟨after, writtenNames, wrote, writtenAlike, writtenLocated, writtenFound, writtenOthers⟩ :=
      exists_write readNow (job.plan path old).text
    have writtenHere : writtenNames = names := here ((alike.locate_eq _ _).symm.trans writtenLocated)
    subst writtenHere
    rw [if_neg same, emitted]
    refine ⟨after, wrote, alike.trans writtenAlike, ?_, ?_, ?_⟩
    · have savedThen : job.SavedAs after.tree _ := savedNow.of_alike writtenAlike fun names isDiff =>
        writtenOthers names fun equal => isDiff (equal ▸ (apart _ located).of_alike alike)
      simpa [text, diffOf, same] using savedThen
    · intro other member others entry otherLocated otherFound
      rw [List.mem_singleton.mp member] at otherLocated ⊢
      rw [here otherLocated, found, Option.some.injEq] at otherFound
      rw [here otherLocated, writtenFound, ← otherFound, entryOf, apply_ite FileEntry.text]
    · intro names elsewhere offDiff
      have different : names ≠ writtenNames := fun equal => elsewhere path List.mem_cons_self (equal ▸ located)
      exact (writtenOthers names different).trans (off names offDiff)

/-- What working on one file comes to. -/
theorem process_spec (savedAs : job.SavedAs session.tree saved)
    (apart : ∀ names, session.tree.locate job.folder path = .ok names → job.OffDiff session.tree names) :
    (job.process session path).2 = job.reportOf path (job.textOf session.tree path) ∧
      job.Progress session.tree [path] saved (job.process session path).1.tree := by
  unfold process tryProcess
  cases read : session.tree.read job.folder path with
  | error fault =>
    have unread : job.textOf session.tree path = none := by
      rw [textOf, read]
      rfl
    -- What cannot be read is reported, and nothing is written: there is no text at its names.
    refine ⟨by rw [unread]; rfl, Progress.unchanged savedAs (by rw [unread]; rfl) ?_⟩
    intro names entry located found
    cases entry with
    | text old =>
      rw [FileTree.read_eq_ok_iff.mpr ⟨names, located, found⟩] at read
      cases read
    | _ => rfl
  | ok old =>
    obtain ⟨after, carried, progress⟩ := exists_carryOut savedAs apart read
    rw [textOf_of_read read]
    dsimp only
    rw [carried]
    exact ⟨rfl, progress⟩

/-! ## All files -/

/-- What has become of one file and then of others is what has become of all of them. -/
theorem Progress.cons {tree between after : FileTree} {paths : List Path}
    (first : job.Progress tree [path] saved between)
    (unread : ∀ other ∈ paths, job.textOf between other = job.textOf tree other)
    (unchanged : ∀ other ∈ paths, ∀ names, tree.locate job.folder other = .ok names →
      between.entry? names = tree.entry? names)
    (apart : ∀ other ∈ paths, tree.Apart job.folder path other)
    (offDiff : ∀ names, tree.locate job.folder path = .ok names → job.OffDiff tree names)
    (rest : job.Progress between paths (saved ++ job.diffOf path (job.textOf tree path)) after) :
    job.Progress tree (path :: paths) saved after := by
  refine ⟨first.alike.trans rest.alike, ?_, ?_, ?_⟩
  · have diffs : paths.flatMap (fun other => job.diffOf other (job.textOf between other))
        = paths.flatMap fun other => job.diffOf other (job.textOf tree other) := by
      rw [List.flatMap_def, List.flatMap_def, List.map_congr_left fun other member => by rw [unread other member]]
    have savedNow := rest.saved
    rw [diffs, List.append_assoc] at savedNow
    exact savedNow
  · intro other member names entry located found
    rcases List.mem_cons.mp member with rfl | later
    · -- The files behind it do not touch this one.
      have written := first.written other List.mem_cons_self names entry located found
      rw [rest.others names ?_ ((offDiff names located).of_alike first.alike)]
      · exact written
      · intro next nextMember
        rw [first.alike.locate_eq]
        exact apart next nextMember names located
    · refine rest.written other later names entry ((first.alike.locate_eq _ _).trans located) ?_
      exact (unchanged other later names located).trans found
  · intro names elsewhere off
    rw [rest.others names ?_ (off.of_alike first.alike)]
    · refine first.others names ?_ off
      intro other member
      rw [List.mem_singleton.mp member]
      exact elsewhere path List.mem_cons_self
    · intro other member
      rw [first.alike.locate_eq]
      exact elsewhere other (List.mem_cons_of_mem _ member)

/-- Files to which no two paths lead are worked on as each of them alone. -/
theorem processAll_spec {paths : List Path} (savedAs : job.SavedAs session.tree saved)
    (apart : paths.Pairwise (session.tree.Apart job.folder))
    (offDiff : ∀ path ∈ paths, ∀ names, session.tree.locate job.folder path = .ok names →
      job.OffDiff session.tree names) :
    (job.processAll session paths).2 = paths.map (fun path => job.reportOf path (job.textOf session.tree path)) ∧
      job.Progress session.tree paths saved (job.processAll session paths).1.tree := by
  induction paths generalizing session saved with
  | nil =>
    refine ⟨rfl, .refl _, ?_, ?_, fun _ _ _ => rfl⟩
    · simpa [processAll] using savedAs
    · intro path member
      cases member
  | cons path paths inductionHypothesis =>
    obtain ⟨pathApart, pathsApart⟩ := List.pairwise_cons.mp apart
    obtain ⟨reported, first⟩ := process_spec savedAs (offDiff path List.mem_cons_self)
    have located (other : Path) := first.alike.locate_eq job.folder other
    have unchanged : ∀ other ∈ paths, ∀ names, session.tree.locate job.folder other = .ok names →
        (job.process session path).1.tree.entry? names = session.tree.entry? names := by
      intro other member names otherLocated
      refine first.others names ?_ (offDiff other (List.mem_cons_of_mem _ member) names otherLocated)
      intro same sameMember here
      rw [List.mem_singleton.mp sameMember] at here
      exact pathApart other member names here otherLocated
    have unread : ∀ other ∈ paths,
        job.textOf (job.process session path).1.tree other = job.textOf session.tree other := fun other member => by
      rw [textOf, textOf, FileTree.read_congr (located other) (unchanged other member)]
    have savedNow := first.saved
    rw [List.flatMap_singleton] at savedNow
    -- The other files stand in the tree that the first one leaves as they stood before it.
    obtain ⟨reports, rest⟩ := inductionHypothesis savedNow
      (pathsApart.imp fun {other next} otherApart names => by
        rw [located, located]
        exact otherApart names)
      (fun other member names => by
        rw [located]
        exact fun otherLocated =>
          (offDiff other (List.mem_cons_of_mem _ member) names otherLocated).of_alike first.alike)
    refine ⟨?_, ?_⟩
    · rw [processAll, List.map_cons]
      show (job.process session path).2 :: (job.processAll (job.process session path).1 paths).2 = _
      rw [reported, reports, List.map_congr_left fun other member => by rw [unread other member]]
    · exact first.cons unread unchanged pathApart (offDiff path List.mem_cons_self) rest

end Masthead.Command.Job
