import Masthead.Command.Job
import Masthead.Proofs.FileTree
import Masthead.Proofs.Document.RoundTrip

/-!
# What a report says of the file

A file is written whenever the text of the edited document is not the text that was read, and that
is how a reported change is checked. It is not checked in the other direction: a document that was
not edited may still be written with other terminators than it was read with.
-/

namespace Masthead.Command.Job

open Masthead.Header

variable {job : Job} {path : Path} {session after : Session}

/-! ## The plan -/

/-- An action that is no change goes with the document as it was. -/
theorem edit_of_isChange_eq_false {context : FileContext} {document : Document}
    (unchanged : (job.edit context document).1.isChange = false) : (job.edit context document).2.2 = document := by
  have ofOutcome (outcome : Outcome) (kept : (headerEdit document outcome).1.isChange = false) :
      (headerEdit document outcome).2.2 = document := by
    cases outcome with
    | inserted position lines notice => cases kept
    | updated bounds lines => cases kept
    | skipped notice => rfl
  -- Entries always count as changes; every other operation that reports none gives back what it was given.
  cases operation : job.operation with
  | check =>
    simp only [edit, operation]
    split <;> rfl
  | insert =>
    simp only [edit, operation] at unchanged ⊢
    exact ofOutcome _ unchanged
  | update =>
    simp only [edit, operation] at unchanged ⊢
    exact ofOutcome _ unchanged
  | refresh =>
    simp only [edit, operation] at unchanged ⊢
    split at unchanged
    · cases unchanged
    · split <;> rfl
  | version =>
    simp only [edit, operation] at unchanged
    cases unchanged
  | todo =>
    simp only [edit, operation] at unchanged
    cases unchanged

/-- Only an operation that writes files reports a change. -/
theorem modifies_of_plan_isChange {old : Text} (changed : (job.plan path old).action.isChange = true) :
    job.operation.modifies = true := by
  cases operation : job.operation with
  | check =>
    simp only [plan, edit, operation] at changed
    split at changed
    · cases changed
    · split at changed <;> cases changed
  | _ => rfl

theorem plan_text_ne {old : Text} (changed : (job.plan path old).action.isChange = true) :
    (job.plan path old).text ≠ old := by
  intro same
  simp only [plan] at changed same
  split at changed
  · cases changed
  · next differs => exact differs ⟨changed, same⟩

/-- Without a reported change, the text stays if the edit itself was a change, and otherwise exactly
if it is read back as it is written. -/
theorem plan_text_eq_iff {old : Text} (unchanged : (job.plan path old).action.isChange = false) :
    (job.plan path old).text = old ↔
      (job.edit (job.contextFor path) (Document.parse old)).1.isChange = true ∨ (Document.parse old).toText = old := by
  simp only [plan] at unchanged ⊢
  -- A change that is reported as none is one whose text is the old one; otherwise nothing was edited.
  cases edited : (job.edit (job.contextFor path) (Document.parse old)).1.isChange with
  | true =>
    split at unchanged
    · next same => simp [same.2]
    · rw [edited] at unchanged
      cases unchanged
  | false => rw [edit_of_isChange_eq_false edited]; simp

/-! ## Carrying it out -/

theorem tree_showDiffOf (diff : Text) : (job.showDiffOf diff session).tree = session.tree := by
  unfold showDiffOf
  split <;> rfl

theorem tree_of_emitDiff {name : Path} {old new : Text} (emitted : job.emitDiff name old new session = (after, none)) :
    after.tree = session.tree ∨
      ∃ target diff, job.saveDiff = some target ∧ session.tree.append job.folder target diff = .ok after.tree := by
  simp only [emitDiff] at emitted
  split at emitted
  · cases emitted
    exact .inl rfl
  · simp only [save, tree_showDiffOf] at emitted
    split at emitted
    · cases emitted
      exact .inl (tree_showDiffOf _)
    · next target saved =>
      split at emitted
      · cases emitted
      · next appended =>
        cases emitted
        exact .inr ⟨target, _, saved, appended⟩

/-- Whether the diffs of a job go to another file, if its own file is not written after them. -/
def KeepsDiffApart (job : Job) (path : Path) (session : Session) : Prop :=
  job.isDryRun = true → ∀ target, job.saveDiff = some target →
    session.tree.locate job.folder target ≠ session.tree.locate job.folder path

/-- What a file holds when a plan for it has been carried out. -/
theorem read_carryOut {old : Text} {plan : Plan} (apart : job.KeepsDiffApart path session)
    (read : session.tree.read job.folder path = .ok old)
    (carried : job.carryOut path old plan session = (after, none)) :
    after.tree.read job.folder path = .ok (if job.isDryRun then old else plan.text) := by
  simp only [carryOut] at carried
  split at carried
  · next same =>
    cases carried
    rw [same, ite_self]
    exact read
  · split at carried
    · cases carried
    · next emitted =>
      simp only [write] at carried
      split at carried
      · next dry =>
        -- The file is not written, but a diff may have been saved.
        cases carried
        rw [if_pos dry]
        rcases tree_of_emitDiff emitted with same | ⟨target, diff, saved, appended⟩
        · rwa [same]
        · exact FileTree.read_append appended (apart dry target saved) read
      · next live =>
        rw [if_neg live]
        split at carried
        · cases carried
        · next written =>
          cases carried
          exact FileTree.read_write written

theorem exists_of_tryProcess {report : FileReport} (done : job.tryProcess path session = (after, .ok report)) :
    ∃ old, session.tree.read job.folder path = .ok old ∧ report.action = (job.plan path old).action ∧
      job.carryOut path old (job.plan path old) session = (after, none) := by
  simp only [tryProcess] at done
  split at done
  · cases done
  · next old read =>
    split at done
    · cases done
    · next carried =>
      cases done
      exact ⟨old, read, rfl, carried⟩

/-- A reported change is one. What is reported as no change leaves the file alone exactly if the
operation only looks at it, if the edit came to the same text, or if the text is read back as it is. -/
theorem read_tryProcess {report : FileReport} (live : job.isDryRun = !job.operation.modifies)
    (apart : job.KeepsDiffApart path session) (done : job.tryProcess path session = (after, .ok report)) :
    ∃ old new, session.tree.read job.folder path = .ok old ∧ after.tree.read job.folder path = .ok new ∧
      (report.action.isChange = true → new ≠ old) ∧
      (report.action.isChange = false → (new = old ↔
        job.operation.modifies = false ∨
          (job.edit (job.contextFor path) (Document.parse old)).1.isChange = true ∨
          (old.getLast? ≠ some '\r' ∧ ∃ ending : LineEnding, ending.UsedThroughout old))) := by
  obtain ⟨old, read, reported, carried⟩ := exists_of_tryProcess done
  have readAfter := read_carryOut apart read carried
  refine ⟨old, _, read, readAfter, ?_, ?_⟩
  · intro changed
    rw [reported] at changed
    rw [live, modifies_of_plan_isChange changed]
    exact plan_text_ne changed
  · intro unchanged
    rw [reported] at unchanged
    rw [live]
    cases writes : job.operation.modifies with
    | false => simp
    | true => simp [plan_text_eq_iff unchanged, Document.toText_parse_eq_iff]

/-- A file that has a header stays as it is when a header is to be inserted. -/
theorem read_tryProcess_headed :
    let job : Job := ⟨.insert, ⟨.builtin, (0 : Int)⟩, .default, none, [], [], false, false, none, false⟩
    let old : Text := "//----\n// Notes\n//----\nfn main();\n"
    let session : Session := ⟨⟨[(["main.rs"], .text old)]⟩, [], []⟩
    ∃ after report, job.tryProcess "main.rs" session = (after, .ok report) ∧ report.action = .unchanged ∧
      after.tree.read [] "main.rs" = .ok old := by
  intro job text session
  have live : job.isDryRun = !job.operation.modifies := rfl
  have apart : job.KeepsDiffApart "main.rs" session := by
    intro dry
    cases dry
  have planned : job.plan "main.rs" text = ⟨.unchanged, none, text⟩ := by decide +kernel
  have found : session.tree.read job.folder "main.rs" = .ok text := rfl
  have done : job.tryProcess "main.rs" session = (session, .ok ⟨"main.rs", .unchanged, none⟩) := by
    simp only [tryProcess, found, planned]
    rfl
  obtain ⟨old, new, read, readAfter, -, kept⟩ := read_tryProcess live apart done
  have oldEqual : text = old := Except.ok.inj (found.symm.trans read)
  have back : (Document.parse text).toText = text := by decide +kernel
  have same : new = old := (kept rfl).mpr (.inr (.inr (Document.toText_parse_eq_iff.mp (oldEqual ▸ back))))
  refine ⟨session, ⟨"main.rs", .unchanged, none⟩, done, rfl, ?_⟩
  rw [oldEqual, ← same]
  exact readAfter

/-- The same file with another terminator below its header: it is written, though nothing has changed. -/
theorem read_tryProcess_mixed :
    let job : Job := ⟨.insert, ⟨.builtin, (0 : Int)⟩, .default, none, [], [], false, false, none, false⟩
    let old : Text := "//----\n// Notes\n//----\r\nfn main();\n"
    let new : Text := "//----\n// Notes\n//----\nfn main();\n"
    let session (content : Text) : Session := ⟨⟨[(["main.rs"], .text content)]⟩, [], []⟩
    job.tryProcess "main.rs" (session old) = (session new, .ok ⟨"main.rs", .unchanged, none⟩) ∧
      (session old).tree.read [] "main.rs" = .ok old ∧ (session new).tree.read [] "main.rs" = .ok new ∧ new ≠ old := by
  intro job old new session
  have planned : job.plan "main.rs" old = ⟨.unchanged, none, new⟩ := by decide +kernel
  refine ⟨?_, rfl, rfl, by decide⟩
  have read : (session old).tree.read job.folder "main.rs" = .ok old := rfl
  simp only [tryProcess, read, planned]
  rfl

end Masthead.Command.Job
