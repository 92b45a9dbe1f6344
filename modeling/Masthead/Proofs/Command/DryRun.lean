import Masthead.Command.Run
import Masthead.Proofs.Command.Processing

/-!
# A dry run tells what a run would do

A run with and a run without the flag for a dry run go through the same steps until the files are
worked on, and there they differ in what is written only. Their reports and the diffs that they save
are the same, and the texts that the one leaves are those that the other has shown.
-/

namespace Masthead.Command

open Masthead.Header

/-! ## A run up to its files -/

/-- A run that is about to work on its files. -/
structure Preparation where
  job : Job
  files : List Path
  session : Session

/-- A run up to its files with a configuration, or how it ends before. -/
def prepareWith (surroundings : Surroundings) (operation : Operation) (arguments : Arguments) (loaded : Config)
    (session : Session) : Except Result Preparation :=
  let config := { loaded with headerStyle := arguments.style.getD loaded.headerStyle }
  let (templates, told) :=
    loadTemplates surroundings.tree surroundings.folder arguments.templates
  let gathered := gather surroundings.tree surroundings.folder arguments.paths
  let skipped := gathered.skipped.map fun path =>
    "Skipping: ".toList ++ path ++ " (unknown comment syntax)".toList
  let session := tell arguments.verbosity (told ++ skipped) session
  match gathered.fault with
  | some fault => .error (failed session fault)
  | none =>
    match clearDiff surroundings.folder arguments.saveDiff session with
    | (session, some fault) => .error (failed session fault)
    | (session, none) =>
      .ok ⟨jobFor surroundings operation arguments config templates, arrange gathered.files, session⟩

/-- A run up to its files, or how it ends before. -/
def prepare (surroundings : Surroundings) (operation : Operation) (arguments : Arguments) : Except Result Preparation :=
  let (loaded, told) := loadConfig surroundings arguments
  let session := tell arguments.verbosity told ⟨surroundings.tree, [], []⟩
  match loaded with
  | .error fault => .error (failed session fault)
  | .ok config => prepareWith surroundings operation arguments config session

namespace Preparation

/-- The session and the reports when a run has worked on its files. -/
def worked (surroundings : Surroundings) (arguments : Arguments) (prepared : Preparation) : Session × List FileReport :=
  let look := lookFor surroundings arguments prepared.job
  prepared.job.processAll (prepared.session.say (look.startMessage prepared.files.length)) prepared.files

/-- What is left of a run. -/
def finish (surroundings : Surroundings) (arguments : Arguments) (prepared : Preparation) : Result :=
  workOn (lookFor surroundings arguments prepared.job) prepared.job surroundings.milliseconds arguments.reportJson
    prepared.files prepared.session

/-- What is prepared, with or without the flag for a dry run. -/
def asDryRun (isDryRun : Bool) (prepared : Preparation) : Preparation :=
  { prepared with job := { prepared.job with isDryRun } }

/-- What is prepared, with its files in an order. -/
def inOrder (order : List Path → List Path) (prepared : Preparation) : Preparation :=
  { prepared with files := order prepared.files }

end Preparation

variable (surroundings : Surroundings) (operation : Operation) (arguments : Arguments)

/-- A run that works on its files in some order. -/
def runInOrder (order : List Path → List Path) : Result :=
  match prepare surroundings operation arguments with
  | .error result => result
  | .ok prepared => (prepared.inOrder order).finish surroundings arguments

/-- The reports of a run that works on its files in some order. -/
def reportsInOrder (order : List Path → List Path) : List FileReport :=
  match prepare surroundings operation arguments with
  | .error _ => []
  | .ok prepared => ((prepared.inOrder order).worked surroundings arguments).2

theorem runWith_eq (loaded : Config) (session : Session) :
    runWith surroundings operation arguments loaded session
      = match prepareWith surroundings operation arguments loaded session with
        | .error result => result
        | .ok prepared => prepared.finish surroundings arguments := by
  rw [runWith, prepareWith]
  generalize loadTemplates surroundings.tree surroundings.folder arguments.templates = templates
  dsimp only
  generalize tell arguments.verbosity _ session = told
  cases (gather surroundings.tree surroundings.folder arguments.paths).fault with
  | some fault => rfl
  | none =>
    dsimp only
    generalize clearDiff surroundings.folder arguments.saveDiff told = cleared
    obtain ⟨cleared, fault⟩ := cleared
    cases fault <;> rfl

/-- A run works on its files in the order in which they have been arranged. -/
theorem runInOrder_id : runInOrder surroundings operation arguments id = run surroundings operation arguments := by
  rw [run, runInOrder, prepare]
  generalize loadConfig surroundings arguments = found
  obtain ⟨loaded, told⟩ := found
  cases loaded with
  | error fault => rfl
  | ok loaded => exact (runWith_eq surroundings operation arguments loaded _).symm

theorem prepareWith_dryRun (loaded : Config) (session : Session) (isDryRun : Bool) :
    prepareWith surroundings operation { arguments with dryRun := isDryRun } loaded session
      = (prepareWith surroundings operation arguments loaded session).map
          (Preparation.asDryRun (isDryRun || !operation.modifies)) := by
  rw [prepareWith, prepareWith]
  generalize loadTemplates surroundings.tree surroundings.folder arguments.templates = templates
  dsimp only
  have verbosity : Arguments.verbosity { arguments with dryRun := isDryRun } = arguments.verbosity := rfl
  rw [verbosity]
  generalize tell arguments.verbosity _ session = told
  cases (gather surroundings.tree surroundings.folder arguments.paths).fault with
  | some fault => rfl
  | none =>
    dsimp only
    generalize clearDiff surroundings.folder arguments.saveDiff told = cleared
    obtain ⟨cleared, fault⟩ := cleared
    cases fault <;> rfl

/-- The flag is looked at for the first time when the files are worked on. -/
theorem prepare_dryRun (isDryRun : Bool) :
    prepare surroundings operation { arguments with dryRun := isDryRun }
      = (prepare surroundings operation arguments).map (Preparation.asDryRun (isDryRun || !operation.modifies)) := by
  have loading : loadConfig surroundings { arguments with dryRun := isDryRun }
      = loadConfig surroundings arguments := rfl
  have verbosity : Arguments.verbosity { arguments with dryRun := isDryRun } = arguments.verbosity := rfl
  rw [prepare, prepare, loading, verbosity]
  generalize loadConfig surroundings arguments = found
  obtain ⟨loaded, told⟩ := found
  cases loaded with
  | error fault => rfl
  | ok loaded => exact prepareWith_dryRun surroundings operation arguments loaded _ isDryRun

/-! ## What is prepared -/

/-- What is known of a run that is about to work on its files. -/
structure Preparation.Follows (surroundings : Surroundings) (operation : Operation) (arguments : Arguments)
    (prepared : Preparation) : Prop where
  operation : prepared.job.operation = operation
  folder : prepared.job.folder = surroundings.folder
  saveDiff : prepared.job.saveDiff = arguments.saveDiff
  tree : prepared.session.tree = surroundings.tree.withFile surroundings.folder arguments.saveDiff []
  cleared : ∀ target, arguments.saveDiff = some target →
    surroundings.tree.write surroundings.folder target [] = .ok prepared.session.tree

variable {surroundings operation arguments} {prepared : Preparation}

theorem tree_tell (verbosity : Verbosity) (lines : List Text) (session : Session) :
    (tell verbosity lines session).tree = session.tree := by
  unfold tell
  split <;> rfl

theorem tree_clearDiff {folder : List Text} {target : Option Path} {session cleared : Session}
    (clears : clearDiff folder target session = (cleared, none)) :
    cleared.tree = session.tree.withFile folder target [] ∧
      ∀ path, target = some path → session.tree.write folder path [] = .ok cleared.tree := by
  unfold clearDiff at clears
  cases target with
  | none =>
    cases clears
    exact ⟨rfl, fun path given => nomatch given⟩
  | some path =>
    dsimp only at clears
    cases written : session.tree.write folder path [] with
    | error fault =>
      rw [written] at clears
      cases clears
    | ok tree =>
      rw [written] at clears
      cases clears
      refine ⟨?_, fun other given => ?_⟩
      · rw [FileTree.withFile, written]
        rfl
      · rw [← Option.some.inj given, written]

theorem follows_prepareWith {loaded : Config} {session : Session} (sameTree : session.tree = surroundings.tree)
    (isPrepared : prepareWith surroundings operation arguments loaded session = .ok prepared) :
    prepared.Follows surroundings operation arguments := by
  rw [prepareWith] at isPrepared
  dsimp only at isPrepared
  split at isPrepared
  · cases isPrepared
  · split at isPrepared
    · cases isPrepared
    · next clears =>
      cases isPrepared
      have trees := tree_clearDiff clears
      rw [tree_tell, sameTree] at trees
      exact ⟨rfl, rfl, rfl, trees.1, trees.2⟩

theorem follows_prepare (isPrepared : prepare surroundings operation arguments = .ok prepared) :
    prepared.Follows surroundings operation arguments := by
  rw [prepare] at isPrepared
  dsimp only at isPrepared
  split at isPrepared
  · cases isPrepared
  · exact follows_prepareWith (tree_tell _ _ _) isPrepared

/-! ## Work on the files -/

/-- Whether all files that a run works on, the diff file and the report lead to different names, apart from
the last two. -/
structure KeepsApart (surroundings : Surroundings) (arguments : Arguments) (files : List Path) : Prop where
  pairwise : files.Pairwise (surroundings.tree.Apart surroundings.folder)
  saveDiff : ∀ path ∈ files, ∀ target, arguments.saveDiff = some target →
    surroundings.tree.Apart surroundings.folder path target
  reportJson : ∀ path ∈ files, ∀ target, arguments.reportJson = some target →
    surroundings.tree.Apart surroundings.folder path target

theorem KeepsApart.perm {files others : List Path} (apart : KeepsApart surroundings arguments files)
    (permuted : others.Perm files) : KeepsApart surroundings arguments others where
  pairwise := apart.pairwise.perm permuted.symm FileTree.Apart.symm
  saveDiff path member := apart.saveDiff path (permuted.mem_iff.mp member)
  reportJson path member := apart.reportJson path (permuted.mem_iff.mp member)

namespace Preparation

theorem Follows.asDryRun (follows : prepared.Follows surroundings operation arguments) (isDryRun : Bool) :
    (prepared.asDryRun isDryRun).Follows surroundings operation arguments :=
  ⟨follows.operation, follows.folder, follows.saveDiff, follows.tree, follows.cleared⟩

theorem Follows.inOrder (follows : prepared.Follows surroundings operation arguments) (order : List Path → List Path) :
    (prepared.inOrder order).Follows surroundings operation arguments :=
  ⟨follows.operation, follows.folder, follows.saveDiff, follows.tree, follows.cleared⟩

theorem Follows.locate_iff (follows : prepared.Follows surroundings operation arguments) {path : Path}
    {names : List Text} :
    prepared.session.tree.locate surroundings.folder path = .ok names ↔
      surroundings.tree.locate surroundings.folder path = .ok names := by
  rw [follows.tree]
  exact FileTree.locate_withFile_iff

theorem Follows.open_eq (follows : prepared.Follows surroundings operation arguments) {path : Path}
    (apart : ∀ target, arguments.saveDiff = some target → surroundings.tree.Apart surroundings.folder path target) :
    (prepared.session.tree.open? surroundings.folder path).toOption
      = (surroundings.tree.open? surroundings.folder path).toOption := by
  rw [follows.tree]
  exact FileTree.open_withFile apart []

/-- Nothing is saved yet. -/
theorem Follows.savedAs (follows : prepared.Follows surroundings operation arguments) :
    prepared.job.SavedAs prepared.session.tree [] := by
  intro target given
  rw [follows.folder]
  obtain ⟨content, writable, found⟩ :=
    FileTree.writable_of_read (FileTree.read_write (follows.cleared target (follows.saveDiff ▸ given)))
  exact ⟨content, writable, found.2⟩

theorem Follows.textOf_eq (follows : prepared.Follows surroundings operation arguments) {path : Path}
    (apart : ∀ target, arguments.saveDiff = some target → surroundings.tree.Apart surroundings.folder path target) :
    prepared.job.textOf prepared.session.tree path = (surroundings.tree.read surroundings.folder path).toOption := by
  rw [Job.textOf, follows.folder]
  exact FileTree.toOption_read_congr (follows.open_eq apart)

/-- Each file is worked on as it stood when the run began. -/
theorem Follows.worked_spec (follows : prepared.Follows surroundings operation arguments)
    (apart : KeepsApart surroundings arguments prepared.files) :
    (prepared.worked surroundings arguments).2
        = prepared.files.map (fun path =>
            prepared.job.reportOf path (surroundings.tree.read surroundings.folder path).toOption) ∧
      prepared.job.Progress prepared.session.tree prepared.files []
        (prepared.worked surroundings arguments).1.tree := by
  -- Clearing the diff file moves no path, so what is apart in the given tree is apart in the prepared one.
  have pairwise : prepared.files.Pairwise (prepared.session.tree.Apart prepared.job.folder) := by
    rw [follows.folder]
    exact apart.pairwise.imp fun {path other} pathApart names => by
      rw [follows.locate_iff, ne_eq, follows.locate_iff]
      exact pathApart names
  have offDiff : ∀ path ∈ prepared.files, ∀ names, prepared.session.tree.locate prepared.job.folder path = .ok names →
      prepared.job.OffDiff prepared.session.tree names := by
    intro path member names located target given
    rw [follows.folder, follows.locate_iff] at located
    rw [follows.folder, ne_eq, follows.locate_iff]
    exact apart.saveDiff path member target (follows.saveDiff ▸ given) names located
  let started := prepared.session.say ((lookFor surroundings arguments prepared.job).startMessage prepared.files.length)
  have savedAs : prepared.job.SavedAs started.tree [] := follows.savedAs
  have spec := Job.processAll_spec savedAs pairwise offDiff
  refine ⟨?_, spec.2⟩
  have texts : ∀ path ∈ prepared.files, prepared.job.textOf prepared.session.tree path
      = (surroundings.tree.read surroundings.folder path).toOption := fun path member =>
    follows.textOf_eq (apart.saveDiff path member)
  exact spec.1.trans (List.map_congr_left fun path member => congrArg _ (texts path member))

/-- Behind the work on the files, only the report is written. -/
theorem tree_finish (prepared : Preparation) :
    (prepared.finish surroundings arguments).tree
      = (prepared.worked surroundings arguments).1.tree.withFile prepared.job.folder
          (if prepared.files.isEmpty then none else arguments.reportJson)
          (reportText prepared.job.operation.name (prepared.worked surroundings arguments).2
            (Summary.ofReports (prepared.worked surroundings arguments).2 surroundings.milliseconds)) := by
  rw [finish, workOn, worked]
  dsimp only
  -- Without files there is no report, and with files there is one if it has been asked for.
  by_cases none : prepared.files.isEmpty
  · rw [if_pos none, if_pos none, List.isEmpty_iff.mp none]
    rfl
  · rw [if_neg none, if_neg none]
    generalize prepared.job.processAll _ prepared.files = processed
    obtain ⟨session, reports⟩ := processed
    cases asked : arguments.reportJson with
    | none => rfl
    | some target =>
      have shownTree (text : Text) : (session.say text).tree = session.tree := rfl
      rw [FileTree.withFile, writeReport]
      dsimp only
      rw [shownTree]
      cases session.tree.write prepared.job.folder target _ <;> rfl

section

variable (follows : prepared.Follows surroundings operation arguments)
  (apart : KeepsApart surroundings arguments prepared.files)

include follows apart

theorem Follows.locate_worked_iff {path : Path} {names : List Text} :
    (prepared.worked surroundings arguments).1.tree.locate surroundings.folder path = .ok names ↔
      surroundings.tree.locate surroundings.folder path = .ok names := by
  rw [(follows.worked_spec apart).2.alike.locate_eq, follows.locate_iff]

/-- What the report does not overwrite. -/
theorem Follows.apart_worked {path : Path}
    (reportApart : ∀ report, arguments.reportJson = some report →
      surroundings.tree.Apart surroundings.folder path report)
    (report : Path) (asked : (if prepared.files.isEmpty then none else arguments.reportJson) = some report) :
    (prepared.worked surroundings arguments).1.tree.Apart surroundings.folder path report := by
  intro names
  rw [follows.locate_worked_iff apart, ne_eq, follows.locate_worked_iff apart]
  refine reportApart report ?_ names
  split at asked
  · cases asked
  · exact asked

/-- What becomes of a file. -/
theorem Follows.open_finish {path : Path} (member : path ∈ prepared.files) :
    ((prepared.finish surroundings arguments).tree.open? surroundings.folder path).toOption
      = (surroundings.tree.open? surroundings.folder path).toOption.map fun entry =>
          if prepared.job.isDryRun then entry else prepared.job.entryOf path entry := by
  have progress := (follows.worked_spec apart).2.open_eq member
  rw [follows.folder, follows.open_eq (apart.saveDiff path member)] at progress
  rw [tree_finish, follows.folder,
    FileTree.open_withFile (follows.apart_worked apart (apart.reportJson path member)), progress]

/-- What has been saved of the diffs when the files have been worked on. -/
theorem Follows.saved_worked {target : Path} (given : arguments.saveDiff = some target) :
    (prepared.worked surroundings arguments).1.tree.read surroundings.folder target
      = .ok (prepared.files.flatMap fun path =>
          prepared.job.diffOf path (surroundings.tree.read surroundings.folder path).toOption) := by
  obtain ⟨names, writable, found⟩ := (follows.worked_spec apart).2.saved target (follows.saveDiff.trans given)
  rw [follows.folder] at writable
  refine FileTree.read_eq_ok_iff.mpr ⟨names, (FileTree.of_writable writable).1, found.trans ?_⟩
  have diffs : ∀ path ∈ prepared.files, prepared.job.diffOf path (prepared.job.textOf prepared.session.tree path)
      = prepared.job.diffOf path (surroundings.tree.read surroundings.folder path).toOption := fun path member => by
    rw [follows.textOf_eq (apart.saveDiff path member)]
  rw [List.nil_append, List.flatMap_def, List.map_congr_left diffs, ← List.flatMap_def]

/-- What stands in the diff file at the end, unless the report has been written there. -/
theorem Follows.read_finish {target : Path} (given : arguments.saveDiff = some target)
    (reportApart : ∀ report, arguments.reportJson = some report →
      surroundings.tree.Apart surroundings.folder target report) :
    (prepared.finish surroundings arguments).tree.read surroundings.folder target
      = .ok (prepared.files.flatMap fun path =>
          prepared.job.diffOf path (surroundings.tree.read surroundings.folder path).toOption) := by
  have saved := FileTree.read_eq_ok_iff_open.mp (follows.saved_worked apart given)
  rw [FileTree.read_eq_ok_iff_open, tree_finish, follows.folder,
    FileTree.open_withFile (follows.apart_worked apart reportApart), saved]

end

end Preparation

/-! ## Both runs -/

/-- The arguments with the flag for a dry run. -/
def Arguments.dry (arguments : Arguments) : Arguments :=
  { arguments with dryRun := true }

/-- The arguments without the flag for a dry run. -/
def Arguments.live (arguments : Arguments) : Arguments :=
  { arguments with dryRun := false }

theorem runInOrder_dryRun (modifies : operation.modifies = true) (order : List Path → List Path) (isDryRun : Bool) :
    runInOrder surroundings operation { arguments with dryRun := isDryRun } order
      = match prepare surroundings operation arguments with
        | .error result => result
        | .ok prepared => ((prepared.inOrder order).asDryRun isDryRun).finish surroundings arguments := by
  rw [runInOrder, prepare_dryRun, modifies, Bool.not_true, Bool.or_false]
  cases prepare surroundings operation arguments <;> rfl

theorem reportsInOrder_dryRun (modifies : operation.modifies = true) (order : List Path → List Path) (isDryRun : Bool) :
    reportsInOrder surroundings operation { arguments with dryRun := isDryRun } order
      = match prepare surroundings operation arguments with
        | .error _ => []
        | .ok prepared => (((prepared.inOrder order).asDryRun isDryRun).worked surroundings arguments).2 := by
  rw [reportsInOrder, prepare_dryRun, modifies, Bool.not_true, Bool.or_false]
  cases prepare surroundings operation arguments <;> rfl

/-- The same is saved in the diff file with and without the flag, even if the report is written there. -/
theorem Preparation.Follows.read_finish_eq (follows : prepared.Follows surroundings operation arguments)
    (apart : KeepsApart surroundings arguments prepared.files) {target : Path}
    (given : arguments.saveDiff = some target) :
    ((prepared.asDryRun true).finish surroundings arguments).tree.read surroundings.folder target
      = ((prepared.asDryRun false).finish surroundings arguments).tree.read surroundings.folder target := by
  have dry := (follows.asDryRun true).worked_spec apart
  have live := (follows.asDryRun false).worked_spec apart
  have reports : ((prepared.asDryRun true).worked surroundings arguments).2
      = ((prepared.asDryRun false).worked surroundings arguments).2 := dry.1.trans live.1.symm
  have alike := live.2.alike.symm.trans dry.2.alike
  rw [tree_finish, tree_finish, reports]
  show FileTree.read (FileTree.withFile _ prepared.job.folder _ _) _ _
      = FileTree.read (FileTree.withFile _ prepared.job.folder _ _) _ _
  rw [follows.folder]
  -- The two trees agree on what leads where, and then on what has been saved before the report.
  refine FileTree.read_withFile alike _ _ fun names located => ?_
  obtain ⟨dryNames, dryLocated, dryFound⟩ :=
    FileTree.read_eq_ok_iff.mp ((follows.asDryRun true).saved_worked apart given)
  obtain ⟨liveNames, liveLocated, liveFound⟩ :=
    FileTree.read_eq_ok_iff.mp ((follows.asDryRun false).saved_worked apart given)
  rw [alike.locate_eq, located] at dryLocated
  rw [located] at liveLocated
  cases dryLocated
  cases liveLocated
  exact dryFound.trans liveFound.symm

/-- What a dry run tells of the run without the flag, and what each of them leaves. The text that the run without the
flag leaves in a file can be read from the old one and the diff that is saved of it, and nothing is saved just where the
old text stays. -/
structure Foretold (surroundings : Surroundings) (operation : Operation) (arguments : Arguments)
    (order : List Path → List Path) (prepared : Preparation) : Prop where
  reports : reportsInOrder surroundings operation arguments.dry order
    = (order prepared.files).map fun path =>
        prepared.job.reportOf path (surroundings.tree.read surroundings.folder path).toOption
  saved : ∀ target, arguments.saveDiff = some target →
    (∀ report, arguments.reportJson = some report → surroundings.tree.Apart surroundings.folder target report) →
      (runInOrder surroundings operation arguments.dry order).tree.read surroundings.folder target
        = .ok ((order prepared.files).flatMap fun path =>
            prepared.job.diffOf path (surroundings.tree.read surroundings.folder path).toOption)
  kept : ∀ path ∈ prepared.files,
    ((runInOrder surroundings operation arguments.dry order).tree.open? surroundings.folder path).toOption
      = (surroundings.tree.open? surroundings.folder path).toOption
  written : ∀ path ∈ prepared.files,
    ((runInOrder surroundings operation arguments.live order).tree.open? surroundings.folder path).toOption
      = (surroundings.tree.open? surroundings.folder path).toOption.map (prepared.job.entryOf path)
  shown : ∀ path ∈ prepared.files, ∀ old, surroundings.tree.read surroundings.folder path = .ok old →
    ∃ new, (runInOrder surroundings operation arguments.live order).tree.read surroundings.folder path = .ok new ∧
      Diff.applied? (Path.display (some prepared.job.base) path) old (prepared.job.diffOf path (some old)) = some new ∧
      (prepared.job.diffOf path (some old) = [] ↔ new = old)

theorem Preparation.Follows.foretold (follows : prepared.Follows surroundings operation arguments)
    (isPrepared : prepare surroundings operation arguments = .ok prepared) (modifies : operation.modifies = true)
    {order : List Path → List Path} (apart : KeepsApart surroundings arguments (order prepared.files))
    (sameFiles : (order prepared.files).Perm prepared.files) :
    Foretold surroundings operation arguments order prepared := by
  -- Both runs start from the same preparation and differ in the flag of the job alone.
  have dryFollows := (follows.inOrder order).asDryRun true
  have liveFollows := (follows.inOrder order).asDryRun false
  have dry : runInOrder surroundings operation arguments.dry order
      = ((prepared.inOrder order).asDryRun true).finish surroundings arguments := by
    rw [Arguments.dry, runInOrder_dryRun modifies, isPrepared]
  have live : runInOrder surroundings operation arguments.live order
      = ((prepared.inOrder order).asDryRun false).finish surroundings arguments := by
    rw [Arguments.live, runInOrder_dryRun modifies, isPrepared]
  have written : ∀ path ∈ prepared.files,
      ((runInOrder surroundings operation arguments.live order).tree.open? surroundings.folder path).toOption
        = (surroundings.tree.open? surroundings.folder path).toOption.map (prepared.job.entryOf path) := by
    intro path member
    rw [live, liveFollows.open_finish apart (sameFiles.mem_iff.mpr member)]
    rfl
  refine ⟨?_, ?_, ?_, written, ?_⟩
  · rw [Arguments.dry, reportsInOrder_dryRun modifies, isPrepared]
    exact (dryFollows.worked_spec apart).1
  · intro target given reportApart
    rw [dry]
    exact dryFollows.read_finish apart given reportApart
  · intro path member
    rw [dry, dryFollows.open_finish apart (sameFiles.mem_iff.mpr member)]
    exact Option.map_id'
  · intro path member old read
    refine ⟨(prepared.job.plan path old).text, ?_, prepared.job.applied?_diffOf path old,
      prepared.job.diffOf_eq_nil_iff path old⟩
    rw [FileTree.read_eq_ok_iff_open] at read ⊢
    rw [written path member, read]
    rfl

/-- A dry run predicts the run without the flag. Both give the same reports and save the same diffs; the dry run
leaves each file as it was, and the other one leaves in it the text that has been shown, in whatever order the
files are worked on. The runs themselves are those that leave the order as it is. -/
theorem runInOrder_dry (modifies : operation.modifies = true)
    (apart : ∀ prepared, prepare surroundings operation arguments = .ok prepared →
      KeepsApart surroundings arguments prepared.files)
    {order : List Path → List Path} (permutes : ∀ files, (order files).Perm files) :
    (∀ flagged ∈ [arguments.dry, arguments.live],
        runInOrder surroundings operation flagged id = run surroundings operation flagged) ∧
      reportsInOrder surroundings operation arguments.dry order
        = reportsInOrder surroundings operation arguments.live order ∧
      (∀ target, arguments.saveDiff = some target →
        (runInOrder surroundings operation arguments.dry order).tree.read surroundings.folder target
          = (runInOrder surroundings operation arguments.live order).tree.read surroundings.folder target) ∧
      (∀ result, prepare surroundings operation arguments = .error result →
        runInOrder surroundings operation arguments.dry order = result ∧
          runInOrder surroundings operation arguments.live order = result) ∧
      ∀ prepared, prepare surroundings operation arguments = .ok prepared →
        Foretold surroundings operation arguments order prepared := by
  refine ⟨fun flagged _ => runInOrder_id surroundings operation flagged, ?_⟩
  cases isPrepared : prepare surroundings operation arguments with
  | error result =>
    -- What ends a run before its files does not depend on the flag.
    have ends (isDryRun : Bool) :
        runInOrder surroundings operation { arguments with dryRun := isDryRun } order = result := by
      rw [runInOrder_dryRun modifies, isPrepared]
    have silent (isDryRun : Bool) :
        reportsInOrder surroundings operation { arguments with dryRun := isDryRun } order = [] := by
      rw [reportsInOrder_dryRun modifies, isPrepared]
    refine ⟨(silent true).trans (silent false).symm, fun target _ => ?_, fun other same => ?_,
      fun prepared wrong => nomatch wrong⟩
    · rw [Arguments.dry, Arguments.live, ends, ends]
    · cases same
      exact ⟨ends true, ends false⟩
  | ok prepared =>
    have follows := follows_prepare isPrepared
    have orderedApart := (apart prepared isPrepared).perm (permutes prepared.files)
    refine ⟨?_, fun target given => ?_, (fun result wrong => nomatch wrong), fun other same => ?_⟩
    · rw [Arguments.dry, Arguments.live, reportsInOrder_dryRun modifies, reportsInOrder_dryRun modifies, isPrepared]
      exact (((follows.inOrder order).asDryRun true).worked_spec orderedApart).1.trans
        (((follows.inOrder order).asDryRun false).worked_spec orderedApart).1.symm
    · rw [Arguments.dry, Arguments.live, runInOrder_dryRun modifies, runInOrder_dryRun modifies, isPrepared]
      exact (follows.inOrder order).read_finish_eq orderedApart given
    · cases same
      exact follows.foretold isPrepared modifies orderedApart (permutes prepared.files)

/-- Two files that get a header, the second one first, with the diffs in one file and the report in another. Both files
change, and both have a diff. -/
theorem runInOrder_dry_reversed :
    let tree : FileTree := ⟨[(["lib.rs"], .text "fn lib();\n"), (["main.rs"], .text "fn main();\r\n")]⟩
    let surroundings : Surroundings := ⟨tree, [], [], (0 : Int), 0, false, false⟩
    let arguments : Arguments :=
      { Arguments.none with paths := ["lib.rs", "main.rs"], saveDiff := some "all.diff", reportJson := some "all.json" }
    let files : List Path := ["lib.rs", "main.rs"]
    ∃ prepared, prepare surroundings .insert arguments = .ok prepared ∧ prepared.files = files ∧
      KeepsApart surroundings arguments files ∧ files.reverse.Perm files ∧
      reportsInOrder surroundings .insert arguments.dry List.reverse
        = reportsInOrder surroundings .insert arguments.live List.reverse ∧
      Foretold surroundings .insert arguments List.reverse prepared ∧
      (∀ path ∈ files, ∃ old new, surroundings.tree.read [] path = .ok old ∧
        (runInOrder surroundings .insert arguments.live List.reverse).tree.read [] path = .ok new ∧ new ≠ old ∧
        prepared.job.diffOf path (some old) ≠ []) ∧
      ∃ saved, (runInOrder surroundings .insert arguments.dry List.reverse).tree.read [] "all.diff" = .ok saved ∧
        saved ≠ [] := by
  intro tree surroundings arguments files
  have sorted : arrange files = files := by
    rw [arrange, List.mergeSort_of_pairwise (by decide)]
    decide
  have arranged : (prepare surroundings .insert arguments).map Preparation.files = .ok (arrange files) := rfl
  have described : (prepare surroundings .insert arguments).map Preparation.job
      = .ok (jobFor surroundings .insert arguments .default .builtin) := rfl
  have libLocated : tree.locate [] "lib.rs" = .ok ["lib.rs"] := rfl
  have mainLocated : tree.locate [] "main.rs" = .ok ["main.rs"] := rfl
  have diffLocated : tree.locate [] "all.diff" = .ok ["all.diff"] := rfl
  have reportLocated : tree.locate [] "all.json" = .ok ["all.json"] := rfl
  have apartOf {path other : Path} {names others : List Text} (located : tree.locate [] path = .ok names)
      (otherLocated : tree.locate [] other = .ok others) (differ : names ≠ others) : tree.Apart [] path other := by
    intro place here there
    rw [located] at here
    rw [otherLocated] at there
    exact differ ((Except.ok.inj here).trans (Except.ok.inj there).symm)
  have keepsApart : KeepsApart surroundings arguments files := by
    refine ⟨?_, ?_, ?_⟩
    · simpa [files, List.pairwise_cons] using apartOf libLocated mainLocated (by decide)
    · rintro path member target ⟨⟩
      rcases List.mem_cons.mp member with rfl | member
      · exact apartOf libLocated diffLocated (by decide)
      · exact List.mem_singleton.mp member ▸ apartOf mainLocated diffLocated (by decide)
    · rintro path member target ⟨⟩
      rcases List.mem_cons.mp member with rfl | member
      · exact apartOf libLocated reportLocated (by decide)
      · exact List.mem_singleton.mp member ▸ apartOf mainLocated reportLocated (by decide)
  have filesOf {prepared : Preparation} (isPrepared : prepare surroundings .insert arguments = .ok prepared) :
      prepared.files = files := by
    rw [isPrepared] at arranged
    exact (Except.ok.inj arranged).trans sorted
  have changes : ∀ path ∈ files, ∃ old, surroundings.tree.read [] path = .ok old ∧
      ((jobFor surroundings .insert arguments .default .builtin).plan path old).action.isChange = true := by
    intro path member
    rcases List.mem_cons.mp member with rfl | member
    · exact ⟨_, rfl, by decide +kernel⟩
    · exact List.mem_singleton.mp member ▸ ⟨_, rfl, by decide +kernel⟩
  -- The preparation itself is too large to be written out; its files and its job are all that is asked of it.
  cases isPrepared : prepare surroundings .insert arguments with
  | error result =>
    rw [isPrepared] at arranged
    cases arranged
  | ok prepared =>
    have modifies : Operation.insert.modifies = true := rfl
    have apart : ∀ prepared, prepare surroundings .insert arguments = .ok prepared →
        KeepsApart surroundings arguments prepared.files :=
          fun other otherPrepared => filesOf otherPrepared ▸ keepsApart
    have job : prepared.job = jobFor surroundings .insert arguments .default .builtin := by
      rw [isPrepared] at described
      exact Except.ok.inj described
    obtain ⟨-, sameReports, -, -, foretold⟩ := runInOrder_dry modifies apart (fun files => List.reverse_perm files)
    have told := foretold prepared isPrepared
    have differs (path : Path) (member : path ∈ files) : ∃ old, surroundings.tree.read [] path = .ok old ∧
        prepared.job.diffOf path (some old) ≠ [] := by
      obtain ⟨old, read, changed⟩ := changes path member
      exact ⟨old, read, fun none => Job.plan_text_ne (job ▸ changed) ((prepared.job.diffOf_eq_nil_iff path old).mp none)⟩
    refine ⟨prepared, rfl, filesOf isPrepared, keepsApart, List.reverse_perm files, sameReports, told, ?_, ?_⟩
    · intro path member
      obtain ⟨old, read, some⟩ := differs path member
      obtain ⟨new, written, -, same⟩ := told.shown path (filesOf isPrepared ▸ member) old read
      exact ⟨old, new, read, written, fun equal => some (same.mpr equal), some⟩
    · have saved := told.saved "all.diff" rfl (by
        rintro report ⟨⟩
        exact apartOf diffLocated reportLocated (by decide))
      refine ⟨_, saved, fun none => ?_⟩
      obtain ⟨old, read, some⟩ := differs "lib.rs" List.mem_cons_self
      have silent := List.flatMap_eq_nil_iff.mp none "lib.rs"
        (List.mem_reverse.mpr (filesOf isPrepared ▸ List.mem_cons_self))
      rw [show FileTree.read surroundings.tree surroundings.folder "lib.rs" = .ok old from read] at silent
      exact some silent

end Masthead.Command
