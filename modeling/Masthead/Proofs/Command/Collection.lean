import Mathlib.Data.List.Destutter
import Masthead.Command.Collection
import Masthead.Proofs.Command.Processing
import Masthead.Proofs.Path

/-!
# Files that are collected

A run works on every path that is left when those with the same components have been made one. Two paths that are
spelled with other components may lead to one file all the same, and then a run works on it twice. They do not if all
arguments begin alike and go on by names only.
-/

namespace Masthead

/-! ## Where paths lead -/

namespace PathComponent

/-- Where a component leads from a folder. -/
def step (start : List Text) : PathComponent → List Text
  | root => []
  | here => start
  | parent => start.dropLast
  | name text => start ++ [text]

theorem foldl_step_name (start names : List Text) : (names.map name).foldl step start = start ++ names := by
  induction names generalizing start with
  | nil => simp
  | cons first names inductionHypothesis => simp [step, inductionHypothesis]

end PathComponent

/-- The names to which a path leads, whatever there is in a tree. -/
def Path.destination (folder : List Text) (path : Path) : List Text :=
  path.components.foldl PathComponent.step folder

namespace FileTree

variable {tree : FileTree} {folder names : List Text} {path : Path}

theorem foldl_step_of_next? {start next : List Text} {part : Text} (step : next? start part = some next) :
    (Path.componentOf? part).toList.foldl PathComponent.step start = next := by
  by_cases silent : part = [] ∨ part = ['.']
  · rw [next?, if_pos silent] at step
    rw [Path.componentOf?, if_pos silent]
    exact Option.some.inj step
  · by_cases climbs : part = ['.', '.']
    · rw [next?, if_neg silent, if_pos climbs] at step
      rw [Path.componentOf?, if_neg silent, if_pos climbs]
      exact Option.some.inj step
    · rw [next?, if_neg silent, if_neg climbs] at step
      rw [Path.componentOf?, if_neg silent, if_neg climbs]
      split at step
      · cases step
      · exact Option.some.inj step

theorem follow_eq_ok {start parts : List Text} (followed : tree.follow start parts = .ok names) :
    names = (parts.filterMap Path.componentOf?).foldl PathComponent.step start := by
  induction parts generalizing start with
  | nil =>
    cases followed
    rfl
  | cons part parts inductionHypothesis =>
    obtain ⟨-, next, step, later⟩ := follow_cons_eq_ok_iff.mp followed
    rw [inductionHypothesis later, ← foldl_step_of_next? step]
    cases said : Path.componentOf? part <;> simp [said]

/-- A path that leads anywhere leads where its components say. -/
theorem locate_eq_ok (located : tree.locate folder path = .ok names) : names = path.destination folder := by
  unfold locate at located
  split at located
  · cases located
  · rw [follow_eq_ok located, Path.destination, Path.components_eq]
    split
    · rfl
    · split <;> rfl

theorem apart_of_destination_ne (tree : FileTree) {other : Path}
    (different : path.destination folder ≠ other.destination folder) : tree.Apart folder path other := by
  intro names located otherLocated
  exact different ((locate_eq_ok located).symm.trans (locate_eq_ok otherLocated))

/-- Whether a path leads to some names. -/
def leadsTo (tree : FileTree) (folder names : List Text) (path : Path) : Bool :=
  (tree.locate folder path).toOption == some names

theorem leadsTo_iff : tree.leadsTo folder names path = true ↔ tree.locate folder path = .ok names := by
  rw [leadsTo]
  cases tree.locate folder path <;> simp [Except.toOption]

/-- Whether all names in a tree are some that a path can say. -/
def NamesProper (tree : FileTree) : Prop :=
  ∀ entry ∈ tree.entries, ∀ name ∈ entry.1, name ≠ [] ∧ '/' ∉ name

instance (tree : FileTree) : Decidable tree.NamesProper :=
  inferInstanceAs (Decidable (∀ entry ∈ tree.entries, ∀ name ∈ entry.1, name ≠ [] ∧ '/' ∉ name))

theorem below?_eq_some_iff {names below : List Text} : below? folder names = some below ↔ names = folder ++ below := by
  induction folder generalizing names with
  | nil => simp [below?]
  | cons expected folder inductionHypothesis =>
    cases names with
    | nil => simp [below?]
    | cons name names =>
      rw [below?, List.cons_append, List.cons.injEq]
      split
      · next same => simp [same, inductionHypothesis]
      · next different => simp [Ne.symm different]

/-- Files below a folder are reached by names. -/
theorem isName_of_mem_filesBelow (proper : tree.NamesProper) {below : List Text} (member : below ∈ tree.filesBelow folder) :
    ∀ name ∈ below, Path.IsName name := by
  intro name inside
  simp only [filesBelow, List.mem_mergeSort, List.mem_filter, List.mem_filterMap, Bool.and_eq_true, Bool.not_eq_true',
    List.any_eq_false] at member
  obtain ⟨⟨entry, ⟨listed, -⟩, found⟩, -, visible⟩ := member
  obtain ⟨nonempty, noStroke⟩ := proper entry listed name (by simp [below?_eq_some_iff.mp found, inside])
  have notHidden := visible name inside
  refine ⟨nonempty, ?_, ?_, noStroke⟩
  · rintro rfl
    exact notHidden rfl
  · rintro rfl
    exact notHidden rfl

end FileTree

namespace Command

/-! ## Paths in order, each once -/

theorem eraseRepsBy_loop_eq (first : Path) (rest taken : List Path) :
    List.eraseRepsBy.loop Path.same first rest taken
      = taken.reverse ++ rest.destutter' (fun path other => path.place ≠ other.place) first := by
  induction rest generalizing first taken with
  | nil => simp [List.eraseRepsBy.loop]
  | cons second rest inductionHypothesis =>
    rw [List.eraseRepsBy.loop, List.destutter'_cons]
    cases same : Path.same first second with
    | true => simp [Path.same_iff.mp same, inductionHypothesis]
    | false =>
      have different : first.place ≠ second.place := fun equal => by simp [Path.same_iff.mpr equal] at same
      simp [different, inductionHypothesis]

theorem eraseRepsBy_same_eq (paths : List Path) :
    paths.eraseRepsBy Path.same = paths.destutter fun path other => path.place ≠ other.place := by
  cases paths with
  | nil => rfl
  | cons first rest => exact eraseRepsBy_loop_eq first rest []

theorem pairwise_mergeSort_paths (paths : List Path) :
    (paths.mergeSort Path.lessOrEqual).Pairwise fun path other => path.place ≤ other.place := by
  have sorted := List.pairwise_mergeSort
    (fun path other third (first : Path.lessOrEqual path other = true) (second : Path.lessOrEqual other third = true) =>
      Path.lessOrEqual_iff.mpr ((Path.lessOrEqual_iff.mp first).trans (Path.lessOrEqual_iff.mp second)))
    (fun path other => by
      rw [Bool.or_eq_true, Path.lessOrEqual_iff, Path.lessOrEqual_iff]
      exact le_total _ _) paths
  exact sorted.imp Path.lessOrEqual_iff.mp

/-- The places of arranged paths are those of all paths, each once. -/
theorem map_place_arrange (paths : List Path) :
    (arrange paths).map Path.place = ((paths.mergeSort Path.lessOrEqual).map Path.place).dedup := by
  have sorted : ((paths.mergeSort Path.lessOrEqual).map Path.place).Pairwise (· ≤ ·) :=
    List.pairwise_map.mpr (pairwise_mergeSort_paths paths)
  have mapped : ((paths.mergeSort Path.lessOrEqual).destutter fun path other => path.place ≠ other.place).map Path.place
      = ((paths.mergeSort Path.lessOrEqual).map Path.place).destutter (· ≠ ·) :=
    List.map_destutter fun _ _ _ _ => Iff.rfl
  rw [arrange, eraseRepsBy_same_eq, mapped, sorted.destutter_eq_dedup]

theorem pairwise_place_arrange (paths : List Path) :
    (arrange paths).Pairwise fun path other => path.place < other.place := by
  have sorted : ((paths.mergeSort Path.lessOrEqual).map Path.place).dedup.Pairwise (· ≤ ·) :=
    (List.pairwise_map.mpr (pairwise_mergeSort_paths paths)).sublist (List.dedup_sublist _)
  have increasing := (sorted.and (List.nodup_dedup _)).imp fun both => lt_of_le_of_ne both.1 both.2
  rw [← map_place_arrange] at increasing
  exact List.pairwise_map.mp increasing

theorem pairwise_arrange (paths : List Path) :
    (arrange paths).Pairwise fun path other => path.components ≠ other.components :=
  (pairwise_place_arrange paths).imp fun less same => less.ne (Path.place_eq_iff.mpr same)

theorem mem_of_mem_arrange {paths : List Path} {path : Path} (member : path ∈ arrange paths) : path ∈ paths := by
  rw [arrange, eraseRepsBy_same_eq] at member
  exact List.mem_mergeSort.mp ((List.destutter_sublist _ _).subset member)

theorem exists_mem_arrange {paths : List Path} {path : Path} (member : path ∈ paths) :
    ∃ kept ∈ arrange paths, kept.components = path.components := by
  have placed : path.place ∈ (arrange paths).map Path.place := by
    rw [map_place_arrange, List.mem_dedup]
    exact List.mem_map_of_mem (List.mem_mergeSort.mpr member)
  obtain ⟨kept, keptMember, same⟩ := List.mem_map.mp placed
  exact ⟨kept, keptMember, Path.place_eq_iff.mp same⟩

/-! ## What is gathered -/

variable {tree : FileTree} {folder : List Text}

/-- The files that one path names. -/
def filesAt (tree : FileTree) (folder : List Text) (path : Path) : List Path :=
  if tree.isFile folder path then [path] else (walk tree folder path).taken

theorem gather_files {paths : List Path} (gathers : (gather tree folder paths).fault = none) :
    (gather tree folder paths).files = paths.flatMap (filesAt tree folder) := by
  -- Without a fault, no path is passed over, so each of them gives its files in turn.
  induction paths with
  | nil => rfl
  | cons path paths inductionHypothesis =>
    rw [List.flatMap_cons, filesAt]
    rw [gather] at gathers ⊢
    split at gathers
    · next isFile =>
      rw [if_pos isFile, if_pos isFile, ← inductionHypothesis gathers]
      rfl
    · next noFile =>
      rw [if_neg noFile, if_neg noFile]
      split at gathers
      · next isFolder =>
        rw [if_pos isFolder, ← inductionHypothesis gathers]
      · cases gathers

/-- Files of a folder have its path, with names behind it. -/
theorem mem_taken_iff {path file : Path} :
    file ∈ (walk tree folder path).taken ↔
      ∃ names below, tree.locate folder path = .ok names ∧ below ∈ tree.filesBelow names ∧
        file = below.foldl Path.join path ∧ hasKnownComments file = true := by
  rw [walk]
  cases tree.locate folder path with
  | error fault => simp
  | ok names =>
    simp only [List.partition_eq_filter_filter, List.mem_filter, List.mem_map, Except.ok.injEq]
    constructor
    · rintro ⟨⟨below, found, rfl⟩, known⟩
      exact ⟨names, below, rfl, found, rfl, known⟩
    · rintro ⟨_, below, rfl, found, rfl, known⟩
      exact ⟨⟨below, found, rfl⟩, known⟩

theorem ne_nil_of_locate {path : Path} {names : List Text} (located : tree.locate folder path = .ok names) :
    path ≠ [] := by
  rintro rfl
  cases located

/-! ## Spelling -/

/-- Whether all paths begin with the same components and go on by names only. -/
def SpelledAlike (paths : List Path) : Prop :=
  ∃ lead : List PathComponent, ∀ path ∈ paths, ∃ names : List Text, path.components = lead ++ names.map .name

/-- Whether paths that lead to one place have the same components. -/
def SpelledOnce (folder : List Text) (paths : List Path) : Prop :=
  ∀ path ∈ paths, ∀ other ∈ paths, path.destination folder = other.destination folder →
    path.components = other.components

theorem SpelledAlike.spelledOnce {paths : List Path} (alike : SpelledAlike paths) (folder : List Text) :
    SpelledOnce folder paths := by
  obtain ⟨lead, spelled⟩ := alike
  intro path member other otherMember same
  obtain ⟨names, pathComponents⟩ := spelled path member
  obtain ⟨otherNames, otherComponents⟩ := spelled other otherMember
  rw [Path.destination, Path.destination, pathComponents, otherComponents, List.foldl_append, List.foldl_append,
    PathComponent.foldl_step_name, PathComponent.foldl_step_name, List.append_cancel_left_eq] at same
  rw [pathComponents, otherComponents, same]

/-- Walking a folder goes on by names. -/
theorem SpelledAlike.flatMap_filesAt {paths : List Path} (alike : SpelledAlike paths) (proper : tree.NamesProper)
    (folder : List Text) : SpelledAlike (paths.flatMap (filesAt tree folder)) := by
  obtain ⟨lead, spelled⟩ := alike
  refine ⟨lead, ?_⟩
  intro file member
  obtain ⟨path, pathMember, member⟩ := List.mem_flatMap.mp member
  obtain ⟨names, components⟩ := spelled path pathMember
  rw [filesAt] at member
  split at member
  · rw [List.mem_singleton.mp member]
    exact ⟨names, components⟩
  · obtain ⟨found, below, located, belowMember, rfl, -⟩ := mem_taken_iff.mp member
    refine ⟨names ++ below, ?_⟩
    rw [Path.components_foldl_join (ne_nil_of_locate located) (FileTree.isName_of_mem_filesBelow proper belowMember),
      components, List.map_append, List.append_assoc]

/-- Arranged paths lead to different places exactly if no place is spelled in two ways. -/
theorem pairwise_destination_arrange_iff {paths : List Path} :
    (arrange paths).Pairwise (fun path other => path.destination folder ≠ other.destination folder) ↔
      SpelledOnce folder paths := by
  constructor
  · intro apart path member other otherMember same
    obtain ⟨kept, keptMember, keptComponents⟩ := exists_mem_arrange member
    obtain ⟨otherKept, otherKeptMember, otherKeptComponents⟩ := exists_mem_arrange otherMember
    have distinct : ((arrange paths).map (Path.destination folder)).Nodup := List.pairwise_map.mpr apart
    have equal : kept = otherKept := by
      apply List.inj_on_of_nodup_map distinct keptMember otherKeptMember
      rw [Path.destination, Path.destination, keptComponents, otherKeptComponents]
      exact same
    rw [← keptComponents, equal, otherKeptComponents]
  · intro once
    refine (pairwise_arrange paths).imp_of_mem ?_
    intro path other member otherMember different same
    exact different (once path (mem_of_mem_arrange member) other (mem_of_mem_arrange otherMember) same)

theorem collectFiles_eq_ok_iff {paths files : List Path} :
    collectFiles tree folder paths = .ok files ↔
      (gather tree folder paths).fault = none ∧ files = arrange (gather tree folder paths).files := by
  rw [collectFiles]
  cases fault : (gather tree folder paths).fault <;> simp [eq_comm]

/-! ## Entries -/

namespace Job

variable {job : Job} {session : Session} {saved : Text}

/-- What a run makes of an entry of its tree: what each path that leads there makes of it, one after the other. -/
theorem entry_processAll {paths : List Path} {names : List Text} {entry : FileEntry} (live : job.isDryRun = false)
    (savedAs : job.SavedAs session.tree saved)
    (offDiff : ∀ path ∈ paths, ∀ names, session.tree.locate job.folder path = .ok names →
      job.OffDiff session.tree names)
    (off : job.OffDiff session.tree names) (found : session.tree.entry? names = some entry) :
    (job.processAll session paths).1.tree.entry? names
      = some ((paths.filter (session.tree.leadsTo job.folder names)).foldl (fun entry path => job.entryOf path entry)
          entry) := by
  induction paths generalizing session saved entry with
  | nil => exact found
  | cons path paths inductionHypothesis =>
    obtain ⟨-, first⟩ := process_spec savedAs (offDiff path List.mem_cons_self)
    have located (other : Path) := first.alike.locate_eq job.folder other
    have leads : (job.process session path).1.tree.leadsTo job.folder names = session.tree.leadsTo job.folder names := by
      funext other
      rw [FileTree.leadsTo, located, FileTree.leadsTo]
    have offLater : ∀ other ∈ paths, ∀ names, (job.process session path).1.tree.locate job.folder other = .ok names →
        job.OffDiff (job.process session path).1.tree names := by
      intro other member found otherLocated
      rw [located] at otherLocated
      exact (offDiff other (List.mem_cons_of_mem _ member) found otherLocated).of_alike first.alike
    have later {entry : FileEntry} (foundNow : (job.process session path).1.tree.entry? names = some entry) :=
      inductionHypothesis first.saved offLater (off.of_alike first.alike) foundNow
    rw [leads] at later
    rw [List.filter_cons]
    split
    · next isHere =>
      -- This path leads there, so the entry is what it makes of it.
      have here := FileTree.leadsTo_iff.mp isHere
      have written := first.written path List.mem_cons_self names entry here found
      rw [live] at written
      exact later written
    · next elsewhere =>
      refine later ((first.others names ?_ off).trans found)
      intro other member here
      rw [List.mem_singleton.mp member] at here
      exact elsewhere (FileTree.leadsTo_iff.mpr here)

/-- A text with one more entry. -/
def withEntry (job : Job) (kind : Header.EntryKind) (path : Path) (text : Text) : Text :=
  let document := Document.parse text
  ((job.engine.insertEntry job.config (job.contextFor path) document kind).apply document).toText

/-- Whether a run adds entries of a kind to files, and none of them is where the diffs go. -/
structure Enters (job : Job) (kind : Header.EntryKind) (session : Session) (saved : Text) (files : List Path) : Prop where
  operation : job.operation = match kind with
    | .version => .version
    | .todo => .todo
  live : job.isDryRun = false
  savedAs : job.SavedAs session.tree saved
  offDiff : ∀ path ∈ files, ∀ names, session.tree.locate job.folder path = .ok names → job.OffDiff session.tree names

variable {kind : Header.EntryKind} {files : List Path}

theorem Enters.foldl_entryOf_text (enters : job.Enters kind session saved files) (paths : List Path) (content : Text) :
    paths.foldl (fun entry path => job.entryOf path entry) (.text content)
      = .text (paths.foldl (fun text path => job.withEntry kind path text) content) := by
  have planned (path : Path) (text : Text) : (job.plan path text).text = job.withEntry kind path text := by
    have operation := enters.operation
    cases kind <;> simp only [plan, edit, operation] <;> rfl
  induction paths generalizing content with
  | nil => rfl
  | cons path paths inductionHypothesis =>
    rw [List.foldl_cons, List.foldl_cons, ← inductionHypothesis, entryOf, planned]

end Job

theorem length_filter_leadsTo_le {files : List Path} (apart : files.Pairwise (tree.Apart folder)) (names : List Text) :
    (files.filter (tree.leadsTo folder names)).length ≤ 1 := by
  have apartHere := apart.filter (tree.leadsTo folder names)
  have here : ∀ path ∈ files.filter (tree.leadsTo folder names), tree.locate folder path = .ok names :=
    fun path member => FileTree.leadsTo_iff.mp (List.mem_filter.mp member).2
  match found : files.filter (tree.leadsTo folder names) with
  | [] => simp
  | [_] => simp
  | path :: other :: _ =>
    rw [found] at apartHere here
    refine absurd (here other (by simp)) ?_
    exact (List.pairwise_cons.mp apartHere).1 other (by simp) names (here path (by simp))

/-- The files that a run collects are apart exactly if no place is spelled in two ways among all that is gathered, as
when the arguments begin alike and go on by names. A file gets one entry for each spelling that is left of it. -/
theorem collectFiles_once_iff {paths files : List Path} (collected : collectFiles tree folder paths = .ok files) :
    let gathered := (gather tree folder paths).files
    files.Pairwise (fun path other => path.components ≠ other.components) ∧
      (∀ path ∈ gathered, ∃ kept ∈ files, kept.components = path.components) ∧
      (files.Pairwise (fun path other => path.destination folder ≠ other.destination folder) ↔
        SpelledOnce folder gathered) ∧
      (SpelledOnce folder gathered → files.Pairwise (tree.Apart folder)) ∧
      (tree.NamesProper → SpelledAlike paths → SpelledOnce folder gathered) ∧
      ∀ (job : Job) (kind : Header.EntryKind) (session : Session) (saved : Text), job.folder = folder →
        job.Enters kind session saved files → ∀ names content,
        session.tree.entry? names = some (.text content) → job.OffDiff session.tree names →
          let spellings := files.filter (session.tree.leadsTo folder names)
          (job.processAll session files).1.tree.entry? names
              = some (.text (spellings.foldl (fun text path => job.withEntry kind path text) content)) ∧
            (SpelledOnce folder gathered → spellings.length ≤ 1) := by
  intro gathered
  obtain ⟨gathers, rfl⟩ := collectFiles_eq_ok_iff.mp collected
  have apart (once : SpelledOnce folder gathered) (tree : FileTree) :
      (arrange gathered).Pairwise (tree.Apart folder) :=
    (pairwise_destination_arrange_iff.mpr once).imp fun different => tree.apart_of_destination_ne different
  refine ⟨pairwise_arrange gathered, fun path => exists_mem_arrange, pairwise_destination_arrange_iff,
    fun once => apart once tree, ?_, ?_⟩
  · intro proper alike
    have spelled := (alike.flatMap_filesAt proper folder).spelledOnce folder
    rwa [← gather_files gathers] at spelled
  · intro job kind session saved sameFolder enters names content found off spellings
    subst sameFolder
    refine ⟨?_, fun once => length_filter_leadsTo_le (apart once session.tree) names⟩
    rw [job.entry_processAll enters.live enters.savedAs enters.offDiff off found, enters.foldl_entryOf_text]

/-- Paths that are in order already stay where they are. -/
theorem arrange_of_pairwise {paths : List Path} (sorted : paths.Pairwise fun path other => path.lessOrEqual other = true) :
    arrange paths = paths.eraseRepsBy Path.same := by
  rw [arrange, List.mergeSort_of_pairwise sorted]

/-- A file that is named with its folder gets one entry. -/
theorem collectFiles_once_folder :
    let tree : FileTree := ⟨[(["src"], .folder), (["src", "main.rs"], .text "// File History :\n")]⟩
    let paths : List Path := ["src", "src/main.rs"]
    let job : Job := ⟨.version, ⟨.builtin, (0 : Int)⟩, .default, none, [], [], false, false, none, false⟩
    ∃ files, collectFiles tree [] paths = .ok files ∧ files.Pairwise (tree.Apart []) ∧
      job.Enters .version ⟨tree, [], []⟩ [] files ∧
      (job.processAll ⟨tree, [], []⟩ files).1.tree.entry? ["src", "main.rs"]
        = some (.text "// File History :\n//      * 1970/01/01 : (v01p00,  unknown) Description\n") := by
  intro tree paths job
  have gathered : (gather tree [] paths).files = ["src/main.rs", "src/main.rs"] := by decide +kernel
  have collected : collectFiles tree [] paths = .ok ["src/main.rs"] := by
    refine collectFiles_eq_ok_iff.mpr ⟨by decide +kernel, ?_⟩
    rw [gathered, arrange_of_pairwise (by decide +kernel)]
    decide +kernel
  have proper : tree.NamesProper := by decide +kernel
  -- Both paths are spelled below the same folder, so that what they lead to is spelled alike.
  have alike : SpelledAlike paths := by
    refine ⟨[], ?_⟩
    intro path member
    simp only [paths, List.mem_cons, List.not_mem_nil, or_false] at member
    rcases member with rfl | rfl
    · exact ⟨["src"], by decide +kernel⟩
    · exact ⟨["src", "main.rs"], by decide +kernel⟩
  have undiffed {names : List Text} : job.OffDiff tree names := fun target given => nomatch given
  have enters : job.Enters .version ⟨tree, [], []⟩ [] ["src/main.rs"] :=
    ⟨rfl, rfl, fun target given => (nomatch given), fun _ _ _ _ => undiffed⟩
  obtain ⟨-, -, -, apart, spelled, entered⟩ := collectFiles_once_iff collected
  refine ⟨_, collected, apart (spelled proper alike), enters, ?_⟩
  rw [(entered job .version _ [] rfl enters ["src", "main.rs"] "// File History :\n".toList (by decide +kernel)
    undiffed).1]
  decide +kernel

/-- The same file in two spellings: both are kept, and the file gets two entries. -/
theorem collectFiles_twice :
    let tree : FileTree := ⟨[(["main.rs"], .text "// File History :\n")]⟩
    let job : Job := ⟨.version, ⟨.builtin, (0 : Int)⟩, .default, none, [], [], false, false, none, false⟩
    collectFiles tree [] [".", "main.rs"] = .ok ["./main.rs", "main.rs"] ∧
      tree.locate [] "./main.rs" = .ok ["main.rs"] ∧ tree.locate [] "main.rs" = .ok ["main.rs"] ∧
      (job.processAll ⟨tree, [], []⟩ ["./main.rs", "main.rs"]).1.tree.entry? ["main.rs"]
        = some (.text ("// File History :\n//      * 1970/01/01 : (v01p00,  unknown) Description\n" ++
            "//      * 1970/01/01 : (v01p01,  unknown) Description\n")) := by
  intro tree job
  have gathered : (gather tree [] [".", "main.rs"]).files = ["./main.rs", "main.rs"] := by decide +kernel
  refine ⟨?_, ?_, ?_, ?_⟩
  · refine collectFiles_eq_ok_iff.mpr ⟨by decide +kernel, ?_⟩
    rw [gathered, arrange_of_pairwise (by decide +kernel)]
    decide +kernel
  · exact FileTree.leadsTo_iff.mp (by decide +kernel)
  · exact FileTree.leadsTo_iff.mp (by decide +kernel)
  · decide +kernel

end Command

end Masthead
