import Mathlib.Data.List.Sort
import Masthead.Proofs.Command.Collection
import Masthead.Proofs.Text.Affix
import Masthead.Proofs.Text.Lower

/-!
# Files that are asked for

Arguments ask for the files that they name, and for those files below the folders that they name which are not hidden
and whose comments are known. What is collected are the paths of exactly these files, in order and each once, so that it
depends on what is asked for, and not on how it is asked for.
-/

namespace Masthead

/-! ## Known extensions -/

namespace Path

theorem dot_not_mem_of_splitName {fileName extension : Text} (split : (splitName fileName).2 = some extension) :
    '.' ∉ extension := by
  unfold splitName at split
  dsimp only at split
  split at split
  · cases split
  · cases split
    intro member
    rw [List.mem_reverse] at member
    simpa using List.all_eq_true.mp List.all_takeWhile _ member

theorem fileName?_of_components {path : Path} {front : List PathComponent} {name : Text}
    (components : path.components = front ++ [.name name]) : path.fileName? = some name := by
  rw [fileName?, components, List.getLast?_concat]

end Path

namespace LanguageTable

theorem exists_of_isSome_builtinOf? {extension : Text} (known : (builtinOf? extension).isSome = true) :
    ∃ entry ∈ builtinSyntax, entry.1 = extension := by
  rw [builtinOf?, valueOf?, Option.isSome_map] at known
  obtain ⟨entry, listed, same⟩ := List.find?_isSome.mp known
  exact ⟨entry, listed, beq_iff_eq.mp same⟩

/-- An extension without a dot is looked up in lower case behind one. -/
theorem knows_eq {extension : Text} (dotless : '.' ∉ extension) :
    knows extension = (builtinOf? ('.' :: Text.lower extension)).isSome := by
  have undotted : Text.startsWith "." (Text.lower extension) = false := by
    rw [Bool.eq_false_iff, ne_eq, Text.startsWith_iff]
    rintro ⟨rest, lowered⟩
    obtain ⟨others, rfl, -⟩ := Text.eq_of_lowerAfter (by decide) (by decide) lowered.symm
    exact dotless List.mem_cons_self
  rw [knows, undotted, if_neg Bool.false_ne_true]

/-- The built-in extensions have dots and are in lower case already. -/
theorem knows_of_builtinOf? {extension : Text} (known : (builtinOf? extension).isSome = true) :
    knows extension = true := by
  have plain : ∀ entry ∈ builtinSyntax, Text.lower entry.1 = entry.1 ∧ Text.startsWith "." entry.1 = true := by
    decide +kernel
  obtain ⟨entry, listed, rfl⟩ := exists_of_isSome_builtinOf? known
  obtain ⟨lowered, dotted⟩ := plain entry listed
  rw [knows, lowered, if_pos dotted]
  exact known

end LanguageTable

namespace Command

/-- Whether a name has an extension that stands, in lower case, in the built-in table. -/
def HasKnownExtension (name : Text) : Prop :=
  ∃ extension, (Path.splitName name).2 = some extension ∧
    (LanguageTable.builtinOf? ('.' :: Text.lower extension)).isSome = true

section

variable {path : Path} {front : List PathComponent} {name : Text}

theorem hasKnownComments_iff (components : path.components = front ++ [.name name]) :
    hasKnownComments path = true ↔ HasKnownExtension name := by
  rw [hasKnownComments, Path.extension?, Path.fileName?_of_components components, Option.bind_some, Option.any_eq_true,
    HasKnownExtension]
  refine exists_congr fun extension => and_congr_right fun split => ?_
  rw [LanguageTable.knows_eq (Path.dot_not_mem_of_splitName split)]

/-- The language of a file with a known extension is that extension, unless another is asked for. -/
theorem HasKnownExtension.languageFor (known : HasKnownExtension name)
    (components : path.components = front ++ [.name name]) {language : Option Text}
    (silent : language.bind Text.nonBlank? = none) :
    (LanguageTable.builtinOf? (languageFor path language)).isSome = true := by
  obtain ⟨extension, split, listed⟩ := known
  have named : path.extension? = some extension := by
    rw [Path.extension?, Path.fileName?_of_components components, Option.bind_some, split]
  rw [Masthead.languageFor, silent, named]
  exact listed

end

end Command

/-! ## Files of a tree -/

namespace FileTree

/-- Whether all names in a tree are proper, and every place in it holds one thing. -/
structure IsProper (tree : FileTree) : Prop where
  named : tree.NamesProper
  once : (tree.entries.map (·.1)).Nodup

variable {tree : FileTree} {folder names : List Text} {path : Path} {entry : FileEntry}

theorem IsProper.entry_eq_some_iff (proper : tree.IsProper) (nonempty : names ≠ []) :
    tree.entry? names = some entry ↔ (names, entry) ∈ tree.entries := by
  unfold entry?
  rw [if_neg (by simpa using nonempty), Option.map_eq_some_iff]
  constructor
  · rintro ⟨found, first, rfl⟩
    have same : found.1 = names := by simpa using List.find?_some first
    exact same ▸ List.mem_of_find?_eq_some first
  · intro listed
    obtain ⟨found, first⟩ := Option.isSome_iff_exists.mp
      (List.find?_isSome (p := (·.1 == names)) |>.mpr ⟨_, listed, beq_self_eq_true names⟩)
    have same : found.1 = names := by simpa using List.find?_some first
    have equal : found = (names, entry) :=
      List.inj_on_of_nodup_map proper.once (List.mem_of_find?_eq_some first) listed same
    exact ⟨found, first, by rw [equal]⟩

theorem IsProper.mem_filesBelow_iff (proper : tree.IsProper) {below : List Text} :
    below ∈ tree.filesBelow folder ↔
      below ≠ [] ∧ (∀ name ∈ below, isHidden name = false) ∧
        ∃ entry, tree.entry? (folder ++ below) = some entry ∧ entry.isFolder = false := by
  simp only [filesBelow, List.mem_mergeSort, List.mem_filter, List.mem_filterMap, Bool.and_eq_true, Bool.not_eq_true',
    List.any_eq_false, Bool.not_eq_true, List.isEmpty_eq_false_iff, below?_eq_some_iff]
  constructor
  · rintro ⟨⟨⟨listedNames, entry⟩, ⟨listed, isFile⟩, rfl⟩, nonempty, visible⟩
    have found := (proper.entry_eq_some_iff (List.append_ne_nil_of_right_ne_nil _ nonempty)).mpr listed
    exact ⟨nonempty, visible, entry, found, isFile⟩
  · rintro ⟨nonempty, visible, entry, found, isFile⟩
    have listed := (proper.entry_eq_some_iff (List.append_ne_nil_of_right_ne_nil _ nonempty)).mp found
    exact ⟨⟨_, ⟨listed, isFile⟩, rfl⟩, nonempty, visible⟩

theorem isFolder_iff :
    tree.isFolder folder path = true ↔
      ∃ names, tree.locate folder path = .ok names ∧ tree.entry? names = some .folder := by
  rw [isFolder, open?]
  cases tree.locate folder path with
  | error fault => simp
  | ok names =>
    cases found : tree.entry? names with
    | none => simp [found]
    | some entry => cases entry <;> simp [found, FileEntry.isFolder]

theorem isFile_eq_false_of_isFolder (isFolder : tree.isFolder folder path = true) :
    tree.isFile folder path = false := by
  obtain ⟨names, located, found⟩ := isFolder_iff.mp isFolder
  rw [isFile, open?, located]
  simp only [found]
  rfl

end FileTree

namespace Command

variable {tree : FileTree} {folder : List Text} {paths others : List Path} {components : List PathComponent}

/-! ## What is asked for -/

/-- A file below the folder that a path names, reached through no hidden name and with a known extension. Its path is
that of the folder with the names behind it. -/
inductive FoundBelow (tree : FileTree) (folder : List Text) (path : Path) : List PathComponent → Prop
  | intro {names above : List Text} {name : Text} {entry : FileEntry} (located : tree.locate folder path = .ok names)
      (isFolder : tree.isFolder folder path = true) (found : tree.entry? (names ++ (above ++ [name])) = some entry)
      (isFile : entry.isFolder = false) (visible : ∀ part ∈ above ++ [name], FileTree.isHidden part = false)
      (known : HasKnownExtension name) :
      FoundBelow tree folder path (path.components ++ (above ++ [name]).map .name)

/-- The files that arguments ask for, by the components of their paths. A file that is named may be of any kind. -/
inductive Asked (tree : FileTree) (folder : List Text) (paths : List Path) : List PathComponent → Prop
  | named {path : Path} (listed : path ∈ paths) (isFile : tree.isFile folder path = true) :
      Asked tree folder paths path.components
  | found {path : Path} {components : List PathComponent} (listed : path ∈ paths)
      (below : FoundBelow tree folder path components) : Asked tree folder paths components

theorem Asked.mono (sub : ∀ path ∈ paths, path ∈ others) (asked : Asked tree folder paths components) :
    Asked tree folder others components := by
  cases asked with
  | named listed isFile => exact .named (sub _ listed) isFile
  | found listed below => exact .found (sub _ listed) below

theorem FoundBelow.languageFor {path file : Path} (below : FoundBelow tree folder path file.components)
    {language : Option Text} (silent : language.bind Text.nonBlank? = none) :
    (LanguageTable.builtinOf? (languageFor file language)).isSome = true := by
  generalize spelled : file.components = components at below
  cases below with
  | intro located isFolder found isFile visible known =>
    rw [List.map_append, ← List.append_assoc] at spelled
    exact known.languageFor spelled silent

/-! ## What is collected -/

theorem exists_mem_taken_iff (proper : tree.IsProper) {path : Path} (isFolder : tree.isFolder folder path = true) :
    (∃ file ∈ (walk tree folder path).taken, file.components = components) ↔
      FoundBelow tree folder path components := by
  constructor
  · rintro ⟨file, taken, rfl⟩
    obtain ⟨names, below, located, member, rfl, known⟩ := mem_taken_iff.mp taken
    obtain ⟨nonempty, visible, entry, found, isFile⟩ := proper.mem_filesBelow_iff.mp member
    -- Joining the names below a folder to its path keeps the names apart, as none of them is empty or holds a stroke.
    have spelled := Path.components_foldl_join (ne_nil_of_locate located)
      (FileTree.isName_of_mem_filesBelow proper.named member)
    obtain ⟨above, name, rfl⟩ : ∃ above name, below = above ++ [name] := by
      simpa using (List.eq_nil_or_concat below).resolve_left nonempty
    rw [spelled]
    rw [List.map_append, ← List.append_assoc] at spelled
    exact .intro located isFolder found isFile visible ((hasKnownComments_iff spelled).mp known)
  · rintro @⟨names, above, name, entry, located, -, found, isFile, visible, known⟩
    have nonempty : above ++ [name] ≠ [] := List.concat_ne_nil name above
    have member := proper.mem_filesBelow_iff.mpr ⟨nonempty, visible, _, found, isFile⟩
    have spelled := Path.components_foldl_join (ne_nil_of_locate located)
      (FileTree.isName_of_mem_filesBelow proper.named member)
    refine ⟨_, mem_taken_iff.mpr ⟨_, _, located, member, rfl, ?_⟩, spelled⟩
    rw [List.map_append, ← List.append_assoc] at spelled
    exact (hasKnownComments_iff spelled).mpr known

/-- Arguments fail at the first of them that names neither a file nor a folder. -/
theorem gather_fault (tree : FileTree) (folder : List Text) (paths : List Path) :
    (gather tree folder paths).fault
      = (paths.find? fun path => !tree.isFile folder path && !tree.isFolder folder path).map .noSuchPath := by
  induction paths with
  | nil => rfl
  | cons path paths inductionHypothesis =>
    rw [gather, List.find?_cons]
    cases isFile : tree.isFile folder path with
    | true => simpa using inductionHypothesis
    | false =>
      cases isFolder : tree.isFolder folder path with
      | true => simpa using inductionHypothesis
      | false => rfl

theorem gather_fault_eq_none_iff :
    (gather tree folder paths).fault = none ↔
      ∀ path ∈ paths, tree.isFile folder path = true ∨ tree.isFolder folder path = true := by
  rw [gather_fault, Option.map_eq_none_iff, List.find?_eq_none]
  refine forall₂_congr fun path _ => ?_
  cases tree.isFile folder path <;> cases tree.isFolder folder path <;> simp

theorem exists_mem_gather_iff (proper : tree.IsProper) (gathers : (gather tree folder paths).fault = none) :
    (∃ file ∈ (gather tree folder paths).files, file.components = components) ↔ Asked tree folder paths components := by
  rw [gather_files gathers]
  simp only [List.mem_flatMap]
  constructor
  · rintro ⟨file, ⟨path, listed, member⟩, rfl⟩
    -- A path is a file of its own or a folder that is walked, and never both.
    rw [filesAt] at member
    split at member
    · next isFile =>
      rw [List.mem_singleton.mp member]
      exact .named listed isFile
    · next noFile =>
      have isFolder := (gather_fault_eq_none_iff.mp gathers path listed).resolve_left noFile
      exact .found listed ((exists_mem_taken_iff proper isFolder).mp ⟨file, member, rfl⟩)
  · intro asked
    cases asked with
    | @named path listed isFile =>
      refine ⟨path, ⟨path, listed, ?_⟩, rfl⟩
      rw [filesAt, if_pos isFile]
      exact List.mem_singleton_self path
    | @found path components listed below =>
      have isFolder : tree.isFolder folder path = true := by
        cases below with
        | intro _ isFolder _ _ _ _ => exact isFolder
      obtain ⟨file, taken, spelled⟩ := (exists_mem_taken_iff proper isFolder).mpr below
      refine ⟨file, ⟨path, listed, ?_⟩, spelled⟩
      rw [filesAt, FileTree.isFile_eq_false_of_isFolder isFolder, if_neg Bool.false_ne_true]
      exact taken

theorem collectFiles_eq_error_iff :
    (∃ fault, collectFiles tree folder paths = .error fault) ↔
      ∃ path ∈ paths, tree.isFile folder path = false ∧ tree.isFolder folder path = false := by
  have fails : (∃ fault, collectFiles tree folder paths = .error fault) ↔ (gather tree folder paths).fault ≠ none := by
    rw [collectFiles]
    cases (gather tree folder paths).fault <;> simp
  rw [fails, ne_eq, gather_fault_eq_none_iff]
  push Not
  simp only [ne_eq, Bool.not_eq_true]

theorem exists_mem_collected_iff (proper : tree.IsProper) {files : List Path}
    (collected : collectFiles tree folder paths = .ok files) :
    (∃ file ∈ files, file.components = components) ↔ Asked tree folder paths components := by
  obtain ⟨gathers, rfl⟩ := collectFiles_eq_ok_iff.mp collected
  rw [← exists_mem_gather_iff proper gathers]
  constructor
  · rintro ⟨file, member, spelled⟩
    exact ⟨file, mem_of_mem_arrange member, spelled⟩
  · rintro ⟨file, member, spelled⟩
    obtain ⟨kept, keptMember, same⟩ := exists_mem_arrange member
    exact ⟨kept, keptMember, same.trans spelled⟩

/-- Paths in strict order are known from their components. -/
theorem map_components_eq {files otherFiles : List Path} (sorted : files.Pairwise Path.Precedes)
    (otherSorted : otherFiles.Pairwise Path.Precedes)
    (same : ∀ components, (∃ file ∈ files, file.components = components) ↔
      ∃ file ∈ otherFiles, file.components = components) :
    files.map Path.components = otherFiles.map Path.components := by
  have places (files : List Path) :
      files.map Path.place = (files.map Path.components).map (List.map PathComponent.place) := by
    rw [List.map_map]
    rfl
  have increasing {files : List Path} (sorted : files.Pairwise Path.Precedes) :
      (files.map Path.place).Pairwise (· < ·) :=
    List.pairwise_map.mpr (sorted.imp Path.precedes_iff.mp)
  have equal : files.map Path.place = otherFiles.map Path.place := by
    refine (increasing sorted).eq_of_mem_iff (increasing otherSorted) fun place => ?_
    rw [places, places]
    simp only [List.mem_map (f := List.map PathComponent.place), List.mem_map, same]
  rw [places, places] at equal
  exact List.map_injective_iff.mpr (List.map_injective_iff.mpr PathComponent.place_injective) equal

section

variable {files otherFiles : List Path}

theorem pairwise_precedes_collected (collected : collectFiles tree folder paths = .ok files) :
    files.Pairwise Path.Precedes := by
  obtain ⟨-, rfl⟩ := collectFiles_eq_ok_iff.mp collected
  exact (pairwise_place_arrange _).imp Path.precedes_iff.mpr

/-- Arguments that ask for the same files get the same paths, apart from how these are spelled. -/
theorem map_components_collected (proper : tree.IsProper) (collected : collectFiles tree folder paths = .ok files)
    (otherCollected : collectFiles tree folder others = .ok otherFiles)
    (same : ∀ components, Asked tree folder others components ↔ Asked tree folder paths components) :
    otherFiles.map Path.components = files.map Path.components := by
  refine map_components_eq (pairwise_precedes_collected otherCollected) (pairwise_precedes_collected collected) ?_
  intro components
  rw [exists_mem_collected_iff proper otherCollected, exists_mem_collected_iff proper collected, same]

theorem exists_collected_of_subset (collected : collectFiles tree folder paths = .ok files)
    (sub : ∀ path ∈ others, path ∈ paths) : ∃ otherFiles, collectFiles tree folder others = .ok otherFiles := by
  have gathers := gather_fault_eq_none_iff.mp (collectFiles_eq_ok_iff.mp collected).1
  have otherGathers := gather_fault_eq_none_iff.mpr fun path member => gathers path (sub path member)
  exact ⟨_, collectFiles_eq_ok_iff.mpr ⟨otherGathers, rfl⟩⟩

end

/-- Collecting fails if an argument names nothing, and else gives the paths of what is asked for in strict order. They
depend on nothing else, as far as their components go, and those that were found below folders have known languages. -/
theorem collectFiles_asked (proper : tree.IsProper) (paths : List Path) :
    ((∃ fault, collectFiles tree folder paths = .error fault) ↔
      ∃ path ∈ paths, tree.isFile folder path = false ∧ tree.isFolder folder path = false) ∧
    ∀ files, collectFiles tree folder paths = .ok files →
      files.Pairwise Path.Precedes ∧
      (∀ components, (∃ file ∈ files, file.components = components) ↔ Asked tree folder paths components) ∧
      (∀ others otherFiles, collectFiles tree folder others = .ok otherFiles →
        (∀ components, Asked tree folder others components ↔ Asked tree folder paths components) →
        otherFiles.map Path.components = files.map Path.components) ∧
      (∀ others, (∀ path, path ∈ others ↔ path ∈ paths) → ∃ otherFiles,
        collectFiles tree folder others = .ok otherFiles ∧
          otherFiles.map Path.components = files.map Path.components) ∧
      ∀ file ∈ files, (∃ path ∈ paths, FoundBelow tree folder path file.components) → ∀ language : Option Text,
        language.bind Text.nonBlank? = none →
        (LanguageTable.builtinOf? (languageFor file language)).isSome = true ∧
          LanguageTable.knows (languageFor file language) = true := by
  refine ⟨collectFiles_eq_error_iff, fun files collected => ⟨pairwise_precedes_collected collected,
    fun components => exists_mem_collected_iff proper collected,
    fun others otherFiles otherCollected => map_components_collected proper collected otherCollected, ?_, ?_⟩⟩
  · intro others same
    obtain ⟨otherFiles, otherCollected⟩ := exists_collected_of_subset collected fun path => (same path).mp
    exact ⟨otherFiles, otherCollected, map_components_collected proper collected otherCollected fun components =>
      ⟨.mono fun path => (same path).mp, .mono fun path => (same path).mpr⟩⟩
  · rintro file - ⟨path, -, below⟩ language silent
    have known := below.languageFor silent
    exact ⟨known, LanguageTable.knows_of_builtinOf? known⟩

/-- A file of an unknown kind is named, a folder too, and a file below that folder once more in another spelling. -/
theorem collectFiles_asked_overlapping :
    let tree : FileTree := ⟨[(["notes.bin"], .binary), (["src"], .folder), (["src", "Main.RS"], .text ""),
      (["src", ".git"], .folder), (["src", ".git", "a.rs"], .text "")]⟩
    let paths : List Path := ["notes.bin", "src/", "src//Main.RS"]
    tree.IsProper ∧ collectFiles tree [] paths = .ok ["notes.bin", "src/Main.RS"] ∧
      (¬ ∃ fault, collectFiles tree [] paths = .error fault) ∧ (∃ fault, collectFiles tree [] ["lib"] = .error fault) ∧
      ¬ Asked tree [] paths (Path.components "src/.git/a.rs") ∧
      (∃ files, collectFiles tree [] paths.reverse = .ok files ∧
        files.map Path.components = [Path.components "notes.bin", Path.components "src/Main.RS"]) ∧
      FoundBelow tree [] "src/" (Path.components "src/Main.RS") ∧
      LanguageTable.knows (languageFor "src/Main.RS" none) = true := by
  intro tree paths
  have proper : tree.IsProper := ⟨by decide +kernel, by decide +kernel⟩
  -- The file below the folder is gathered twice, in two spellings that are told apart by nothing but a stroke.
  have gathered : (gather tree [] paths).files = (["notes.bin", "src/Main.RS", "src//Main.RS"] : List Path) := by
    decide +kernel
  have collected : collectFiles tree [] paths = .ok ["notes.bin", "src/Main.RS"] := by
    refine collectFiles_eq_ok_iff.mpr ⟨by decide +kernel, ?_⟩
    rw [gathered, arrange_of_pairwise (by decide +kernel)]
    decide +kernel
  obtain ⟨fails, collects⟩ := @collectFiles_asked tree [] proper paths
  obtain ⟨-, asked, -, unordered, known⟩ := collects _ collected
  have below : FoundBelow tree [] "src/" (Path.components "src/Main.RS") := by
    have located : tree.locate [] "src/" = .ok ["src"] := FileTree.leadsTo_iff.mp (by decide +kernel)
    have kind : HasKnownExtension "Main.RS" := ⟨"RS".toList, by decide +kernel, by decide +kernel⟩
    exact @FoundBelow.intro tree [] "src/" ["src"] [] "Main.RS" (.text "") located (by decide +kernel) (by decide +kernel)
      rfl (by decide +kernel) kind
  refine ⟨proper, collected, ?_, ?_, ?_, ?_, below, ?_⟩
  · rw [fails]
    decide +kernel
  · exact (@collectFiles_asked tree [] proper ["lib"]).1.mpr (by decide +kernel)
  · rw [← asked]
    decide +kernel
  · exact unordered paths.reverse fun path => List.mem_reverse
  · exact (known "src/Main.RS" (by simp) ⟨"src/", by simp [paths], below⟩ none rfl).2

end Command

end Masthead
