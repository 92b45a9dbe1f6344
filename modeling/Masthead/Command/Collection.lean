import Masthead.FileTree
import Masthead.Language.Table
import Masthead.Command.Fault

/-!
# Collection of files

Which files a run works on. A file that is named is taken as it is; of a folder all files are taken
that are not hidden and whose comments are known.
-/

namespace Masthead.Command

/-- Files of a folder, apart from those whose comments are unknown. -/
structure Walked where
  taken : List Path
  skipped : List Path
  deriving DecidableEq, Repr

/-- Whether the comments of a file are known by its extension. -/
def hasKnownComments (path : Path) : Bool :=
  path.extension?.any LanguageTable.knows

/-- The files below a folder, by paths that begin with the path of the folder. Every entry of a tree
can be read: that an entry is passed over because it cannot, with a message, is out of scope. So is a
path that becomes too long on the way down, which reading a file refuses and a walk does not. -/
def walk (tree : FileTree) (folder : List Text) (path : Path) : Walked :=
  match tree.locate folder path with
  | .error _ => ⟨[], []⟩
  | .ok names =>
    let files := (tree.filesBelow names).map fun below => below.foldl Path.join path
    let (taken, skipped) := files.partition hasKnownComments
    ⟨taken, skipped⟩

/-- The files that paths name, in the order of the paths, and whether all of them name any. -/
structure Gathered where
  files : List Path
  skipped : List Path
  fault : Option Fault
  deriving DecidableEq, Repr

/-- Gathers the files that paths name, up to the first path that names nothing. -/
def gather (tree : FileTree) (folder : List Text) : List Path → Gathered
  | [] => ⟨[], [], none⟩
  | path :: paths =>
    if tree.isFile folder path then
      let rest := gather tree folder paths
      { rest with files := path :: rest.files }
    else if tree.isFolder folder path then
      let walked := walk tree folder path
      let rest := gather tree folder paths
      { rest with
        files := walked.taken ++ rest.files
        skipped := walked.skipped ++ rest.skipped }
    else ⟨[], [], some (.noSuchPath path)⟩

/-- Paths in order, each once. -/
def arrange (paths : List Path) : List Path :=
  (paths.mergeSort Path.lessOrEqual).eraseRepsBy Path.same

/-- The files that paths name, in order and each once. -/
def collectFiles (tree : FileTree) (folder : List Text) (paths : List Path) :
    Except Fault (List Path) :=
  let gathered := gather tree folder paths
  match gathered.fault with
  | some fault => .error fault
  | none => .ok (arrange gathered.files)

end Masthead.Command
