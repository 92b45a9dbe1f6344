import Std.Time.DateTime.Timestamp
import Masthead.Command.Run

/-!
# The program

The run of a host: the files that the arguments name are read into a file tree, the run takes place
in that tree, and the files that it has changed there are written back. Nothing is decided here.
-/

namespace Masthead.Host

/-- Where some names lead on the host. -/
def spot (names : List Text) : IO.FS.DirEntry :=
  ⟨"/", (Text.joinWith ['/'] names).toString⟩

/-- The file that the host has at a spot. -/
def readFile (names : List Text) : IO FileEntry := do
  try
    let bytes ← IO.FS.readBinFile (spot names).path
    match String.fromUTF8? bytes with
    | some content => return .text content.toList
    | none => return .binary
  catch fault => return .closed (toString fault)

/-- What the host has at a spot, if there is anything. -/
def observe (names : List Text) : IO (Option FileEntry) := do
  try
    match (← (spot names).path.metadata).type with
    | .dir => return some .folder
    | .file => return some (← readFile names)
    | _ => return some (.closed "not a file")
  catch _ => return none

/-- The tree with everything on the way along the parts of a path, and the names to which they
lead. -/
def observeAlong (tree : FileTree) (names : List Text) : List Text → IO (FileTree × List Text)
  | [] => return (tree, names)
  | part :: parts => do
    if part.isEmpty || part = ['.'] then observeAlong tree names parts
    else
      let next := if part = ['.', '.'] then names.dropLast else names ++ [part]
      match ← observe next with
      | none => return (tree, next)
      | some entry => observeAlong (if next.isEmpty then tree else tree.put next entry) next parts

/-- The tree with what a path leads to, and the names to which it leads. -/
def observePath (folder : List Text) (tree : FileTree) (path : Path) :
    IO (FileTree × List Text) :=
  observeAlong tree [] ((if Path.isAbsolute path then [] else folder) ++ Text.splitOn '/' path)

/-- The tree with all files below a folder that is not hidden. Links are not followed. -/
partial def observeBelow (tree : FileTree) (names : List Text) : IO FileTree := do
  let mut grown := tree
  for entry in ← (spot names).path.readDir do
    let name := entry.fileName.toList
    unless FileTree.isHidden name do
      let below := names ++ [name]
      match (← entry.path.symlinkMetadata).type with
      | .dir => grown ← observeBelow (grown.put below .folder) below
      | .file => grown := grown.put below (← readFile below)
      | _ => pure ()
  return grown

/-- The tree with the files that a path names, whether it is one of a file or of a folder. -/
def observeFiles (folder : List Text) (tree : FileTree) (path : Path) : IO FileTree := do
  let (tree, names) ← observePath folder tree path
  if tree.isFolder folder path then observeBelow tree names else return tree

/-- The values of the variables that a run looks at. -/
def environment : IO (List (Text × Text)) := do
  let names := Command.configVariable :: Command.userVariables
  let values ← names.mapM fun name => do
    return (← IO.getEnv name.toString).map fun value => (name, value.toList)
  return values.filterMap id

def observeArguments (folder : List Text) (environment : List (Text × Text))
    (arguments : Command.Arguments) : IO FileTree := do
  let named := [arguments.config, arguments.templates, arguments.saveDiff, arguments.reportJson,
    valueOf? Command.configVariable environment].filterMap id
  let start ← observePath folder ⟨[]⟩ ['.']
  let single ← (Command.configFileName :: named).foldlM
    (fun tree path => return (← observePath folder tree path).1) start.1
  arguments.paths.foldlM (observeFiles folder) single

/-- Writes the files in which a tree differs from an older one. -/
def writeChanges (old new : FileTree) : IO Unit :=
  new.entries.forM fun (names, entry) =>
    match entry with
    | .text content =>
      if old.entry? names = some entry then pure ()
      else IO.FS.writeFile (spot names).path content.toString
    | _ => pure ()

/-- The surroundings of a run with some arguments. -/
def surroundings (arguments : List Text) : IO Command.Surroundings := do
  let started ← IO.monoMsNow
  let folder := (Text.splitOn '/' (← IO.currentDir).toString.toList).filter (!·.isEmpty)
  let environment ← environment
  let tree ← match Command.parse arguments with
    | .ok (_, given) => observeArguments folder environment given
    | .error _ => pure ⟨[]⟩
  return {
    tree, folder, environment
    now := (← Std.Time.Timestamp.now).toSecondsSinceUnixEpoch.val
    milliseconds := (← IO.monoMsNow) - started
    outputIsTerminal := ← (← IO.getStdout).isTty
    errorsAreTerminal := ← (← IO.getStderr).isTty }

end Masthead.Host

open Masthead in
/-- Runs the program with the arguments of the host. -/
def main (arguments : List String) : IO UInt32 := do
  let arguments := arguments.map String.toList
  let surroundings ← Host.surroundings arguments
  let result := Command.main surroundings arguments
  Host.writeChanges surroundings.tree result.tree
  IO.print result.output.toString
  IO.eprint result.errors.toString
  return result.exitCode.toUInt32
