import Masthead.Path

/-!
# File trees

A file tree is a folder of files and folders, each found by the list of names that leads to it from
the root. Paths are followed through it name by name. Whatever cannot be done with a file has one
of a few causes.
-/

namespace Masthead

/-- Why a file cannot be read or written. -/
inductive FileFault
  | missing
  | notFolder
  | isFolder
  | notText
  /-- A name on the way is too long, or the path as a whole. -/
  | tooLong
  /-- The path holds a character that no name can hold. -/
  | badCharacter
  /-- Any other reason that the host gives. -/
  | refused (reason : Text)
  deriving DecidableEq, Repr

namespace FileFault

def message : FileFault → Text
  | missing => "No such file or directory (os error 2)"
  | notFolder => "Not a directory (os error 20)"
  | isFolder => "Is a directory (os error 21)"
  | notText => "stream did not contain valid UTF-8"
  | tooLong => "File name too long (os error 36)"
  | badCharacter => "file name contained an unexpected NUL byte"
  | refused reason => reason

end FileFault

/-- What a name leads to. -/
inductive FileEntry
  | text (content : Text)
  /-- A file whose bytes are no text. -/
  | binary
  /-- A file that the host does not open. -/
  | closed (reason : Text)
  | folder
  deriving DecidableEq, Repr

namespace FileEntry

def isFolder : FileEntry → Bool
  | folder => true
  | _ => false

end FileEntry

/-- Files and folders with the names that lead to them from the root. -/
structure FileTree where
  entries : List (List Text × FileEntry)
  deriving Repr

namespace FileTree

/-- What the names lead to; no names at all lead to the root, which is a folder. -/
def entry? (tree : FileTree) (names : List Text) : Option FileEntry :=
  if names.isEmpty then some .folder
  else (tree.entries.find? fun entry => entry.1 == names).map (·.2)

/-- The tree with an entry put where the names lead. -/
def put (tree : FileTree) (names : List Text) (entry : FileEntry) : FileTree :=
  if tree.entries.any (·.1 == names) then
    ⟨tree.entries.map fun old => if old.1 = names then (names, entry) else old⟩
  else ⟨tree.entries ++ [(names, entry)]⟩

/-- The tree without what the names lead to. -/
def remove (tree : FileTree) (names : List Text) : FileTree :=
  ⟨tree.entries.filter (·.1 ≠ names)⟩

/-- The tree with a file, and with all the folders above it. -/
def putWithFolders (tree : FileTree) (names : List Text) (entry : FileEntry) : FileTree :=
  let above := (List.range names.length).map fun count => names.take count
  -- The root is among those above, but never missing.
  let folders := above.filter fun folder => (tree.entry? folder).isNone
  (folders.foldl (fun grown folder => grown.put folder .folder) tree).put names entry

/-! ## Following paths -/

/-- How many bytes a name may have. -/
def nameLimit : Nat := 255

/-- How many bytes a path may have. -/
def pathLimit : Nat := 4095

/-- The names to which the parts of a path lead from a folder. Every name on the way must be one of
a folder, and the last one may be missing. -/
def follow (tree : FileTree) (names : List Text) : List Text → Except FileFault (List Text)
  | [] => .ok names
  | part :: parts =>
    match tree.entry? names with
    | none => .error .missing
    | some entry =>
      if !entry.isFolder then .error .notFolder
      -- Doubled strokes, and one at the end, leave empty parts.
      else if part = [] ∨ part = ['.'] then follow tree names parts
      -- Above the root lies the root itself, which has no last name to drop.
      else if part = ['.', '.'] then follow tree names.dropLast parts
      else if nameLimit < Text.byteCount part then .error .tooLong
      else follow tree (names ++ [part]) parts

/-- Why a path leads nowhere, whatever there is in a tree. -/
def pathFault? (path : Path) : Option FileFault :=
  if path.isEmpty then some .missing
  else if path.contains '\x00' then some .badCharacter
  else if pathLimit < Text.byteCount path then some .tooLong
  else none

/-- The names to which a path leads, seen from a folder. -/
def locate (tree : FileTree) (folder : List Text) (path : Path) : Except FileFault (List Text) :=
  match pathFault? path with
  | some fault => .error fault
  | none => tree.follow (if Path.isAbsolute path then [] else folder) (Text.splitOn '/' path)

def open? (tree : FileTree) (folder : List Text) (path : Path) : Except FileFault FileEntry :=
  match tree.locate folder path with
  | .error fault => .error fault
  | .ok names =>
    match tree.entry? names with
    | some entry => .ok entry
    | none => .error .missing

def holds (tree : FileTree) (folder : List Text) (path : Path) : Bool :=
  (tree.open? folder path).isOk

def isFile (tree : FileTree) (folder : List Text) (path : Path) : Bool :=
  match tree.open? folder path with
  | .ok entry => !entry.isFolder
  | .error _ => false

def isFolder (tree : FileTree) (folder : List Text) (path : Path) : Bool :=
  match tree.open? folder path with
  | .ok entry => entry.isFolder
  | .error _ => false

/-! ## Reading and writing -/

def read (tree : FileTree) (folder : List Text) (path : Path) : Except FileFault Text :=
  match tree.open? folder path with
  | .error fault => .error fault
  | .ok (.text content) => .ok content
  | .ok .binary => .error .notText
  | .ok (.closed reason) => .error (.refused reason)
  | .ok .folder => .error .isFolder

/-- The path of what holds a path's last name, up to the stroke before that name. -/
def holder (path : Path) : Path :=
  let named := path.reverse.dropWhile (· == '/')
  (named.dropWhile (· ≠ '/')).reverse

/-- Why a path with a stroke at its end cannot be written: it asks for a folder. -/
def folderFault (tree : FileTree) (folder : List Text) (path : Path) : FileFault :=
  let above := holder path
  match tree.locate folder (if above.isEmpty then ['.'] else above) with
  | .error fault => fault
  | .ok _ => .isFolder

/-- Where a file may be written. -/
def writable (tree : FileTree) (folder : List Text) (path : Path) :
    Except FileFault (List Text) :=
  if path.getLast? = some '/' then
    .error ((pathFault? path).getD (tree.folderFault folder path))
  else match tree.locate folder path with
    | .error fault => .error fault
    | .ok names =>
      match tree.entry? names with
      | some .folder => .error .isFolder
      | some (.closed reason) => .error (.refused reason)
      | _ => .ok names

/-- Writes a text into a file, which is made if it is missing. -/
def write (tree : FileTree) (folder : List Text) (path : Path) (content : Text) :
    Except FileFault FileTree :=
  (tree.writable folder path).map fun names => tree.put names (.text content)

/-- Writes a text at the end of a file, which is made if it is missing. -/
def append (tree : FileTree) (folder : List Text) (path : Path) (content : Text) :
    Except FileFault FileTree :=
  (tree.writable folder path).map fun names =>
    match tree.entry? names with
    | some (.text old) => tree.put names (.text (old ++ content))
    -- What is no text does not become one by a text behind it.
    | some .binary => tree
    | _ => tree.put names (.text content)

/-! ## Walking folders -/

/-- The names of `names` below a folder. -/
def below? : (folder names : List Text) → Option (List Text)
  | [], names => some names
  | _ :: _, [] => none
  | expected :: folder, name :: names => if expected = name then below? folder names else none

def isHidden (name : Text) : Bool :=
  Text.startsWith ['.'] name

/-- The order in which a walk meets names: a folder before what it holds, and what it holds before
the next name. -/
def meetsBefore : List Text → List Text → Bool
  | [], _ => true
  | _ :: _, [] => false
  | first :: names, second :: others =>
    if first = second then meetsBefore names others else Text.lessOrEqual first second

/-- The files below a folder that are reached through no hidden name, by the names that lead to
them from there, in the order of a walk. -/
def filesBelow (tree : FileTree) (folder : List Text) : List (List Text) :=
  let files := tree.entries.filter fun entry => !entry.2.isFolder
  let reached := (files.filterMap fun entry => below? folder entry.1).filter fun names =>
    !names.isEmpty && !names.any isHidden
  reached.mergeSort meetsBefore

end FileTree

end Masthead
