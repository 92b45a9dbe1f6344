import Masthead.Text.Word
import Masthead.Version
import Masthead.Header.Section

/-!
# Numbered entries

The file history and the to-do list consist of bulleted lines, and each line carries its number in
parentheses. Reading the numbers of a list tells which one comes next and where it goes.
-/

namespace Masthead.Header

/-! ## Signatures -/

/-- The digits of a version as they stand in a signature. -/
structure VersionDigits where
  major : Text
  minor : Option Text
  patch : Option Text
  deriving DecidableEq, Repr

/-- Digits behind one of some signs, and what follows them. -/
def digitsBehind? (isSign : Char → Bool) : Text → Option (Text × Text)
  | [] => none
  | sign :: rest =>
    let digits := rest.takeWhile Text.isDigit
    if isSign sign && !digits.isEmpty then some (digits, rest.dropWhile Text.isDigit) else none

/-- Digits that may be missing, and what follows them. -/
def optionalDigits (isSign : Char → Bool) (text : Text) : Option Text × Text :=
  match digitsBehind? isSign text with
  | some (digits, rest) => (some digits, rest)
  | none => (none, text)

/-- The digits of a version behind an opening parenthesis and before a comma. -/
def versionDigitsHere? : Text → Option VersionDigits
  | '(' :: rest =>
    let unmarked := (Text.after? ['v'] rest).getD rest
    let major := unmarked.takeWhile Text.isDigit
    let (minor, afterMinor) := optionalDigits (· == '.') (unmarked.dropWhile Text.isDigit)
    -- A version may be written `1.2p3`, or `1p3` without its minor number.
    let (patch, afterPatch) :=
      optionalDigits (fun sign => sign == '.' || sign == 'p') afterMinor
    if !major.isEmpty && afterPatch.head? == some ',' then some ⟨major, minor, patch⟩ else none
  | _ => none

/-- The digits of the first version in a line. -/
def versionDigits? : Text → Option VersionDigits
  | [] => none
  | character :: rest =>
    match versionDigitsHere? (character :: rest) with
    | some digits => some digits
    | none => versionDigits? rest

/-- A number as entries carry it. -/
def entryNumber? (digits : Text) : Option Nat :=
  Text.naturalUpTo? numberLimit digits

/-- The number of digits that may be missing. -/
def optionalNumber? : Option Text → Option Nat
  | none => some 0
  | some digits => entryNumber? digits

/-- The version of the entry in a line. -/
def parseVersion? (line : Text) : Option Version := do
  let digits ← versionDigits? line
  let major ← entryNumber? digits.major
  let minor ← optionalNumber? digits.minor
  let patch ← optionalNumber? digits.patch
  some ⟨major, minor, patch⟩

/-- The digits of a to-do entry behind an opening parenthesis and before a comma. -/
def todoDigitsHere? (text : Text) : Option Text := do
  let rest ← Text.after? "(ToDo#" text
  let digits := rest.takeWhile Text.isDigit
  if !digits.isEmpty && (rest.dropWhile Text.isDigit).head? == some ',' then some digits else none

/-- The digits of the first to-do entry in a line. -/
def todoDigits? : Text → Option Text
  | [] => none
  | character :: rest =>
    match todoDigitsHere? (character :: rest) with
    | some digits => some digits
    | none => todoDigits? rest

/-- The index of the to-do entry in a line. -/
def parseTodo? (line : Text) : Option Nat :=
  (todoDigits? line).bind entryNumber?

/-! ## Lists of entries -/

/-- The list that an entry belongs to. -/
inductive EntryKind
  | version
  | todo
  deriving DecidableEq, Repr

def EntryKind.part : EntryKind → Section
  | version => .fileHistory
  | todo => .todoList

/-- Whether a line is an entry of a list: a bulleted line of the comment. -/
def isEntryLine (comment line : Text) : Bool :=
  isCommentLine comment line && !isSeparator comment line
    && Text.startsWith ['*'] (commentText comment line)

/-- A list of entries: the line that names its section, and the entries directly below it. -/
structure EntryList where
  kind : EntryKind
  label : Option Nat
  entries : List Text
  deriving DecidableEq, Repr

namespace EntryList

def scan (comment : Text) (lines : List Text) (kind : EntryKind) : EntryList :=
  match findLabel? comment lines kind.part with
  | none => ⟨kind, none, []⟩
  | some label => ⟨kind, some label, (lines.drop (label + 1)).takeWhile (isEntryLine comment)⟩

def lastEntry? (list : EntryList) : Option Nat :=
  if list.entries.isEmpty then none else list.label.map (· + list.entries.length)

/-- The versions that the entries of a version history carry. -/
def versions (list : EntryList) : List Version :=
  if list.kind = .version then list.entries.filterMap parseVersion? else []

def todoIndices (list : EntryList) : List Nat :=
  if list.kind = .todo then list.entries.filterMap parseTodo? else []

def greatest? : List Version → Option Version
  | [] => none
  | version :: versions => some (versions.foldl Version.greater version)

/-- The next version where a format shows some fields: versions are compared as they read. -/
def nextVersionFor (fields : VersionFields) (list : EntryList) : Version :=
  match greatest? (list.versions.map (·.masked fields)) with
  | some version => version.bump fields
  | none => .initial

/-- The next version where all fields are shown. -/
def nextVersion (list : EntryList) : Version :=
  list.nextVersionFor .all

def nextTodoIndex (list : EntryList) : Nat :=
  match list.todoIndices with
  | [] => 0
  | index :: indices => nextNumber (indices.foldl max index)

/-- Where a new entry goes: below the last one, or below the label, or at the top of the file. -/
def insertionPoint (list : EntryList) : Nat :=
  match list.label with
  | some label => label + 1 + list.entries.length
  | none => 0

end EntryList

end Masthead.Header
