import Masthead.Variables
import Masthead.Header.Bounds
import Masthead.Header.Field

/-!
# Volatile fields

Two fields of a header change whenever the file is saved: when and by whom it was last updated, and
with which editor. Only their values are renewed. Labels that an older tool has written with
several words `Last` are repaired at the same time.
-/

namespace Masthead.Header

/-- How many lines are searched for labels to repair. -/
def repairWindow : Nat := 50

/-- A field that is renewed on saving. -/
inductive VolatileField
  | lastModified
  | editorInfo
  deriving DecidableEq, Repr

/-- A line with a new text. -/
structure LineChange where
  line : Nat
  text : Text
  deriving DecidableEq, Repr

/-- What follows a word and the white space behind it, of which there must be some. -/
def behindWord? (word text : Text) : Option Text :=
  match Text.after? word text with
  | none => none
  | some rest => if (rest.head?.any Text.isWhite) then some (Text.trimStart rest) else none

theorem length_lt_of_behindWord? {word text rest : Text} (found : behindWord? word text = some rest) :
    rest.length < text.length := by
  unfold behindWord? at found
  split at found
  · simp at found
  · rename_i behind equal
    rw [Text.after?_eq_some_iff] at equal
    split at found
    · rename_i isWhite
      simp only [Option.some.injEq] at found
      subst found equal
      cases behind with
      | nil => simp at isWhite
      | cons character more =>
        simp only [List.head?_cons, Option.any_some] at isWhite
        have shorter := (List.dropWhile_sublist (l := more) Text.isWhite).length_le
        simp only [Text.trimStart, List.dropWhile_cons, isWhite, if_true, List.length_append,
          List.length_cons]
        omega
    · simp at found

/-- The text behind any number of words `Last`, and how many there were. -/
def behindLasts (text : Text) : Nat × Text :=
  match _found : behindWord? "Last" text with
  | none => (0, text)
  | some rest => let (count, after) := behindLasts rest; (count + 1, after)
  termination_by text.length
  decreasing_by exact length_lt_of_behindWord? _found

namespace VolatileField

def all : List VolatileField := [lastModified, editorInfo]

def label : VolatileField → Text
  | lastModified => "Updated"
  | editorInfo => "Editor"

/-- How the field is written: blanks between colon and value belong to the label. -/
def shape (field : VolatileField) : FieldShape where
  labels := [field.label]
  isGap := fun character => character == ' ' || character == '\t'
  needsValue := false

/-- Whether the configuration wants the field renewed. -/
def isEnabled (config : Config) : VolatileField → Bool
  | lastModified => config.autoUpdateLastModified
  | editorInfo => config.autoUpdateEditor

/-- Whether a comment begins with the field's label. -/
def labels (field : VolatileField) (text : Text) : Bool :=
  match field with
  -- A label that waits to be repaired names the field as well.
  | lastModified => (FieldShape.colonBehind? field.label (behindLasts text).2).isSome
  | editorInfo => (FieldShape.colonBehind? field.label text).isSome

/-- Whether a line carries the field. -/
def matchesLine (comment : Text) (field : VolatileField) (line : Text) : Bool :=
  isCommentLine comment line && field.labels (commentText comment line)

def value (values : Variables) : VolatileField → Text
  | lastModified =>
    values.get "lastModifiedDate" ++ " (by ".toList ++ values.get "lastModifiedUser"
      ++ ")".toList
  | editorInfo => values.get "editorInfo"

/-- The line with a new value, if it carries the field. -/
def renew? (comment : Text) (field : VolatileField) (value line : Text) : Option Text :=
  if field.matchesLine comment line then
    (field.shape.cut? line).map fun found => found.head ++ value
  else none

end VolatileField

/-- New values for some fields. -/
abbrev FieldValues := List (VolatileField × Text)

/-- The line with its field renewed, if that changes it. -/
def refreshLine? (comment : Text) (fields : FieldValues) (line : Text) : Option Text :=
  (fields.findSome? fun (field, value) => field.renew? comment value line).filter (· ≠ line)

/-- The lines that change when a function gives some of them a new text, from a position on. -/
def changesFrom (change? : Text → Option Text) : Nat → List Text → List LineChange
  | _, [] => []
  | position, line :: rest =>
    let later := changesFrom change? (position + 1) rest
    match change? line with
    | some text => ⟨position, text⟩ :: later
    | none => later

/-- Renews the fields of a header. -/
def refreshFields (comment : Text) (fields : FieldValues) (bounds : Bounds) (lines : List Text) :
    List LineChange :=
  changesFrom (refreshLine? comment fields) bounds.first (bounds.slice lines)

/-! ## Repair of labels -/

def properLabel : Text := "Last Updated"

/-- The text behind a label with a repeated word `Last`. -/
def behindRepeatedLabel? (text : Text) : Option Text :=
  let (count, rest) := behindLasts text
  if count < 2 then none
  else match Text.after? "Updated" rest with
    | some after => if Text.atWordBoundary (some 'd') after then some after else none
    | none => none

/-- A label to be repaired at the beginning of a text, where `before` is the character already
passed, and the characters that the label takes. -/
def repeatedLabel? (before : Option Char) (text : Text) : Option Nat :=
  if Text.atWordBoundary before text then
    (behindRepeatedLabel? text).map fun rest => text.length - rest.length
  else none

/-- The line with its labels repaired. The first `skip` characters belong to a label that is
already repaired. -/
def repairAfter (before : Option Char) : Nat → Text → Text
  | _, [] => []
  | skip + 1, character :: rest => repairAfter (some character) skip rest
  | 0, character :: rest =>
    match repeatedLabel? before (character :: rest) with
    | some size => properLabel ++ repairAfter (some character) (size - 1) rest
    | none => character :: repairAfter (some character) 0 rest

/-- Whether a line has a label to be repaired. -/
def needsRepair (before : Option Char) : Text → Bool
  | [] => false
  | character :: rest =>
    (repeatedLabel? before (character :: rest)).isSome || needsRepair (some character) rest

/-- The repaired line, if there is anything to repair. -/
def repairLine? (line : Text) : Option Text :=
  if needsRepair none line then some (repairAfter none 0 line) else none

/-- Repairs the labels near the top of a file. -/
def collapseLabels (lines : List Text) : List LineChange :=
  changesFrom repairLine? 0 (lines.take repairWindow)

/-! ## Both together -/

def applyChanges (changes : List LineChange) (lines : List Text) : List Text :=
  changes.foldl (fun lines change => lines.set change.line change.text) lines

/-- Two lists of changes in the order of lines; of two changes to a line the second list's counts. -/
def mergeChanges : (changes others : List LineChange) → List LineChange
  | [], others => others
  | changes, [] => changes
  | change :: changes, other :: others =>
    if change.line < other.line then change :: mergeChanges changes (other :: others)
    else if change.line = other.line then other :: mergeChanges changes others
    else other :: mergeChanges (change :: changes) others

/-- All changes to a file with a header: first the labels are repaired, then the fields renewed. -/
def refreshChanges (comment : Text) (fields : FieldValues) (bounds : Bounds)
    (lines : List Text) : List LineChange :=
  let repairs := collapseLabels lines
  -- The fields are read off repaired lines, so a line that has both changes keeps its repair.
  mergeChanges repairs (refreshFields comment fields bounds (applyChanges repairs lines))

end Masthead.Header
