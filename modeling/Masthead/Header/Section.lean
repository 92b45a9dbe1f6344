import Masthead.Header.Bounds

/-!
# Sections of a header

Three parts of a header belong to its readers: the description, the file history and the to-do
list. A section begins below the line that names it and ends before the next such line or rule.
-/

namespace Masthead.Header

/-- A part of a header whose content is written by hand. -/
inductive Section
  | description
  | fileHistory
  | todoList
  deriving DecidableEq, Repr

namespace Section

def all : List Section := [description, fileHistory, todoList]

/-- The name of a section as it stands in a header. -/
def label : Section → Text
  | description => "Description"
  | fileHistory => "File History"
  | todoList => "To-Do List"

end Section

/-- Whether a text is a label with a colon behind it. -/
def isLabelText (label text : Text) : Bool :=
  match Text.after? label text with
  | none => false
  | some rest =>
    match Text.trimStart rest with
    | ':' :: more => Text.isBlank more
    | _ => false

def sectionLabel? (comment line : Text) : Option Section :=
  Section.all.find? fun part => isLabelText part.label (commentText comment line)

/-- The position of the first line that names a section. -/
def findLabel? (comment : Text) (lines : List Text) (part : Section) : Option Nat :=
  lines.findIdx? fun line => sectionLabel? comment line == some part

def endsSection (comment line : Text) : Bool :=
  (sectionLabel? comment line).isSome || isSeparator comment line

/-- Lines from `start` up to but not including `stop`. -/
structure Span where
  start : Nat
  stop : Nat
  deriving DecidableEq, Repr

namespace Span

def slice (span : Span) (lines : List Text) : List Text :=
  (lines.take span.stop).drop span.start

/-- The lines with those of the span replaced. -/
def replace (span : Span) (replacement lines : List Text) : List Text :=
  lines.take span.start ++ replacement ++ lines.drop span.stop

end Span

/-- The lines of a section below the one that names it. -/
def sectionBody? (comment : Text) (lines : List Text) (part : Section) : Option Span :=
  (findLabel? comment lines part).map fun label =>
    let body := (lines.drop (label + 1)).takeWhile fun line => !endsSection comment line
    ⟨label + 1, label + 1 + body.length⟩

end Masthead.Header
