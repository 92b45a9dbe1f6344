import Masthead.Placeholder
import Masthead.Header.Section
import Masthead.Header.Field

/-!
# Narrative content

What people wrote into a header: the lines of its three sections, and the day it was created. The
narrative is taken out of an old header and put into one that is rendered anew.
-/

namespace Masthead.Header

def creationField : FieldShape where
  labels := ["First Created", "Creation Date", "Created"]
  isGap := Text.isWhite
  needsValue := true

/-- Whether a line is scaffolding: it holds a placeholder or one of the sentinel texts. -/
def isScaffolding (sentinels : List Text) (line : Text) : Bool :=
  Placeholder.occurs line
    || (sentinels.map Text.trim).any fun sentinel => !sentinel.isEmpty && Text.holds sentinel line

/-- Whether a line is a bullet with nothing behind it. -/
def isBareBullet (comment line : Text) : Bool :=
  let text := commentText comment line
  text == ['o'] || text == ['*'] || text == ['-']

/-- The lines without blank ones at either end. -/
def trimBlankLines (comment : Text) (lines : List Text) : List Text :=
  ((lines.dropWhile (isBlankComment comment)).reverse.dropWhile (isBlankComment comment)).reverse

/-- What people wrote into a header. -/
structure Narrative where
  description : List Text
  fileHistory : List Text
  todoList : List Text
  creationDate : Option Text
  deriving DecidableEq, Repr

namespace Narrative

/-- The lines that a section keeps: all but scaffolding, and blank lines only between others. -/
def sectionLines (comment : Text) (sentinels header : List Text) (part : Section) : List Text :=
  match sectionBody? comment header part with
  | none => []
  | some span =>
    trimBlankLines comment ((span.slice header).filter fun line => !isScaffolding sentinels line)

/-- The first day of creation in a header that is no scaffolding. -/
def creationDateOf? (sentinels header : List Text) : Option Text :=
  ((header.filterMap creationField.cut?).map (·.value)).find? fun value =>
    !isScaffolding sentinels value

/-- Takes the narrative out of a header. -/
def extract (comment : Text) (sentinels header : List Text) : Narrative where
  description := sectionLines comment sentinels header .description
  fileHistory := sectionLines comment sentinels header .fileHistory
  todoList := sectionLines comment sentinels header .todoList
  creationDate := creationDateOf? sentinels header

def lines (narrative : Narrative) : Section → List Text
  | .description => narrative.description
  | .fileHistory => narrative.fileHistory
  | .todoList => narrative.todoList

/-- Whether a section says more than blank lines and bare bullets. -/
def hasContent (comment : Text) (narrative : Narrative) (part : Section) : Bool :=
  (narrative.lines part).any fun line =>
    !isBlankComment comment line && !isBareBullet comment line

/-- A body in which everything between its leading and trailing blank lines is replaced. -/
def framed (comment : Text) (body replacement : List Text) : List Text :=
  let leading := body.takeWhile (isBlankComment comment)
  let rest := body.dropWhile (isBlankComment comment)
  -- Where all lines are blank they are all leading, and none are trailing.
  let trailing := (rest.reverse.takeWhile (isBlankComment comment)).reverse
  leading ++ replacement ++ trailing

/-- The sections of a header that the narrative has something to say in, the lowest first. -/
def places (comment : Text) (narrative : Narrative) (fresh : List Text) : List (Span × Section) :=
  let found := (Section.all.filter (narrative.hasContent comment)).filterMap fun part =>
    (sectionBody? comment fresh part).map fun span => (span, part)
  found.mergeSort fun place other => other.1.start ≤ place.1.start

/-- Puts the lines of one section in their place. -/
def putSection (comment : Text) (narrative : Narrative) (header : List Text)
    (place : Span × Section) : List Text :=
  let body := place.1.slice header
  place.1.replace (framed comment body (narrative.lines place.2)) header

/-- The lines with the first day of creation among them replaced. -/
def putDate (date : Text) : List Text → List Text
  | [] => []
  | line :: rest =>
    match creationField.cut? line with
    | some found => (found.head ++ date) :: rest
    | none => line :: putDate date rest

/-- Puts the narrative into a header that is rendered anew. Sections are filled from below, so that
the lines above keep their places; a section without content keeps its scaffolding. -/
def mergeInto (comment : Text) (narrative : Narrative) (fresh : List Text) : List Text :=
  let merged := (narrative.places comment fresh).foldl (narrative.putSection comment) fresh
  match narrative.creationDate with
  | some date => putDate date merged
  | none => merged

end Narrative

end Masthead.Header
