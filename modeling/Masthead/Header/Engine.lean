import Masthead.Document
import Masthead.Text.Case
import Masthead.Template.Set
import Masthead.Header.Narrative
import Masthead.Header.Entry
import Masthead.Header.Refresh

/-!
# Edits of a header

What is to be done to a document so that it gets a header, or so that the header it has is
rendered anew, refreshed or given another entry. Every operation reads a document and returns an
edit; applying the edit is a step of its own. Nothing here fails: where a document has not the
expected form, the edit says so by a notice.
-/

namespace Masthead.Header

/-- A condition that a user should know about. -/
inductive Notice
  /-- The document has a header already. -/
  | alreadyPresent
  /-- There is no header that could be rendered anew. -/
  | notFound
  /-- The section is missing, so its entry goes to the top of the file. -/
  | sectionNotFound (part : Section)
  /-- The rendered header has no rule by which it would be found again. -/
  | unlocatable
  /-- No rule closes the header, so that its extent is a guess. -/
  | unterminated
  deriving DecidableEq, Repr

def Notice.message : Notice → Text
  | alreadyPresent => "File already has a header"
  | notFound => "No existing header found"
  | sectionNotFound part =>
    "'".toList ++ part.label ++ "' section not found; inserting at top of file".toList
  | unlocatable => "Header template has no separator line; refusing to insert"
  | unterminated => "Header has no closing separator; leaving it unchanged"

/-- What becomes of a document's header. -/
inductive Outcome
  /-- Lines are put before the line at a position. -/
  | inserted (position : Nat) (lines : List Text) (notice : Option Notice)
  /-- The lines within bounds are replaced. -/
  | updated (bounds : Bounds) (lines : List Text)
  /-- Nothing is done. -/
  | skipped (notice : Notice)
  deriving DecidableEq, Repr

namespace Outcome

def apply (document : Document) : Outcome → Document
  | inserted position lines _ => document.insertLines position lines
  | updated bounds lines => document.replaceLines bounds.first bounds.last lines
  | skipped _ => document

def notice : Outcome → Option Notice
  | inserted _ _ notice => notice
  | updated _ _ => none
  | skipped notice => some notice

def isChange : Outcome → Bool
  | skipped _ => false
  | _ => true

end Outcome

/-- The notice of a list whose section is missing. -/
def EntryList.notice? (list : EntryList) : Option Notice :=
  if list.label.isNone then some (.sectionNotFound list.kind.part) else none

/-- A new entry and the position of the line that it goes before. -/
structure EntryInsertion where
  kind : EntryKind
  position : Nat
  text : Text
  notice : Option Notice
  deriving DecidableEq, Repr

def EntryInsertion.apply (document : Document) (entry : EntryInsertion) : Document :=
  document.insertLines entry.position [entry.text]

/-- The document with some of its lines changed. -/
def applyLineChanges (document : Document) (changes : List LineChange) : Document :=
  changes.foldl (fun document change => document.setLine change.line change.text) document

/-! ## First lines -/

/-- Beginnings of a first line that has to stay the first, in lower case. -/
def pinnedBeginnings : List Text := [
  "#!", "<?xml", "<!doctype", "# encoding:", "# frozen_string_literal:", "<?php", "# escape",
  "# syntax"]

/-- Whether a first line has to stay the first. -/
def isPinned (line : Text) : Bool :=
  pinnedBeginnings.any fun beginning => Text.startsWith beginning (Text.lower line)

/-- The line that names the interpreter of a language. -/
def shebang? (config : Config) (language : Text) : Option Text :=
  ((valueOf? language config.shebangPerLanguage).bind Text.nonBlank?).map fun interpreter =>
    "#!".toList ++ Text.trim interpreter

/-! ## The engine -/

/-- What headers are made from: templates, and the instant at which they are written. -/
structure Engine where
  templates : TemplateSet
  now : Calendar.Instant

namespace Engine

def values (engine : Engine) (config : Config) (context : FileContext) : Variables :=
  Variables.resolve engine.now config.timeZone config context

/-- The lines of a new header. -/
def render (engine : Engine) (config : Config) (context : FileContext) : List Text :=
  (engine.templates.header config.headerStyle).map (engine.values config context).fill

def hasHeader (config : Config) (context : FileContext) (document : Document) : Bool :=
  Header.hasHeader (commentOf config context) document.lines

def locate (config : Config) (context : FileContext) (document : Document) : Option Bounds :=
  Header.locate (commentOf config context) document.lines

/-- The lines that go before a header, and the position where they go. A pinned line stays above,
with a blank line between; else the interpreter of the language is named. -/
def opening (config : Config) (context : FileContext) (lines : List Text) : Nat × List Text :=
  if lines.head?.any isPinned then (1, [[]])
  else (0, (shebang? config context.language).toList)

/-- The blank line between a header and what follows it, if that is not blank. -/
def spacing (lines : List Text) (position : Nat) : List Text :=
  if lines[position]?.any fun next => !Text.isBlank next then [[]] else []

/-- Inserts a new header, unless there is one. -/
def insert (engine : Engine) (config : Config) (context : FileContext) (document : Document) :
    Outcome :=
  let header := engine.render config context
  if hasHeader config context document then .skipped .alreadyPresent
  -- Without a rule the header would be put there again by every later run.
  else if !header.any (isCommentRule (commentOf config context)) then .skipped .unlocatable
  else
    let (position, before) := opening config context document.lines
    .inserted position (before ++ header ++ spacing document.lines position) none

/-- The notice of a header that has been inserted because there was none to be rendered anew. -/
def asUpdate : Outcome → Outcome
  | .inserted position lines _ => .inserted position lines (some .notFound)
  | outcome => outcome

/-- Whether bounds enclose a comment that a rule closes. -/
def isTerminated (comment : Text) (lines : List Text) (bounds : Bounds) : Bool :=
  -- A single rule at the end of a document does not close itself.
  bounds.first ≠ bounds.last && lines[bounds.last]?.any (isSeparator comment)
    && isCommentBlock comment lines bounds

/-- Renders the header anew and keeps its narrative. A document without a header gets one, and a
header that no rule closes is left alone. -/
def update (engine : Engine) (config : Config) (context : FileContext) (document : Document) :
    Outcome :=
  let comment := commentOf config context
  if !hasHeader config context document then asUpdate (engine.insert config context document)
  else match locate config context document with
    | none => .skipped .notFound
    | some bounds =>
      -- A guessed extent may reach into comments that are none of the header's.
      if isTerminated comment document.lines bounds then
        let narrative := Narrative.extract comment config.extractionSentinels
          (bounds.slice document.lines)
        .updated bounds (narrative.mergeInto comment (engine.render config context))
      else .skipped .unterminated

/-- A number of an entry, with two digits at least. -/
def numeral (number : Nat) : Text :=
  Text.paddedDecimal 2 number

def versionVariables (config : Config) (list : EntryList) (values : Variables) : Variables :=
  let format := config.effectiveVersionFormat
  let version := list.nextVersionFor (.shownBy format)
  (((values.set "version" (version.format format)).set "major" (numeral version.major)).set
    "minor" (numeral version.minor)).set "patch" (numeral version.patch)

def entryText (engine : Engine) (config : Config) (context : FileContext) (list : EntryList) :
    EntryKind → Text
  | .version =>
    (versionVariables config list (engine.values config context)).fill
      (engine.templates.versionLine config.headerStyle)
  | .todo =>
    ((engine.values config context).set "index" (numeral list.nextTodoIndex)).fill
      (engine.templates.todoLine config.headerStyle)

/-- Adds an entry to a list, numbered after the greatest number in it. -/
def insertEntry (engine : Engine) (config : Config) (context : FileContext) (document : Document)
    (kind : EntryKind) : EntryInsertion :=
  let list := EntryList.scan (commentOf config context) document.lines kind
  { kind
    position := list.insertionPoint
    text := engine.entryText config context list kind
    notice := list.notice? }

/-- The new values of the fields that the configuration wants renewed. -/
def fieldValues (engine : Engine) (config : Config) (context : FileContext) : FieldValues :=
  (VolatileField.all.filter (·.isEnabled config)).map fun field =>
    (field, field.value (engine.values config context))

/-- Refreshes the volatile fields; nothing is returned if there is no header or no change. -/
def refresh (engine : Engine) (config : Config) (context : FileContext) (document : Document) :
    Option (List LineChange) :=
  (locate config context document).bind fun bounds =>
    let changes := refreshChanges (commentOf config context) (engine.fieldValues config context)
      bounds document.lines
    if changes.isEmpty then none else some changes

end Engine

end Masthead.Header
