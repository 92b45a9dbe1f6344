import Masthead.Path
import Masthead.Data.Shortest
import Masthead.Data.Json.Printer

/-!
# Reports

What a run did to each file, and the counts over all of them.
-/

namespace Masthead

/-- What a run did, or would do, to a file. -/
inductive FileAction
  | added
  | updated
  | refreshed
  | entryAdded
  | unchanged
  /-- The file has no header, and one is needed. -/
  | missing
  /-- The file could not be read or written. -/
  | failed
  deriving DecidableEq, Repr

namespace FileAction

def all : List FileAction :=
  [added, updated, refreshed, entryAdded, unchanged, missing, failed]

def name : FileAction → Text
  | added => "added"
  | updated => "updated"
  | refreshed => "refreshed"
  | entryAdded => "entry-added"
  | unchanged => "unchanged"
  | missing => "missing"
  | failed => "failed"

/-- Whether the action changes the text of a file. -/
def isChange : FileAction → Bool
  | added | updated | refreshed | entryAdded => true
  | unchanged | missing | failed => false

end FileAction

/-- What happened to one file. -/
structure FileReport where
  path : Path
  action : FileAction
  notice : Option Text
  deriving DecidableEq, Repr

/-- Counts over the files of a run. -/
structure Summary where
  total : Nat
  changed : Nat
  unchanged : Nat
  missing : Nat
  failed : Nat
  milliseconds : Nat
  deriving DecidableEq, Repr

namespace Summary

def ofReports (reports : List FileReport) (milliseconds : Nat) : Summary where
  total := reports.length
  changed := reports.countP (·.action.isChange)
  unchanged := reports.countP (·.action = .unchanged)
  missing := reports.countP (·.action = .missing)
  failed := reports.countP (·.action = .failed)
  milliseconds := milliseconds

open Data in
/-- The counts as a table. -/
def value (summary : Summary) : Value := .table [
  ("total_files", .integer summary.total),
  ("changed", .integer summary.changed),
  ("unchanged", .integer summary.unchanged),
  ("missing", .integer summary.missing),
  ("failed", .integer summary.failed),
  ("processing_time_seconds", .number (secondsText summary.milliseconds))]

end Summary

open Data in
/-- The report on a file as a table; a notice is left out if there is none. -/
def FileReport.value (report : FileReport) : Value :=
  let notice : List (Text × Value) := match report.notice with
    | some notice => [("notice", .text notice)]
    | none => []
  .table (("path", .text report.path) :: ("action", .text report.action.name) :: notice)

open Data in
def reportText (operation : Text) (reports : List FileReport) (summary : Summary) : Text :=
  Json.pretty 0 (.table [
    ("operation", .text operation),
    ("summary", summary.value),
    ("files", .list (reports.map (·.value)))])

end Masthead
