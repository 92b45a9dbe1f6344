import Masthead.Data.Value

/-!
# Tables under construction

A document gives its tables piece by piece: by headers, by dotted keys and by headers of a table's
own parts. A table may be completed only in the ways that its origin allows, and no key may be
given twice.
-/

namespace Masthead.Data.Toml

/-- What first brought a table about. -/
inductive TableOrigin
  /-- A header of one of its parts. -/
  | implied
  /-- A header of its own. -/
  | header
  /-- A dotted key. -/
  | dotted
  deriving DecidableEq, Repr

/-- A value or a table that may still grow. -/
inductive Node
  | closed (value : Value)
  | table (origin : TableOrigin) (entries : List (Text × Node))
  /-- A list of tables, the latest first. -/
  | tables (latest : List (Text × Node)) (earlier : List (List (Text × Node)))

/-- The entries of a table that may still grow. -/
abbrev Entries := List (Text × Node)

namespace Entries

/-- The entries with the node under `key` replaced, or with a new node at the end. -/
def put (entries : Entries) (key : Text) (node : Node) : Entries :=
  if entries.any (·.1 == key) then
    entries.map fun entry => if entry.1 = key then (key, node) else entry
  else entries ++ [(key, node)]

/-- The entries with a value under a new key. -/
def add? (value : Value) (key : Text) (entries : Entries) : Option Entries :=
  match valueOf? key entries with
  | none => some (put entries key (.closed value))
  | some _ => none

/-- Gives a value to a dotted key. Dotted keys complete only tables that dotted keys have brought
about; on the way to one they also pass tables that are implied, and the latest of a list. -/
def assign? (value : Value) : List Text → Entries → Option Entries
  | [], _ => none
  | [key], entries => add? value key entries
  | key :: next :: path, entries =>
    match valueOf? key entries with
    | none =>
      (assign? value (next :: path) []).map fun inner => put entries key (.table .dotted inner)
    | some (.table .dotted inner) =>
      (assign? value (next :: path) inner).map fun changed =>
        put entries key (.table .dotted changed)
    | some (.table .implied inner) =>
      if path.isEmpty then none
      else (assign? value (next :: path) inner).map fun changed =>
        put entries key (.table .implied changed)
    | some (.tables latest earlier) =>
      if path.isEmpty then none
      else (assign? value (next :: path) latest).map fun changed =>
        put entries key (.tables changed earlier)
    | some (.table .header _) => none
    | some (.closed _) => none

/-- Changes the entries at the end of a path of tables. Of a list of tables the latest is meant,
and tables that are missing on the way are implied. -/
def changeAt? (change? : Entries → Option Entries) : List Text → Entries → Option Entries
  | [], entries => change? entries
  | key :: path, entries =>
    match valueOf? key entries with
    | none =>
      (changeAt? change? path []).map fun inner => put entries key (.table .implied inner)
    | some (.table origin inner) =>
      (changeAt? change? path inner).map fun changed => put entries key (.table origin changed)
    | some (.tables latest earlier) =>
      (changeAt? change? path latest).map fun changed => put entries key (.tables changed earlier)
    | some (.closed _) => none

/-- Begins a table by its header. -/
def openTable? (key : Text) (entries : Entries) : Option Entries :=
  match valueOf? key entries with
  | none => some (put entries key (.table .header []))
  | some (.table .implied inner) => some (put entries key (.table .header inner))
  | some _ => none

/-- Begins the next table of a list by its header. -/
def openItem? (key : Text) (entries : Entries) : Option Entries :=
  match valueOf? key entries with
  | none => some (put entries key (.tables [] []))
  | some (.tables latest earlier) => some (put entries key (.tables [] (latest :: earlier)))
  | some _ => none

end Entries

mutual

def Node.value : Node → Value
  | .closed value => value
  | .table _ entries => .table (finishedEntries entries)
  | .tables latest earlier =>
    .list (.table (finishedEntries latest) :: finishedTables earlier).reverse

def finishedEntries : List (Text × Node) → List (Text × Value)
  | [] => []
  | (key, node) :: entries => (key, node.value) :: finishedEntries entries

def finishedTables : List (List (Text × Node)) → List Value
  | [] => []
  | table :: tables => .table (finishedEntries table) :: finishedTables tables

end

end Masthead.Data.Toml
