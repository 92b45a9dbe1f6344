import Masthead.Text.Basic

/-!
# Structured values

The values that a configuration file, a template file or a report is made of, whatever the notation
they are written in.
-/

namespace Masthead.Data

/-- A value of a structured text. -/
inductive Value
  | null
  | boolean (value : Bool)
  | integer (value : Int)
  /-- A number that is written with a fraction or an exponent, or lies beyond the integers. -/
  | number (written : Text)
  | text (value : Text)
  /-- A value that is written by the rules but stands for nothing that can be held: a number beyond
  all others, or a text with half a character. It can be passed over, but not be read. -/
  | unreadable
  | list (items : List Value)
  | table (entries : List (Text × Value))

namespace Value

def items? : Value → Option (List Value)
  | list items => some items
  | _ => none

def entries? : Value → Option (List (Text × Value))
  | table entries => some entries
  | _ => none

def text? : Value → Option Text
  | text value => some value
  | _ => none

def boolean? : Value → Option Bool
  | boolean value => some value
  | _ => none

/-- An integer without sign up to a limit. -/
def naturalUpTo? (limit : Nat) : Value → Option Nat
  | integer value => if 0 ≤ value ∧ value ≤ limit then some value.toNat else none
  | _ => none

def character? : Value → Option Char
  | text [character] => some character
  | _ => none

/-- A list whose items all have the same form. -/
def listOf? {Item : Type} (item? : Value → Option Item) (value : Value) : Option (List Item) :=
  value.items?.bind fun items => items.mapM item?

/-- A table whose values all have the same form; of two entries with one key the last counts. -/
def tableOf? {Item : Type} (item? : Value → Option Item) (value : Value) :
    Option (List (Text × Item)) := do
  let entries ← value.entries?
  let read ← entries.mapM fun entry => (item? entry.2).map fun item => (entry.1, item)
  some (read.foldl (fun kept entry => kept.filter (·.1 ≠ entry.1) ++ [entry]) [])

/-- The first value under a key of a table. -/
def get? (value : Value) (key : Text) : Option Value :=
  value.entries?.bind fun entries => valueOf? key entries

mutual

/-- The value in which every table keeps, of entries with the same key, the last one only. -/
def withoutRepeats : Value → Value
  | list items => list (withoutRepeatsItems items)
  | table entries => table (withoutRepeatsEntries entries)
  | value => value

def withoutRepeatsItems : List Value → List Value
  | [] => []
  | item :: items => withoutRepeats item :: withoutRepeatsItems items

def withoutRepeatsEntries : List (Text × Value) → List (Text × Value)
  | [] => []
  | (key, value) :: entries =>
    let later := withoutRepeatsEntries entries
    if later.any (·.1 == key) then later else (key, withoutRepeats value) :: later

end

mutual

/-- Whether nothing within the value is unreadable. -/
def isReadable : Value → Bool
  | unreadable => false
  | list items => areReadableItems items
  | table entries => areReadableEntries entries
  | _ => true

def areReadableItems : List Value → Bool
  | [] => true
  | item :: items => isReadable item && areReadableItems items

def areReadableEntries : List (Text × Value) → Bool
  | [] => true
  | (_, value) :: entries => isReadable value && areReadableEntries entries

end

mutual

/-- How deep lists and tables are nested in the value. -/
def depth : Value → Nat
  | list items => depthOfItems items + 1
  | table entries => depthOfEntries entries + 1
  | _ => 0

def depthOfItems : List Value → Nat
  | [] => 0
  | item :: items => max (depth item) (depthOfItems items)

def depthOfEntries : List (Text × Value) → Nat
  | [] => 0
  | (_, value) :: entries => max (depth value) (depthOfEntries entries)

end

end Value

/-! ## Records -/

/-- A key of words joined by hyphens, in which the words after the first begin with a capital
letter instead. -/
def camelCase : Text → Text
  | [] => []
  | '-' :: character :: rest => character.toUpper :: camelCase rest
  | character :: rest => character :: camelCase rest

abbrev Record := List (Text × Value)

namespace Record

/-- The field that a key of a table names in one of the field's spellings. -/
def fieldOf? (spellings : Text → List Text) (fields : List Text) (key : Text) : Option Text :=
  fields.find? fun field => (spellings field).contains key

/-- Reads a record with the given fields from a table or, by position, from a list. Unknown keys
are passed over, and no field may be given twice. -/
def ofValue? (spellings : Text → List Text) (fields : List Text) : Value → Option Record
  | .table entries =>
    let known := entries.filterMap fun entry =>
      (fieldOf? spellings fields entry.1).map fun field => (field, entry.2)
    let names := known.map (·.1)
    if names.length = names.eraseDups.length then some known else none
  | .list items => if fields.length < items.length then none else some (fields.zip items)
  | _ => none

/-- The value of a field, which must have the right form; a missing field has its default. -/
def field? {Item : Type} (record : Record) (key : Text) (item? : Value → Option Item)
    (default : Item) : Option Item :=
  match valueOf? key record with
  | none => some default
  | some value => item? value

end Record

end Masthead.Data
