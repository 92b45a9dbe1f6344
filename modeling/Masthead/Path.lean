import Masthead.Text.Basic

/-!
# Paths

A path is a text with strokes between its parts. What it says is the list of its components: empty
parts and dots that stand for the folder itself say nothing, except for a dot at the very
beginning. Two spellings with the same components are the same path.
-/

namespace Masthead

/-- A component of a path. Components are ordered as they are listed here, names among themselves
by code points. -/
inductive PathComponent
  | root
  | here
  | parent
  | name (text : Text)
  deriving DecidableEq, Repr

namespace PathComponent

def text : PathComponent → Text
  | root => "/"
  | here => "."
  | parent => ".."
  | name text => text

/-- The place of a kind of component in the order. -/
def rank : PathComponent → Nat
  | root => 0
  | here => 1
  | parent => 2
  | name _ => 3

def lessOrEqual : PathComponent → PathComponent → Bool
  | name text, name other => Text.lessOrEqual text other
  | component, other => component.rank ≤ other.rank

end PathComponent

abbrev Path := Text

namespace Path

def isAbsolute (path : Path) : Bool :=
  path.head? == some '/'

/-- The component that a part of a path stands for, if it says anything. -/
def componentOf? (part : Text) : Option PathComponent :=
  if part = [] ∨ part = ['.'] then none
  else if part = ['.', '.'] then some .parent
  else some (.name part)

def components (path : Path) : List PathComponent :=
  let parts := Text.splitOn '/' path
  let rest := parts.filterMap componentOf?
  if isAbsolute path then .root :: rest
  else if parts.head? = some ['.'] then .here :: rest
  else rest

/-- The order of paths, component by component. -/
def lessOrEqualComponents : List PathComponent → List PathComponent → Bool
  | [], _ => true
  | _ :: _, [] => false
  | first :: rest, second :: others =>
    if first = second then lessOrEqualComponents rest others
    else PathComponent.lessOrEqual first second

def lessOrEqual (path other : Path) : Bool :=
  lessOrEqualComponents path.components other.components

/-- Whether two paths have the same components. -/
def same (path other : Path) : Bool :=
  path.components == other.components

/-- The path below `base`; an absolute path stays as it is. -/
def join (base path : Path) : Path :=
  if isAbsolute path then path
  else if base.isEmpty || base.getLast? == some '/' then base ++ path
  else base ++ ('/' :: path)

def ofComponents (components : List PathComponent) : Path :=
  components.foldl (fun path component => join path component.text) []

/-- The last component, if it is a name. -/
def fileName? (path : Path) : Option Text :=
  match path.components.getLast? with
  | some (.name text) => some text
  | _ => none

/-- A file name cut at its last dot; a dot at the beginning belongs to the name. -/
def splitName (fileName : Text) : Text × Option Text :=
  let ending := (fileName.reverse.takeWhile (· ≠ '.')).reverse
  let stem := fileName.take (fileName.length - ending.length - 1)
  if ending.length = fileName.length ∨ stem = [] then (fileName, none) else (stem, some ending)

/-- The file name without its extension. -/
def stem? (path : Path) : Option Text :=
  path.fileName?.map fun fileName => (splitName fileName).1

/-- What follows the last dot of the file name. -/
def extension? (path : Path) : Option Text :=
  path.fileName?.bind fun fileName => (splitName fileName).2

/-- The path from the root on, for a path given from `folder`. The empty path names nothing. -/
def absolute? (folder path : Path) : Option Path :=
  if path.isEmpty then none
  else
    let components := path.components.filter (· ≠ .here)
    let isDoubled := Text.startsWith "//" path && !Text.startsWith "///" path
    let start : Path :=
      if isDoubled then "//" else if isAbsolute path then [] else folder
    let named := if isDoubled then components.drop 1 else components
    let full := named.foldl (fun full component => join full component.text) start
    some (if path.getLast? = some '/' then join full [] else full)

/-- The way from `base` to the target, component by component, once they differ. -/
def climb : List PathComponent → List PathComponent → Option (List PathComponent)
  | target, [] => some target
  | [], _ :: base => (climb [] base).map (.parent :: ·)
  | component :: target, .here :: base => (climb target base).map (component :: ·)
  | _ :: _, .parent :: _ => none
  | target, _ :: base => some (.parent :: (base.map fun _ => .parent) ++ target)

/-- The way from `base` to the target behind the components that they share. -/
def relativeComponents : List PathComponent → List PathComponent → Option (List PathComponent)
  | component :: target, other :: base =>
    if component = other then relativeComponents target base
    else climb (component :: target) (other :: base)
  | target, base => climb target base

/-- The path of `path` seen from `base`, if there is one. -/
def relativeTo? (path base : Path) : Option Path :=
  if isAbsolute path != isAbsolute base then
    if isAbsolute path then some path else none
  else (relativeComponents path.components base.components).map ofComponents

/-- The path as it is shown to a user who is in the folder `base`. -/
def display (base : Option Path) (path : Path) : Text :=
  let relative := (base.bind path.relativeTo?).filter fun shown => !shown.isEmpty
  Text.replace '\\' '/' (relative.getD path)

end Path

end Masthead
