import Masthead.Text.Basic

/-!
# Header styles

The three ways in which a header is laid out.
-/

namespace Masthead

/-- How much a header says. -/
inductive HeaderStyle
  /-- Copyright, project, author, dates, description, history and to-do list. -/
  | standard
  /-- A short header without history and to-do list. -/
  | minimal
  /-- The standard header with path, team and a structured description. -/
  | detailed
  deriving DecidableEq, Repr

namespace HeaderStyle

def all : List HeaderStyle := [standard, minimal, detailed]

def name : HeaderStyle → Text
  | standard => "standard"
  | minimal => "minimal"
  | detailed => "detailed"

/-- The style of a name, which is case-sensitive. -/
def ofName? (name : Text) : Option HeaderStyle :=
  all.find? fun style => style.name == name

end HeaderStyle

end Masthead
