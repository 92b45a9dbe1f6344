import Masthead.Header.Line

/-!
# Bounds of a header

Where the header of a file begins and ends. It is one continuous comment between two rules, the
first of which stands near the top of the file.
-/

namespace Masthead.Header

/-- How many lines may hold the opening rule. -/
def openingWindow : Nat := 10

/-- How many lines behind the opening rule may hold the closing one. -/
def closingWindow : Nat := 50

/-- How many lines behind the opening rule a header is taken to have if nothing closes it. -/
def fallbackSpan : Nat := 30

/-- How many lines are searched for any rule of a header. -/
def guardWindow : Nat := 20

/-- The lines of a header, from `first` to `last`, both included. -/
structure Bounds where
  first : Nat
  last : Nat
  deriving DecidableEq, Repr

namespace Bounds

/-- The number of lines. -/
def count (bounds : Bounds) : Nat :=
  bounds.last - bounds.first + 1

def holds (bounds : Bounds) (position : Nat) : Bool :=
  bounds.first ≤ position && position ≤ bounds.last

/-- The lines of a document that lie within the bounds. -/
def slice (bounds : Bounds) (lines : List Text) : List Text :=
  (lines.take (bounds.last + 1)).drop bounds.first

end Bounds

/-- The position of the last separator among the lines before the first one that may not stand
inside a header. -/
def lastSeparator? (comment : Text) : List Text → Option Nat
  | [] => none
  | line :: rest =>
    if isSeparator comment line then
      -- A rule between the sections ends nothing: the last one that comment lines lead to counts.
      some (((lastSeparator? comment rest).map (· + 1)).getD 0)
    else if isCommentLine comment line then (lastSeparator? comment rest).map (· + 1)
    else none

/-- The bounds of the header that the first rule opens. Without a closing rule its end is a guess;
see `isCommentBlock` before anything within such bounds is replaced. -/
def findBounds (comment : Text) (lines : List Text) : Option Bounds :=
  ((lines.take openingWindow).findIdx? (isSeparator comment)).map fun first =>
    let window := (lines.drop (first + 1)).take closingWindow
    match lastSeparator? comment window with
    | some offset => ⟨first, first + 1 + offset⟩
    -- A header that nothing closes still has an extent: its fields are refreshed there.
    | none => ⟨first, min (first + fallbackSpan) (lines.length - 1)⟩

/-- Whether all lines within bounds exist and may stand inside a header. -/
def isCommentBlock (comment : Text) (lines : List Text) (bounds : Bounds) : Bool :=
  bounds.first ≤ bounds.last + 1 && bounds.last < lines.length
    && (bounds.slice lines).all (isHeaderLine comment)

/-- Whether there is a rule of a header near the top. -/
def hasHeader (comment : Text) (lines : List Text) : Bool :=
  (lines.take guardWindow).any (isCommentRule comment)

def locate (comment : Text) (lines : List Text) : Option Bounds :=
  if hasHeader comment lines then findBounds comment lines else none

end Masthead.Header
