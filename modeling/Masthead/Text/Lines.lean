import Masthead.Text.Basic

/-!
# Physical lines

Two ways to cut a text into lines: with their terminators, so that nothing is lost, and without
them, as they are shown.
-/

namespace Masthead.Text

/-- Whether a line ends in a terminator. -/
def isTerminated (line : Text) : Bool :=
  line.getLast?.any fun character => character == '\n' || character == '\r'

/-- The lines of a text with their terminators: a line feed, a carriage return, or both. -/
def terminatedLines (text : Text) : List Text :=
  text.foldr (fun character lines =>
    match lines with
    | [] => [[character]]
    | line :: others =>
      if character = '\n' then [character] :: lines
      else if character = '\r' then
        if line.head? = some '\n' then (character :: line) :: others else [character] :: lines
      else (character :: line) :: others) []

/-- The lines of a text as they are shown: a line feed ends a line, together with a carriage
return before it. -/
def shownLines (text : Text) : List Text :=
  let dropReturn (line : Text) : Text :=
    if line.getLast? = some '\r' then line.dropLast else line
  let pieces := splitOn '\n' text
  let last := pieces.getLastD []
  pieces.dropLast.map dropReturn ++ (if last.isEmpty then [] else [last])

end Masthead.Text
