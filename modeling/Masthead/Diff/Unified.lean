import Masthead.Text.Numeral
import Masthead.Text.Lines
import Masthead.Path
import Masthead.Diff.Compaction

/-!
# Unified diffs

The difference of two texts in hunks: some kept lines around each change, every line with a sign in
front of it, and above each hunk the ranges of lines that it covers.
-/

namespace Masthead.Diff

/-- The number of kept lines around a change. -/
def contextRadius : Nat := 3

/-! ## Hunks -/

/-- The first block without kept lines that lie too far before a change. -/
def trimFirst : List Block → List Block
  | .keep old new size :: blocks =>
    let dropped := size - contextRadius
    .keep (old + dropped) (new + dropped) (size - dropped) :: blocks
  | blocks => blocks

/-- The last block without kept lines that lie too far behind a change. -/
def trimLast : List Block → List Block
  | [] => []
  | [.keep old new size] => [.keep old new (min size contextRadius)]
  | block :: blocks => block :: trimLast blocks

/-- Whether there is a change among some blocks. -/
def holdsChange (blocks : List Block) : Bool :=
  match blocks with
  | [] => false
  | [.keep _ _ _] => false
  | _ => true

/-- The blocks of each hunk, where `current` holds those of the hunk that is begun, the latest
first. A long run of kept lines ends a hunk and begins the next one. -/
def hunksAfter (current : List Block) : List Block → List (List Block)
  | [] => if holdsChange current then [current.reverse] else []
  | block :: blocks =>
    match block with
    | .keep old new size =>
      if contextRadius * 2 < size then
        let ended := (Block.keep old new contextRadius :: current).reverse
        let dropped := size - contextRadius
        ended :: hunksAfter [.keep (old + dropped) (new + dropped) (size - dropped)] blocks
      else hunksAfter (block :: current) blocks
    | .change _ _ _ _ => hunksAfter (block :: current) blocks

def hunks (blocks : List Block) : List (List Block) :=
  hunksAfter [] (trimLast (trimFirst blocks))

/-! ## Text -/

/-- A range of lines: its first line and its size, which goes without saying if it is one. An empty
range is said to begin with the line before it. -/
def rangeText (start stop : Nat) : Text :=
  let size := stop - start
  if size = 1 then Text.decimal (start + 1)
  else Text.decimal (if size = 0 then start else start + 1) ++ (',' :: Text.decimal size)

/-- The line above a hunk. -/
def hunkHeading (blocks : List Block) : Text :=
  match blocks.head?, blocks.getLast? with
  | some first, some last =>
    "@@ -".toList ++ rangeText first.oldStart last.oldStop ++ " +".toList
      ++ rangeText first.newStart last.newStop ++ " @@\n".toList
  | _, _ => []

/-- A line with its sign. If it has no terminator, that is said below it. -/
def signedLine (sign : Char) (line : Text) : Text :=
  (sign :: line)
    ++ (if Text.isTerminated line then [] else "\n\\ No newline at end of file\n".toList)

/-- Some consecutive lines with their sign. -/
def signedLines (sign : Char) (lines : Array Text) (start size : Nat) : Text :=
  (lines.toList.drop start |>.take size).flatMap (signedLine sign)

def blockText (sides : Sides) : Block → Text
  | .keep old _ size => signedLines ' ' sides.old old size
  | .change old oldSize new newSize =>
    signedLines '-' sides.old old oldSize ++ signedLines '+' sides.new new newSize

def hunkText (sides : Sides) (blocks : List Block) : Text :=
  hunkHeading blocks ++ blocks.flatMap (blockText sides)

/-- The unified diff of two texts of a file; nothing if they are equal. -/
def unified (path : Path) (old new : Text) : Text :=
  let sides : Sides :=
    ⟨(Text.terminatedLines old).toArray, (Text.terminatedLines new).toArray⟩
  let label := Text.replace '\\' '/' path
  match hunks (blocks sides) with
  | [] => []
  | found =>
    "--- a/".toList ++ label ++ "\n+++ b/".toList ++ label ++ "\n".toList
      ++ found.flatMap (hunkText sides)

end Masthead.Diff
