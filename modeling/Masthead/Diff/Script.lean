import Masthead.Text.Basic

/-!
# Edit scripts

The shortest way from one list of lines to another, as a sequence of runs that are kept, deleted or
inserted. The lists are cut in the middle of such a way, which is found from both ends at once, and
each part is treated in the same manner.
-/

namespace Masthead.Diff

/-- A run of lines, by its positions in the old and in the new lines. -/
inductive Run
  | keep (old new size : Nat)
  | delete (old size new : Nat)
  | insert (old new size : Nat)
  deriving DecidableEq, Repr

/-- Two ranges of lines that are to be compared, each up to but not including its end. -/
structure Window where
  oldStart : Nat
  oldStop : Nat
  newStart : Nat
  newStop : Nat
  deriving Repr

namespace Window

def oldSize (window : Window) : Nat :=
  window.oldStop - window.oldStart

def newSize (window : Window) : Nat :=
  window.newStop - window.newStart

end Window

/-- The lines on both sides of a comparison. -/
structure Sides where
  old : Array Text
  new : Array Text

namespace Sides

/-- Whether a line of the old side equals one of the new side. -/
def agree (sides : Sides) (old new : Nat) : Bool :=
  sides.old[old]? == sides.new[new]?

/-- How many lines are equal from two positions on, up to a limit. -/
def equalAhead (sides : Sides) (old new : Nat) : (limit : Nat) → Nat
  | 0 => 0
  | limit + 1 =>
    if sides.agree old new then equalAhead sides (old + 1) (new + 1) limit + 1 else 0

/-- How many lines are equal before two positions, up to a limit. -/
def equalBehind (sides : Sides) (old new : Nat) : (limit : Nat) → Nat
  | 0 => 0
  | limit + 1 =>
    if sides.agree (old - 1) (new - 1) then equalBehind sides (old - 1) (new - 1) limit + 1 else 0

end Sides

/-! ## The middle of a way -/

/-- The furthest positions that are reached on the diagonals, counted from `-offset` on. -/
structure Frontier where
  reached : Array Nat
  offset : Nat

namespace Frontier

/-- A frontier for so many steps, before the first of them. -/
def start (steps : Nat) : Frontier :=
  -- A step also reads the diagonals beyond both of its rims.
  ⟨Array.replicate (2 * steps + 3) 0, steps + 1⟩

def index (frontier : Frontier) (diagonal : Int) : Nat :=
  (diagonal + frontier.offset).toNat

def furthest (frontier : Frontier) (diagonal : Int) : Nat :=
  frontier.reached.getD (frontier.index diagonal) 0

def set (frontier : Frontier) (diagonal : Int) (position : Nat) : Frontier :=
  ⟨frontier.reached.setIfInBounds (frontier.index diagonal) position, frontier.offset⟩

/-- Where the next step reaches a diagonal: from the neighbour that is further ahead. -/
def entry (frontier : Frontier) (step : Nat) (diagonal : Int) : Nat :=
  let fromAbove := frontier.furthest (diagonal + 1)
  let fromLeft := frontier.furthest (diagonal - 1)
  -- On the two rims only one neighbour has been reached.
  if diagonal = -step ∨ (diagonal ≠ step ∧ fromLeft < fromAbove) then fromAbove else fromLeft + 1

end Frontier

/-- The diagonals that a step can reach, from the highest on. -/
def diagonals (step : Nat) : List Int :=
  (List.range (step + 1)).map fun (index : Nat) => (step : Int) - 2 * (index : Int)

/-- The largest number of steps from one end that are needed to meet the other. -/
def stepLimit (oldSize newSize : Nat) : Nat :=
  (oldSize + newSize + 1) / 2 + 1

/-- The distance between the diagonals of the two corners of a window. -/
def slant (window : Window) : Int :=
  (window.oldSize : Int) - window.newSize

/-- A frontier after a step along some diagonals, or the position where it meets the other one. -/
abbrev Advance := Except (Nat × Nat) Frontier

/-- Advances from the beginning of a window. -/
def advance (sides : Sides) (window : Window) (backward : Frontier) (step : Nat)
    (forward : Frontier) : List Int → Advance
  | [] => .ok forward
  | diagonal :: others =>
    let old := forward.entry step diagonal
    let new := ((old : Int) - diagonal).toNat
    let equal := if old < window.oldSize ∧ new < window.newSize then
        sides.equalAhead (window.oldStart + old) (window.newStart + new)
          (min (window.oldSize - old) (window.newSize - new))
      else 0
    let reached := old + equal
    let opposite := diagonal - slant window
    -- A way has an odd number of changes just if the slant is odd: then it is this half that closes
    -- the way, and otherwise the one from the end.
    let meets := slant window % 2 ≠ 0 ∧ (opposite.natAbs : Int) ≤ (step : Int) - 1
      ∧ window.oldSize ≤ reached + backward.furthest (-opposite)
    if meets then .error (window.oldStart + old, window.newStart + new)
    else advance sides window backward step (forward.set diagonal reached) others

/-- Advances from the end of a window. -/
def retreat (sides : Sides) (window : Window) (forward : Frontier) (step : Nat)
    (backward : Frontier) : List Int → Advance
  | [] => .ok backward
  | diagonal :: others =>
    let old := backward.entry step diagonal
    let new := ((old : Int) - diagonal).toNat
    let equal := if old < window.oldSize ∧ new < window.newSize then
        sides.equalBehind (window.oldStop - old) (window.newStop - new)
          (min (window.oldSize - old) (window.newSize - new))
      else 0
    let reached := old + equal
    let opposite := diagonal - slant window
    let meets := slant window % 2 = 0 ∧ opposite.natAbs ≤ step
      ∧ window.oldSize ≤ reached + forward.furthest (-opposite)
    if meets then .error (window.oldStop - reached, window.newStop - (new + equal))
    else retreat sides window forward step (backward.set diagonal reached) others

/-- Steps from both ends until they meet. -/
def meet? (sides : Sides) (window : Window) (step : Nat) (forward backward : Frontier) :
    (steps : Nat) → Option (Nat × Nat)
  | 0 => none
  | steps + 1 =>
    match advance sides window backward step forward (diagonals step) with
    | .error found => some found
    | .ok forward =>
      match retreat sides window forward step backward (diagonals step) with
      | .error found => some found
      | .ok backward => meet? sides window (step + 1) forward backward steps

/-- A position in the middle of a shortest way through a window. -/
def middle? (sides : Sides) (window : Window) : Option (Nat × Nat) :=
  let limit := stepLimit window.oldSize window.newSize
  meet? sides window 0 (Frontier.start limit) (Frontier.start limit) limit

/-! ## The whole way -/

/-- All old lines of a window deleted, and all its new lines inserted. -/
def replacement (window : Window) : List Run :=
  (if window.oldSize = 0 then []
    else [.delete window.oldStart window.oldSize window.newStart])
  ++ (if window.newSize = 0 then []
    else [.insert window.oldStart window.newStart window.newSize])

/-- The runs of a window. `depth` bounds the recursion. -/
def scriptWithin (sides : Sides) : (depth : Nat) → Window → List Run
  | 0, window => replacement window
  | depth + 1, whole =>
    let ahead := sides.equalAhead whole.oldStart whole.newStart (min whole.oldSize whole.newSize)
    let rest : Window :=
      ⟨whole.oldStart + ahead, whole.oldStop, whole.newStart + ahead, whole.newStop⟩
    let behind := sides.equalBehind rest.oldStop rest.newStop (min rest.oldSize rest.newSize)
    let window : Window :=
      ⟨rest.oldStart, rest.oldStop - behind, rest.newStart, rest.newStop - behind⟩
    let first := if ahead = 0 then [] else [Run.keep whole.oldStart whole.newStart ahead]
    let last := if behind = 0 then [] else [Run.keep window.oldStop window.newStop behind]
    let between :=
      if window.oldSize = 0 ∨ window.newSize = 0 then replacement window
      else match middle? sides window with
        | some (old, new) =>
          scriptWithin sides depth ⟨window.oldStart, old, window.newStart, new⟩
            ++ scriptWithin sides depth ⟨old, window.oldStop, new, window.newStop⟩
        | none => replacement window
    first ++ between ++ last

/-- The runs that lead from the old lines to the new ones. -/
def script (sides : Sides) : List Run :=
  scriptWithin sides (sides.old.size + sides.new.size + 1)
    ⟨0, sides.old.size, 0, sides.new.size⟩

end Masthead.Diff
