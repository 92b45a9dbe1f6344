import Masthead.Diff.Script

/-!
# Tidier scripts

An inserted block can often be moved along equal lines without changing what the script does. Each
is moved upwards and then downwards as far as it goes, and joins the blocks of its kind that it
meets. Afterwards neighbouring deletions and insertions are taken together as changes.
-/

namespace Masthead.Diff

namespace Run

/-- The end of the run on the old side. -/
def oldStop : Run → Nat
  | keep old _ size => old + size
  | delete old size _ => old + size
  | insert old _ _ => old

/-- The number of lines in a run. -/
def size : Run → Nat
  | keep _ _ size => size
  | delete _ size _ => size
  | insert _ _ size => size

/-- The run moved towards the beginning. -/
def moveUp (count : Nat) : Run → Run
  | keep old new size => keep (old - count) (new - count) size
  | delete old size new => delete (old - count) size (new - count)
  | insert old new size => insert (old - count) (new - count) size

/-- The run moved towards the end. -/
def moveDown (count : Nat) : Run → Run
  | keep old new size => keep (old + count) (new + count) size
  | delete old size new => delete (old + count) size (new + count)
  | insert old new size => insert (old + count) (new + count) size

/-- The run with another number of lines. -/
def resize (run : Run) (size : Nat) : Run :=
  match run with
  | keep old new _ => keep old new size
  | delete old _ new => delete old size new
  | insert old new _ => insert old new size

def growEnd (count : Nat) (run : Run) : Run :=
  run.resize (run.size + count)

def shrinkEnd (count : Nat) (run : Run) : Run :=
  run.resize (run.size - count)

end Run

/-- A run within its script, and the runs on both sides of it, the nearest ones first. -/
structure Place where
  before : List Run
  run : Run
  behind : List Run

namespace Place

/-- How much there is before a run. -/
def weight (runs : List Run) : Nat :=
  runs.foldl (fun weight run => weight + (run.size + 1)) 0

/-- How many of the lines before an insertion it can pass on its way up. -/
def roomAbove (sides : Sides) (kept inserted : Run) : Nat :=
  match kept, inserted with
  | .keep old _ size, .insert _ new count => sides.equalBehind (old + size) (new + count)
      (min size count)
  | _, _ => 0

/-- How many of the lines behind an insertion it can pass on its way down. -/
def roomBelow (sides : Sides) (kept inserted : Run) : Nat :=
  match kept, inserted with
  | .keep old _ size, .insert _ new count => sides.equalAhead old new (min size count)
  | _, _ => 0

/-- The runs behind an insertion that has moved up over some lines of a kept run. -/
def keptBehind (count : Nat) (kept inserted : Run) : List Run → List Run
  | .keep old new size :: behind => .keep (old - count) (new - count) (size + count) :: behind
  | behind =>
    match inserted with
    | .insert _ new size => .keep (kept.oldStop - count) (new + size - count) count :: behind
    | _ => behind

/-- The runs before an insertion that has moved down over some lines of a kept run. -/
def keptBefore (count : Nat) (kept inserted : Run) : List Run → List Run
  | .keep old new size :: before => .keep old new (size + count) :: before
  | before =>
    match kept, inserted with
    | .keep old _ _, .insert _ new _ => .keep old new count :: before
    | _, _ => before

/-- Moves a deletion or insertion up. `steps` bounds the number of moves. -/
def raise (sides : Sides) : (steps : Nat) → Place → Place
  | 0, place => place
  | steps + 1, ⟨before, run, behind⟩ =>
    match before, run with
    | [], _ => ⟨before, run, behind⟩
    | .keep old new size :: above, _ =>
      -- Only insertions have room; a deletion stops at the kept lines above it.
      let room := roomAbove sides (.keep old new size) run
      if 0 < room then
        let left := if size - room = 0 then above else .keep old new (size - room) :: above
        raise sides steps
          ⟨left, run.moveUp room, keptBehind room (.keep old new size) run behind⟩
      else if size = 0 then raise sides steps ⟨above, run, behind⟩
      else ⟨before, run, behind⟩
    | .delete old size new :: above, .delete _ count _ =>
      raise sides steps ⟨above, .delete old (size + count) new, behind⟩
    | .insert old new size :: above, .insert _ _ count =>
      raise sides steps ⟨above, .insert old new (size + count), behind⟩
    | other :: above, _ => raise sides steps ⟨above, run, other :: behind⟩

/-- Moves a deletion or insertion down. `steps` bounds the number of moves. -/
def sink (sides : Sides) : (steps : Nat) → Place → Place
  | 0, place => place
  | steps + 1, ⟨before, run, behind⟩ =>
    match behind, run with
    | [], _ => ⟨before, run, behind⟩
    | .keep old new size :: below, _ =>
      let room := roomBelow sides (.keep old new size) run
      if 0 < room then
        let left := if size - room = 0 then below
          else .keep (old + room) (new + room) (size - room) :: below
        sink sides steps
          ⟨keptBefore room (.keep old new size) run before, run.moveDown room, left⟩
      else if size = 0 then sink sides steps ⟨before, run, below⟩
      else ⟨before, run, behind⟩
    | .delete _ count _ :: below, .delete old size new =>
      sink sides steps ⟨before, .delete old (size + count) new, below⟩
    | .insert _ _ count :: below, .insert old new size =>
      sink sides steps ⟨before, .insert old new (size + count), below⟩
    | other :: below, _ => sink sides steps ⟨other :: before, run, below⟩

/-- Moves a run up and then down as far as it goes. -/
def settle (sides : Sides) (place : Place) : Place :=
  -- Every move lessens the weight on its side, so neither bound cuts the moves short.
  let raised := raise sides (weight place.before + 1) place
  sink sides (weight raised.behind + 1) raised

end Place

/-- Whether a run is moved on a pass: first the deletions are, then the insertions. -/
def isDeletion : Run → Bool
  | .delete _ _ _ => true
  | _ => false

def isInsertion : Run → Bool
  | .insert _ _ _ => true
  | _ => false

/-- Settles all runs of one kind, from the beginning on; `before` holds the runs that are already
passed, the nearest first. -/
def settleAll (sides : Sides) (isMoved : Run → Bool) : (steps : Nat) → (before behind : List Run) →
    List Run
  | _, before, [] => before.reverse
  | 0, before, behind => before.reverse ++ behind
  | steps + 1, before, run :: behind =>
    if isMoved run then
      let place := Place.settle sides ⟨before, run, behind⟩
      settleAll sides isMoved steps (place.run :: place.before) place.behind
    else settleAll sides isMoved steps (run :: before) behind

/-- The script with its deletions and insertions settled. -/
def compacted (sides : Sides) (runs : List Run) : List Run :=
  let steps (runs : List Run) : Nat := Place.weight runs + 1
  let deleted := settleAll sides isDeletion (steps runs) [] runs
  settleAll sides isInsertion (steps deleted) [] deleted

/-! ## Changes -/

/-- Lines that are kept, or old lines whose place new ones take. -/
inductive Block
  | keep (old new size : Nat)
  | change (old oldSize new newSize : Nat)
  deriving DecidableEq, Repr

namespace Block

def oldStart : Block → Nat
  | keep old _ _ => old
  | change old _ _ _ => old

def oldStop : Block → Nat
  | keep old _ size => old + size
  | change old size _ _ => old + size

def newStart : Block → Nat
  | keep _ new _ => new
  | change _ _ new _ => new

def newStop : Block → Nat
  | keep _ new size => new + size
  | change _ _ new size => new + size

end Block

/-- What is deleted and inserted between two kept runs. -/
structure Pending where
  deleted : Option (Nat × Nat × Nat)
  inserted : Option (Nat × Nat × Nat)

namespace Pending

def none : Pending := ⟨.none, .none⟩

/-- The change that is pending: the old lines are counted where they are deleted, and the new ones
where they are inserted. -/
def blocks (pending : Pending) : List Block :=
  match pending.deleted, pending.inserted with
  | some (old, size, _), some (_, new, count) => [.change old size new count]
  | some (old, size, new), .none => [.change old size new 0]
  | .none, some (old, new, count) => [.change old 0 new count]
  | .none, .none => []

def delete (pending : Pending) (old size new : Nat) : Pending :=
  match pending.deleted with
  | some (first, count, position) => { pending with deleted := some (first, count + size, position) }
  | .none => { pending with deleted := some (old, size, new) }

def insert (pending : Pending) (old new size : Nat) : Pending :=
  match pending.inserted with
  | some (position, first, count) => { pending with inserted := some (position, first, count + size) }
  | .none => { pending with inserted := some (old, new, size) }

end Pending

/-- A kept run in front of blocks, joined with a kept block that they begin with. -/
def keepBefore (old new size : Nat) : List Block → List Block
  | .keep _ _ more :: blocks => .keep old new (size + more) :: blocks
  | blocks => .keep old new size :: blocks

/-- The blocks of a script in which a change is pending. -/
def blocksAfter (pending : Pending) : List Run → List Block
  | [] => pending.blocks
  | .keep old new size :: runs =>
    pending.blocks ++ keepBefore old new size (blocksAfter .none runs)
  | .delete old size new :: runs => blocksAfter (pending.delete old size new) runs
  | .insert old new size :: runs => blocksAfter (pending.insert old new size) runs

/-- The blocks that lead from the old lines to the new ones. -/
def blocks (sides : Sides) : List Block :=
  blocksAfter .none (compacted sides (script sides))

end Masthead.Diff
