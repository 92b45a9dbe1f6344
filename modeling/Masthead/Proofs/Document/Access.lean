import Masthead.Document

/-!
# Accesses that can fail

The edits of a document clamp their positions, so that they are total. Here is each access to a list
with what it needs, and it fails where the need is not met. An edit whose accesses succeed is one in
which nothing has been clamped.
-/

namespace Masthead

/-- Why an access fails. -/
inductive AccessFault
  | position (position length : Nat)
  | range (start stop length : Nat)
  | difference (minuend subtrahend : Nat)
  deriving DecidableEq, Repr

/-- What comes out of a computation that checks its accesses. -/
abbrev Access := Except AccessFault

namespace Access

section

variable {Element Other : Type}

/-- A computation goes on with what an access gives. -/
@[simp] theorem ok_bind (found : Element) (next : Element → Access Other) : Except.ok found >>= next = next found := rfl

/-- A difference that must not fall below zero. -/
def difference (minuend subtrahend : Nat) : Access Nat :=
  if subtrahend ≤ minuend then .ok (minuend - subtrahend) else .error (.difference minuend subtrahend)

/-- The element at a position, which must exist. -/
def element (list : List Element) (position : Nat) : Access Element :=
  match list[position]? with
  | some found => .ok found
  | none => .error (.position position list.length)

/-- The list with another element at a position, which must exist. -/
def put (list : List Element) (position : Nat) (replacement : Element) : Access (List Element) :=
  if position < list.length then .ok (list.set position replacement)
  else .error (.position position list.length)

/-- The elements from `start` up to but not including `stop`, all of which must exist. -/
def range (list : List Element) (start stop : Nat) : Access (List Element) :=
  if start ≤ stop ∧ stop ≤ list.length then .ok ((list.take stop).drop start)
  else .error (.range start stop list.length)

/-- The list with the elements of a range replaced. -/
def splice (list : List Element) (start stop : Nat) (replacement : List Element) : Access (List Element) :=
  if start ≤ stop ∧ stop ≤ list.length then .ok (list.take start ++ replacement ++ list.drop stop)
  else .error (.range start stop list.length)

theorem difference_eq_ok {minuend subtrahend : Nat} (ordered : subtrahend ≤ minuend) :
    difference minuend subtrahend = .ok (minuend - subtrahend) :=
  if_pos ordered

theorem element_eq_ok {list : List Element} {position : Nat} (within : position < list.length) :
    element list position = .ok list[position] := by
  rw [element, List.getElem?_eq_getElem within]

theorem put_eq_ok {list : List Element} {position : Nat} (within : position < list.length) (replacement : Element) :
    put list position replacement = .ok (list.set position replacement) :=
  if_pos within

theorem range_eq_ok {list : List Element} {start stop : Nat} (ordered : start ≤ stop) (within : stop ≤ list.length) :
    range list start stop = .ok ((list.take stop).drop start) :=
  if_pos ⟨ordered, within⟩

theorem range_length_eq_ok {list : List Element} {start : Nat} (within : start ≤ list.length) :
    range list start list.length = .ok (list.drop start) := by
  rw [range_eq_ok within (Nat.le_refl _), List.take_length]

/-- The elements behind the first ones of a list. -/
theorem range_append_right (front back : List Element) :
    range (front ++ back) front.length (front ++ back).length = .ok back := by
  rw [range_length_eq_ok (by rw [List.length_append]; exact Nat.le_add_right _ _), List.drop_left]

theorem range_append_left (front back : List Element) : range (front ++ back) 0 front.length = .ok front := by
  rw [range_eq_ok (Nat.zero_le _) (by rw [List.length_append]; exact Nat.le_add_right _ _), List.take_left,
    List.drop_zero]

theorem splice_eq_ok {list : List Element} {start stop : Nat} (ordered : start ≤ stop) (within : stop ≤ list.length)
    (replacement : List Element) :
    splice list start stop replacement = .ok (list.take start ++ replacement ++ list.drop stop) :=
  if_pos ⟨ordered, within⟩

end

end Access

namespace Document

/-- Puts lines before the line at `position`, which must exist unless it is the end. -/
def insertWithin (document : Document) (position : Nat) (added : List Text) : Access Document := do
  let lines ← Access.splice document.lines position position added
  return { document with lines }

/-- Replaces the lines from `first` to `last`, all of which must exist. -/
def replaceWithin (document : Document) (first last : Nat) (replacement : List Text) : Access Document := do
  let lines ← Access.splice document.lines first (last + 1) replacement
  return { document with lines }

/-- Replaces one line, which must exist. -/
def setWithin (document : Document) (position : Nat) (line : Text) : Access Document := do
  let lines ← Access.put document.lines position line
  return { document with lines }

variable {document : Document}

theorem insertWithin_eq_ok {position : Nat} (within : position ≤ document.length) (added : List Text) :
    document.insertWithin position added = .ok (document.insertLines position added) := by
  rw [insertWithin, Access.splice_eq_ok (Nat.le_refl _) within, Access.ok_bind]
  rfl

theorem replaceWithin_eq_ok {first last : Nat} (ordered : first ≤ last) (within : last < document.length)
    (replacement : List Text) :
    document.replaceWithin first last replacement = .ok (document.replaceLines first last replacement) := by
  have behind : max first (last + 1) = last + 1 := Nat.max_eq_right (Nat.le_succ_of_le ordered)
  rw [replaceWithin, Access.splice_eq_ok (Nat.le_succ_of_le ordered) within, Access.ok_bind, replaceLines, behind]
  rfl

theorem setWithin_eq_ok {position : Nat} (within : position < document.length) (line : Text) :
    document.setWithin position line = .ok (document.setLine position line) := by
  rw [setWithin, Access.put_eq_ok within, Access.ok_bind]
  rfl

end Document

end Masthead
