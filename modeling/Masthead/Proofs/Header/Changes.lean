import Masthead.Header.Refresh

/-!
# Changes at their positions

Changes are listed in the order of their lines, one for a line at most. Such a list says the same as
a function that gives some lines a new text, and so does the list that two passes over the lines are
merged into.
-/

namespace Masthead.Header

/-- New texts for some lines, by position and old text. -/
abbrev Rewriting := Nat → Text → Option Text

/-- The line after a rewriting. -/
def Rewriting.apply (rewriting : Rewriting) (position : Nat) (line : Text) : Text :=
  (rewriting position line).getD line

/-- A second rewriting behind a first one, which it sees the lines of. -/
def Rewriting.andThen (first second : Rewriting) : Rewriting := fun position line =>
  (second position (first.apply position line)).or (first position line)

theorem Rewriting.apply_andThen (first second : Rewriting) (position : Nat) (line : Text) :
    (first.andThen second).apply position line = second.apply position (first.apply position line) := by
  simp only [apply, andThen]
  cases second position ((first position line).getD line) <;> rfl

/-- Whether changes stand in the order of their lines, with at most one for a line. -/
def InOrder (changes : List LineChange) : Prop :=
  changes.Pairwise fun change later => change.line < later.line

/-- Whether changes are those that a rewriting makes to lines. -/
structure Lists (rewriting : Rewriting) (lines : List Text) (changes : List LineChange) : Prop where
  inOrder : InOrder changes
  mem_iff : ∀ change, change ∈ changes ↔
    ∃ line, lines[change.line]? = some line ∧ rewriting change.line line = some change.text

variable {lines : List Text} {changes others : List LineChange} {rewriting : Rewriting}

/-! ## One pass -/

theorem mem_changesFrom_iff {change? : Text → Option Text} {position : Nat} {change : LineChange} :
    change ∈ changesFrom change? position lines ↔
      ∃ offset line, change.line = position + offset ∧ lines[offset]? = some line ∧
        change? line = some change.text := by
  induction lines generalizing position with
  | nil => simp [changesFrom]
  | cons first rest inductionHypothesis =>
    -- A change is to the first line, or one of the rest with its lines counted from the next position.
    have here : change ∈ changesFrom change? position (first :: rest) ↔
        (change.line = position ∧ change? first = some change.text) ∨
          change ∈ changesFrom change? (position + 1) rest := by
      rw [changesFrom]
      cases changed : change? first with
      | none => simp
      | some text =>
        obtain ⟨line, newText⟩ := change
        simp [eq_comm]
    rw [here, inductionHypothesis]
    constructor
    · rintro (⟨atFirst, changed⟩ | ⟨offset, line, atOffset, found, changed⟩)
      · exact ⟨0, first, atFirst, rfl, changed⟩
      · exact ⟨offset + 1, line, by omega, found, changed⟩
    · rintro ⟨offset, line, atOffset, found, changed⟩
      cases offset with
      | zero =>
        cases found
        exact .inl ⟨atOffset, changed⟩
      | succ offset => exact .inr ⟨offset, line, by omega, found, changed⟩

theorem inOrder_changesFrom (change? : Text → Option Text) (position : Nat) (lines : List Text) :
    InOrder (changesFrom change? position lines) := by
  induction lines generalizing position with
  | nil => exact .nil
  | cons first rest inductionHypothesis =>
    have later := inductionHypothesis (position + 1)
    rw [changesFrom]
    split
    · refine List.Pairwise.cons ?_ later
      intro change member
      obtain ⟨offset, line, atOffset, -, -⟩ := mem_changesFrom_iff.mp member
      show position < change.line
      omega
    · exact later

/-! ## Two passes merged -/

/-- What goes before the first of changes in order goes before all of them. -/
theorem InOrder.lt_of_mem {first later : LineChange} {position : Nat} (inOrder : InOrder (first :: changes))
    (before : position < first.line) (member : later ∈ first :: changes) : position < later.line := by
  rcases List.mem_cons.mp member with rfl | member
  · exact before
  · exact Nat.lt_trans before ((List.pairwise_cons.mp inOrder).1 later member)

theorem mem_mergeChanges_iff (inOrder : InOrder changes) (othersInOrder : InOrder others) {change : LineChange} :
    change ∈ mergeChanges changes others ↔
      change ∈ others ∨ change ∈ changes ∧ ∀ other ∈ others, other.line ≠ change.line := by
  fun_induction mergeChanges changes others with
  | case1 others => simp
  | case2 changes _ => simp
  | case3 first changes other others before inductionHypothesis =>
    obtain ⟨firstLeast, inOrder⟩ := List.pairwise_cons.mp inOrder
    -- The first change goes before all others, so no other one is to its line.
    have apart : ∀ later ∈ other :: others, later.line ≠ first.line :=
      fun later member => Nat.ne_of_gt (othersInOrder.lt_of_mem before member)
    rw [List.mem_cons, inductionHypothesis inOrder othersInOrder, List.mem_cons]
    grind
  | case4 first changes other others _ same inductionHypothesis =>
    obtain ⟨firstLeast, inOrder⟩ := List.pairwise_cons.mp inOrder
    obtain ⟨-, othersInOrder⟩ := List.pairwise_cons.mp othersInOrder
    rw [List.mem_cons, inductionHypothesis inOrder othersInOrder]
    grind
  | case5 first changes other others _ _ inductionHypothesis =>
    obtain ⟨-, othersInOrder⟩ := List.pairwise_cons.mp othersInOrder
    have apart : ∀ later ∈ first :: changes, other.line ≠ later.line :=
      fun later member => Nat.ne_of_lt (inOrder.lt_of_mem (by omega) member)
    rw [List.mem_cons, inductionHypothesis inOrder othersInOrder]
    grind

theorem InOrder.cons_mergeChanges {first : LineChange} (inOrder : InOrder changes) (othersInOrder : InOrder others)
    (least : ∀ later ∈ changes, first.line < later.line) (leastOther : ∀ later ∈ others, first.line < later.line)
    (merged : InOrder (mergeChanges changes others)) : InOrder (first :: mergeChanges changes others) := by
  refine List.Pairwise.cons (fun later member => ?_) merged
  rcases (mem_mergeChanges_iff inOrder othersInOrder).mp member with member | ⟨member, -⟩
  · exact leastOther later member
  · exact least later member

theorem inOrder_mergeChanges (inOrder : InOrder changes) (othersInOrder : InOrder others) :
    InOrder (mergeChanges changes others) := by
  fun_induction mergeChanges changes others with
  | case1 others => exact othersInOrder
  | case2 changes _ => exact inOrder
  | case3 first changes other others before inductionHypothesis =>
    obtain ⟨firstLeast, inOrder⟩ := List.pairwise_cons.mp inOrder
    exact InOrder.cons_mergeChanges inOrder othersInOrder firstLeast (fun _ => othersInOrder.lt_of_mem before)
      (inductionHypothesis inOrder othersInOrder)
  | case4 first changes other others _ same inductionHypothesis =>
    obtain ⟨firstLeast, inOrder⟩ := List.pairwise_cons.mp inOrder
    obtain ⟨otherLeast, othersInOrder⟩ := List.pairwise_cons.mp othersInOrder
    exact InOrder.cons_mergeChanges inOrder othersInOrder (same ▸ firstLeast) otherLeast
      (inductionHypothesis inOrder othersInOrder)
  | case5 first changes other others notBefore different inductionHypothesis =>
    obtain ⟨otherLeast, othersInOrder⟩ := List.pairwise_cons.mp othersInOrder
    have before : other.line < first.line := by omega
    exact InOrder.cons_mergeChanges inOrder othersInOrder (fun _ => inOrder.lt_of_mem before) otherLeast
      (inductionHypothesis inOrder othersInOrder)

/-! ## Changes put into the lines -/

theorem length_applyChanges (changes : List LineChange) (lines : List Text) :
    (applyChanges changes lines).length = lines.length := by
  unfold applyChanges
  induction changes generalizing lines with
  | nil => rfl
  | cons change changes inductionHypothesis => rw [List.foldl_cons, inductionHypothesis, List.length_set]

theorem getElem?_applyChanges_of_ne {position : Nat} (apart : ∀ change ∈ changes, change.line ≠ position) :
    (applyChanges changes lines)[position]? = lines[position]? := by
  unfold applyChanges
  induction changes generalizing lines with
  | nil => rfl
  | cons change changes inductionHypothesis =>
    rw [List.foldl_cons, inductionHypothesis fun other member => apart other (List.mem_cons_of_mem _ member),
      List.getElem?_set_ne (apart change List.mem_cons_self)]

theorem getElem?_applyChanges_of_mem (inOrder : InOrder changes) {change : LineChange} (member : change ∈ changes)
    (within : change.line < lines.length) : (applyChanges changes lines)[change.line]? = some change.text := by
  induction changes generalizing lines with
  | nil => cases member
  | cons first changes inductionHypothesis =>
    obtain ⟨least, inOrder⟩ := List.pairwise_cons.mp inOrder
    rcases List.mem_cons.mp member with rfl | member
    · show (applyChanges changes (lines.set change.line change.text))[change.line]? = some change.text
      rw [getElem?_applyChanges_of_ne fun later member => Nat.ne_of_gt (least later member)]
      exact List.getElem?_set_self within
    · exact inductionHypothesis inOrder member (by rwa [List.length_set])

/-- What the lines are after the changes. -/
theorem Lists.getElem?_applyChanges (lists : Lists rewriting lines changes) (position : Nat) :
    (applyChanges changes lines)[position]? = lines[position]?.map (rewriting.apply position) := by
  cases found : lines[position]? with
  | none =>
    rw [List.getElem?_eq_none_iff] at found
    rw [List.getElem?_eq_none_iff.mpr (by rwa [length_applyChanges])]
    rfl
  | some line =>
    rw [Option.map_some, Rewriting.apply]
    -- A line that is not rewritten has no change, since changes are what the rewriting makes.
    cases changed : rewriting position line with
    | none =>
      rw [getElem?_applyChanges_of_ne, found, Option.getD_none]
      rintro change member rfl
      obtain ⟨other, otherFound, changedOther⟩ := (lists.mem_iff change).mp member
      rw [found, Option.some.injEq] at otherFound
      rw [← otherFound, changed] at changedOther
      cases changedOther
    | some text =>
      have member := (lists.mem_iff ⟨position, text⟩).mpr ⟨line, found, changed⟩
      exact getElem?_applyChanges_of_mem lists.inOrder member (List.getElem?_eq_some_iff.mp found).1

theorem Lists.eq_nil_iff (lists : Lists rewriting lines changes) :
    changes = [] ↔ ∀ position line, lines[position]? = some line → rewriting position line = none := by
  constructor
  · rintro rfl position line found
    cases changed : rewriting position line with
    | none => rfl
    | some text => cases (lists.mem_iff ⟨position, text⟩).mpr ⟨line, found, changed⟩
  · intro unchanged
    rw [List.eq_nil_iff_forall_not_mem]
    intro change member
    obtain ⟨line, found, changed⟩ := (lists.mem_iff change).mp member
    rw [unchanged _ _ found] at changed
    cases changed

/-- A second pass over the changed lines, merged into the first, lists both rewritings. -/
theorem Lists.mergeChanges {second : Rewriting} (lists : Lists rewriting lines changes)
    (otherLists : Lists second (applyChanges changes lines) others) :
    Lists (rewriting.andThen second) lines (mergeChanges changes others) := by
  refine ⟨inOrder_mergeChanges lists.inOrder otherLists.inOrder, ?_⟩
  intro change
  have seen := lists.getElem?_applyChanges change.line
  rw [mem_mergeChanges_iff lists.inOrder otherLists.inOrder, lists.mem_iff, otherLists.mem_iff, seen]
  cases found : lines[change.line]? with
  | none => simp
  | some line =>
    rw [found] at seen
    -- Another change to the same line is one that the second pass makes.
    have alone : (∀ other ∈ others, other.line ≠ change.line) ↔
        second change.line (rewriting.apply change.line line) = none := by
      constructor
      · intro apart
        cases changed : second change.line (rewriting.apply change.line line) with
        | none => rfl
        | some text => exact absurd rfl (apart ⟨change.line, text⟩ ((otherLists.mem_iff _).mpr ⟨_, seen, changed⟩))
      · intro unchanged other member same
        obtain ⟨otherLine, otherSeen, changed⟩ := (otherLists.mem_iff other).mp member
        rw [same, seen, Option.map_some, Option.some.injEq] at otherSeen
        rw [same, ← otherSeen, unchanged] at changed
        cases changed
    simp only [alone, Option.map_some, Option.some.injEq, exists_eq_left', Rewriting.andThen]
    cases second change.line (rewriting.apply change.line line) <;> simp

/-! ## Refreshing -/

/-- The repair of labels near the top. -/
def repairing : Rewriting := fun position line =>
  if position < repairWindow then repairLine? line else none

/-- The renewal of fields within bounds. -/
def renewing (comment : Text) (fields : FieldValues) (bounds : Bounds) : Rewriting := fun position line =>
  if bounds.holds position then refreshLine? comment fields line else none

/-- Both, one after the other. -/
def refreshing (comment : Text) (fields : FieldValues) (bounds : Bounds) : Rewriting :=
  repairing.andThen (renewing comment fields bounds)

theorem lists_collapseLabels (lines : List Text) : Lists repairing lines (collapseLabels lines) := by
  refine ⟨inOrder_changesFrom _ _ _, ?_⟩
  intro change
  rw [collapseLabels, mem_changesFrom_iff]
  simp only [repairing, Nat.zero_add, List.getElem?_take]
  constructor
  · rintro ⟨offset, line, atOffset, found, repaired⟩
    split at found
    · next inWindow => exact ⟨line, by rwa [atOffset], by rwa [if_pos (by omega)]⟩
    · cases found
  · rintro ⟨line, found, repaired⟩
    split at repaired
    · next inWindow => exact ⟨change.line, line, rfl, by rwa [if_pos inWindow], repaired⟩
    · cases repaired

theorem lists_refreshFields (comment : Text) (fields : FieldValues) (bounds : Bounds) (lines : List Text) :
    Lists (renewing comment fields bounds) lines (refreshFields comment fields bounds lines) := by
  refine ⟨inOrder_changesFrom _ _ _, ?_⟩
  intro change
  rw [refreshFields, mem_changesFrom_iff]
  simp only [renewing, Bounds.holds, Bounds.slice, List.getElem?_drop, List.getElem?_take, Bool.and_eq_true,
    decide_eq_true_eq]
  -- Lines are counted from the first line of the bounds in the one case, and from that of the file in the other.
  constructor
  · rintro ⟨offset, line, atOffset, found, renewed⟩
    split at found
    · exact ⟨line, by rwa [atOffset], by rwa [if_pos (by omega)]⟩
    · cases found
  · rintro ⟨line, found, renewed⟩
    split at renewed
    · next within =>
      have split : change.line = bounds.first + (change.line - bounds.first) := by omega
      exact ⟨change.line - bounds.first, line, split, by rw [← split, if_pos (by omega), found], renewed⟩
    · cases renewed

theorem lists_refreshChanges (comment : Text) (fields : FieldValues) (bounds : Bounds) (lines : List Text) :
    Lists (refreshing comment fields bounds) lines (refreshChanges comment fields bounds lines) :=
  (lists_collapseLabels lines).mergeChanges (lists_refreshFields comment fields bounds _)

end Masthead.Header
