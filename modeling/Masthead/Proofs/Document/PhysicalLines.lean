import Masthead.Proofs.Document.RoundTrip

/-!
# Lines as they stand in a text

A line of a document is not always a line of its text: a line feed within it breaks it, and a
terminator with a carriage return leaves that at the end of what stands before its line feed. Lines
that are put into a document bring physical lines of their own, and leave the others as they are.
-/

namespace Masthead

open Text

namespace LineEnding

/-- What a terminator has before its line feed. -/
def mark : LineEnding → Text
  | lf => []
  | crlf => ['\r']

theorem text_eq (ending : LineEnding) : ending.text = ending.mark ++ ['\n'] := by
  cases ending <;> rfl

/-- Rows as they stand in a text, all but the last one before a terminator. -/
def marked (ending : LineEnding) : List Text → List Text
  | [] => []
  | [row] => [row]
  | row :: next :: others => (row ++ ending.mark) :: marked ending (next :: others)

variable {ending : LineEnding}

theorem marked_cons (row : Text) {others : List Text} (nonempty : others ≠ []) :
    ending.marked (row :: others) = (row ++ ending.mark) :: ending.marked others := by
  cases others with
  | nil => exact absurd rfl nonempty
  | cons next others => rfl

theorem marked_append (front : List Text) {back : List Text} (nonempty : back ≠ []) :
    ending.marked (front ++ back) = front.map (· ++ ending.mark) ++ ending.marked back := by
  induction front with
  | nil => rfl
  | cons row front inductionHypothesis =>
    rw [List.cons_append, marked_cons _ (by simp [nonempty]), inductionHypothesis]
    rfl

theorem marked_lf (rows : List Text) : lf.marked rows = rows := by
  fun_induction marked lf rows with
  | case1 => rfl
  | case2 row => rfl
  | case3 row next others inductionHypothesis => rw [inductionHypothesis, mark, List.append_nil]

/-- What a row may have behind it in a text before the line feed. -/
def IsMark (ending : LineEnding) (tail : Text) : Prop :=
  tail = [] ∨ tail = ending.mark

theorem IsMark.not_mem {tail : Text} (isMark : ending.IsMark tail) : '\n' ∉ tail := by
  rcases isMark with rfl | rfl
  · exact List.not_mem_nil
  · cases ending <;> decide

/-- The first rows of a text, each with what stands behind it. -/
theorem exists_of_mem_take_marked {rows : List Text} {standing : Text} (below : List Text)
    (member : standing ∈ (ending.marked (rows ++ below)).take rows.length) :
    ∃ row ∈ rows, ∃ tail, ending.IsMark tail ∧ standing = row ++ tail := by
  induction rows with
  | nil => cases member
  | cons row rows inductionHypothesis =>
    by_cases last : rows ++ below = []
    · rw [List.cons_append, last] at member
      obtain ⟨rfl, rfl⟩ := List.append_eq_nil_iff.mp last
      rw [List.mem_singleton.mp (List.mem_of_mem_take member)]
      exact ⟨row, List.mem_cons_self, [], .inl rfl, (List.append_nil row).symm⟩
    · rw [List.cons_append, marked_cons _ last, List.length_cons, List.take_succ_cons, List.mem_cons] at member
      rcases member with rfl | member
      · exact ⟨row, List.mem_cons_self, _, .inr rfl, rfl⟩
      · obtain ⟨other, listed, written⟩ := inductionHypothesis member
        exact ⟨other, List.mem_cons_of_mem _ listed, written⟩

theorem exists_mem_take_marked {rows : List Text} {row : Text} (below : List Text) (member : row ∈ rows) :
    ∃ tail, ending.IsMark tail ∧ row ++ tail ∈ (ending.marked (rows ++ below)).take rows.length := by
  induction rows with
  | nil => cases member
  | cons first rows inductionHypothesis =>
    by_cases last : rows ++ below = []
    · obtain ⟨rfl, rfl⟩ := List.append_eq_nil_iff.mp last
      rw [List.mem_singleton.mp member]
      exact ⟨[], .inl rfl, List.mem_singleton.mpr (List.append_nil first)⟩
    · rw [List.cons_append, marked_cons _ last, List.length_cons, List.take_succ_cons]
      rcases List.mem_cons.mp member with rfl | member
      · exact ⟨_, .inr rfl, List.mem_cons_self⟩
      · obtain ⟨tail, isMark, listed⟩ := inductionHypothesis member
        exact ⟨tail, isMark, List.mem_cons_of_mem _ listed⟩

/-- The physical lines of rows with terminators between them. -/
theorem splitOn_joinWith {rows : List Text} (nonempty : rows ≠ []) :
    splitOn '\n' (joinWith ending.text rows) = (ending.marked rows).flatMap (splitOn '\n') := by
  induction rows with
  | nil => exact absurd rfl nonempty
  | cons row rows inductionHypothesis =>
    by_cases last : rows = []
    · rw [last]
      simp [joinWith, marked]
    · rw [joinWith_cons _ _ last, marked_cons _ last, List.flatMap_cons, ← inductionHypothesis last, text_eq]
      simp only [splitOn_eq, List.append_assoc, List.singleton_append]
      rw [← List.append_assoc]
      exact List.splitOn_append_cons_self ..

end LineEnding

namespace Document

/-- The lines of a document's text. -/
def physicalLines (document : Document) : List Text :=
  splitOn '\n' document.toText

/-- Some lines of a document as they stand in its text, before they are broken. -/
def standing (document : Document) (first count : Nat) : List Text :=
  ((document.ending.marked document.rows).drop first).take count

/-- The physical lines that some lines of a document come to. -/
def physicalLinesOf (document : Document) (first count : Nat) : List Text :=
  (document.standing first count).flatMap (splitOn '\n')

variable {document : Document}

theorem physicalLines_eq (nonempty : document.rows ≠ []) :
    document.physicalLines = (document.ending.marked document.rows).flatMap (splitOn '\n') := by
  rw [physicalLines, toText_eq, LineEnding.splitOn_joinWith nonempty]

theorem rows_insertLines {position : Nat} (within : position ≤ document.length) (added : List Text) :
    (document.insertLines position added).rows
      = document.rows.take position ++ (added ++ document.rows.drop position) := by
  simp only [rows, insertLines, List.take_append_of_le_length within, List.drop_append_of_le_length within,
    List.append_assoc]

theorem length_take_rows {position : Nat} (within : position ≤ document.length) :
    (document.rows.take position).length = position := by
  rw [List.length_take, rows, List.length_append]
  exact Nat.min_eq_left (Nat.le_trans within (Nat.le_add_right _ _))

/-- How lines stand that have been put in depends on whether any row follows them. -/
theorem standing_insertLines {position : Nat} (within : position ≤ document.length) (added : List Text) :
    (document.insertLines position added).standing position added.length
      = (document.ending.marked (added ++ document.rows.drop position)).take added.length := by
  cases added with
  | nil => rfl
  | cons line added =>
    have size : ((document.rows.take position).map (· ++ document.ending.mark)).length = position := by
      rw [List.length_map, length_take_rows within]
    have ending : (document.insertLines position (line :: added)).ending = document.ending := rfl
    rw [standing, ending, rows_insertLines within, LineEnding.marked_append _ (by simp), List.drop_left' size]

theorem exists_of_mem_standing {position : Nat} (within : position ≤ document.length) {added : List Text}
    {standing : Text} (member : standing ∈ (document.insertLines position added).standing position added.length) :
    ∃ line ∈ added, ∃ tail, document.ending.IsMark tail ∧ standing = line ++ tail := by
  rw [standing_insertLines within] at member
  exact LineEnding.exists_of_mem_take_marked _ member

theorem exists_mem_standing {position : Nat} (within : position ≤ document.length) {added : List Text} {line : Text}
    (member : line ∈ added) :
    ∃ tail, document.ending.IsMark tail ∧
      line ++ tail ∈ (document.insertLines position added).standing position added.length := by
  rw [standing_insertLines within]
  exact LineEnding.exists_mem_take_marked _ member

/-- Where a terminator stands already, lines that are put in leave the others as they stand. -/
theorem marked_insertLines {position : Nat} (within : position ≤ document.length) (added : List Text)
    (apart : position < document.rows.length ∨ document.ending = .lf) :
    let marked := document.ending.marked (document.insertLines position added).rows
    marked.take position ++ marked.drop (position + added.length) = document.ending.marked document.rows := by
  intro marked
  have size := length_take_rows within
  have cut (above middle below : List Text) (aboveSize : above.length = position)
      (middleSize : middle.length = added.length) (split : marked = above ++ (middle ++ below)) :
      marked.take position ++ marked.drop (position + added.length) = above ++ below := by
    rw [split, ← aboveSize, ← middleSize, List.take_left, ← List.drop_drop, List.drop_left, List.drop_left]
  have inserted := rows_insertLines within added
  -- A row ends in a mark if another one follows; where it ends in none the mark is empty.
  rcases apart with apart | unmarked
  · have below : document.rows.drop position ≠ [] := by simpa using apart
    have split : marked = (document.rows.take position).map (· ++ document.ending.mark)
        ++ (added.map (· ++ document.ending.mark) ++ document.ending.marked (document.rows.drop position)) := by
      show document.ending.marked _ = _
      rw [inserted, LineEnding.marked_append _ (by simp [below]), LineEnding.marked_append _ below]
    rw [cut _ _ _ (by rw [List.length_map, size]) (List.length_map _) split, ← LineEnding.marked_append _ below,
      List.take_append_drop]
  · have split : marked = document.rows.take position ++ (added ++ document.rows.drop position) := by
      show document.ending.marked _ = _
      rw [unmarked, LineEnding.marked_lf, inserted]
    rw [cut _ _ _ size rfl split, List.take_append_drop, unmarked, LineEnding.marked_lf]

/-- A document that has been read has a terminator behind its first row, or no other terminator than a line feed. -/
theorem apart_parse {position : Nat} (near : position ≤ 1) (text : Text) :
    position < (parse text).rows.length ∨ (parse text).ending = .lf := by
  by_cases fed : '\n' ∈ text
  · obtain ⟨piece, rest, rfl, absent⟩ := List.eq_append_cons_of_mem fed
    left
    have more := List.length_pos_iff.mpr (splitOn_ne_nil '\n' rest)
    rw [rows_parse, splitOn_append absent, List.length_map, List.length_cons]
    omega
  · exact .inr (LineEnding.detect_of_not_mem fed)

/-- Lines that are put into a document come to physical lines of its text, and near the top of a document that has
been read all other physical lines are those that were there before. -/
theorem physicalLines_insertLines {position : Nat} (within : position ≤ document.length) {added : List Text}
    (nonempty : added ≠ []) :
    ∃ above below, (document.insertLines position added).physicalLines
        = above ++ ((document.insertLines position added).physicalLinesOf position added.length ++ below) ∧
      (position ≤ 1 → (∃ text, document = parse text) → document.physicalLines = above ++ below) := by
  have newRows : (document.insertLines position added).rows ≠ [] := by
    rw [rows_insertLines within]
    simp [nonempty]
  have ending : (document.insertLines position added).ending = document.ending := rfl
  let marked := document.ending.marked (document.insertLines position added).rows
  refine ⟨(marked.take position).flatMap (splitOn '\n'), (marked.drop (position + added.length)).flatMap (splitOn '\n'),
    ?_, ?_⟩
  · rw [physicalLines_eq newRows, physicalLinesOf, standing, ending, ← List.flatMap_append, ← List.flatMap_append,
      ← List.drop_drop, List.take_append_drop, List.take_append_drop]
  · rintro near ⟨text, rfl⟩
    have oldRows : (parse text).rows ≠ [] := by
      rw [rows_parse]
      simp [splitOn_ne_nil]
    rw [← List.flatMap_append, marked_insertLines within added (apart_parse near text), physicalLines_eq oldRows]

end Document

end Masthead
