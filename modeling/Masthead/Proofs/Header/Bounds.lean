import Masthead.Proofs.Header.Line

/-!
# Headers between their rules

A document that is cut at the two rules of its header. The closing rule is found again exactly if
it stands within the closing window, whatever stands between the rules and below the header, as
long as the first line below belongs to no header.
-/

namespace Masthead.Header

/-! ## The last separator -/

theorem lastSeparator?_lt {comment : Text} {lines : List Text} {position : Nat}
    (found : lastSeparator? comment lines = some position) : position < lines.length := by
  induction lines generalizing position with
  | nil => cases found
  | cons line rest inductionHypothesis =>
    simp only [lastSeparator?] at found
    rw [List.length_cons]
    -- The last separator is the one found below, or the first line where none is.
    cases later : lastSeparator? comment rest with
    | none =>
      rw [later] at found
      split at found
      · simp only [Option.map_none, Option.getD_none, Option.some.injEq] at found
        omega
      · simp at found
    | some offset =>
      have bound := inductionHypothesis later
      rw [later] at found
      split at found
      · simp only [Option.map_some, Option.getD_some, Option.some.injEq] at found
        omega
      · split at found
        · simp only [Option.map_some, Option.some.injEq] at found
          omega
        · cases found

/-- Whether the lines below a header leave it alone. -/
def BeginsApart (comment : Text) (lines : List Text) : Prop :=
  ∀ line, lines.head? = some line → isHeaderLine comment line = false

theorem BeginsApart.take {comment : Text} {lines : List Text} (apart : BeginsApart comment lines)
    (count : Nat) : BeginsApart comment (lines.take count) := by
  intro line head
  cases lines with
  | nil => simp at head
  | cons first rest =>
    cases count with
    | zero => simp at head
    | succ count => exact apart line head

theorem lastSeparator?_of_beginsApart {comment : Text} {lines : List Text}
    (apart : BeginsApart comment lines) : lastSeparator? comment lines = none := by
  cases lines with
  | nil => rfl
  | cons line rest =>
    have outside := apart line rfl
    simp only [isHeaderLine, Bool.or_eq_false_iff] at outside
    simp [lastSeparator?, outside.1, outside.2]

/-- The last separator of a comment is the rule that ends it. -/
theorem lastSeparator?_append {comment closing : Text} {inner below : List Text}
    (headerLines : ∀ line ∈ inner, isHeaderLine comment line = true)
    (closes : isSeparator comment closing = true) (nothing : lastSeparator? comment below = none) :
    lastSeparator? comment (inner ++ closing :: below) = some inner.length := by
  induction inner with
  | nil => simp [lastSeparator?, closes, nothing]
  | cons line inner inductionHypothesis =>
    have later := inductionHypothesis fun other member => headerLines other (List.mem_cons_of_mem _ member)
    have headerLine := headerLines line List.mem_cons_self
    simp only [isHeaderLine, Bool.or_eq_true] at headerLine
    simp only [List.cons_append, lastSeparator?, later]
    cases separates : isSeparator comment line with
    | true => simp
    | false =>
      have commented : isCommentLine comment line = true := by simpa [separates] using headerLine
      simp [commented]

/-- The located bounds begin at the first separator, which is near the top. -/
theorem of_locate {comment : Text} {lines : List Text} {bounds : Bounds} (found : locate comment lines = some bounds) :
    hasHeader comment lines = true ∧ bounds.first < openingWindow ∧
      ∀ line ∈ lines.take bounds.first, isSeparator comment line = false := by
  unfold locate at found
  split at found
  · next present =>
    obtain ⟨first, opened, boundsEqual⟩ := Option.map_eq_some_iff.mp found
    obtain ⟨inWindow, -, clear⟩ := List.findIdx?_eq_some_iff_getElem.mp opened
    -- Whether the end is found or guessed, the bounds begin at the same line.
    have beginning : bounds.first = first := by
      rw [← boundsEqual]
      dsimp only
      split <;> rfl
    rw [List.length_take] at inWindow
    rw [beginning]
    refine ⟨present, by omega, ?_⟩
    intro line member
    obtain ⟨position, before, rfl⟩ := List.mem_take_iff_getElem.mp member
    have unruled := clear position (by omega)
    rw [List.getElem_take] at unruled
    simpa using unruled
  · cases found

theorem Engine.of_isTerminated {comment : Text} {lines : List Text} {bounds : Bounds}
    (terminated : Engine.isTerminated comment lines bounds = true) :
    bounds.first ≤ bounds.last + 1 ∧ bounds.last < lines.length ∧
      ∀ line ∈ bounds.slice lines, isHeaderLine comment line = true := by
  simp only [Engine.isTerminated, isCommentBlock, Bool.and_eq_true, decide_eq_true_eq, List.all_eq_true] at terminated
  obtain ⟨-, ⟨ordered, within⟩, headerLines⟩ := terminated
  exact ⟨ordered, within, headerLines⟩

/-! ## Framings -/

/-- The lines of a document, cut at the two rules of its header. -/
structure Framing where
  above : List Text
  opening : Text
  inner : List Text
  closing : Text
  below : List Text

namespace Framing

/-- The header with its rules. -/
def header (framing : Framing) : List Text :=
  framing.opening :: (framing.inner ++ [framing.closing])

def lines (framing : Framing) : List Text :=
  framing.above ++ (framing.header ++ framing.below)

/-- The bounds from rule to rule. -/
def bounds (framing : Framing) : Bounds :=
  ⟨framing.above.length, framing.above.length + framing.inner.length + 1⟩

/-- What makes the opening rule the beginning of a header. -/
structure Begins (comment : Text) (framing : Framing) : Prop where
  clearAbove : ∀ line ∈ framing.above, isSeparator comment line = false
  nearTop : framing.above.length < openingWindow
  opens : isCommentRule comment framing.opening = true

/-- What makes the parts of a framing a header and its surroundings. -/
structure Stands (comment : Text) (framing : Framing) : Prop where
  clearAbove : ∀ line ∈ framing.above, isSeparator comment line = false
  nearTop : framing.above.length < openingWindow
  opens : isCommentRule comment framing.opening = true
  headerLines : ∀ line ∈ framing.inner, isHeaderLine comment line = true
  closes : isSeparator comment framing.closing = true
  apart : BeginsApart comment framing.below

theorem header_length (framing : Framing) : framing.header.length = framing.inner.length + 2 := by
  simp [header]

theorem slice_bounds (framing : Framing) : framing.bounds.slice framing.lines = framing.header := by
  have size : framing.above.length + framing.inner.length + 1 + 1
      = framing.above.length + framing.header.length := by
    rw [header_length]
    omega
  simp only [Bounds.slice, bounds, lines, size]
  rw [← List.append_assoc, ← List.length_append, List.take_left, List.drop_left]

theorem replaceLines_bounds (document : Document) {framing : Framing} (replacement : List Text)
    (framed : document.lines = framing.lines) :
    (document.replaceLines framing.bounds.first framing.bounds.last replacement).lines
      = framing.above ++ (replacement ++ framing.below) := by
  -- What is kept below begins behind the closing rule.
  have size : max framing.above.length (framing.above.length + framing.inner.length + 1 + 1)
      = (framing.above ++ framing.header).length := by
    rw [List.length_append, header_length]
    omega
  simp only [Document.replaceLines, bounds, framed, lines, size]
  rw [List.take_left, ← List.append_assoc framing.above framing.header, List.drop_left, List.append_assoc]

variable {comment : Text} {framing : Framing}

theorem Stands.begins (stands : framing.Stands comment) : framing.Begins comment :=
  ⟨stands.clearAbove, stands.nearTop, stands.opens⟩

theorem Begins.hasHeader (begins : framing.Begins comment) :
    Header.hasHeader comment framing.lines = true := by
  rw [Header.hasHeader, List.any_eq_true]
  refine ⟨framing.opening, ?_, begins.opens⟩
  have near : framing.above.length < guardWindow := Nat.lt_trans begins.nearTop (by decide)
  rw [List.mem_take_iff_getElem]
  refine ⟨framing.above.length, ?_, ?_⟩
  · simp only [lines, header, List.length_append, List.length_cons]
    omega
  · simp [lines, header]

/-- The first separator is the opening rule. -/
theorem Begins.findIdx?_eq (begins : framing.Begins comment) :
    (framing.lines.take openingWindow).findIdx? (isSeparator comment) = some framing.above.length := by
  rw [List.findIdx?_eq_some_iff_getElem]
  have inWindow : framing.above.length < (framing.lines.take openingWindow).length := by
    have near := begins.nearTop
    simp only [lines, header, List.length_take, List.length_append, List.length_cons]
    omega
  refine ⟨inWindow, ?_, ?_⟩
  · simp [lines, header, isSeparator_of_isCommentRule begins.opens]
  · intro position before
    have clear := begins.clearAbove framing.above[position] (List.getElem_mem before)
    simpa [lines, List.getElem_append_left before] using clear

theorem drop_above (framing : Framing) :
    framing.lines.drop (framing.above.length + 1)
      = framing.inner ++ framing.closing :: framing.below := by
  simp [lines, header, ← List.drop_drop]

/-- A header is located whole if its closing rule is the last one within the closing window. -/
theorem Begins.locate_eq (begins : framing.Begins comment)
    (headerLines : ∀ line ∈ framing.inner, isHeaderLine comment line = true)
    (closes : isSeparator comment framing.closing = true) (short : framing.inner.length < closingWindow)
    (nothing : lastSeparator? comment (framing.below.take (closingWindow - framing.inner.length - 1)) = none) :
    Header.locate comment framing.lines = some framing.bounds := by
  have window : (framing.inner ++ framing.closing :: framing.below).take closingWindow
      = framing.inner ++ framing.closing :: framing.below.take (closingWindow - framing.inner.length - 1) := by
    have whole : framing.inner.take closingWindow = framing.inner := List.take_of_length_le (by omega)
    obtain ⟨room, roomEqual⟩ : ∃ room, closingWindow - framing.inner.length = room + 1 :=
      ⟨closingWindow - framing.inner.length - 1, by omega⟩
    rw [List.take_append, whole, roomEqual, List.take_succ_cons, Nat.add_sub_cancel]
  simp only [Header.locate, begins.hasHeader, if_true, findBounds, begins.findIdx?_eq, Option.map_some, drop_above]
  rw [window, lastSeparator?_append headerLines closes nothing]
  simp only [bounds, Option.some.injEq, Bounds.mk.injEq, true_and]
  omega

/-- The header is located whole exactly if its closing rule stands within the closing window. -/
theorem Stands.locate_eq_iff (stands : framing.Stands comment) :
    Header.locate comment framing.lines = some framing.bounds ↔
      framing.inner.length < closingWindow := by
  constructor
  · intro located
    simp only [Header.locate, stands.begins.hasHeader, if_true, findBounds, stands.begins.findIdx?_eq,
      Option.map_some, drop_above, Option.some.injEq] at located
    rw [← Nat.not_le]
    intro long
    -- Neither a separator within the window nor the fallback reaches the closing rule.
    split at located
    · next offset found =>
      have bound := lastSeparator?_lt found
      have ends := congrArg Bounds.last located
      simp only [bounds] at ends
      simp only [List.length_take] at bound
      omega
    · have ends := congrArg Bounds.last located
      simp only [bounds] at ends
      have span : fallbackSpan < closingWindow := by decide
      omega
  · intro short
    -- The window ends below the closing rule, in lines that are apart from the header.
    exact stands.begins.locate_eq stands.headerLines stands.closes short
      (lastSeparator?_of_beginsApart (stands.apart.take _))

/-- A comment that a rule closes is safe to replace. -/
theorem isTerminated_bounds (headerLines : ∀ line ∈ framing.header, isHeaderLine comment line = true)
    (closes : isSeparator comment framing.closing = true) :
    Engine.isTerminated comment framing.lines framing.bounds = true := by
  -- The last position of the bounds is that of the closing line.
  have last : framing.lines[framing.bounds.last]? = some framing.closing := by
    have position : framing.bounds.last = (framing.above ++ framing.opening :: framing.inner).length := by
      simp [bounds, Nat.add_assoc]
    have split : framing.lines
        = (framing.above ++ framing.opening :: framing.inner) ++ framing.closing :: framing.below := by
      simp [lines, header]
    rw [position, split, List.getElem?_append_right (Nat.le_refl _), Nat.sub_self]
    rfl
  have within : framing.bounds.last < framing.lines.length := (List.getElem?_eq_some_iff.mp last).1
  have distinct : framing.bounds.first ≠ framing.bounds.last := by
    simp only [bounds]
    omega
  have ordered : framing.bounds.first ≤ framing.bounds.last + 1 := by
    simp only [bounds]
    omega
  rw [Engine.isTerminated, last, Option.any_some, closes, isCommentBlock, slice_bounds,
    List.all_eq_true.mpr headerLines]
  simp [within, ordered, distinct]

theorem Stands.isTerminated (stands : framing.Stands comment) :
    Engine.isTerminated comment framing.lines framing.bounds = true := by
  refine isTerminated_bounds ?_ stands.closes
  intro line member
  simp only [header, List.mem_cons, List.mem_append, List.not_mem_nil, or_false] at member
  rcases member with rfl | member | rfl
  · simp [isHeaderLine, isSeparator_of_isCommentRule stands.opens]
  · exact stands.headerLines line member
  · simp [isHeaderLine, stands.closes]

end Framing

end Masthead.Header
