import Masthead.Proofs.Header.Bounds
import Masthead.Proofs.Header.Rendering

/-!
# A new header is found again

A built-in header that is inserted into a document without a header stands there between its rules.
What is put above it holds no rule, and the line below it belongs to no header, so that its bounds
are those of the rendered lines whatever the document says.
-/

namespace Masthead.Header

open Text

/-- The lines that stand above a header when it has been inserted. -/
def aboveHeader (config : Config) (context : FileContext) (lines : List Text) : List Text :=
  if lines.head?.any isPinned then lines.take 1 ++ [[]] else (shebang? config context.language).toList

/-- The position of the first line of a header when it has been inserted. -/
def headerStart (config : Config) (context : FileContext) (lines : List Text) : Nat :=
  if lines.head?.any isPinned then 2
  else if (shebang? config context.language).isSome then 1
  else 0

theorem aboveHeader_length (config : Config) (context : FileContext) (lines : List Text) :
    (aboveHeader config context lines).length = headerStart config context lines := by
  unfold aboveHeader headerStart
  split
  · next pinned =>
    cases lines with
    | nil => cases pinned
    | cons first rest => rfl
  · cases shebang? config context.language <;> rfl

/-- Whether lines may stand above a header without being taken for a part of it. -/
def NoSeparator (comment : Text) (lines : List Text) : Prop :=
  ∀ line ∈ lines, isSeparator comment line = false

namespace Engine

/-- What follows a header is a blank line, or nothing. -/
theorem spacing_beginsApart (comment : Text) (lines : List Text) (position : Nat) :
    BeginsApart comment (spacing lines position ++ lines.drop position) := by
  intro line head
  unfold spacing at head
  split at head
  · simp only [List.cons_append, List.head?_cons, Option.some.injEq] at head
    rw [← head]
    exact isHeaderLine_eq_false_of_isBlank rfl
  · next blank =>
    rw [List.nil_append, List.head?_drop] at head
    rw [head, Option.any_some] at blank
    exact isHeaderLine_eq_false_of_isBlank (by simpa using blank)

theorem isCommentRule_eq_false_of_head? {config : Config} {context : FileContext} {document : Document}
    (absent : hasHeader config context document = false) {first : Text}
    (head : document.lines.head? = some first) :
    isCommentRule (commentOf config context) first = false := by
  simp only [hasHeader, Header.hasHeader, List.any_eq_false, Bool.not_eq_true] at absent
  apply absent
  cases lines : document.lines with
  | nil => rw [lines] at head; cases head
  | cons line rest =>
    rw [lines] at head
    cases head
    exact List.mem_cons_self

/-- The lines above a header hold no rule if the interpreter's line is none. -/
theorem noSeparator_aboveHeader {config : Config} {context : FileContext} {document : Document}
    (absent : hasHeader config context document = false)
    (shebangClear : document.lines.head?.any isPinned = false →
      ∀ line, shebang? config context.language = some line →
        isSeparator (commentOf config context) line = false) :
    NoSeparator (commentOf config context) (aboveHeader config context document.lines) := by
  intro line member
  unfold aboveHeader at member
  split at member
  · next pinned =>
    cases lines : document.lines with
    | nil => rw [lines] at pinned; cases pinned
    | cons first rest =>
      rw [lines] at member pinned
      have unruled := isCommentRule_eq_false_of_head? absent (by rw [lines]; rfl)
      simp only [List.take_succ_cons, List.take_zero, List.mem_append, List.mem_singleton] at member
      -- The first line stays the first, and a blank line is put below it.
      rcases member with rfl | rfl
      · exact isSeparator_eq_false_of_isPinned (by simpa using pinned) unruled
      · have blank : isHeaderLine (commentOf config context) [] = false := isHeaderLine_eq_false_of_isBlank rfl
        simp only [isHeaderLine, Bool.or_eq_false_iff] at blank
        exact blank.1
  · next unpinned =>
    rw [Option.mem_toList] at member
    exact shebangClear (by simpa using unpinned) line member

/-- The lines of a document with a header put in, and with what goes around the header. -/
theorem insertLines_opening (config : Config) (context : FileContext) (document : Document)
    (header : List Text) :
    (document.insertLines (opening config context document.lines).1
        ((opening config context document.lines).2 ++ header
          ++ spacing document.lines (opening config context document.lines).1)).lines
      = aboveHeader config context document.lines ++ (header ++
        (spacing document.lines (opening config context document.lines).1
          ++ document.lines.drop (opening config context document.lines).1)) := by
  simp only [Document.insertLines, opening, aboveHeader]
  split
  · simp only [List.append_assoc]
  · simp only [List.take_zero, List.nil_append, List.append_assoc]

variable (now : Calendar.Instant) {config : Config} {context : FileContext} {document : Document}

theorem insert_builtin (ruled : isCommentRule (commentOf config context) (ruleLine config context) = true)
    (absent : hasHeader config context document = false) :
    (builtin now).insert config context document =
      .inserted (opening config context document.lines).1
        ((opening config context document.lines).2 ++ (builtin now).render config context
          ++ spacing document.lines (opening config context document.lines).1) none := by
  have locatable : ((builtin now).render config context).any
      (isCommentRule (commentOf config context)) = true := by
    obtain ⟨inner, rendered, -⟩ := exists_render_inner now config context
    rw [rendered, List.any_cons, ruled, Bool.true_or]
  simp only [insert, absent, locatable]
  rfl

/-- An inserted header stands between its rules, which are close enough to be found. -/
theorem exists_framing_insert
    (ruled : isCommentRule (commentOf config context) (ruleLine config context) = true)
    (absent : hasHeader config context document = false)
    (clear : NoSeparator (commentOf config context) (aboveHeader config context document.lines)) :
    ∃ framing : Framing, framing.Stands (commentOf config context) ∧
      (((builtin now).insert config context document).apply document).lines = framing.lines ∧
      framing.above = aboveHeader config context document.lines ∧
      framing.header = (builtin now).render config context ∧
      framing.inner.length < closingWindow := by
  obtain ⟨inner, rendered, short⟩ := exists_render_inner now config context
  have visible := beginsVisibly_of_isCommentRule ruled
  have innerLines : ∀ line ∈ inner, isHeaderLine (commentOf config context) line = true := by
    intro line member
    have commented := isCommentLine_of_mem_render now config context visible
      (rendered ▸ List.mem_cons_of_mem _ (List.mem_append_left _ member))
    simp [isHeaderLine, commented]
  -- What follows the header begins with the spacing, which keeps comments further down apart.
  refine ⟨⟨aboveHeader config context document.lines, ruleLine config context, inner, ruleLine config context,
    spacing document.lines (opening config context document.lines).1
      ++ document.lines.drop (opening config context document.lines).1⟩, ?_, ?_, rfl, rendered.symm, short⟩
  · constructor
    · exact clear
    · show (aboveHeader config context document.lines).length < openingWindow
      rw [aboveHeader_length]
      unfold headerStart
      split
      · decide
      · split <;> decide
    · exact ruled
    · exact innerLines
    · exact isSeparator_of_isCommentRule ruled
    · exact spacing_beginsApart _ _ _
  · rw [insert_builtin now ruled absent]
    simp only [Outcome.apply]
    rw [insertLines_opening, rendered]
    rfl

/-- A built-in header is located exactly where it has been put. -/
theorem locate_insert
    (ruled : isCommentRule (commentOf config context) (ruleLine config context) = true)
    (absent : hasHeader config context document = false)
    (shebangClear : document.lines.head?.any isPinned = false →
      ∀ line, shebang? config context.language = some line →
        isSeparator (commentOf config context) line = false) :
    ∃ position lines,
      (builtin now).insert config context document = .inserted position lines none ∧
      let header := (builtin now).render config context
      let start := headerStart config context document.lines
      let bounds : Bounds := ⟨start, start + header.length - 1⟩
      locate config context (document.insertLines position lines) = some bounds ∧
        bounds.slice (document.insertLines position lines).lines = header := by
  obtain ⟨framing, stands, framed, above, header, short⟩ :=
    exists_framing_insert now ruled absent (noSeparator_aboveHeader absent shebangClear)
  have inserted := insert_builtin now ruled absent
  refine ⟨_, _, inserted, ?_⟩
  rw [inserted, Outcome.apply, ← header] at framed
  have start : headerStart config context document.lines = framing.above.length := by
    rw [above, aboveHeader_length]
  have boundsEqual : (⟨framing.above.length, framing.above.length + framing.header.length - 1⟩ : Bounds)
      = framing.bounds := by
    rw [Framing.header_length]
    rfl
  simp only [locate, framed, start, ← header, boundsEqual]
  exact ⟨stands.locate_eq_iff.mpr short, framing.slice_bounds⟩

/-- Below the line of an interpreter, and above a rule and a comment that were there before. -/
theorem locate_insert_below_interpreter :
    let config := { Config.default with shebangPerLanguage := [("rust", "/usr/bin/env run")] }
    let context := FileContext.ofPath "rust" "/work/src/main.rs"
    let document := Document.ofLines ["=======", "// Notes", "fn main() \x7b\x7d"]
    isCommentRule (commentOf config context) (ruleLine config context) = true ∧
      hasHeader config context document = false ∧
      isSeparator (commentOf config context) "#!/usr/bin/env run" = false ∧
      ∃ position lines,
        (builtin (0 : Int)).insert config context document = .inserted position lines none ∧
        let bounds : Bounds := ⟨1, 22⟩
        locate config context (document.insertLines position lines) = some bounds ∧
          bounds.slice (document.insertLines position lines).lines
            = (builtin (0 : Int)).render config context := by
  intro config context document
  have ruled : isCommentRule (commentOf config context) (ruleLine config context) = true := by decide +kernel
  have absent : hasHeader config context document = false := by decide +kernel
  have clear : isSeparator (commentOf config context) "#!/usr/bin/env run" = false := by decide +kernel
  refine ⟨ruled, absent, clear, ?_⟩
  refine locate_insert (0 : Int) ruled absent ?_
  intro _ line named
  cases named
  exact clear

end Engine

end Masthead.Header
