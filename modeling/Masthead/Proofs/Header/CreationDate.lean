import Masthead.Proofs.Header.Field
import Masthead.Proofs.Header.Line
import Masthead.Proofs.Header.Merge

/-!
# The day of creation

The day of creation is put into the first line of a header that has such a field. Unless the comment
token itself reads like the field, that line is no rule, names no section and is not blank, neither
before nor afterwards. So at most one section changes by it, and that in this one line only.
-/

namespace Masthead.Header

open Text

/-! ## Lines with a day of creation -/

/-- Whether a token does not read like the field itself. -/
def Undated (comment : Text) : Prop :=
  ∀ label ∈ creationField.labels, Text.holds label comment = false

instance (comment : Text) : Decidable (Undated comment) :=
  inferInstanceAs (Decidable (∀ label ∈ creationField.labels, Text.holds label comment = false))

/-- Whether a label of the field stands in a line. -/
def IsDated (line : Text) : Prop :=
  ∃ label ∈ creationField.labels, label <:+: line

theorem isDated_of_cut? {line : Text} {found : FieldShape.Cut} (cut : creationField.cut? line = some found) :
    IsDated line := by
  obtain ⟨⟨label, member, inside⟩, -, -, white, split, -⟩ := FieldShape.of_cutAfter? cut
  exact ⟨label, member, inside.trans ⟨[], found.value ++ white, split.symm⟩⟩

theorem isDated_head_append {line : Text} {found : FieldShape.Cut} (cut : creationField.cut? line = some found)
    (date : Text) : IsDated (found.head ++ date) := by
  obtain ⟨⟨label, member, inside⟩, -⟩ := FieldShape.of_cutAfter? cut
  exact ⟨label, member, inside.trans (List.prefix_append _ _).isInfix⟩

theorem exists_ends_of_creationLabel {label : Text} (member : label ∈ creationField.labels) :
    ∃ head rest front last, label = head :: rest ∧ label = front ++ [last] ∧
      isLetterly head = true ∧ isLetterly last = true := by
  simp only [creationField, List.mem_cons, List.not_mem_nil, or_false] at member
  rcases member with rfl | rfl | rfl
  · exact ⟨'F', _, "First Create".toList, 'd', rfl, rfl, by decide, by decide⟩
  · exact ⟨'C', _, "Creation Dat".toList, 'e', rfl, rfl, by decide, by decide⟩
  · exact ⟨'C', _, "Create".toList, 'd', rfl, rfl, by decide, by decide⟩

theorem IsDated.trim {line : Text} (dated : IsDated line) : IsDated (trim line) := by
  obtain ⟨label, member, inside⟩ := dated
  obtain ⟨head, rest, front, last, begins, ends, headLetterly, lastLetterly⟩ := exists_ends_of_creationLabel member
  exact ⟨label, member, infix_trim inside begins (isWhite_eq_false_of_isLetterly headLetterly) ends
    (isWhite_eq_false_of_isLetterly lastLetterly)⟩

/-- What follows the token holds the last letter of a label if the token holds no label. -/
theorem Undated.exists_letter {comment rest : Text} (undated : Undated comment) (dated : IsDated (comment ++ rest)) :
    ∃ letter ∈ rest, isLetterly letter = true := by
  obtain ⟨label, member, inside⟩ := dated
  obtain ⟨-, -, front, last, -, ends, -, lastLetterly⟩ := exists_ends_of_creationLabel member
  by_cases behind : last ∈ rest
  · exact ⟨last, behind, lastLetterly⟩
  · rw [ends] at inside
    have held := holds_iff.mpr (infix_of_last_not_mem inside behind)
    rw [← ends, undated label member] at held
    cases held

/-- No end of a creation label begins the label of a section, not even with blanks before it. -/
theorem take_drop_creationLabel_not_prefix : ∀ label ∈ creationField.labels, ∀ count < label.length, ∀ part ∈ Section.all,
    trimStart (label.drop count) ≠ [] ∧
      ¬ (trimStart (label.drop count)).take 3 <+: part.label := by
  decide

/-- A text that begins with an end of a creation label names no section. -/
theorem not_isLabelText_of_begun {label left right text : Text} {part : Section}
    (member : label ∈ creationField.labels) (equal : label = left ++ right) (nonempty : right ≠ [])
    (begins : right <+: text) : ¬ isLabelText part.label (trim text) = true := by
  intro named
  have shorter : left.length < label.length := by
    rw [equal, List.length_append]
    exact Nat.lt_add_of_pos_right (List.length_pos_iff.mpr nonempty)
  have dropped : label.drop left.length = right := by rw [equal, List.drop_left]
  have listed : part ∈ Section.all := by cases part <;> decide
  obtain ⟨visible, foreign⟩ := take_drop_creationLabel_not_prefix label member left.length shorter part listed
  rw [dropped] at visible foreign
  -- Both the end of the one label and the other label would begin the text.
  have labelBegins : part.label <+: trimStart text := by
    obtain ⟨white, more, whole, -, -⟩ := exists_of_isLabelText named
    exact List.IsPrefix.trans ⟨_, whole.symm⟩ (trim_prefix_trimStart text)
  have threeBegin := (List.take_prefix 3 (trimStart right)).trans (trimStart_isPrefix begins visible)
  have long : ((trimStart right).take 3).length ≤ part.label.length := by
    refine Nat.le_trans (List.length_take_le 3 _) ?_
    cases part <;> decide
  exact foreign (List.prefix_of_prefix_length_le threeBegin labelBegins long)

theorem creationLabel_colonless : ∀ label ∈ creationField.labels, ':' ∉ label := by
  decide

theorem creationLabel_mem_C : ∀ label ∈ creationField.labels, 'C' ∈ label := by
  decide

theorem not_isDated_of_isLabelText {part : Section} {text : Text} (named : isLabelText part.label text = true) :
    ¬ IsDated text := by
  rintro ⟨label, member, inside⟩
  obtain ⟨white, more, rfl, whiteBlank, moreBlank⟩ := exists_of_isLabelText named
  have found := inside.subset (creationLabel_mem_C label member)
  simp only [List.mem_append, List.mem_cons] at found
  rcases found with found | found | found | found
  · exact absurd found (by cases part <;> decide)
  · exact absurd (whiteBlank _ found) (by decide)
  · exact absurd found (by decide)
  · exact absurd (moreBlank _ found) (by decide)

/-- The text of a comment is trimmed, with or without the token before it. -/
theorem exists_commentText (comment line : Text) :
    ∃ text, commentText comment line = trim text ∧
      (text = line ∨ text = Text.trim line ∨ Text.trim line = comment ++ text) := by
  unfold commentText
  dsimp only
  split
  · exact ⟨line, rfl, .inl rfl⟩
  · cases found : after? comment (trim line) with
    | none => exact ⟨_, rfl, .inr (.inl rfl)⟩
    | some rest => exact ⟨rest, rfl, .inr (.inr (after?_eq_some_iff.mp found))⟩

variable {comment line : Text}

theorem Undated.isSeparator_eq_false (undated : Undated comment) (dated : IsDated line) :
    isSeparator comment line = false := by
  refine isSeparator_eq_false_of_letters ?_ fun text _ equal => undated.exists_letter (equal ▸ dated.trim)
  obtain ⟨label, member, inside⟩ := dated.trim
  obtain ⟨head, rest, -, -, rfl, -, letterly, -⟩ := exists_ends_of_creationLabel member
  exact ⟨head, inside.subset List.mem_cons_self, letterly⟩

theorem Undated.sectionLabel?_eq_none (undated : Undated comment) (dated : IsDated line) :
    sectionLabel? comment line = none := by
  cases labelled : sectionLabel? comment line with
  | none => rfl
  | some part =>
    have named := sectionLabel?_eq_some labelled
    obtain ⟨rest, textEqual, rfl | rfl | split⟩ := exists_commentText comment line
    · exact absurd (textEqual ▸ dated.trim) (not_isDated_of_isLabelText named)
    · exact absurd (textEqual ▸ dated.trim.trim) (not_isDated_of_isLabelText named)
    · obtain ⟨label, member, inside⟩ := dated.trim
      rw [split] at inside
      rcases infix_append_cases inside with inToken | inRest | ⟨left, right, equal, nonempty, -, begins⟩
      · have held := holds_iff.mpr inToken
        rw [undated label member] at held
        cases held
      · have restDated : IsDated rest := ⟨label, member, inRest⟩
        exact absurd (textEqual ▸ restDated.trim) (not_isDated_of_isLabelText named)
      · -- The token takes the beginning of the label, and what is named begins with the rest of it.
        exact absurd (textEqual ▸ named) (not_isLabelText_of_begun member equal nonempty begins)

theorem Undated.endsSection_eq_false (undated : Undated comment) (dated : IsDated line) :
    endsSection comment line = false := by
  exact endsSection_eq_false_iff.mpr ⟨undated.sectionLabel?_eq_none dated, undated.isSeparator_eq_false dated⟩

theorem Undated.isBlankComment_eq_false (undated : Undated comment) (dated : IsDated line) :
    isBlankComment comment line = false := by
  have holdsLetter : ∀ text, IsDated text → trim text ≠ [] := by
    intro text textDated blank
    obtain ⟨label, member, inside⟩ := textDated.trim
    rw [blank, List.infix_nil] at inside
    rw [inside] at member
    exact absurd member (by decide)
  obtain ⟨rest, textEqual, rfl | rfl | split⟩ := exists_commentText comment line
  · simp [isBlankComment, textEqual, holdsLetter _ dated]
  · simp [isBlankComment, textEqual, holdsLetter _ dated.trim]
  · obtain ⟨letter, member, letterly⟩ := undated.exists_letter (split ▸ dated.trim)
    have inText := mem_trim_of_visible member (isWhite_eq_false_of_isLetterly letterly)
    simp [isBlankComment, textEqual, List.ne_nil_of_mem inText]

/-- A line of a header is one with another day as well: the token ends before the label does. -/
theorem Undated.isHeaderLine_head_append (undated : Undated comment) {found : FieldShape.Cut}
    (cut : creationField.cut? line = some found) (headerLine : isHeaderLine comment line = true) (date : Text) :
    isHeaderLine comment (found.head ++ date) = true := by
  have commented : isCommentLine comment line = true := by
    simpa [isHeaderLine, undated.isSeparator_eq_false (isDated_of_cut? cut)] using headerLine
  obtain ⟨nonempty, begins⟩ := isCommentLine_iff.mp commented
  obtain ⟨-, -, -, white, split, -⟩ := FieldShape.of_cutAfter? cut
  have headDated : IsDated found.head := by
    have appended := isDated_head_append cut []
    rwa [List.append_nil] at appended
  obtain ⟨label, member, inside⟩ := headDated.trim
  have inStart : label <:+: trimStart found.head := inside.trans (trim_prefix_trimStart found.head).isInfix
  have visible : trimStart found.head ≠ [] := by
    intro blank
    rw [blank, List.infix_nil] at inStart
    rw [inStart] at member
    exact absurd member (by decide)
  have started : comment <+: trimStart found.head := by
    rw [split, trimStart_append _ visible] at begins
    rcases List.prefix_or_prefix_of_prefix begins (List.prefix_append _ _) with shorter | longer
    · exact shorter
    · -- A longer token would hold the label.
      have held := holds_iff.mpr (inStart.trans longer.isInfix)
      rw [undated label member] at held
      cases held
  have commentedAgain : isCommentLine comment (found.head ++ date) = true := by
    rw [isCommentLine_iff, trimStart_append _ visible]
    exact ⟨nonempty, started.trans (List.prefix_append _ _)⟩
  simp [isHeaderLine, commentedAgain]

/-! ## The line that gets the day -/

theorem putDate_cases (date : Text) (lines : List Text) :
    (Narrative.putDate date lines = lines ∧ ∀ line ∈ lines, creationField.cut? line = none) ∨
      ∃ above line found below, lines = above ++ line :: below ∧
        (∀ other ∈ above, creationField.cut? other = none) ∧ creationField.cut? line = some found ∧
        Narrative.putDate date lines = above ++ (found.head ++ date) :: below := by
  induction lines with
  | nil =>
    refine .inl ⟨rfl, ?_⟩
    intro line member
    cases member
  | cons first rest inductionHypothesis =>
    -- The day goes into the first line that has one, so the induction stops there.
    cases cut : creationField.cut? first with
    | some found =>
      have uncut : ∀ other ∈ ([] : List Text), creationField.cut? other = none := by
        intro other member
        cases member
      exact .inr ⟨[], first, found, rest, rfl, uncut, cut, by simp [Narrative.putDate, cut]⟩
    | none =>
      have passed : Narrative.putDate date (first :: rest) = first :: Narrative.putDate date rest := by
        simp [Narrative.putDate, cut]
      rw [passed]
      rcases inductionHypothesis with ⟨same, uncut⟩ | ⟨above, line, found, below, rfl, uncut, lineCut, placed⟩
      · refine .inl ⟨by rw [same], ?_⟩
        intro line member
        rcases List.mem_cons.mp member with rfl | member
        · exact cut
        · exact uncut line member
      · refine .inr ⟨first :: above, line, found, below, rfl, ?_, lineCut, by rw [placed]; rfl⟩
        intro other member
        rcases List.mem_cons.mp member with rfl | member
        · exact cut
        · exact uncut other member

/-- A changed line that neither ends a section nor did so shows in one section at most. -/
theorem sectionText?_set {above below : List Text} {line other : Text} (inside : endsSection comment line = false)
    (otherInside : endsSection comment other = false) (part : Section) :
    sectionText? comment part (above ++ other :: below) = sectionText? comment part (above ++ line :: below) ∨
      ∃ before after, sectionText? comment part (above ++ line :: below) = some (before ++ line :: after) ∧
        sectionText? comment part (above ++ other :: below) = some (before ++ other :: after) := by
  have unnamed {line : Text} (inside : endsSection comment line = false) :
      sectionLabel? comment line ≠ some part := by
    intro named
    rw [endsSection_of_sectionLabel? named] at inside
    cases inside
  induction above with
  | nil =>
    rw [List.nil_append, List.nil_append, sectionText?_cons_of_ne _ (unnamed inside),
      sectionText?_cons_of_ne _ (unnamed otherInside)]
    exact .inl rfl
  | cons first above inductionHypothesis =>
    -- Below the label, the line is part of the section unless the section has ended above it.
    rw [List.cons_append, List.cons_append, sectionText?, sectionText?]
    split
    · rw [List.takeWhile_append, List.takeWhile_append]
      split
      · right
        refine ⟨above, below.takeWhile fun line => !endsSection comment line, ?_, ?_⟩
        · rw [List.takeWhile_cons, if_pos (by simp [inside])]
        · rw [List.takeWhile_cons, if_pos (by simp [otherInside])]
      · exact .inl rfl
    · exact inductionHypothesis

/-! ## Above the sections -/

/-- The lines above the first section. -/
def preamble (comment : Text) (lines : List Text) : List Text :=
  lines.takeWhile fun line => (sectionLabel? comment line).isNone

/-- Whether the day of creation has its line above all sections. -/
def DatedAbove (comment : Text) (lines : List Text) : Prop :=
  ∃ line ∈ preamble comment lines, (creationField.cut? line).isSome = true

instance (comment : Text) (lines : List Text) : Decidable (DatedAbove comment lines) :=
  inferInstanceAs (Decidable (∃ line ∈ preamble comment lines, (creationField.cut? line).isSome = true))

theorem preamble_append_label {before : List Text} {label : Text} {part : Section}
    (named : sectionLabel? comment label = some part) (rest : List Text) :
    preamble comment (before ++ label :: rest) = preamble comment before := by
  apply takeWhile_append_stop
  rw [named]
  rfl

theorem preamble_foldl {narrative : Narrative} {places : List (Span × Section)} {header : List Text}
    (hold : Narrative.Places comment header places) :
    preamble comment (places.foldl (narrative.putSection comment) header) = preamble comment header := by
  induction hold using Narrative.Places.induction with
  | nil header hold => rfl
  | cons cutout part places holds hold inductionHypothesis =>
    rw [List.foldl_cons, Narrative.putSection_eq, Cutout.lines_withBody, inductionHypothesis, Cutout.lines,
      preamble_append_label holds.named, preamble_append_label holds.named]

/-- A day of creation above all sections leaves them alone. -/
theorem sectionText?_putDate (undated : Undated comment) {lines : List Text} (above : DatedAbove comment lines)
    (date : Text) (part : Section) :
    sectionText? comment part (Narrative.putDate date lines) = sectionText? comment part lines := by
  obtain ⟨dated, inPreamble, datedCut⟩ := above
  rcases putDate_cases date lines with ⟨same, -⟩ | ⟨upper, line, found, lower, rfl, uncut, cut, placed⟩
  · rw [same]
  · rw [placed]
    -- The first dated line lies in the preamble, and so does everything above it.
    have upperUnnamed : ∀ other ∈ upper, sectionLabel? comment other = none := by
      rw [preamble, List.takeWhile_append] at inPreamble
      split at inPreamble
      · next whole =>
        have all : upper.takeWhile (fun line => (sectionLabel? comment line).isNone) = upper :=
          List.IsPrefix.eq_of_length (List.takeWhile_prefix _) whole
        intro other member
        rw [← all] at member
        simpa using List.all_eq_true.mp List.all_takeWhile other member
      · have member := (List.takeWhile_sublist _).subset inPreamble
        rw [uncut dated member] at datedCut
        cases datedCut
    have unnamed {other : Text} (otherDated : IsDated other) : sectionLabel? comment other ≠ some part := by
      simp [undated.sectionLabel?_eq_none otherDated]
    have skip (other : Text) (otherDated : IsDated other) :
        sectionText? comment part (upper ++ other :: lower) = sectionText? comment part lower := by
      rw [sectionText?_append, sectionText?_cons_of_ne _ (unnamed otherDated)]
      intro above member
      simp [upperUnnamed above member]
    rw [skip _ (isDated_head_append cut date), skip _ (isDated_of_cut? cut)]

theorem sectionText?_mergeInto (undated : Undated comment) {fresh : List Text} (above : DatedAbove comment fresh)
    (narrative : Narrative) (part : Section) :
    sectionText? comment part (narrative.mergeInto comment fresh)
      = sectionText? comment part (narrative.fillSections comment fresh) := by
  rw [Narrative.mergeInto_eq]
  cases narrative.creationDate with
  | none => rfl
  | some date =>
    apply sectionText?_putDate undated
    rw [DatedAbove, Narrative.fillSections, preamble_foldl (Narrative.places_hold comment narrative fresh)]
    exact above

end Masthead.Header
