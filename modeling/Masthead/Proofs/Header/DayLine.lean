import Masthead.Proofs.Header.Settled
import Masthead.Proofs.Header.Silence

/-!
# The one line of the day

A header is dated by a day if that day is read from one of its lines, no day is read from any other line, now or
when its labels have been repaired, and no section is named above that line. Rendering such a header anew gives a
header that is dated by the same day: what is put into the sections below comes from silent lines.
-/

namespace Masthead.Header

open Text

/-- The days of creation that are read from the lines of a header. -/
def daysOf (header : List Text) : List Text :=
  (header.filterMap creationField.cut?).map (·.value)

/-- Letters without which a line has neither a label to be repaired nor a field to be renewed. -/
def refreshLetters : Text := "LUE"

/-- Whether a day is read from a line that no refresh changes. -/
structure IsDayLine (day line : Text) : Prop where
  cut : ∃ head, creationField.cut? line = some ⟨head, day⟩
  plain : ∀ letter ∈ refreshLetters, letter ∉ line

/-- Whether a day is the only one in a header, above all sections. -/
def DatedBy (comment day : Text) (header : List Text) : Prop :=
  ∃ above line below, header = above ++ line :: below ∧ IsDayLine day line ∧ (∀ other ∈ above, Silent other) ∧
    (∀ other ∈ below, Silent other) ∧ ∀ other ∈ above, sectionLabel? comment other = none

theorem Wordless.undated {comment : Text} (wordless : Wordless comment) : Undated comment := by
  intro label member
  rw [Bool.eq_false_iff]
  intro held
  exact wordless.not_mem (by decide : isWord 'C' = true) ((holds_iff.mp held).subset (creationLabel_mem_C label member))

theorem IsDayLine.isValue {day line : Text} (dayLine : IsDayLine day line) : creationField.IsValue day := by
  obtain ⟨head, cut⟩ := dayLine.cut
  exact (FieldShape.of_cutAfter? cut).2.2.1

theorem IsDayLine.isDated {day line : Text} (dayLine : IsDayLine day line) : IsDated line := by
  obtain ⟨head, cut⟩ := dayLine.cut
  exact isDated_of_cut? cut

/-- The line of one day with another day. -/
theorem IsDayLine.head_append {day other line otherLine : Text} {found : FieldShape.Cut} (dayLine : IsDayLine day line)
    (otherDayLine : IsDayLine other otherLine) (cut : creationField.cut? otherLine = some found) :
    IsDayLine day (found.head ++ day) := by
  refine ⟨⟨found.head,
    FieldShape.cutAfter?_head_append creationLabel_colonless dayLine.isValue (dayLine.isValue.present rfl) cut⟩, ?_⟩
  intro letter listed member
  rcases List.mem_append.mp member with member | member
  · obtain ⟨-, -, -, white, split, -⟩ := FieldShape.of_cutAfter? cut
    exact otherDayLine.plain letter listed (split ▸ List.mem_append_left _ member)
  · obtain ⟨head, ownCut⟩ := dayLine.cut
    obtain ⟨-, -, -, white, split, -⟩ := FieldShape.of_cutAfter? ownCut
    exact dayLine.plain letter listed (split ▸ List.mem_append_right _ (List.mem_append_left _ member))

/-! ## Filling below the day -/

namespace Narrative

variable {comment : Text}

/-- The label of a section stands below lines that name none. -/
theorem exists_before_of_unnamed {front rest : List Text} {cutout : Cutout} {part : Section}
    (unnamed : ∀ line ∈ front, sectionLabel? comment line = none) (holds : cutout.Holds comment part)
    (split : cutout.lines = front ++ rest) :
    ∃ middle, cutout.before = front ++ middle ∧ rest = middle ++ cutout.label :: (cutout.body ++ cutout.after) := by
  rcases List.append_eq_append_iff.mp split with ⟨middle, frontEqual, restEqual⟩ | ⟨middle, beforeEqual, restEqual⟩
  · cases middle with
    | nil => exact ⟨[], by rw [frontEqual, List.append_nil, List.append_nil], restEqual.symm⟩
    | cons first middle =>
      obtain ⟨rfl, -⟩ := List.cons.inj restEqual
      have named := holds.named
      rw [unnamed _ (by simp [frontEqual])] at named
      cases named
  · exact ⟨middle, beforeEqual, restEqual⟩

/-- Filling a section leaves the lines above all sections as they are. -/
theorem exists_putSection (narrative : Narrative) {front rest : List Text} {cutout : Cutout} {part : Section}
    (unnamed : ∀ line ∈ front, sectionLabel? comment line = none) (holds : cutout.Holds comment part)
    (split : cutout.lines = front ++ rest) :
    ∃ filled, narrative.putSection comment (front ++ rest) (cutout.span, part) = front ++ filled ∧
      ∀ line ∈ filled, line ∈ rest ∨ line ∈ narrative.lines part := by
  obtain ⟨middle, beforeEqual, restEqual⟩ := exists_before_of_unnamed unnamed holds split
  -- The label stands below the front, so the front is a part of what stands above the section.
  refine ⟨middle ++ cutout.label :: (framed comment cutout.body (narrative.lines part) ++ cutout.after), ?_, ?_⟩
  · rw [← split, putSection_eq]
    simp only [Cutout.lines, Cutout.withBody, beforeEqual, List.append_assoc]
  · intro line member
    obtain ⟨lead, trail, framedEqual, leadBody, trailBody⟩ :=
      exists_framed_split comment cutout.body (narrative.lines part)
    rw [framedEqual] at member
    rw [restEqual]
    simp only [List.mem_append, List.mem_cons] at member ⊢
    rcases member with inMiddle | isLabel | (inLead | isTold | inTrail) | inAfter
    · exact .inl (.inl inMiddle)
    · exact .inl (.inr (.inl isLabel))
    · exact .inl (.inr (.inr (.inl (leadBody line inLead).2)))
    · exact .inr isTold
    · exact .inl (.inr (.inr (.inl (trailBody line inTrail).2)))
    · exact .inl (.inr (.inr (.inr inAfter)))

/-- Lines above all sections stay as they are, and below them comes what was there or is told. -/
theorem exists_foldl_putSection (narrative : Narrative) {front rest : List Text} {places : List (Span × Section)}
    (unnamed : ∀ line ∈ front, sectionLabel? comment line = none) (hold : Places comment (front ++ rest) places) :
    ∃ filled, places.foldl (narrative.putSection comment) (front ++ rest) = front ++ filled ∧
      ∀ line ∈ filled, line ∈ rest ∨ ∃ part, line ∈ narrative.lines part := by
  induction places generalizing rest with
  | nil => exact ⟨rest, rfl, fun line member => .inl member⟩
  | cons place places inductionHypothesis =>
    obtain ⟨span, part⟩ := place
    obtain ⟨cutout, holds, split, rfl⟩ := Cutout.exists_of_sectionBody? (hold.found _ List.mem_cons_self)
    obtain ⟨once, put, onceMembers⟩ := exists_putSection narrative unnamed holds split
    rw [← split] at hold
    -- The places above have not moved, so the next one is found in what has been put in.
    have later : Places comment (narrative.putSection comment cutout.lines (cutout.span, part)) places :=
      hold.putSection holds
    rw [split, put] at later
    obtain ⟨filled, filledEqual, members⟩ := inductionHypothesis later
    refine ⟨filled, by rw [List.foldl_cons, put, filledEqual], fun line member => ?_⟩
    rcases members line member with inOnce | told
    · exact (onceMembers line inOnce).imp_right fun isTold => ⟨part, isTold⟩
    · exact .inr told

theorem putDate_append_uncut (date : Text) {above : List Text} (below : List Text)
    (uncut : ∀ other ∈ above, creationField.cut? other = none) :
    putDate date (above ++ below) = above ++ putDate date below := by
  induction above with
  | nil => rfl
  | cons first above inductionHypothesis =>
    rw [List.cons_append, putDate, uncut first List.mem_cons_self, List.cons_append,
      inductionHypothesis fun other member => uncut other (List.mem_cons_of_mem _ member)]

theorem putDate_append (date : Text) {above : List Text} {line : Text} {found : FieldShape.Cut} (below : List Text)
    (uncut : ∀ other ∈ above, creationField.cut? other = none) (cut : creationField.cut? line = some found) :
    putDate date (above ++ line :: below) = above ++ (found.head ++ date) :: below := by
  rw [putDate_append_uncut date _ uncut, putDate, cut]

/-! ## Reading a merged header -/

/-- What was taken out of one header is taken out of the header that it was put into. -/
theorem extract_mergeInto (wordless : Wordless comment) (sentinels old : List Text) {fresh : List Text}
    (above : DatedAbove comment fresh) :
    let narrative := extract comment sentinels old
    let again := extract comment sentinels (narrative.mergeInto comment fresh)
    (∀ part, narrative.hasContent comment part = true → (∃ line ∈ fresh, sectionLabel? comment line = some part) →
        again.lines part = narrative.lines part) ∧
      ∀ date, narrative.creationDate = some date → again.creationDate = some date := by
  intro narrative again
  constructor
  · intro part content labelled
    obtain ⟨line, member, named⟩ := labelled
    have found : (sectionText? comment part fresh).isSome = true := by
      rw [Option.isSome_iff_ne_none]
      intro missing
      exact sectionText?_eq_none missing line member named
    rw [extract_lines, sectionLines_eq, sectionText?_mergeInto wordless.undated above, ← sectionLines_eq]
    exact sectionLines_fillSections content found
  · intro date given
    show creationDateOf? sentinels (narrative.mergeInto comment fresh) = some date
    rw [mergeInto_of_eq_some given]
    -- The line above all sections is still there when the day is put in.
    refine creationDateOf?_putDate given ?_
    rw [DatedAbove, ← preamble_fillSections narrative] at above
    obtain ⟨line, member, cut⟩ := above
    exact ⟨line, (List.takeWhile_sublist _).subset member, cut⟩

/-- A section and a day, put into a header with both. -/
theorem extract_mergeInto_described :
    let old : List Text := ["//----", "// Created : 2020/01/01", "// Description :", "//   Reads tables", "//----"]
    let fresh : List Text := ["//----", "// Created : 2026/01/01", "// Description :", "//   Unwritten", "//----"]
    let narrative := extract "//" [] old
    let again := extract "//" [] (narrative.mergeInto "//" fresh)
    Wordless "//" ∧ DatedAbove "//" fresh ∧ narrative.hasContent "//" .description = true ∧
      again.lines .description = narrative.lines .description ∧ again.creationDate = some "2020/01/01".toList := by
  intro old fresh narrative again
  have wordless : Wordless "//" := by decide
  have above : DatedAbove "//" fresh := by decide +kernel
  have content : narrative.hasContent "//" .description = true := by decide +kernel
  obtain ⟨lines, day⟩ := extract_mergeInto wordless [] old above
  refine ⟨wordless, above, content, ?_, ?_⟩
  · exact lines .description content ⟨"// Description :".toList, by decide +kernel, by decide +kernel⟩
  · exact day "2020/01/01".toList (by decide +kernel)

end Narrative

/-! ## Dated headers -/

namespace DatedBy

variable {comment day : Text} {sentinels header : List Text}

theorem daysOf_eq (dated : DatedBy comment day header) : daysOf header = [day] := by
  obtain ⟨above, line, below, rfl, ⟨⟨head, cut⟩, -⟩, aboveSilent, belowSilent, -⟩ := dated
  have passed {lines : List Text} (silent : ∀ other ∈ lines, Silent other) : lines.filterMap creationField.cut? = [] :=
    List.filterMap_eq_nil_iff.mpr fun other member => (silent other member).1
  rw [daysOf, List.filterMap_append, passed aboveSilent, List.nil_append, List.filterMap_cons_some cut,
    passed belowSilent]
  rfl

theorem creationDateOf?_eq (dated : DatedBy comment day header) (unmarked : isScaffolding sentinels day = false) :
    Narrative.creationDateOf? sentinels header = some day := by
  have days := dated.daysOf_eq
  rw [daysOf] at days
  rw [Narrative.creationDateOf?, days, List.find?_cons_of_pos (by simp [unmarked])]

variable (undated : Undated comment)

include undated

theorem unnamed {above : List Text} {line : Text} (dayLine : IsDayLine day line)
    (aboveUnnamed : ∀ other ∈ above, sectionLabel? comment other = none) :
    ∀ other ∈ above ++ [line], sectionLabel? comment other = none := by
  intro other member
  rcases List.mem_append.mp member with member | member
  · exact aboveUnnamed other member
  · rw [List.mem_singleton.mp member]
    exact undated.sectionLabel?_eq_none dayLine.isDated

theorem datedAbove (dated : DatedBy comment day header) : DatedAbove comment header := by
  obtain ⟨above, line, below, rfl, dayLine, -, -, aboveUnnamed⟩ := dated
  have named := unnamed undated dayLine aboveUnnamed
  refine ⟨line, ?_, ?_⟩
  · rw [preamble, ← List.singleton_append, ← List.append_assoc,
      List.takeWhile_append_of_pos fun other member => by simp [named other member]]
    simp
  · obtain ⟨head, cut⟩ := dayLine.cut
    rw [cut]
    rfl

/-- Nothing that a dated header says in its sections reads like a day of creation. -/
theorem silent_of_mem_lines (dated : DatedBy comment day header) {part : Section} {line : Text}
    (member : line ∈ (Narrative.extract comment sentinels header).lines part) : Silent line := by
  obtain ⟨above, dayLine, below, rfl, isDayLine, -, belowSilent, aboveUnnamed⟩ := dated
  have named := unnamed undated isDayLine aboveUnnamed
  have split : above ++ dayLine :: below = above ++ [dayLine] ++ below := by simp
  rw [Narrative.extract_lines, Narrative.sectionLines_eq, split,
    sectionText?_append _ fun other member => by simp [named other member]] at member
  cases text : sectionText? comment part below with
  | none =>
    rw [text] at member
    cases member
  | some body =>
    obtain ⟨cutout, -, rfl, rfl⟩ := Cutout.exists_of_sectionText? text
    rw [text] at member
    refine belowSilent line ?_
    simp [Cutout.lines, (of_mem_keptLines member).1]

/-- A dated header that is rendered anew is dated by the same day. -/
theorem mergeInto {other : Text} {fresh : List Text} (dated : DatedBy comment day header)
    (unmarked : isScaffolding sentinels day = false) (freshDated : DatedBy comment other fresh) :
    DatedBy comment day ((Narrative.extract comment sentinels header).mergeInto comment fresh) := by
  have told : ∀ part, ∀ line ∈ (Narrative.extract comment sentinels header).lines part, Silent line :=
    fun part line member => dated.silent_of_mem_lines undated member
  have given : (Narrative.extract comment sentinels header).creationDate = some day := dated.creationDateOf?_eq unmarked
  obtain ⟨above, line, below, rfl, freshLine, aboveSilent, belowSilent, aboveUnnamed⟩ := freshDated
  have split : above ++ line :: below = above ++ [line] ++ below := by simp
  rw [Narrative.mergeInto_of_eq_some given]
  -- The sections lie below the line of the day.
  have hold := Narrative.places_hold comment (Narrative.extract comment sentinels header) (above ++ line :: below)
  rw [split] at hold
  obtain ⟨filled, filledEqual, members⟩ :=
    Narrative.exists_foldl_putSection _ (unnamed undated freshLine aboveUnnamed) hold
  have filledSilent : ∀ other ∈ filled, Silent other := by
    intro other member
    rcases members other member with member | ⟨part, member⟩
    · exact belowSilent other member
    · exact told part other member
  rw [Narrative.fillSections, split, filledEqual]
  obtain ⟨head, cut⟩ := freshLine.cut
  obtain ⟨_, oldLine, _, -, oldDayLine, -⟩ := dated
  refine ⟨above, head ++ day, filled, ?_, oldDayLine.head_append freshLine cut, aboveSilent, filledSilent, aboveUnnamed⟩
  rw [List.append_assoc, List.singleton_append]
  exact Narrative.putDate_append day filled (fun other member => (aboveSilent other member).1) cut

end DatedBy

end Masthead.Header
