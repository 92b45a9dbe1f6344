import Masthead.Proofs.Header.DayLine
import Masthead.Proofs.Header.Extent

/-!
# What a refresh leaves as it is

The lines that a refresh writes hold the letter that a field's label begins with, before and afterwards, and neither
the comment token nor the name of a section has such a letter. So every line keeps its role, and the header its
place. The line of the day has none of these letters and stays as it is, and the others stay silent.
-/

namespace Masthead.Header

open Text

/-! ## Lines with the letter of a field -/

section

variable {comment line : Text}

theorem mem_commentText {letter : Char} (absent : letter ∉ comment) (visible : isWhite letter = false)
    (member : letter ∈ line) : letter ∈ commentText comment line := by
  obtain ⟨text, textEqual, rfl | rfl | split⟩ := exists_commentText comment line
  · exact textEqual ▸ mem_trim_of_visible member visible
  · exact textEqual ▸ mem_trim_of_visible (mem_trim_of_visible member visible) visible
  · have trimmed := mem_trim_of_visible member visible
    rw [split, List.mem_append] at trimmed
    exact textEqual ▸ mem_trim_of_visible (trimmed.resolve_left absent) visible

/-- No section is named with the letter of a field. -/
theorem letter_not_mem_label : ∀ field : VolatileField, ∀ part : Section,
    field.letter ∉ part.label ∧ field.letter ≠ ':' := by
  intro field part
  cases field <;> cases part <;> decide

variable (wordless : Wordless comment)

include wordless

/-- A line with the letter of a field names no section, and it shows. -/
theorem role_eq_of_mem (field : VolatileField) (member : field.letter ∈ line) :
    role comment line = (standing comment line, none, false) := by
  have inText := mem_commentText (wordless.not_mem field.isWord_letter) field.isWhite_letter member
  have unnamed : sectionLabel? comment line = none := by
    cases labelled : sectionLabel? comment line with
    | none => rfl
    | some part =>
      obtain ⟨white, more, textEqual, whiteBlank, moreBlank⟩ := exists_of_isLabelText (sectionLabel?_eq_some labelled)
      obtain ⟨foreign, noColon⟩ := letter_not_mem_label field part
      simp only [textEqual, List.mem_append, List.mem_cons, foreign, noColon, field.letter_not_mem_white whiteBlank,
        field.letter_not_mem_white moreBlank, or_self] at inText
  have shown : isBlankComment comment line = false := by
    rw [isBlankComment, List.isEmpty_eq_false_iff]
    exact List.ne_nil_of_mem inText
  rw [role, unnamed, shown]

theorem role_eq_of_standing (field : VolatileField) {other : Text} (member : field.letter ∈ line)
    (otherMember : field.letter ∈ other) (same : standing comment other = standing comment line) :
    role comment other = role comment line := by
  rw [role_eq_of_mem wordless field member, role_eq_of_mem wordless field otherMember, same]

end

theorem mem_of_matchesLine {comment line : Text} {field : VolatileField}
    (carried : field.matchesLine comment line = true) : field.letter ∈ line := by
  rw [VolatileField.matchesLine, Bool.and_eq_true] at carried
  obtain ⟨name, white, more, textEqual, named, -⟩ := VolatileField.labels_iff.mp carried.2
  obtain ⟨lead, rfl, -⟩ := named.exists_lead
  have inText : field.letter ∈ commentText comment line := by
    rw [textEqual, field.label_eq]
    simp
  exact mem_of_mem_trim (mem_trim_of_mem_commentText inText)

/-- A label to be repaired holds the word `Updated`, and so does the repaired one. -/
theorem mem_repairAfter_iff_of_label {before : Option Char} {text : Text} (needed : needsRepair before text = true) :
    VolatileField.lastModified.letter ∈ text ∧ VolatileField.lastModified.letter ∈ repairAfter before 0 text := by
  induction before, text using repairInduction with
  | nil before => cases needed
  | label before label after repeats _ =>
    obtain ⟨count, -, isLabel⟩ := repeats.repeated
    have named : VolatileField.IsNamed .lastModified label := ⟨count, isLabel⟩
    obtain ⟨lead, rfl, -⟩ := named.exists_lead
    rw [repairAfter_of_repeats repeats, VolatileField.label_eq]
    exact ⟨by simp, List.mem_append_left _ (by decide)⟩
  | plain before character rest none inductionHypothesis =>
    rw [needsRepair, none, Option.isSome_none, Bool.false_or] at needed
    rw [repairAfter_of_none none]
    obtain ⟨inText, inRepaired⟩ := inductionHypothesis needed
    exact ⟨List.mem_cons_of_mem _ inText, List.mem_cons_of_mem _ inRepaired⟩

/-! ## Roles are kept -/

section

variable {comment : Text} {enabled : VolatileField → Bool} {values : VolatileField → Text} {bounds : Bounds}

theorem role_renewedLine (wordless : Wordless comment) (line : Text) :
    role comment (renewedLine comment enabled values line) = role comment line := by
  have standingKept : standing comment (renewedLine comment enabled values line) = standing comment line :=
    standing_renewedLine wordless line
  rcases renewedLine_cases comment enabled values line with same | ⟨field, cut, carried, cutFound, renewed⟩
  · rw [same]
  · obtain ⟨front, white, gap, headEqual, -⟩ := field.exists_head_of_cut? cutFound
    refine role_eq_of_standing wordless field (mem_of_matchesLine carried) ?_ standingKept
    rw [renewed, headEqual, field.label_eq]
    simp

theorem role_repairing (wordless : Wordless comment) (position : Nat) (line : Text) :
    role comment (repairing.apply position line) = role comment line := by
  have standingKept := standing_repairing wordless position line
  rw [Rewriting.apply, repairing] at standingKept ⊢
  split
  · next within =>
    rw [if_pos within] at standingKept
    rw [repairLine?] at standingKept ⊢
    split
    · next needed =>
      rw [if_pos needed] at standingKept
      obtain ⟨inLine, inRepaired⟩ := mem_repairAfter_iff_of_label needed
      exact role_eq_of_standing wordless .lastModified inLine inRepaired standingKept
    · rfl
  · rfl

theorem role_refreshing (wordless : Wordless comment) (position : Nat) (line : Text) :
    role comment ((refreshing comment (enabledFields enabled values) bounds).apply position line)
      = role comment line := by
  rw [refreshing_apply, renewing_apply]
  split
  · rw [role_renewedLine wordless, role_repairing wordless]
  · exact role_repairing wordless position line

/-! ## Silence is kept -/

theorem silent_refreshing (valuesSilent : ∀ field, Silent (values field)) {position : Nat}
    (within : position < repairWindow) {line : Text} (silent : Silent line) :
    Silent ((refreshing comment (enabledFields enabled values) bounds).apply position line) := by
  have repaired : repairing.apply position line = repairedLine line := by
    rw [Rewriting.apply, repairing, if_pos within, repairedLine]
  -- Labels are repaired before fields are renewed.
  rw [refreshing_apply, renewing_apply, repaired]
  split
  · rcases renewedLine_cases comment enabled values (repairedLine line) with same | ⟨field, cut, -, cutFound, renewed⟩
    · rw [same]
      exact silent.repaired
    · rw [renewed]
      exact silent.repaired.head_append (not_repeatsLabel_repairedLine line) cutFound (valuesSilent field)
  · exact silent.repaired

theorem IsDayLine.refreshing_eq {day line : Text} (dayLine : IsDayLine day line) (position : Nat) :
    (refreshing comment (enabledFields enabled values) bounds).apply position line = line := by
  have single : ¬ RepeatsLabel line := by
    intro repeats
    have twice := repeats.two_le_count
    rw [List.count_eq_zero.mpr (dayLine.plain 'L' (by decide))] at twice
    exact absurd twice (by decide)
  have unrepaired : repairing.apply position line = line := by
    rw [Rewriting.apply, repairing_eq_none fun _ => single]
    rfl
  have foreign : carried? comment enabled line = none := by
    rw [Option.eq_none_iff_forall_ne_some]
    rintro ⟨field, head⟩ found
    obtain ⟨-, carried, -⟩ := carried?_eq_some_iff.mp found
    have listed : field.letter ∈ refreshLetters := by cases field <;> decide
    exact dayLine.plain field.letter listed (mem_of_matchesLine carried)
  rw [refreshing_apply, renewing_apply, unrepaired, renewedLine_of_none foreign, ite_self]

end

/-! ## The header is kept -/

theorem DatedBy.mapIdx {comment day : Text} {header : List Text} {change : Nat → Text → Text}
    (dated : DatedBy comment day header)
    (silent : ∀ position < header.length, ∀ line, Silent line → Silent (change position line))
    (dayKept : ∀ position line, IsDayLine day line → change position line = line)
    (roleKept : ∀ position line, role comment (change position line) = role comment line) :
    DatedBy comment day (header.mapIdx change) := by
  obtain ⟨above, line, below, rfl, dayLine, aboveSilent, belowSilent, aboveUnnamed⟩ := dated
  simp only [List.length_append, List.length_cons] at silent
  -- The lines below the day have changed with their positions in the whole header.
  refine ⟨above.mapIdx change, line, below.mapIdx fun position => change (position + 1 + above.length), ?_, dayLine,
    ?_, ?_, ?_⟩
  · rw [List.mapIdx_append, List.mapIdx_cons, dayKept _ line dayLine]
  · intro other member
    obtain ⟨position, within, rfl⟩ := List.mem_mapIdx.mp member
    exact silent position (by omega) _ (aboveSilent _ (List.getElem_mem within))
  · intro other member
    obtain ⟨position, within, rfl⟩ := List.mem_mapIdx.mp member
    exact silent _ (by omega) _ (belowSilent _ (List.getElem_mem within))
  · intro other member
    obtain ⟨position, within, rfl⟩ := List.mem_mapIdx.mp member
    rw [show sectionLabel? comment (change position above[position]) = sectionLabel? comment above[position] from
      congrArg (·.2.1) (roleKept position above[position])]
    exact aboveUnnamed _ (List.getElem_mem within)

namespace Setting

variable {setting : Setting} {document : Document}

theorem lines_refresh {bounds : Bounds}
    (located : Engine.locate setting.config setting.context document = some bounds) :
    (setting.refresh document).lines = document.lines.mapIdx (setting.rewriting bounds).apply := by
  apply List.ext_getElem?
  intro position
  rw [getElem?_refresh located, List.getElem?_mapIdx]

/-- A refreshed header stands where it stood, line by line. -/
theorem exists_framing_refresh {framing : Framing} (wordless : Wordless setting.comment)
    (stands : framing.Stands setting.comment) (framed : document.lines = framing.lines)
    (located : Engine.locate setting.config setting.context document = some framing.bounds) :
    ∃ other : Framing, (setting.refresh document).lines = other.lines ∧ other.Stands setting.comment ∧
      other.above.length = framing.above.length ∧
      other.header.map (role setting.comment) = framing.header.map (role setting.comment) ∧
      other.header = framing.header.mapIdx fun position =>
        (setting.rewriting framing.bounds).apply (position + framing.above.length) := by
  have lines := lines_refresh located
  have same : (setting.refresh document).lines.map (role setting.comment)
      = framing.lines.map (role setting.comment) := by
    rw [lines, framed]
    apply List.ext_getElem?
    intro position
    rw [List.getElem?_map, List.getElem?_map, List.getElem?_mapIdx, Option.map_map]
    congr 1
    funext line
    exact role_refreshing wordless position line
  -- No line changes its role, so the new lines have a header in the same place.
  obtain ⟨other, otherLines, otherStands, sameAbove, sameHeader⟩ := stands.exists_of_map_role same
  refine ⟨other, otherLines.symm, otherStands, sameAbove, sameHeader, ?_⟩
  rw [lines, framed, Framing.lines, Framing.lines, List.mapIdx_append, List.mapIdx_append] at otherLines
  have sizeAbove : other.above.length = (framing.above.mapIdx (setting.rewriting framing.bounds).apply).length := by
    rw [List.length_mapIdx, sameAbove]
  have behind := (List.append_inj otherLines sizeAbove).2
  refine (List.append_inj behind ?_).1
  rw [List.length_mapIdx]
  simpa using congrArg List.length sameHeader

end Setting

end Masthead.Header
