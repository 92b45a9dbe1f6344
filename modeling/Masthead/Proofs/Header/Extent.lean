import Mathlib.Data.List.Flatten
import Mathlib.Data.List.Perm.Subperm
import Masthead.Proofs.Header.Bounds
import Masthead.Proofs.Header.Settled
import Masthead.Proofs.Header.Standing

/-!
# How long a header gets

What a section says is carried from header to header, and a fresh section is as long as its template. So no section
says more than the longest template of it does, however often a header is rendered anew in another style, and no
header leaves the closing window. Where lines change without another role in the header, nothing moves.
-/

namespace Masthead.Header

open Text

/-! ## Roles -/

/-- All that a line is to a header apart from what it says: where it may stand, what it names, and whether it shows. -/
def role (comment line : Text) : (Bool × Bool) × Option Section × Bool :=
  (standing comment line, sectionLabel? comment line, isBlankComment comment line)

section

variable {comment : Text} {lines others : List Text}

theorem exists_of_map_role (same : others.map (role comment) = lines.map (role comment)) {other : Text}
    (member : other ∈ others) : ∃ line ∈ lines, role comment line = role comment other :=
  List.mem_map.mp (same ▸ List.mem_map_of_mem member)

theorem isHeaderLine_congr {line other : Text} (same : role comment line = role comment other) :
    isHeaderLine comment line = isHeaderLine comment other := by
  obtain ⟨separator, commented⟩ := Prod.mk.inj (Prod.mk.inj same).1
  rw [isHeaderLine, isHeaderLine, separator, commented]

theorem isSeparator_congr {line other : Text} (same : role comment line = role comment other) :
    isSeparator comment line = isSeparator comment other :=
  congrArg (·.1.1) same

theorem takeWhile_endsSection_congr (same : others.map (role comment) = lines.map (role comment)) :
    (others.takeWhile fun line => !endsSection comment line).map (role comment)
      = (lines.takeWhile fun line => !endsSection comment line).map (role comment) := by
  have judged (lines : List Text) : (lines.takeWhile fun line => !endsSection comment line).map (role comment)
      = (lines.map (role comment)).takeWhile fun found => !(found.2.1.isSome || found.1.1) := by
    rw [List.takeWhile_map]
    rfl
  rw [judged, judged, same]

theorem sectionText?_congr (same : others.map (role comment) = lines.map (role comment)) (part : Section) :
    (sectionText? comment part others).map (List.map (role comment))
      = (sectionText? comment part lines).map (List.map (role comment)) := by
  induction lines generalizing others with
  | nil => rw [List.map_eq_nil_iff.mp same]
  | cons line lines inductionHypothesis =>
    obtain ⟨other, others, rfl, first, rest⟩ := List.map_eq_cons_iff.mp same
    have label : sectionLabel? comment other = sectionLabel? comment line := congrArg (·.2.1) first
    rw [sectionText?, sectionText?, label]
    split
    · rw [Option.map_some, Option.map_some, takeWhile_endsSection_congr rest]
    · exact inductionHypothesis rest

theorem length_trimBlankLines_congr (same : others.map (role comment) = lines.map (role comment)) :
    (trimBlankLines comment others).length = (trimBlankLines comment lines).length := by
  have judged (lines : List Text) : (trimBlankLines comment lines).length
      = ((((lines.map (role comment)).dropWhile (·.2.2)).reverse.dropWhile (·.2.2))).length := by
    have dropped (lines : List Text) : (lines.dropWhile (isBlankComment comment)).map (role comment)
        = (lines.map (role comment)).dropWhile (·.2.2) := by
      rw [List.dropWhile_map]
      rfl
    rw [← dropped, ← List.map_reverse, ← dropped, List.length_map, trimBlankLines, List.length_reverse]
  rw [judged, judged, same]

/-- A header stands where it stood if its lines and those around it change, but not their roles. -/
theorem Framing.Stands.exists_of_map_role {framing : Framing} (stands : framing.Stands comment)
    (same : others.map (role comment) = framing.lines.map (role comment)) :
    ∃ other : Framing, other.lines = others ∧ other.Stands comment ∧ other.above.length = framing.above.length ∧
      other.header.map (role comment) = framing.header.map (role comment) := by
  rw [lines, List.map_append, List.map_append] at same
  -- As many lines play the part of each piece as before, so the new lines fall into the same pieces.
  obtain ⟨above, _, rfl, sameAbove, same⟩ := List.map_eq_append_iff.mp same
  obtain ⟨header, below, rfl, sameHeader, sameBelow⟩ := List.map_eq_append_iff.mp same
  have sameLines := sameHeader
  rw [Framing.header, List.map_cons, List.map_append] at sameLines
  obtain ⟨opening, _, rfl, sameOpening, sameRest⟩ := List.map_eq_cons_iff.mp sameLines
  obtain ⟨inner, _, rfl, sameInner, sameRest⟩ := List.map_eq_append_iff.mp sameRest
  obtain ⟨closing, _, rfl, sameClosing, sameNothing⟩ := List.map_eq_cons_iff.mp sameRest
  obtain rfl := List.map_eq_nil_iff.mp sameNothing
  have sameLength : above.length = framing.above.length := by simpa using congrArg List.length sameAbove
  refine ⟨⟨above, opening, inner, closing, below⟩, rfl, ⟨?_, ?_, ?_, ?_, ?_, ?_⟩, sameLength, sameHeader⟩
  · -- Every condition asks for the role of a line alone, and each line has an old one of its role.
    intro line member
    obtain ⟨old, oldMember, sameRole⟩ := Header.exists_of_map_role sameAbove member
    rw [← isSeparator_congr sameRole]
    exact stands.clearAbove old oldMember
  · show above.length < openingWindow
    rw [sameLength]
    exact stands.nearTop
  · have opens := stands.opens
    obtain ⟨separator, commented⟩ := Prod.mk.inj (Prod.mk.inj sameOpening).1
    rwa [isCommentRule, ← separator, ← commented] at opens
  · intro line member
    obtain ⟨old, oldMember, sameRole⟩ := Header.exists_of_map_role sameInner member
    rw [← isHeaderLine_congr sameRole]
    exact stands.headerLines old oldMember
  · rw [isSeparator_congr sameClosing]
    exact stands.closes
  · intro line first
    cases below with
    | nil => cases first
    | cons next below =>
      obtain rfl := Option.some.inj first
      obtain ⟨old, _, belowEqual, sameRole, -⟩ := List.map_eq_cons_iff.mp sameBelow.symm
      rw [← isHeaderLine_congr sameRole]
      exact stands.apart old (by rw [belowEqual]; rfl)

end

/-! ## Sections that say no more than their templates -/

/-- How many lines a built-in header may have in a section. -/
def capacity : Section → Nat
  | .description => 12
  | .fileHistory => 1
  | .todoList => 1

/-- Whether every section of a header keeps to its capacity, blank lines at its ends apart. -/
def KeepsCapacity (comment : Text) (header : List Text) : Prop :=
  ∀ part, (trimBlankLines comment (Narrative.textOf comment header part)).length ≤ capacity part

theorem KeepsCapacity.congr {comment : Text} {header other : List Text} (keeps : KeepsCapacity comment header)
    (same : other.map (role comment) = header.map (role comment)) : KeepsCapacity comment other := by
  intro part
  -- How many lines a section has depends on where it begins and ends, and on which of its lines are blank.
  have sameText : (Narrative.textOf comment other part).map (role comment)
      = (Narrative.textOf comment header part).map (role comment) := by
    have texts := sectionText?_congr same part
    rw [Narrative.textOf, Narrative.textOf]
    cases text : sectionText? comment part header with
    | none =>
      rw [text, Option.map_none, Option.map_eq_none_iff] at texts
      rw [texts]
    | some body =>
      rw [text, Option.map_some] at texts
      obtain ⟨otherBody, otherText, sameBody⟩ := Option.map_eq_some_iff.mp texts
      rw [otherText]
      exact sameBody
  rw [length_trimBlankLines_congr sameText]
  exact keeps part

namespace Narrative

variable {comment : Text} {sentinels header fresh : List Text}

/-- What is read of a section is trimmed, and no longer than the section. -/
theorem exists_lines_extract (comment : Text) (sentinels header : List Text) (part : Section) :
    ∃ kept, (extract comment sentinels header).lines part = trimBlankLines comment kept ∧
      (trimBlankLines comment kept).length ≤ (trimBlankLines comment (textOf comment header part)).length := by
  rw [extract_lines, sectionLines_eq, textOf]
  cases text : sectionText? comment part header with
  | none => exact ⟨[], rfl, Nat.le_refl _⟩
  | some body => exact ⟨_, rfl, (keptLines_sublist comment sentinels body).length_le⟩

theorem KeepsCapacity.length_lines_le (keeps : KeepsCapacity comment header) (sentinels : List Text) (part : Section) :
    ((extract comment sentinels header).lines part).length ≤ capacity part := by
  obtain ⟨kept, equal, shorter⟩ := exists_lines_extract comment sentinels header part
  rw [equal]
  exact Nat.le_trans shorter (keeps part)

/-- A narrative keeps the capacity of a fresh header. -/
theorem keepsCapacity_mergeInto
    (dated : (extract comment sentinels header).creationDate ≠ none → Undated comment ∧ DatedAbove comment fresh)
    (keeps : KeepsCapacity comment header) (freshKeeps : KeepsCapacity comment fresh) :
    KeepsCapacity comment ((extract comment sentinels header).mergeInto comment fresh) := by
  intro part
  rw [textOf, sectionText?_mergeInto_told dated]
  have own := freshKeeps part
  rw [textOf] at own
  cases text : sectionText? comment part fresh with
  | none =>
    rw [text] at own
    exact own
  | some body =>
    rw [text] at own
    rw [Option.map_some, Option.getD_some, told]
    split
    · -- Between the blank lines of the template stands what was read, trimmed already.
      obtain ⟨kept, equal, shorter⟩ := exists_lines_extract comment sentinels header part
      obtain ⟨lead, trail, -, leadBlank, trailBlank, framedEqual⟩ := exists_frame comment body
      rw [framedEqual, equal, trimBlankLines_framed _ leadBlank trailBlank]
      exact Nat.le_trans shorter (keeps part)
    · exact own

/-! ## The length of a merged header -/

theorem length_framed_le (comment : Text) (body replacement : List Text) :
    (framed comment body replacement).length ≤ body.length + replacement.length := by
  obtain ⟨lead, trail, split, -, -, framedEqual⟩ := exists_frame comment body
  have size := congrArg List.length split
  simp only [List.length_append] at size
  rw [framedEqual]
  simp only [List.length_append]
  omega

/-- Each section makes a header longer by no more than what is told in it. -/
theorem length_foldl_putSection_le (narrative : Narrative) {places : List (Span × Section)} {header : List Text}
    (hold : Places comment header places) :
    (places.foldl (narrative.putSection comment) header).length
      ≤ header.length + (places.flatMap fun place => narrative.lines place.2).length := by
  induction hold using Places.induction with
  | nil header hold => exact Nat.le_refl _
  | cons cutout part places holds hold inductionHypothesis =>
    have later := inductionHypothesis (framed comment cutout.body (narrative.lines part) ++ cutout.after)
    have longer := length_framed_le comment cutout.body (narrative.lines part)
    rw [List.foldl_cons, putSection_eq, Cutout.lines_withBody]
    refine Nat.le_trans later ?_
    simp only [Cutout.lines, List.length_append, List.length_cons, List.flatMap_cons]
    omega

theorem nodup_map_places (comment : Text) (narrative : Narrative) (fresh : List Text) :
    ((narrative.places comment fresh).map (·.2)).Nodup := by
  have hold := places_hold comment narrative fresh
  rw [List.Nodup, List.pairwise_map]
  refine hold.falling.imp_of_mem ?_
  intro place other member otherMember falls same
  -- Places of one section would begin at one line.
  have found := hold.found other otherMember
  rw [← same, hold.found place member] at found
  rw [Option.some.inj found] at falls
  exact Nat.lt_irrefl _ falls

theorem length_mergeInto_le (comment : Text) (narrative : Narrative) (fresh : List Text) :
    (narrative.mergeInto comment fresh).length ≤ fresh.length + (Section.all.flatMap narrative.lines).length := by
  have listed : (narrative.places comment fresh).map (·.2) ⊆ Section.all := by
    intro part _
    cases part <;> decide
  obtain ⟨parts, perm, sublist⟩ := List.subperm_of_subset (nodup_map_places comment narrative fresh) listed
  have told : ((narrative.places comment fresh).flatMap fun place => narrative.lines place.2).length
      ≤ (Section.all.flatMap narrative.lines).length := by
    rw [← List.flatMap_map (fun place : Span × Section => place.2), ← (perm.flatMap_right narrative.lines).length_eq]
    exact (sublist.flatMap narrative.lines).length_le
  have filled := length_foldl_putSection_le narrative (places_hold comment narrative fresh)
  rw [length_mergeInto, fillSections]
  omega

end Narrative

/-- A header that says no more than templates do is rendered anew with a few lines more than a fresh one has. -/
theorem length_mergeInto_le_of_keepsCapacity {comment : Text} {sentinels header : List Text}
    (keeps : KeepsCapacity comment header) (fresh : List Text) :
    ((Narrative.extract comment sentinels header).mergeInto comment fresh).length ≤ fresh.length + 14 := by
  have told := Narrative.length_mergeInto_le comment (Narrative.extract comment sentinels header) fresh
  have lines := fun part => Narrative.KeepsCapacity.length_lines_le keeps sentinels part
  have description := lines .description
  have fileHistory := lines .fileHistory
  have todoList := lines .todoList
  simp only [Section.all, List.flatMap_cons, List.flatMap_nil, List.length_append, List.length_nil, capacity]
    at told description fileHistory todoList
  omega

end Masthead.Header
