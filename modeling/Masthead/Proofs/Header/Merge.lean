import Masthead.Header.Narrative
import Masthead.Proofs.Header.Section

/-!
# Filling the sections of a header

The sections of a fresh header are filled from below at positions that are looked up beforehand.
Since a section reaches at most to the label below it, none of these positions is out of date when
its turn comes, and every section of the result can be read off without any positions. What was kept
from a section and has been filled in is then kept again, line for line.
-/

namespace Masthead.Header

/-! ## Blank lines at the ends -/

theorem trimBlankLines_append_of_blank {comment : Text} {lead : List Text} (lines : List Text)
    (blank : ∀ line ∈ lead, isBlankComment comment line = true) :
    trimBlankLines comment (lead ++ lines) = trimBlankLines comment lines := by
  simp only [trimBlankLines, List.dropWhile_append_of_pos blank]

theorem trimBlankLines_append_blank {comment : Text} (lines : List Text) {trail : List Text}
    (blank : ∀ line ∈ trail, isBlankComment comment line = true) :
    trimBlankLines comment (lines ++ trail) = trimBlankLines comment lines := by
  have reversed : ∀ line ∈ trail.reverse, isBlankComment comment line = true := by
    intro line member
    exact blank line (List.mem_reverse.mp member)
  simp only [trimBlankLines, List.dropWhile_append]
  split
  · next empty =>
    have dropped : (trail ++ []).dropWhile (isBlankComment comment)
        = ([] : List Text).dropWhile (isBlankComment comment) := List.dropWhile_append_of_pos blank
    rw [List.append_nil, List.dropWhile_nil] at dropped
    rw [List.isEmpty_iff.mp empty, dropped]
  · rw [List.reverse_append, List.dropWhile_append_of_pos reversed]

/-- The blank lines that a body begins with. -/
def leadingBlanks (comment : Text) (body : List Text) : List Text :=
  body.takeWhile (isBlankComment comment)

/-- The blank lines that a body ends with, below others. -/
def trailingBlanks (comment : Text) (body : List Text) : List Text :=
  ((body.dropWhile (isBlankComment comment)).reverse.takeWhile (isBlankComment comment)).reverse

/-- A body is the frame of its middle. -/
theorem leadingBlanks_append (comment : Text) (body : List Text) :
    leadingBlanks comment body ++ (trimBlankLines comment body ++ trailingBlanks comment body) = body := by
  rw [leadingBlanks, trimBlankLines, trailingBlanks, ← List.reverse_append, List.takeWhile_append_dropWhile,
    List.reverse_reverse, List.takeWhile_append_dropWhile]

theorem framed_eq (comment : Text) (body replacement : List Text) :
    Narrative.framed comment body replacement
      = leadingBlanks comment body ++ (replacement ++ trailingBlanks comment body) :=
  List.append_assoc _ _ _

theorem exists_frame (comment : Text) (body : List Text) :
    ∃ lead trail, body = lead ++ (trimBlankLines comment body ++ trail) ∧
      (∀ line ∈ lead, isBlankComment comment line = true) ∧ (∀ line ∈ trail, isBlankComment comment line = true) ∧
      ∀ replacement, Narrative.framed comment body replacement = lead ++ (replacement ++ trail) := by
  have blankTaken (lines : List Text) :
      ∀ line ∈ lines.takeWhile (isBlankComment comment), isBlankComment comment line = true :=
    fun line member => List.all_eq_true.mp List.all_takeWhile line member
  refine ⟨_, _, (leadingBlanks_append comment body).symm, blankTaken body, ?_, framed_eq comment body⟩
  intro line member
  exact blankTaken _ line (List.mem_reverse.mp member)

theorem exists_trimBlankLines_split (comment : Text) (lines : List Text) :
    ∃ lead trail, lines = lead ++ (trimBlankLines comment lines ++ trail) ∧
      (∀ line ∈ lead, isBlankComment comment line = true) ∧
      ∀ line ∈ trail, isBlankComment comment line = true := by
  obtain ⟨lead, trail, split, leadBlank, trailBlank, -⟩ := exists_frame comment lines
  exact ⟨lead, trail, split, leadBlank, trailBlank⟩

theorem trimBlankLines_framed {comment : Text} {lead trail : List Text} (lines : List Text)
    (leadBlank : ∀ line ∈ lead, isBlankComment comment line = true)
    (trailBlank : ∀ line ∈ trail, isBlankComment comment line = true) :
    trimBlankLines comment (lead ++ (trimBlankLines comment lines ++ trail)) = trimBlankLines comment lines := by
  obtain ⟨ownLead, ownTrail, split, ownLeadBlank, ownTrailBlank⟩ := exists_trimBlankLines_split comment lines
  rw [trimBlankLines_append_of_blank _ leadBlank, trimBlankLines_append_blank _ trailBlank]
  conv => rhs; rw [split]
  rw [trimBlankLines_append_of_blank _ ownLeadBlank, trimBlankLines_append_blank _ ownTrailBlank]

theorem mem_of_mem_trimBlankLines {comment line : Text} {lines : List Text}
    (member : line ∈ trimBlankLines comment lines) : line ∈ lines := by
  obtain ⟨lead, trail, split, -, -⟩ := exists_trimBlankLines_split comment lines
  rw [split]
  simp [member]

theorem filter_trimBlankLines (comment : Text) (lines : List Text) :
    (trimBlankLines comment lines).filter (fun line => !isBlankComment comment line)
      = lines.filter fun line => !isBlankComment comment line := by
  obtain ⟨lead, trail, split, leadBlank, trailBlank⟩ := exists_trimBlankLines_split comment lines
  have nothing {lines : List Text} (blank : ∀ line ∈ lines, isBlankComment comment line = true) :
      lines.filter (fun line => !isBlankComment comment line) = [] := by
    rw [List.filter_eq_nil_iff]
    intro line member
    simp [blank line member]
  conv => rhs; rw [split]
  rw [List.filter_append, List.filter_append, nothing leadBlank, nothing trailBlank, List.nil_append,
    List.append_nil]

theorem dropWhile_isBlankComment_append {comment : Text} (before after : List Text) {middle : List Text}
    (seen : middle ≠ []) (visible : ∀ line ∈ middle, isBlankComment comment line = false) :
    (before ++ (middle ++ after)).dropWhile (isBlankComment comment)
      = before.dropWhile (isBlankComment comment) ++ (middle ++ after) := by
  rw [List.dropWhile_append]
  split
  · next empty =>
    rw [List.isEmpty_iff.mp empty]
    cases middle with
    | nil => exact absurd rfl seen
    | cons line middle => simp [visible line List.mem_cons_self]
  · rfl

/-- Trimming stops at what is seen. -/
theorem exists_trimBlankLines_append {comment : Text} {before middle after : List Text} (seen : middle ≠ [])
    (visible : ∀ line ∈ middle, isBlankComment comment line = false) :
    ∃ front back, trimBlankLines comment (before ++ (middle ++ after)) = front ++ (middle ++ back) ∧
      front.Sublist before ∧ back.Sublist after := by
  refine ⟨before.dropWhile (isBlankComment comment),
    (after.reverse.dropWhile (isBlankComment comment)).reverse, ?_, List.dropWhile_sublist _, ?_⟩
  · have reversed : ∀ line ∈ middle.reverse, isBlankComment comment line = false := by
      intro line member
      exact visible line (List.mem_reverse.mp member)
    have seenReversed : middle.reverse ≠ [] := by simpa using seen
    rw [trimBlankLines, dropWhile_isBlankComment_append before after seen visible, List.reverse_append,
      List.reverse_append, List.append_assoc, dropWhile_isBlankComment_append _ _ seenReversed reversed]
    simp only [List.reverse_append, List.reverse_reverse, List.append_assoc]
  · have dropped := (List.dropWhile_sublist (l := after.reverse) (isBlankComment comment)).reverse
    rwa [List.reverse_reverse] at dropped

/-! ## The lines that a section keeps -/

/-- What is kept from the text of a section. -/
def keptLines (comment : Text) (sentinels text : List Text) : List Text :=
  trimBlankLines comment (text.filter fun line => !isScaffolding sentinels line)

variable {comment : Text} {sentinels : List Text}

theorem of_mem_keptLines {text : List Text} {line : Text} (member : line ∈ keptLines comment sentinels text) :
    line ∈ text ∧ isScaffolding sentinels line = false := by
  have filtered := List.mem_filter.mp (mem_of_mem_trimBlankLines member)
  simpa using filtered

namespace Narrative

theorem exists_framed_split (comment : Text) (body replacement : List Text) :
    ∃ lead trail, framed comment body replacement = lead ++ (replacement ++ trail) ∧
      (∀ line ∈ lead, isBlankComment comment line = true ∧ line ∈ body) ∧
      ∀ line ∈ trail, isBlankComment comment line = true ∧ line ∈ body := by
  obtain ⟨lead, trail, split, leadBlank, trailBlank, framedEqual⟩ := exists_frame comment body
  refine ⟨lead, trail, framedEqual replacement, ?_, ?_⟩
  · intro line member
    exact ⟨leadBlank line member, split ▸ List.mem_append_left _ member⟩
  · intro line member
    exact ⟨trailBlank line member, split ▸ List.mem_append_right _ (List.mem_append_right _ member)⟩

theorem keptLines_framed (body text : List Text) :
    keptLines comment sentinels (framed comment body (keptLines comment sentinels text))
      = keptLines comment sentinels text := by
  obtain ⟨lead, trail, split, leadBlank, trailBlank⟩ :=
    exists_framed_split comment body (keptLines comment sentinels text)
  have unchanged : (keptLines comment sentinels text).filter (fun line => !isScaffolding sentinels line)
      = keptLines comment sentinels text := by
    rw [List.filter_eq_self]
    intro line member
    simp [(of_mem_keptLines member).2]
  rw [split, keptLines, List.filter_append, List.filter_append, unchanged]
  -- Some of the blank lines around may be scaffolding; the others are trimmed off again.
  apply trimBlankLines_framed
  · intro line member
    exact (leadBlank line (List.mem_filter.mp member).1).1
  · intro line member
    exact (trailBlank line (List.mem_filter.mp member).1).1

theorem sectionLines_eq (comment : Text) (sentinels header : List Text) (part : Section) :
    sectionLines comment sentinels header part
      = ((sectionText? comment part header).map (keptLines comment sentinels)).getD [] := by
  cases text : sectionText? comment part header with
  | none => rw [sectionLines, Cutout.sectionBody?_eq_none text]; rfl
  | some body =>
    obtain ⟨cutout, holds, rfl, rfl⟩ := Cutout.exists_of_sectionText? text
    rw [sectionLines, holds.sectionBody?_eq]
    simp only [cutout.slice_span]
    rfl

theorem extract_lines (comment : Text) (sentinels header : List Text) (part : Section) :
    (extract comment sentinels header).lines part = sectionLines comment sentinels header part := by
  cases part <;> rfl

/-- A line of a narrative stands in the section that it was taken from. -/
theorem exists_of_mem_extract {sentinels header : List Text} {line : Text} {part : Section}
    (member : line ∈ (extract comment sentinels header).lines part) :
    ∃ cutout : Cutout, cutout.Holds comment part ∧ cutout.lines = header ∧ line ∈ cutout.body := by
  rw [extract_lines, sectionLines_eq] at member
  cases text : sectionText? comment part header with
  | none => rw [text] at member; cases member
  | some body =>
    obtain ⟨cutout, holds, linesEqual, rfl⟩ := Cutout.exists_of_sectionText? text
    rw [text, Option.map_some, Option.getD_some] at member
    exact ⟨cutout, holds, linesEqual, (of_mem_keptLines member).1⟩

/-- No line of a narrative ends a section. -/
def StaysInside (comment : Text) (narrative : Narrative) : Prop :=
  ∀ part, ∀ line ∈ narrative.lines part, endsSection comment line = false

theorem extract_staysInside (comment : Text) (sentinels header : List Text) :
    (extract comment sentinels header).StaysInside comment := by
  intro part line member
  obtain ⟨cutout, holds, -, inBody⟩ := exists_of_mem_extract member
  exact holds.inside line inBody

/-! ## Filling from below -/

/-- A header whose sections are filled, as yet without the day of creation. -/
def fillSections (comment : Text) (narrative : Narrative) (fresh : List Text) : List Text :=
  (narrative.places comment fresh).foldl (narrative.putSection comment) fresh

theorem mergeInto_eq (comment : Text) (narrative : Narrative) (fresh : List Text) :
    narrative.mergeInto comment fresh
      = match narrative.creationDate with
        | some date => putDate date (narrative.fillSections comment fresh)
        | none => narrative.fillSections comment fresh := rfl

theorem mergeInto_of_eq_some {narrative : Narrative} {date : Text} (given : narrative.creationDate = some date)
    (fresh : List Text) : narrative.mergeInto comment fresh = putDate date (narrative.fillSections comment fresh) := by
  rw [mergeInto_eq, given]

theorem mergeInto_of_eq_none {narrative : Narrative} (missing : narrative.creationDate = none) (fresh : List Text) :
    narrative.mergeInto comment fresh = narrative.fillSections comment fresh := by
  rw [mergeInto_eq, missing]

/-- Places that are where the header says, the lowest first. -/
structure Places (comment : Text) (header : List Text) (places : List (Span × Section)) : Prop where
  found : ∀ place ∈ places, sectionBody? comment header place.2 = some place.1
  falling : places.Pairwise fun place other => other.1.start < place.1.start

theorem mem_places {narrative : Narrative} {fresh : List Text} {place : Span × Section} :
    place ∈ narrative.places comment fresh ↔
      narrative.hasContent comment place.2 = true ∧ sectionBody? comment fresh place.2 = some place.1 := by
  obtain ⟨span, part⟩ := place
  have listed : part ∈ Section.all := by cases part <;> decide
  simp only [places, List.mem_mergeSort, List.mem_filterMap, List.mem_filter, Option.map_eq_some_iff,
    Prod.mk.injEq]
  constructor
  · rintro ⟨other, ⟨-, content⟩, found, placed, rfl, rfl⟩
    exact ⟨content, placed⟩
  · rintro ⟨content, placed⟩
    exact ⟨part, ⟨listed, content⟩, span, placed, rfl, rfl⟩

/-- Two sections do not begin at one line. -/
theorem part_eq_of_start_eq {header : List Text} {part other : Section} {span otherSpan : Span}
    (found : sectionBody? comment header part = some span)
    (otherFound : sectionBody? comment header other = some otherSpan) (same : span.start = otherSpan.start) :
    part = other := by
  obtain ⟨cutout, holds, linesEqual, rfl⟩ := Cutout.exists_of_sectionBody? found
  obtain ⟨upper, upperHolds, upperEqual, rfl⟩ := Cutout.exists_of_sectionBody? otherFound
  simp only [Cutout.span, Nat.add_right_cancel_iff] at same
  have labels : (cutout.label :: (cutout.body ++ cutout.after)) = upper.label :: (upper.body ++ upper.after) := by
    have split := linesEqual.trans upperEqual.symm
    exact (List.append_inj split same).2
  have named := holds.named
  rw [(List.cons.inj labels).1, upperHolds.named] at named
  exact (Option.some.inj named).symm

theorem places_hold (comment : Text) (narrative : Narrative) (fresh : List Text) :
    Places comment fresh (narrative.places comment fresh) := by
  have found : ∀ place ∈ narrative.places comment fresh,
      sectionBody? comment fresh place.2 = some place.1 := fun place member => (mem_places.mp member).2
  refine ⟨found, ?_⟩
  -- Sorting alone gives places that do not rise; that they fall needs that no two of them are equal.
  have sorted : (narrative.places comment fresh).Pairwise fun place other => other.1.start ≤ place.1.start := by
    have merged : (narrative.places comment fresh).Pairwise fun place other =>
        decide (other.1.start ≤ place.1.start) = true := by
      refine List.pairwise_mergeSort ?_ ?_ _
      · intro place other third first second
        simp only [decide_eq_true_eq] at first second ⊢
        omega
      · intro place other
        simp only [Bool.or_eq_true, decide_eq_true_eq]
        omega
    exact merged.imp fun ordered => by simpa using ordered
  have distinct : (narrative.places comment fresh).Pairwise fun place other => place.2 ≠ other.2 := by
    rw [places, (List.mergeSort_perm _ _).pairwise_iff Ne.symm, List.pairwise_filterMap]
    have listed : Section.all.Pairwise fun part other => part ≠ other := by decide
    refine (listed.filter _).imp ?_
    intro part other different place placed otherPlace otherPlaced
    obtain ⟨span, -, rfl⟩ := Option.map_eq_some_iff.mp placed
    obtain ⟨otherSpan, -, rfl⟩ := Option.map_eq_some_iff.mp otherPlaced
    exact different
  refine (sorted.and distinct).imp_of_mem ?_
  intro place other member otherMember ordered
  -- Places with one start would be places of one section.
  have apart : place.1.start ≠ other.1.start := fun same =>
    ordered.2 (part_eq_of_start_eq (found place member) (found other otherMember) same)
  omega

theorem putSection_eq (narrative : Narrative) (cutout : Cutout) (part : Section) :
    narrative.putSection comment cutout.lines (cutout.span, part)
      = (cutout.withBody (framed comment cutout.body (narrative.lines part))).lines := by
  rw [putSection, cutout.slice_span, cutout.replace_span]

theorem framed_inside {narrative : Narrative} (stays : narrative.StaysInside comment) {part : Section}
    {body : List Text} (inside : ∀ line ∈ body, endsSection comment line = false) :
    ∀ line ∈ framed comment body (narrative.lines part), endsSection comment line = false := by
  obtain ⟨lead, trail, split, leadBody, trailBody⟩ := exists_framed_split comment body (narrative.lines part)
  intro line member
  rw [split, List.mem_append, List.mem_append] at member
  rcases member with member | member | member
  · exact inside line (leadBody line member).2
  · exact stays part line member
  · exact inside line (trailBody line member).2

/-- The places above a section hold whatever stands below its label. -/
theorem Places.above {cutout : Cutout} {part : Section} {places : List (Span × Section)}
    (hold : Places comment cutout.lines ((cutout.span, part) :: places)) (holds : cutout.Holds comment part)
    (rest : List Text) : Places comment (cutout.before ++ cutout.label :: rest) places := by
  have falling := List.pairwise_cons.mp hold.falling
  refine ⟨?_, falling.2⟩
  intro place member
  exact holds.sectionBody?_above (hold.found place (List.mem_cons_of_mem _ member)) (falling.1 place member) rest

/-- Places are left one by one: behind the lowest section come those above it, whatever stands below its label. -/
@[elab_as_elim]
theorem Places.induction
    {motive : (header : List Text) → (places : List (Span × Section)) → Places comment header places → Prop}
    (nil : ∀ header hold, motive header [] hold)
    (cons : ∀ (cutout : Cutout) (part : Section) (places : List (Span × Section)) (holds : cutout.Holds comment part)
      (hold : Places comment cutout.lines ((cutout.span, part) :: places)),
      (∀ rest, motive (cutout.before ++ cutout.label :: rest) places (hold.above holds rest)) →
        motive cutout.lines ((cutout.span, part) :: places) hold)
    {header : List Text} {places : List (Span × Section)} (hold : Places comment header places) :
    motive header places hold := by
  induction places generalizing header with
  | nil => exact nil header hold
  | cons place places inductionHypothesis =>
    obtain ⟨span, part⟩ := place
    obtain ⟨cutout, holds, rfl, rfl⟩ := Cutout.exists_of_sectionBody? (hold.found _ List.mem_cons_self)
    exact cons cutout part places holds hold fun rest => inductionHypothesis (hold.above holds rest)

/-- One section with another text leaves the places above as they are. -/
theorem Places.putSection {narrative : Narrative} {cutout : Cutout} {part : Section}
    {places : List (Span × Section)} (hold : Places comment cutout.lines ((cutout.span, part) :: places))
    (holds : cutout.Holds comment part) :
    Places comment (narrative.putSection comment cutout.lines (cutout.span, part)) places := by
  rw [putSection_eq]
  exact hold.above holds _

/-- The places that are left lie above, so they are of other sections. -/
theorem Places.ne_of_mem {cutout : Cutout} {part : Section} {places : List (Span × Section)}
    (hold : Places comment cutout.lines ((cutout.span, part) :: places)) (holds : cutout.Holds comment part)
    {place : Span × Section} (member : place ∈ places) : place.2 ≠ part := by
  intro equal
  have lower := (List.pairwise_cons.mp hold.falling).1 place member
  have placed := hold.found place (List.mem_cons_of_mem _ member)
  rw [equal, holds.sectionBody?_eq] at placed
  rw [Option.some.inj placed] at lower
  exact Nat.lt_irrefl _ lower

theorem sectionText?_foldl {narrative : Narrative} (stays : narrative.StaysInside comment)
    {places : List (Span × Section)} {header : List Text} (hold : Places comment header places) (part : Section) :
    sectionText? comment part (places.foldl (narrative.putSection comment) header)
      = (sectionText? comment part header).map fun body =>
          if part ∈ places.map (·.2) then framed comment body (narrative.lines part) else body := by
  induction hold using Places.induction with
  | nil header hold => simp
  | cons cutout filled places holds hold inductionHypothesis =>
    -- The places that are left hold for the header with this section filled.
    rw [List.foldl_cons, putSection_eq, Cutout.lines_withBody, inductionHypothesis, ← Cutout.lines_withBody]
    have inside : ∀ line ∈ framed comment cutout.body (narrative.lines filled),
        endsSection comment line = false := framed_inside stays holds.inside
    by_cases same : part = filled
    · subst same
      have absent : part ∉ places.map (·.2) := by
        intro listed
        obtain ⟨other, member, equal⟩ := List.mem_map.mp listed
        exact hold.ne_of_mem holds member equal
      rw [(holds.withBody inside).sectionText?_eq, holds.sectionText?_eq]
      simp [absent, Cutout.withBody]
    · have listed : part ∈ ((cutout.span, filled) :: places).map (·.2) ↔ part ∈ places.map (·.2) := by
        rw [List.map_cons, List.mem_cons, or_iff_right same]
      rw [holds.sectionText?_withBody_other same inside]
      simp only [listed]

/-- Every section of a filled header: its own text or the narrative's, if that says anything. -/
theorem sectionText?_fillSections {narrative : Narrative} (stays : narrative.StaysInside comment)
    (fresh : List Text) (part : Section) :
    sectionText? comment part (narrative.fillSections comment fresh)
      = (sectionText? comment part fresh).map fun body =>
          if narrative.hasContent comment part then framed comment body (narrative.lines part) else body := by
  rw [fillSections, sectionText?_foldl stays (places_hold comment narrative fresh)]
  cases text : sectionText? comment part fresh with
  | none => rfl
  | some body =>
    obtain ⟨cutout, holds, rfl, rfl⟩ := Cutout.exists_of_sectionText? text
    have listed : part ∈ (narrative.places comment cutout.lines).map (·.2) ↔
        narrative.hasContent comment part = true := by
      rw [List.mem_map]
      constructor
      · rintro ⟨place, member, rfl⟩
        exact (mem_places.mp member).1
      · intro content
        exact ⟨(cutout.span, part), mem_places.mpr ⟨content, holds.sectionBody?_eq⟩, rfl⟩
    simp only [Option.map_some, listed]

/-- A section that the old and the fresh header both have keeps its lines. -/
theorem sectionLines_fillSections {old fresh : List Text} {part : Section}
    (content : (extract comment sentinels old).hasContent comment part = true)
    (labelled : (sectionText? comment part fresh).isSome = true) :
    sectionLines comment sentinels ((extract comment sentinels old).fillSections comment fresh) part
      = (extract comment sentinels old).lines part := by
  obtain ⟨body, text⟩ := Option.isSome_iff_exists.mp labelled
  rw [sectionLines_eq, sectionText?_fillSections (extract_staysInside comment sentinels old), text,
    Option.map_some, if_pos content, Option.map_some, Option.getD_some, extract_lines, sectionLines_eq]
  cases oldText : sectionText? comment part old with
  | some oldBody => exact keptLines_framed body oldBody
  | none =>
    -- A section without a text has no content.
    rw [hasContent, extract_lines, sectionLines_eq, oldText] at content
    cases content

end Narrative

end Masthead.Header
