import Masthead.Proofs.Header.Written

/-!
# Reading back what has been filled in

A header that holds a narrative is read, and what is read is put into the same fresh header again.
Sections that were told keep their text. A section that was left with its own text changes exactly
if scaffolding stands in it between lines that are kept. The day of creation is read back where it
was put; where none was put, the first field must end in the day that is read.
-/

namespace Masthead.Header

open Text

namespace Narrative

variable {comment : Text} {sentinels : List Text}

/-! ## Filling with more -/

/-- The text of a section when a narrative has been put into it. -/
def told (comment : Text) (narrative : Narrative) (part : Section) (body : List Text) : List Text :=
  if narrative.hasContent comment part then framed comment body (narrative.lines part) else body

/-- The places of a narrative that says less are among those of one that says more. -/
theorem places_eq_filter {narrative other : Narrative} {fresh : List Text}
    (wider : ∀ part, narrative.hasContent comment part = true → (sectionText? comment part fresh).isSome = true →
      other.hasContent comment part = true) :
    narrative.places comment fresh
      = (other.places comment fresh).filter fun place => narrative.hasContent comment place.2 := by
  have falling := (places_hold comment narrative fresh).falling
  have otherFalling := (places_hold comment other fresh).falling.filter fun place => narrative.hasContent comment place.2
  have distinct {places : List (Span × Section)} (falling : places.Pairwise fun place next => next.1.start < place.1.start) :
      places.Nodup := by
    refine falling.imp ?_
    rintro place _ lower rfl
    exact Nat.lt_irrefl _ lower
  -- Both lists fall and have the same members.
  refine List.Perm.eq_of_pairwise ?_ falling otherFalling
    ((List.perm_ext_iff_of_nodup (distinct falling) (distinct otherFalling)).mpr ?_)
  · intro place next _ _ lower higher
    exact absurd lower (Nat.lt_asymm higher)
  · intro place
    rw [List.mem_filter, mem_places, mem_places]
    constructor
    · rintro ⟨content, found⟩
      have labelled : (sectionText? comment place.2 fresh).isSome = true := by
        cases text : sectionText? comment place.2 fresh with
        | some body => rfl
        | none =>
          rw [Cutout.sectionBody?_eq_none text] at found
          cases found
      exact ⟨⟨wider place.2 content labelled, found⟩, content⟩
    · rintro ⟨⟨-, found⟩, content⟩
      exact ⟨content, found⟩

/-- A header with other texts at the places of its sections. -/
def refill (text : Section → List Text → List Text) (places : List (Span × Section)) (header : List Text) : List Text :=
  places.foldl (fun header place => place.1.replace (text place.2 (place.1.slice header)) header) header

theorem refill_cons (text : Section → List Text → List Text) (cutout : Cutout) (part : Section)
    (places : List (Span × Section)) :
    refill text ((cutout.span, part) :: places) cutout.lines
      = refill text places (cutout.withBody (text part cutout.body)).lines := by
  simp only [refill, List.foldl_cons, cutout.slice_span, cutout.replace_span]

theorem replace_slice {span : Span} (ordered : span.start ≤ span.stop) (lines : List Text) :
    span.replace (span.slice lines) lines = lines := by
  have initial : lines.take span.start = (lines.take span.stop).take span.start := by
    rw [List.take_take, Nat.min_eq_left ordered]
  rw [Span.replace, Span.slice, initial, List.take_append_drop, List.take_append_drop]

/-- Where a narrative has nothing to say, a section gets its own text. -/
theorem foldl_framed_eq_refill {narrative : Narrative} {places : List (Span × Section)}
    (ordered : ∀ place ∈ places, place.1.start ≤ place.1.stop) (header : List Text) :
    places.foldl (fun header place =>
        if narrative.hasContent comment place.2 then
          place.1.replace (framed comment (place.1.slice header) (narrative.lines place.2)) header
        else header) header
      = refill (narrative.told comment) places header := by
  induction places generalizing header with
  | nil => rfl
  | cons place places inductionHypothesis =>
    have first : (if narrative.hasContent comment place.2 then
          place.1.replace (framed comment (place.1.slice header) (narrative.lines place.2)) header
        else header)
          = place.1.replace (narrative.told comment place.2 (place.1.slice header)) header := by
      rw [told]
      split
      · rfl
      · exact (replace_slice (ordered place List.mem_cons_self) header).symm
    rw [List.foldl_cons, first, refill, List.foldl_cons]
    exact inductionHypothesis (fun other member => ordered other (List.mem_cons_of_mem _ member)) _

/-- A narrative can be put in at more places than it has something to say in. -/
theorem fillSections_eq_refill {narrative other : Narrative} {fresh : List Text}
    (wider : ∀ part, narrative.hasContent comment part = true → (sectionText? comment part fresh).isSome = true →
      other.hasContent comment part = true) :
    narrative.fillSections comment fresh = refill (narrative.told comment) (other.places comment fresh) fresh := by
  rw [fillSections, places_eq_filter wider, List.foldl_filter]
  refine foldl_framed_eq_refill ?_ fresh
  intro place member
  obtain ⟨label, -, spanEqual⟩ := Option.map_eq_some_iff.mp (mem_places.mp member).2
  rw [← spanEqual]
  exact Nat.le_add_right _ _

/-- Whether texts stay within their sections. -/
def KeepsInside (comment : Text) (text : Section → List Text → List Text) : Prop :=
  ∀ part body, (∀ line ∈ body, endsSection comment line = false) → ∀ line ∈ text part body, endsSection comment line = false

theorem told_keepsInside {narrative : Narrative} (stays : narrative.StaysInside comment) :
    KeepsInside comment (narrative.told comment) := by
  intro part body inside
  unfold told
  split
  · exact framed_inside stays inside
  · exact inside

theorem refill_congr {text other : Section → List Text → List Text} (inside : KeepsInside comment text)
    {places : List (Span × Section)} {header : List Text} (hold : Places comment header places)
    (same : ∀ place ∈ places, ∀ body, sectionText? comment place.2 header = some body →
      text place.2 body = other place.2 body) :
    refill text places header = refill other places header := by
  induction hold using Places.induction with
  | nil header hold => rfl
  | cons cutout part places holds hold inductionHypothesis =>
    rw [refill_cons, refill_cons, ← same _ List.mem_cons_self cutout.body holds.sectionText?_eq, Cutout.lines_withBody]
    refine inductionHypothesis _ ?_
    intro place member body found
    -- The sections above are as they were.
    rw [← Cutout.lines_withBody,
      holds.sectionText?_withBody_other (hold.ne_of_mem holds member) (inside part _ holds.inside)] at found
    exact same place (List.mem_cons_of_mem _ member) body found

/-- The text of a section, which is empty if nothing names the section. -/
def textOf (comment : Text) (header : List Text) (part : Section) : List Text :=
  (sectionText? comment part header).getD []

theorem Places.sectionText?_eq {header : List Text} {places : List (Span × Section)} (hold : Places comment header places)
    {place : Span × Section} (member : place ∈ places) :
    sectionText? comment place.2 header = some (textOf comment header place.2) := by
  obtain ⟨cutout, holds, rfl, -⟩ := Cutout.exists_of_sectionBody? (hold.found place member)
  rw [textOf, holds.sectionText?_eq]
  rfl

/-- A refilled header is longer by as much as its sections are. -/
theorem length_refill {text : Section → List Text → List Text} (inside : KeepsInside comment text)
    {places : List (Span × Section)} {header : List Text} (hold : Places comment header places) :
    (refill text places header).length + (places.flatMap fun place => textOf comment header place.2).length
      = header.length + (places.flatMap fun place => text place.2 (textOf comment header place.2)).length := by
  induction hold using Places.induction with
  | nil header hold => rfl
  | cons cutout part places holds hold inductionHypothesis =>
    have later := inductionHypothesis (text part cutout.body ++ cutout.after)
    rw [← Cutout.lines_withBody] at later
    have own : textOf comment cutout.lines part = cutout.body := by rw [textOf, holds.sectionText?_eq]; rfl
    -- Filling one section leaves the texts of the others, whose places lie above it.
    have others : ∀ place ∈ places, textOf comment (cutout.withBody (text part cutout.body)).lines place.2
        = textOf comment cutout.lines place.2 := by
      intro place member
      rw [textOf, textOf, holds.sectionText?_withBody_other (hold.ne_of_mem holds member) (inside part _ holds.inside)]
    have size : (cutout.withBody (text part cutout.body)).lines.length + cutout.body.length
        = cutout.lines.length + (text part cutout.body).length := by
      simp only [Cutout.lines, Cutout.withBody, List.length_append, List.length_cons]
      omega
    rw [List.flatMap_def, List.flatMap_def, List.map_congr_left others,
      List.map_congr_left fun place member => congrArg (text place.2) (others place member), ← List.flatMap_def,
      ← List.flatMap_def] at later
    simp only [refill_cons, List.flatMap_cons, List.length_append, own]
    omega

theorem length_flatMap_eq {Item : Type} {text other : Item → List Text} {items : List Item}
    (shorter : ∀ item ∈ items, (text item).length ≤ (other item).length) :
    (items.flatMap text).length ≤ (items.flatMap other).length ∧
      ((items.flatMap text).length = (items.flatMap other).length →
        ∀ item ∈ items, (text item).length = (other item).length) := by
  induction items with
  | nil => exact ⟨Nat.le_refl _, nofun⟩
  | cons first items inductionHypothesis =>
    obtain ⟨less, equal⟩ := inductionHypothesis fun item member => shorter item (List.mem_cons_of_mem _ member)
    have firstShorter := shorter first List.mem_cons_self
    simp only [List.flatMap_cons, List.length_append]
    refine ⟨by omega, ?_⟩
    intro same item member
    rcases List.mem_cons.mp member with rfl | member
    · omega
    · exact equal (by omega) item member

/-- Of two narratives one of which never tells more, both give headers of one length only where both
tell as much. -/
theorem length_told_eq {narrative other : Narrative} {fresh : List Text} (stays : narrative.StaysInside comment)
    (otherStays : other.StaysInside comment)
    (wider : ∀ part, narrative.hasContent comment part = true → (sectionText? comment part fresh).isSome = true →
      other.hasContent comment part = true)
    (shorter : ∀ part body, sectionText? comment part fresh = some body →
      (other.told comment part body).length ≤ (narrative.told comment part body).length)
    (same : (other.fillSections comment fresh).length = (narrative.fillSections comment fresh).length) {part : Section}
    {body : List Text} (content : other.hasContent comment part = true)
    (labelled : sectionText? comment part fresh = some body) :
    (other.told comment part body).length = (narrative.told comment part body).length := by
  have hold := places_hold comment other fresh
  -- Both fill the places of the narrative that says more, one of them with less nowhere.
  have lengths := length_refill (told_keepsInside stays) hold
  have otherLengths := length_refill (told_keepsInside otherStays) hold
  rw [← fillSections_eq_refill wider] at lengths
  rw [← fillSections_eq_refill fun _ content _ => content] at otherLengths
  have equal := (length_flatMap_eq fun place member => shorter place.2 _ (hold.sectionText?_eq member)).2 (by omega)
  obtain ⟨cutout, holds, rfl, rfl⟩ := Cutout.exists_of_sectionText? labelled
  have member : (cutout.span, part) ∈ other.places comment cutout.lines :=
    mem_places.mpr ⟨content, holds.sectionBody?_eq⟩
  have own := equal _ member
  rwa [textOf, labelled] at own

/-! ## Settled sections -/

/-- What stays of a section's own text when it is read: all of it, if what is read says anything. -/
def Settled (comment : Text) (sentinels body : List Text) : Prop :=
  ((keptLines comment sentinels body).any fun line => !isBlankComment comment line && !isBareBullet comment line) = true →
    ∀ line ∈ trimBlankLines comment body, isScaffolding sentinels line = false

instance (comment : Text) (sentinels body : List Text) : Decidable (Settled comment sentinels body) :=
  inferInstanceAs (Decidable (_ = true → ∀ line ∈ trimBlankLines comment body, isScaffolding sentinels line = false))

theorem trimBlankLines_sublist (comment : Text) (lines : List Text) : (trimBlankLines comment lines).Sublist lines := by
  obtain ⟨lead, trail, split, -, -⟩ := exists_trimBlankLines_split comment lines
  conv => rhs; rw [split]
  exact (List.sublist_append_left _ _).trans (List.sublist_append_right _ _)

theorem trimBlankLines_trimBlankLines (comment : Text) (lines : List Text) :
    trimBlankLines comment (trimBlankLines comment lines) = trimBlankLines comment lines := by
  have again : trimBlankLines comment ([] ++ (trimBlankLines comment lines ++ [])) = trimBlankLines comment lines :=
    trimBlankLines_framed lines nofun nofun
  rwa [List.nil_append, List.append_nil] at again

/-- What is kept of a text is kept of what lies between its blank ends. -/
theorem keptLines_eq (comment : Text) (sentinels body : List Text) :
    keptLines comment sentinels body
      = trimBlankLines comment ((trimBlankLines comment body).filter fun line => !isScaffolding sentinels line) := by
  obtain ⟨lead, trail, split, leadBlank, trailBlank⟩ := exists_trimBlankLines_split comment body
  rw [keptLines]
  conv => lhs; rw [split]
  rw [List.filter_append, List.filter_append,
    trimBlankLines_append_of_blank _ fun line member => leadBlank line (List.mem_filter.mp member).1,
    trimBlankLines_append_blank _ fun line member => trailBlank line (List.mem_filter.mp member).1]

theorem keptLines_sublist (comment : Text) (sentinels body : List Text) :
    (keptLines comment sentinels body).Sublist (trimBlankLines comment body) := by
  rw [keptLines_eq]
  exact (trimBlankLines_sublist _ _).trans List.filter_sublist

theorem length_framed_keptLines (comment : Text) (sentinels body : List Text) :
    (framed comment body (keptLines comment sentinels body)).length ≤ body.length ∧
      ((framed comment body (keptLines comment sentinels body)).length = body.length →
        framed comment body (keptLines comment sentinels body) = body) := by
  obtain ⟨lead, trail, split, -, -, framedEqual⟩ := exists_frame comment body
  have shorter := (keptLines_sublist comment sentinels body).length_le
  have size := congrArg List.length split
  simp only [List.length_append] at size
  rw [framedEqual]
  simp only [List.length_append]
  refine ⟨by omega, ?_⟩
  intro same
  rw [(keptLines_sublist comment sentinels body).eq_of_length (by omega), ← split]

theorem framed_keptLines_eq_iff {body : List Text} :
    framed comment body (keptLines comment sentinels body) = body ↔
      ∀ line ∈ trimBlankLines comment body, isScaffolding sentinels line = false := by
  obtain ⟨lead, trail, split, -, -, framedEqual⟩ := exists_frame comment body
  -- The blanks at both ends are framed again, so only what stands between them counts.
  have sameMiddle : framed comment body (keptLines comment sentinels body) = body ↔
      keptLines comment sentinels body = trimBlankLines comment body := by
    rw [framedEqual]
    conv => lhs; rhs; rw [split]
    rw [List.append_cancel_left_eq, List.append_cancel_right_eq]
  rw [sameMiddle]
  constructor
  · intro same line member
    exact (of_mem_keptLines (same ▸ member)).2
  · intro unmarked
    have whole : (trimBlankLines comment body).filter (fun line => !isScaffolding sentinels line)
        = trimBlankLines comment body := by
      rw [List.filter_eq_self]
      intro line member
      simp [unmarked line member]
    rw [keptLines_eq, whole, trimBlankLines_trimBlankLines]

/-- A section's own text when it has been read and what is kept of it put back, if that says anything. -/
def reread (comment : Text) (sentinels body : List Text) : List Text :=
  if (keptLines comment sentinels body).any fun line => !isBlankComment comment line && !isBareBullet comment line then
    framed comment body (keptLines comment sentinels body)
  else body

theorem reread_eq_self_iff {body : List Text} :
    reread comment sentinels body = body ↔ Settled comment sentinels body := by
  rw [reread, Settled]
  split
  · next seen => simp [framed_keptLines_eq_iff, seen]
  · next silent => simp [silent]

theorem length_reread (comment : Text) (sentinels body : List Text) :
    (reread comment sentinels body).length ≤ body.length ∧
      ((reread comment sentinels body).length = body.length → reread comment sentinels body = body) := by
  rw [reread]
  split
  · exact length_framed_keptLines comment sentinels body
  · exact ⟨Nat.le_refl _, fun _ => rfl⟩

/-! ## A settled day -/

/-- Whether the first field of a header ends in the day that is read from the header. -/
def DaySettled (sentinels header : List Text) : Prop :=
  ∀ date ∈ creationDateOf? sentinels header, ∀ line ∈ header.find? fun line => (creationField.cut? line).isSome,
    ∀ found ∈ creationField.cut? line, found.head ++ date = line

theorem putDate_eq_self_iff {date : Text} {lines : List Text} :
    putDate date lines = lines ↔ ∀ line ∈ lines.find? fun line => (creationField.cut? line).isSome,
      ∀ found ∈ creationField.cut? line, found.head ++ date = line := by
  rcases putDate_cases date lines with ⟨same, uncut⟩ | ⟨above, line, found, below, rfl, uncut, cut, placed⟩
  · have nothing : lines.find? (fun line => (creationField.cut? line).isSome) = none := by
      rw [List.find?_eq_none]
      intro line member
      simp [uncut line member]
    simp [same, nothing]
  · have first : (above ++ line :: below).find? (fun line => (creationField.cut? line).isSome) = some line := by
      rw [List.find?_eq_some_iff_append]
      refine ⟨by simp [cut], above, below, rfl, ?_⟩
      intro other member
      simp [uncut other member]
    rw [placed, first]
    simp [cut]

/-- The day that is put into a header is the one that is read from it. -/
theorem creationDateOf?_putDate {header lines : List Text} {date : Text}
    (given : creationDateOf? sentinels header = some date)
    (dated : ∃ line ∈ lines, (creationField.cut? line).isSome = true) :
    creationDateOf? sentinels (putDate date lines) = some date := by
  obtain ⟨_, -, read, readCut, rfl, unmarked⟩ := exists_of_creationDateOf? given
  obtain ⟨-, -, isValue, -⟩ := FieldShape.of_cutAfter? readCut
  rcases putDate_cases read.value lines with ⟨-, uncut⟩ | ⟨above, line, found, below, rfl, uncut, cut, placed⟩
  · obtain ⟨line, member, isCut⟩ := dated
    rw [uncut line member] at isCut
    cases isCut
  · have again : creationField.cut? (found.head ++ read.value) = some ⟨found.head, read.value⟩ :=
      FieldShape.cutAfter?_head_append creationLabel_colonless isValue (isValue.present rfl) cut
    have passed : above.filterMap creationField.cut? = [] := by
      rw [List.filterMap_eq_nil_iff]
      exact uncut
    rw [placed, creationDateOf?, List.filterMap_append, passed, List.nil_append, List.filterMap_cons_some again,
      List.map_cons, List.find?_cons_of_pos (by simp [unmarked])]

/-! ## Reading back -/

section

variable {header fresh : List Text}

/-- What a narrative has told of a section is kept from it. -/
theorem keptLines_told {part : Section} (body : List Text)
    (content : (extract comment sentinels header).hasContent comment part = true) :
    keptLines comment sentinels ((extract comment sentinels header).told comment part body)
      = (extract comment sentinels header).lines part := by
  have content' := content
  rw [told, if_pos content, extract_lines, sectionLines_eq]
  rw [hasContent, extract_lines, sectionLines_eq] at content'
  cases text : sectionText? comment part header with
  | none => rw [text] at content'; cases content'
  | some own => exact keptLines_framed body own

variable (dated : (extract comment sentinels header).creationDate ≠ none → Undated comment ∧ DatedAbove comment fresh)

include dated

theorem sectionText?_mergeInto_told (part : Section) :
    sectionText? comment part ((extract comment sentinels header).mergeInto comment fresh)
      = (sectionText? comment part fresh).map ((extract comment sentinels header).told comment part) := by
  have filled := sectionText?_fillSections (extract_staysInside comment sentinels header) fresh part
  cases given : (extract comment sentinels header).creationDate with
  | none =>
    rw [mergeInto_of_eq_none given, filled]
    rfl
  | some date =>
    obtain ⟨undated, above⟩ := dated (by simp [given])
    rw [sectionText?_mergeInto undated above, filled]
    rfl

theorem lines_extract_mergeInto {part : Section} {body : List Text} (labelled : sectionText? comment part fresh = some body) :
    (extract comment sentinels ((extract comment sentinels header).mergeInto comment fresh)).lines part
      = keptLines comment sentinels ((extract comment sentinels header).told comment part body) := by
  rw [extract_lines, sectionLines_eq, sectionText?_mergeInto_told dated, labelled]
  rfl

/-- The narrative that is read back has something to say wherever the old one has. -/
theorem hasContent_extract_mergeInto (part : Section)
    (content : (extract comment sentinels header).hasContent comment part = true)
    (labelled : (sectionText? comment part fresh).isSome = true) :
    (extract comment sentinels ((extract comment sentinels header).mergeInto comment fresh)).hasContent comment part
      = true := by
  obtain ⟨body, text⟩ := Option.isSome_iff_exists.mp labelled
  rw [hasContent, lines_extract_mergeInto dated text, keptLines_told body content]
  exact content

/-- A section that was told is told the same again; one that was left with its own text is read. -/
theorem told_extract_mergeInto {part : Section} {body : List Text} (labelled : sectionText? comment part fresh = some body) :
    (extract comment sentinels ((extract comment sentinels header).mergeInto comment fresh)).told comment part body
      = if (extract comment sentinels header).hasContent comment part then
          (extract comment sentinels header).told comment part body
        else reread comment sentinels body := by
  have read := lines_extract_mergeInto dated labelled
  split
  · next content =>
    have again := hasContent_extract_mergeInto dated part content (by rw [labelled]; rfl)
    rw [told, if_pos again, read, keptLines_told body content, told, if_pos content]
  · next silent =>
    have own : (extract comment sentinels header).told comment part body = body := if_neg silent
    rw [own] at read
    rw [told, hasContent, read, reread]

theorem length_told_extract_mergeInto_le : ∀ part body, sectionText? comment part fresh = some body →
    ((extract comment sentinels ((extract comment sentinels header).mergeInto comment fresh)).told comment part body).length
      ≤ ((extract comment sentinels header).told comment part body).length := by
  intro part body labelled
  rw [told_extract_mergeInto dated labelled]
  split
  · exact Nat.le_refl _
  · next silent =>
    rw [show (extract comment sentinels header).told comment part body = body from if_neg silent]
    exact (length_reread comment sentinels body).1

theorem fillSections_extract_mergeInto_eq (settled : ∀ part, (extract comment sentinels header).hasContent comment part = false →
      ∀ body ∈ sectionText? comment part fresh, Settled comment sentinels body) :
    (extract comment sentinels ((extract comment sentinels header).mergeInto comment fresh)).fillSections comment fresh
      = (extract comment sentinels header).fillSections comment fresh := by
  rw [fillSections_eq_refill (hasContent_extract_mergeInto dated), fillSections_eq_refill fun _ content _ => content]
  refine refill_congr (told_keepsInside (extract_staysInside _ _ _)) (places_hold _ _ _) ?_
  intro place _ body labelled
  rw [told_extract_mergeInto dated labelled]
  split
  · rfl
  · next silent =>
    rw [reread_eq_self_iff.mpr (settled place.2 (by simpa using silent) body labelled)]
    exact (if_neg silent).symm

/-- A section that is not settled would lose lines, and no section gains any. -/
theorem settled_of_length_fillSections
    (same : ((extract comment sentinels ((extract comment sentinels header).mergeInto comment fresh)).fillSections
        comment fresh).length = ((extract comment sentinels header).fillSections comment fresh).length) :
    ∀ part, (extract comment sentinels header).hasContent comment part = false →
      ∀ body ∈ sectionText? comment part fresh, Settled comment sentinels body := by
  intro part silent body labelled
  have own : (extract comment sentinels header).told comment part body = body := if_neg (by simp [silent])
  have again := told_extract_mergeInto dated labelled
  rw [if_neg (by simp [silent])] at again
  rw [← reread_eq_self_iff, ← again]
  cases content : (extract comment sentinels ((extract comment sentinels header).mergeInto comment fresh)).hasContent
      comment part with
  | false => exact if_neg (by simp [content])
  | true =>
    have equal := length_told_eq (extract_staysInside _ _ _) (extract_staysInside _ _ _)
      (hasContent_extract_mergeInto dated) (length_told_extract_mergeInto_le dated) same content labelled
    rw [again, own] at equal
    rw [again]
    exact (length_reread comment sentinels body).2 equal

/-- A header into which its own narrative is put again stays the same exactly if the sections that
were left with their own text and the day that was left in its field are settled. -/
theorem mergeInto_extract_eq_iff :
    let old := extract comment sentinels header
    let written := old.mergeInto comment fresh
    (extract comment sentinels written).mergeInto comment fresh = written ↔
      (∀ part, old.hasContent comment part = false →
        ∀ body ∈ sectionText? comment part fresh, Settled comment sentinels body) ∧
      (old.creationDate = none → DaySettled sentinels written) := by
  intro old written
  constructor
  · intro same
    have settled : ∀ part, old.hasContent comment part = false →
        ∀ body ∈ sectionText? comment part fresh, Settled comment sentinels body := by
      apply settled_of_length_fillSections dated
      rw [← length_mergeInto, ← length_mergeInto]
      exact congrArg List.length same
    refine ⟨settled, ?_⟩
    intro missing date read
    have writtenEqual : written = old.fillSections comment fresh := mergeInto_of_eq_none missing fresh
    rw [mergeInto_of_eq_some read, fillSections_extract_mergeInto_eq dated settled] at same
    exact putDate_eq_self_iff.mp (writtenEqual ▸ same)
  · rintro ⟨settled, day⟩
    have filled := fillSections_extract_mergeInto_eq dated settled
    cases given : old.creationDate with
    | none =>
      have writtenEqual : written = old.fillSections comment fresh := mergeInto_of_eq_none given fresh
      cases read : (extract comment sentinels written).creationDate with
      | none => rw [mergeInto_of_eq_none read, filled, writtenEqual]
      | some date =>
        rw [mergeInto_of_eq_some read, filled, ← writtenEqual]
        exact putDate_eq_self_iff.mpr (day given date read)
    | some date =>
      have writtenEqual : written = putDate date (old.fillSections comment fresh) := mergeInto_of_eq_some given fresh
      -- The field that takes the day stands above all sections, so it is still there.
      have datedFilled : ∃ line ∈ old.fillSections comment fresh, (creationField.cut? line).isSome = true := by
        obtain ⟨-, line, member, cut⟩ := dated (by simp [old, given])
        rw [← preamble_fillSections old fresh] at member
        exact ⟨line, (List.takeWhile_sublist _).subset member, cut⟩
      have read : (extract comment sentinels written).creationDate = some date := by
        show creationDateOf? sentinels written = some date
        rw [writtenEqual]
        exact creationDateOf?_putDate given datedFilled
      rw [mergeInto_of_eq_some read, filled, writtenEqual]

end

/-- Where there was no header, nothing is put into the fresh one. -/
theorem mergeInto_extract_nil (comment : Text) (sentinels fresh : List Text) :
    (extract comment sentinels []).mergeInto comment fresh = fresh := by
  have silent : ∀ part, (extract comment sentinels []).hasContent comment part = false := by
    intro part
    cases part <;> rfl
  have nowhere : (extract comment sentinels []).places comment fresh = [] := by
    rw [List.eq_nil_iff_forall_not_mem]
    intro place member
    have content := (mem_places.mp member).1
    rw [silent] at content
    cases content
  rw [mergeInto_of_eq_none rfl, fillSections, nowhere, List.foldl_nil]

end Narrative

end Masthead.Header
