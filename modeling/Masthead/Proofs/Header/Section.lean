import Masthead.Header.Section

/-!
# The text of a section

A section is read and written by positions. Here it is read by recursion over the lines, and cut out
of them as the part between its label and the next end. Both views agree, so that another text can
be put in place of a section's own, and nothing but that section changes.
-/

namespace Masthead.Header

/-- The lines below the first one that names a section, up to the next end of a section. -/
def sectionText? (comment : Text) (part : Section) : List Text → Option (List Text)
  | [] => none
  | line :: rest =>
    if sectionLabel? comment line = some part then some (rest.takeWhile fun line => !endsSection comment line)
    else sectionText? comment part rest

section

variable {comment : Text} {part other : Section}

theorem endsSection_of_sectionLabel? {line : Text} (named : sectionLabel? comment line = some part) :
    endsSection comment line = true := by
  simp [endsSection, named]

theorem endsSection_of_isSeparator {line : Text} (rule : isSeparator comment line = true) :
    endsSection comment line = true := by
  simp [endsSection, rule]

theorem endsSection_eq_false_iff {line : Text} :
    endsSection comment line = false ↔ sectionLabel? comment line = none ∧ isSeparator comment line = false := by
  simp [endsSection]

theorem sectionText?_cons_of_ne {line : Text} (rest : List Text) (unnamed : sectionLabel? comment line ≠ some part) :
    sectionText? comment part (line :: rest) = sectionText? comment part rest := by
  rw [sectionText?, if_neg unnamed]

theorem sectionText?_append {above : List Text} (rest : List Text)
    (unnamed : ∀ line ∈ above, sectionLabel? comment line ≠ some part) :
    sectionText? comment part (above ++ rest) = sectionText? comment part rest := by
  induction above with
  | nil => rfl
  | cons line above inductionHypothesis =>
    rw [List.cons_append, sectionText?_cons_of_ne _ (unnamed line List.mem_cons_self)]
    exact inductionHypothesis fun other member => unnamed other (List.mem_cons_of_mem _ member)

theorem sectionText?_eq_none {lines : List Text} (missing : sectionText? comment part lines = none) :
    ∀ line ∈ lines, sectionLabel? comment line ≠ some part := by
  induction lines with
  | nil => intro line member; cases member
  | cons first rest inductionHypothesis =>
    rw [sectionText?] at missing
    split at missing
    · cases missing
    · next unnamed =>
      intro line member
      rcases List.mem_cons.mp member with rfl | member
      · exact unnamed
      · exact inductionHypothesis missing line member

/-- A line that is not taken hides what is behind it. -/
theorem takeWhile_append_stop {taken : Text → Bool} {line : Text} (above below : List Text)
    (stop : taken line = false) : (above ++ line :: below).takeWhile taken = above.takeWhile taken := by
  induction above with
  | nil => simp [stop]
  | cons first above inductionHypothesis =>
    simp only [List.cons_append, List.takeWhile_cons, inductionHypothesis]

theorem takeWhile_append_end {line : Text} (above below : List Text) (ended : endsSection comment line = true) :
    (above ++ line :: below).takeWhile (fun line => !endsSection comment line)
      = above.takeWhile fun line => !endsSection comment line := by
  apply takeWhile_append_stop
  simp [ended]

/-- A line that ends a section parts the lines into two that are searched one after the other. -/
theorem sectionText?_append_end {line : Text} (above below : List Text) (ended : endsSection comment line = true) :
    sectionText? comment part (above ++ line :: below)
      = (sectionText? comment part above).or (sectionText? comment part (line :: below)) := by
  induction above with
  | nil => rfl
  | cons first above inductionHypothesis =>
    rw [List.cons_append, sectionText?, sectionText?]
    split
    · rw [takeWhile_append_end _ _ ended]
      rfl
    · exact inductionHypothesis

/-! ## Cutting a section out -/

/-- Lines that are cut around the text of a section. -/
structure Cutout where
  before : List Text
  label : Text
  body : List Text
  after : List Text

namespace Cutout

def lines (cutout : Cutout) : List Text :=
  cutout.before ++ cutout.label :: (cutout.body ++ cutout.after)

/-- The positions of the text. -/
def span (cutout : Cutout) : Span :=
  ⟨cutout.before.length + 1, cutout.before.length + 1 + cutout.body.length⟩

/-- The lines with another text. -/
def withBody (cutout : Cutout) (body : List Text) : Cutout :=
  { cutout with body := body }

theorem lines_withBody (cutout : Cutout) (body : List Text) :
    (cutout.withBody body).lines = cutout.before ++ cutout.label :: (body ++ cutout.after) := rfl

/-- The cutout with more lines at its end. -/
def extend (cutout : Cutout) (below : List Text) : Cutout :=
  { cutout with after := cutout.after ++ below }

theorem lines_extend (cutout : Cutout) (below : List Text) : (cutout.extend below).lines = cutout.lines ++ below := by
  simp [lines, extend]

/-- What makes the parts of a cutout the section of a name. -/
structure Holds (comment : Text) (part : Section) (cutout : Cutout) : Prop where
  first : ∀ line ∈ cutout.before, sectionLabel? comment line ≠ some part
  named : sectionLabel? comment cutout.label = some part
  inside : ∀ line ∈ cutout.body, endsSection comment line = false
  ended : ∀ line, cutout.after.head? = some line → endsSection comment line = true

variable {cutout : Cutout}

theorem Holds.withBody (holds : cutout.Holds comment part) {body : List Text}
    (inside : ∀ line ∈ body, endsSection comment line = false) :
    (cutout.withBody body).Holds comment part :=
  ⟨holds.first, holds.named, inside, holds.ended⟩

theorem Holds.takeWhile_eq (holds : cutout.Holds comment part) :
    (cutout.body ++ cutout.after).takeWhile (fun line => !endsSection comment line) = cutout.body := by
  have inside : ∀ line ∈ cutout.body, (!endsSection comment line) = true := by
    intro line member
    simp [holds.inside line member]
  rw [List.takeWhile_append_of_pos inside]
  cases after : cutout.after with
  | nil => rw [List.takeWhile_nil, List.append_nil]
  | cons line rest =>
    have ended := holds.ended line (by rw [after]; rfl)
    rw [List.takeWhile_cons, if_neg (by simp [ended]), List.append_nil]

theorem Holds.sectionText?_eq (holds : cutout.Holds comment part) :
    sectionText? comment part cutout.lines = some cutout.body := by
  rw [lines, sectionText?_append _ holds.first, sectionText?, if_pos holds.named, holds.takeWhile_eq]

theorem exists_of_sectionText? {lines text : List Text} (found : sectionText? comment part lines = some text) :
    ∃ cutout : Cutout, cutout.Holds comment part ∧ cutout.lines = lines ∧ cutout.body = text := by
  induction lines with
  | nil => cases found
  | cons line rest inductionHypothesis =>
    rw [sectionText?] at found
    split at found
    · next named =>
      cases found
      -- The first line is the label; its section ends where taking lines stopped.
      refine ⟨⟨[], line, _, rest.dropWhile fun line => !endsSection comment line⟩, ⟨?_, named, ?_, ?_⟩, ?_, rfl⟩
      · intro other member
        cases member
      · intro other member
        have all := List.all_eq_true.mp (List.all_takeWhile (l := rest)) other member
        simpa using all
      · intro other head
        have stopped := List.head?_dropWhile_not (fun line => !endsSection comment line) rest
        rw [head] at stopped
        simpa using stopped
      · rw [Cutout.lines, List.takeWhile_append_dropWhile, List.nil_append]
    · next unnamed =>
      obtain ⟨cutout, holds, linesEqual, bodyEqual⟩ := inductionHypothesis found
      refine ⟨⟨line :: cutout.before, cutout.label, cutout.body, cutout.after⟩,
        ⟨?_, holds.named, holds.inside, holds.ended⟩, ?_, bodyEqual⟩
      · intro other member
        rcases List.mem_cons.mp member with rfl | member
        · exact unnamed
        · exact holds.first other member
      · rw [← linesEqual]
        rfl

/-- What another section says does not depend on the text of this one. -/
theorem Holds.sectionText?_split (holds : cutout.Holds comment part) (different : other ≠ part) :
    sectionText? comment other cutout.lines
      = (sectionText? comment other cutout.before).or (sectionText? comment other cutout.after) := by
  have unnamed : sectionLabel? comment cutout.label ≠ some other := by
    rw [holds.named]
    exact fun equal => different (Option.some.inj equal).symm
  -- A line with a label would have ended this section.
  have bodyUnnamed : ∀ line ∈ cutout.body, sectionLabel? comment line ≠ some other := by
    intro line member labelled
    have ended := endsSection_of_sectionLabel? labelled
    rw [holds.inside line member] at ended
    cases ended
  rw [lines, sectionText?_append_end _ _ (endsSection_of_sectionLabel? holds.named),
    sectionText?_cons_of_ne _ unnamed, sectionText?_append _ bodyUnnamed]

theorem Holds.sectionText?_withBody_other (holds : cutout.Holds comment part) (different : other ≠ part)
    {body : List Text} (inside : ∀ line ∈ body, endsSection comment line = false) :
    sectionText? comment other (cutout.withBody body).lines = sectionText? comment other cutout.lines := by
  rw [holds.sectionText?_split different, (holds.withBody inside).sectionText?_split different]
  rfl

/-! ## Positions -/

theorem findLabel?_append {before : List Text} {label : Text} (rest : List Text)
    (first : ∀ line ∈ before, sectionLabel? comment line ≠ some part)
    (named : sectionLabel? comment label = some part) :
    findLabel? comment (before ++ label :: rest) part = some before.length := by
  have absent : before.findIdx? (fun line => sectionLabel? comment line == some part) = none := by
    rw [List.findIdx?_eq_none_iff]
    intro line member
    simpa using first line member
  rw [findLabel?, List.findIdx?_append, absent, List.findIdx?_cons]
  simp [named]

theorem drop_below_label (before : List Text) (label : Text) (rest : List Text) :
    (before ++ label :: rest).drop (before.length + 1) = rest := by
  rw [← List.drop_drop, List.drop_left, List.drop_succ_cons, List.drop_zero]

theorem sectionBody?_append {before : List Text} {label : Text} (rest : List Text)
    (first : ∀ line ∈ before, sectionLabel? comment line ≠ some part)
    (named : sectionLabel? comment label = some part) :
    sectionBody? comment (before ++ label :: rest) part
      = some ⟨before.length + 1,
          before.length + 1 + (rest.takeWhile fun line => !endsSection comment line).length⟩ := by
  rw [sectionBody?, findLabel?_append rest first named, Option.map_some, drop_below_label]

theorem Holds.sectionBody?_eq (holds : cutout.Holds comment part) :
    sectionBody? comment cutout.lines part = some cutout.span := by
  rw [lines, sectionBody?_append _ holds.first holds.named, holds.takeWhile_eq]
  rfl

theorem sectionBody?_eq_none {lines : List Text} (missing : sectionText? comment part lines = none) :
    sectionBody? comment lines part = none := by
  have absent : findLabel? comment lines part = none := by
    rw [findLabel?, List.findIdx?_eq_none_iff]
    intro line member
    simpa using sectionText?_eq_none missing line member
  rw [sectionBody?, absent, Option.map_none]

theorem exists_of_sectionBody? {lines : List Text} {span : Span}
    (found : sectionBody? comment lines part = some span) :
    ∃ cutout : Cutout, cutout.Holds comment part ∧ cutout.lines = lines ∧ cutout.span = span := by
  cases text : sectionText? comment part lines with
  | none =>
    rw [sectionBody?_eq_none text] at found
    cases found
  | some body =>
    obtain ⟨cutout, holds, linesEqual, -⟩ := exists_of_sectionText? text
    refine ⟨cutout, holds, linesEqual, ?_⟩
    rw [← linesEqual, holds.sectionBody?_eq] at found
    exact Option.some.inj found

theorem slice_span (cutout : Cutout) : cutout.span.slice cutout.lines = cutout.body := by
  obtain ⟨before, label, body, after⟩ := cutout
  have size : before.length + 1 + body.length = (before ++ label :: body).length := by
    rw [List.length_append, List.length_cons]
    omega
  have split : before ++ label :: (body ++ after) = (before ++ label :: body) ++ after := by
    rw [List.append_assoc, List.cons_append]
  simp only [Span.slice, span, lines]
  rw [size, split, List.take_left, ← List.drop_drop, List.drop_left, List.drop_succ_cons, List.drop_zero]

theorem take_start_span (cutout : Cutout) : cutout.lines.take cutout.span.start = cutout.before ++ [cutout.label] := by
  simp only [span, lines]
  rw [List.take_length_add_append, List.take_succ_cons, List.take_zero]

theorem drop_stop_span (cutout : Cutout) : cutout.lines.drop cutout.span.stop = cutout.after := by
  simp only [span, lines]
  rw [← List.drop_drop, ← List.drop_drop, List.drop_left, List.drop_succ_cons, List.drop_zero, List.drop_left]

theorem replace_span (cutout : Cutout) (body : List Text) :
    cutout.span.replace body cutout.lines = (cutout.withBody body).lines := by
  rw [Span.replace, take_start_span, drop_stop_span]
  simp only [lines, withBody]
  rw [List.append_assoc, List.append_assoc, List.singleton_append]

/-- A section above keeps its positions whatever stands below the label of this one. -/
theorem Holds.sectionBody?_above (holds : cutout.Holds comment part) {span : Span}
    (found : sectionBody? comment cutout.lines other = some span) (above : span.start < cutout.span.start)
    (rest : List Text) : sectionBody? comment (cutout.before ++ cutout.label :: rest) other = some span := by
  obtain ⟨upper, upperHolds, linesEqual, rfl⟩ := exists_of_sectionBody? found
  simp only [Cutout.span] at above
  -- The label of the upper section stands before the label of this one.
  have split : ∃ between, cutout.before = upper.before ++ upper.label :: between := by
    simp only [lines] at linesEqual
    rcases List.append_eq_append_iff.mp linesEqual with ⟨middle, beforeEqual, rest⟩ | ⟨middle, beforeEqual, -⟩
    · cases middle with
      | nil =>
        rw [beforeEqual, List.append_nil] at above
        omega
      | cons line middle =>
        simp only [List.cons_append, List.cons.injEq] at rest
        exact ⟨middle, by rw [beforeEqual, rest.1]⟩
    · rw [beforeEqual, List.length_append] at above
      omega
  obtain ⟨between, beforeEqual⟩ := split
  have ended := endsSection_of_sectionLabel? holds.named
  have positions (rest : List Text) : sectionBody? comment (cutout.before ++ cutout.label :: rest) other
      = some ⟨upper.before.length + 1,
          upper.before.length + 1 + (between.takeWhile fun line => !endsSection comment line).length⟩ := by
    rw [beforeEqual, List.append_assoc, List.cons_append,
      sectionBody?_append _ upperHolds.first upperHolds.named, takeWhile_append_end _ _ ended]
  rw [← found, positions rest]
  exact (positions _).symm

end Cutout

end

end Masthead.Header
