import Mathlib.Data.Bool.AllAny
import Masthead.Proofs.Header.Upkeep

/-!
# Headers that are rendered plainly

A header is rendered plainly if its values neither name a section nor read like a day of creation where the template
does not. Such a header is dated by the day of the rendering, its sections keep their capacity, and the values of its
volatile fields are silent.
-/

namespace Masthead

open Text

/-! ## The text of a day -/

theorem Text.trimEnd_eq_self {text : Text} (visible : ∀ character ∈ text, isWhite character = false) :
    trimEnd text = text := by
  rcases List.eq_nil_or_concat text with rfl | ⟨front, last, rfl⟩
  · rfl
  · rw [List.concat_eq_append]
    exact trimEnd_append_singleton front (visible last (by simp))

namespace Calendar.Instant

/-- Characters that a day may be written with. -/
def dayCharacters : Text :=
  "YYYY/MM/DD".toList ++ '-' :: decimalDigits

theorem today_subset (now : Calendar.Instant) (zone : Option Text) : now.today zone ⊆ dayCharacters :=
  fun _ member => Calendar.Moment.of_mem_format member

theorem today_ne_nil (now : Calendar.Instant) (zone : Option Text) : now.today zone ≠ [] := by
  have pieces : cut Calendar.DatePart.read? "YYYY/MM/DD".toList
      = .token .year :: cut Calendar.DatePart.read? "/MM/DD".toList := by decide
  rw [today, Calendar.Moment.format, pieces, render, List.flatMap_cons]
  exact List.append_ne_nil_of_left_ne_nil (paddedInteger_ne_nil _ _) _

end Calendar.Instant

namespace Header

open Calendar.Instant Template

section

variable (now : Calendar.Instant) (zone : Option Text)

theorem isValue_today : creationField.IsValue (now.today zone) := by
  have signs : ∀ character ∈ dayCharacters, isWhite character = false := List.all_iff_forall_prop.mp (by decide)
  have visible : ∀ character ∈ now.today zone, isWhite character = false :=
    fun character member => signs character (today_subset now zone member)
  refine ⟨fun member => ?_, Text.trimEnd_eq_self visible, ?_, fun _ => today_ne_nil now zone⟩
  · exact absurd (today_subset now zone member) (by decide)
  · intro character head
    exact visible character (List.mem_of_head? head)

theorem isScaffolding_today : isScaffolding Config.default.extractionSentinels (now.today zone) = false := by
  have absent {character : Char} (foreign : character ∉ dayCharacters) : character ∉ now.today zone :=
    fun member => foreign (today_subset now zone member)
  have unheld : Text.holds "<Error>" (now.today zone) = false := by
    rw [Bool.eq_false_iff]
    intro held
    exact absent (by decide : '<' ∉ dayCharacters) ((holds_iff.mp held).subset (by decide))
  have trimmed : Config.default.extractionSentinels.map trim = [("<Error>" : Text)] := by decide
  rw [isScaffolding, Placeholder.occurs_eq_false (absent (by decide)), trimmed, List.any_cons, unheld]
  rfl

end

/-! ## The line of the day -/

namespace FieldShape

variable {shape : FieldShape} {before : Option Char}

/-- A field that begins nowhere in the front of a line is found behind it. -/
theorem cutAfter?_append {front rest : Text} {found : Cut} (oneLine : '\n' ∉ front)
    (nowhere : ∀ tail, tail <:+ front → tail ≠ [] → shape.cutHere? (tail ++ rest) = none)
    (cut : shape.cutAfter? (front.getLast?.or before) rest = some found) :
    shape.cutAfter? before (front ++ rest) = some ⟨front ++ found.head, found.value⟩ := by
  induction front generalizing before with
  | nil => exact cut
  | cons character front inductionHypothesis =>
    simp only [List.mem_cons, not_or] at oneLine
    rw [getLast?_cons_or] at cut
    exact cutAfter?_of_later (fun _ => nowhere _ List.suffix_rfl (List.cons_ne_nil _ _)) (Ne.symm oneLine.1)
      (inductionHypothesis oneLine.2 (fun tail behind => nowhere tail (behind.trans (List.suffix_cons _ _))) cut)

end FieldShape

/-- What stands between the comment token and the day of creation. -/
def creationHeading : HeaderStyle → Text
  | .minimal => " Created     : "
  | _ => " First Created : "

theorem exists_label_of_creationHeading (style : HeaderStyle) (day : Text) :
    ∃ letter rest label, creationHeading style = ' ' :: letter :: rest ∧ isWord letter = true ∧
      creationField.named? (letter :: rest ++ day) = some (label, ' ' :: day) := by
  cases style with
  | minimal => exact ⟨'C', _, "Created     :".toList, rfl, by decide, rfl⟩
  | standard | detailed => exact ⟨'F', _, "First Created :".toList, rfl, by decide, rfl⟩

theorem creationHeading_plain (style : HeaderStyle) : ∀ letter ∈ refreshLetters, letter ∉ creationHeading style :=
  List.all_iff_forall_prop.mp (by cases style <;> decide)

theorem refreshLetters_word : ∀ letter ∈ refreshLetters, isWord letter = true ∧ letter ∉ dayCharacters :=
  List.all_iff_forall_prop.mp (by decide)

/-- The day is read from behind its heading. -/
theorem exists_cut?_creationHeading {comment : Text} (wordless : Wordless comment) (oneLine : '\n' ∉ comment)
    (style : HeaderStyle) (now : Calendar.Instant) (zone : Option Text) :
    ∃ head, creationField.cut? (comment ++ (creationHeading style ++ now.today zone)) = some ⟨head, now.today zone⟩ := by
  have isValue := isValue_today now zone
  obtain ⟨letter, rest, label, heading, word, named⟩ := exists_label_of_creationHeading style (now.today zone)
  have front : Wordless (comment ++ [' ']) := by
    intro character member
    rcases List.mem_append.mp member with member | member
    · exact wordless character member
    · rw [List.mem_singleton.mp member]
      decide
  have blank : ∀ character ∈ [' '], creationField.isGap character = true := List.all_eq_true.mp (by decide)
  have here : creationField.cutHere? (letter :: rest ++ now.today zone) = some ⟨label ++ [' '], now.today zone⟩ := by
    refine FieldShape.cutHere?_eq_some_iff.mpr ⟨label, [' '] ++ now.today zone, named, ?_, ?_⟩
    · rwa [FieldShape.valueIn_append_value isValue blank]
    · rw [FieldShape.valueIn_append_value isValue blank, FieldShape.takeWhile_append_value isValue blank]
  have boundary : atWordBoundary ((comment ++ [' ']).getLast?.or none) (letter :: rest ++ now.today zone) = true := by
    have space : isWord ' ' = false := by decide
    simp [atWordBoundary, word, space]
  -- No label begins in the comment token or the blank behind it, so that the one of the heading is the first.
  have behind := FieldShape.cutAfter?_append (by simp [oneLine])
    (fun tail inside nonempty =>
      Wordless.cutHere?_append (fun character member => front character (inside.subset member))
      nonempty) (FieldShape.cutAfter?_of_here boundary here)
  refine ⟨comment ++ [' '] ++ (label ++ [' ']), ?_⟩
  rw [heading, List.cons_append, ← List.singleton_append, ← List.append_assoc]
  exact behind

theorem isDayLine_creationHeading {comment : Text} (wordless : Wordless comment) (oneLine : '\n' ∉ comment)
    (style : HeaderStyle) (now : Calendar.Instant) (zone : Option Text) :
    IsDayLine (now.today zone) (comment ++ (creationHeading style ++ now.today zone)) := by
  refine ⟨exists_cut?_creationHeading wordless oneLine style now zone, ?_⟩
  intro letter listed member
  obtain ⟨isWordLetter, foreign⟩ := refreshLetters_word letter listed
  rcases List.mem_append.mp member with inComment | member
  · exact wordless.not_mem isWordLetter inComment
  · rcases List.mem_append.mp member with inHeading | inDay
    · exact creationHeading_plain style letter listed inHeading
    · exact foreign (today_subset now zone inDay)

/-! ## What the values of a setting are put into -/

/-- What stands between the comment token and the value of a volatile field. -/
def fieldHeading : HeaderStyle → VolatileField → Text
  | .minimal, .lastModified => " Updated     : "
  | .minimal, .editorInfo => " Editor      : "
  | _, .lastModified => " Last Updated  : "
  | _, .editorInfo => " Editor        : "

/-- The line of a volatile field in a built-in template. -/
def fieldRow (style : HeaderStyle) : VolatileField → Text
  | .lastModified =>
    row [fieldHeading style .lastModified, value "lastModifiedDate", " (by ", value "lastModifiedUser", ")"]
  | .editorInfo => row [fieldHeading style .editorInfo, value "editorInfo"]

theorem fieldRow_mem_builtinHeader (style : HeaderStyle) (field : VolatileField) :
    fieldRow style field ∈ builtinHeader style ∧ creationField.cut? (fieldRow style field) = none := by
  cases style <;> cases field <;> decide +kernel

theorem exists_front_of_fieldHeading (style : HeaderStyle) (field : VolatileField) :
    ∃ front, fieldHeading style field = front ++ ": ".toList ∧ '\n' ∉ front ∧ (front ++ ": ".toList).count 'L' < 2 ∧
      '$' ∉ fieldHeading style field := by
  refine ⟨(fieldHeading style field).dropLast.dropLast, ?_⟩
  cases style <;> cases field <;> decide

/-- The line of the day in a built-in template. -/
def dayRow (style : HeaderStyle) : Text :=
  row [creationHeading style, value "creationDate"]

theorem exists_builtinHeader_split (style : HeaderStyle) :
    ∃ above below, builtinHeader style = above ++ dayRow style :: below ∧
      (∀ template ∈ above, creationField.cut? template = none ∧
        ∀ part ∈ Section.all, ¬ part.label <+: commentText (value "comment") template) ∧
      ∀ template ∈ below, creationField.cut? template = none := by
  refine ⟨(builtinHeader style).takeWhile (· ≠ dayRow style),
    ((builtinHeader style).dropWhile (· ≠ dayRow style)).tail, ?_⟩
  cases style <;> decide +kernel

/-! ## Rendering in a setting -/

namespace Setting

/-- A line of a template, filled with the values of a setting. -/
def fill (setting : Setting) (template : Text) : Text :=
  (setting.engine.values setting.config setting.context).fill template

/-- A new header. -/
def header (setting : Setting) : List Text :=
  setting.engine.render setting.config setting.context

/-- The day on which a header is rendered. -/
def day (setting : Setting) : Text :=
  setting.engine.now.today setting.config.timeZone

/-- The template of a setting that brings no templates. -/
def template (setting : Setting) : List Text :=
  builtinHeader setting.config.headerStyle

variable {setting : Setting}

theorem fill_dayRow (style : HeaderStyle) :
    setting.fill (dayRow style) = setting.comment ++ (creationHeading style ++ setting.day) := by
  have plain : '$' ∉ creationHeading style := by cases style <;> decide
  exact fill_row_value (Engine.values_comment _ _ _) plain (by decide) (by decide) rfl

theorem fill_fieldRow (style : HeaderStyle) (field : VolatileField) :
    setting.fill (fieldRow style field)
      = setting.comment ++ (fieldHeading style field ++ setting.fieldValue field) := by
  obtain ⟨-, -, -, -, plain⟩ := exists_front_of_fieldHeading style field
  cases field with
  | lastModified =>
    rw [fill, fieldRow, fill_row (Engine.values_comment _ _ _)]
    simp only [Variables.fill, value, List.flatten_cons, List.flatten_nil]
    rw [Placeholder.fill_plain_append _ _ plain, Placeholder.fill_written_append _ _ (by decide) (by decide),
      Placeholder.fill_plain_append _ _ (by decide), Placeholder.fill_written_append _ _ (by decide) (by decide),
      Placeholder.fill_plain_append _ _ (by decide), Placeholder.fill_nil, List.append_nil, fieldValue,
      VolatileField.value]
    simp only [List.append_assoc]
    rfl
  | editorInfo =>
    exact fill_row_value (Engine.values_comment _ _ _) plain (by decide) (by decide) rfl

/-- Whether a setting brings no templates and no sentinels of its own, has a rule by which its headers are found, and
gives no line of its template the name of a section or a day of creation that the template has not there. -/
structure RendersPlainly (comment : Text) (setting : Setting) : Prop where
  builtIn : setting.engine.templates = .builtin
  sentinels : setting.config.extractionSentinels = Config.default.extractionSentinels
  token : setting.comment = comment
  ruled : isCommentRule comment (ruleLine setting.config setting.context) = true
  labelled : ∀ template ∈ setting.template, ∀ part ∈ sectionLabel? comment (setting.fill template),
    part.label <+: commentText (value "comment") template
  dated : ∀ template ∈ setting.template, creationField.cut? template = none →
    creationField.cut? (setting.fill template) = none

/-- Whether the same can be said of a day of creation when the labels of the rendered lines have been repaired. -/
def RepairsPlainly (setting : Setting) : Prop :=
  ∀ template ∈ setting.template, creationField.cut? template = none →
    creationField.cut? (repairedLine (setting.fill template)) = none

instance (setting : Setting) : Decidable setting.RepairsPlainly :=
  inferInstanceAs (Decidable (∀ template ∈ setting.template, creationField.cut? template = none →
    creationField.cut? (repairedLine (setting.fill template)) = none))

section

variable {comment : Text} (plain : setting.RendersPlainly comment)

include plain

theorem RendersPlainly.header_eq : setting.header = setting.template.map setting.fill := by
  rw [header, Engine.eq_builtin plain.builtIn, Engine.render_builtin]
  rfl

theorem RendersPlainly.length_header_le : setting.header.length ≤ 32 := by
  have short (style : HeaderStyle) : (builtinHeader style).length ≤ 32 := by cases style <;> decide
  rw [plain.header_eq, List.length_map]
  exact short setting.config.headerStyle

theorem RendersPlainly.silent_fill (repairs : setting.RepairsPlainly) {template : Text}
    (listed : template ∈ setting.template) (uncut : creationField.cut? template = none) : Silent (setting.fill template) :=
  ⟨plain.dated template listed uncut, repairs template listed uncut⟩

variable (repairs : setting.RepairsPlainly) (wordless : Wordless comment) (oneLine : '\n' ∉ comment)

include repairs wordless oneLine

/-- A header that is rendered plainly is dated by the day on which it is rendered. -/
theorem RendersPlainly.datedBy_header :
    DatedBy comment setting.day setting.header := by
  obtain ⟨above, below, split, abovePlain, belowPlain⟩ := exists_builtinHeader_split setting.config.headerStyle
  have templateEqual : setting.template = above ++ dayRow setting.config.headerStyle :: below := split
  -- What is put into a line of the template may hold anything, but by the hypotheses no day of its own.
  have filled {templates : List Text} (listed : ∀ template ∈ templates, template ∈ setting.template)
      (uncut : ∀ template ∈ templates, creationField.cut? template = none) :
      ∀ line ∈ templates.map setting.fill, Silent line := by
    intro line member
    obtain ⟨template, inside, rfl⟩ := List.mem_map.mp member
    exact plain.silent_fill repairs (listed template inside) (uncut template inside)
  refine ⟨above.map setting.fill, setting.fill (dayRow setting.config.headerStyle), below.map setting.fill, ?_, ?_,
    ?_, ?_, ?_⟩
  · rw [plain.header_eq, templateEqual, List.map_append, List.map_cons]
  · rw [fill_dayRow, plain.token]
    exact isDayLine_creationHeading wordless oneLine _ _ _
  · exact filled (by simp +contextual [templateEqual]) fun template member => (abovePlain template member).1
  · exact filled (by simp +contextual [templateEqual]) belowPlain
  · intro line member
    obtain ⟨template, inside, rfl⟩ := List.mem_map.mp member
    rw [Option.eq_none_iff_forall_ne_some]
    intro part labelled
    exact (abovePlain template inside).2 part (by cases part <;> decide)
      (plain.labelled template (by simp [templateEqual, inside]) part labelled)

/-- What a setting puts into the volatile fields is silent, since it is so in a header. -/
theorem RendersPlainly.silent_fieldValue (field : VolatileField) :
    Silent (setting.fieldValue field) := by
  obtain ⟨listed, uncut⟩ := fieldRow_mem_builtinHeader setting.config.headerStyle field
  have silent := plain.silent_fill repairs listed uncut
  obtain ⟨front, heading, frontOneLine, single, -⟩ := exists_front_of_fieldHeading setting.config.headerStyle field
  have regrouped : setting.fill (fieldRow setting.config.headerStyle field)
      = comment ++ front ++ ':' :: [' '] ++ setting.fieldValue field := by
    rw [fill_fieldRow, plain.token, heading]
    simp
  rw [regrouped] at silent
  refine Silent.of_append (by simp) ?_ (fun repeats => ?_) silent
  · rw [List.mem_append, not_or]
    exact ⟨oneLine, frontOneLine⟩
  · -- A label to be repaired needs one word more than the heading has.
    have twice := repeats.two_le_count
    have none : comment.count 'L' = 0 := List.count_eq_zero.mpr (wordless.not_mem (by decide))
    rw [List.append_assoc, List.count_append, none, Nat.zero_add] at twice
    exact Nat.lt_irrefl _ (Nat.lt_of_lt_of_le single twice)

end

end Setting

/-! ## The sections of a rendered header -/

/-- Whether a line of a template ends a section whatever is put into it. -/
def endsTemplate (template : Text) : Bool :=
  template == rule || Section.all.any fun part => template == row [labelText part]

/-- How many lines a template has below the label of a section, where it may have the label. -/
def room (part : Section) : List Text → Nat
  | [] => 0
  | template :: rest =>
    max (if part.label <+: commentText (value "comment") template then
        (rest.takeWhile fun other => !endsTemplate other).length
      else 0) (room part rest)

theorem room_builtinHeader_le (style : HeaderStyle) (part : Section) :
    room part (builtinHeader style) ≤ capacity part := by
  cases style <;> cases part <;> decide +kernel

theorem length_takeWhile_map_le {comment : Text} {fill : Text → Text} {templates : List Text}
    (ended : ∀ template ∈ templates, endsTemplate template = true → endsSection comment (fill template) = true) :
    ((templates.map fill).takeWhile fun line => !endsSection comment line).length
      ≤ (templates.takeWhile fun template => !endsTemplate template).length := by
  induction templates with
  | nil => exact Nat.le_refl _
  | cons template templates inductionHypothesis =>
    have later := inductionHypothesis fun other member => ended other (List.mem_cons_of_mem _ member)
    have first := ended template List.mem_cons_self
    rw [List.map_cons, List.takeWhile_cons, List.takeWhile_cons]
    cases ends : endsTemplate template with
    | true => simp [first ends]
    | false =>
      cases endsSection comment (fill template) with
      | true => simp
      | false => simpa using later

theorem length_textOf_map_le {comment : Text} {fill : Text → Text} {templates : List Text} {part : Section}
    (ended : ∀ template ∈ templates, endsTemplate template = true → endsSection comment (fill template) = true)
    (labelled : ∀ template ∈ templates, sectionLabel? comment (fill template) = some part →
      part.label <+: commentText (value "comment") template) :
    (Narrative.textOf comment (templates.map fill) part).length ≤ room part templates := by
  induction templates with
  | nil => exact Nat.le_refl _
  | cons template templates inductionHypothesis =>
    have endedLater := fun other member => ended other (List.mem_cons_of_mem _ member)
    rw [Narrative.textOf, List.map_cons, sectionText?, room]
    by_cases named : sectionLabel? comment (fill template) = some part
    · rw [if_pos named, if_pos (labelled template List.mem_cons_self named), Option.getD_some]
      exact Nat.le_trans (length_takeWhile_map_le endedLater) (Nat.le_max_left _ _)
    · rw [if_neg named]
      have later := inductionHypothesis endedLater fun other member => labelled other (List.mem_cons_of_mem _ member)
      exact Nat.le_trans later (Nat.le_max_right _ _)

namespace Setting

variable {setting : Setting} {comment : Text}

theorem RendersPlainly.endsSection_fill (plain : setting.RendersPlainly comment) {template : Text}
    (ends : endsTemplate template = true) : endsSection comment (setting.fill template) = true := by
  have visible := beginsVisibly_of_isCommentRule plain.ruled
  rw [endsTemplate, Bool.or_eq_true, beq_iff_eq, List.any_eq_true] at ends
  rcases ends with rfl | ⟨part, -, equal⟩
  · have ruled : setting.fill rule = ruleLine setting.config setting.context :=
      fill_rule (Engine.values_comment _ _ _) (Engine.values_separator _ _ _)
    rw [ruled]
    exact endsSection_of_isSeparator (isSeparator_of_isCommentRule plain.ruled)
  · have named : setting.fill (row [labelText part]) = comment ++ labelText part := by
      rw [fill, fill_row (Engine.values_comment _ _ _), fill_labelText, ← plain.token]
      rfl
    rw [beq_iff_eq.mp equal, named]
    exact endsSection_of_sectionLabel? (Engine.sectionLabel?_append_labelText visible part)

/-- The sections of a header that is rendered plainly are as long as in the template. -/
theorem RendersPlainly.keepsCapacity_header (plain : setting.RendersPlainly comment) :
    KeepsCapacity comment setting.header := by
  intro part
  have fits := room_builtinHeader_le setting.config.headerStyle part
  have text := length_textOf_map_le (fun template _ => plain.endsSection_fill)
    fun template member => plain.labelled template member part
  rw [← plain.header_eq] at text
  exact Nat.le_trans (Narrative.trimBlankLines_sublist comment _).length_le (Nat.le_trans text fits)

end Setting

end Header

end Masthead
