import Masthead.Proofs.Variables
import Masthead.Proofs.Header.Changes
import Masthead.Proofs.Header.Persistence

/-!
# Lines that are written

Every line that an operation puts into a document comes from a template, from a line that was there,
or from a line with another value behind its head. Built-in templates are not empty anywhere, so a
line that is written shows, and it holds no terminator unless a value or an old line does.
-/

namespace Masthead.Header

open Text

/-! ## Lines of a merged header -/

namespace Narrative

variable {comment : Text} {sentinels : List Text} {narrative : Narrative}

theorem mem_putSection {header : List Text} {place : Span × Section} {line : Text}
    (member : line ∈ narrative.putSection comment header place) :
    line ∈ header ∨ ∃ part, line ∈ narrative.lines part := by
  obtain ⟨lead, trail, split, leadBody, trailBody⟩ :=
    exists_framed_split comment (place.1.slice header) (narrative.lines place.2)
  have ofSlice {line : Text} (member : line ∈ place.1.slice header) : line ∈ header :=
    List.mem_of_mem_take (List.mem_of_mem_drop member)
  simp only [putSection, Span.replace, split, List.mem_append] at member
  rcases member with (member | member | member | member) | member
  · exact .inl (List.mem_of_mem_take member)
  · exact .inl (ofSlice (leadBody line member).2)
  · exact .inr ⟨_, member⟩
  · exact .inl (ofSlice (trailBody line member).2)
  · exact .inl (List.mem_of_mem_drop member)

theorem mem_fillSections {fresh : List Text} {line : Text} (member : line ∈ narrative.fillSections comment fresh) :
    line ∈ fresh ∨ ∃ part, line ∈ narrative.lines part := by
  unfold fillSections at member
  generalize narrative.places comment fresh = places at member
  induction places generalizing fresh with
  | nil => exact .inl member
  | cons place places inductionHypothesis =>
    rcases inductionHypothesis member with inside | told
    · exact mem_putSection inside
    · exact .inr told

theorem mem_mergeInto {fresh : List Text} {line : Text} (member : line ∈ narrative.mergeInto comment fresh) :
    line ∈ narrative.fillSections comment fresh ∨
      ∃ other ∈ narrative.fillSections comment fresh, ∃ found date, creationField.cut? other = some found ∧
        narrative.creationDate = some date ∧ line = found.head ++ date := by
  rw [mergeInto_eq] at member
  split at member
  · next date given =>
    rcases putDate_cases date (narrative.fillSections comment fresh) with
      ⟨same, -⟩ | ⟨above, other, found, below, split, -, cut, placed⟩
    · exact .inl (same ▸ member)
    · rw [placed, List.mem_append, List.mem_cons] at member
      rw [split]
      rcases member with member | rfl | member
      · exact .inl (List.mem_append_left _ member)
      · exact .inr ⟨other, by simp, found, date, cut, given, rfl⟩
      · exact .inl (List.mem_append_right _ (List.mem_cons_of_mem _ member))
  · exact .inl member

theorem exists_of_creationDateOf? {header : List Text} {date : Text}
    (given : creationDateOf? sentinels header = some date) :
    ∃ line ∈ header, ∃ found, creationField.cut? line = some found ∧ found.value = date ∧
      isScaffolding sentinels date = false := by
  have listed := List.mem_of_find?_eq_some given
  obtain ⟨found, inCuts, rfl⟩ := List.mem_map.mp listed
  obtain ⟨line, member, cut⟩ := List.mem_filterMap.mp inCuts
  exact ⟨line, member, found, cut, rfl, by simpa using List.find?_some given⟩

theorem mem_of_mem_extract {header : List Text} {part : Section} {line : Text}
    (member : line ∈ (extract comment sentinels header).lines part) : line ∈ header := by
  obtain ⟨cutout, -, rfl, inBody⟩ := exists_of_mem_extract member
  simp [Cutout.lines, inBody]

variable {old fresh : List Text}

theorem mem_fillSections_extract {line : Text}
    (member : line ∈ (extract comment sentinels old).fillSections comment fresh) : line ∈ fresh ∨ line ∈ old :=
  (mem_fillSections member).imp_right fun ⟨_, told⟩ => mem_of_mem_extract told

theorem unbroken_mergeInto (oldUnbroken : ∀ line ∈ old, Unbroken line) (freshUnbroken : ∀ line ∈ fresh, Unbroken line) :
    ∀ line ∈ (extract comment sentinels old).mergeInto comment fresh, Unbroken line := by
  have filled : ∀ line ∈ (extract comment sentinels old).fillSections comment fresh, Unbroken line :=
    fun line member => (mem_fillSections_extract member).elim (freshUnbroken line) (oldUnbroken line)
  intro line member
  rcases mem_mergeInto member with member | ⟨other, inside, found, date, cut, given, rfl⟩
  · exact filled line member
  · -- The line of the day is the head of one line of the header with the value of another.
    obtain ⟨dated, datedOld, datedFound, datedCut, rfl, -⟩ := exists_of_creationDateOf? given
    obtain ⟨-, -, -, white, split, -⟩ := FieldShape.of_cutAfter? cut
    obtain ⟨-, -, -, datedWhite, datedSplit, -⟩ := FieldShape.of_cutAfter? datedCut
    refine Unbroken.append ((filled other inside).of_subset ?_) ((oldUnbroken dated datedOld).of_subset ?_)
    · exact fun character member => split ▸ List.mem_append_left _ member
    · exact fun character member => datedSplit ▸ List.mem_append_right _ (List.mem_append_left _ member)

theorem shown_mergeInto (oldShown : ∀ line ∈ old, line ≠ []) (freshShown : ∀ line ∈ fresh, line ≠ []) :
    ∀ line ∈ (extract comment sentinels old).mergeInto comment fresh, line ≠ [] := by
  intro line member
  rcases mem_mergeInto member with member | ⟨other, -, found, date, cut, -, rfl⟩
  · exact (mem_fillSections_extract member).elim (freshShown line) (oldShown line)
  · obtain ⟨-, colon, -⟩ := FieldShape.of_cutAfter? cut
    exact List.ne_nil_of_mem (List.mem_append_left _ colon)

/-- Filling a section leaves a line above it and puts at least one in. -/
theorem one_lt_length_fillSections (long : 1 < fresh.length) : 1 < (narrative.fillSections comment fresh).length := by
  have placed : ∀ place ∈ narrative.places comment fresh, narrative.lines place.2 ≠ [] ∧ 0 < place.1.start := by
    intro place member
    obtain ⟨content, found⟩ := mem_places.mp member
    obtain ⟨label, -, spanEqual⟩ := Option.map_eq_some_iff.mp found
    exact ⟨lines_eq_nil_of_hasContent content, spanEqual ▸ Nat.succ_pos label⟩
  -- A place stays what it was when others are filled, so nothing but its start and its text has to be carried along.
  unfold fillSections
  generalize narrative.places comment fresh = places at placed
  induction places generalizing fresh with
  | nil => exact long
  | cons place places inductionHypothesis =>
    refine inductionHypothesis ?_ fun other member => placed other (List.mem_cons_of_mem _ member)
    obtain ⟨told, start⟩ := placed place List.mem_cons_self
    obtain ⟨lead, trail, split, -, -⟩ :=
      exists_framed_split comment (place.1.slice fresh) (narrative.lines place.2)
    have some := List.length_pos_iff.mpr told
    simp only [putSection, Span.replace, split, List.length_append, List.length_take]
    omega

theorem length_putDate (date : Text) (lines : List Text) : (putDate date lines).length = lines.length := by
  rcases putDate_cases date lines with ⟨same, -⟩ | ⟨above, line, found, below, rfl, -, -, placed⟩
  · rw [same]
  · simp [placed]

theorem length_mergeInto (narrative : Narrative) (fresh : List Text) :
    (narrative.mergeInto comment fresh).length = (narrative.fillSections comment fresh).length := by
  rw [mergeInto_eq]
  split
  · exact length_putDate _ _
  · rfl

theorem one_lt_length_mergeInto (long : 1 < fresh.length) : 1 < (narrative.mergeInto comment fresh).length := by
  rw [length_mergeInto]
  exact one_lt_length_fillSections long

theorem preamble_fillSections (narrative : Narrative) (fresh : List Text) :
    preamble comment (narrative.fillSections comment fresh) = preamble comment fresh :=
  preamble_foldl (places_hold comment narrative fresh)

/-! ## Its rules -/

theorem head?_fillSections {first : Text} {rest : List Text} (rule : isSeparator comment first = true)
    (narrative : Narrative) : (narrative.fillSections comment (first :: rest)).head? = some first := by
  have begins : preamble comment (first :: rest) = first :: preamble comment rest := by
    rw [preamble, List.takeWhile_cons, sectionLabel?_eq_none_of_isSeparator rule]
    rfl
  have prefixed : preamble comment (narrative.fillSections comment (first :: rest))
      <+: narrative.fillSections comment (first :: rest) := List.takeWhile_prefix _
  rw [preamble_fillSections, begins] at prefixed
  obtain ⟨below, equal⟩ := prefixed
  rw [← equal]
  rfl

/-- A rule that closes a header ends the last section, so no section is filled behind it. -/
theorem getLast?_foldl {closing : Text} (closes : isSeparator comment closing = true) {places : List (Span × Section)}
    {header : List Text} (hold : Places comment header places) (last : header.getLast? = some closing) :
    (places.foldl (narrative.putSection comment) header).getLast? = some closing := by
  induction hold using Places.induction with
  | nil header hold => exact last
  | cons cutout part places holds hold inductionHypothesis =>
    rw [List.foldl_cons, putSection_eq, Cutout.lines_withBody]
    refine inductionHypothesis _ ?_
    rw [← Cutout.lines_withBody]
    have inner : ∀ line ∈ cutout.label :: cutout.body, isSeparator comment line = false := by
      intro line member
      rcases List.mem_cons.mp member with rfl | member
      · rw [Bool.eq_false_iff]
        intro rule
        have named := holds.named
        rw [sectionLabel?_eq_none_of_isSeparator rule] at named
        cases named
      · exact (endsSection_eq_false_iff.mp (holds.inside line member)).2
    have split (body : List Text) : (cutout.withBody body).lines
        = cutout.before ++ ((cutout.label :: body) ++ cutout.after) := rfl
    have lastEqual : ((cutout.before ++ ((cutout.label :: cutout.body) ++ cutout.after)).getLast?) = some closing := last
    rw [split, List.getLast?_append, List.getLast?_append]
    cases behind : cutout.after.getLast? with
    | some line =>
      rw [List.getLast?_append, List.getLast?_append, behind] at lastEqual
      simpa using lastEqual
    | none =>
      -- Without anything behind the section, the rule would be its last line, or its label.
      have ended : (cutout.label :: cutout.body).getLast? = some closing := by
        rw [List.getLast?_append, List.getLast?_append, behind, Option.none_or, List.getLast?_cons] at lastEqual
        simpa [List.getLast?_cons] using lastEqual
      rw [inner closing (List.mem_of_getLast? ended)] at closes
      cases closes

theorem putDate_append_singleton {closing : Text} (uncut : creationField.cut? closing = none) (date : Text) (lines : List Text) :
    putDate date (lines ++ [closing]) = putDate date lines ++ [closing] := by
  induction lines with
  | nil => simp [putDate, uncut]
  | cons line lines inductionHypothesis =>
    rw [List.cons_append, putDate, putDate]
    cases creationField.cut? line with
    | some found => rfl
    | none => rw [inductionHypothesis]; rfl

/-- A header between two rules stays between them when a narrative is put into it. -/
theorem exists_inner_mergeInto {rule : Text} {inner : List Text} (isRule : isSeparator comment rule = true)
    {narrative : Narrative} (undated : narrative.creationDate ≠ none → Undated comment) :
    ∃ others, narrative.mergeInto comment (rule :: (inner ++ [rule])) = rule :: (others ++ [rule]) := by
  have filled : ∃ others, narrative.fillSections comment (rule :: (inner ++ [rule])) = rule :: (others ++ [rule]) := by
    have last : (narrative.fillSections comment (rule :: (inner ++ [rule]))).getLast? = some rule := by
      refine getLast?_foldl isRule (places_hold comment narrative _) ?_
      rw [← List.cons_append, List.getLast?_concat]
    have long : 1 < (narrative.fillSections comment (rule :: (inner ++ [rule]))).length :=
      one_lt_length_fillSections (by simp)
    obtain ⟨rest, equal⟩ := List.head?_eq_some_iff.mp (head?_fillSections isRule narrative)
    rw [equal] at last long ⊢
    rcases List.eq_nil_or_concat rest with rfl | ⟨others, closing, rfl⟩
    · exact absurd long (by simp)
    · rw [List.concat_eq_append, ← List.cons_append, List.getLast?_concat] at last
      rw [List.concat_eq_append, Option.some.inj last]
      exact ⟨others, rfl⟩
  obtain ⟨others, equal⟩ := filled
  cases given : narrative.creationDate with
  | none => exact ⟨others, by rw [mergeInto_of_eq_none given, equal]⟩
  | some date =>
    -- A rule is not dated, so the day goes between the rules.
    have uncut : creationField.cut? rule = none := by
      cases cut : creationField.cut? rule with
      | none => rfl
      | some found =>
        rw [(undated (by simp [given])).isSeparator_eq_false (isDated_of_cut? cut)] at isRule
        cases isRule
    refine ⟨putDate date others, ?_⟩
    rw [mergeInto_of_eq_some given, equal, putDate, uncut]
    dsimp only
    rw [putDate_append_singleton uncut]

theorem isHeaderLine_of_mem_mergeInto {old fresh : List Text}
    (undated : (extract comment sentinels old).creationDate ≠ none → Undated comment)
    (oldLines : ∀ line ∈ old, isHeaderLine comment line = true) (freshLines : ∀ line ∈ fresh, isHeaderLine comment line = true) :
    ∀ line ∈ (extract comment sentinels old).mergeInto comment fresh, isHeaderLine comment line = true := by
  have filled : ∀ line ∈ (extract comment sentinels old).fillSections comment fresh, isHeaderLine comment line = true :=
    fun line member => (mem_fillSections_extract member).elim (freshLines line) (oldLines line)
  intro line member
  rcases mem_mergeInto member with member | ⟨other, inside, found, date, cut, given, rfl⟩
  · exact filled line member
  · exact (undated (by simp [given])).isHeaderLine_head_append cut (filled other inside) date

end Narrative

/-! ## Changed lines -/

theorem mem_repairAfter {before : Option Char} {skip : Nat} {text : Text} {character : Char}
    (member : character ∈ repairAfter before skip text) : character ∈ properLabel ∨ character ∈ text := by
  induction text generalizing before skip with
  | nil => cases skip <;> cases member
  | cons first rest inductionHypothesis =>
    have later {before : Option Char} {skip : Nat} (member : character ∈ repairAfter before skip rest) :
        character ∈ properLabel ∨ character ∈ first :: rest :=
      (inductionHypothesis member).imp_right (List.mem_cons_of_mem _)
    cases skip with
    | succ skip => exact later member
    | zero =>
      rw [repairAfter] at member
      split at member
      · exact (List.mem_append.mp member).elim .inl later
      · rcases List.mem_cons.mp member with rfl | member
        · exact .inr List.mem_cons_self
        · exact later member

theorem repairAfter_ne_nil {before : Option Char} {text : Text} (nonempty : text ≠ []) : repairAfter before 0 text ≠ [] := by
  cases text with
  | nil => exact absurd rfl nonempty
  | cons first rest =>
    rw [repairAfter]
    split
    · exact List.append_ne_nil_of_left_ne_nil (by decide) _
    · exact List.cons_ne_nil _ _

/-- Whether a line can be written into a document anywhere. -/
def IsWritable (line : Text) : Prop :=
  Unbroken line ∧ line ≠ []

theorem isWritable_of_repairLine? {line repaired : Text} (unbroken : Unbroken line)
    (found : repairLine? line = some repaired) : IsWritable repaired := by
  unfold repairLine? at found
  split at found
  · next needed =>
    cases found
    have labelUnbroken : Unbroken properLabel := by decide
    have nonempty : line ≠ [] := by
      rintro rfl
      cases needed
    refine ⟨(labelUnbroken.append unbroken).of_subset ?_, repairAfter_ne_nil nonempty⟩
    exact fun character member => List.mem_append.mpr (mem_repairAfter member)
  · cases found

theorem isWritable_of_refreshLine? {comment line renewed : Text} {fields : FieldValues} (unbroken : Unbroken line)
    (values : ∀ field ∈ fields, Unbroken field.2) (found : refreshLine? comment fields line = some renewed) :
    IsWritable renewed := by
  obtain ⟨renewal, -⟩ := Option.filter_eq_some_iff.mp found
  obtain ⟨⟨field, value⟩, member, put⟩ := List.exists_of_findSome?_eq_some renewal
  simp only [VolatileField.renew?] at put
  split at put
  · obtain ⟨cut, cutFound, rfl⟩ := Option.map_eq_some_iff.mp put
    obtain ⟨-, colon, -, white, split, -⟩ := FieldShape.of_cutAfter? cutFound
    have headUnbroken : Unbroken cut.head :=
      unbroken.of_subset fun character member => split ▸ List.mem_append_left _ member
    exact ⟨headUnbroken.append (values (field, value) member), List.ne_nil_of_mem (List.mem_append_left _ colon)⟩
  · cases put

theorem isWritable_refreshChanges {comment : Text} {fields : FieldValues} {bounds : Bounds} {lines : List Text}
    (unbroken : ∀ line ∈ lines, Unbroken line) (values : ∀ field ∈ fields, Unbroken field.2) :
    ∀ change ∈ refreshChanges comment fields bounds lines, IsWritable change.text := by
  intro change member
  obtain ⟨line, found, changed⟩ := ((lists_refreshChanges comment fields bounds lines).mem_iff change).mp member
  have lineUnbroken := unbroken line (List.mem_of_getElem? found)
  have repairs {position : Nat} {repaired : Text} (written : repairing position line = some repaired) :
      IsWritable repaired := by
    rw [repairing] at written
    split at written
    · exact isWritable_of_repairLine? lineUnbroken written
    · cases written
  -- Fields are renewed in repaired lines, so that these must not be broken either.
  have repairedUnbroken : Unbroken (repairing.apply change.line line) := by
    rw [Rewriting.apply]
    cases written : repairing change.line line with
    | none => exact lineUnbroken
    | some repaired => exact (repairs written).1
  rw [refreshing, Rewriting.andThen, Option.or_eq_some_iff] at changed
  rcases changed with renewed | ⟨-, repaired⟩
  · rw [renewing] at renewed
    split at renewed
    · exact isWritable_of_refreshLine? repairedUnbroken values renewed
    · cases renewed
  · exact repairs repaired

/-! ## What an engine writes -/

namespace Engine

theorem unbroken_builtinHeader : ∀ style ∈ HeaderStyle.all, ∀ line ∈ Template.builtinHeader style, Unbroken line := by
  decide +kernel

theorem eq_builtin {engine : Engine} (builtIn : engine.templates = .builtin) : engine = builtin engine.now := by
  rw [builtin, ← builtIn]

/-- A character of a template that belongs to no placeholder stays when the template is filled. -/
theorem mem_fill_of_plain {values : Variables} {template : Text} {character : Char}
    (plain : .plain character ∈ Placeholder.pieces template) : character ∈ values.fill template :=
  mem_render_iff.mpr (.inl plain)

theorem unbroken_version_format {pattern : Text} (plain : Unbroken pattern) (version : Version) :
    Unbroken (version.format pattern) := by
  refine Unbroken.render_cut plain ?_
  intro token _
  unfold VersionToken.value
  dsimp only
  split
  · exact .paddedDecimal _ _
  · exact .decimal _

section

variable {engine : Engine} {config : Config} {context : FileContext} (builtIn : engine.templates = .builtin)
  (configUnbroken : ∀ text ∈ config.texts, Unbroken text) (contextUnbroken : ∀ text ∈ context.texts, Unbroken text)

include configUnbroken

theorem unbroken_opening (lines : List Text) : ∀ line ∈ (opening config context lines).2, Unbroken line := by
  intro line member
  unfold opening at member
  split at member
  · rw [List.mem_singleton.mp member]
    decide
  · -- What is put above the header is a blank line or the trimmed line of an interpreter.
    obtain ⟨interpreter, given, rfl⟩ := Option.map_eq_some_iff.mp (Option.mem_toList.mp member)
    obtain ⟨listed, found, shown⟩ := Option.bind_eq_some_iff.mp given
    obtain ⟨entry, inMap, rfl⟩ := exists_of_valueOf? found
    have unbroken : Unbroken interpreter := by
      rw [eq_of_nonBlank? shown]
      apply configUnbroken
      simp only [Config.texts, List.mem_append, List.mem_flatMap]
      exact .inl (.inr ⟨entry, .inr inMap, by simp⟩)
    have trimmed : Unbroken (trim interpreter) := unbroken.of_subset fun _ => mem_of_mem_trim
    exact Unbroken.append (by decide) trimmed

include contextUnbroken

theorem unbroken_values : (engine.values config context).Unbroken :=
  Variables.unbroken_resolve configUnbroken contextUnbroken _ _

theorem unbroken_fieldValues : ∀ field ∈ engine.fieldValues config context, Unbroken field.2 := by
  have values : (engine.values config context).Unbroken := unbroken_values configUnbroken contextUnbroken
  intro field member
  obtain ⟨kind, -, rfl⟩ := List.mem_map.mp member
  cases kind with
  | lastModified => exact (((values.get _).append (by decide)).append (values.get _)).append (by decide)
  | editorInfo => exact values.get "editorInfo"

include builtIn

theorem isWritable_render (visible : BeginsVisibly (commentOf config context)) :
    ∀ line ∈ engine.render config context, IsWritable line := by
  have values : (engine.values config context).Unbroken := unbroken_values configUnbroken contextUnbroken
  rw [eq_builtin builtIn] at values ⊢
  intro line member
  obtain ⟨rest, equal⟩ := comment_prefix_of_mem_render engine.now config context member
  constructor
  · have listed : config.headerStyle ∈ HeaderStyle.all := by cases config.headerStyle <;> decide
    rw [render_builtin] at member
    obtain ⟨template, inTemplate, rfl⟩ := List.mem_map.mp member
    exact values.fill (unbroken_builtinHeader _ listed template inTemplate)
  · obtain ⟨head, tail, commentEqual, -⟩ := visible
    rw [← equal, commentEqual]
    exact List.cons_ne_nil _ _

theorem isWritable_entryText (list : EntryList) (kind : EntryKind) :
    IsWritable (engine.entryText config context list kind) := by
  have values : (engine.values config context).Unbroken := unbroken_values configUnbroken contextUnbroken
  have format : Unbroken config.effectiveVersionFormat := by
    unfold Config.effectiveVersionFormat
    split <;> exact configUnbroken _ (by simp [Config.texts])
  -- An entry is not empty, since its template has a letter outside of all placeholders.
  cases kind with
  | version =>
    have template : Unbroken Template.builtinVersionEntry ∧ .plain 'D' ∈ Placeholder.pieces Template.builtinVersionEntry := by
      decide
    rw [entryText, builtIn, TemplateSet.builtin_versionLine]
    refine ⟨Variables.Unbroken.fill ?_ template.1, List.ne_nil_of_mem (mem_fill_of_plain template.2)⟩
    exact (((values.set _ (unbroken_version_format format _)).set _ (.paddedDecimal _ _)).set _
      (.paddedDecimal _ _)).set _ (.paddedDecimal _ _)
  | todo =>
    have template : Unbroken Template.builtinTodoEntry ∧ .plain 'D' ∈ Placeholder.pieces Template.builtinTodoEntry := by
      decide
    rw [entryText, builtIn, TemplateSet.builtin_todoLine]
    exact ⟨(values.set _ (.paddedDecimal _ _)).fill template.1, List.ne_nil_of_mem (mem_fill_of_plain template.2)⟩

end

end Engine

end Masthead.Header
