import Masthead.Proofs.Header.Entry
import Masthead.Proofs.Header.Insertion
import Masthead.Proofs.Header.Persistence
import Masthead.Proofs.Header.Run

/-!
# A header that collects entries

Entries go into a header that has been inserted, one after the other, and push its closing rule
down. The header is located whole as long as the closing rule stands within the closing window; it
can then be rendered anew, and its lists come back with all their entries. Beyond the window the
last rule that is still seen is taken for the end of the header.
-/

namespace Masthead.Header

/-! ## One entry -/

theorem EntryKind.eq_of_part_eq {kind other : EntryKind} (same : kind.part = other.part) : kind = other := by
  cases kind <;> cases other <;> simp_all [EntryKind.part]

namespace Framing

/-- The document with other lines between the rules of its header. -/
def withInner (framing : Framing) (inner : List Text) : Framing :=
  { framing with inner := inner }

/-- A header into which entries can go, and that is the first place where they can. -/
structure TakesEntries (comment : Text) (framing : Framing) : Prop where
  stands : framing.Stands comment
  unnamedAbove : ∀ line ∈ framing.above, sectionLabel? comment line = none
  labelled : ∀ kind : EntryKind, (sectionText? comment kind.part framing.inner).isSome = true

variable {comment : Text} {framing : Framing} {document : Document} {kind : EntryKind}

/-- The rules of a header name no section. -/
theorem sectionText?_header (stands : framing.Stands comment) (part : Section) :
    sectionText? comment part framing.header = sectionText? comment part framing.inner := by
  have unnamed {line : Text} (rule : isSeparator comment line = true) : sectionLabel? comment line ≠ some part := by
    simp [sectionLabel?_eq_none_of_isSeparator rule]
  rw [header, sectionText?_cons_of_ne _ (unnamed (isSeparator_of_isCommentRule stands.opens)),
    sectionText?_append_end _ _ (endsSection_of_isSeparator stands.closes),
    sectionText?_cons_of_ne _ (unnamed stands.closes), sectionText?, Option.or_none]

/-- The lines of a document around the text of a section of its header. -/
theorem lines_eq_of_cutout {cutout : Cutout} (inner : cutout.lines = framing.inner) :
    framing.lines = (framing.above ++ framing.opening :: cutout.before) ++ cutout.label ::
      (cutout.body ++ (cutout.after ++ framing.closing :: framing.below)) := by
  simp only [lines, header, ← inner, Cutout.lines, List.append_assoc, List.cons_append, List.nil_append]

theorem unnamed_above_label (takes : framing.TakesEntries comment) {cutout : Cutout} {part : Section}
    (holds : cutout.Holds comment part) :
    ∀ line ∈ framing.above ++ framing.opening :: cutout.before, sectionLabel? comment line ≠ some part := by
  intro line member
  rcases List.mem_append.mp member with member | member
  · simp [takes.unnamedAbove line member]
  · rcases List.mem_cons.mp member with rfl | member
    · simp [sectionLabel?_eq_none_of_isSeparator (isSeparator_of_isCommentRule takes.stands.opens)]
    · exact holds.first line member

/-- The list of a kind is read off the text of its section. -/
theorem scan_eq (takes : framing.TakesEntries comment) {cutout : Cutout} (holds : cutout.Holds comment kind.part)
    (inner : cutout.lines = framing.inner) :
    EntryList.scan comment framing.lines kind
      = ⟨kind, some (framing.above ++ framing.opening :: cutout.before).length,
          cutout.body.takeWhile (isEntryLine comment)⟩ := by
  -- A list ends at the next section of the header, or at the rule that closes it.
  have ended : ∀ line, (cutout.after ++ framing.closing :: framing.below).head? = some line →
      endsSection comment line = true := by
    intro line head
    cases after : cutout.after with
    | nil =>
      rw [after] at head
      cases head
      exact endsSection_of_isSeparator takes.stands.closes
    | cons first rest =>
      rw [after] at head
      cases head
      exact holds.ended line (by rw [after]; rfl)
  rw [EntryList.scan, lines_eq_of_cutout inner,
    Cutout.findLabel?_append _ (unnamed_above_label takes holds) holds.named]
  dsimp only
  rw [Cutout.drop_below_label, takeWhile_isEntryLine_append _ ended]

/-- Putting an entry at the end of a list is putting it into the text of the section. -/
theorem insertLines_eq (takes : framing.TakesEntries comment) {cutout : Cutout} (holds : cutout.Holds comment kind.part)
    (inner : cutout.lines = framing.inner) (framed : document.lines = framing.lines) (entry : Text) :
    (document.insertLines (EntryList.scan comment framing.lines kind).insertionPoint [entry]).lines
      = (framing.withInner (cutout.withBody (withEntries comment [entry] cutout.body)).lines).lines := by
  rw [scan_eq takes holds inner]
  -- The entry goes between the entries that the text begins with and the rest of the text.
  have whole := List.takeWhile_append_dropWhile (p := isEntryLine comment) (l := cutout.body)
  have split : framing.lines
      = ((framing.above ++ framing.opening :: cutout.before) ++ cutout.label ::
          cutout.body.takeWhile (isEntryLine comment))
        ++ (cutout.body.dropWhile (isEntryLine comment) ++ (cutout.after ++ framing.closing :: framing.below)) := by
    rw [lines_eq_of_cutout inner]
    conv => lhs; rw [← whole]
    simp only [List.append_assoc, List.cons_append]
  have size : (framing.above ++ framing.opening :: cutout.before).length + 1
        + (cutout.body.takeWhile (isEntryLine comment)).length
      = ((framing.above ++ framing.opening :: cutout.before) ++ cutout.label ::
          cutout.body.takeWhile (isEntryLine comment)).length := by
    simp only [List.length_append, List.length_cons]
    omega
  simp only [Document.insertLines, EntryList.insertionPoint, framed, size]
  rw [split, List.take_left, List.drop_left]
  simp only [lines, header, Cutout.lines, Cutout.withBody, withInner, withEntries, List.append_assoc,
    List.cons_append, List.nil_append]

/-- The sections of a header with one more entry. -/
theorem sectionText?_withBody {cutout : Cutout} (holds : cutout.Holds comment kind.part) {entry : Text}
    (inside : endsSection comment entry = false) (other : EntryKind) :
    sectionText? comment other.part (cutout.withBody (withEntries comment [entry] cutout.body)).lines
      = (sectionText? comment other.part cutout.lines).map
          (withEntries comment (if kind = other then [entry] else [])) := by
  have bodyInside : ∀ line ∈ withEntries comment [entry] cutout.body, endsSection comment line = false := by
    intro line member
    rcases mem_withEntries.mp member with member | member
    · rw [List.mem_singleton.mp member]
      exact inside
    · exact holds.inside line member
  by_cases same : kind = other
  · subst same
    rw [(holds.withBody bodyInside).sectionText?_eq, holds.sectionText?_eq, if_pos rfl]
    rfl
  · have different : other.part ≠ kind.part := fun equal => same (EntryKind.eq_of_part_eq equal).symm
    rw [holds.sectionText?_withBody_other different bodyInside, if_neg same]
    rw [withEntries_nil, Option.map_id]
    rfl

/-- A header that has taken an entry takes another one. -/
theorem TakesEntries.withBody (takes : framing.TakesEntries comment) {cutout : Cutout}
    (holds : cutout.Holds comment kind.part) (inner : cutout.lines = framing.inner) {entry : Text}
    (written : IsWritten comment entry) :
    (framing.withInner (cutout.withBody (withEntries comment [entry] cutout.body)).lines).TakesEntries comment := by
  have stands := takes.stands
  refine ⟨⟨stands.clearAbove, stands.nearTop, stands.opens, ?_, stands.closes, stands.apart⟩,
    takes.unnamedAbove, ?_⟩
  · intro line member
    have commented : isHeaderLine comment entry = true := by
      have listed := written.listed
      simp only [isEntryLine, Bool.and_eq_true] at listed
      simp [isHeaderLine, listed.1.1]
    simp only [withInner, Cutout.lines, Cutout.withBody, List.mem_append, List.mem_cons, mem_withEntries,
      List.not_mem_nil, or_false] at member
    -- All lines but the entry stood between the rules before.
    have old : line = entry ∨ line ∈ framing.inner := by
      simp only [← inner, Cutout.lines, List.mem_append, List.mem_cons]
      grind
    rcases old with rfl | old
    · exact commented
    · exact stands.headerLines line old
  · intro other
    have labelled := takes.labelled other
    simp only [withInner]
    rw [sectionText?_withBody holds written.inside, Option.isSome_map, inner]
    exact labelled

/-- Adding an entry puts it into the text of its section, and leaves the others alone. -/
theorem TakesEntries.addEntry (takes : framing.TakesEntries comment) (framed : document.lines = framing.lines)
    {setting : Setting} (builtIn : setting.engine.templates = .builtin) (token : setting.comment = comment)
    (kind : EntryKind) :
    let entry := setting.engine.insertEntry setting.config setting.context document kind
    IsWritten comment entry.text ∧
      ∃ inner, (entry.apply document).lines = (framing.withInner inner).lines ∧
        (framing.withInner inner).TakesEntries comment ∧ inner.length = framing.inner.length + 1 ∧
        ∀ other : EntryKind, sectionText? comment other.part inner
          = (sectionText? comment other.part framing.inner).map
              (withEntries comment (if kind = other then [entry.text] else [])) := by
  obtain ⟨⟨templates, now⟩, config, context⟩ := setting
  cases builtIn
  subst token
  intro entry
  have written : IsWritten (commentOf config context) entry.text :=
    Engine.isWritten_entryText (beginsVisibly_of_isCommentRule takes.stands.opens) _ kind
  -- The section of the list, cut out of the lines between the rules.
  obtain ⟨text, found⟩ := Option.isSome_iff_exists.mp (takes.labelled kind)
  obtain ⟨cutout, holds, inner, -⟩ := Cutout.exists_of_sectionText? found
  refine ⟨written, (cutout.withBody (withEntries _ [entry.text] cutout.body)).lines, ?_,
    takes.withBody holds inner written, ?_, ?_⟩
  · have placed := insertLines_eq takes holds inner framed entry.text
    rw [← framed] at placed
    exact placed
  · simp only [← inner, Cutout.lines, Cutout.withBody, List.length_append, List.length_cons, length_withEntries,
      List.length_nil]
    omega
  · intro other
    rw [← inner]
    exact sectionText?_withBody holds written.inside other

end Framing

/-! ## Many entries -/

def addEntries (document : Document) (steps : List (Setting × EntryKind)) : Document :=
  run document (steps.map fun step => (step.1, .addEntry step.2))

/-- The entries of one kind, in the order in which they are added. -/
def addedTexts (kind : EntryKind) (document : Document) : List (Setting × EntryKind) → List Text
  | [] => []
  | (setting, other) :: steps =>
    let entry := setting.engine.insertEntry setting.config setting.context document other
    (if other = kind then [entry.text] else []) ++ addedTexts kind (entry.apply document) steps

variable {comment : Text} {sentinels : List Text}

/-- Every entry of a run stands in its list, in the order of the run. -/
theorem Framing.TakesEntries.addEntries {framing : Framing} (takes : framing.TakesEntries comment)
    {document : Document} (framed : document.lines = framing.lines) (steps : List (Setting × EntryKind))
    (builtIn : ∀ step ∈ steps, step.1.engine.templates = .builtin ∧ step.1.comment = comment) :
    (∀ kind, ∀ entry ∈ addedTexts kind document steps, IsWritten comment entry) ∧
      ∃ inner, (addEntries document steps).lines = (framing.withInner inner).lines ∧
        (framing.withInner inner).Stands comment ∧ inner.length = framing.inner.length + steps.length ∧
        ∀ kind : EntryKind, sectionText? comment kind.part inner
          = (sectionText? comment kind.part framing.inner).map
              (withEntries comment (addedTexts kind document steps)) := by
  induction steps generalizing document framing with
  | nil =>
    refine ⟨?_, framing.inner, framed, takes.stands, rfl, ?_⟩
    · intro kind entry member
      cases member
    · intro kind
      rw [addedTexts, withEntries_nil, Option.map_id]
      rfl
  | cons step steps inductionHypothesis =>
    obtain ⟨setting, kind⟩ := step
    obtain ⟨templates, token⟩ := builtIn _ List.mem_cons_self
    -- The first entry leaves a header that takes the other ones.
    obtain ⟨written, inner, placed, takesMore, oneMore, oneText⟩ := takes.addEntry framed templates token kind
    obtain ⟨laterWritten, last, lastPlaced, stands, length, texts⟩ := inductionHypothesis takesMore placed
      fun other member => builtIn other (List.mem_cons_of_mem _ member)
    -- Other lists get nothing from the first entry.
    have added : ∀ other, ∀ entry ∈ (if kind = other then
        [(setting.engine.insertEntry setting.config setting.context document kind).text] else []),
        IsWritten comment entry := by
      intro other entry member
      split at member
      · rw [List.mem_singleton.mp member]
        exact written
      · cases member
    refine ⟨?_, last, lastPlaced, stands, ?_, ?_⟩
    · intro other entry member
      rcases List.mem_append.mp member with member | member
      · exact added other entry member
      · exact laterWritten other entry member
    · rw [length, List.length_cons]
      show inner.length + steps.length = framing.inner.length + (steps.length + 1)
      omega
    · intro other
      have text := texts other
      simp only [Framing.withInner] at text
      rw [text, oneText other, Option.map_map]
      congr 1
      funext body
      exact withEntries_withEntries _ body fun entry member => (added other entry member).listed

/-! ## The entries of a header that is rendered anew -/

/-- Whether a section keeps some entries, each once and in their order, and besides them only lines
of the text that they were added to. -/
def KeepsEntries (comment : Text) (sentinels : List Text) (part : Section) (text entries header : List Text) : Prop :=
  ∃ before after, Narrative.sectionLines comment sentinels header part = before ++ (entries ++ after) ∧
    (before ++ after).Sublist text

theorem exists_keptLines_withEntries (sentinels : List Text) {entries : List Text} (text : List Text)
    (written : ∀ entry ∈ entries, IsWritten comment entry)
    (kept : entries.filter (fun entry => !isScaffolding sentinels entry) ≠ []) :
    ∃ before after, keptLines comment sentinels (withEntries comment entries text)
        = before ++ (entries.filter (fun entry => !isScaffolding sentinels entry) ++ after) ∧
      (before ++ after).Sublist text := by
  rw [keptLines, withEntries, List.filter_append, List.filter_append]
  obtain ⟨before, after, trimmed, beforeKept, afterKept⟩ := exists_trimBlankLines_append kept
    fun entry member => (written entry (List.mem_filter.mp member).1).visible
  refine ⟨before, after, trimmed, ?_⟩
  conv => rhs; rw [← List.takeWhile_append_dropWhile (p := isEntryLine comment) (l := text)]
  exact (beforeKept.trans List.filter_sublist).append (afterKept.trans List.filter_sublist)

/-- A header that is rendered anew keeps the entries of a list that is named in it. -/
theorem keepsEntries_mergeInto {header fresh entries text : List Text} {part : Section} (undated : Undated comment)
    (above : DatedAbove comment fresh) (labelled : (sectionText? comment part fresh).isSome = true)
    (found : sectionText? comment part header = some (withEntries comment entries text))
    (written : ∀ entry ∈ entries, IsWritten comment entry)
    (kept : entries.filter (fun entry => !isScaffolding sentinels entry) ≠ []) :
    KeepsEntries comment sentinels part text (entries.filter fun entry => !isScaffolding sentinels entry)
      ((Narrative.extract comment sentinels header).mergeInto comment fresh) := by
  obtain ⟨before, after, keptEqual, rest⟩ := exists_keptLines_withEntries sentinels text written kept
  have old : (Narrative.extract comment sentinels header).lines part
      = before ++ (entries.filter (fun entry => !isScaffolding sentinels entry) ++ after) := by
    rw [Narrative.extract_lines, Narrative.sectionLines_eq, found, Option.map_some, Option.getD_some, keptEqual]
  -- An entry is neither blank nor a bare bullet, so the section has content.
  have content : (Narrative.extract comment sentinels header).hasContent comment part = true := by
    obtain ⟨entry, member⟩ := List.exists_mem_of_ne_nil _ kept
    have isWritten := written entry (List.mem_filter.mp member).1
    rw [Narrative.hasContent, old, List.any_eq_true]
    exact ⟨entry, by simp only [List.mem_append, member, true_or, or_true],
      by simp [isWritten.visible, isWritten.wordy]⟩
  refine ⟨before, after, ?_, rest⟩
  rw [Narrative.sectionLines_eq, sectionText?_mergeInto undated above, ← Narrative.sectionLines_eq,
    Narrative.sectionLines_fillSections content labelled, old]

/-! ## From insertion to update -/

variable (now : Calendar.Instant) {config : Config} {context : FileContext} {document : Document}

/-- An inserted header with a history takes entries. -/
theorem exists_takesEntries_insert (style : Template.keepsHistory config.headerStyle = true)
    (ruled : isCommentRule (commentOf config context) (ruleLine config context) = true)
    (absent : Engine.hasHeader config context document = false)
    (clear : ∀ line ∈ aboveHeader config context document.lines, endsSection (commentOf config context) line = false) :
    ∃ framing : Framing, framing.TakesEntries (commentOf config context) ∧
      (((Engine.builtin now).insert config context document).apply document).lines = framing.lines ∧
      framing.above = aboveHeader config context document.lines ∧
      framing.header = (Engine.builtin now).render config context := by
  have clearRules : NoSeparator (commentOf config context) (aboveHeader config context document.lines) := by
    intro line member
    exact (endsSection_eq_false_iff.mp (clear line member)).2
  obtain ⟨framing, stands, framed, above, header, -⟩ := Engine.exists_framing_insert now ruled absent clearRules
  refine ⟨framing, ⟨stands, ?_, ?_⟩, framed, above, header⟩
  · intro line member
    exact (endsSection_eq_false_iff.mp (clear line (above ▸ member))).1
  · intro kind
    rw [← Framing.sectionText?_header stands, header]
    exact Engine.sectionText?_render_isSome config context rfl (beginsVisibly_of_isCommentRule ruled) style kind.part

section

variable (style : Template.keepsHistory config.headerStyle = true)
  (ruled : isCommentRule (commentOf config context) (ruleLine config context) = true)
  (absent : Engine.hasHeader config context document = false)
  (clear : ∀ line ∈ aboveHeader config context document.lines, endsSection (commentOf config context) line = false)
  {steps : List (Setting × EntryKind)}
  (builtIn : ∀ step ∈ steps, step.1.engine.templates = .builtin ∧ step.1.comment = commentOf config context)

include style ruled absent clear builtIn

/-- An inserted header with its entries, between its rules. -/
theorem exists_framing_addEntries :
    let header := (Engine.builtin now).render config context
    let inserted := ((Engine.builtin now).insert config context document).apply document
    let start := headerStart config context document.lines
    ∃ framing : Framing, framing.Stands (commentOf config context) ∧
      (addEntries inserted steps).lines = framing.lines ∧
      framing.above = aboveHeader config context document.lines ∧
      inserted.lines = framing.above ++ (header ++ framing.below) ∧
      framing.bounds = ⟨start, start + header.length + steps.length - 1⟩ ∧
      framing.inner.length + 2 = header.length + steps.length ∧
      ∀ kind : EntryKind, ∃ text, sectionText? (commentOf config context) kind.part header = some text ∧
        sectionText? (commentOf config context) kind.part framing.header
          = some (withEntries (commentOf config context) (addedTexts kind inserted steps) text) ∧
        ∀ entry ∈ addedTexts kind inserted steps, IsWritten (commentOf config context) entry := by
  intro header inserted start
  obtain ⟨framing, takes, framed, above, headerEqual⟩ := exists_takesEntries_insert now style ruled absent clear
  obtain ⟨written, inner, grownFramed, stands, length, texts⟩ := takes.addEntries framed steps builtIn
  -- Every entry moves the closing rule down by one line, and no line above the header.
  have headerLength : header.length = framing.inner.length + 2 := by
    rw [← framing.header_length, headerEqual]
  have startEqual : start = framing.above.length := by
    rw [above, aboveHeader_length]
  refine ⟨framing.withInner inner, stands, grownFramed, above, ?_, ?_, ?_, ?_⟩
  · show inserted.lines = framing.above ++ (header ++ framing.below)
    rw [framed, Framing.lines, headerEqual]
  · show Bounds.mk framing.above.length (framing.above.length + inner.length + 1) = _
    rw [startEqual, headerLength, length]
    congr 1
    omega
  · show inner.length + 2 = _
    rw [headerLength, length]
    omega
  · intro kind
    obtain ⟨text, found⟩ := Option.isSome_iff_exists.mp (takes.labelled kind)
    refine ⟨text, ?_, ?_, written kind⟩
    · rw [← found, ← Framing.sectionText?_header takes.stands, headerEqual]
    · rw [Framing.sectionText?_header stands]
      show sectionText? (commentOf config context) kind.part inner = _
      rw [texts kind, found]
      rfl

/-- A header is located whole exactly as long as it fits the closing window. -/
theorem locate_addEntries_iff :
    let header := (Engine.builtin now).render config context
    let inserted := ((Engine.builtin now).insert config context document).apply document
    let start := headerStart config context document.lines
    Engine.locate config context (addEntries inserted steps)
        = some ⟨start, start + header.length + steps.length - 1⟩ ↔
      header.length + steps.length ≤ closingWindow + 1 := by
  intro header inserted start
  obtain ⟨framing, stands, framed, -, -, bounds, length, -⟩ :=
    exists_framing_addEntries now style ruled absent clear builtIn
  rw [← bounds, Engine.locate, framed, stands.locate_eq_iff, ← length]
  omega

end

/-- A header that has been inserted and has collected entries is located whole exactly as long as it
fits the closing window. It can then be rendered anew in its place, and keeps the entries. -/
theorem update_addEntries (style : Template.keepsHistory config.headerStyle = true)
    (ruled : isCommentRule (commentOf config context) (ruleLine config context) = true)
    (absent : Engine.hasHeader config context document = false)
    (clear : ∀ line ∈ aboveHeader config context document.lines, endsSection (commentOf config context) line = false)
    (steps : List (Setting × EntryKind))
    (builtIn : ∀ step ∈ steps, step.1.engine.templates = .builtin ∧ step.1.comment = commentOf config context)
    (setting : Setting) (settingBuiltIn : setting.engine.templates = .builtin)
    (token : setting.comment = commentOf config context)
    (settingStyle : Template.keepsHistory setting.config.headerStyle = true) :
    let comment := commentOf config context
    let sentinels := setting.config.extractionSentinels
    let above := aboveHeader config context document.lines
    let header := (Engine.builtin now).render config context
    let inserted := ((Engine.builtin now).insert config context document).apply document
    let grown := addEntries inserted steps
    let fresh := setting.engine.render setting.config setting.context
    let start := headerStart config context document.lines
    let whole : Bounds := ⟨start, start + header.length + steps.length - 1⟩
    (Engine.locate config context grown = some whole ↔ header.length + steps.length ≤ closingWindow + 1) ∧
      (header.length + steps.length ≤ closingWindow + 1 →
        ∃ lines below, setting.engine.update setting.config setting.context grown = .updated whole lines ∧
          inserted.lines = above ++ (header ++ below) ∧
          ((Outcome.updated whole lines).apply grown).lines = above ++ (lines ++ below) ∧
          (Undated comment → DatedAbove comment fresh → ∀ kind : EntryKind,
            let kept := (addedTexts kind inserted steps).filter fun entry => !isScaffolding sentinels entry
            kept ≠ [] → ∃ text, sectionText? comment kind.part header = some text ∧
              KeepsEntries comment sentinels kind.part text kept lines)) := by
  intro comment sentinels above header inserted grown fresh start whole
  have located := locate_addEntries_iff now style ruled absent clear builtIn
  refine ⟨located, ?_⟩
  intro fits
  obtain ⟨framing, stands, framed, aboveEqual, insertedEqual, bounds, -, texts⟩ :=
    exists_framing_addEntries now style ruled absent clear builtIn
  -- The update may have another configuration, but it sees the same rules and comments.
  have sameToken : commentOf setting.config setting.context = comment := token
  have settingLocated : Engine.locate setting.config setting.context grown = some whole := by
    rw [Engine.locate, sameToken]
    exact located.mpr fits
  have terminated : Engine.isTerminated (commentOf setting.config setting.context) grown.lines whole = true := by
    rw [sameToken, framed, show whole = framing.bounds from bounds.symm]
    exact stands.isTerminated
  refine ⟨_, framing.below, Engine.update_eq_updated settingLocated terminated, ?_, ?_, ?_⟩
  · rw [insertedEqual, aboveEqual]
  · rw [Outcome.apply, show whole = framing.bounds from bounds.symm, Framing.replaceLines_bounds grown _ framed,
      aboveEqual]
  · intro undated dated kind kept someKept
    obtain ⟨text, found, grownText, written⟩ := texts kind
    refine ⟨text, found, ?_⟩
    -- A style with a history has a place for the list, below the line of the day.
    have labelled := Engine.sectionText?_render_isSome setting.config setting.context settingBuiltIn
      (sameToken ▸ beginsVisibly_of_isCommentRule stands.opens) settingStyle kind.part
    rw [sameToken] at labelled
    rw [Engine.rewritten, sameToken, framed, show whole = framing.bounds from bounds.symm, Framing.slice_bounds]
    exact keepsEntries_mergeInto undated dated labelled grownText written someKept

/-- A standard header that has got three entries is rendered anew in the detailed style. -/
theorem update_addEntries_three :
    let context := FileContext.ofPath "rust" "/work/src/main.rs"
    let document := Document.ofLines ["=======", "// Notes", "fn main();"]
    let setting (style : HeaderStyle) : Setting :=
      ⟨Engine.builtin (0 : Int), { Config.default with headerStyle := style }, context⟩
    let inserted := ((Engine.builtin (0 : Int)).insert Config.default context document).apply document
    let steps := [(setting .standard, EntryKind.version), (setting .standard, .todo), (setting .detailed, .version)]
    let grown := addEntries inserted steps
    Engine.locate Config.default context grown = some ⟨0, 24⟩ ∧
      ∃ lines, (setting .detailed).engine.update (setting .detailed).config context grown
          = .updated ⟨0, 24⟩ lines ∧
        ∀ kind : EntryKind,
          let kept := (addedTexts kind inserted steps).filter fun entry => !isScaffolding ["<Error>"] entry
          kept ≠ [] → ∃ text,
            sectionText? "//" kind.part ((Engine.builtin (0 : Int)).render Config.default context) = some text ∧
              KeepsEntries "//" ["<Error>"] kind.part text kept lines := by
  intro context document setting inserted steps grown
  have builtIn : ∀ step ∈ steps, step.1.engine.templates = .builtin ∧ step.1.comment = commentOf Config.default context := by
    intro step member
    simp only [steps, List.mem_cons, List.not_mem_nil, or_false] at member
    rcases member with rfl | rfl | rfl <;> exact ⟨rfl, rfl⟩
  have dated : DatedAbove (commentOf Config.default context)
      ((setting .detailed).engine.render (setting .detailed).config context) := by decide +kernel
  have ruled : isCommentRule (commentOf Config.default context) (ruleLine Config.default context) = true := by
    decide +kernel
  have absent : Engine.hasHeader Config.default context document = false := by decide +kernel
  -- Whether the header is found with its entries, and what an update makes of it, is known for any entries.
  obtain ⟨located, updated⟩ := update_addEntries (0 : Int) rfl ruled absent (by decide +kernel) steps builtIn
    (setting .detailed) rfl rfl rfl
  obtain ⟨lines, below, outcome, -, -, entries⟩ := updated (by decide +kernel)
  exact ⟨located.mpr (by decide +kernel), lines, outcome, entries (by decide +kernel) dated⟩

/-- What keeps a header from being whole, or an entry from being kept: a closing rule beyond the
window, a rule or a label above the header, a day of creation that is put into a section, and an
author whose name is a sentinel, so that the entry counts as scaffolding. -/
theorem limits_of_growth :
    let engine := Engine.builtin (0 : Int)
    let program := FileContext.ofPath "rust" "/work/src/main.rs"
    let script := FileContext.ofPath "shell" "/work/run.sh"
    let inserted (config : Config) (context : FileContext) : Document :=
      (engine.insert config context (Document.ofLines [])).apply (Document.ofLines [])
    let grown (count : Nat) (config : Config) (context : FileContext) : Document :=
      addEntries (inserted config context) (List.replicate count (⟨engine, config, context⟩, .todo))
    let ruledAbove := { Config.default with shebangPerLanguage := [("shell", "!!!!")] }
    let labelledAbove := { Config.default with
      shebangPerLanguage := [("shell", "To-Do List:")], commentTokenMap := [("shell", "#!")] }
    let datedBelow := { Config.default with
      copyrightNotice := "To-Do List :", extractionSentinels := ["module", "Release"] }
    let datedAuthor := { Config.default with authorFullName := some "Created: me" }
    let unknownAuthor := { Config.default with authorFullName := some "<Error>" }
    let wary := { Config.default with extractionSentinels := ["<Error>", "module", "Release"] }
    let datedToken := { datedBelow with
      commentTokenMap := [("rust", "Created:")], extractionSentinels := ["module", "Release", "---"] }
    (∀ file ∈ [(Config.default, program), (ruledAbove, script), (labelledAbove, script), (datedToken, program)],
        isCommentRule (commentOf file.1 file.2) (ruleLine file.1 file.2) = true ∧
          Engine.hasHeader file.1 file.2 (Document.ofLines []) = false) ∧
      Engine.locate Config.default program (grown 30 Config.default program) ≠ some ⟨0, 51⟩ ∧
      Engine.locate ruledAbove script (grown 0 ruledAbove script) = some ⟨0, 22⟩ ∧
      Engine.locate labelledAbove script (grown 9 labelledAbove script) = none ∧
      (let entries := addEntries (inserted Config.default program) [(⟨engine, datedAuthor, program⟩, .todo)]
        let updated := (engine.update datedBelow program entries).apply entries
        "//      * 1970/01/01 : (ToDo#01, Created: me) Description".toList ∈ entries.lines ∧
          "//      * 1970/01/01 : (ToDo#01, Created: me) Description".toList ∉ updated.lines) ∧
      (let entries := grown 1 datedToken program
        let updated := (engine.update datedToken program entries).apply entries
        Narrative.sectionLines "Created:" datedToken.extractionSentinels updated.lines .todoList = []) ∧
      (let entries := addEntries (inserted Config.default program) [(⟨engine, unknownAuthor, program⟩, .todo)]
        let updated := (engine.update wary program entries).apply entries
        "//      * 1970/01/01 : (ToDo#01, <Error>) Description".toList ∈ entries.lines ∧
          "//      * 1970/01/01 : (ToDo#01, <Error>) Description".toList ∉ updated.lines) := by
  intro engine program script inserted grown ruledAbove labelledAbove datedBelow datedAuthor unknownAuthor wary datedToken
  refine ⟨by decide +kernel, ?_, by decide +kernel, by decide +kernel, by decide +kernel, by decide +kernel,
    by decide +kernel⟩
  -- Thirty entries are too many to be added one by one; where the closing rule stands is counted instead.
  have builtIn : ∀ step ∈ List.replicate 30 ((⟨engine, Config.default, program⟩ : Setting), EntryKind.todo),
      step.1.engine.templates = .builtin ∧ step.1.comment = commentOf Config.default program := by
    intro step member
    rw [List.eq_of_mem_replicate member]
    exact ⟨rfl, rfl⟩
  intro located
  have ruled : isCommentRule (commentOf Config.default program) (ruleLine Config.default program) = true := by
    decide +kernel
  have absent : Engine.hasHeader Config.default program (Document.ofLines []) = false := by decide +kernel
  have fits := (locate_addEntries_iff (0 : Int) rfl ruled absent (by decide +kernel) builtIn).mp located
  exact absurd fits (by decide +kernel)

end Masthead.Header
