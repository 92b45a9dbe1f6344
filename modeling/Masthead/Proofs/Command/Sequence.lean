import Masthead.Command.Job
import Masthead.Proofs.Document.Edits
import Masthead.Proofs.Header.Bounds
import Masthead.Proofs.Header.Written

/-!
# Operations through the file

Between two operations a file is written and read again. That makes no difference: a text whose
carriage returns all belong to terminators is read as a document that its own text gives back, and
every operation with the built-in templates leaves it one. Only where nothing is done at all does
writing still unify the terminators.
-/

namespace Masthead.Command

open Masthead.Header Masthead.Document Text

section

variable {engine : Engine} {config : Config} {context : FileContext} {document : Document}
  (builtIn : engine.templates = .builtin) (configUnbroken : ∀ text ∈ config.texts, Unbroken text)
  (contextUnbroken : ∀ text ∈ context.texts, Unbroken text) (wellFormed : document.WellFormed)

include builtIn configUnbroken contextUnbroken wellFormed

theorem wellFormed_insert : ((engine.insert config context document).apply document).WellFormed := by
  rcases Engine.insert_cases engine config context document with ⟨-, skipped⟩ | ⟨-, ⟨-, skipped⟩ | ⟨ruled, inserted⟩⟩
  · rw [skipped]
    exact wellFormed
  · rw [skipped]
    exact wellFormed
  · obtain ⟨rule, inHeader, isRule⟩ := List.any_eq_true.mp ruled
    have header := Engine.isWritable_render builtIn configUnbroken contextUnbroken (beginsVisibly_of_isCommentRule isRule)
    rw [inserted]
    apply wellFormed.insertLines
    · intro line member
      simp only [List.mem_append] at member
      rcases member with (member | member) | member
      · exact Engine.unbroken_opening configUnbroken _ line member
      · exact (header line member).1
      · unfold Engine.spacing at member
        split at member
        · rw [List.mem_singleton.mp member]
          decide
        · cases member
    · -- At the end of the document nothing follows, so the header's closing rule is the last line.
      intro atEnd
      have noSpacing : Engine.spacing document.lines (Engine.opening config context document.lines).1 = [] := by
        rw [Engine.spacing, List.getElem?_eq_none atEnd]
        rfl
      right
      rw [noSpacing, List.append_nil]
      exact (endsShown_of_forall (List.ne_nil_of_mem inHeader) fun line member => (header line member).2).append _

theorem wellFormed_update : ((engine.update config context document).apply document).WellFormed := by
  rcases Engine.update_cases engine config context document with
    ⟨-, asInsert⟩ | ⟨-, -, skipped⟩ | ⟨bounds, found, ⟨terminated, updated⟩ | ⟨-, skipped⟩⟩
  · rw [asInsert, Engine.apply_asUpdate]
    exact wellFormed_insert builtIn configUnbroken contextUnbroken wellFormed
  · rw [skipped]
    exact wellFormed
  · have visible := Engine.beginsVisibly_of_hasHeader (Engine.hasHeader_of_locate found)
    have fresh := Engine.isWritable_render builtIn configUnbroken contextUnbroken visible
    -- A line of a header is not empty, since a blank line is none.
    have oldShown : ∀ line ∈ bounds.slice document.lines, line ≠ [] := by
      obtain ⟨-, -, headerLines⟩ := Engine.of_isTerminated terminated
      rintro _ member rfl
      have headerLine := headerLines [] member
      rw [isHeaderLine_eq_false_of_isBlank rfl] at headerLine
      cases headerLine
    have long : 1 < (engine.render config context).length := by
      obtain ⟨inner, rendered, -⟩ := Engine.exists_render_inner engine.now config context
      rw [Engine.eq_builtin builtIn, rendered]
      simp
    rw [updated]
    apply wellFormed.replaceLines
    · refine Narrative.unbroken_mergeInto ?_ fun line member => (fresh line member).1
      exact fun line member => wellFormed.unbroken line (List.mem_of_mem_take (List.mem_of_mem_drop member))
    · exact Narrative.shown_mergeInto oldShown fun line member => (fresh line member).2
    · exact Narrative.one_lt_length_mergeInto long
  · rw [skipped]
    exact wellFormed

theorem wellFormed_insertEntry (kind : EntryKind) :
    ((engine.insertEntry config context document kind).apply document).WellFormed := by
  have written := Engine.isWritable_entryText builtIn configUnbroken contextUnbroken
    (EntryList.scan (commentOf config context) document.lines kind) kind
  apply wellFormed.insertLines
  · intro line member
    rw [List.mem_singleton.mp member]
    exact written.1
  · intro _
    exact .inr ⟨_, rfl, written.2⟩

omit builtIn

theorem wellFormed_refresh {changes : List LineChange} (refreshed : engine.refresh config context document = some changes) :
    (applyLineChanges document changes).WellFormed := by
  have written : ∀ change ∈ changes, IsWritable change.text := by
    obtain ⟨bounds, -, changed⟩ := Option.bind_eq_some_iff.mp refreshed
    dsimp only at changed
    split at changed
    · cases changed
    · cases changed
      exact isWritable_refreshChanges wellFormed.unbroken (Engine.unbroken_fieldValues configUnbroken contextUnbroken)
  -- From here on the changes may be any whose texts are writable, put in one after the other.
  clear refreshed
  unfold applyLineChanges
  induction changes generalizing document with
  | nil => exact wellFormed
  | cons change changes inductionHypothesis =>
    obtain ⟨unbroken, shown⟩ := written change List.mem_cons_self
    exact inductionHypothesis (wellFormed.setLine _ unbroken shown) fun other member =>
      written other (List.mem_cons_of_mem _ member)

end

/-! ## Sequences -/

/-- What an operation makes of a document. -/
def edited (document : Document) (step : Job × FileContext) : Document :=
  (step.1.edit step.2 document).2.2

/-- What an operation makes of a text, which is read before and written afterwards. -/
def rewritten (text : Text) (step : Job × FileContext) : Text :=
  (edited (Document.parse text) step).toText

/-- Whether a step takes its lines from the built-in templates, and no terminator from anywhere. -/
structure IsPlain (step : Job × FileContext) : Prop where
  builtIn : step.1.engine.templates = .builtin
  configUnbroken : ∀ text ∈ step.1.config.texts, Unbroken text
  contextUnbroken : ∀ text ∈ step.2.texts, Unbroken text

theorem wellFormed_edited {document : Document} (wellFormed : document.WellFormed) {step : Job × FileContext}
    (plain : IsPlain step) : (edited document step).WellFormed := by
  obtain ⟨job, context⟩ := step
  obtain ⟨builtIn, configUnbroken, contextUnbroken⟩ := plain
  unfold edited Job.edit
  dsimp only
  -- Each operation is one edit of the document, or none.
  cases job.operation with
  | check =>
    dsimp only
    split <;> exact wellFormed
  | insert => exact wellFormed_insert builtIn configUnbroken contextUnbroken wellFormed
  | update => exact wellFormed_update builtIn configUnbroken contextUnbroken wellFormed
  | refresh =>
    dsimp only
    split
    · next refreshed => exact wellFormed_refresh configUnbroken contextUnbroken wellFormed refreshed
    · split <;> exact wellFormed
  | version => exact wellFormed_insertEntry builtIn configUnbroken contextUnbroken wellFormed _
  | todo => exact wellFormed_insertEntry builtIn configUnbroken contextUnbroken wellFormed _

theorem foldl_rewritten {steps : List (Job × FileContext)} {document : Document} (wellFormed : document.WellFormed)
    (plain : ∀ step ∈ steps, IsPlain step) :
    steps.foldl rewritten document.toText = (steps.foldl edited document).toText := by
  induction steps generalizing document with
  | nil => rfl
  | cons step steps inductionHypothesis =>
    have next := wellFormed_edited wellFormed (plain step List.mem_cons_self)
    rw [List.foldl_cons, List.foldl_cons, rewritten, parse_toText wellFormed]
    exact inductionHypothesis next fun other member => plain other (List.mem_cons_of_mem _ member)

/-- Operations that go through the file one after the other give the same text as all of them on one
document, unless there are none and the text mixes its terminators. -/
theorem foldl_rewritten_eq_iff {text : Text} {steps : List (Job × FileContext)} (fed : ReturnsFed text)
    (plain : ∀ step ∈ steps, IsPlain step) :
    steps.foldl rewritten text = (steps.foldl edited (Document.parse text)).toText ↔
      steps ≠ [] ∨ ∃ ending : LineEnding, ending.UsedThroughout text := by
  cases steps with
  | nil =>
    simp only [List.foldl_nil, ne_eq, not_true_eq_false, false_or]
    rw [eq_comm, toText_parse_eq_iff, and_iff_right fed.getLast?_ne]
  | cons step steps =>
    have next := wellFormed_edited (wellFormed_parse fed) (plain step List.mem_cons_self)
    have same := foldl_rewritten next fun other member => plain other (List.mem_cons_of_mem _ member)
    rw [List.foldl_cons, List.foldl_cons, rewritten, same]
    simp

/-- A text with two terminators whose header is inserted, gets entries, and is rendered anew. -/
theorem foldl_rewritten_mixed :
    let context := FileContext.ofPath "rust" "/work/src/main.rs"
    let step (operation : Operation) (style : HeaderStyle) : Job × FileContext :=
      (⟨operation, Engine.builtin (0 : Int), { Config.default with headerStyle := style }, none, [], [], false, false,
        none, false⟩, context)
    let steps := [step .insert .standard, step .version .standard, step .update .detailed, step .todo .detailed,
      step .refresh .detailed]
    let text : Text := "use std;\r\nfn main();\n"
    ReturnsFed text ∧ (∀ step ∈ steps, IsPlain step) ∧
      steps.foldl rewritten text = (steps.foldl edited (Document.parse text)).toText := by
  intro context step steps text
  have fed : ReturnsFed text := by decide
  have configUnbroken : ∀ text ∈ Config.default.texts, Unbroken text := by decide +kernel
  have contextUnbroken : ∀ text ∈ context.texts, Unbroken text := by decide +kernel
  have plain : ∀ step ∈ steps, IsPlain step := by
    intro step member
    simp only [steps, List.mem_cons, List.not_mem_nil, or_false] at member
    rcases member with rfl | rfl | rfl | rfl | rfl <;> exact ⟨rfl, configUnbroken, contextUnbroken⟩
  exact ⟨fed, plain, (foldl_rewritten_eq_iff fed plain).mpr (.inl (List.cons_ne_nil _ _))⟩

/-- Nothing is done to the same text: it stays as it is, but its document gives it one terminator. -/
theorem foldl_rewritten_nil :
    let text : Text := "use std;\r\nfn main();\n"
    ReturnsFed text ∧ [].foldl rewritten text = text ∧
      ([].foldl edited (Document.parse text)).toText = "use std;\r\nfn main();\r\n" := by
  decide

end Masthead.Command
