import Masthead.Proofs.Header.Insertion
import Masthead.Proofs.Header.Outcome
import Masthead.Proofs.Header.Written

/-!
# A written header is recognised

Whether there is a header is decided by a rule within the first lines of a document, and before a
header is inserted it is checked only that it has a rule somewhere. So a header is recognised again
exactly if one of its rules comes to lie within these lines. The built-in headers have theirs near
the top; in a header that is rendered anew, nothing has been checked.
-/

namespace Masthead.Header

open Text

/-! ## The lines that are searched -/

theorem hasHeader_iff {comment : Text} {lines : List Text} :
    hasHeader comment lines = true ↔ ∃ line ∈ lines.take guardWindow, isCommentRule comment line = true := by
  rw [hasHeader, List.any_eq_true]

theorem isCommentRule_eq_false_of_isBlank {comment line : Text} (blank : isBlank line = true) :
    isCommentRule comment line = false := by
  have noHeaderLine : isHeaderLine comment line = false := isHeaderLine_eq_false_of_isBlank blank
  rw [isHeaderLine, Bool.or_eq_false_iff] at noHeaderLine
  rw [isCommentRule, noHeaderLine.2, Bool.false_and]

/-- Lines without a rule, put before others, only push these back. -/
theorem hasHeader_append {comment : Text} {above : List Text} (below : List Text)
    (unruled : ∀ line ∈ above, isCommentRule comment line = false) :
    hasHeader comment (above ++ below) = true ↔
      ∃ line ∈ below.take (guardWindow - above.length), isCommentRule comment line = true := by
  rw [hasHeader_iff, List.take_append]
  constructor
  · rintro ⟨line, member, rule⟩
    rcases List.mem_append.mp member with member | member
    · rw [unruled line (List.mem_of_mem_take member)] at rule
      cases rule
    · exact ⟨line, member, rule⟩
  · rintro ⟨line, member, rule⟩
    exact ⟨line, List.mem_append_right _ member, rule⟩

/-- A line that is searched for behind others was searched for where it stood before. -/
theorem mem_take_of_mem_take_drop {lines : List Text} {line : Text} {position count : Nat}
    (member : line ∈ (lines.drop position).take count) : line ∈ lines.take (position + count) := by
  rw [List.take_drop] at member
  exact List.mem_of_mem_drop member

namespace Engine

variable {engine : Engine} {config : Config} {context : FileContext} {document : Document}

theorem isCommentRule_eq_false_of_mem_take (absent : hasHeader config context document = false) {line : Text}
    {count : Nat} (member : line ∈ document.lines.take count) (short : count ≤ guardWindow) :
    isCommentRule (commentOf config context) line = false := by
  have unruled : ∀ line ∈ document.lines.take guardWindow, ¬ isCommentRule (commentOf config context) line = true :=
    List.any_eq_false.mp absent
  have inWindow : line ∈ document.lines.take guardWindow := by
    rw [← Nat.min_eq_left short, ← List.take_take] at member
    exact List.mem_of_mem_take member
  simpa using unruled line inWindow

/-- Below an inserted header there is no rule that would be searched for. -/
theorem isCommentRule_eq_false_of_below (absent : hasHeader config context document = false) {line : Text}
    {above : List Text} (long : (opening config context document.lines).1 ≤ above.length)
    (member : line ∈ (spacing document.lines (opening config context document.lines).1
      ++ document.lines.drop (opening config context document.lines).1).take (guardWindow - above.length)) :
    isCommentRule (commentOf config context) line = false := by
  rw [List.take_append] at member
  rcases List.mem_append.mp member with member | member
  · have inSpacing := List.mem_of_mem_take member
    unfold spacing at inSpacing
    split at inSpacing
    · exact isCommentRule_eq_false_of_isBlank (List.mem_singleton.mp inSpacing ▸ rfl)
    · cases inSpacing
  · -- What was pushed back stood within the window before.
    refine isCommentRule_eq_false_of_mem_take absent (mem_take_of_mem_take_drop member) ?_
    have room : 0 < guardWindow - above.length := by
      have some := Nat.lt_of_lt_of_le (List.length_pos_of_mem member) (List.length_take_le _ _)
      omega
    omega

theorem opening_le_aboveHeader (config : Config) (context : FileContext) (lines : List Text) :
    (opening config context lines).1 ≤ (aboveHeader config context lines).length := by
  unfold opening aboveHeader
  split
  · simp
  · exact Nat.zero_le _

/-- A header that has been put in is recognised by its own rules and by the line of the interpreter. -/
theorem hasHeader_insertLines (absent : hasHeader config context document = false) (header : List Text) :
    hasHeader config context
        (document.insertLines (opening config context document.lines).1
          ((opening config context document.lines).2 ++ header
            ++ spacing document.lines (opening config context document.lines).1)) = true ↔
      ∃ line ∈ (aboveHeader config context document.lines ++ header).take guardWindow,
        isCommentRule (commentOf config context) line = true := by
  have long : (opening config context document.lines).1
      ≤ (aboveHeader config context document.lines ++ header).length := by
    rw [List.length_append]
    exact Nat.le_trans (opening_le_aboveHeader config context document.lines) (Nat.le_add_right _ _)
  rw [hasHeader, insertLines_opening, ← List.append_assoc, hasHeader_iff, List.take_append]
  constructor
  · rintro ⟨line, member, rule⟩
    rcases List.mem_append.mp member with member | member
    · exact ⟨line, member, rule⟩
    · rw [isCommentRule_eq_false_of_below absent long member] at rule
      cases rule
  · rintro ⟨line, member, rule⟩
    exact ⟨line, List.mem_append_left _ member, rule⟩

/-- A header that takes the place of another is recognised by its own rules, or by a rule of the
document that follows. -/
theorem hasHeader_replaceLines {bounds : Bounds} (found : locate config context document = some bounds)
    (terminated : isTerminated (commentOf config context) document.lines bounds = true) (header : List Text) :
    hasHeader config context (document.replaceLines bounds.first bounds.last header) = true ↔
      ∃ line ∈ (header ++ document.lines.drop (bounds.last + 1)).take (guardWindow - bounds.first),
        isCommentRule (commentOf config context) line = true := by
  obtain ⟨ordered, within, -⟩ := of_isTerminated terminated
  obtain ⟨-, -, clear⟩ := of_locate found
  have size : (document.lines.take bounds.first).length = bounds.first := by
    rw [List.length_take]
    omega
  have unruled : ∀ line ∈ document.lines.take bounds.first, isCommentRule (commentOf config context) line = false := by
    intro line member
    rw [isCommentRule, clear line member, Bool.and_false]
  rw [hasHeader, Document.replaceLines, Nat.max_eq_right ordered, List.append_assoc, hasHeader_append _ unruled, size]

/-! ## Built-in headers -/

/-- Whether a template has a letter outside its placeholders. -/
def hasPlainLetter (template : Text) : Bool :=
  (Placeholder.pieces template).any fun
    | .plain character => isLetterly character
    | .token _ => false

theorem exists_letter_mem_fill {template : Text} (lettered : hasPlainLetter template = true) (values : Variables) :
    ∃ letter ∈ values.fill template, isLetterly letter = true := by
  obtain ⟨piece, member, isLetter⟩ := List.any_eq_true.mp lettered
  cases piece with
  | plain character => exact ⟨character, mem_fill_of_plain member, isLetter⟩
  | token name => cases isLetter

/-- Behind the token there is a letter in every line of a built-in header, but for some lines near the top
and lines like these. -/
theorem mem_take_builtinHeader_or_hasPlainLetter : ∀ style ∈ HeaderStyle.all, ∀ line ∈ Template.builtinHeader style,
    line ∈ (Template.builtinHeader style).take (guardWindow - 2) ∨
      hasPlainLetter (line.drop (Template.value "comment").length) = true := by
  decide +kernel

theorem mem_take_render_of_isCommentRule (builtIn : engine.templates = .builtin) {rule : Text}
    (member : rule ∈ engine.render config context) (isRule : isCommentRule (commentOf config context) rule = true) :
    rule ∈ (engine.render config context).take (guardWindow - 2) := by
  have listed : config.headerStyle ∈ HeaderStyle.all := by cases config.headerStyle <;> decide
  rw [eq_builtin builtIn, render_builtin] at member ⊢
  obtain ⟨template, inTemplate, rfl⟩ := List.mem_map.mp member
  rw [← List.map_take]
  rcases mem_take_builtinHeader_or_hasPlainLetter _ listed template inTemplate with near | lettered
  · exact List.mem_map_of_mem near
  · obtain ⟨rest, rfl⟩ := Template.exists_row_of_mem_builtinHeader inTemplate
    rw [Template.row, List.flatten_singleton, List.drop_left] at lettered
    obtain ⟨letter, inText, letterly⟩ := exists_letter_mem_fill lettered ((builtin engine.now).values config context)
    -- A letter behind the token makes the line no rule.
    rw [Template.fill_row (values_comment _ config context), List.flatten_singleton] at isRule
    have unruled := isSeparator_append_eq_false (beginsVisibly_of_isCommentRule isRule) inText letterly
    rw [isSeparator_of_isCommentRule isRule] at unruled
    cases unruled

/-- A built-in header that is put in is recognised, whatever stands above it. -/
theorem exists_rule_of_any_render (builtIn : engine.templates = .builtin) (lines : List Text)
    (locatable : (engine.render config context).any (isCommentRule (commentOf config context)) = true) :
    ∃ line ∈ (aboveHeader config context lines ++ engine.render config context).take guardWindow,
      isCommentRule (commentOf config context) line = true := by
  obtain ⟨rule, member, isRule⟩ := List.any_eq_true.mp locatable
  refine ⟨rule, ?_, isRule⟩
  have few : (aboveHeader config context lines).length ≤ 2 := by
    rw [aboveHeader_length]
    unfold headerStart
    split
    · exact Nat.le_refl 2
    · split <;> decide
  have near := mem_take_render_of_isCommentRule builtIn member isRule
  rw [List.take_append]
  refine List.mem_append_right _ ?_
  have wider : guardWindow - 2 ≤ guardWindow - (aboveHeader config context lines).length := by omega
  exact (List.take_prefix_take_left wider).subset near

/-! ## Every edit -/

/-- A header that has been written is recognised exactly if it has a rule within the lines that are
searched, and then it is not inserted again. The built-in templates put one there, except that an
update with a rule line that is none, or with a token that reads like a day of creation, may not. -/
theorem hasHeader_apply {edit : Outcome}
    (made : edit = engine.insert config context document ∨ edit = engine.update config context document)
    (changed : edit.isChange = true) :
    let comment := commentOf config context
    let after := edit.apply document
    let again := engine.insert config context after
    (∀ position lines notice, edit = .inserted position lines notice →
      (hasHeader config context after = true ↔
        ∃ line ∈ (aboveHeader config context document.lines ++ engine.render config context).take guardWindow,
          isCommentRule comment line = true)) ∧
    (∀ bounds lines, edit = .updated bounds lines →
      (hasHeader config context after = true ↔
        ∃ line ∈ (lines ++ document.lines.drop (bounds.last + 1)).take (guardWindow - bounds.first),
          isCommentRule comment line = true)) ∧
    (engine.templates = .builtin →
      hasHeader config context document = false ∨
          (isCommentRule comment (ruleLine config context) = true ∧ Undated comment) →
        hasHeader config context after = true) ∧
    (hasHeader config context after = true ↔ again = .skipped .alreadyPresent) ∧
    (hasHeader config context after = true → again.apply after = after) := by
  intro comment after again
  have skips : hasHeader config context after = true ↔ again = .skipped .alreadyPresent := by
    rcases insert_cases engine config context after with ⟨present, skipped⟩ | ⟨absent, ⟨-, skipped⟩ | ⟨-, inserted⟩⟩
    · exact ⟨fun _ => skipped, fun _ => present⟩
    · rw [show again = _ from skipped, absent]
      exact ⟨nofun, nofun⟩
    · rw [show again = _ from inserted, absent]
      exact ⟨nofun, nofun⟩
  have stays : hasHeader config context after = true → again.apply after = after := by
    intro present
    rw [skips.mp present]
    rfl
  rcases isChange_cases made changed with ⟨absent, locatable, notice, rfl⟩ | ⟨bounds, found, terminated, rfl⟩
  · have recognised := hasHeader_insertLines absent (engine.render config context)
    refine ⟨?_, nofun, ?_, skips, stays⟩
    · intro position lines notice _
      exact recognised
    · intro builtIn _
      exact recognised.mpr (exists_rule_of_any_render builtIn document.lines locatable)
  · have recognised := hasHeader_replaceLines found terminated (engine.rewritten config context document bounds)
    refine ⟨nofun, ?_, ?_, skips, stays⟩
    · rintro _ _ ⟨⟩
      exact recognised
    · intro builtIn condition
      obtain ⟨present, nearTop, -⟩ := of_locate found
      rcases condition with absent | ⟨ruled, undated⟩
      · rw [hasHeader, present] at absent
        cases absent
      -- The rule that opens the new header stands where the old one began.
      obtain ⟨inner, rendered, -⟩ := exists_render_inner engine.now config context
      obtain ⟨others, equal⟩ : ∃ others, engine.rewritten config context document bounds
          = ruleLine config context :: (others ++ [ruleLine config context]) := by
        rw [rewritten, eq_builtin builtIn, rendered]
        exact Narrative.exists_inner_mergeInto (isSeparator_of_isCommentRule ruled) fun _ => undated
      refine recognised.mpr ⟨ruleLine config context, ?_, ruled⟩
      have room : 0 < guardWindow - bounds.first := by
        have windows : openingWindow < guardWindow := by decide
        omega
      obtain ⟨count, size⟩ := Nat.exists_eq_succ_of_ne_zero (Nat.ne_of_gt room)
      rw [equal, List.cons_append, size, List.take_succ_cons]
      exact List.mem_cons_self

/-- A header that was written by hand is rendered anew, and recognised. -/
theorem hasHeader_apply_anew :
    let context := FileContext.ofPath "rust" "/work/src/main.rs"
    let document := Document.ofLines ["//----", "// Notes", "//----", "fn main();"]
    let edit := (builtin (0 : Int)).update Config.default context document
    edit.isChange = true ∧
      isCommentRule "//" (ruleLine Config.default context) = true ∧ Undated "//" ∧
      hasHeader Config.default context (edit.apply document) = true ∧
      (builtin (0 : Int)).insert Config.default context (edit.apply document) = .skipped .alreadyPresent := by
  intro context document edit
  have changed : edit.isChange = true := by decide +kernel
  have ruled : isCommentRule "//" (ruleLine Config.default context) = true := by decide +kernel
  have undated : Undated "//" := by decide +kernel
  obtain ⟨-, -, recognised, skips, -⟩ := hasHeader_apply (.inr rfl) changed
  have present := recognised rfl (.inr ⟨ruled, undated⟩)
  exact ⟨changed, ruled, undated, present, skips.mp present⟩

/-- With letters for the signs of a rule, an update replaces a header by one that is none, and a
template whose only rule is its last line gives one that is not found. Either is inserted again. -/
theorem not_hasHeader_apply :
    let context := FileContext.ofPath "rust" "/work/src/main.rs"
    let lettered := { Config.default with separatorChar := 'x' }
    let headed := Document.ofLines ["//----", "// Notes", "//----", "fn main();"]
    let renewed := (builtin (0 : Int)).update lettered context headed
    let closedOnly : Engine :=
      ⟨⟨[("standard", List.replicate 20 (Template.row [" a"]) ++ [Template.rule])], [], []⟩, (0 : Int)⟩
    let code := Document.ofLines ["fn main();"]
    let inserted := closedOnly.insert Config.default context code
    (renewed.isChange = true ∧ hasHeader lettered context (renewed.apply headed) = false ∧
        (builtin (0 : Int)).insert lettered context (renewed.apply headed) ≠ .skipped .alreadyPresent) ∧
      inserted.isChange = true ∧ hasHeader Config.default context (inserted.apply code) = false ∧
        (closedOnly.insert Config.default context (inserted.apply code)).isChange = true := by
  decide +kernel

end Engine

end Masthead.Header
