import Masthead.Proofs.Header.Changes
import Masthead.Proofs.Header.Renewal
import Masthead.Proofs.Header.Run
import Masthead.Proofs.Variables

/-!
# Refreshing

A refresh repairs the labels of the first lines and renews the fields of the header. It touches no
other line. Neither pass moves the bounds of the header, repaired labels stay repaired, and a field
is renewed behind the same head whatever its value is, so that of two refreshes the second counts.
-/

namespace Masthead.Header

open Text

/-! ## The document after a refresh -/

theorem applyLineChanges_eq (document : Document) (changes : List LineChange) :
    applyLineChanges document changes = { document with lines := applyChanges changes document.lines } := by
  unfold applyLineChanges applyChanges
  induction changes generalizing document with
  | nil => rfl
  | cons change changes inductionHypothesis =>
    rw [List.foldl_cons, List.foldl_cons, inductionHypothesis]
    rfl

theorem repairing_eq_none {position : Nat} {line : Text} (single : position < repairWindow → ¬ RepeatsLabel line) :
    repairing position line = none := by
  rw [repairing]
  split
  · next within => exact repairLine?_eq_none_iff.mpr (single within)
  · rfl

namespace Setting

/-- The document after a refresh. -/
def refresh (setting : Setting) (document : Document) : Document :=
  applyLineChanges document ((setting.engine.refresh setting.config setting.context document).getD [])

/-- Whether the configuration wants a field renewed. -/
def enabled (setting : Setting) (field : VolatileField) : Bool :=
  field.isEnabled setting.config

/-- The value that a field is given. -/
def fieldValue (setting : Setting) (field : VolatileField) : Text :=
  field.value (setting.engine.values setting.config setting.context)

/-- The rewriting of a header within bounds. -/
def rewriting (setting : Setting) (bounds : Bounds) : Rewriting :=
  refreshing setting.comment (enabledFields setting.enabled setting.fieldValue) bounds

variable {setting : Setting} {document : Document} {bounds : Bounds}

/-- A refresh lists the changes that the rewriting within the located bounds makes. -/
theorem lists_refresh (located : Engine.locate setting.config setting.context document = some bounds) :
    Lists (setting.rewriting bounds) document.lines
      ((setting.engine.refresh setting.config setting.context document).getD []) := by
  have lists := lists_refreshChanges setting.comment (enabledFields setting.enabled setting.fieldValue) bounds document.lines
  have changesEqual : (setting.engine.refresh setting.config setting.context document).getD []
      = refreshChanges setting.comment (enabledFields setting.enabled setting.fieldValue) bounds document.lines := by
    rw [Engine.refresh, located, Option.bind_some]
    dsimp only
    split
    · next empty => exact (List.isEmpty_iff.mp empty).symm
    · rfl
  rw [changesEqual]
  exact lists

theorem refresh_eq_none_iff (located : Engine.locate setting.config setting.context document = some bounds) :
    setting.engine.refresh setting.config setting.context document = none ↔
      ∀ position line, document.lines[position]? = some line → setting.rewriting bounds position line = none := by
  rw [← (lists_refresh located).eq_nil_iff, Engine.refresh, located, Option.bind_some]
  dsimp only
  split
  · simp
  · next nonempty => simpa using nonempty

theorem getElem?_refresh (located : Engine.locate setting.config setting.context document = some bounds) (position : Nat) :
    (setting.refresh document).lines[position]?
      = document.lines[position]?.map ((setting.rewriting bounds).apply position) := by
  rw [refresh, applyLineChanges_eq]
  exact (lists_refresh located).getElem?_applyChanges position

theorem refresh_eq_self (missing : Engine.locate setting.config setting.context document = none) :
    setting.refresh document = document := by
  rw [refresh, Engine.refresh, missing]
  rfl

theorem refresh_with_lines (setting : Setting) (document : Document) :
    setting.refresh document = { document with lines := (setting.refresh document).lines } := by
  rw [refresh, applyLineChanges_eq]

/-! ## What a refresh touches -/

/-- Whether a text is the line with a field renewed: within bounds a comment, once its labels are repaired, begins
with the label of a field that is wanted, and the value behind the label's colon is replaced. -/
def Renews (setting : Setting) (bounds : Bounds) (position : Nat) (line text : Text) : Prop :=
  bounds.holds position = true ∧ ∃ field cut, setting.enabled field = true ∧
    field.matchesLine setting.comment (repairing.apply position line) = true ∧
    field.shape.cut? (repairing.apply position line) = some cut ∧ text = cut.head ++ setting.fieldValue field

theorem renews_of_renewing {position : Nat} {line text : Text}
    (renewed : renewing setting.comment (enabledFields setting.enabled setting.fieldValue) bounds position
      (repairing.apply position line) = some text) : setting.Renews bounds position line text := by
  rw [renewing] at renewed
  split at renewed
  · next within =>
    rw [refreshLine?, findSome?_renew?, Option.filter_eq_some_iff, Option.map_eq_some_iff] at renewed
    obtain ⟨⟨⟨field, head⟩, found, rfl⟩, -⟩ := renewed
    obtain ⟨wanted, carried, cut, cutFound, rfl⟩ := carried?_eq_some_iff.mp found
    exact ⟨within, field, cut, wanted, carried, cutFound, rfl⟩
  · cases renewed

/-- A refresh writes the lines of volatile fields within the header, and the lines near the top that have a label to
be repaired. What it makes of the latter is told for comment lines only. A line that is no comment and has such a label
is repaired as well; what becomes of it is left open on purpose, since a refresh is not meant to touch such lines. -/
theorem frame_refresh (located : Engine.locate setting.config setting.context document = some bounds) :
    (∀ change ∈ (setting.engine.refresh setting.config setting.context document).getD [],
        ∃ line, document.lines[change.line]? = some line ∧
          (setting.Renews bounds change.line line change.text ∨ change.line < repairWindow ∧ RepeatsLabel line ∧
            (isCommentLine setting.comment line = true → repairLine? line = some change.text))) ∧
      (setting.refresh document).lines.length = document.lines.length ∧
      ∀ position line, document.lines[position]? = some line → (∀ text, ¬ setting.Renews bounds position line text) →
        ¬ (position < repairWindow ∧ RepeatsLabel line) → (setting.refresh document).lines[position]? = some line := by
  refine ⟨?_, ?_, ?_⟩
  · intro change member
    obtain ⟨line, found, written⟩ := ((lists_refresh located).mem_iff change).mp member
    refine ⟨line, found, ?_⟩
    rw [rewriting, refreshing, Rewriting.andThen, Option.or_eq_some_iff] at written
    -- A line has been renewed, repaired or not, or it has been repaired only.
    rcases written with renewed | ⟨-, repaired⟩
    · exact .inl (renews_of_renewing renewed)
    · rw [repairing] at repaired
      split at repaired
      · next within => exact .inr ⟨within, repairLine?_isSome_iff.mp (by rw [repaired]; rfl), fun _ => repaired⟩
      · cases repaired
  · rw [refresh, applyLineChanges_eq, length_applyChanges]
  · intro position line found untitled single
    have unrepaired : repairing position line = none :=
      repairing_eq_none fun within repeats => single ⟨within, repeats⟩
    have unrenewed : renewing setting.comment (enabledFields setting.enabled setting.fieldValue) bounds position
        (repairing.apply position line) = none :=
      Option.eq_none_iff_forall_ne_some.mpr fun text renewed => untitled text (renews_of_renewing renewed)
    rw [getElem?_refresh located, found, Option.map_some, Rewriting.apply, rewriting, refreshing, Rewriting.andThen,
      unrenewed, unrepaired]
    rfl

/-- A field gets its value, and a line of the description stays. -/
theorem frame_refresh_described :
    let setting : Setting := ⟨⟨.builtin, (0 : Int)⟩, Config.default, FileContext.ofPath "rust" "/work/src/main.rs"⟩
    let document := Document.ofLines
      ["//----", "// Last Last Updated : never", "// Description :", "//   Written by hand", "//----", "fn main();"]
    Engine.locate setting.config setting.context document = some ⟨0, 4⟩ ∧
      (setting.refresh document).lines[1]? = some "// Last Updated : 1970-01-01 00:00:00 (by unknown)".toList ∧
      (setting.refresh document).lines[3]? = some "//   Written by hand".toList := by
  intro setting document
  have located : Engine.locate setting.config setting.context document = some ⟨0, 4⟩ := by decide +kernel
  have renewed : (setting.refresh document).lines[1]? = some "// Last Updated : 1970-01-01 00:00:00 (by unknown)".toList := by
    rw [getElem?_refresh located]
    decide +kernel
  refine ⟨located, renewed, (frame_refresh located).2.2 3 _ rfl ?_ (by decide +kernel)⟩
  rintro text ⟨-, field, -, -, carried, -⟩
  have foreign : ∀ field : VolatileField,
      field.matchesLine setting.comment (repairing.apply 3 "//   Written by hand".toList) = false := by
    intro field
    cases field <;> decide +kernel
  rw [foreign field] at carried
  cases carried

/-- A description with fields in it, and a label to be repaired below the header. -/
theorem limits_of_refresh :
    let context := { FileContext.ofPath "rust" "/work/src/main.rs" with userName := "kim" }
    let setting : Setting := ⟨⟨.builtin, (0 : Int)⟩, Config.default, context⟩
    let document := Document.ofLines
      ["//----", "// Last Updated  : old", "// Description :", "//   Updated : weekly", "//   Last Last Updated : never",
        "//----", "", "fn main();", "// Last Last Updated : below"]
    let changes := (setting.engine.refresh setting.config setting.context document).getD []
    Engine.locate setting.config setting.context document = some ⟨0, 5⟩ ∧
      sectionBody? setting.comment (Bounds.slice ⟨0, 5⟩ document.lines) .description = some ⟨3, 5⟩ ∧
      ∀ position ∈ [3, 4, 8], ∃ change ∈ changes, change.line = position := by
  intro context setting document changes
  have located : Engine.locate setting.config setting.context document = some ⟨0, 5⟩ := by decide +kernel
  have rewritten : ∀ position ∈ [3, 4, 8],
      (document.lines[position]?.bind (setting.rewriting ⟨0, 5⟩ position)).isSome = true := by decide +kernel
  refine ⟨located, by decide +kernel, fun position member => ?_⟩
  obtain ⟨text, written⟩ := Option.isSome_iff_exists.mp (rewritten position member)
  obtain ⟨line, found, changed⟩ := Option.bind_eq_some_iff.mp written
  exact ⟨⟨position, text⟩, ((lists_refresh located).mem_iff _).mpr ⟨line, found, changed⟩, rfl⟩

end Setting

/-! ## One line -/

section Lines

variable {comment : Text} {enabled : VolatileField → Bool} {values : VolatileField → Text} {bounds : Bounds}

theorem not_repeatsLabel_repairing {position : Nat} (within : position < repairWindow) (line : Text) :
    ¬ RepeatsLabel (repairing.apply position line) := by
  rw [Rewriting.apply, repairing, if_pos within]
  cases found : repairLine? line with
  | none => exact repairLine?_eq_none_iff.mp found
  | some repaired => exact repairLine?_eq_none_iff.mp (repairLine?_repaired found)

theorem standing_repairing (wordless : Wordless comment) (position : Nat) (line : Text) :
    standing comment (repairing.apply position line) = standing comment line := by
  rw [Rewriting.apply, repairing]
  split
  · cases found : repairLine? line with
    | none => rfl
    | some repaired => exact standing_repaired wordless found
  · rfl

theorem refreshing_apply (comment : Text) (fields : FieldValues) (bounds : Bounds) (position : Nat) (line : Text) :
    (refreshing comment fields bounds).apply position line
      = (renewing comment fields bounds).apply position (repairing.apply position line) :=
  Rewriting.apply_andThen _ _ _ _

theorem renewing_apply (position : Nat) (line : Text) :
    (renewing comment (enabledFields enabled values) bounds).apply position line
      = if bounds.holds position then renewedLine comment enabled values line else line := by
  rw [Rewriting.apply, renewing]
  split
  · exact refreshLine?_getD comment enabled values line
  · rfl

/-- A line of which no renewal is left is not listed. -/
theorem renewing_eq_none {position : Nat} {line : Text}
    (settled : (renewing comment (enabledFields enabled values) bounds).apply position line = line) :
    renewing comment (enabledFields enabled values) bounds position line = none := by
  cases found : renewing comment (enabledFields enabled values) bounds position line with
  | none => rfl
  | some text =>
    rw [Rewriting.apply, found, Option.getD_some] at settled
    rw [renewing] at found
    split at found
    · rw [refreshLine?, Option.filter_eq_some_iff] at found
      exact absurd settled (by simpa using found.2)
    · cases found

/-- After a refresh there is no label to be repaired again. -/
theorem repairing_refreshing_eq_none (plain : ∀ field, ¬ HasWord "Last" (values field)) (position : Nat) (line : Text) :
    repairing position ((refreshing comment (enabledFields enabled values) bounds).apply position line) = none := by
  apply repairing_eq_none
  intro within
  have single := not_repeatsLabel_repairing within line
  rw [refreshing_apply, renewing_apply]
  split
  · exact not_repeatsLabel_renewedLine single plain
  · exact single

theorem standing_refreshing (wordless : Wordless comment) (position : Nat) (line : Text) :
    standing comment ((refreshing comment (enabledFields enabled values) bounds).apply position line)
      = standing comment line := by
  rw [refreshing_apply, renewing_apply]
  split
  · rw [standing_renewedLine wordless, standing_repairing wordless]
  · exact standing_repairing wordless position line

/-- Of two refreshes of a line the second counts. -/
theorem refreshing_refreshing (wordless : Wordless comment) (reads : ∀ field : VolatileField, field.Reads (values field))
    (plain : ∀ field, ¬ HasWord "Last" (values field)) (enabled : VolatileField → Bool) (others : VolatileField → Text)
    (bounds : Bounds) (position : Nat) (line : Text) :
    (refreshing comment (enabledFields enabled others) bounds).apply position
        ((refreshing comment (enabledFields enabled values) bounds).apply position line)
      = (refreshing comment (enabledFields enabled others) bounds).apply position line := by
  have repaired : repairing.apply position ((refreshing comment (enabledFields enabled values) bounds).apply position line)
      = (refreshing comment (enabledFields enabled values) bounds).apply position line := by
    rw [Rewriting.apply, repairing_refreshing_eq_none plain, Option.getD_none]
  rw [refreshing_apply comment (enabledFields enabled others), repaired]
  simp only [refreshing_apply, renewing_apply]
  split
  · exact renewedLine_renewedLine wordless reads others _
  · rfl

/-- A refreshed line is not refreshed again with the same values. -/
theorem refreshing_refreshing_eq_none (wordless : Wordless comment)
    (reads : ∀ field : VolatileField, field.Reads (values field))
    (plain : ∀ field, ¬ HasWord "Last" (values field)) (position : Nat) (line : Text) :
    refreshing comment (enabledFields enabled values) bounds position
      ((refreshing comment (enabledFields enabled values) bounds).apply position line) = none := by
  have single : repairing position ((refreshing comment (enabledFields enabled values) bounds).apply position line) = none :=
    repairing_refreshing_eq_none plain position line
  have again := refreshing_refreshing wordless reads plain enabled values bounds position line
  generalize (refreshing comment (enabledFields enabled values) bounds).apply position line = refreshed at single again ⊢
  have repaired : repairing.apply position refreshed = refreshed := by
    rw [Rewriting.apply, single, Option.getD_none]
  rw [refreshing_apply, repaired] at again
  rw [refreshing, Rewriting.andThen, repaired, single, renewing_eq_none again]
  rfl

end Lines

/-! ## Values of the fields -/

/-- Whether the names that values are made from are single lines, have no word of a label in them, and do not
begin with a gap. -/
structure Setting.NamesPlainly (setting : Setting) : Prop where
  userOneLine : '\n' ∉ setting.context.userName
  userPlain : ¬ HasWord "Last" setting.context.userName
  editorOneLine : '\n' ∉ setting.config.editorName
  editorPlain : ¬ HasWord "Last" setting.config.editorName
  editorBegins : setting.config.editorName.head? ≠ some ' ' ∧ setting.config.editorName.head? ≠ some '\t'

theorem HasWord.mem {word text : Text} (has : HasWord word text) {letter : Char} (member : letter ∈ word) :
    letter ∈ text := by
  obtain ⟨front, back, rfl, -, -⟩ := has
  simp [member]

/-- A word that cannot begin around a name stands in the name. -/
theorem HasWord.of_append {before name after : Text} (has : HasWord "Last" (before ++ (name ++ after)))
    (absent : 'L' ∉ before) (absentBehind : 'L' ∉ after) (apart : after.head?.any isWord = false) : HasWord "Last" name := by
  obtain ⟨front, back, equal, starts, ends⟩ := has
  have word : isWord 'L' = true ∧ isWord 't' = true := by decide
  rw [show "Last".toList = 'L' :: "ast".toList from rfl, List.cons_append] at equal starts
  obtain ⟨middle, rfl, behind⟩ := exists_split_of_not_mem absent equal
  obtain ⟨rest, rfl, restEqual⟩ := exists_split_of_not_mem_right absentBehind behind
  -- The word ends before what follows the name, which begins with no letter.
  have inside : ∃ more, rest = "ast".toList ++ more ∧ back = more ++ after := by
    rcases List.append_eq_append_iff.mp restEqual with
      ⟨more, restSplit, backEqual⟩ | ⟨more, wordSplit, afterEqual⟩
    · exact ⟨more, restSplit, backEqual⟩
    · cases more with
      | nil => exact ⟨[], by rw [List.append_nil] at wordSplit ⊢; exact wordSplit.symm, afterEqual.symm⟩
      | cons first more =>
        have letters : "ast".toList.all isWord = true := by decide
        have letter := List.all_eq_true.mp letters first (wordSplit ▸ List.mem_append_right _ List.mem_cons_self)
        rw [afterEqual, List.cons_append, List.head?_cons, Option.any_some, letter] at apart
        cases apart
  obtain ⟨more, rfl, rfl⟩ := inside
  refine ⟨middle, more, rfl, ?_, ?_⟩
  · cases middle with
    | nil => exact word.1
    | cons first middle => rwa [List.getLast?_append, Option.or_of_isSome (by simp)] at starts
  · cases more with
    | nil => exact word.2
    | cons first more => exact ends

theorem timestamp_eq (now : Calendar.Instant) (zone : Option Text) :
    now.timestamp zone = paddedInteger 4 (now.inZone zone).date.year ++ (now.inZone zone).format "-MM-DD HH:mm:ss" := by
  have pieces : cut Calendar.DatePart.read? "YYYY-MM-DD HH:mm:ss".toList
      = .token .year :: cut Calendar.DatePart.read? "-MM-DD HH:mm:ss".toList := by decide
  rw [Calendar.Instant.timestamp, Calendar.Moment.format, pieces, render, List.flatMap_cons]
  rfl

namespace Setting

variable {setting : Setting}

theorem fieldValue_lastModified (setting : Setting) :
    setting.fieldValue .lastModified = setting.engine.now.timestamp setting.config.timeZone ++ " (by ".toList
      ++ (nonBlank? setting.context.userName).getD unknownUser ++ ")".toList := rfl

/-- How the editor indents, as it is written behind its name. -/
def indentation (setting : Setting) : Text :=
  ", ".toList ++ (if setting.context.insertSpaces then "space".toList else "tab".toList) ++ " size (".toList
    ++ decimal setting.context.tabSize

theorem fieldValue_editorInfo (setting : Setting) :
    setting.fieldValue .editorInfo = setting.config.editorName ++ (setting.indentation ++ ")".toList) := by
  have value : setting.fieldValue .editorInfo = editorInfo setting.config setting.context := rfl
  simp only [value, editorInfo, indentation, List.append_assoc]

theorem not_mem_indentation (setting : Setting) {character : Char}
    (absent : character ∉ ", spacetab size (".toList ++ decimalDigits) : character ∉ setting.indentation := by
  intro member
  apply absent
  simp only [indentation, List.mem_append] at member
  rcases member with ((member | member) | member) | member
  · exact List.mem_append_left _ ((by decide : ", ".toList ⊆ ", spacetab size (".toList) member)
  · refine List.mem_append_left _ ?_
    split at member
    · exact (by decide : "space".toList ⊆ ", spacetab size (".toList) member
    · exact (by decide : "tab".toList ⊆ ", spacetab size (".toList) member
  · exact List.mem_append_left _ ((by decide : " size (".toList ⊆ ", spacetab size (".toList) member)
  · exact List.mem_append_right _ (mem_decimalDigits_of_mem_decimal member)

theorem fieldValue_plain (plain : setting.NamesPlainly) (field : VolatileField) :
    ¬ HasWord "Last" (setting.fieldValue field) := by
  intro has
  cases field with
  | lastModified =>
    rw [fieldValue_lastModified, List.append_assoc] at has
    -- The letter `L` stands in no time, so a word `Last` would have to be in the name of the user.
    have absent : 'L' ∉ setting.engine.now.timestamp setting.config.timeZone ++ " (by ".toList := by
      rw [List.mem_append, not_or]
      exact ⟨fun member => absurd (Calendar.Moment.of_mem_format member) (by decide), by decide⟩
    have inName := has.of_append absent (by decide) (by decide)
    cases named : nonBlank? setting.context.userName with
    | none =>
      rw [named] at inName
      exact absurd (inName.mem (by decide : 'L' ∈ "Last".toList)) (by decide)
    | some user =>
      rw [named, eq_of_nonBlank? named] at inName
      exact plain.userPlain inName
  | editorInfo =>
    rw [fieldValue_editorInfo] at has
    have absentBehind : 'L' ∉ setting.indentation ++ ")".toList := by
      rw [List.mem_append, not_or]
      exact ⟨setting.not_mem_indentation (by decide), by decide⟩
    have comma : (some ',').any isWord = false := by decide
    exact plain.editorPlain (HasWord.of_append (show HasWord "Last" ([] ++ _) from has) List.not_mem_nil absentBehind comma)

theorem reads_lastModified (plain : setting.NamesPlainly) :
    VolatileField.Reads .lastModified (setting.fieldValue .lastModified) := by
  refine ⟨⟨?_, trimEnd_append_singleton _ (by decide), ?_, fun needed => by cases needed⟩, by simp [fieldValue_lastModified]⟩
  · simp only [fieldValue_lastModified, List.mem_append, not_or]
    refine ⟨⟨⟨fun member => absurd (Calendar.Moment.of_mem_format member) (by decide), by decide⟩, ?_⟩, by decide⟩
    cases named : nonBlank? setting.context.userName with
    | none => exact (by decide : '\n' ∉ unknownUser)
    | some user => exact eq_of_nonBlank? named ▸ plain.userOneLine
  · -- The value begins with the year.
    intro character head
    cases year : paddedInteger 4 (setting.engine.now.inZone setting.config.timeZone).date.year with
    | nil => exact absurd year (paddedInteger_ne_nil _ _)
    | cons first more =>
      rw [fieldValue_lastModified, timestamp_eq, year] at head
      simp only [List.cons_append, List.head?_cons, Option.some.injEq] at head
      have member : first ∈ '-' :: decimalDigits := List.mem_cons.mpr (of_mem_paddedInteger (year ▸ List.mem_cons_self))
      have signs : ('-' :: decimalDigits).all fun sign => !(VolatileField.shape .lastModified).isGap sign := by decide
      simpa [← head] using List.all_eq_true.mp signs first member

theorem reads_editorInfo (plain : setting.NamesPlainly) :
    VolatileField.Reads .editorInfo (setting.fieldValue .editorInfo) := by
  rw [VolatileField.Reads, fieldValue_editorInfo]
  refine ⟨⟨?_, ?_, ?_, fun needed => by cases needed⟩, by simp⟩
  · rw [List.mem_append, List.mem_append, not_or, not_or]
    exact ⟨plain.editorOneLine, setting.not_mem_indentation (by decide), by decide⟩
  · rw [← List.append_assoc]
    exact trimEnd_append_singleton _ (by decide)
  · -- The value begins with the name of the editor, or with the comma behind it if there is none.
    intro character head
    have apart := plain.editorBegins
    cases named : setting.config.editorName with
    | nil =>
      rw [named] at head
      obtain rfl : ',' = character := Option.some.inj head
      decide
    | cons first more =>
      rw [named, List.cons_append, List.head?_cons, Option.some.injEq] at head
      simpa [named, head, VolatileField.shape] using apart

theorem reads_fieldValue (plain : setting.NamesPlainly) : ∀ field : VolatileField, field.Reads (setting.fieldValue field)
  | .lastModified => reads_lastModified plain
  | .editorInfo => reads_editorInfo plain

/-! ## Two refreshes -/

variable {document : Document} {bounds : Bounds}

theorem locate_refresh (wordless : Wordless setting.comment)
    (located : Engine.locate setting.config setting.context document = some bounds) :
    locate setting.comment (setting.refresh document).lines = some bounds := by
  rw [← located]
  refine locate_congr (List.ext_getElem? fun position => ?_)
  rw [List.getElem?_map, List.getElem?_map, getElem?_refresh located, Option.map_map]
  congr 1
  funext line
  exact standing_refreshing wordless position line

/-- Of two refreshes the second counts, and it has nothing left to do. -/
theorem refresh_refresh {first second : Setting} (sameToken : first.comment = second.comment)
    (wordless : Wordless second.comment)
    (sameFields : ∀ field : VolatileField, field.isEnabled first.config = field.isEnabled second.config)
    (plain : first.NamesPlainly) (secondPlain : second.NamesPlainly) (document : Document) :
    second.refresh (first.refresh document) = second.refresh document ∧
      second.engine.refresh second.config second.context (second.refresh document) = none := by
  cases located : locate second.comment document.lines with
  | none =>
    have firstMissing : Engine.locate first.config first.context document = none :=
      (congrArg (locate · document.lines) sameToken).trans located
    rw [refresh_eq_self firstMissing, refresh_eq_self located]
    exact ⟨rfl, by rw [Engine.refresh, show Engine.locate second.config second.context document = none from located]; rfl⟩
  | some bounds =>
    have firstLocated : Engine.locate first.config first.context document = some bounds :=
      (congrArg (locate · document.lines) sameToken).trans located
    have sameEnabled : first.enabled = second.enabled := funext sameFields
    -- The first refresh leaves the bounds where they are, so both write within the same lines.
    have after : locate second.comment (first.refresh document).lines = some bounds :=
      sameToken ▸ locate_refresh (sameToken ▸ wordless) firstLocated
    have reads := reads_fieldValue plain
    constructor
    · have sameLines : (second.refresh (first.refresh document)).lines = (second.refresh document).lines := by
        apply List.ext_getElem?
        intro position
        rw [getElem?_refresh after, getElem?_refresh firstLocated, getElem?_refresh located, Option.map_map]
        congr 1
        funext line
        rw [Function.comp_apply, rewriting, rewriting, sameToken, sameEnabled]
        exact refreshing_refreshing wordless reads (fieldValue_plain plain) _ _ bounds position line
      rw [refresh_with_lines second (first.refresh document), sameLines, refresh_with_lines first document,
        ← refresh_with_lines second document]
    · -- Every line is one that the second refresh has written, and it writes none of these again.
      rw [refresh_eq_none_iff (locate_refresh wordless located)]
      intro position line found
      rw [getElem?_refresh located] at found
      obtain ⟨old, -, rfl⟩ := Option.map_eq_some_iff.mp found
      exact refreshing_refreshing_eq_none wordless (reads_fieldValue secondPlain) (fieldValue_plain secondPlain) position old

/-- Two users save a file after each other. -/
theorem refresh_refresh_by_two :
    let setting (user : Text) (now : Int) : Setting :=
      ⟨⟨.builtin, now⟩, Config.default, { FileContext.ofPath "rust" "/work/src/main.rs" with userName := user }⟩
    let document := Document.ofLines ["//----", "// Last Last Updated : never", "// Editor: none", "//----", "fn main();"]
    let first := setting "kim" 0
    let second := setting "lee" 86400
    Wordless second.comment ∧ first.NamesPlainly ∧ second.NamesPlainly ∧
      (first.refresh document).lines[1]? = some "// Last Updated : 1970-01-01 00:00:00 (by kim)".toList ∧
      second.refresh (first.refresh document) = second.refresh document ∧
      second.engine.refresh second.config second.context (second.refresh document) = none := by
  intro setting document first second
  have editor : '\n' ∉ Config.default.editorName ∧ 'L' ∉ Config.default.editorName ∧
      Config.default.editorName.head? ≠ some ' ' ∧ Config.default.editorName.head? ≠ some '\t' := by decide
  -- A name without the letter `L` holds no word `Last`.
  have named {user : Text} {now : Int} (oneLine : '\n' ∉ user) (plain : 'L' ∉ user) : (setting user now).NamesPlainly := by
    have letter : 'L' ∈ "Last".toList := by decide
    exact ⟨oneLine, fun has => plain (has.mem letter), editor.1, fun has => editor.2.1 (has.mem letter), editor.2.2⟩
  have sameToken : first.comment = second.comment := rfl
  have wordless : Wordless second.comment := by decide +kernel
  have sameFields : ∀ field : VolatileField, field.isEnabled first.config = field.isEnabled second.config := fun _ => rfl
  have firstNamed : first.NamesPlainly := named (by decide) (by decide)
  have secondNamed : second.NamesPlainly := named (by decide) (by decide)
  have located : Engine.locate first.config first.context document = some ⟨0, 3⟩ := by decide +kernel
  have renewed : (first.refresh document).lines[1]? = some "// Last Updated : 1970-01-01 00:00:00 (by kim)".toList := by
    rw [getElem?_refresh located]
    decide +kernel
  exact ⟨wordless, firstNamed, secondNamed, renewed,
    refresh_refresh sameToken wordless sameFields firstNamed secondNamed document⟩

end Setting

end Masthead.Header
